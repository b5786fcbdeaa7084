import LingNet.Vfs.Walk
import Mathlib.Algebra.BigOperators.Group.List.Basic

/-! The quota counters against the tree: when they count its files and bytes, and which deletions
break them. -/
namespace LingNet.Vfs
open Zig

def isFile (x : ℕ × VfsEntry) : Bool := x.2.nodeType = .file

/-- The number of file nodes of a tree. -/
def fileNodes (node : VfsNode) : ℕ := node.nodes.countP isFile

/-- The bytes of the file nodes of a tree. -/
def fileBytes (node : VfsNode) : ℕ := ((node.nodes.filter isFile).map fun x => x.2.size).sum

open List in
theorem fileNodes_eq_of_perm {a b : VfsNode} {l : List (ℕ × VfsEntry)}
    (h : a.nodes ~ b.nodes ++ l) : fileNodes a = fileNodes b + l.countP isFile := by
  unfold fileNodes
  rw [h.countP_eq, countP_append]

open List in
theorem fileBytes_eq_of_perm {a b : VfsNode} {l : List (ℕ × VfsEntry)}
    (h : a.nodes ~ b.nodes ++ l) :
    fileBytes a = fileBytes b + ((l.filter isFile).map fun x => x.2.size).sum := by
  unfold fileBytes
  rw [((h.filter isFile).map _).sum_eq, filter_append, map_append, sum_append]

namespace VfsTree

variable {t : VfsTree} {parent child : VfsNode}

open List in
theorem nodes_addChild (hparent : parent.Sub t.root) (entry : VfsEntry) :
    (t.addChild parent.id entry).root.nodes ~ t.root.nodes ++ [(t.next, entry)] :=
  IdTree.nodes_append_perm hparent t.nodup (.node t.next entry [])

open List in
theorem nodes_removeChild (hparent : parent.Sub t.root) {i : ℕ}
    (hchild : parent.children[i]? = some child) :
    t.root.nodes ~ (t.removeChild parent.id i).root.nodes ++ child.nodes :=
  (IdTree.nodes_removeChild_perm hparent t.nodup hchild).symm

end VfsTree

namespace VfsAdapter

/-- The counters are those of the tree, and within the limits. -/
structure Accounted (s : VfsAdapter) : Prop where
  totalSize : s.totalSize = fileBytes s.tree.root
  fileCount : s.fileCount = fileNodes s.tree.root
  totalSize_le : s.totalSize ≤ s.config.maxTotalSize
  fileCount_le : s.fileCount ≤ s.config.maxFiles

theorem Accounted.init (config : VfsSandboxConfig) : Accounted (init config) where
  totalSize := rfl
  fileCount := rfl
  totalSize_le := Nat.zero_le _
  fileCount_le := Nat.zero_le _

theorem Accounted.createFile {self self' : VfsAdapter} {path : List UInt8} {data : Bytes}
    (h : Accounted self) (hcreated : FileCreated self path data self') : Accounted self' := by
  obtain ⟨_, hcount, htotal, parent, hparent, rfl⟩ := hcreated
  have hperm := VfsTree.nodes_addChild (VfsTree.sub_of_parentOf hparent) (fileEntry path data)
  constructor
  · exact (congrArg (· + data.val.length) h.totalSize).trans (fileBytes_eq_of_perm hperm).symm
  · exact (congrArg (· + 1) h.fileCount).trans (fileNodes_eq_of_perm hperm).symm
  · exact htotal
  · exact hcount

theorem Accounted.createDir {self self' : VfsAdapter} {path : List UInt8}
    (h : Accounted self) (hcreated : DirCreated self path self') : Accounted self' := by
  obtain ⟨_, parent, hparent, rfl⟩ := hcreated
  have hperm := VfsTree.nodes_addChild (VfsTree.sub_of_parentOf hparent) (dirEntry path)
  constructor
  · exact h.totalSize.trans (fileBytes_eq_of_perm hperm).symm
  · exact h.fileCount.trans (fileNodes_eq_of_perm hperm).symm
  · exact h.totalSize_le
  · exact h.fileCount_le

/-- The counters are those of what a deletion leaves and of what it takes away. -/
theorem Accounted.split {self : VfsAdapter} (h : Accounted self) {path : List UInt8}
    {parent child : VfsNode} {i : ℕ} (hdoomed : Doomed self.tree path parent child i) :
    self.totalSize = fileBytes (self.tree.removeChild parent.id i).root + fileBytes child ∧
      self.fileCount = fileNodes (self.tree.removeChild parent.id i).root + fileNodes child := by
  have hperm := VfsTree.nodes_removeChild (VfsTree.sub_of_parentOf hdoomed.parent_eq)
    hdoomed.getElem?
  constructor
  · exact h.totalSize.trans (fileBytes_eq_of_perm hperm)
  · exact h.fileCount.trans (fileNodes_eq_of_perm hperm)

/-- The state after a deletion is accounted for exactly when the deleted tree had one file, of
the size of the deleted node. -/
theorem Accounted.removeChild_iff {self : VfsAdapter} (h : Accounted self)
    {path : List UInt8} {parent child : VfsNode} {i : ℕ}
    (hdoomed : Doomed self.tree path parent child i) (hsize : child.val.size ≤ self.totalSize)
    (hcount : self.fileCount ≠ 0) :
    Accounted { self with
      tree := self.tree.removeChild parent.id i
      totalSize := self.totalSize - child.val.size
      fileCount := self.fileCount - 1 } ↔
      fileNodes child = 1 ∧ fileBytes child = child.val.size := by
  obtain ⟨hbytes, hfiles⟩ := h.split hdoomed
  constructor
  · intro hacc
    have htotal' := hacc.totalSize
    have hfiles' := hacc.fileCount
    simp only at htotal' hfiles'
    omega
  · intro hchild
    obtain ⟨hone, hown⟩ := hchild
    constructor
    · simp only
      omega
    · simp only
      omega
    · exact (Nat.sub_le _ _).trans h.totalSize_le
    · exact (Nat.sub_le _ _).trans h.fileCount_le

/-- The call does not trap in a deletion, and leaves the counters those of the tree and within
the limits. -/
def Kept (self : VfsAdapter) (op : VfsOp) : Prop :=
  (∀ path f self', op = .deleteFile path → VfsAdapter.deleteFile path self ≠ (.trap f, self')) ∧
    ∀ self', self.step op = some self' → Accounted self'

/-- A deletion takes away one file, and no more bytes than the deleted node's own size says. -/
def RemovesOneFile (self : VfsAdapter) : VfsOp → Prop
  | .deleteFile path => ∀ parent child i, self.config.readOnly = false →
      Doomed self.tree path parent child i →
        fileNodes child = 1 ∧ fileBytes child = child.val.size
  | _ => True

/-- Calls that only add nodes keep the counters. -/
theorem kept_of_adds {self : VfsAdapter} (h : Accounted self) {op : VfsOp}
    (hop : ∀ path, op ≠ .deleteFile path) : Kept self op := by
  constructor
  · intro path f self' heq
    exact absurd heq (hop path)
  · intro self' hstep
    rcases step_cases hstep with rfl | ⟨_, _, _, _, hcreated⟩ | ⟨_, _, _, hcreated⟩ |
      ⟨path, _, _, _, heq, _⟩
    · exact h
    · exact h.createFile hcreated
    · exact h.createDir hcreated
    · exact absurd heq (hop path)

/-- A deletion that keeps the counters takes away one file. -/
theorem removesOneFile_of_kept {self : VfsAdapter} (h : Accounted self) {path : List UInt8}
    (hkept : Kept self (.deleteFile path)) : RemovesOneFile self (.deleteFile path) := by
  intro parent child i hro hdoomed
  obtain ⟨hno, hstep⟩ := hkept
  rcases hrun : VfsAdapter.deleteFile path self with ⟨r, self'⟩
  rcases deleteFile_cases hrun with ⟨_, _, _, hro' | hfree⟩ | ⟨_, _, _, hdoomed', _, hcase⟩
  · rw [hro] at hro'
    cases hro'
  · exact absurd hdoomed (hfree _ _ _)
  · obtain ⟨rfl, rfl, rfl⟩ := hdoomed.unique hdoomed'
    rcases hcase with ⟨rfl, _⟩ | ⟨rfl, hsize, hcount, rfl⟩
    · exact absurd hrun (hno path _ _ rfl)
    · have hrun' : self.step (.deleteFile path) = some _ := congrArg settle hrun
      exact (h.removeChild_iff hdoomed hsize hcount).mp (hstep _ hrun')

theorem kept_of_removesOneFile {self : VfsAdapter} (h : Accounted self) {path : List UInt8}
    (hone : RemovesOneFile self (.deleteFile path)) : Kept self (.deleteFile path) := by
  constructor
  · intro path' f self' heq hrun
    cases heq
    rcases deleteFile_cases hrun with ⟨_, hr, _⟩ | ⟨parent, child, i, hdoomed, hro, hcase⟩
    · cases hr
    · obtain ⟨hfiles, hbytes⟩ := hone parent child i hro hdoomed
      obtain ⟨htotal, hcount⟩ := h.split hdoomed
      rcases hcase with ⟨_, hlt | hzero⟩ | ⟨hr, _⟩
      · omega
      · omega
      · cases hr
  · intro self' hstep
    rcases step_cases hstep with rfl | ⟨_, _, _, heq, _⟩ | ⟨_, _, heq, _⟩ |
      ⟨_, parent, child, i, heq, hdoomed, hro, hsize, hcount, rfl⟩
    · exact h
    · cases heq
    · cases heq
    · cases heq
      exact (h.removeChild_iff hdoomed hsize hcount).mpr (hone parent child i hro hdoomed)

theorem kept_iff {self : VfsAdapter} (h : Accounted self) (op : VfsOp) :
    Kept self op ↔ RemovesOneFile self op := by
  cases op with
  | createFile mem path data => exact iff_of_true (kept_of_adds h nofun) trivial
  | createDir mem path => exact iff_of_true (kept_of_adds h nofun) trivial
  | deleteFile path =>
    constructor
    · exact removesOneFile_of_kept h
    · exact kept_of_removesOneFile h

/-- From a new adapter, the counters are kept through all calls exactly when every deletion takes
away one file whose bytes are the deleted node's own size. -/
theorem allSteps_kept_iff (config : VfsSandboxConfig) (ops : List VfsOp) :
    Run.AllSteps step Kept (init config) ops ↔
      Run.AllSteps step RemovesOneFile (init config) ops :=
  Run.allSteps_congr (I := Accounted) (fun _ op h => kept_iff h op)
    (fun _ op _ h hone hstep => ((kept_iff h op).mpr hone).2 _ hstep) (Accounted.init config)

/-- `/d` -/
def dirPath : List UInt8 := [47, 100]

/-- A new adapter after `createDir("/d")`. -/
def withDir : VfsAdapter :=
  { init {} with tree := (init {}).tree.addChild 0 (dirEntry dirPath) }

theorem step_createDir : (init {}).step (.createDir {} dirPath) = some withDir := rfl

/-- Deleting an empty directory traps: the counter of files is zero. -/
theorem deleteFile_dir_traps :
    ¬ Run.AllSteps step Kept (init {}) [.createDir {} dirPath, .deleteFile dirPath] := by
  intro h
  have hkept := (h.2 withDir step_createDir).1
  have htrap : (VfsAdapter.deleteFile dirPath withDir).1 = .trap .integerOverflow := by decide
  exact hkept.1 dirPath .integerOverflow _ rfl (Prod.ext htrap rfl)

end VfsAdapter
end LingNet.Vfs
