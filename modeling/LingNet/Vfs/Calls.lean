import LingNet.Lib.Run
import LingNet.Vfs.Adapter

/-! What the calls on the adapter do: an error leaves the adapter as it was, and a call that
succeeds makes one change of the tree. -/
namespace LingNet.Vfs
open Zig

/-! The walk returns a node or one of its three errors. -/

theorem walk_ne_trap (root : VfsNode) (components : List (List UInt8)) (current : VfsNode)
    (f : Fault) : walk root current components ≠ .trap f := by
  induction components generalizing current with
  | nil => nofun
  | cons component rest ih =>
    unfold walk
    split_ifs
    · exact ih current
    · exact ih current
    · nofun
    · exact ih root
    · split
      · exact ih _
      · nofun

theorem VfsTree.resolve_ne_trap (t : VfsTree) (path : List UInt8) (f : Fault) :
    t.resolve path ≠ .trap f := by
  unfold VfsTree.resolve
  split_ifs
  · exact walk_ne_trap _ _ _ f
  · nofun

theorem VfsTree.parentOf_ne_trap (t : VfsTree) (path : List UInt8) (f : Fault) :
    t.parentOf path ≠ .trap f := by
  unfold VfsTree.parentOf
  simp only
  split_ifs
  · nofun
  · exact t.resolve_ne_trap _ f

namespace VfsAdapter

variable {self self' : VfsAdapter} {mem : Memory} {path : List UInt8} {data : Bytes}

theorem addChild_run {parent : VfsNode} {entry : VfsEntry} :
    addChild mem parent entry self =
      if mem.appended then
        (.ok self.tree.next, { self with tree := self.tree.addChild parent.id entry })
      else (.err .outOfMemory, self) := by
  unfold addChild
  rw [Proc.bind_of_ok (Proc.get_run self)]
  split_ifs <;> rfl

/-- The entry of a new file. -/
def fileEntry (path : List UInt8) (data : Bytes) : VfsEntry where
  name := Path.basename path
  nodeType := .file
  permissions := 0o644
  owner := 0
  group := 0
  size := data.val.length
  data := some data

/-- The entry of a new directory. -/
def dirEntry (path : List UInt8) : VfsEntry where
  name := Path.basename path
  nodeType := .directory
  permissions := 0o755
  owner := 0
  group := 0
  size := 0
  data := none

/-- What a successful `createFile` has checked and done. -/
structure FileCreated (s : VfsAdapter) (path : List UInt8) (data : Bytes)
    (s' : VfsAdapter) : Prop where
  writable : s.config.readOnly = false
  fileCount_lt : s.fileCount < s.config.maxFiles
  totalSize_le : s.totalSize + data.val.length ≤ s.config.maxTotalSize
  parent : ∃ parent, s.tree.parentOf path = .ok parent ∧
    s' = { s with
      tree := s.tree.addChild parent.id (fileEntry path data)
      fileCount := s.fileCount + 1
      totalSize := s.totalSize + data.val.length }

theorem init_eq {name : List UInt8} {nodeType : VfsNodeType} {entry : VfsEntry}
    (h : VfsNode.init mem name nodeType = .ok entry) :
    entry = {
      name := name
      nodeType := nodeType
      permissions := if nodeType = .directory then 0o755 else 0o644
      owner := 0
      group := 0
      size := 0
      data := none } := by
  unfold VfsNode.init at h
  by_cases hmem : mem.created
  · rw [if_pos hmem] at h
    exact (Outcome.ok.inj h).symm
  · rw [if_neg hmem] at h
    cases h

theorem createFile_cases {r : Outcome VfsError ℕ}
    (h : createFile mem path data self = (r, self')) :
    (∃ e, r = .err e ∧ self' = self) ∨ (∃ f, r = .trap f) ∨
      r = .ok self.tree.next ∧ FileCreated self path data self' := by
  unfold createFile at h
  rw [Proc.bind_of_ok (Proc.get_run self)] at h
  rcases Proc.fail_ite_cases h with ⟨hr, hs⟩ | ⟨hro, h⟩
  · exact .inl ⟨_, hr, hs⟩
  rcases Proc.fail_ite_cases h with ⟨hr, hs⟩ | ⟨hfiles, h⟩
  · exact .inl ⟨_, hr, hs⟩
  rcases Proc.lift_bind_cases h with ⟨total, htotal, h⟩ | ⟨e, _, hr, hs⟩ | ⟨f, _, hr⟩
  rotate_left
  · exact .inl ⟨e, hr, hs⟩
  · exact .inr (.inl ⟨f, hr⟩)
  obtain ⟨_, hsum⟩ := add_eq_ok.mp htotal
  rcases Proc.fail_ite_cases h with ⟨hr, hs⟩ | ⟨hquota, h⟩
  · exact .inl ⟨_, hr, hs⟩
  rcases Proc.fail_ite_cases h with ⟨hr, hs⟩ | ⟨_, h⟩
  · exact .inl ⟨_, hr, hs⟩
  rcases Proc.lift_bind_cases h with ⟨parent, hparent, h⟩ | ⟨e, _, hr, hs⟩ | ⟨f, _, hr⟩
  rotate_left
  · exact .inl ⟨e, hr, hs⟩
  · exact .inr (.inl ⟨f, hr⟩)
  rcases Proc.lift_bind_cases h with ⟨entry, hentry, h⟩ | ⟨e, _, hr, hs⟩ | ⟨f, _, hr⟩
  rotate_left
  · exact .inl ⟨e, hr, hs⟩
  · exact .inr (.inl ⟨f, hr⟩)
  rw [init_eq hentry] at h
  by_cases happ : mem.appended
  · rw [Proc.bind_of_ok (addChild_run.trans (if_pos happ))] at h
    rcases Proc.lift_bind_cases h with ⟨fileCount, hcount, h⟩ | ⟨e, he, _, _⟩ | ⟨f, _, hr⟩
    rotate_left
    · exact absurd he add_ne_err
    · exact .inr (.inl ⟨f, hr⟩)
    obtain ⟨_, rfl⟩ := add_eq_ok.mp hcount
    rw [Proc.bind_of_ok (Proc.modify_run ..), Proc.lift_bind_of_ok htotal,
      Proc.bind_of_ok (Proc.modify_run ..)] at h
    cases h
    rw [hsum] at hquota ⊢
    exact .inr (.inr ⟨rfl, Bool.eq_false_of_not_eq_true hro, Nat.lt_of_not_le hfiles,
      Nat.le_of_not_lt hquota, parent, hparent, rfl⟩)
  · rw [Proc.bind_of_err (addChild_run.trans (if_neg happ))] at h
    cases h
    exact .inl ⟨_, rfl, rfl⟩

/-- What a successful `createDir` has checked and done. -/
structure DirCreated (s : VfsAdapter) (path : List UInt8) (s' : VfsAdapter) : Prop where
  writable : s.config.readOnly = false
  parent : ∃ parent, s.tree.parentOf path = .ok parent ∧
    s' = { s with tree := s.tree.addChild parent.id (dirEntry path) }

theorem createDir_cases {r : Outcome VfsError ℕ} (h : createDir mem path self = (r, self')) :
    (∃ e, r = .err e ∧ self' = self) ∨ (∃ f, r = .trap f) ∨
      r = .ok self.tree.next ∧ DirCreated self path self' := by
  unfold createDir at h
  rw [Proc.bind_of_ok (Proc.get_run self)] at h
  rcases Proc.fail_ite_cases h with ⟨hr, hs⟩ | ⟨hro, h⟩
  · exact .inl ⟨_, hr, hs⟩
  rcases Proc.lift_bind_cases h with ⟨parent, hparent, h⟩ | ⟨e, _, hr, hs⟩ | ⟨f, _, hr⟩
  rotate_left
  · exact .inl ⟨e, hr, hs⟩
  · exact .inr (.inl ⟨f, hr⟩)
  rcases Proc.lift_bind_cases h with ⟨entry, hentry, h⟩ | ⟨e, _, hr, hs⟩ | ⟨f, _, hr⟩
  rotate_left
  · exact .inl ⟨e, hr, hs⟩
  · exact .inr (.inl ⟨f, hr⟩)
  rw [init_eq hentry, addChild_run] at h
  by_cases happ : mem.appended
  · rw [if_pos happ] at h
    cases h
    exact .inr (.inr ⟨rfl, Bool.eq_false_of_not_eq_true hro, parent, hparent, rfl⟩)
  · rw [if_neg happ] at h
    cases h
    exact .inl ⟨_, rfl, rfl⟩

/-- A call that creates a node returns an error and changes nothing, traps, or hangs one new node
with the base name of the path below its parent. -/
inductive Creates (s : VfsAdapter) (path : List UInt8) : Outcome VfsError ℕ → VfsAdapter → Prop
  | err (e : VfsError) : Creates s path (.err e) s
  | trap (f : Fault) (s' : VfsAdapter) : Creates s path (.trap f) s'
  | ok {parent : VfsNode} {s' : VfsAdapter} (entry : VfsEntry)
      (hparent : s.tree.parentOf path = .ok parent) (hname : entry.name = Path.basename path)
      (htree : s'.tree = s.tree.addChild parent.id entry) : Creates s path (.ok s.tree.next) s'

theorem createFile_creates {r : Outcome VfsError ℕ}
    (h : createFile mem path data self = (r, self')) : Creates self path r self' := by
  rcases createFile_cases h with ⟨e, rfl, rfl⟩ | ⟨f, rfl⟩ | ⟨rfl, hcreated⟩
  · exact .err e
  · exact .trap f self'
  · obtain ⟨_, _, _, parent, hparent, rfl⟩ := hcreated
    exact .ok (fileEntry path data) hparent rfl rfl

theorem createDir_creates {r : Outcome VfsError ℕ} (h : createDir mem path self = (r, self')) :
    Creates self path r self' := by
  rcases createDir_cases h with ⟨e, rfl, rfl⟩ | ⟨f, rfl⟩ | ⟨rfl, hcreated⟩
  · exact .err e
  · exact .trap f self'
  · obtain ⟨_, parent, hparent, rfl⟩ := hcreated
    exact .ok (dirEntry path) hparent rfl rfl

/-- What `deleteFile` takes away: the first child with the base name of the path, its index
and its parent. -/
structure Doomed (t : VfsTree) (path : List UInt8) (parent child : VfsNode) (i : ℕ) : Prop where
  parent_eq : t.parentOf path = .ok parent
  found : parent.children.zipIdx.find? (fun entry => entry.1.val.name = Path.basename path) =
    some (child, i)

theorem Doomed.getElem? {t : VfsTree} {parent child : VfsNode} {i : ℕ}
    (h : Doomed t path parent child i) : parent.children[i]? = some child :=
  List.mk_mem_zipIdx_iff_getElem?.mp (List.mem_of_find?_eq_some h.found)

theorem Doomed.findChild {t : VfsTree} {parent child : VfsNode} {i : ℕ}
    (h : Doomed t path parent child i) :
    VfsNode.findChild parent (Path.basename path) = some child := by
  unfold VfsNode.findChild
  rw [← List.zipIdx_map_fst 0 parent.children, List.find?_map]
  exact congrArg (Option.map Prod.fst) h.found

theorem deleteFile_cases {r : Outcome VfsError Unit} (h : deleteFile path self = (r, self')) :
    (∃ e, r = .err e ∧ self' = self ∧
      (self.config.readOnly = true ∨ ∀ parent child i, ¬ Doomed self.tree path parent child i)) ∨
      ∃ parent child i, Doomed self.tree path parent child i ∧ self.config.readOnly = false ∧
        (r = .trap .integerOverflow ∧ (self.totalSize < child.val.size ∨ self.fileCount = 0) ∨
          r = .ok () ∧ child.val.size ≤ self.totalSize ∧ self.fileCount ≠ 0 ∧
          self' = { self with
            tree := self.tree.removeChild parent.id i
            totalSize := self.totalSize - child.val.size
            fileCount := self.fileCount - 1 }) := by
  unfold deleteFile at h
  rw [Proc.bind_of_ok (Proc.get_run self)] at h
  by_cases hro : self.config.readOnly = true
  · rw [if_pos hro] at h
    cases h
    exact .inl ⟨_, rfl, rfl, .inl hro⟩
  rw [if_neg hro] at h
  cases hparent : self.tree.parentOf path with
  | trap f => exact absurd hparent (self.tree.parentOf_ne_trap path f)
  | err e =>
    rw [hparent] at h
    cases h
    refine .inl ⟨_, rfl, rfl, .inr fun parent child i hdoomed => ?_⟩
    cases hparent.symm.trans hdoomed.parent_eq
  | ok parent =>
    rw [Proc.lift_bind_of_ok hparent] at h
    cases hfind : parent.children.zipIdx.find? fun entry =>
        entry.1.val.name = Path.basename path with
    | none =>
      simp only [hfind] at h
      cases h
      refine .inl ⟨_, rfl, rfl, .inr fun parent child i hdoomed => ?_⟩
      cases hparent.symm.trans hdoomed.parent_eq
      cases hfind.symm.trans hdoomed.found
    | some found =>
      obtain ⟨child, i⟩ := found
      simp only [hfind] at h
      refine .inr ⟨parent, child, i, ⟨hparent, hfind⟩,
        Bool.eq_false_of_not_eq_true hro, ?_⟩
      rcases Proc.lift_bind_cases h with ⟨total, htotal, h⟩ | ⟨e, he, _⟩ | ⟨f, hf, hr⟩
      · obtain ⟨hle, htotal⟩ := sub_eq_ok.mp htotal
        rw [Proc.bind_of_ok (Proc.modify_run ..)] at h
        rcases Proc.lift_bind_cases h with ⟨count, hcount, h⟩ | ⟨e, he, _⟩ | ⟨f, hf, hr⟩
        · obtain ⟨hpos, hcount⟩ := sub_eq_ok.mp hcount
          rw [Proc.bind_of_ok (Proc.modify_run ..), Proc.modify_run] at h
          cases h
          rw [htotal, hcount]
          exact .inr ⟨rfl, hle, Nat.one_le_iff_ne_zero.mp hpos, rfl⟩
        · exact absurd he sub_ne_err
        · obtain ⟨hlt, rfl⟩ := sub_eq_trap.mp hf
          exact .inl ⟨hr, .inr (Nat.lt_one_iff.mp hlt)⟩
      · exact absurd he sub_ne_err
      · obtain ⟨hlt, rfl⟩ := sub_eq_trap.mp hf
        exact .inl ⟨hr, .inl hlt⟩

theorem Doomed.unique {t : VfsTree} {parent child parent' child' : VfsNode} {i i' : ℕ}
    (h : Doomed t path parent child i) (h' : Doomed t path parent' child' i') :
    parent' = parent ∧ child' = child ∧ i' = i := by
  cases h.parent_eq.symm.trans h'.parent_eq
  cases h.found.symm.trans h'.found
  exact ⟨rfl, rfl, rfl⟩

end VfsAdapter

/-! Runs of calls. -/

inductive VfsOp where
  | createFile (mem : Memory) (path : List UInt8) (data : Bytes)
  | deleteFile (path : List UInt8)
  | createDir (mem : Memory) (path : List UInt8)

/-- The state after a call that returns a value or an error. -/
def settle {α : Type} : Outcome VfsError α × VfsAdapter → Option VfsAdapter
  | (.trap _, _) => none
  | (_, self) => some self

namespace VfsAdapter

/-- A call that traps ends the run. -/
def step (self : VfsAdapter) : VfsOp → Option VfsAdapter
  | .createFile mem path data => settle (createFile mem path data self)
  | .deleteFile path => settle (deleteFile path self)
  | .createDir mem path => settle (createDir mem path self)

theorem settle_eq_some {α : Type} {x : Outcome VfsError α × VfsAdapter} {self : VfsAdapter}
    (h : settle x = some self) : ∃ r, x = (r, self) ∧ ∀ f, r ≠ .trap f := by
  rcases x with ⟨a | e | f, s⟩
  · cases h
    exact ⟨_, rfl, nofun⟩
  · cases h
    exact ⟨_, rfl, nofun⟩
  · cases h

/-- What one call that does not trap can do. -/
theorem step_cases {self self' : VfsAdapter} {op : VfsOp} (h : self.step op = some self') :
    self' = self ∨
      (∃ mem path data, op = .createFile mem path data ∧ FileCreated self path data self') ∨
      (∃ mem path, op = .createDir mem path ∧ DirCreated self path self') ∨
      ∃ path parent child i, op = .deleteFile path ∧ Doomed self.tree path parent child i ∧
        self.config.readOnly = false ∧ child.val.size ≤ self.totalSize ∧ self.fileCount ≠ 0 ∧
        self' = { self with
          tree := self.tree.removeChild parent.id i
          totalSize := self.totalSize - child.val.size
          fileCount := self.fileCount - 1 } := by
  cases op with
  | createFile mem path data =>
    obtain ⟨r, hrun, hr⟩ := settle_eq_some h
    rcases createFile_cases hrun with ⟨e, _, hs⟩ | ⟨f, hf⟩ | ⟨_, hcreated⟩
    · exact .inl hs
    · exact absurd hf (hr f)
    · exact .inr (.inl ⟨mem, path, data, rfl, hcreated⟩)
  | createDir mem path =>
    obtain ⟨r, hrun, hr⟩ := settle_eq_some h
    rcases createDir_cases hrun with ⟨e, _, hs⟩ | ⟨f, hf⟩ | ⟨_, hcreated⟩
    · exact .inl hs
    · exact absurd hf (hr f)
    · exact .inr (.inr (.inl ⟨mem, path, rfl, hcreated⟩))
  | deleteFile path =>
    obtain ⟨r, hrun, hr⟩ := settle_eq_some h
    rcases deleteFile_cases hrun with ⟨e, _, hs, _⟩ | ⟨parent, child, i, hdoomed, hro, hcase⟩
    · exact .inl hs
    · rcases hcase with ⟨hf, _⟩ | ⟨_, hsize, hcount, hs⟩
      · exact absurd hf (hr _)
      · exact .inr (.inr (.inr
          ⟨path, parent, child, i, rfl, hdoomed, hro, hsize, hcount, hs⟩))

end VfsAdapter
end LingNet.Vfs
