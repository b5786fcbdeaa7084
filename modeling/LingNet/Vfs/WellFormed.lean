import LingNet.Vfs.Walk

/-! When the tree stays well formed: children only below directories, under distinct names that
a walk can reach. -/
namespace LingNet.Vfs
open Zig

/-- A name that a component of a path can be. -/
def Reachable (name : List UInt8) : Prop := Proper name ∧ Path.slash ∉ name

/-- One node with its children. -/
structure NodeFormed (node : VfsNode) : Prop where
  directory : node.children ≠ [] → node.val.nodeType = .directory
  nodup : (node.children.map fun child => child.val.name).Nodup
  reachable : ∀ child ∈ node.children, Reachable child.val.name

def WellFormed (t : VfsTree) : Prop := ∀ node : VfsNode, node.Sub t.root → NodeFormed node

/-- A node without children is well formed. -/
theorem NodeFormed.of_nil {node : VfsNode} (h : node.children = []) : NodeFormed node where
  directory hne := absurd h hne
  nodup := by
    rw [h]
    exact List.nodup_nil
  reachable := by
    rw [h]
    exact List.forall_mem_nil _

theorem WellFormed.init (config : VfsSandboxConfig) : WellFormed (VfsAdapter.init config).tree := by
  intro node hnode
  cases hnode with
  | refl => exact .of_nil rfl
  | child hc => cases hc

section Change

variable {p : ℕ} {g : List VfsNode → List VfsNode}

theorem map_name_modify (l : List VfsNode) :
    (l.map (IdTree.modify p g)).map (fun child => child.val.name) =
      l.map fun child => child.val.name := by
  rw [List.map_map]
  refine List.map_congr_left fun child _ => ?_
  exact congrArg VfsEntry.name IdTree.val_modify

/-- A node that is not the changed one is as well formed as before. -/
theorem NodeFormed.modify_of_ne {node : VfsNode} (h : NodeFormed node) (hid : node.id ≠ p) :
    NodeFormed (IdTree.modify p g node) := by
  have hchildren := IdTree.children_modify_of_ne (g := g) hid
  constructor
  · intro hne
    rw [IdTree.val_modify]
    apply h.directory
    intro hnil
    rw [hchildren, hnil] at hne
    exact hne rfl
  · rw [hchildren, map_name_modify]
    exact h.nodup
  · intro child hchild
    rw [hchildren] at hchild
    obtain ⟨old, hold, rfl⟩ := List.mem_map.mp hchild
    rw [IdTree.val_modify]
    exact h.reachable old hold

end Change

namespace VfsTree

variable {t : VfsTree} {parent : VfsNode} {entry : VfsEntry}

/-- The node that `addChild` changes. -/
def grown (t : VfsTree) (parent : VfsNode) (entry : VfsEntry) : VfsNode :=
  IdTree.append parent.id (.node t.next entry []) parent

theorem children_grown (hparent : parent.Sub t.root) (entry : VfsEntry) :
    (t.grown parent entry).children = parent.children ++ [.node t.next entry []] := by
  unfold grown IdTree.append
  rw [IdTree.children_modify_self rfl, IdTree.map_modify_children (hparent.nodup t.nodup)]

theorem nodeFormed_grown_iff (hparent : parent.Sub t.root) (h : NodeFormed parent) :
    NodeFormed (t.grown parent entry) ↔ parent.val.nodeType = .directory ∧
      (∀ child ∈ parent.children, child.val.name ≠ entry.name) ∧ Reachable entry.name := by
  have hchildren := children_grown hparent entry
  have hval : (t.grown parent entry).val = parent.val := IdTree.val_modify
  have hnames : (t.grown parent entry).children.map (fun child => child.val.name) =
      parent.children.map (fun child => child.val.name) ++ [entry.name] := by
    rw [hchildren, List.map_append]
    rfl
  constructor
  · intro hnew
    refine ⟨?_, ?_, ?_⟩
    · rw [← hval]
      apply hnew.directory
      rw [hchildren]
      exact List.concat_ne_nil _ _
    · intro child hchild heq
      have hnodup := hnew.nodup
      rw [hnames, List.nodup_append'] at hnodup
      refine hnodup.2.2 (List.mem_map_of_mem hchild) ?_
      rw [heq]
      exact List.mem_singleton_self _
    · apply hnew.reachable (.node t.next entry [])
      rw [hchildren]
      exact List.mem_append_right _ (List.mem_singleton_self _)
  · intro hfresh
    obtain ⟨hdirectory, hnames', hreach⟩ := hfresh
    constructor
    · intro _
      rw [hval]
      exact hdirectory
    · rw [hnames, List.nodup_append']
      refine ⟨h.nodup, List.nodup_singleton _, ?_⟩
      intro name hname hnew
      obtain ⟨child, hchild, rfl⟩ := List.mem_map.mp hname
      exact hnames' child hchild (List.mem_singleton.mp hnew)
    · intro child hchild
      rw [hchildren] at hchild
      rcases List.mem_append.mp hchild with hold | hnew
      · exact h.reachable child hold
      · rw [List.mem_singleton.mp hnew]
        exact hreach

/-- A new child keeps the tree well formed exactly below a directory and under a new name
that a walk can reach. -/
theorem wellFormed_addChild_iff (h : WellFormed t) (hparent : parent.Sub t.root) :
    WellFormed (t.addChild parent.id entry) ↔ parent.val.nodeType = .directory ∧
      (∀ child ∈ parent.children, child.val.name ≠ entry.name) ∧ Reachable entry.name := by
  rw [← nodeFormed_grown_iff hparent (h parent hparent)]
  constructor
  · intro hnew
    exact hnew _ (hparent.modify fun l => List.subset_append_left l _)
  · intro hgrown node hnode
    rcases IdTree.sub_modify (IdTree.mem_append_singleton _) hnode with ⟨s, hs, rfl⟩ | ⟨n, hn, hsub⟩
    · by_cases hid : s.id = parent.id
      · cases hs.unique hparent t.nodup hid
        exact hgrown
      · exact (h s hs).modify_of_ne hid
    · rw [List.mem_singleton.mp hn] at hsub
      cases hsub with
      | refl => exact .of_nil rfl
      | child hc => cases hc

theorem wellFormed_removeChild (h : WellFormed t) (p i : ℕ) : WellFormed (t.removeChild p i) := by
  intro node hnode
  rcases IdTree.sub_modify (IdTree.mem_eraseIdx i) hnode with ⟨s, hs, rfl⟩ | ⟨n, hn, _⟩
  · by_cases hid : s.id = p
    · have hold := h s hs
      have hchildren := IdTree.children_modify_self (g := fun ts => ts.eraseIdx i) hid
      have hsub : (s.children.map (IdTree.modify p fun ts => ts.eraseIdx i)).eraseIdx i |>.Sublist
          (s.children.map (IdTree.modify p fun ts => ts.eraseIdx i)) := List.eraseIdx_sublist _ _
      constructor
      · intro hne
        rw [IdTree.val_modify]
        apply hold.directory
        intro hnil
        rw [hchildren, hnil] at hne
        exact hne rfl
      · rw [hchildren]
        have hnames := hsub.map fun child : VfsNode => child.val.name
        rw [map_name_modify] at hnames
        exact hold.nodup.sublist hnames
      · intro child hchild
        rw [hchildren] at hchild
        obtain ⟨old, hmem, rfl⟩ := List.mem_map.mp (hsub.subset hchild)
        rw [IdTree.val_modify]
        exact hold.reachable old hmem
    · exact (h s hs).modify_of_ne hid
  · cases hn

end VfsTree
namespace VfsAdapter

/-- The parent of a path is a directory without a child of the base name, which is neither empty
nor a dot or two. -/
def FreshName (s : VfsAdapter) (path : List UInt8) : Prop :=
  ∀ parent : VfsNode, s.tree.parentOf path = .ok parent →
    parent.val.nodeType = .directory ∧
      (∀ child ∈ parent.children, child.val.name ≠ Path.basename path) ∧
      Proper (Path.basename path)

/-- A call that creates a node does so under a fresh name. -/
def CreatesFresh (s : VfsAdapter) : VfsOp → Prop
  | .createFile mem path data =>
    ∀ node, (VfsAdapter.createFile mem path data s).1 = .ok node → FreshName s path
  | .createDir mem path =>
    ∀ node, (VfsAdapter.createDir mem path s).1 = .ok node → FreshName s path
  | .deleteFile _ => True

/-- The call leaves a well-formed tree. -/
def LeavesWellFormed (s : VfsAdapter) (op : VfsOp) : Prop :=
  ∀ s', s.step op = some s' → WellFormed s'.tree

theorem wellFormed_created_iff {s : VfsAdapter} (h : WellFormed s.tree) {path : List UInt8}
    {parent : VfsNode} (hparent : s.tree.parentOf path = .ok parent) (entry : VfsEntry)
    (hname : entry.name = Path.basename path) :
    WellFormed (s.tree.addChild parent.id entry) ↔ FreshName s path := by
  rw [VfsTree.wellFormed_addChild_iff h (VfsTree.sub_of_parentOf hparent), hname]
  constructor
  · intro hnew parent' hparent'
    cases hparent.symm.trans hparent'
    exact ⟨hnew.1, hnew.2.1, hnew.2.2.1⟩
  · intro hfresh
    obtain ⟨hdirectory, hnames, hproper⟩ := hfresh parent hparent
    exact ⟨hdirectory, hnames, hproper, Path.slash_notMem_basename path⟩

/-- A call that creates a node leaves a well-formed tree exactly under a fresh name. -/
theorem leavesWellFormed_of_creates {s s' : VfsAdapter} (h : WellFormed s.tree) {op : VfsOp}
    {path : List UInt8} {r : Outcome VfsError ℕ} (hstep : s.step op = settle (r, s'))
    (hcreates : Creates s path r s') :
    LeavesWellFormed s op ↔ ∀ node, r = .ok node → FreshName s path := by
  unfold LeavesWellFormed
  rw [hstep]
  cases hcreates with
  | err e =>
    refine iff_of_true (fun t ht => ?_) nofun
    cases ht
    exact h
  | trap f s' => exact iff_of_true nofun nofun
  | ok entry hparent hname htree =>
    have hiff := wellFormed_created_iff h hparent entry hname
    rw [← htree] at hiff
    constructor
    · intro hleaves _ _
      exact hiff.mp (hleaves s' rfl)
    · intro hfresh t ht
      cases ht
      exact hiff.mpr (hfresh s.tree.next rfl)

theorem leavesWellFormed_iff {s : VfsAdapter} (h : WellFormed s.tree) (op : VfsOp) :
    LeavesWellFormed s op ↔ CreatesFresh s op := by
  cases op with
  | createFile mem path data =>
    have hcreates : Creates s path (VfsAdapter.createFile mem path data s).1 _ :=
      createFile_creates rfl
    exact leavesWellFormed_of_creates h rfl hcreates
  | createDir mem path =>
    have hcreates : Creates s path (VfsAdapter.createDir mem path s).1 _ := createDir_creates rfl
    exact leavesWellFormed_of_creates h rfl hcreates
  | deleteFile path =>
    refine iff_of_true (fun t hstep => ?_) trivial
    rcases step_cases hstep with rfl | ⟨_, _, _, heq, _⟩ | ⟨_, _, heq, _⟩ |
      ⟨_, parent, child, i, _, _, _, _, _, rfl⟩
    · exact h
    · cases heq
    · cases heq
    · exact VfsTree.wellFormed_removeChild h parent.id i

/-- From a new adapter, every call leaves a well-formed tree exactly when every node is created
under a fresh name. -/
theorem allSteps_wellFormed_iff (config : VfsSandboxConfig) (ops : List VfsOp) :
    Run.AllSteps step LeavesWellFormed (init config) ops ↔
      Run.AllSteps step CreatesFresh (init config) ops :=
  Run.allSteps_congr (I := fun s => WellFormed s.tree) (fun _ op h => leavesWellFormed_iff h op)
    (fun _ op s' h hfresh hstep => (leavesWellFormed_iff h op).mpr hfresh s' hstep)
    (WellFormed.init config)

/-- `/f` -/
def filePath : List UInt8 := [47, 102]

def noData : Bytes := ⟨[], by decide⟩

/-- A new adapter after `createFile("/f", "")`. -/
def withFile : VfsAdapter :=
  { init {} with
    tree := (init {}).tree.addChild 0 (fileEntry filePath noData)
    fileCount := 1 }

theorem step_createFile : (init {}).step (.createFile {} filePath noData) = some withFile := rfl

/-- Creating the same file twice leaves two children of one name. -/
theorem createFile_twice_not_wellFormed :
    ¬ Run.AllSteps step LeavesWellFormed (init {})
      [.createFile {} filePath noData, .createFile {} filePath noData] := by
  intro h
  have hwf := (h.2 withFile step_createFile).1 _ rfl
  have hnodup := (hwf _ (.refl _)).nodup
  exact absurd hnodup (by decide)

end VfsAdapter
end LingNet.Vfs
