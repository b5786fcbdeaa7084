import LingNet.Vfs.Frame
import LingNet.Vfs.WellFormed

/-! Which paths a read finds as the call before it left them. -/
namespace LingNet.Vfs
open Zig

/-- What a read of the node gives. -/
def contents (node : VfsNode) : Outcome VfsError (List UInt8) :=
  if node.val.nodeType ≠ .file then .err .notAFile
  else
    match node.val.data with
    | some data => .ok data.val
    | none => .ok []

theorem contents_congr {node node' : VfsNode} (h : node.val = node'.val) :
    contents node = contents node' := by
  unfold contents
  rw [h]

theorem contents_ne_fileNotFound (node : VfsNode) : contents node ≠ .err .fileNotFound := by
  unfold contents
  split_ifs
  · nofun
  · split
    · nofun
    · nofun

namespace VfsTree

variable {t : VfsTree} {path : List UInt8}

def read (t : VfsTree) (path : List UInt8) : Outcome VfsError (List UInt8) :=
  t.resolve path >>= contents

theorem parentOf_of_basename_nil (h : Path.basename path = []) : t.parentOf path = .ok t.root := by
  unfold VfsTree.parentOf Path.dirname
  rw [Path.leading_of_basename_nil h]
  rfl

theorem resolve_of_basename_nil (habs : Path.Absolute path) (h : Path.basename path = []) :
    t.resolve path = .ok t.root := by
  rw [resolve_of_absolute habs, Path.components_of_basename_nil h]
  rfl

/-- A read is one of the parent when the base name is a dot, one of the root when it is two dots,
and one of the first child of that name else. -/
theorem read_eq (habs : Path.Absolute path) (hbase : Path.basename path ≠ []) :
    t.read path =
      (t.parentOf path >>= fun parent => walk t.root parent [Path.basename path] >>= contents) := by
  unfold read
  rw [resolve_eq habs hbase]
  cases t.parentOf path with
  | ok parent => rfl
  | err e => rfl
  | trap f => rfl

/-! Reads after an addition. -/

theorem parentOf_addChild {p : ℕ} {entry : VfsEntry} {parent : VfsNode}
    (h : t.parentOf path = .ok parent) :
    (t.addChild p entry).parentOf path = .ok (IdTree.append p (.node t.next entry []) parent) := by
  unfold VfsTree.parentOf at h ⊢
  simp only at h ⊢
  split_ifs at h ⊢
  · cases h
    rfl
  · exact resolve_addChild h

/-- The path is absolute, and its base name is new below its parent and names a child. -/
def NewName (t : VfsTree) (path : List UInt8) : Prop :=
  Path.Absolute path ∧ Proper (Path.basename path) ∧
    ∀ parent, t.parentOf path = .ok parent →
      VfsNode.findChild parent (Path.basename path) = none

theorem read_addChild_of_newName (entry : VfsEntry) {parent : VfsNode}
    (hparent : t.parentOf path = .ok parent) (hname : entry.name = Path.basename path)
    (hnew : t.NewName path) :
    (t.addChild parent.id entry).read path = contents (.node t.next entry []) := by
  obtain ⟨habs, hproper, hfree⟩ := hnew
  have hfound : VfsNode.findChild (IdTree.append parent.id (.node t.next entry []) parent)
      (Path.basename path) = some (.node t.next entry []) := by
    rw [findChild_append, hfree parent hparent]
    exact if_pos hname
  rw [read_eq habs hproper.1, parentOf_addChild hparent, Outcome.ok_bind, walk_proper hproper,
    hfound]
  rfl

/-- Under any other name the read is what it was before. -/
theorem read_addChild_of_not_newName (entry : VfsEntry) {parent : VfsNode}
    (hparent : t.parentOf path = .ok parent) (hnew : ¬ t.NewName path) :
    (t.addChild parent.id entry).read path = t.read path := by
  by_cases habs : Path.Absolute path
  swap
  · unfold read
    rw [resolve_of_relative habs, resolve_of_relative habs]
  by_cases hbase : Path.basename path = []
  · unfold read
    rw [resolve_of_basename_nil habs hbase, resolve_of_basename_nil habs hbase]
    exact contents_congr IdTree.val_modify
  rw [read_eq habs hbase, read_eq habs hbase, parentOf_addChild hparent, hparent,
    Outcome.ok_bind, Outcome.ok_bind]
  rcases component_cases (Path.basename path) with hskip | hdotDot | hproper
  · rw [walk_skip hskip, walk_skip hskip]
    exact contents_congr IdTree.val_modify
  · rw [hdotDot, walk_dotDot, walk_dotDot]
    have hid : (t.addChild parent.id entry).root.id = t.root.id := IdTree.id_modify
    have hid' : (IdTree.append parent.id (.node t.next entry []) parent).id = parent.id :=
      IdTree.id_modify
    rw [hid, hid']
    split_ifs
    · rfl
    · exact contents_congr IdTree.val_modify
  · cases hfound : VfsNode.findChild parent (Path.basename path) with
    | none =>
      refine absurd ⟨habs, hproper, fun parent' hparent' => ?_⟩ hnew
      cases hparent.symm.trans hparent'
      exact hfound
    | some child =>
      rw [walk_proper hproper, walk_proper hproper, findChild_append_of_some hfound, hfound]
      exact contents_congr IdTree.val_modify

end VfsTree

/-! Reads after a deletion. -/

section Removal

variable {root parent child : VfsNode} {i : ℕ}

/-- What is left of the children has the name no more when no namesake is left. -/
theorem findChild_removeChild_eq_none {name : List UInt8} (hparent : parent.ids.Nodup) :
    VfsNode.findChild (IdTree.removeChild parent.id i parent) name = none ↔
      ∀ c ∈ parent.children.eraseIdx i, c.val.name ≠ name := by
  unfold VfsNode.findChild IdTree.removeChild
  rw [IdTree.children_modify_self rfl, IdTree.map_modify_children hparent, List.find?_eq_none]
  simp only [decide_eq_true_eq, ne_eq]

/-- Without a namesake of the child, each walk of the remaining tree ends where it ended, or does
not find the child. -/
theorem Walks.removeChild_or (hroot : root.ids.Nodup) (hparent : parent.Sub root)
    (hchild : parent.children[i]? = some child)
    (hlast : ∀ c ∈ parent.children.eraseIdx i, c.val.name ≠ child.val.name)
    {components : List (List UInt8)} {current node : VfsNode}
    (h : Walks root current components node) (hcurrent : current.Sub root) :
    walk (IdTree.removeChild parent.id i root) (IdTree.removeChild parent.id i current)
        components = .err .fileNotFound ∨
      walk (IdTree.removeChild parent.id i root) (IdTree.removeChild parent.id i current)
        components = .ok (IdTree.removeChild parent.id i node) := by
  induction h with
  | nil current => exact .inr rfl
  | skip hskip _ ih =>
    rw [walk_skip hskip]
    exact ih hcurrent
  | up hid _ ih =>
    unfold IdTree.removeChild at ih ⊢
    rw [walk_dotDot, IdTree.id_modify, IdTree.id_modify, if_neg hid]
    exact ih (.refl root)
  | @down current next node component rest hproper hfound _ ih =>
    have hnext := (sub_of_findChild hfound).trans hcurrent
    by_cases hgone : VfsNode.findChild current component = some child
    · cases hfound.symm.trans hgone
      by_cases hid : current.id = parent.id
      · cases hcurrent.unique hparent hroot hid
        rw [(mem_of_findChild hfound).2] at hlast
        rw [walk_proper hproper,
          (findChild_removeChild_eq_none (hparent.nodup hroot)).mpr hlast]
        exact .inl rfl
      · have hkept : VfsNode.findChild (IdTree.removeChild parent.id i current) component =
            some (IdTree.removeChild parent.id i child) := by
          unfold IdTree.removeChild
          rw [findChild_modify_of_ne hid, hfound]
          rfl
        rw [walk_down hproper hkept]
        exact ih hnext
    · have hkept : VfsNode.findChild (IdTree.removeChild parent.id i current) component =
          some (IdTree.removeChild parent.id i next) := by
        rw [findChild_removeChild hroot hparent hchild hcurrent hgone, hfound]
        rfl
      rw [walk_down hproper hkept]
      exact ih hnext

/-- A walk without `..` stays below the node it starts at. -/
theorem Walks.sub_of_down {components : List (List UInt8)} {current node : VfsNode}
    (h : Walks root current components node) (hdown : dotDot ∉ components) :
    node.Sub current := by
  induction h with
  | nil current => exact .refl current
  | skip _ _ ih => exact ih (List.not_mem_of_not_mem_cons hdown)
  | up _ _ _ => exact absurd List.mem_cons_self hdown
  | down _ hfound _ ih =>
    exact (ih (List.not_mem_of_not_mem_cons hdown)).trans (sub_of_findChild hfound)

/-- A walk down to the parent does not come through the child. -/
theorem Walks.removeChild_of_down (hroot : root.ids.Nodup) (hparent : parent.Sub root)
    (hchild : parent.children[i]? = some child) {components : List (List UInt8)}
    {current node : VfsNode} (h : Walks root current components node) (hnode : node = parent)
    (hcurrent : current.Sub root) (hdown : dotDot ∉ components) :
    walk (IdTree.removeChild parent.id i root) (IdTree.removeChild parent.id i current)
      components = .ok (IdTree.removeChild parent.id i node) := by
  induction h with
  | nil current => rfl
  | skip hskip _ ih =>
    rw [walk_skip hskip]
    exact ih hnode hcurrent (List.not_mem_of_not_mem_cons hdown)
  | up _ _ _ => exact absurd List.mem_cons_self hdown
  | @down current next node component rest hproper hfound hwalks ih =>
    have hrest := List.not_mem_of_not_mem_cons hdown
    have hkept : VfsNode.findChild current component ≠ some child := by
      intro hgone
      cases hfound.symm.trans hgone
      have hbelow := hwalks.sub_of_down hrest
      rw [hnode] at hbelow
      have hnodup := IdTree.nodup_ids_iff.mp (hparent.nodup hroot)
      exact hnodup.1 child (List.mem_of_getElem? hchild) hbelow.id_mem
    have hfound' : VfsNode.findChild (IdTree.removeChild parent.id i current) component =
        some (IdTree.removeChild parent.id i next) := by
      rw [findChild_removeChild hroot hparent hchild hcurrent hkept, hfound]
      rfl
    rw [walk_down hproper hfound']
    exact ih hnode ((sub_of_findChild hfound).trans hcurrent) hrest

/-- Two walks along one list of components end at the same node of the remaining tree once both
have been back at the root. -/
theorem Walks.removeChild_of_up (hroot : root.ids.Nodup) (hparent : parent.Sub root)
    (hchild : parent.children[i]? = some child) {components : List (List UInt8)}
    {current current' node node' : VfsNode} (h : Walks root current components node)
    (hnode : node = parent) (hup : dotDot ∈ components)
    (h' : walk (IdTree.removeChild parent.id i root) current' components = .ok node') :
    node' = IdTree.removeChild parent.id i node := by
  induction h generalizing current' with
  | nil current => cases hup
  | @skip current node component rest hskip _ ih =>
    have hne : component ≠ dotDot := by
      rintro rfl
      exact hskip.elim dotDot_ne_nil dotDot_ne_dot
    rw [walk_skip hskip] at h'
    exact ih hnode (List.mem_of_ne_of_mem hne.symm hup) h'
  | @up current node rest hid hwalks ih =>
    rw [walk_dotDot] at h'
    split_ifs at h'
    by_cases hrest : dotDot ∈ rest
    · exact ih hnode hrest h'
    · have hdown := hwalks.removeChild_of_down hroot hparent hchild hnode (.refl root) hrest
      exact Outcome.ok.inj (h'.symm.trans hdown)
  | down hproper _ _ ih =>
    have hrest := List.mem_of_ne_of_mem hproper.2.2.symm hup
    rw [walk_proper hproper] at h'
    split at h'
    · exact ih hnode hrest h'
    · cases h'

end Removal

namespace VfsTree

open VfsAdapter (Doomed)

variable {t : VfsTree} {path : List UInt8} {parent child : VfsNode} {i : ℕ}

theorem parentOf_removeChild_or (hdoomed : Doomed t path parent child i)
    (hlast : ∀ c ∈ parent.children.eraseIdx i, c.val.name ≠ child.val.name) :
    (t.removeChild parent.id i).parentOf path = .err .fileNotFound ∨
      (t.removeChild parent.id i).parentOf path = .ok (IdTree.removeChild parent.id i parent) := by
  have hsub := sub_of_parentOf hdoomed.parent_eq
  have hparent := hdoomed.parent_eq
  unfold parentOf at hparent ⊢
  simp only at hparent ⊢
  split_ifs at hparent ⊢
  · cases hparent
    exact .inr rfl
  · unfold resolve at hparent ⊢
    split_ifs at hparent ⊢
    exact (walks_of_walk hparent).removeChild_or t.nodup hsub hdoomed.getElem? hlast (.refl _)

/-- A directory part that still resolves does so to what is left of the parent. -/
theorem eq_of_parentOf_removeChild (hdoomed : Doomed t path parent child i) {node : VfsNode}
    (hnode : (t.removeChild parent.id i).parentOf path = .ok node) :
    node = IdTree.removeChild parent.id i parent := by
  have hsub := sub_of_parentOf hdoomed.parent_eq
  have hparent := hdoomed.parent_eq
  unfold parentOf at hparent hnode
  simp only at hparent hnode
  split_ifs at hparent hnode
  · cases hparent
    cases hnode
    rfl
  · unfold resolve at hparent hnode
    split_ifs at hparent hnode
    have hwalks := walks_of_walk hparent
    by_cases hup : dotDot ∈ Path.split ((Path.dirname path).getD [Path.slash]).tail
    · exact hwalks.removeChild_of_up t.nodup hsub hdoomed.getElem? rfl hup hnode
    · have hdown := hwalks.removeChild_of_down t.nodup hsub hdoomed.getElem? rfl (.refl _) hup
      exact Outcome.ok.inj (hnode.symm.trans hdown)

/-- The path is absolute; its base name names a child, and no other child of the parent has it, or
its directory part led through the deleted child and ends nowhere without it. -/
def Forgets (t : VfsTree) (path : List UInt8) (parent : VfsNode) (i : ℕ) : Prop :=
  Path.Absolute path ∧
    (Proper (Path.basename path) ∧
        (∀ c ∈ parent.children.eraseIdx i, c.val.name ≠ Path.basename path) ∨
      (t.removeChild parent.id i).parentOf path = .err .fileNotFound)

/-- A read finds nothing when the parent is not found, or has no child of the base name. -/
theorem read_eq_fileNotFound_iff : t.read path = .err .fileNotFound ↔ Path.Absolute path ∧
    (t.parentOf path = .err .fileNotFound ∨ Proper (Path.basename path) ∧
      ∃ parent, t.parentOf path = .ok parent ∧
        VfsNode.findChild parent (Path.basename path) = none) := by
  constructor
  · intro hread
    by_cases habs : Path.Absolute path
    swap
    · unfold read at hread
      rw [resolve_of_relative habs] at hread
      cases hread
    refine ⟨habs, ?_⟩
    by_cases hbase : Path.basename path = []
    · unfold read at hread
      rw [resolve_of_basename_nil habs hbase] at hread
      exact absurd hread (contents_ne_fileNotFound _)
    rw [read_eq habs hbase] at hread
    cases hparent : t.parentOf path with
    | trap f =>
      rw [hparent] at hread
      cases hread
    | err e =>
      rw [hparent] at hread
      cases hread
      exact .inl rfl
    | ok parent =>
      rw [hparent, Outcome.ok_bind] at hread
      rcases component_cases (Path.basename path) with hskip | hdotDot | hproper
      · rw [walk_skip hskip] at hread
        exact absurd hread (contents_ne_fileNotFound _)
      · rw [hdotDot, walk_dotDot] at hread
        split_ifs at hread
        · cases hread
        · exact absurd hread (contents_ne_fileNotFound _)
      · refine .inr ⟨hproper, parent, rfl, ?_⟩
        cases hfound : VfsNode.findChild parent (Path.basename path) with
        | none => rfl
        | some next =>
          rw [walk_down hproper hfound] at hread
          exact absurd hread (contents_ne_fileNotFound _)
  · intro hmissing
    obtain ⟨habs, hlost | ⟨hproper, parent, hparent, hfree⟩⟩ := hmissing
    · have hbase : Path.basename path ≠ [] := by
        intro hbase
        rw [parentOf_of_basename_nil hbase] at hlost
        cases hlost
      rw [read_eq habs hbase, hlost]
      rfl
    · rw [read_eq habs hproper.1, hparent, Outcome.ok_bind, walk_proper hproper, hfree]
      rfl

theorem read_removeChild_iff (hdoomed : Doomed t path parent child i) :
    (t.removeChild parent.id i).read path = .err .fileNotFound ↔ t.Forgets path parent i := by
  have hsub := sub_of_parentOf hdoomed.parent_eq
  have hname := (mem_of_findChild hdoomed.findChild).2
  have hnone : VfsNode.findChild (IdTree.removeChild parent.id i parent) (Path.basename path) =
      none ↔ _ := findChild_removeChild_eq_none (hsub.nodup t.nodup)
  rw [read_eq_fileNotFound_iff]
  refine and_congr_right fun _ => ?_
  constructor
  · intro hmissing
    rcases hmissing with hlost | ⟨hproper, node, hnode, hfree⟩
    · exact .inr hlost
    · cases eq_of_parentOf_removeChild hdoomed hnode
      exact .inl ⟨hproper, hnone.mp hfree⟩
  · intro hforgets
    rcases hforgets with ⟨hproper, hlast⟩ | hlost
    · rcases parentOf_removeChild_or hdoomed (hname ▸ hlast) with hlost | hkept
      · exact .inl hlost
      · exact .inr ⟨hproper, _, hkept, hnone.mpr hlast⟩
    · exact .inl hlost

end VfsTree

namespace VfsAdapter

theorem readFile_eq (self : VfsAdapter) (path : List UInt8) :
    self.readFile path = self.tree.read path := rfl

/-- A read right after the call returns what the call wrote, or finds nothing where it deleted. -/
def ReadsBack (s : VfsAdapter) : VfsOp → Prop
  | .createFile mem path data => ∀ id s',
      VfsAdapter.createFile mem path data s = (.ok id, s') → readFile s' path = .ok data.val
  | .deleteFile path => ∀ s',
      VfsAdapter.deleteFile path s = (.ok (), s') → readFile s' path = .err .fileNotFound
  | .createDir _ _ => True

/-- A file is created under a new name, or where the path already leads to the same data; and a
deletion takes the last node that its path can lead to. -/
def Addresses (s : VfsAdapter) : VfsOp → Prop
  | .createFile mem path data => ∀ id s', VfsAdapter.createFile mem path data s = (.ok id, s') →
      s.tree.NewName path ∨
        ∃ node, s.tree.resolve path = .ok node ∧ contents node = .ok data.val
  | .deleteFile path => ∀ s', VfsAdapter.deleteFile path s = (.ok (), s') →
      ∀ parent child i, Doomed s.tree path parent child i → s.tree.Forgets path parent i
  | .createDir _ _ => True

theorem readsBack_iff (s : VfsAdapter) (op : VfsOp) : ReadsBack s op ↔ Addresses s op := by
  cases op with
  | createFile mem path data =>
    refine forall_congr' fun id => forall_congr' fun s' => forall_congr' fun hrun => ?_
    rcases createFile_cases hrun with ⟨e, he, _⟩ | ⟨f, hf⟩ | ⟨_, hcreated⟩
    · cases he
    · cases hf
    · obtain ⟨_, _, _, parent, hparent, rfl⟩ := hcreated
      rw [readFile_eq]
      by_cases hnew : s.tree.NewName path
      · have hread := VfsTree.read_addChild_of_newName (fileEntry path data) hparent rfl hnew
        exact iff_of_true hread (.inl hnew)
      · have hread := VfsTree.read_addChild_of_not_newName (fileEntry path data) hparent hnew
        rw [hread, or_iff_right hnew]
        exact Outcome.bind_eq_ok
  | deleteFile path =>
    refine forall_congr' fun s' => forall_congr' fun hrun => ?_
    rcases deleteFile_cases hrun with ⟨e, he, _⟩ | ⟨parent, child, i, hdoomed, _, hcase⟩
    · cases he
    · rcases hcase with ⟨hf, _⟩ | ⟨_, _, _, rfl⟩
      · cases hf
      · rw [readFile_eq, VfsTree.read_removeChild_iff hdoomed]
        constructor
        · intro hforgets parent' child' i' hdoomed'
          obtain ⟨rfl, rfl, rfl⟩ := hdoomed.unique hdoomed'
          exact hforgets
        · intro hall
          exact hall parent child i hdoomed
  | createDir mem path => exact Iff.rfl

/-- From a new adapter, every call reads back exactly when every call addresses the node that a
read of its path comes to. -/
theorem allSteps_readsBack_iff (config : VfsSandboxConfig) (ops : List VfsOp) :
    Run.AllSteps step ReadsBack (init config) ops ↔
      Run.AllSteps step Addresses (init config) ops :=
  Run.allSteps_congr (I := fun _ => True) (fun s op _ => readsBack_iff s op)
    (fun _ _ _ _ _ _ => trivial) trivial

def oneByte : Bytes := ⟨[120], by decide⟩

/-- Two files of one name. -/
def withTwoFiles : VfsAdapter :=
  { withFile with
    tree := withFile.tree.addChild 0 (fileEntry filePath noData)
    fileCount := 2 }

theorem step_createFile_again :
    withFile.step (.createFile {} filePath noData) = some withTwoFiles := rfl

/-- The second file of a name is not the one that is read, and after a deletion it is. -/
theorem readFile_namesake :
    ¬ Run.AllSteps step ReadsBack (init {})
        [.createFile {} filePath noData, .createFile {} filePath oneByte] ∧
      ¬ Run.AllSteps step ReadsBack (init {})
        [.createFile {} filePath noData, .createFile {} filePath noData, .deleteFile filePath] := by
  constructor
  · intro h
    have hread := (h.2 withFile step_createFile).1 2 _ rfl
    exact absurd hread (by decide)
  · intro h
    have hread := ((h.2 withFile step_createFile).2 withTwoFiles step_createFile_again).1 _ rfl
    exact absurd hread (by decide)

end VfsAdapter
end LingNet.Vfs
