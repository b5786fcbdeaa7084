import LingNet.Vfs.Walk

/-! What the calls leave alone: a new node shadows nothing, a deletion is seen by those walks only
that came through the deleted node, and a failed call changes nothing. -/
namespace LingNet.Vfs
open Zig

/-- Taking away a child that a search does not find does not change what it finds. -/
theorem find?_eraseIdx {α : Type*} {l : List α} {i : ℕ} {c : α} {p : α → Bool}
    (hc : l[i]? = some c) (hne : l.find? p ≠ some c) : (l.eraseIdx i).find? p = l.find? p := by
  obtain ⟨hlt, hget⟩ := List.getElem?_eq_some_iff.mp hc
  have hsplit : l = l.take i ++ c :: l.drop (i + 1) := by
    rw [← hget, List.getElem_cons_drop, List.take_append_drop]
  have hfind : l.find? p = ((l.take i).find? p).or ((c :: l.drop (i + 1)).find? p) := by
    conv_lhs => rw [hsplit, List.find?_append]
  rw [List.eraseIdx_eq_take_drop_succ, List.find?_append, hfind]
  cases htake : (l.take i).find? p with
  | some d => rfl
  | none =>
    rw [htake] at hfind
    cases hp : p c with
    | true =>
      rw [List.find?_cons_of_pos hp] at hfind
      exact absurd hfind hne
    | false => rw [List.find?_cons_of_neg (Bool.not_eq_true _ ▸ hp)]

section Children

variable {p : ℕ} {g : List VfsNode → List VfsNode} {node : VfsNode} {name : List UInt8}

/-- Changed nodes keep their names. -/
theorem find?_map_modify (l : List VfsNode) :
    (l.map (IdTree.modify p g)).find? (fun child => child.val.name = name) =
      (l.find? fun child => child.val.name = name).map (IdTree.modify p g) := by
  rw [List.find?_map]
  congr 2
  funext child
  simp only [Function.comp_apply, IdTree.val_modify]

theorem findChild_modify_of_ne (hid : node.id ≠ p) :
    VfsNode.findChild (IdTree.modify p g node) name =
      (VfsNode.findChild node name).map (IdTree.modify p g) := by
  unfold VfsNode.findChild
  rw [IdTree.children_modify_of_ne hid, find?_map_modify]

theorem findChild_append {leaf : VfsNode} :
    VfsNode.findChild (IdTree.append node.id leaf node) name =
      ((VfsNode.findChild node name).map (IdTree.append node.id leaf)).or
        (if leaf.val.name = name then some leaf else none) := by
  unfold VfsNode.findChild IdTree.append
  rw [IdTree.children_modify_self rfl, List.find?_append, find?_map_modify, List.find?_singleton]
  simp only [decide_eq_true_eq]

/-- A new child is behind the old ones. -/
theorem findChild_append_of_some {leaf child : VfsNode}
    (h : VfsNode.findChild node name = some child) :
    VfsNode.findChild (IdTree.append p leaf node) name = some (IdTree.append p leaf child) := by
  by_cases hid : node.id = p
  · subst hid
    rw [findChild_append, h]
    rfl
  · unfold IdTree.append
    rw [findChild_modify_of_ne hid, h]
    rfl

theorem findChild_removeChild_self {child : VfsNode} {i : ℕ}
    (hchild : node.children[i]? = some child) (hne : VfsNode.findChild node name ≠ some child) :
    VfsNode.findChild (IdTree.removeChild node.id i node) name =
      (VfsNode.findChild node name).map (IdTree.removeChild node.id i) := by
  unfold VfsNode.findChild IdTree.removeChild at *
  rw [IdTree.children_modify_self rfl, List.eraseIdx_map, find?_map_modify,
    find?_eraseIdx hchild hne]

end Children

/-- A walk that ended at a node ends at it after an addition. -/
theorem Walks.append {root current node leaf : VfsNode} {p : ℕ}
    {components : List (List UInt8)} (h : Walks root current components node) :
    walk (IdTree.append p leaf root) (IdTree.append p leaf current) components =
      .ok (IdTree.append p leaf node) := by
  induction h with
  | nil current => rfl
  | skip hskip _ ih =>
    rw [walk_skip hskip]
    exact ih
  | up hid _ ih =>
    unfold IdTree.append at ih ⊢
    rw [walk_dotDot, IdTree.id_modify, IdTree.id_modify, if_neg hid]
    exact ih
  | down hproper hfound _ ih =>
    rw [walk_down hproper (findChild_append_of_some hfound)]
    exact ih

/-- The nodes that a walk moves to. -/
def visits (root : VfsNode) : VfsNode → List (List UInt8) → List VfsNode
  | _, [] => []
  | current, component :: rest =>
    if component = [] then visits root current rest
    else if component = dot then visits root current rest
    else if component = dotDot then
      if current.id = root.id then [] else root :: visits root root rest
    else
      match VfsNode.findChild current component with
      | some child => child :: visits root child rest
      | none => []

def VfsTree.visits (t : VfsTree) (path : List UInt8) : List VfsNode :=
  if Path.Absolute path then Vfs.visits t.root t.root (Path.split path.tail) else []

/-- Everywhere but for the child that is taken away, the changed tree has the same children. -/
theorem findChild_removeChild {root parent child current : VfsNode} (hroot : root.ids.Nodup)
    (hparent : parent.Sub root) {i : ℕ} (hchild : parent.children[i]? = some child)
    (hcurrent : current.Sub root) {name : List UInt8}
    (hne : VfsNode.findChild current name ≠ some child) :
    VfsNode.findChild (IdTree.removeChild parent.id i current) name =
      (VfsNode.findChild current name).map (IdTree.removeChild parent.id i) := by
  by_cases hid : current.id = parent.id
  · cases hcurrent.unique hparent hroot hid
    exact findChild_removeChild_self hchild hne
  · exact findChild_modify_of_ne hid

/-- A walk that does not come to the child that is taken away ends where it ended, or in the
error it ended in. -/
theorem walk_removeChild {root parent child current : VfsNode} (hroot : root.ids.Nodup)
    (hparent : parent.Sub root) {i : ℕ} (hchild : parent.children[i]? = some child)
    (hcurrent : current.Sub root) {components : List (List UInt8)}
    (havoid : child ∉ visits root current components) :
    walk (IdTree.removeChild parent.id i root) (IdTree.removeChild parent.id i current) components =
      (walk root current components >>= fun node =>
        .ok (IdTree.removeChild parent.id i node)) := by
  induction components generalizing current with
  | nil => rfl
  | cons component rest ih =>
    unfold visits at havoid
    rcases component_cases component with hskip | rfl | hproper
    · have hrest : child ∉ visits root current rest := by
        rcases hskip with rfl | rfl
        · rwa [if_pos rfl] at havoid
        · rwa [if_neg (by decide), if_pos rfl] at havoid
      rw [walk_skip hskip, walk_skip hskip]
      exact ih hcurrent hrest
    · rw [if_neg dotDot_ne_nil, if_neg dotDot_ne_dot, if_pos rfl] at havoid
      rw [walk_dotDot, walk_dotDot]
      unfold IdTree.removeChild at ih ⊢
      rw [IdTree.id_modify, IdTree.id_modify]
      split_ifs at havoid ⊢
      · rfl
      · exact ih (.refl root) (List.not_mem_of_not_mem_cons havoid)
    · rw [if_neg hproper.1, if_neg hproper.2.1, if_neg hproper.2.2] at havoid
      rw [walk_proper hproper, walk_proper hproper]
      have hne : VfsNode.findChild current component ≠ some child := by
        intro hfound
        rw [hfound] at havoid
        exact havoid List.mem_cons_self
      rw [findChild_removeChild hroot hparent hchild hcurrent hne]
      cases hfound : VfsNode.findChild current component with
      | none => rfl
      | some next =>
        rw [hfound] at havoid
        exact ih ((sub_of_findChild hfound).trans hcurrent)
          (List.not_mem_of_not_mem_cons havoid)

namespace VfsTree

variable {t : VfsTree} {path : List UInt8}

theorem resolve_addChild {p : ℕ} {entry : VfsEntry} {node : VfsNode}
    (h : t.resolve path = .ok node) :
    (t.addChild p entry).resolve path = .ok (IdTree.append p (.node t.next entry []) node) := by
  unfold VfsTree.resolve at h ⊢
  split_ifs at h ⊢
  exact (walks_of_walk h).append

theorem address_resolve_addChild {p : ℕ} {entry : VfsEntry} {node : VfsNode}
    (h : t.resolve path = .ok node) :
    address ((t.addChild p entry).resolve path) = .ok node.id := by
  rw [resolve_addChild h]
  exact congrArg Outcome.ok IdTree.id_modify

theorem address_resolve_removeChild {parent child : VfsNode} (hparent : parent.Sub t.root) {i : ℕ}
    (hchild : parent.children[i]? = some child) (havoid : child ∉ t.visits path) :
    address ((t.removeChild parent.id i).resolve path) = address (t.resolve path) := by
  unfold VfsTree.visits at havoid
  unfold VfsTree.resolve
  split_ifs at havoid ⊢
  · have hwalk := walk_removeChild t.nodup hparent hchild (.refl _) havoid
    refine (congrArg address hwalk).trans ?_
    cases walk t.root t.root (Path.split path.tail) with
    | ok node => exact congrArg Outcome.ok IdTree.id_modify
    | err e => rfl
    | trap f => rfl
  · rfl

end VfsTree

namespace VfsAdapter

/-- What a path resolved to is where it was after a call that creates a node. -/
theorem address_of_creates {s s' : VfsAdapter} {path : List UInt8} {id : ℕ}
    (h : Creates s path (.ok id) s') {q : List UInt8} {node : VfsNode}
    (hnode : s.tree.resolve q = .ok node) : address (s'.tree.resolve q) = .ok node.id := by
  cases h with
  | ok entry hparent hname htree =>
    rw [htree]
    exact VfsTree.address_resolve_addChild hnode

theorem eq_of_creates_err {s s' : VfsAdapter} {path : List UInt8} {e : VfsError}
    (h : Creates s path (.err e) s') : s' = s := by
  cases h with
  | err e => rfl

/-- The three calls touch nothing else: a path that resolved still does to the same node after an
addition; after a deletion every path whose walk did not come to the deleted node ends as before;
a call that returns an error leaves the adapter as it was. -/
theorem calls_frame (s : VfsAdapter) :
    (∀ mem path data id s', createFile mem path data s = (.ok id, s') →
      ∀ q node, s.tree.resolve q = .ok node → address (s'.tree.resolve q) = .ok node.id) ∧
    (∀ mem path id s', createDir mem path s = (.ok id, s') →
      ∀ q node, s.tree.resolve q = .ok node → address (s'.tree.resolve q) = .ok node.id) ∧
    (∀ path s', deleteFile path s = (.ok (), s') → ∃ parent child i,
      Doomed s.tree path parent child i ∧ ∀ q, child ∉ s.tree.visits q →
        address (s'.tree.resolve q) = address (s.tree.resolve q)) ∧
    (∀ mem path data e s', createFile mem path data s = (.err e, s') → s' = s) ∧
    (∀ mem path e s', createDir mem path s = (.err e, s') → s' = s) ∧
    ∀ path e s', deleteFile path s = (.err e, s') → s' = s := by
  refine ⟨?_, ?_, ?_, ?_, ?_, ?_⟩
  · intro mem path data id s' hrun q node hnode
    exact address_of_creates (createFile_creates hrun) hnode
  · intro mem path id s' hrun q node hnode
    exact address_of_creates (createDir_creates hrun) hnode
  · intro path s' hrun
    rcases deleteFile_cases hrun with ⟨e, he, _⟩ | ⟨parent, child, i, hdoomed, _, hcase⟩
    · cases he
    · rcases hcase with ⟨hf, _⟩ | ⟨_, _, _, rfl⟩
      · cases hf
      · refine ⟨parent, child, i, hdoomed, fun q havoid => ?_⟩
        exact VfsTree.address_resolve_removeChild (VfsTree.sub_of_parentOf hdoomed.parent_eq)
          hdoomed.getElem? havoid
  · intro mem path data e s' hrun
    exact eq_of_creates_err (createFile_creates hrun)
  · intro mem path e s' hrun
    exact eq_of_creates_err (createDir_creates hrun)
  · intro path e s' hrun
    rcases deleteFile_cases hrun with ⟨_, _, hs, _⟩ | ⟨_, _, _, _, _, hcase⟩
    · exact hs
    · rcases hcase with ⟨hf, _⟩ | ⟨hok, _⟩
      · cases hf
      · cases hok

/-- A new adapter over the tree that holds `/a/b`. -/
def nestedAdapter : VfsAdapter := { init {} with tree := nested }

/-- `/a/b` is where it was after `createDir("/c")`. -/
theorem resolve_nested_after_createDir :
    ∃ s', createDir {} [47, 99] nestedAdapter = (.ok 3, s') ∧
      address (s'.tree.resolve [47, 97, 47, 98]) = .ok 2 := by
  have hnode : address (nestedAdapter.tree.resolve [47, 97, 47, 98]) = .ok 2 := by decide
  obtain ⟨node, hresolve, hid⟩ := Outcome.bind_eq_ok.mp hnode
  have hframe := (calls_frame nestedAdapter).2.1 {} [47, 99] 3 _ rfl _ node hresolve
  exact ⟨_, rfl, hframe.trans hid⟩

end VfsAdapter
end LingNet.Vfs
