import LingNet.Vfs.Calls

/-! Walks through the tree, and the two ways to read `..`: the walk of `resolve` returns to the
root where a walk that remembers its path would go one node up. -/
namespace LingNet.Vfs
open Zig

/-- A component that names a child. -/
def Proper (component : List UInt8) : Prop :=
  component ≠ [] ∧ component ≠ dot ∧ component ≠ dotDot

instance (component : List UInt8) : Decidable (Proper component) :=
  inferInstanceAs (Decidable (_ ∧ _))

section Walk

variable {root current : VfsNode} {component : List UInt8} {rest : List (List UInt8)}

@[simp] theorem walk_nil : walk root current [] = .ok current := rfl

theorem dotDot_ne_nil : dotDot ≠ [] := by decide

theorem dotDot_ne_dot : dotDot ≠ dot := by decide

theorem walk_skip (h : component = [] ∨ component = dot) :
    walk root current (component :: rest) = walk root current rest := by
  conv_lhs => unfold walk
  rcases h with rfl | rfl
  · rw [if_pos rfl]
  · rw [if_neg (by decide), if_pos rfl]

theorem walk_dotDot :
    walk root current (dotDot :: rest) =
      if current.id = root.id then .err .pathEscape else walk root root rest := by
  conv_lhs => unfold walk
  rw [if_neg dotDot_ne_nil, if_neg dotDot_ne_dot, if_pos rfl]

theorem walk_proper (h : Proper component) :
    walk root current (component :: rest) =
      match VfsNode.findChild current component with
      | some child => walk root child rest
      | none => .err .fileNotFound := by
  obtain ⟨hnil, hdot, hdotDot⟩ := h
  conv_lhs => unfold walk
  rw [if_neg hnil, if_neg hdot]
  exact if_neg hdotDot

/-- A component is skipped, goes up or names a child. -/
theorem component_cases (component : List UInt8) :
    (component = [] ∨ component = dot) ∨ component = dotDot ∨ Proper component := by
  by_cases hnil : component = []
  · exact .inl (.inl hnil)
  · by_cases hdot : component = dot
    · exact .inl (.inr hdot)
    · by_cases hdotDot : component = dotDot
      · exact .inr (.inl hdotDot)
      · exact .inr (.inr ⟨hnil, hdot, hdotDot⟩)

theorem mem_of_findChild {node child : VfsNode} {name : List UInt8}
    (h : VfsNode.findChild node name = some child) :
    child ∈ node.children ∧ child.val.name = name := by
  have hname := List.find?_some (p := fun child : VfsNode => decide (child.val.name = name)) h
  exact ⟨List.mem_of_find?_eq_some h, of_decide_eq_true hname⟩

theorem walk_append (root : VfsNode) (a b : List (List UInt8)) (current : VfsNode) :
    walk root current (a ++ b) = (walk root current a >>= fun node => walk root node b) := by
  induction a generalizing current with
  | nil => rfl
  | cons component a ih =>
    rw [List.cons_append]
    rcases component_cases component with hskip | rfl | hproper
    · rw [walk_skip hskip, walk_skip hskip, ih]
    · rw [walk_dotDot, walk_dotDot]
      split_ifs
      · rfl
      · exact ih root
    · rw [walk_proper hproper, walk_proper hproper]
      cases VfsNode.findChild current component with
      | none => rfl
      | some child => exact ih child

/-- Empty components do not matter. -/
theorem walk_filter (root : VfsNode) (components : List (List UInt8)) (current : VfsNode) :
    walk root current (components.filter fun c => c ≠ []) = walk root current components := by
  induction components generalizing current with
  | nil => rfl
  | cons component rest ih =>
    by_cases hnil : component = []
    · subst hnil
      rw [walk_skip (.inl rfl), ← ih]
      rfl
    · have hfilter : (component :: rest).filter (fun c => c ≠ []) =
          component :: rest.filter fun c => c ≠ [] := by
        simp [hnil]
      rw [hfilter]
      rcases component_cases component with hskip | rfl | hproper
      · rw [walk_skip hskip, walk_skip hskip, ih]
      · rw [walk_dotDot, walk_dotDot, ih]
      · rw [walk_proper hproper, walk_proper hproper]
        cases VfsNode.findChild current component with
        | none => rfl
        | some child => exact ih child

/-- How a walk ends at a node: it stays, goes back to the root or goes down at each component. -/
inductive Walks (root : VfsNode) : VfsNode → List (List UInt8) → VfsNode → Prop
  | nil (current : VfsNode) : Walks root current [] current
  | skip {current node : VfsNode} {component : List UInt8} {rest : List (List UInt8)}
      (hskip : component = [] ∨ component = dot) (h : Walks root current rest node) :
      Walks root current (component :: rest) node
  | up {current node : VfsNode} {rest : List (List UInt8)} (hid : current.id ≠ root.id)
      (h : Walks root root rest node) : Walks root current (dotDot :: rest) node
  | down {current next node : VfsNode} {component : List UInt8} {rest : List (List UInt8)}
      (hproper : Proper component) (hfound : VfsNode.findChild current component = some next)
      (h : Walks root next rest node) : Walks root current (component :: rest) node

theorem walks_of_walk {components : List (List UInt8)} {node : VfsNode}
    (h : walk root current components = .ok node) : Walks root current components node := by
  induction components generalizing current with
  | nil =>
    cases h
    exact .nil _
  | cons component rest ih =>
    rcases component_cases component with hskip | rfl | hproper
    · rw [walk_skip hskip] at h
      exact .skip hskip (ih h)
    · rw [walk_dotDot] at h
      split_ifs at h with hid
      exact .up hid (ih h)
    · rw [walk_proper hproper] at h
      cases hfound : VfsNode.findChild current component with
      | none =>
        rw [hfound] at h
        cases h
      | some next =>
        rw [hfound] at h
        exact .down hproper hfound (ih h)

theorem walk_down (hproper : Proper component) {next : VfsNode}
    (hfound : VfsNode.findChild current component = some next) :
    walk root current (component :: rest) = walk root next rest := by
  rw [walk_proper hproper, hfound]

theorem sub_of_findChild {next : VfsNode} (h : VfsNode.findChild current component = some next) :
    next.Sub current := .of_mem (mem_of_findChild h).1

theorem Walks.sub {components : List (List UInt8)} {node : VfsNode}
    (h : Walks root current components node) (hcurrent : current.Sub root) : node.Sub root := by
  induction h with
  | nil current => exact hcurrent
  | skip _ _ ih => exact ih hcurrent
  | up _ _ ih => exact ih (.refl root)
  | down _ hfound _ ih => exact ih ((sub_of_findChild hfound).trans hcurrent)

end Walk

/-! Resolving a path. -/

variable {t : VfsTree} {path : List UInt8}

theorem VfsTree.resolve_of_absolute (h : Path.Absolute path) :
    t.resolve path = walk t.root t.root (Path.components path) := by
  unfold VfsTree.resolve Path.components
  rw [if_pos h, walk_filter]

theorem VfsTree.resolve_of_relative (h : ¬ Path.Absolute path) :
    t.resolve path = .err .invalidPath := if_neg h

theorem VfsTree.sub_of_parentOf {parent : VfsNode} (h : t.parentOf path = .ok parent) :
    parent.Sub t.root := by
  unfold VfsTree.parentOf at h
  simp only at h
  split_ifs at h
  · cases h
    exact .refl _
  · by_cases habs : Path.Absolute ((Path.dirname path).getD [Path.slash])
    · rw [VfsTree.resolve_of_absolute habs] at h
      exact (walks_of_walk h).sub (.refl _)
    · rw [VfsTree.resolve_of_relative habs] at h
      cases h

/-- A walk along an absolute path ends with its base name below the node that the three
operations take for its parent. -/
theorem VfsTree.resolve_eq (habs : Path.Absolute path) (hbase : Path.basename path ≠ []) :
    t.resolve path =
      (t.parentOf path >>= fun parent => walk t.root parent [Path.basename path]) := by
  rw [VfsTree.resolve_of_absolute habs, Path.components_eq habs hbase, walk_append]
  congr 1
  unfold VfsTree.parentOf
  simp only
  split_ifs with hroot
  · rw [hroot]
    rfl
  · exact (VfsTree.resolve_of_absolute (Path.absolute_dirname habs)).symm

/-! The reference walk. -/

/-- The walk that keeps the nodes it came through, innermost first and without the root; `up` is
what a `..` leaves of them. -/
def stackWalk (up : List VfsNode → List VfsNode) (root : VfsNode) :
    List VfsNode → List (List UInt8) → Outcome VfsError VfsNode
  | stack, [] => .ok (stack.headD root)
  | stack, component :: rest =>
    if component = [] then stackWalk up root stack rest
    else if component = dot then stackWalk up root stack rest
    else if component = dotDot then
      if stack = [] then .err .pathEscape else stackWalk up root (up stack) rest
    else
      match VfsNode.findChild (stack.headD root) component with
      | some child => stackWalk up root (child :: stack) rest
      | none => .err .fileNotFound

/-- `..` moves to the parent of the current node. -/
def parentWalk : VfsNode → List VfsNode → List (List UInt8) → Outcome VfsError VfsNode :=
  stackWalk List.tail

/-- `..` moves to the root. -/
def rootWalk : VfsNode → List VfsNode → List (List UInt8) → Outcome VfsError VfsNode :=
  stackWalk fun _ => []

/-- Every `..` comes at the root or at a child of it, when the walk starts at the depth. -/
def shallow : ℕ → List (List UInt8) → Bool
  | _, [] => true
  | depth, component :: rest =>
    if component = [] then shallow depth rest
    else if component = dot then shallow depth rest
    else if component = dotDot then depth ≤ 1 && shallow 0 rest
    else shallow (depth + 1) rest

/-- On shallow paths the parent of the current node is the root. -/
theorem rootWalk_eq_parentWalk {root : VfsNode} {stack : List VfsNode}
    {components : List (List UInt8)} (h : shallow stack.length components) :
    rootWalk root stack components = parentWalk root stack components := by
  unfold rootWalk parentWalk
  induction components generalizing stack with
  | nil => rfl
  | cons component rest ih =>
    unfold shallow at h
    unfold stackWalk
    split_ifs at h ⊢ with hnil hdot hdotDot
    · exact ih h
    · exact ih h
    · rfl
    · obtain ⟨hdepth, hrest⟩ := Bool.and_eq_true_iff.mp h
      have hle := of_decide_eq_true hdepth
      have htail : stack.tail = [] := by
        rw [← List.length_eq_zero_iff, List.length_tail]
        omega
      rw [htail]
      exact ih hrest
    · cases VfsNode.findChild (stack.headD root) component with
      | none => rfl
      | some child => exact ih h

/-- Below the root no node has the root's address. -/
theorem id_ne_of_child {root node child : VfsNode} (hroot : root.ids.Nodup)
    (hnode : node.Sub root) (hchild : child ∈ node.children) : child.id ≠ root.id := by
  intro heq
  cases hnode with
  | refl =>
    have hmem := child.id_mem_ids
    rw [heq] at hmem
    exact (IdTree.nodup_ids_iff.mp hroot).1 child hchild hmem
  | child hc hs =>
    have hmem := ((IdTree.Sub.of_mem hchild).trans hs).id_mem
    rw [heq] at hmem
    exact (IdTree.nodup_ids_iff.mp hroot).1 _ hc hmem

/-- The stack of a walk: empty at the root, and headed by a node that is not the root. -/
structure StackInv (root : VfsNode) (stack : List VfsNode) : Prop where
  sub : (stack.headD root).Sub root
  root_iff : (stack.headD root).id = root.id ↔ stack = []

theorem StackInv.nil (root : VfsNode) : StackInv root [] where
  sub := .refl root
  root_iff := iff_of_true rfl rfl

theorem StackInv.push {root : VfsNode} {stack : List VfsNode} (h : StackInv root stack)
    (hroot : root.ids.Nodup) {child : VfsNode} (hchild : child ∈ (stack.headD root).children) :
    StackInv root (child :: stack) where
  sub := (IdTree.Sub.of_mem hchild).trans h.sub
  root_iff := iff_of_false (id_ne_of_child hroot h.sub hchild) (List.cons_ne_nil _ _)

theorem walk_eq_rootWalk {root : VfsNode} (hroot : root.ids.Nodup) {stack : List VfsNode}
    (hstack : StackInv root stack) (components : List (List UInt8)) :
    walk root (stack.headD root) components = rootWalk root stack components := by
  unfold rootWalk
  induction components generalizing stack with
  | nil => rfl
  | cons component rest ih =>
    unfold stackWalk
    rcases component_cases component with hskip | rfl | hproper
    · rw [walk_skip hskip, ih hstack]
      rcases hskip with rfl | rfl
      · rw [if_pos rfl]
      · rw [if_neg (by decide), if_pos rfl]
    · rw [walk_dotDot, if_neg dotDot_ne_nil, if_neg dotDot_ne_dot, if_pos rfl]
      by_cases hempty : stack = []
      · rw [if_pos (hstack.root_iff.mpr hempty), if_pos hempty]
      · rw [if_neg (fun heq => hempty (hstack.root_iff.mp heq)), if_neg hempty]
        exact ih (.nil root)
    · rw [walk_proper hproper, if_neg hproper.1, if_neg hproper.2.1, if_neg hproper.2.2]
      cases hchild : VfsNode.findChild (stack.headD root) component with
      | none => rfl
      | some child => exact ih (hstack.push hroot (mem_of_findChild hchild).1)

/-- `resolve` is the walk whose `..` returns to the root and fails exactly at the root; where
every `..` comes at depth one at most, it is the reference walk. -/
theorem resolve_eq_rootWalk (t : VfsTree) (rest : List UInt8) :
    t.resolve (Path.slash :: rest) = rootWalk t.root [] (Path.split rest) ∧
      (shallow 0 (Path.split rest) →
        t.resolve (Path.slash :: rest) = parentWalk t.root [] (Path.split rest)) := by
  have hresolve : t.resolve (Path.slash :: rest) = rootWalk t.root [] (Path.split rest) := by
    unfold VfsTree.resolve
    rw [if_pos ⟨rest, rfl⟩]
    exact walk_eq_rootWalk t.nodup (StackInv.nil t.root) (Path.split rest)
  exact ⟨hresolve, fun h => hresolve.trans (rootWalk_eq_parentWalk h)⟩

/-- The address that a walk ends at. -/
def address (x : Outcome VfsError VfsNode) : Outcome VfsError ℕ := do
  let node ← x
  pure node.id

/-- The tree of `/a/b`, with `a` at address 1 and `b` at address 2. -/
def nested : VfsTree :=
  ((VfsAdapter.init {}).tree.addChild 0 (VfsAdapter.dirEntry [47, 97])).addChild 1
    (VfsAdapter.dirEntry [47, 97, 47, 98])

theorem resolve_nested_shallow :
    nested.resolve [47, 97, 47, 46, 46, 47, 97] =
      parentWalk nested.root [] (Path.split [97, 47, 46, 46, 47, 97]) := by
  exact (resolve_eq_rootWalk nested [97, 47, 46, 46, 47, 97]).2 (by decide)

/-- From `/a/b` the component `..` leads to the root, and not to `/a`. -/
theorem resolve_nested_ne_parentWalk :
    address (nested.resolve [47, 97, 47, 98, 47, 46, 46]) = .ok 0 ∧
      address (parentWalk nested.root [] (Path.split [97, 47, 98, 47, 46, 46])) = .ok 1 := by
  constructor
  · decide
  · decide

end LingNet.Vfs
