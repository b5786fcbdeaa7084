import Mathlib.Data.List.Perm.Basic
import Mathlib.Data.List.Nodup
import Mathlib.Data.List.Pairwise

/-! Trees with any number of children whose nodes have identities: the nodes in preorder,
the subtrees, and changing the children of one node. -/

inductive IdTree (α : Type*) where
  | node (id : ℕ) (val : α) (children : List (IdTree α))

namespace IdTree

variable {α : Type*}

def id : IdTree α → ℕ
  | node i _ _ => i

def val : IdTree α → α
  | node _ v _ => v

def children : IdTree α → List (IdTree α)
  | node _ _ ts => ts

mutual

/-- The nodes in preorder. -/
def nodes : IdTree α → List (ℕ × α)
  | node i v ts => (i, v) :: nodesList ts

def nodesList : List (IdTree α) → List (ℕ × α)
  | [] => []
  | t :: ts => nodes t ++ nodesList ts

end

mutual

/-- Change the list of children of the nodes with identity `p`. -/
def modify (p : ℕ) (g : List (IdTree α) → List (IdTree α)) : IdTree α → IdTree α
  | node i v ts => node i v (if i = p then g (modifyList p g ts) else modifyList p g ts)

def modifyList (p : ℕ) (g : List (IdTree α) → List (IdTree α)) : List (IdTree α) → List (IdTree α)
  | [] => []
  | t :: ts => modify p g t :: modifyList p g ts

end

theorem nodesList_eq_flatMap (ts : List (IdTree α)) : nodesList ts = ts.flatMap nodes := by
  induction ts with
  | nil => rfl
  | cons t ts ih => rw [nodesList, ih, List.flatMap_cons]

theorem modifyList_eq_map (p : ℕ) (g : List (IdTree α) → List (IdTree α)) (ts : List (IdTree α)) :
    modifyList p g ts = ts.map (modify p g) := by
  induction ts with
  | nil => rfl
  | cons t ts ih => rw [modifyList, ih, List.map_cons]

mutual

/-- Induction over the children of a node. -/
theorem induction {P : IdTree α → Prop}
    (h : ∀ i v ts, (∀ t ∈ ts, P t) → P (node i v ts)) : ∀ t, P t
  | node i v ts => h i v ts (inductionList h ts)

theorem inductionList {P : IdTree α → Prop}
    (h : ∀ i v ts, (∀ t ∈ ts, P t) → P (node i v ts)) : ∀ ts : List (IdTree α), ∀ t ∈ ts, P t
  | [] => List.forall_mem_nil _
  | t :: ts => List.forall_mem_cons.mpr ⟨induction h t, inductionList h ts⟩

end

/-- The identities of the nodes. -/
def ids (t : IdTree α) : List ℕ := t.nodes.map Prod.fst

theorem nodes_eq (t : IdTree α) : t.nodes = (t.id, t.val) :: t.children.flatMap nodes := by
  cases t
  rw [nodes, nodesList_eq_flatMap]
  rfl

theorem ids_eq (t : IdTree α) : t.ids = t.id :: t.children.flatMap ids := by
  unfold ids
  rw [nodes_eq, List.map_cons, List.map_flatMap]

theorem id_mem_ids (t : IdTree α) : t.id ∈ t.ids := by
  rw [ids_eq]
  exact List.mem_cons_self

section Modify

variable {p : ℕ} {g : List (IdTree α) → List (IdTree α)} {t : IdTree α}

@[simp] theorem id_modify : (modify p g t).id = t.id := by
  cases t
  rfl

@[simp] theorem val_modify : (modify p g t).val = t.val := by
  cases t
  rfl

theorem children_modify_self (h : t.id = p) :
    (modify p g t).children = g (t.children.map (modify p g)) := by
  cases t
  rw [modify, modifyList_eq_map]
  exact if_pos h

theorem children_modify_of_ne (h : t.id ≠ p) :
    (modify p g t).children = t.children.map (modify p g) := by
  cases t
  rw [modify, modifyList_eq_map]
  exact if_neg h

theorem eq_of_fields {t u : IdTree α} (hid : t.id = u.id) (hval : t.val = u.val)
    (hchildren : t.children = u.children) : t = u := by
  cases t
  cases u
  cases hid
  cases hval
  cases hchildren
  rfl

/-- Trees without a node `p` stay as they are. -/
theorem modify_of_notMem (h : p ∉ t.ids) : modify p g t = t := by
  induction t using induction with
  | h i v ts ih =>
    rw [ids_eq, List.mem_cons, not_or] at h
    obtain ⟨hi, hts⟩ := h
    refine eq_of_fields id_modify val_modify ?_
    rw [children_modify_of_ne (Ne.symm hi)]
    refine (List.map_congr_left fun u hu => ih u hu fun hp => hts ?_).trans (List.map_id _)
    exact List.mem_flatMap.mpr ⟨u, hu, hp⟩

end Modify

/-! Subtrees. -/

/-- `s` is the tree below some node of `t`. -/
inductive Sub : IdTree α → IdTree α → Prop
  | refl (t : IdTree α) : Sub t t
  | child {s c t : IdTree α} (hc : c ∈ t.children) (hs : Sub s c) : Sub s t

theorem Sub.of_mem {c t : IdTree α} (h : c ∈ t.children) : Sub c t := .child h (.refl c)

theorem Sub.trans {r s t : IdTree α} (hr : Sub r s) (hs : Sub s t) : Sub r t := by
  induction hs with
  | refl => exact hr
  | child hc _ ih => exact .child hc ih

theorem ids_subset_of_mem {c t : IdTree α} (h : c ∈ t.children) : c.ids ⊆ t.ids := by
  intro i hi
  rw [ids_eq t]
  exact List.mem_cons_of_mem _ (List.mem_flatMap.mpr ⟨c, h, hi⟩)

theorem Sub.ids_subset {s t : IdTree α} (h : Sub s t) : s.ids ⊆ t.ids := by
  induction h with
  | refl => exact List.Subset.refl _
  | child hc _ ih => exact List.Subset.trans ih (ids_subset_of_mem hc)

theorem Sub.id_mem {s t : IdTree α} (h : Sub s t) : s.id ∈ t.ids := h.ids_subset s.id_mem_ids

/-- Trees with distinct identities: the root's is not among its children's, and each
child's nodes are its own. -/
theorem nodup_ids_iff {t : IdTree α} :
    t.ids.Nodup ↔ (∀ c ∈ t.children, t.id ∉ c.ids) ∧ (∀ c ∈ t.children, c.ids.Nodup) ∧
      t.children.Pairwise fun c c' => c.ids.Disjoint c'.ids := by
  rw [ids_eq, List.nodup_cons, List.nodup_flatMap, List.mem_flatMap]
  simp only [not_exists, not_and]

theorem Sub.nodup {s t : IdTree α} (h : Sub s t) (ht : t.ids.Nodup) : s.ids.Nodup := by
  induction h with
  | refl => exact ht
  | child hc _ ih => exact ih ((nodup_ids_iff.mp ht).2.1 _ hc)

/-- Only the tree itself has the identity of its root. -/
theorem Sub.eq_of_id {s t : IdTree α} (h : Sub s t) (ht : t.ids.Nodup) (hid : s.id = t.id) :
    s = t := by
  cases h with
  | refl => rfl
  | child hc hs =>
    have hmem := hs.id_mem
    rw [hid] at hmem
    exact absurd hmem ((nodup_ids_iff.mp ht).1 _ hc)

theorem eq_of_mem_ids {t c c' : IdTree α} (ht : t.ids.Nodup) (hc : c ∈ t.children)
    (hc' : c' ∈ t.children) {i : ℕ} (hi : i ∈ c.ids) (hi' : i ∈ c'.ids) : c = c' := by
  by_contra hne
  have hsymm : Std.Symm fun c c' : IdTree α => c.ids.Disjoint c'.ids :=
    ⟨fun _ _ h => List.disjoint_symm h⟩
  exact (nodup_ids_iff.mp ht).2.2.forall hc hc' hne hi hi'

/-- With distinct identities, an identity names one subtree. -/
theorem Sub.unique {s s' t : IdTree α} (h : Sub s t) (h' : Sub s' t) (ht : t.ids.Nodup)
    (hid : s.id = s'.id) : s = s' := by
  induction h generalizing s' with
  | refl => exact (h'.eq_of_id ht hid.symm).symm
  | child hc hs ih =>
    cases h' with
    | refl =>
      have hmem := hs.id_mem
      rw [hid] at hmem
      exact absurd hmem ((nodup_ids_iff.mp ht).1 _ hc)
    | child hc' hs' =>
      have hmem' := hs'.id_mem
      rw [← hid] at hmem'
      cases eq_of_mem_ids ht hc hc' hs.id_mem hmem'
      exact ih hs' ((nodup_ids_iff.mp ht).2.1 _ hc) hid

theorem exists_sub_of_mem_nodes {t : IdTree α} {x : ℕ × α} (h : x ∈ t.nodes) :
    ∃ s, Sub s t ∧ s.id = x.1 ∧ s.val = x.2 := by
  induction t using induction with
  | h i v ts ih =>
    rw [nodes_eq, List.mem_cons, List.mem_flatMap] at h
    rcases h with rfl | ⟨c, hc, hx⟩
    · exact ⟨_, .refl _, rfl, rfl⟩
    · obtain ⟨s, hs, heq⟩ := ih c hc hx
      exact ⟨s, .child hc hs, heq⟩

/-! What a change below one node does to the whole tree. -/

/-- The children of a node of `t` are trees without the node. -/
theorem map_modify_children {t : IdTree α} (ht : t.ids.Nodup)
    (g : List (IdTree α) → List (IdTree α)) :
    t.children.map (modify t.id g) = t.children := by
  refine (List.map_congr_left fun c hc => ?_).trans (List.map_id _)
  exact modify_of_notMem ((nodup_ids_iff.mp ht).1 c hc)

/-- The other children do not have the node either. -/
theorem map_modify_of_mem {t c : IdTree α} (ht : t.ids.Nodup) {p : ℕ}
    (g : List (IdTree α) → List (IdTree α)) (hp : p ∈ c.ids) {l l' : List (IdTree α)}
    (hsplit : t.children = l ++ c :: l') :
    t.children.map (modify p g) = l ++ modify p g c :: l' := by
  have hdisjoint := (nodup_ids_iff.mp ht).2.2
  rw [hsplit, List.pairwise_append, List.pairwise_cons] at hdisjoint
  obtain ⟨_, ⟨hafter, _⟩, hbefore⟩ := hdisjoint
  have hl : l.map (modify p g) = l := by
    refine (List.map_congr_left fun u hu => ?_).trans (List.map_id _)
    exact modify_of_notMem fun hpu => hbefore u hu c List.mem_cons_self hpu hp
  have hl' : l'.map (modify p g) = l' := by
    refine (List.map_congr_left fun u hu => ?_).trans (List.map_id _)
    exact modify_of_notMem fun hpu => hafter u hu hp hpu
  rw [hsplit, List.map_append, List.map_cons, hl, hl']

open List in
/-- The nodes of the changed tree, with the children that the node had, are the nodes of the
old tree with the children that the node has now. -/
theorem nodes_modify_perm {s t : IdTree α} (hs : Sub s t) (ht : t.ids.Nodup)
    (g : List (IdTree α) → List (IdTree α)) :
    (modify s.id g t).nodes ++ s.children.flatMap nodes ~
      t.nodes ++ (g s.children).flatMap nodes := by
  induction hs with
  | refl =>
    rw [nodes_eq, nodes_eq s, id_modify, val_modify, children_modify_self rfl,
      map_modify_children ht]
    exact perm_append_comm.cons _
  | @child c t hc hs ih =>
    have hne : t.id ≠ s.id := by
      intro heq
      exact (nodup_ids_iff.mp ht).1 c hc (heq ▸ hs.id_mem)
    obtain ⟨l, l', hsplit⟩ := append_of_mem hc
    have hchildren := map_modify_of_mem ht g hs.id_mem hsplit
    have hperm := ih ((nodup_ids_iff.mp ht).2.1 c hc)
    rw [nodes_eq, nodes_eq t, id_modify, val_modify, children_modify_of_ne hne, hchildren,
      hsplit, flatMap_append, flatMap_append, flatMap_cons, flatMap_cons, cons_append, cons_append,
      append_assoc, append_assoc, append_assoc, append_assoc]
    refine Perm.cons _ (Perm.append_left _ ?_)
    calc (modify s.id g c).nodes ++ (l'.flatMap nodes ++ s.children.flatMap nodes)
      _ ~ (modify s.id g c).nodes ++ (s.children.flatMap nodes ++ l'.flatMap nodes) :=
        perm_append_comm.append_left _
      _ ~ c.nodes ++ (g s.children).flatMap nodes ++ l'.flatMap nodes := by
        rw [← append_assoc]
        exact hperm.append_right _
      _ ~ c.nodes ++ (l'.flatMap nodes ++ (g s.children).flatMap nodes) := by
        rw [append_assoc]
        exact perm_append_comm.append_left _

/-- The subtrees of the changed tree are changed subtrees of the old one, and those of
children that are new. -/
theorem sub_modify {p : ℕ} {g : List (IdTree α) → List (IdTree α)} {new : List (IdTree α)}
    (hg : ∀ l, ∀ u ∈ g l, u ∈ l ∨ u ∈ new) {t u : IdTree α} (h : Sub u (modify p g t)) :
    (∃ s, Sub s t ∧ u = modify p g s) ∨ ∃ n ∈ new, Sub u n := by
  induction t using induction with
  | h i v ts ih =>
    have hmem : ∀ c ∈ (modify p g (node i v ts)).children,
        c ∈ ts.map (modify p g) ∨ c ∈ new := by
      intro c hc
      by_cases hi : i = p
      · rw [children_modify_self (t := node i v ts) hi] at hc
        exact hg _ c hc
      · rw [children_modify_of_ne (t := node i v ts) hi] at hc
        exact .inl hc
    cases h with
    | refl => exact .inl ⟨_, .refl _, rfl⟩
    | child hc hu =>
      rcases hmem _ hc with hc | hc
      · obtain ⟨c, hcts, rfl⟩ := List.mem_map.mp hc
        rcases ih c hcts hu with ⟨s, hs, rfl⟩ | hnew
        · exact .inl ⟨s, .child hcts hs, rfl⟩
        · exact .inr hnew
      · exact .inr ⟨_, hc, hu⟩

/-- A change that keeps every child keeps every subtree, changed. -/
theorem Sub.modify {p : ℕ} {g : List (IdTree α) → List (IdTree α)} (hg : ∀ l, l ⊆ g l)
    {s t : IdTree α} (h : Sub s t) : Sub (IdTree.modify p g s) (IdTree.modify p g t) := by
  induction h with
  | refl => exact .refl _
  | @child c t hc _ ih =>
    refine .child ?_ ih
    have hmem : IdTree.modify p g c ∈ t.children.map (IdTree.modify p g) :=
      List.mem_map_of_mem hc
    by_cases hid : t.id = p
    · rw [children_modify_self hid]
      exact hg _ hmem
    · rwa [children_modify_of_ne hid]

/-- Hang a tree below the node `p`, behind its other children. -/
def append (p : ℕ) (c : IdTree α) : IdTree α → IdTree α := modify p fun ts => ts ++ [c]

/-- Take away child number `i` of the node `p`. -/
def removeChild (p i : ℕ) : IdTree α → IdTree α := modify p fun ts => ts.eraseIdx i

open List in
theorem nodes_append_perm {s t : IdTree α} (hs : Sub s t) (ht : t.ids.Nodup) (c : IdTree α) :
    (append s.id c t).nodes ~ t.nodes ++ c.nodes := by
  have hperm := nodes_modify_perm hs ht fun ts => ts ++ [c]
  rw [flatMap_append, flatMap_singleton] at hperm
  refine (perm_append_right_iff (s.children.flatMap nodes)).mp (hperm.trans ?_)
  rw [append_assoc]
  exact perm_append_comm.append_left _

open List in
theorem nodes_removeChild_perm {s t c : IdTree α} (hs : Sub s t) (ht : t.ids.Nodup) {i : ℕ}
    (hc : s.children[i]? = some c) : (removeChild s.id i t).nodes ++ c.nodes ~ t.nodes := by
  have hperm := nodes_modify_perm hs ht fun ts => ts.eraseIdx i
  obtain ⟨hlt, hget⟩ := List.getElem?_eq_some_iff.mp hc
  have hsplit : s.children ~ c :: s.children.eraseIdx i := by
    rw [← hget]
    exact (getElem_cons_eraseIdx_perm hlt).symm
  have hnodes := hsplit.flatMap_right nodes
  rw [flatMap_cons] at hnodes
  refine (perm_append_right_iff ((s.children.eraseIdx i).flatMap nodes)).mp ?_
  refine Perm.trans ?_ hperm
  rw [append_assoc]
  exact hnodes.symm.append_left _

theorem exists_sub_of_mem_ids {t : IdTree α} {i : ℕ} (h : i ∈ t.ids) :
    ∃ s, Sub s t ∧ s.id = i := by
  obtain ⟨x, hx, rfl⟩ := List.mem_map.mp h
  obtain ⟨s, hs, hid, _⟩ := exists_sub_of_mem_nodes hx
  exact ⟨s, hs, hid⟩

theorem mem_ids_modify {p : ℕ} {g : List (IdTree α) → List (IdTree α)} {new : List (IdTree α)}
    (hg : ∀ l, ∀ u ∈ g l, u ∈ l ∨ u ∈ new) {t : IdTree α} {i : ℕ} (h : i ∈ (modify p g t).ids) :
    i ∈ t.ids ∨ ∃ n ∈ new, i ∈ n.ids := by
  obtain ⟨u, hu, rfl⟩ := exists_sub_of_mem_ids h
  rcases sub_modify hg hu with ⟨s, hs, rfl⟩ | ⟨n, hn, hu⟩
  · rw [id_modify]
    exact .inl hs.id_mem
  · exact .inr ⟨n, hn, hu.id_mem⟩

theorem mem_append_singleton (c : IdTree α) (l : List (IdTree α)) :
    ∀ u ∈ l ++ [c], u ∈ l ∨ u ∈ [c] := fun _ h => List.mem_append.mp h

theorem mem_eraseIdx (i : ℕ) (l : List (IdTree α)) : ∀ u ∈ l.eraseIdx i, u ∈ l ∨ u ∈ [] :=
  fun _ h => .inl (List.mem_of_mem_eraseIdx h)

theorem ids_nodup_append {t c : IdTree α} (ht : t.ids.Nodup) (hc : c.ids.Nodup)
    (hdisjoint : t.ids.Disjoint c.ids) (p : ℕ) : (append p c t).ids.Nodup := by
  by_cases hp : p ∈ t.ids
  · obtain ⟨s, hs, rfl⟩ := exists_sub_of_mem_ids hp
    have hperm := (nodes_append_perm hs ht c).map Prod.fst
    rw [List.map_append] at hperm
    exact hperm.nodup_iff.mpr (List.nodup_append'.mpr ⟨ht, hc, hdisjoint⟩)
  · unfold append
    rwa [modify_of_notMem hp]

theorem ids_nodup_removeChild {t : IdTree α} (ht : t.ids.Nodup) (p i : ℕ) :
    (removeChild p i t).ids.Nodup := by
  by_cases hp : p ∈ t.ids
  · obtain ⟨s, hs, rfl⟩ := exists_sub_of_mem_ids hp
    cases hc : s.children[i]? with
    | none =>
      have hperm := nodes_modify_perm hs ht fun ts => ts.eraseIdx i
      rw [List.eraseIdx_of_length_le (List.getElem?_eq_none_iff.mp hc)] at hperm
      have hids := ((List.perm_append_right_iff _).mp hperm).map Prod.fst
      exact hids.nodup_iff.mpr ht
    | some c =>
      have hperm := (nodes_removeChild_perm hs ht hc).map Prod.fst
      rw [List.map_append] at hperm
      exact (hperm.nodup_iff.mpr ht).of_append_left
  · unfold removeChild
    rwa [modify_of_notMem hp]

end IdTree
