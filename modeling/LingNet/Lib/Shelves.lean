import LingNet.Lib.IdTree
import Mathlib.Data.List.Induction

/-! Trees as stores. The values of the nodes have keys, and siblings may share one: a path of keys
leads to a shelf, the nodes that compete for its last key below the node that stands in front at
the path before it. Only the one in front is seen. -/

/-- What stands at each path, the front first. -/
abbrev Shelves (K V : Type*) := List K → List V

namespace Shelves

variable {K V : Type*} [DecidableEq K]

/-- A value is put behind those that stand at the path. -/
def put (path : List K) (v : V) (s : Shelves K V) : Shelves K V :=
  fun p => if p = path then s p ++ [v] else s p

/-- The front of a path is taken away, with all that stands below it. -/
def cut (path : List K) (s : Shelves K V) : Shelves K V :=
  fun p => if p = path then (s p).tail else if path <+: p then [] else s p

end Shelves

namespace IdTree

variable {α K : Type*} [DecidableEq K] (key : α → K)

/-- The nodes that compete for a key below the front of the given ones. -/
def rivals (k : K) : List (IdTree α) → List (IdTree α)
  | [] => []
  | front :: _ => front.children.filter fun c => key c.val = k

/-- The nodes that compete for a path from the front of the given ones. -/
def shelf (ts : List (IdTree α)) (path : List K) : List (IdTree α) :=
  path.foldl (fun ts k => rivals key k ts) ts

/-- What a tree stores at each path. -/
def shelves (t : IdTree α) : Shelves K α := fun path => (shelf key [t] path).map val

/-- The node that a path leads to. -/
def front? (t : IdTree α) (path : List K) : Option (IdTree α) := (shelf key [t] path).head?

/-- Nodes without a node in common. -/
structure Apart (ts : List (IdTree α)) : Prop where
  nodup : ∀ t ∈ ts, t.ids.Nodup
  disjoint : ts.Pairwise fun t t' => t.ids.Disjoint t'.ids

/-- Those that stand behind a front have no children. -/
def Tidy (t : IdTree α) : Prop := ∀ path, ∀ c ∈ (shelf key [t] path).tail, c.children = []

section Shelf

variable {key} {t a b leaf : IdTree α} {ts : List (IdTree α)} {path path' : List K} {k : K} {p : ℕ}

@[simp] theorem shelf_nil (ts : List (IdTree α)) : shelf key ts [] = ts := rfl

theorem shelf_cons (ts : List (IdTree α)) (k : K) (path : List K) :
    shelf key ts (k :: path) = shelf key (rivals key k ts) path := rfl

theorem shelf_concat (ts : List (IdTree α)) (path : List K) (k : K) :
    shelf key ts (path ++ [k]) = rivals key k (shelf key ts path) := List.foldl_concat ..

@[simp] theorem rivals_nil (k : K) : rivals key k ([] : List (IdTree α)) = [] := rfl

theorem rivals_cons (k : K) (front : IdTree α) (rest : List (IdTree α)) :
    rivals key k (front :: rest) = front.children.filter fun c => key c.val = k := rfl

theorem rivals_of_leaf (k : K) (h : ∀ c ∈ ts.head?, c.children = []) : rivals key k ts = [] := by
  cases ts with
  | nil => rfl
  | cons front rest =>
    have hleaf : front.children = [] := h front rfl
    rw [rivals_cons, hleaf]
    rfl

theorem mem_rivals (h : a ∈ rivals key k ts) :
    ∃ front ∈ ts, a ∈ front.children ∧ key a.val = k := by
  cases ts with
  | nil => cases h
  | cons front rest =>
    obtain ⟨hchild, hkey⟩ := List.mem_filter.mp h
    exact ⟨front, List.mem_cons_self, hchild, of_decide_eq_true hkey⟩

theorem sub_of_mem_shelf (h : a ∈ shelf key ts path) : ∃ t ∈ ts, a.Sub t := by
  induction path generalizing ts with
  | nil => exact ⟨a, h, .refl a⟩
  | cons k path ih =>
    obtain ⟨c, hc, hsub⟩ := ih h
    obtain ⟨front, hfront, hchild, -⟩ := mem_rivals hc
    exact ⟨front, hfront, hsub.trans (.of_mem hchild)⟩

theorem Apart.singleton (h : t.ids.Nodup) : Apart [t] where
  nodup _ ht := (List.mem_singleton.mp ht) ▸ h
  disjoint := List.pairwise_singleton ..

theorem Apart.rivals (h : Apart ts) (k : K) : Apart (rivals key k ts) := by
  cases ts with
  | nil => exact ⟨nofun, .nil⟩
  | cons front rest =>
    obtain ⟨-, hnodup, hdisjoint⟩ := nodup_ids_iff.mp (h.nodup front List.mem_cons_self)
    exact {
      nodup := fun c hc => hnodup c (List.mem_of_mem_filter hc)
      disjoint := hdisjoint.sublist List.filter_sublist }

theorem Apart.shelf (h : Apart ts) (path : List K) : Apart (shelf key ts path) := by
  induction path generalizing ts with
  | nil => exact h
  | cons k path ih => exact ih (h.rivals k)

theorem Apart.eq_of_mem (h : Apart ts) (ha : a ∈ ts) (hb : b ∈ ts) {i : ℕ} (hia : i ∈ a.ids)
    (hib : i ∈ b.ids) : a = b := by
  by_contra hne
  have hsymm : Std.Symm fun c c' : IdTree α => c.ids.Disjoint c'.ids :=
    ⟨fun _ _ h => List.disjoint_symm h⟩
  exact h.disjoint.forall ha hb hne hia hib

/-- A node stands at one path. -/
theorem path_unique (h : Apart ts) (ha : a ∈ shelf key ts path) (hb : b ∈ shelf key ts path')
    (hid : a.id = b.id) : path = path' := by
  -- a node at a longer path is below a child of the front, and not a rival itself
  have hstart : ∀ {ts : List (IdTree α)} {a b : IdTree α} {k : K} {path : List K}, Apart ts →
      a ∈ ts → b ∈ shelf key ts (k :: path) → a.id ≠ b.id := by
    intro ts a b k path h ha hb hid
    rw [shelf_cons] at hb
    obtain ⟨c, hc, hsub⟩ := sub_of_mem_shelf hb
    obtain ⟨front, hfront, hchild, -⟩ := mem_rivals hc
    have hmem : b.id ∈ c.ids := hsub.id_mem
    have heq : a = front := h.eq_of_mem ha hfront a.id_mem_ids
      (hid ▸ ids_subset_of_mem hchild hmem)
    subst heq
    exact (nodup_ids_iff.mp (h.nodup a ha)).1 c hchild (hid ▸ hmem)
  induction path generalizing ts path' with
  | nil =>
    cases path' with
    | nil => rfl
    | cons k path' => exact absurd hid (hstart h ha hb)
  | cons k path ih =>
    cases path' with
    | nil => exact absurd hid.symm (hstart h hb ha)
    | cons k' path' =>
      by_cases hk : k = k'
      · subst hk
        rw [ih (h.rivals k) ha hb]
      · rw [shelf_cons] at ha hb
        obtain ⟨c, hc, hsub⟩ := sub_of_mem_shelf ha
        obtain ⟨c', hc', hsub'⟩ := sub_of_mem_shelf hb
        cases ts with
        | nil => cases hc
        | cons front rest =>
          obtain ⟨hchild, hkey⟩ := List.mem_filter.mp hc
          obtain ⟨hchild', hkey'⟩ := List.mem_filter.mp hc'
          have heq : c = c' := eq_of_mem_ids (h.nodup front List.mem_cons_self) hchild hchild'
            hsub.id_mem (hid ▸ hsub'.id_mem)
          subst heq
          exact absurd ((of_decide_eq_true hkey).symm.trans (of_decide_eq_true hkey')) hk

theorem front?_mem (h : front? key t path = some a) : a ∈ shelf key [t] path :=
  List.mem_of_mem_head? h

theorem front?_concat (h : front? key t path = some a) (k : K) :
    shelf key [t] (path ++ [k]) = a.children.filter fun c => key c.val = k := by
  rw [shelf_concat]
  unfold front? at h
  cases hshelf : shelf key [t] path with
  | nil =>
    rw [hshelf] at h
    cases h
  | cons front rest =>
    rw [hshelf] at h
    cases h
    rfl

/-- The front is not one of those behind it. -/
theorem ne_of_mem_tail (ht : t.ids.Nodup) (ha : front? key t path = some a)
    (hb : b ∈ (shelf key [t] path').tail) : b.id ≠ a.id := by
  intro hid
  have hb' : b ∈ shelf key [t] path' := List.mem_of_mem_tail hb
  have hpath : path' = path := path_unique (.singleton ht) hb' (front?_mem ha) hid
  subst hpath
  have hapart : Apart (shelf key [t] path') := (Apart.singleton ht).shelf path'
  unfold front? at ha
  cases hshelf : shelf key [t] path' with
  | nil =>
    rw [hshelf] at ha
    cases ha
  | cons front rest =>
    rw [hshelf] at ha hb hapart
    cases ha
    have hdisjoint := (List.pairwise_cons.mp hapart.disjoint).1 b hb
    exact hdisjoint a.id_mem_ids (hid ▸ b.id_mem_ids)

end Shelf

/-! A leaf that is hung below the front of a path. -/

section Append

variable {key} {t parent leaf : IdTree α} {path : List K}

theorem filter_map_modify (p : ℕ) (g : List (IdTree α) → List (IdTree α)) (k : K)
    (l : List (IdTree α)) : (l.map (modify p g)).filter (fun c => key c.val = k) =
      (l.filter fun c => key c.val = k).map (modify p g) := by
  rw [List.filter_map]
  congr 2
  funext c
  simp only [Function.comp_apply, val_modify]

theorem shelf_append (ht : t.ids.Nodup) (hparent : front? key t path = some parent)
    (hleaf : leaf.children = []) (q : List K) :
    shelf key [append parent.id leaf t] q =
      (shelf key [t] q).map (append parent.id leaf) ++
        if q = path ++ [key leaf.val] then [leaf] else [] := by
  induction q using List.reverseRecOn with
  | nil => simp
  | append_singleton q k ih =>
    rw [shelf_concat, ih]
    cases hshelf : shelf key [t] q with
    | nil =>
      have hne : q ≠ path := by
        rintro rfl
        unfold front? at hparent
        rw [hshelf] at hparent
        cases hparent
      have hgrown : q ++ [k] ≠ path ++ [key leaf.val] := fun heq =>
        hne (List.append_inj_left' heq rfl)
      rw [shelf_concat, hshelf, if_neg hgrown, List.map_nil, List.nil_append]
      refine rivals_of_leaf k fun c hc => ?_
      split_ifs at hc with hq
      · cases hc
        exact hleaf
      · cases hc
    | cons front rest =>
      have hfront : front? key t q = some front := by
        unfold front?
        rw [hshelf]
        rfl
      rw [front?_concat hfront, List.map_cons, List.cons_append, rivals_cons]
      by_cases hid : front.id = parent.id
      · have hq : q = path := path_unique (.singleton ht) (front?_mem hfront)
          (front?_mem hparent) hid
        subst hq
        cases hfront.symm.trans hparent
        unfold append
        rw [children_modify_self rfl, List.filter_append, filter_map_modify]
        congr 1
        by_cases hk : key leaf.val = k
        · rw [if_pos (by rw [hk]), List.filter_cons_of_pos (by simpa using hk), List.filter_nil]
        · rw [if_neg (by simpa using fun h : k = _ => hk h.symm),
            List.filter_cons_of_neg (by simpa using hk), List.filter_nil]
      · have hq : q ≠ path := by
          rintro rfl
          cases hfront.symm.trans hparent
          exact hid rfl
        have hgrown : q ++ [k] ≠ path ++ [key leaf.val] := fun heq =>
          hq (List.append_inj_left' heq rfl)
        unfold append
        rw [children_modify_of_ne hid, filter_map_modify, if_neg hgrown, List.append_nil]

/-- The value of the leaf is put behind those at its path. -/
theorem shelves_append (ht : t.ids.Nodup) (hparent : front? key t path = some parent)
    (hleaf : leaf.children = []) :
    shelves key (append parent.id leaf t) =
      (shelves key t).put (path ++ [key leaf.val]) leaf.val := by
  funext q
  unfold shelves Shelves.put
  rw [shelf_append ht hparent hleaf, List.map_append, List.map_map]
  have hval : (val ∘ append parent.id leaf : IdTree α → α) = val := by
    funext c
    exact val_modify
  rw [hval]
  split_ifs with hq
  · rfl
  · exact List.append_nil _

theorem Tidy.append (h : Tidy key t) (ht : t.ids.Nodup)
    (hparent : front? key t path = some parent) (hleaf : leaf.children = []) :
    Tidy key (append parent.id leaf t) := by
  intro q c hc
  rw [shelf_append ht hparent hleaf] at hc
  have hbehind : ∀ u ∈ (shelf key [t] q).tail, (IdTree.append parent.id leaf u).children = [] := by
    intro u hu
    have hne : u.id ≠ parent.id := ne_of_mem_tail ht hparent hu
    unfold IdTree.append
    rw [children_modify_of_ne hne, h q u hu]
    rfl
  cases hshelf : shelf key [t] q with
  | nil =>
    rw [hshelf, List.map_nil, List.nil_append] at hc
    split_ifs at hc <;> cases hc
  | cons front rest =>
    rw [hshelf, List.map_cons, List.cons_append, List.tail_cons, List.mem_append] at hc
    rw [hshelf, List.tail_cons] at hbehind
    rcases hc with hc | hc
    · obtain ⟨u, hu, rfl⟩ := List.mem_map.mp hc
      exact hbehind u hu
    · split_ifs at hc with hq
      · rw [List.mem_singleton.mp hc]
        exact hleaf
      · cases hc

end Append

/-! The front of a path that is taken away. -/

section Remove

variable {key} {t parent child : IdTree α} {path : List K} {l r : List (IdTree α)}

/-- Without the first of those that pass a test, the rest passes it. -/
theorem filter_eraseIdx_first {β : Type*} {q : β → Bool} {l r : List β} {c : β}
    (hl : ∀ x ∈ l, q x = false) (hc : q c = true) :
    ((l ++ c :: r).eraseIdx l.length).filter q = ((l ++ c :: r).filter q).tail := by
  have hnone : l.filter q = [] := List.filter_eq_nil_iff.mpr fun x hx => by simp [hl x hx]
  rw [List.eraseIdx_append_of_length_le (Nat.le_refl _), Nat.sub_self, List.eraseIdx_cons_zero,
    List.filter_append, List.filter_append, hnone, List.filter_cons_of_pos hc]
  rfl

theorem filter_eraseIdx_of_not {β : Type*} {q : β → Bool} {l r : List β} {c : β}
    (hc : q c = false) :
    ((l ++ c :: r).eraseIdx l.length).filter q = (l ++ c :: r).filter q := by
  rw [List.eraseIdx_append_of_length_le (Nat.le_refl _), Nat.sub_self, List.eraseIdx_cons_zero,
    List.filter_append, List.filter_append, List.filter_cons_of_neg (by simp [hc])]

theorem shelf_removeChild (ht : t.ids.Nodup) (htidy : Tidy key t)
    (hparent : front? key t path = some parent) (hsplit : parent.children = l ++ child :: r)
    (hl : ∀ c ∈ l, key c.val ≠ key child.val) (q : List K) :
    shelf key [removeChild parent.id l.length t] q =
      if q = path ++ [key child.val] then
        ((shelf key [t] q).tail).map (removeChild parent.id l.length)
      else if path ++ [key child.val] <+: q then []
      else (shelf key [t] q).map (removeChild parent.id l.length) := by
  induction q using List.reverseRecOn with
  | nil =>
    rw [if_neg (by simp), if_neg (by simp)]
    rfl
  | append_singleton q k ih =>
    rw [shelf_concat, ih]
    by_cases hself : q = path ++ [key child.val]
    · -- those behind the front have nothing below them
      subst hself
      rw [if_pos rfl, if_neg (by simp), if_pos (List.prefix_append ..)]
      refine rivals_of_leaf k fun c hc => ?_
      obtain ⟨u, hu, rfl⟩ := List.mem_map.mp (List.mem_of_mem_head? hc)
      have hleaf := htidy _ u hu
      unfold removeChild
      by_cases hid : u.id = parent.id
      · rw [children_modify_self hid, hleaf]
        rfl
      · rw [children_modify_of_ne hid, hleaf]
        rfl
    rw [if_neg hself]
    by_cases hbelow : path ++ [key child.val] <+: q
    · rw [if_pos hbelow, if_neg (fun heq => ?_), if_pos (hbelow.trans (List.prefix_append ..))]
      · rfl
      · have hlength := hbelow.length_le
        rw [← heq, List.length_append, List.length_singleton] at hlength
        omega
    rw [if_neg hbelow]
    have hends : path ++ [key child.val] <+: q ++ [k] ↔
        q ++ [k] = path ++ [key child.val] := by
      rw [List.prefix_concat_iff, or_iff_left hbelow, eq_comm]
    cases hshelf : shelf key [t] q with
    | nil =>
      have hne : q ++ [k] ≠ path ++ [key child.val] := by
        intro heq
        have hq : q = path := List.append_inj_left' heq rfl
        subst hq
        unfold front? at hparent
        rw [hshelf] at hparent
        cases hparent
      rw [if_neg hne, if_neg (fun h => hne (hends.mp h)), shelf_concat, hshelf]
      rfl
    | cons front rest =>
      have hfront : front? key t q = some front := by
        unfold front?
        rw [hshelf]
        rfl
      rw [front?_concat hfront, List.map_cons, rivals_cons]
      by_cases hid : front.id = parent.id
      · have hq : q = path := path_unique (.singleton ht) (front?_mem hfront)
          (front?_mem hparent) hid
        subst hq
        cases hfront.symm.trans hparent
        unfold removeChild
        rw [children_modify_self rfl, List.eraseIdx_map, filter_map_modify, hsplit]
        by_cases hk : key child.val = k
        · subst hk
          rw [if_pos rfl, filter_eraseIdx_first (fun c hc => by simpa using hl c hc) (by simp),
            List.map_tail]
        · have hne : q ++ [k] ≠ q ++ [key child.val] := fun heq =>
            hk (List.singleton_inj.mp (List.append_cancel_left heq)).symm
          rw [if_neg hne, if_neg fun h => hne (hends.mp h),
            filter_eraseIdx_of_not (by simpa using hk)]
      · have hne : q ++ [k] ≠ path ++ [key child.val] := by
          intro heq
          have hq : q = path := List.append_inj_left' heq rfl
          subst hq
          cases hfront.symm.trans hparent
          exact hid rfl
        unfold removeChild
        rw [children_modify_of_ne hid, filter_map_modify, if_neg hne,
          if_neg fun h => hne (hends.mp h)]

/-- The front of its path is cut. -/
theorem shelves_removeChild (ht : t.ids.Nodup) (htidy : Tidy key t)
    (hparent : front? key t path = some parent) (hsplit : parent.children = l ++ child :: r)
    (hl : ∀ c ∈ l, key c.val ≠ key child.val) :
    shelves key (removeChild parent.id l.length t) =
      (shelves key t).cut (path ++ [key child.val]) := by
  have hval : (val ∘ removeChild parent.id l.length : IdTree α → α) = val := by
    funext c
    exact val_modify
  funext q
  unfold shelves Shelves.cut
  rw [shelf_removeChild ht htidy hparent hsplit hl]
  split_ifs
  · rw [List.map_map, hval, List.map_tail]
  · rfl
  · rw [List.map_map, hval]

theorem Tidy.removeChild (htidy : Tidy key t) (ht : t.ids.Nodup)
    (hparent : front? key t path = some parent) (hsplit : parent.children = l ++ child :: r)
    (hl : ∀ c ∈ l, key c.val ≠ key child.val) :
    Tidy key (removeChild parent.id l.length t) := by
  have hleaf : ∀ u : IdTree α, u.children = [] →
      (IdTree.removeChild parent.id l.length u).children = [] := by
    intro u hu
    unfold IdTree.removeChild
    by_cases hid : u.id = parent.id
    · rw [children_modify_self hid, hu]
      rfl
    · rw [children_modify_of_ne hid, hu]
      rfl
  intro q c hc
  rw [shelf_removeChild ht htidy hparent hsplit hl] at hc
  split_ifs at hc with hself hbelow
  · rw [← List.map_tail] at hc
    obtain ⟨u, hu, rfl⟩ := List.mem_map.mp hc
    exact hleaf u (htidy q u (List.mem_of_mem_tail hu))
  · cases hc
  · rw [← List.map_tail] at hc
    obtain ⟨u, hu, rfl⟩ := List.mem_map.mp hc
    exact hleaf u (htidy q u hu)

end Remove
end IdTree
