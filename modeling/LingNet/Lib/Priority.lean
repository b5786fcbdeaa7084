import Mathlib.Data.List.Nodup
import Mathlib.Data.List.Pairwise
import Mathlib.Order.Basic
import Mathlib.Tactic.Common

/-! First match over a list whose order is a priority, and what becomes of that order when an
element is removed by putting the last one in its place. -/
namespace Priority

variable {α β : Type*}

/-- The last element takes the place of the `i`-th one. -/
def swapRemove (l : List α) (i : ℕ) : List α :=
  match l.getLast? with
  | none => l
  | some a => if i < l.length then (l.set i a).dropLast else l

theorem swapRemove_of_le {l : List α} {i : ℕ} (h : l.length ≤ i) : swapRemove l i = l := by
  unfold swapRemove
  cases l.getLast? with
  | none => rfl
  | some a => exact if_neg (Nat.not_lt.mpr h)

theorem swapRemove_last (x : List α) (a : α) : swapRemove (x ++ [a]) x.length = x := by
  simp [swapRemove]

theorem swapRemove_middle (x : List α) (b : α) (y : List α) (a : α) :
    swapRemove (x ++ b :: (y ++ [a])) x.length = x ++ a :: y := by
  have hassoc : x ++ b :: (y ++ [a]) = (x ++ b :: y) ++ [a] := by simp
  have hset : ((x ++ b :: y) ++ [a]).set x.length a = (x ++ a :: y) ++ [a] := by simp
  unfold swapRemove
  rw [hassoc, List.getLast?_concat]
  dsimp only
  rw [if_pos (by simp), hset, List.dropLast_concat]

/-- An element in range is the last one or stands before it. -/
theorem split_at {l : List α} {i : ℕ} {b : α} (h : l[i]? = some b) :
    (∃ x, l = x ++ [b] ∧ x.length = i) ∨
      ∃ x y a, l = x ++ b :: (y ++ [a]) ∧ x.length = i := by
  obtain ⟨hi, rfl⟩ := List.getElem?_eq_some_iff.mp h
  have hl : l = l.take i ++ l[i] :: l.drop (i + 1) := by
    rw [← List.drop_eq_getElem_cons hi, List.take_append_drop]
  have hlen : (l.take i).length = i := List.length_take_of_le (Nat.le_of_lt hi)
  rcases List.eq_nil_or_concat (l.drop (i + 1)) with hnil | ⟨y, a, hya⟩
  · rw [hnil] at hl
    exact .inl ⟨l.take i, hl, hlen⟩
  · rw [hya, List.concat_eq_append] at hl
    exact .inr ⟨l.take i, y, a, hl, hlen⟩

theorem perm_swapRemove {l : List α} {i : ℕ} {b : α} (h : l[i]? = some b) :
    l.Perm (b :: swapRemove l i) := by
  rcases split_at h with ⟨x, rfl, rfl⟩ | ⟨x, y, a, rfl, rfl⟩
  · rw [swapRemove_last]
    exact List.perm_append_singleton b x
  · rw [swapRemove_middle]
    have hmove : (y ++ [a]).Perm (a :: y) := List.perm_append_singleton a y
    exact List.perm_middle.trans ((hmove.append_left x).cons b)

theorem map_swapRemove (f : α → β) (l : List α) (i : ℕ) :
    (swapRemove l i).map f = swapRemove (l.map f) i := by
  unfold swapRemove
  rw [List.getLast?_map]
  cases l.getLast? with
  | none => rfl
  | some a =>
    dsimp only [Option.map_some]
    rw [List.length_map]
    split_ifs <;> simp [List.map_dropLast]

/-- The elements strictly between the removed one and the last one. -/
theorem between_iff {x : List α} {b : α} {y : List α} {a c : α} :
    (∃ j, x.length < j ∧ j + 1 < (x ++ b :: (y ++ [a])).length ∧
      (x ++ b :: (y ++ [a]))[j]? = some c) ↔ c ∈ y := by
  constructor
  · rintro ⟨j, hj, hlt, hc⟩
    obtain ⟨k, rfl⟩ := Nat.exists_eq_add_of_lt hj
    simp only [List.length_append, List.length_cons, List.length_nil] at hlt
    rw [Nat.add_assoc, List.getElem?_append_right (Nat.le_add_right _ _), Nat.add_sub_cancel_left,
      List.getElem?_cons_succ, List.getElem?_append_left (by omega)] at hc
    exact List.mem_of_getElem? hc
  · intro hc
    obtain ⟨k, hk⟩ := List.mem_iff_getElem?.mp hc
    have hlt := (List.getElem?_eq_some_iff.mp hk).1
    refine ⟨x.length + (k + 1), by omega, ?_, ?_⟩
    · simp only [List.length_append, List.length_cons, List.length_nil]
      omega
    · rw [List.getElem?_append_right (Nat.le_add_right _ _), Nat.add_sub_cancel_left,
        List.getElem?_cons_succ, List.getElem?_append_left hlt, hk]

theorem getElem?_length_sub_one (x : List α) (b : α) (y : List α) (a : α) :
    (x ++ b :: (y ++ [a]))[(x ++ b :: (y ++ [a])).length - 1]? = some a := by
  rw [← List.getLast?_eq_getElem?, show x ++ b :: (y ++ [a]) = (x ++ b :: y) ++ [a] by simp]
  exact List.getLast?_concat

/-- Of two elements that conflict, the one that stands first ranks first. -/
def Ranked (conflict : α → α → Prop) (rank : α → ℕ) (l : List α) : Prop :=
  l.Pairwise fun a b => conflict a b → rank a < rank b

variable {conflict : α → α → Prop} {rank : α → ℕ} {l m : List α}

theorem Ranked.concat (h : Ranked conflict rank l) {a : α} (ha : ∀ b ∈ l, rank b < rank a) :
    Ranked conflict rank (l ++ [a]) := by
  refine List.pairwise_append.mpr ⟨h, List.pairwise_singleton _ a, fun b hb c hc _ => ?_⟩
  obtain rfl := List.mem_singleton.mp hc
  exact ha b hb

/-- The element that moves may overtake only elements it does not conflict with. -/
theorem Ranked.swapRemove (h : Ranked conflict rank l) {i : ℕ}
    (hfree : ∀ j b a, i < j → j + 1 < l.length → l[j]? = some b → l[l.length - 1]? = some a →
      ¬ conflict a b) : Ranked conflict rank (swapRemove l i) := by
  cases hi : l[i]? with
  | none =>
    rw [swapRemove_of_le (List.getElem?_eq_none_iff.mp hi)]
    exact h
  | some b₀ =>
    rcases split_at hi with ⟨x, rfl, rfl⟩ | ⟨x, y, a, rfl, rfl⟩
    · rw [swapRemove_last]
      exact (List.pairwise_append.mp h).1
    · obtain ⟨hx, hbya, hcross⟩ := List.pairwise_append.mp h
      obtain ⟨hy, _, _⟩ := List.pairwise_append.mp (List.pairwise_cons.mp hbya).2
      rw [swapRemove_middle]
      refine List.pairwise_append.mpr ⟨hx, List.pairwise_cons.mpr ⟨fun b hb hab => ?_, hy⟩, ?_⟩
      · obtain ⟨j, hj, hlt, hget⟩ := between_iff.mpr hb
        exact absurd hab (hfree j b a hj hlt hget (getElem?_length_sub_one x b₀ y a))
      · intro c hc d hd
        refine hcross c hc d ?_
        rcases List.mem_cons.mp hd with rfl | hd
        · simp
        · exact List.mem_cons_of_mem _ (List.mem_append_left _ hd)

theorem Ranked.eq_of_rank_eq (h : Ranked conflict rank l) {a b : α} (ha : a ∈ l) (hb : b ∈ l)
    (hab : conflict a b) (hba : conflict b a) (hrank : rank a = rank b) : a = b := by
  have hdiff : l.Pairwise fun a b => conflict a b → conflict b a → rank a ≠ rank b :=
    h.imp fun hlt hc _ => Nat.ne_of_lt (hlt hc)
  have : Std.Symm fun a b => conflict a b → conflict b a → rank a ≠ rank b :=
    ⟨fun _ _ hne hc hc' => (hne hc' hc).symm⟩
  by_contra hne
  exact hdiff.forall ha hb hne hab hba hrank

/-- The first match outranks every other match. -/
theorem Ranked.find?_le (h : Ranked conflict rank l) {p : α → Bool}
    (hp : ∀ a b, p a → p b → conflict a b) {a : α} (ha : l.find? p = some a) {b : α}
    (hb : b ∈ l) (hpb : p b) : rank a ≤ rank b := by
  obtain ⟨hpa, x, y, rfl, hx⟩ := List.find?_eq_some_iff_append.mp ha
  obtain ⟨_, hay, _⟩ := List.pairwise_append.mp h
  rcases List.mem_append.mp hb with hb | hb
  · have hnot := hx b hb
    rw [hpb] at hnot
    cases hnot
  · rcases List.mem_cons.mp hb with rfl | hb
    · exact Nat.le_refl _
    · exact Nat.le_of_lt ((List.pairwise_cons.mp hay).1 b hb (hp a b hpa hpb))

/-- When elements that match alike conflict, the first match is determined by the ranks. -/
theorem Ranked.find?_eq_of_perm (hl : Ranked conflict rank l) (hm : Ranked conflict rank m)
    (hperm : l.Perm m) {p : α → Bool} (hp : ∀ a b, p a → p b → conflict a b) :
    l.find? p = m.find? p := by
  cases ha : l.find? p with
  | none =>
    refine (List.find?_eq_none.mpr fun b hb => ?_).symm
    exact List.find?_eq_none.mp ha b (hperm.mem_iff.mpr hb)
  | some a =>
    have hpa := List.find?_some ha
    have hal := List.mem_of_find?_eq_some ha
    cases hb : m.find? p with
    | none => exact absurd hpa (List.find?_eq_none.mp hb a (hperm.mem_iff.mp hal))
    | some b =>
      have hpb := List.find?_some hb
      have hbl := hperm.mem_iff.mpr (List.mem_of_find?_eq_some hb)
      have hab := hl.find?_le hp ha hbl hpb
      have hba := hm.find?_le hp hb (hperm.mem_iff.mp hal) hpa
      rw [hl.eq_of_rank_eq hal hbl (hp a b hpa hpb) (hp b a hpb hpa) (Nat.le_antisymm hab hba)]

/-- The first match behind the removed element, and a last element that matches. -/
theorem between_last_iff {x : List α} {b : α} {y : List α} {a c : α} {p : α → Bool} :
    (∃ j a', x.length < j ∧ j + 1 < (x ++ b :: (y ++ [a])).length ∧
      (x ++ b :: (y ++ [a]))[j]? = some c ∧
      (x ++ b :: (y ++ [a]))[(x ++ b :: (y ++ [a])).length - 1]? = some a' ∧ p a') ↔
      c ∈ y ∧ p a := by
  rw [getElem?_length_sub_one, ← between_iff (x := x) (b := b) (a := a)]
  constructor
  · rintro ⟨j, a', hj, hlt, hget, ha, hpa⟩
    obtain rfl := Option.some.inj ha
    exact ⟨⟨j, hj, hlt, hget⟩, hpa⟩
  · rintro ⟨⟨j, hj, hlt, hget⟩, hpa⟩
    exact ⟨j, a, hj, hlt, hget, rfl, hpa⟩

/-- The last element in the place of another one comes before the elements between them. -/
theorem find?_replaced_ne {x : List α} {b : α} {y : List α} {a c : α} {p : α → Bool}
    (hnd : (x ++ b :: (y ++ [a])).Nodup) (hc : (x ++ b :: (y ++ [a])).find? p = some c)
    (hne : c ≠ b) : (x ++ a :: y).find? p ≠ some c ↔ c ∈ y ∧ p a := by
  obtain ⟨_, hnd, hcross⟩ := List.nodup_append.mp hnd
  have hlast := (List.nodup_append.mp (List.nodup_cons.mp hnd).2).2.2
  rw [List.find?_append, Option.or_eq_some_iff] at hc
  rw [List.find?_append]
  rcases hc with hx | ⟨hx, hc⟩
  · -- the match stands before the removed element
    rw [hx]
    refine iff_of_false (not_not.mpr rfl) fun ⟨hy, _⟩ => ?_
    exact hcross c (List.mem_of_find?_eq_some hx) c (by simp [hy]) rfl
  have hpb : ¬ p b := by
    intro hpb
    rw [List.find?_cons_of_pos hpb] at hc
    exact hne (Option.some.inj hc).symm
  rw [List.find?_cons_of_neg hpb, List.find?_append, Option.or_eq_some_iff] at hc
  rw [hx, Option.none_or]
  by_cases hpa : p a
  · rw [List.find?_cons_of_pos hpa]
    rcases hc with hc | ⟨_, hc⟩
    · have hcy := List.mem_of_find?_eq_some hc
      refine iff_of_true (fun heq => ?_) ⟨hcy, hpa⟩
      exact hlast c hcy a (List.mem_singleton_self a) (Option.some.inj heq).symm
    · obtain rfl := List.mem_singleton.mp (List.mem_of_find?_eq_some hc)
      refine iff_of_false (not_not.mpr rfl) fun ⟨hcy, _⟩ => ?_
      exact hlast c hcy c (List.mem_singleton_self c) rfl
  · rw [List.find?_cons_of_neg hpa]
    rcases hc with hc | ⟨_, hc⟩
    · exact iff_of_false (not_not.mpr hc) fun h => hpa h.2
    · rw [List.find?_cons_of_neg hpa] at hc
      cases hc

/-- Removing an element changes the first match, where that is another element, only by
moving a matching last element in front of it. -/
theorem find?_swapRemove_ne {i : ℕ} {b c : α} {p : α → Bool} (hnd : l.Nodup)
    (hi : l[i]? = some b) (hc : l.find? p = some c) (hne : c ≠ b) :
    (swapRemove l i).find? p ≠ some c ↔
      ∃ j a, i < j ∧ j + 1 < l.length ∧ l[j]? = some c ∧ l[l.length - 1]? = some a ∧ p a := by
  rcases split_at hi with ⟨x, rfl, rfl⟩ | ⟨x, y, a, rfl, rfl⟩
  · have hx : x.find? p = some c := by
      rw [List.find?_append, Option.or_eq_some_iff] at hc
      rcases hc with hc | ⟨_, hc⟩
      · exact hc
      · exact absurd (List.mem_singleton.mp (List.mem_of_find?_eq_some hc)) hne
    rw [swapRemove_last]
    refine iff_of_false (not_not.mpr hx) ?_
    rintro ⟨j, _, hlt, hle, _⟩
    simp at hle
    omega
  · rw [swapRemove_middle, between_last_iff]
    exact find?_replaced_ne hnd hc hne

end Priority
