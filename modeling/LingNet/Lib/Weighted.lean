import Mathlib.Algebra.Order.Monoid.Defs
import Mathlib.Algebra.BigOperators.Group.List.Basic
import Mathlib.Algebra.Order.BigOperators.Group.List
import Mathlib.Order.Interval.Set.Defs

/-! Weighted selection: entries with a weight each are passed in their order until the weights add
up to a pick. The picks fall into intervals, one behind the other, as long as the weights. -/
namespace Weighted

variable {ι α : Type*} [AddCommMonoid α]

/-- The sum of the weights before an index. -/
def upTo (l : List (ι × α)) (i : ℕ) : α := ((l.take i).map Prod.snd).sum

def total (l : List (ι × α)) : α := (l.map Prod.snd).sum

@[simp] theorem upTo_zero (l : List (ι × α)) : upTo l 0 = 0 := rfl

@[simp] theorem upTo_cons (e : ι × α) (l : List (ι × α)) (i : ℕ) :
    upTo (e :: l) (i + 1) = e.2 + upTo l i := by
  simp [upTo]

theorem upTo_length (l : List (ι × α)) : upTo l l.length = total l := by
  simp [upTo, total]

theorem upTo_succ {l : List (ι × α)} {i : ℕ} {e : ι × α} (h : l[i]? = some e) :
    upTo l (i + 1) = upTo l i + e.2 := by
  obtain ⟨hi, rfl⟩ := List.getElem?_eq_some_iff.mp h
  unfold upTo
  rw [List.take_add_one, List.getElem?_eq_getElem hi, List.map_append, List.sum_append]
  simp

variable [LinearOrder α]

/-- The entry at which the sum of the weights reaches the pick. -/
def select (pick : α) : α → List (ι × α) → Option ι
  | _, [] => none
  | current, e :: l => if pick ≤ current + e.2 then some e.1 else select pick (current + e.2) l

/-- The entry at an index owns the picks between the sums before it and behind it. -/
def Owns (l : List (ι × α)) (pick : α) (i : ℕ) : Prop :=
  i < l.length ∧ upTo l i < pick ∧ pick ≤ upTo l (i + 1)

instance (l : List (ι × α)) (pick : α) (i : ℕ) : Decidable (Owns l pick i) :=
  inferInstanceAs (Decidable (_ ∧ _ ∧ _))

/-- Every pick up to the total has an owner. By induction on the entries that are left, with the
sum of those that were passed. -/
theorem exists_owner {l : List (ι × α)} {pick current : α} (hlow : current < pick)
    (hhigh : pick ≤ current + total l) :
    ∃ i < l.length, current + upTo l i < pick ∧ pick ≤ current + upTo l (i + 1) := by
  induction l generalizing current with
  | nil =>
    have hle : pick ≤ current := by simpa [total] using hhigh
    exact absurd hle (not_le.mpr hlow)
  | cons e l ih =>
    by_cases hhead : pick ≤ current + e.2
    · exact ⟨0, by simp, by simpa using hlow, by simpa using hhead⟩
    · have hrest : pick ≤ current + e.2 + total l := by
        rw [add_assoc]
        simpa [total] using hhigh
      obtain ⟨i, hi, hbefore, hafter⟩ := ih (not_le.mp hhead) hrest
      refine ⟨i + 1, by simpa using hi, ?_, ?_⟩
      · rwa [upTo_cons, ← add_assoc]
      · rwa [upTo_cons, ← add_assoc]

variable [IsOrderedAddMonoid α] {l : List (ι × α)}

theorem upTo_nonneg (hl : ∀ e ∈ l, 0 ≤ e.2) (i : ℕ) : 0 ≤ upTo l i := by
  apply List.sum_nonneg
  intro w hw
  obtain ⟨e, he, rfl⟩ := List.mem_map.mp hw
  exact hl e (List.mem_of_mem_take he)

theorem upTo_le_succ (hl : ∀ e ∈ l, 0 ≤ e.2) (i : ℕ) : upTo l i ≤ upTo l (i + 1) := by
  cases hi : l[i]? with
  | none =>
    have hlength : l.length ≤ i := List.getElem?_eq_none_iff.mp hi
    unfold upTo
    rw [List.take_of_length_le hlength, List.take_of_length_le (by omega)]
  | some e =>
    rw [upTo_succ hi]
    exact le_add_of_nonneg_right (hl e (List.mem_of_getElem? hi))

theorem upTo_mono (hl : ∀ e ∈ l, 0 ≤ e.2) : Monotone (upTo l) :=
  monotone_nat_of_le_succ (upTo_le_succ hl)

/-- No pick has two owners. -/
theorem Owns.unique (hl : ∀ e ∈ l, 0 ≤ e.2) {pick : α} {i j : ℕ} (hi : Owns l pick i)
    (hj : Owns l pick j) : i = j := by
  have hbefore : ∀ {i j}, Owns l pick i → Owns l pick j → ¬ i < j := by
    intro i j hi hj hlt
    have hle : upTo l (i + 1) ≤ upTo l j := upTo_mono hl hlt
    exact absurd (hi.2.2.trans hle) (not_le.mpr hj.2.1)
  have hij := hbefore hi hj
  have hji := hbefore hj hi
  omega

/-- The selection comes to the owner. -/
theorem select_of_between (hl : ∀ e ∈ l, 0 ≤ e.2) {pick current : α} {i : ℕ} {e : ι × α}
    (he : l[i]? = some e) (hlow : current + upTo l i < pick)
    (hhigh : pick ≤ current + upTo l (i + 1)) : select pick current l = some e.1 := by
  induction l generalizing current i with
  | nil => cases he
  | cons a l ih =>
    obtain ⟨ha, hrest⟩ := List.forall_mem_cons.mp hl
    unfold select
    cases i with
    | zero =>
      cases he
      have hhead : pick ≤ current + e.2 := by simpa using hhigh
      rw [if_pos hhead]
    | succ i =>
      rw [upTo_cons, ← add_assoc] at hlow hhigh
      have hpassed : current + a.2 < pick :=
        (le_add_of_nonneg_right (upTo_nonneg hrest i)).trans_lt hlow
      rw [if_neg (not_le.mpr hpassed)]
      exact ih hrest he hlow hhigh

theorem existsUnique_owner (hl : ∀ e ∈ l, 0 ≤ e.2) {pick : α} (hlow : 0 < pick)
    (hhigh : pick ≤ total l) : ∃! i, Owns l pick i := by
  obtain ⟨i, hi, hbefore, hafter⟩ := exists_owner hlow (by rwa [zero_add])
  rw [zero_add] at hbefore hafter
  exact ⟨i, ⟨hi, hbefore, hafter⟩, fun j hj => hj.unique hl ⟨hi, hbefore, hafter⟩⟩

theorem Owns.select_eq (hl : ∀ e ∈ l, 0 ≤ e.2) {pick : α} {i : ℕ} (h : Owns l pick i) {e : ι × α}
    (he : l[i]? = some e) : select pick 0 l = some e.1 := by
  obtain ⟨-, hlow, hhigh⟩ := h
  exact select_of_between hl he (by rwa [zero_add]) (by rwa [zero_add])

/-- With distinct keys, an entry is selected by the picks it owns and by no others: those of an
interval as long as its weight. -/
theorem select_eq_some_iff (hl : ∀ e ∈ l, 0 ≤ e.2) (hkeys : (l.map Prod.fst).Nodup) {i : ℕ}
    {e : ι × α} (he : l[i]? = some e) {pick : α} (hlow : 0 < pick) (hhigh : pick ≤ total l) :
    select pick 0 l = some e.1 ↔ pick ∈ Set.Ioc (upTo l i) (upTo l i + e.2) := by
  constructor
  · intro hselect
    obtain ⟨j, hj, -⟩ := existsUnique_owner hl hlow hhigh
    obtain ⟨other, hother⟩ : ∃ other, l[j]? = some other := ⟨_, List.getElem?_eq_getElem hj.1⟩
    rw [hj.select_eq hl hother, Option.some.injEq] at hselect
    have hkey : (l.map Prod.fst)[j]? = (l.map Prod.fst)[i]? := by
      rw [List.getElem?_map, List.getElem?_map, hother, he, Option.map_some, Option.map_some,
        hselect]
    have hji : j = i := (List.getElem?_inj (by simpa using hj.1) hkeys).mp hkey
    subst hji
    obtain ⟨-, hbefore, hafter⟩ := hj
    rw [upTo_succ he] at hafter
    exact ⟨hbefore, hafter⟩
  · intro hpick
    obtain ⟨hbefore, hafter⟩ := hpick
    rw [← upTo_succ he] at hafter
    have hi : i < l.length := (List.getElem?_eq_some_iff.mp he).1
    exact Owns.select_eq hl ⟨hi, hbefore, hafter⟩ he

end Weighted
