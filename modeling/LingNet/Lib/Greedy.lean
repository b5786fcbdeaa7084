import Mathlib.Data.Finset.Basic
import Mathlib.Data.List.Pairwise
import Mathlib.Data.List.Sort
import Mathlib.Tactic.Common

/-! A greedy choice along a ranked list, and the ranking by a stable sort. -/
namespace Greedy

variable {α : Type*}

/-- What a stable sort does to a list with an order of its own: the elements that the sort does not
tell apart stay in that order. -/
theorem pairwise_insertionSort {r Q : α → α → Prop} [DecidableRel r] [Std.Total r] [IsTrans α r]
    {l : List α} (hl : l.Pairwise Q) :
    (l.insertionSort r).Pairwise fun a b => r a b ∧ (r b a → Q a b) := by
  have hinsert (x : α) (s : List α) (hx : ∀ y ∈ s, Q x y)
      (hs : s.Pairwise fun a b => r a b ∧ (r b a → Q a b)) :
      (s.orderedInsert r x).Pairwise fun a b => r a b ∧ (r b a → Q a b) := by
    induction s with
    | nil => simp
    | cons y s ih =>
      obtain ⟨hhead, htail⟩ := List.pairwise_cons.mp hs
      rw [List.orderedInsert_cons]
      split_ifs with hxy
      · apply List.pairwise_cons.mpr
        refine ⟨fun z hz => ?_, hs⟩
        have hxz : r x z := by
          rcases List.mem_cons.mp hz with rfl | hz
          · exact hxy
          · exact trans_of r hxy (hhead z hz).1
        exact ⟨hxz, fun _ => hx z hz⟩
      · have hyx : r y x := (total_of r y x).resolve_right hxy
        apply List.pairwise_cons.mpr
        refine ⟨fun z hz => ?_, ih (fun w hw => hx w (List.mem_cons_of_mem y hw)) htail⟩
        rcases (List.mem_orderedInsert r).mp hz with rfl | hz
        · exact ⟨hyx, fun h => absurd h hxy⟩
        · exact hhead z hz
  induction l with
  | nil => simp
  | cons x l ih =>
    obtain ⟨hx, hl⟩ := List.pairwise_cons.mp hl
    rw [List.insertionSort_cons]
    exact hinsert x _ (fun y hy => hx y ((List.mem_insertionSort r).mp hy)) (ih hl)

/-- Of two elements of a list one comes first. -/
theorem rel_or_rel {Q : α → α → Prop} {l : List α} (hl : l.Pairwise Q) {a b : α} (ha : a ∈ l)
    (hb : b ∈ l) (hne : a ≠ b) : Q a b ∨ Q b a := by
  have hsymm : Std.Symm fun a b => Q a b ∨ Q b a := ⟨fun _ _ h => h.symm⟩
  have hboth : l.Pairwise fun a b => Q a b ∨ Q b a := hl.imp Or.inl
  exact hboth.forall ha hb hne

/-- The elements of a list at some of its places. -/
def picks (K : Finset ℕ) (l : List α) : List α := (l.zipIdx.filter (·.2 ∈ K)).map Prod.fst

@[simp] theorem picks_nil (K : Finset ℕ) : picks K ([] : List α) = [] := rfl

theorem picks_concat (K : Finset ℕ) (l : List α) (a : α) :
    picks K (l ++ [a]) = picks K l ++ if l.length ∈ K then [a] else [] := by
  unfold picks
  split_ifs with ha <;> simp [List.zipIdx_append, List.filter_append, ha]

theorem picks_sublist (K : Finset ℕ) (l : List α) : (picks K l).Sublist l := by
  have hsub := (List.filter_sublist (p := fun p => decide (p.2 ∈ K)) (l := l.zipIdx)).map Prod.fst
  rwa [List.zipIdx_map_fst] at hsub

theorem picks_append_sublist (K : Finset ℕ) (l l' : List α) :
    (picks K l).Sublist (picks K (l ++ l')) := by
  unfold picks
  rw [List.zipIdx_append, List.filter_append, List.map_append]
  exact List.sublist_append_left _ _

theorem picks_take_sublist_self (K : Finset ℕ) (l : List α) (r : ℕ) :
    (picks K (l.take r)).Sublist (picks K l) := by
  have hsub := picks_append_sublist K (l.take r) (l.drop r)
  rwa [List.take_append_drop] at hsub

theorem picks_take_sublist (K : Finset ℕ) (l : List α) {r r' : ℕ} (h : r ≤ r') :
    (picks K (l.take r)).Sublist (picks K (l.take r')) := by
  have hsub := picks_take_sublist_self K (l.take r') r
  rwa [List.take_take, Nat.min_eq_left h] at hsub

theorem picks_take_succ {K : Finset ℕ} {l : List α} {r : ℕ} {a : α} (ha : l[r]? = some a) :
    picks K (l.take (r + 1)) = picks K (l.take r) ++ if r ∈ K then [a] else [] := by
  have hlength : (l.take r).length = r := by
    have hr := (List.getElem?_eq_some_iff.mp ha).1
    rw [List.length_take]
    omega
  rw [List.take_add_one, ha, Option.toList_some, picks_concat, hlength]

theorem picks_congr {K K' : Finset ℕ} {l : List α} (h : ∀ r < l.length, r ∈ K ↔ r ∈ K') :
    picks K l = picks K' l := by
  unfold picks
  congr 1
  apply List.filter_congr
  intro p hp
  have hlt : p.2 < l.length := by
    have hmem := List.mem_zipIdx (x := p.1) (i := p.2) hp
    omega
  simp [h p.2 hlt]

/-- What may join the elements taken so far, and when these are enough. -/
structure Rule (α : Type*) where
  fits : List α → α → Bool
  full : List α → Bool

/-- The loop over the elements, with those it has taken. -/
def Rule.run (rule : Rule α) : List α → List α → List α
  | [], kept => kept
  | a :: l, kept =>
    let kept := if rule.fits kept a then kept ++ [a] else kept
    if rule.full kept then kept else rule.run l kept

/-- What the elements taken keep to as long as each that fits does. -/
theorem Rule.run_induction {rule : Rule α} {P : List α → Prop}
    (hstep : ∀ kept a, P kept → rule.fits kept a = true → P (kept ++ [a])) (l : List α)
    {kept : List α} (hkept : P kept) : P (rule.run l kept) := by
  induction l generalizing kept with
  | nil => exact hkept
  | cons a l ih =>
    have hnext : P (if rule.fits kept a then kept ++ [a] else kept) := by
      split_ifs with hfits
      · exact hstep kept a hkept hfits
      · exact hkept
    unfold Rule.run
    dsimp only
    split_ifs at hnext ⊢
    · exact hnext
    · exact ih hnext
    · exact hnext
    · exact ih hnext

theorem Rule.sublist_run (rule : Rule α) (l kept : List α) : kept.Sublist (rule.run l kept) := by
  apply Rule.run_induction (P := fun kept' => kept.Sublist kept')
  · intro kept' a hsub _
    exact hsub.trans (List.sublist_append_left kept' [a])
  · exact List.Sublist.refl kept

/-- Nothing is taken where nothing fits that is looked at: where nothing is enough that is only the
first element. -/
theorem Rule.run_eq_nil_iff (rule : Rule α) (l : List α) :
    rule.run l [] = [] ↔
      ∀ a ∈ if rule.full [] then l.take 1 else l, rule.fits [] a = false := by
  induction l with
  | nil => simp [Rule.run]
  | cons a l ih =>
    unfold Rule.run
    dsimp only
    by_cases hfits : rule.fits [] a = true
    · have hmem : a ∈ if rule.full [] then (a :: l).take 1 else a :: l := by
        split_ifs <;> simp
      have hne : (if rule.full [a] then [a] else rule.run l [a]) ≠ [] := by
        split_ifs
        · exact List.cons_ne_nil a []
        · intro hnil
          have hsub := rule.sublist_run l [a]
          rw [hnil] at hsub
          exact absurd hsub (by simp)
      rw [if_pos hfits, List.nil_append]
      refine iff_of_false hne fun hall => ?_
      rw [hall a hmem] at hfits
      exact absurd hfits (by simp)
    · rw [if_neg hfits]
      rw [Bool.not_eq_true] at hfits
      by_cases hfull : rule.full [] = true
      · simp [hfull, hfits]
      · rw [if_neg hfull, ih, if_neg hfull, if_neg hfull, List.forall_mem_cons, and_iff_right hfits]

/-- A choice of places in the list by the rule: each is taken exactly where the elements taken ahead
of it were at no place enough and leave room for it. -/
def Rule.Selects (rule : Rule α) (l : List α) (K : Finset ℕ) : Prop :=
  ∀ r a, l[r]? = some a →
    (r ∈ K ↔ (∀ q < r, rule.full (picks K (l.take (q + 1))) = false) ∧
      rule.fits (picks K (l.take r)) a = true)

variable {rule : Rule α} {K : Finset ℕ}

theorem Rule.Selects.of_append {l l' : List α} (h : rule.Selects (l ++ l') K) :
    rule.Selects l K := by
  intro r a ha
  have hr : r < l.length := (List.getElem?_eq_some_iff.mp ha).1
  have hiff := h r a (by rw [List.getElem?_append_left hr, ha])
  rw [List.take_append_of_le_length (by omega)] at hiff
  rw [hiff]
  have htake (q : ℕ) (hq : q < r) : (l ++ l').take (q + 1) = l.take (q + 1) :=
    List.take_append_of_le_length (by omega)
  have hsame : (∀ q < r, rule.full (picks K ((l ++ l').take (q + 1))) = false) ↔
      ∀ q < r, rule.full (picks K (l.take (q + 1))) = false := by
    apply forall_congr'
    intro q
    apply forall_congr'
    intro hq
    rw [htake q hq]
  rw [hsame]

/-- Behind the place where the elements taken were enough there is none. -/
theorem Rule.Selects.picks_of_full {l : List α} {a : α} (l' : List α)
    (h : rule.Selects (l ++ a :: l') K) (hfull : rule.full (picks K (l ++ [a])) = true) :
    picks K (l ++ a :: l') = picks K (l ++ [a]) := by
  induction l' using List.reverseRecOn with
  | nil => rfl
  | append_singleton l' b ih =>
    have hsplit : l ++ a :: (l' ++ [b]) = (l ++ a :: l') ++ [b] := by simp
    rw [hsplit] at h ⊢
    have hlast : (l ++ a :: l').length ∉ K := by
      intro hmem
      have hiff := h (l ++ a :: l').length b (by simp)
      have hnot := (hiff.mp hmem).1 l.length (by simp)
      have htake : ((l ++ a :: l') ++ [b]).take (l.length + 1) = l ++ [a] := by
        simp [List.take_append]
      rw [htake, hfull] at hnot
      exact absurd hnot (by simp)
    rw [picks_concat, if_neg hlast, List.append_nil]
    exact ih h.of_append

theorem Rule.Selects.run_append {l : List α} (pre : List α) (h : rule.Selects (pre ++ l) K)
    (hopen : ∀ q < pre.length, rule.full (picks K (pre.take (q + 1))) = false) :
    rule.run l (picks K pre) = picks K (pre ++ l) := by
  induction l generalizing pre with
  | nil => simp [Rule.run]
  | cons a l ih =>
    have hassoc : pre ++ a :: l = (pre ++ [a]) ++ l := by simp
    have hmem : pre.length ∈ K ↔ rule.fits (picks K pre) a = true := by
      have hiff := h pre.length a (by simp)
      rw [List.take_left] at hiff
      rw [hiff]
      apply and_iff_right
      intro q hq
      rw [List.take_append_of_le_length (by omega)]
      exact hopen q hq
    have hkept : (if rule.fits (picks K pre) a then picks K pre ++ [a] else picks K pre) =
        picks K (pre ++ [a]) := by
      rw [picks_concat]
      by_cases hfits : rule.fits (picks K pre) a = true
      · rw [if_pos hfits, if_pos (hmem.mpr hfits)]
      · rw [if_neg hfits, if_neg (hfits ∘ hmem.mp), List.append_nil]
    unfold Rule.run
    dsimp only
    rw [hkept]
    split_ifs with hfull
    · exact (h.picks_of_full l hfull).symm
    · rw [hassoc] at h ⊢
      apply ih (pre ++ [a]) h
      intro q hq
      rw [List.length_append, List.length_singleton] at hq
      by_cases hlast : q = pre.length
      · subst hlast
        rw [List.take_of_length_le (by simp)]
        simpa using hfull
      · rw [List.take_append_of_le_length (by omega)]
        exact hopen q (by omega)

/-- The loop takes the elements of every choice by its rule. -/
theorem Rule.Selects.run_eq {l : List α} (h : rule.Selects l K) : rule.run l [] = picks K l :=
  h.run_append [] (by simp)

theorem Rule.exists_selects (rule : Rule α) (l : List α) : ∃ K, rule.Selects l K := by
  induction l using List.reverseRecOn with
  | nil => exact ⟨∅, by simp [Rule.Selects]⟩
  | append_singleton l a ih =>
    obtain ⟨K, hK⟩ := ih
    -- the last place is settled by what is taken ahead of it
    have hextend (K' : Finset ℕ) (hsame : ∀ r < l.length, r ∈ K' ↔ r ∈ K)
        (hlast : l.length ∈ K' ↔ (∀ q < l.length, rule.full (picks K (l.take (q + 1))) = false) ∧
          rule.fits (picks K l) a = true) : rule.Selects (l ++ [a]) K' := by
      have hpicks (r : ℕ) (hr : r ≤ l.length) :
          picks K' ((l ++ [a]).take r) = picks K (l.take r) := by
        rw [List.take_append_of_le_length hr]
        apply picks_congr
        intro q hq
        rw [List.length_take] at hq
        exact hsame q (by omega)
      intro r b hb
      have hr : r < (l ++ [a]).length := (List.getElem?_eq_some_iff.mp hb).1
      rw [List.length_append, List.length_singleton] at hr
      have hopen : (∀ q < r, rule.full (picks K' ((l ++ [a]).take (q + 1))) = false) ↔
          ∀ q < r, rule.full (picks K (l.take (q + 1))) = false := by
        apply forall_congr'
        intro q
        apply forall_congr'
        intro hq
        rw [hpicks (q + 1) (by omega)]
      rw [hopen, hpicks r (by omega)]
      by_cases hend : r = l.length
      · subst hend
        have hba : a = b := by simpa using hb
        rw [hlast, List.take_length, hba]
      · have hlt : r < l.length := by omega
        rw [List.getElem?_append_left hlt] at hb
        rw [hsame r hlt]
        exact hK r b hb
    by_cases htake : (∀ q < l.length, rule.full (picks K (l.take (q + 1))) = false) ∧
        rule.fits (picks K l) a = true
    · refine ⟨insert l.length K, hextend _ (fun r hr => ?_) ?_⟩
      · rw [Finset.mem_insert, or_iff_right (by omega)]
      · exact iff_of_true (Finset.mem_insert_self _ K) htake
    · refine ⟨K.erase l.length, hextend _ (fun r hr => ?_) ?_⟩
      · rw [Finset.mem_erase, and_iff_right (by omega)]
      · exact iff_of_false (Finset.notMem_erase _ K) htake

/-- What holds of the elements the loop takes is what holds of every choice. -/
theorem Rule.run_iff (rule : Rule α) (l : List α) (P : List α → Prop) :
    P (rule.run l []) ↔ ∀ K, rule.Selects l K → P (picks K l) := by
  constructor
  · intro hP K hK
    rw [← hK.run_eq]
    exact hP
  · intro hall
    obtain ⟨K, hK⟩ := rule.exists_selects l
    rw [hK.run_eq]
    exact hall K hK

/-- A choice of places at each of which the rule would take the element. -/
def Rule.Admits (rule : Rule α) (l : List α) (K : Finset ℕ) : Prop :=
  ∀ r a, l[r]? = some a → r ∈ K →
    (∀ q < r, rule.full (picks K (l.take (q + 1))) = false) ∧
      rule.fits (picks K (l.take r)) a = true

/-- Of `n` places the first one at which the choices differ is in `K`. -/
def Outranks (n : ℕ) (K K' : Finset ℕ) : Prop :=
  ∃ r < n, r ∈ K ∧ r ∉ K' ∧ ∀ q < r, q ∈ K ↔ q ∈ K'

theorem outranks_or (n : ℕ) (K K' : Finset ℕ) :
    (∀ r < n, r ∈ K ↔ r ∈ K') ∨ Outranks n K K' ∨ Outranks n K' K := by
  induction n with
  | zero => exact .inl fun r hr => absurd hr (Nat.not_lt_zero r)
  | succ n ih =>
    rcases ih with hsame | ⟨r, hr, hdiffer⟩ | ⟨r, hr, hdiffer⟩
    · by_cases hiff : n ∈ K ↔ n ∈ K'
      · refine .inl fun r hr => ?_
        rcases Nat.lt_succ_iff_lt_or_eq.mp hr with hlt | rfl
        · exact hsame r hlt
        · exact hiff
      · by_cases hn : n ∈ K
        · have hn' : n ∉ K' := fun h => hiff (iff_of_true hn h)
          exact .inr (.inl ⟨n, Nat.lt_succ_self n, hn, hn', hsame⟩)
        · have hn' : n ∈ K' := by
            by_contra h
            exact hiff (iff_of_false hn h)
          exact .inr (.inr ⟨n, Nat.lt_succ_self n, hn', hn, fun q hq => (hsame q hq).symm⟩)
    · exact .inr (.inl ⟨r, Nat.lt_succ_of_lt hr, hdiffer⟩)
    · exact .inr (.inr ⟨r, Nat.lt_succ_of_lt hr, hdiffer⟩)

/-- No choice that the rule admits outranks the one that it makes. -/
theorem Rule.Selects.not_outranks {l : List α} {K' : Finset ℕ} (h : rule.Selects l K)
    (hadmits : rule.Admits l K') : ¬ Outranks l.length K' K := by
  intro houtranks
  obtain ⟨r, hr, hmem, hnot, hsame⟩ := houtranks
  have hpicks (q : ℕ) (hq : q ≤ r) : picks K' (l.take q) = picks K (l.take q) := by
    apply picks_congr
    intro q' hq'
    rw [List.length_take] at hq'
    exact hsame q' (by omega)
  obtain ⟨hopen, hfits⟩ := hadmits r _ (List.getElem?_eq_getElem hr) hmem
  apply hnot
  rw [h r _ (List.getElem?_eq_getElem hr)]
  refine ⟨fun q hq => ?_, ?_⟩
  · rw [← hpicks (q + 1) (by omega)]
    exact hopen q hq
  · rw [← hpicks r le_rfl]
    exact hfits

/-- Something holds of the elements the loop takes exactly where it holds of a choice that outranks
all those of which it does not. -/
theorem Rule.run_iff_outranks (rule : Rule α) (l : List α) (P : List α → Prop) :
    P (rule.run l []) ↔ ∃ K, rule.Admits l K ∧ P (picks K l) ∧
      ∀ K', rule.Admits l K' → ¬ P (picks K' l) → Outranks l.length K K' := by
  obtain ⟨K, hK⟩ := rule.exists_selects l
  rw [hK.run_eq]
  constructor
  · intro hP
    refine ⟨K, fun r a ha hr => (hK r a ha).mp hr, hP, fun K' hadmits hnot => ?_⟩
    rcases outranks_or l.length K K' with hsame | houtranks | houtranks
    · rw [← picks_congr hsame] at hnot
      exact absurd hP hnot
    · exact houtranks
    · exact absurd houtranks (hK.not_outranks hadmits)
  · intro hexists
    obtain ⟨K', hadmits, -, hbest⟩ := hexists
    by_contra hnot
    have hself : rule.Admits l K := fun r a ha hr => (hK r a ha).mp hr
    exact hK.not_outranks hadmits (hbest K hself hnot)

theorem Rule.run_sublist (rule : Rule α) (l : List α) : (rule.run l []).Sublist l := by
  obtain ⟨K, hK⟩ := rule.exists_selects l
  rw [hK.run_eq]
  exact picks_sublist K l

end Greedy
