import Mathlib.Data.List.Pairwise
import Mathlib.Logic.Function.Basic

/-! Placing the elements of a list into slots, bucket by bucket: each bucket chooses a seed
that sends its elements to slots of their own. -/
namespace Displace

variable {α β σ τ : Type*}

/-- The elements go to distinct slots, none of them in use. -/
structure Fits (slot : α → σ) (used : σ → Bool) (l : List α) : Prop where
  distinct : l.Pairwise fun a b => slot a ≠ slot b
  free : ∀ a ∈ l, used (slot a) = false

theorem Fits.nil (slot : α → σ) (used : σ → Bool) : Fits slot used [] where
  distinct := List.Pairwise.nil
  free _ h := by cases h

theorem fits_cons {slot : α → σ} {used : σ → Bool} {a : α} {l : List α} :
    Fits slot used (a :: l) ↔
      used (slot a) = false ∧ (∀ b ∈ l, slot a ≠ slot b) ∧ Fits slot used l := by
  constructor
  · intro h
    obtain ⟨ha, hl⟩ := List.pairwise_cons.mp h.distinct
    exact ⟨h.free a List.mem_cons_self, ha, hl, fun b hb => h.free b (List.mem_cons_of_mem _ hb)⟩
  · intro h
    obtain ⟨hused, ha, hl⟩ := h
    exact ⟨List.pairwise_cons.mpr ⟨ha, hl.distinct⟩, List.forall_mem_cons.mpr ⟨hused, hl.free⟩⟩

/-- The slots in use after the elements took theirs. -/
def mark [DecidableEq σ] (slot : α → σ) (used : σ → Bool) (l : List α) : σ → Bool :=
  l.foldl (fun used a => Function.update used (slot a) true) used

section Mark

variable [DecidableEq σ] {slot : α → σ} {used : σ → Bool} {a : α} {l : List α}

@[simp] theorem mark_nil : mark slot used [] = used := rfl

@[simp] theorem mark_cons :
    mark slot used (a :: l) = mark slot (Function.update used (slot a) true) l := rfl

theorem mark_of_used {i : σ} (h : used i = true) : mark slot used l i = true := by
  induction l generalizing used with
  | nil => exact h
  | cons a l ih =>
    rw [mark_cons]
    apply ih
    by_cases hi : i = slot a
    · rw [hi, Function.update_self]
    · rw [Function.update_of_ne hi, h]

theorem mark_of_mem (h : a ∈ l) : mark slot used l (slot a) = true := by
  induction l generalizing used with
  | nil => cases h
  | cons b l ih =>
    rw [mark_cons]
    rcases List.mem_cons.mp h with rfl | h
    · exact mark_of_used (Function.update_self ..)
    · exact ih h

end Mark

variable (bucket : α → β) (slot : τ → α → σ)

/-- The slot that the seed of its bucket gives to an element. -/
def target (seed : β → τ) (a : α) : σ := slot (seed (bucket a)) a

/-- The elements of the buckets in `done` have slots of their own, all of them in use. -/
structure Placed (l : List α) (done : List β) (seed : β → τ) (used : σ → Bool) : Prop where
  distinct : l.Pairwise fun a b => bucket a ∈ done → bucket b ∈ done →
    target bucket slot seed a ≠ target bucket slot seed b
  used : ∀ a ∈ l, bucket a ∈ done → used (target bucket slot seed a) = true

variable {bucket slot}

theorem Placed.init (l : List α) (seed : β → τ) (used : σ → Bool) :
    Placed bucket slot l [] seed used where
  distinct := List.pairwise_of_forall fun _ _ h => by cases h
  used _ _ h := by cases h

/-- Placing one more bucket. -/
theorem Placed.place [DecidableEq β] [DecidableEq σ] {l : List α} {done : List β} {seed : β → τ}
    {used : σ → Bool} (h : Placed bucket slot l done seed used) {b : β} (hb : b ∉ done)
    {s : τ} (hfits : Fits (slot s) used (l.filter fun a => bucket a = b)) :
    Placed bucket slot l (b :: done) (Function.update seed b s)
      (mark (slot s) used (l.filter fun a => bucket a = b)) := by
  have hself : ∀ a, bucket a = b →
      target bucket slot (Function.update seed b s) a = slot s a := by
    intro a ha
    unfold target
    rw [ha, Function.update_self]
  have hother : ∀ a, bucket a ∈ done →
      target bucket slot (Function.update seed b s) a = target bucket slot seed a := by
    intro a ha
    unfold target
    have hne : bucket a ≠ b := by
      rintro rfl
      exact hb ha
    rw [Function.update_of_ne hne]
  have hfree : ∀ a ∈ l, bucket a = b → used (slot s a) = false := by
    intro a ha hab
    exact hfits.free a (List.mem_filter.mpr ⟨ha, decide_eq_true hab⟩)
  constructor
  · have hnew := List.pairwise_filter.mp hfits.distinct
    refine (hnew.and h.distinct).imp_of_mem ?_
    intro a c ha hc hac hain hcin
    obtain ⟨hac, hold⟩ := hac
    rcases List.mem_cons.mp hain with hab | hadone
    · rw [hself a hab]
      rcases List.mem_cons.mp hcin with hcb | hcdone
      · rw [hself c hcb]
        exact hac (decide_eq_true hab) (decide_eq_true hcb)
      · -- a new slot is free, an old one is in use
        rw [hother c hcdone]
        intro heq
        have hused := h.used c hc hcdone
        rw [← heq, hfree a ha hab] at hused
        cases hused
    · rw [hother a hadone]
      rcases List.mem_cons.mp hcin with hcb | hcdone
      · rw [hself c hcb]
        intro heq
        have hused := h.used a ha hadone
        rw [heq, hfree c hc hcb] at hused
        cases hused
      · rw [hother c hcdone]
        exact hold hadone hcdone
  · intro a ha hain
    rcases List.mem_cons.mp hain with hab | hadone
    · rw [hself a hab]
      exact mark_of_mem (List.mem_filter.mpr ⟨ha, decide_eq_true hab⟩)
    · rw [hother a hadone]
      exact mark_of_used (h.used a ha hadone)

/-- A bucket without elements is placed by any seed. -/
theorem Placed.skip [DecidableEq β] [DecidableEq σ] {l : List α} {done : List β} {seed : β → τ}
    {used : σ → Bool} (h : Placed bucket slot l done seed used) {b : β} (hb : b ∉ done)
    (hempty : ∀ a ∈ l, bucket a ≠ b) (s : τ) :
    Placed bucket slot l (b :: done) (Function.update seed b s) used := by
  have hnil : (l.filter fun a => bucket a = b) = [] :=
    List.filter_eq_nil_iff.mpr fun a ha heq => hempty a ha (of_decide_eq_true heq)
  have hplaced := h.place (s := s) hb (by rw [hnil]; exact Fits.nil _ _)
  rw [hnil] at hplaced
  exact hplaced

/-- When every bucket is placed, the elements have slots of their own. -/
theorem Placed.pairwise {l : List α} {done : List β} {seed : β → τ} {used : σ → Bool}
    (h : Placed bucket slot l done seed used) (hdone : ∀ b, b ∈ done) :
    l.Pairwise fun a b => target bucket slot seed a ≠ target bucket slot seed b :=
  h.distinct.imp fun hne => hne (hdone _) (hdone _)

/-! Filling a table: writes to distinct places all last. -/

theorem foldl_update_of_forall_ne {γ : Type*} [DecidableEq σ] {place : α → σ} {value : α → γ}
    {l : List α} {i : σ} (h : ∀ a ∈ l, place a ≠ i) (t : σ → γ) :
    l.foldl (fun t a => Function.update t (place a) (value a)) t i = t i := by
  induction l generalizing t with
  | nil => rfl
  | cons a l ih =>
    obtain ⟨ha, hl⟩ := List.forall_mem_cons.mp h
    rw [List.foldl_cons, ih hl, Function.update_of_ne ha.symm]

theorem foldl_update_of_pairwise {γ : Type*} [DecidableEq σ] {place : α → σ} {value : α → γ}
    {l : List α} (h : l.Pairwise fun a b => place a ≠ place b) {a : α} (ha : a ∈ l) (t : σ → γ) :
    l.foldl (fun t a => Function.update t (place a) (value a)) t (place a) = value a := by
  induction l generalizing t with
  | nil => cases ha
  | cons b l ih =>
    obtain ⟨hb, hl⟩ := List.pairwise_cons.mp h
    rw [List.foldl_cons]
    rcases List.mem_cons.mp ha with rfl | ha
    · rw [foldl_update_of_forall_ne (fun c hc => (hb c hc).symm), Function.update_self]
    · exact ih hl ha _

end Displace
