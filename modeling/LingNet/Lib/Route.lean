import Mathlib.Data.List.Basic
import Mathlib.Data.Nat.Notation

/-! Lexical paths: sequences of steps, and the routes they come to. A route climbs first and then
goes down along names. -/

/-- One component of a path. -/
inductive Route.Step (α : Type*) where
  | stay
  | up
  | down (a : α)
  deriving DecidableEq, Repr

/-- A path that never climbs behind a name. -/
structure Route (α : Type*) where
  ups : ℕ
  names : List α
  deriving DecidableEq, Repr

namespace Route

variable {α : Type*}

/-- The route that stays where it starts. -/
def here : Route α := ⟨0, []⟩

/-- A step up takes the last name back, if there is one. -/
def step (r : Route α) : Step α → Route α
  | .stay => r
  | .up => if r.names = [] then ⟨r.ups + 1, []⟩ else ⟨r.ups, r.names.dropLast⟩
  | .down a => ⟨r.ups, r.names ++ [a]⟩

/-- `n` steps up. -/
def climb (r : Route α) (n : ℕ) : Route α where
  ups := r.ups + (n - r.names.length)
  names := r.names.take (r.names.length - n)

/-- The route `s` from where `r` leads. -/
def comp (r s : Route α) : Route α where
  ups := (r.climb s.ups).ups
  names := (r.climb s.ups).names ++ s.names

/-- The route of a sequence of steps. -/
def ofSteps (l : List (Step α)) : Route α := l.foldl step here

@[simp] theorem climb_zero (r : Route α) : r.climb 0 = r := by
  simp [climb]

@[simp] theorem comp_here (r : Route α) : r.comp here = r := by
  simp [comp, here]

theorem climb_succ (r : Route α) (n : ℕ) : r.climb (n + 1) = (r.climb n).step .up := by
  unfold climb step
  by_cases h : r.names.length ≤ n
  · have hzero : r.names.length - n = 0 := by omega
    have hzero' : r.names.length - (n + 1) = 0 := by omega
    simp [hzero, hzero']
    omega
  · have hne : r.names.take (r.names.length - n) ≠ [] := by
      intro hnil
      have hlength := congrArg List.length hnil
      simp only [List.length_take, List.length_nil] at hlength
      omega
    simp only [hne, if_false, Route.mk.injEq]
    constructor
    · omega
    · rw [List.dropLast_eq_take, List.take_take, List.length_take]
      congr 1
      omega

theorem comp_step (r s : Route α) (x : Step α) : (r.comp s).step x = r.comp (s.step x) := by
  cases x with
  | stay => rfl
  | up =>
    by_cases hs : s.names = []
    · have hcomp : r.comp s = r.climb s.ups := by simp [comp, hs]
      have hup : s.step .up = ⟨s.ups + 1, []⟩ := by simp [step, hs]
      rw [hcomp, hup, ← climb_succ]
      simp [comp]
    · have hne : (r.climb s.ups).names ++ s.names ≠ [] := by simp [hs]
      simp only [step, comp, hne, hs, if_false]
      rw [List.dropLast_append_of_ne_nil hs]
  | down a => simp [step, comp]

/-- The route of a path goes on from the route of its first part. -/
theorem ofSteps_append (l m : List (Step α)) : ofSteps (l ++ m) = (ofSteps l).comp (ofSteps m) := by
  unfold ofSteps
  rw [List.foldl_append]
  generalize l.foldl step here = r
  have hall : ∀ s, m.foldl step (r.comp s) = r.comp (m.foldl step s) := by
    induction m with
    | nil => exact fun s => rfl
    | cons x m ih =>
      intro s
      rw [List.foldl_cons, List.foldl_cons, comp_step]
      exact ih (s.step x)
  simpa using hall here

theorem ofSteps_append_stay (l : List (Step α)) : ofSteps (l ++ [.stay]) = ofSteps l := by
  unfold ofSteps
  rw [List.foldl_append]
  rfl

end Route
