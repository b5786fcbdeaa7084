import Mathlib.Algebra.GroupWithZero.Nat
import Mathlib.Order.Interval.Finset.Nat

/-! Intervals laid end to end from a base on, the latest first. -/
namespace Tiling

variable {α : Type*} (start length : α → ℕ)

/-- The intervals `[start x, start x + length x)` follow one another from `base` up to `top`. -/
def Tiles (base : ℕ) : List α → ℕ → Prop
  | [], top => top = base
  | x :: l, top => top = start x + length x ∧ Tiles base l (start x)

/-- The points of an interval. -/
def points (x : α) : Finset ℕ := Finset.Ico (start x) (start x + length x)

variable {start length} {base top : ℕ} {l : List α}

theorem Tiles.cons (h : Tiles start length base l top) {x : α} (hx : start x = top) :
    Tiles start length base (x :: l) (top + length x) := by
  subst hx
  exact ⟨rfl, h⟩

theorem Tiles.base_le (h : Tiles start length base l top) : base ≤ top := by
  induction l generalizing top with
  | nil => exact h.ge
  | cons x l ih =>
    have hx := ih h.2
    have htop := h.1
    omega

/-- Every interval lies between the base and the top. -/
theorem Tiles.bounds (h : Tiles start length base l top) {x : α} (hx : x ∈ l) :
    base ≤ start x ∧ start x + length x ≤ top := by
  induction l generalizing top with
  | nil => simp at hx
  | cons y l ih =>
    have htop := h.1
    rcases List.mem_cons.mp hx with rfl | hx
    · exact ⟨h.2.base_le, htop.ge⟩
    · have hrest := ih h.2 hx
      omega

/-- The intervals fill what is between the base and the top. -/
theorem Tiles.top_eq_sum (h : Tiles start length base l top) :
    top = base + (l.map length).sum := by
  induction l generalizing top with
  | nil => exact h
  | cons x l ih =>
    have htop := h.1
    have hrest := ih h.2
    rw [List.map_cons, List.sum_cons]
    omega

end Tiling
