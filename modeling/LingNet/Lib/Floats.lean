import Mathlib.Algebra.BigOperators.Group.List.Basic
import Mathlib.Data.Rat.Floor
import Mathlib.Tactic.Linarith

/-! Float arithmetic over the rationals: an operation takes the exact result and rounds it. -/

/-- A value that may have left the range of the floats. The sign of zero is left out. -/
inductive Double where
  | finite (q : ℚ)
  | infinite (negative : Bool)
  | nan
  deriving DecidableEq, Repr

namespace Double

instance : Zero Double := ⟨finite 0⟩

/-- Nothing compares with what is no number. -/
def le : Double → Double → Bool
  | finite p, finite q => p ≤ q
  | nan, _ => false
  | _, nan => false
  | infinite true, _ => true
  | _, infinite false => true
  | _, _ => false

instance : LE Double := ⟨fun v w => v.le w = true⟩

instance : DecidableLE Double := fun v w => inferInstanceAs (Decidable (v.le w = true))

def neg : Double → Double
  | finite q => finite (-q)
  | infinite negative => infinite !negative
  | nan => nan

/-- The sum, for a way to round that of two floats. -/
def addRounded (rounded : ℚ → Double) : Double → Double → Double
  | finite p, finite q => rounded (p + q)
  | finite _, w => w
  | v, finite _ => v
  | infinite s, infinite t => if s = t then infinite s else nan
  | _, _ => nan

def mulRounded (rounded : ℚ → Double) : Double → Double → Double
  | finite p, finite q => rounded (p * q)
  | finite p, infinite s => if p = 0 then nan else infinite (s ^^ decide (p < 0))
  | infinite s, finite p => if p = 0 then nan else infinite (s ^^ decide (p < 0))
  | infinite s, infinite t => infinite (s ^^ t)
  | _, _ => nan

end Double

/-- The floats of a machine. `sum` is how it adds up a list, which need not be from the left with a
rounding at each step. -/
class Floats where
  round : ℚ → ℚ
  inRange : ℚ → Bool
  sum : List Double → Double
  round_nonneg : ∀ {q : ℚ}, 0 ≤ q → 0 ≤ round q
  round_nonpos : ∀ {q : ℚ}, q ≤ 0 → round q ≤ 0
  round_neg_one : round (-1) = -1
  inRange_zero : inRange 0 = true
  sum_nil : sum [] = 0

namespace Floats

section Operations

variable [Floats]

def add (a b : ℚ) : ℚ := round (a + b)

def sub (a b : ℚ) : ℚ := round (a - b)

def mul (a b : ℚ) : ℚ := round (a * b)

def div (a b : ℚ) : ℚ := round (a / b)

/-- The float that stands for an integer, if it is in range. -/
def ofInt (n : ℤ) : Option ℚ := if inRange n then some (round n) else none

@[simp] theorem round_zero : round 0 = 0 :=
  le_antisymm (round_nonpos le_rfl) (round_nonneg le_rfl)

@[simp] theorem ofInt_zero : ofInt 0 = some 0 := by
  simp [ofInt, inRange_zero]

/-- The float next to a number, or an infinity beyond the range. -/
def rounded (q : ℚ) : Double :=
  if inRange q then .finite (round q) else .infinite (decide (q < 0))

instance : Add Double := ⟨Double.addRounded rounded⟩

instance : Sub Double := ⟨fun v w => v + w.neg⟩

instance : Mul Double := ⟨Double.mulRounded rounded⟩

theorem mul_nonpos {a b : ℚ} (ha : a ≤ 0) (hb : 0 ≤ b) : mul a b ≤ 0 :=
  round_nonpos (mul_nonpos_of_nonpos_of_nonneg ha hb)

end Operations

/-- Nothing is rounded. -/
@[reducible] def exact : Floats where
  round := id
  inRange _ := true
  sum l := l.foldl (Double.addRounded .finite) 0
  round_nonneg h := h
  round_nonpos h := h
  round_neg_one := rfl
  inRange_zero := rfl
  sum_nil := rfl

/-! The format with 53 bits of precision, which rounds to the nearest float and to the even one of
two. -/

/-- The nearest integer, and the even one in the middle of two. -/
def roundEven (q : ℚ) : ℤ :=
  let k := ⌊q⌋
  if q - k < 1 / 2 then k
  else if 1 / 2 < q - k then k + 1
  else k + k % 2

theorem roundEven_nonneg {q : ℚ} (h : 0 ≤ q) : 0 ≤ roundEven q := by
  have hfloor : 0 ≤ ⌊q⌋ := Int.floor_nonneg.mpr h
  unfold roundEven
  dsimp only
  split_ifs <;> omega

theorem roundEven_nonpos {q : ℚ} (h : q ≤ 0) : roundEven q ≤ 0 := by
  rcases h.eq_or_lt with rfl | hlt
  · decide +kernel
  · have hfloor : ⌊q⌋ < 0 := Int.floor_lt.mpr (by simpa using hlt)
    unfold roundEven
    dsimp only
    split_ifs <;> omega

def twoPow : ℤ → ℚ
  | .ofNat n => ((2 ^ n : ℕ) : ℚ)
  | .negSucc n => 1 / ((2 ^ (n + 1) : ℕ) : ℚ)

theorem twoPow_nonneg (k : ℤ) : 0 ≤ twoPow k := by
  cases k with
  | ofNat n => exact Nat.cast_nonneg _
  | negSucc n => exact div_nonneg zero_le_one (Nat.cast_nonneg _)

/-- The exponent of the greatest power of two that is no more than a positive number. -/
def exponent (q : ℚ) : ℤ :=
  let k : ℤ := (q.num.natAbs.log2 : ℤ) - q.den.log2
  if twoPow k ≤ q then k else k - 1

/-- The distance of two neighbours, which is no less than that of the smallest ones. -/
def ulp (q : ℚ) : ℚ := twoPow (max (exponent |q| - 52) (-1074))

def nearest (q : ℚ) : ℚ := roundEven (q / ulp q) * ulp q

def nearestRange (q : ℚ) : Bool := |q| < twoPow 1024 - twoPow 970

/-- Binary floats of 64 bits, whose sums round at each step. -/
@[reducible] def binary64 : Floats where
  round := nearest
  inRange := nearestRange
  sum l := l.foldl (Double.addRounded fun q =>
    if nearestRange q then .finite (nearest q) else .infinite (decide (q < 0))) 0
  round_nonneg {q} h := by
    have hulp := twoPow_nonneg (max (exponent |q| - 52) (-1074))
    have hquotient : 0 ≤ roundEven (q / ulp q) := roundEven_nonneg (div_nonneg h hulp)
    exact mul_nonneg (by exact_mod_cast hquotient) hulp
  round_nonpos {q} h := by
    have hulp := twoPow_nonneg (max (exponent |q| - 52) (-1074))
    have hquotient : roundEven (q / ulp q) ≤ 0 :=
      roundEven_nonpos (div_nonpos_of_nonpos_of_nonneg h hulp)
    exact mul_nonpos_of_nonpos_of_nonneg (by exact_mod_cast hquotient) hulp
  round_neg_one := by decide +kernel
  inRange_zero := by decide +kernel
  sum_nil := rfl

example : nearest (1 / 10) = 3602879701896397 / 36028797018963968 := by decide +kernel

namespace Exact

scoped instance : Floats := exact

end Exact

namespace Binary64

scoped instance : Floats := binary64

end Binary64

end Floats
