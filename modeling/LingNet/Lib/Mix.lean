import Mathlib.Data.BitVec
import Mathlib.Data.Fintype.EquivFin
import Mathlib.Data.Nat.ModEq
import Mathlib.Data.Nat.Prime.Basic

/-! The steps that hash functions mix a word with: a word and its shift are added bit by bit, and a
word is multiplied by an odd number. Neither step confuses two words. -/
namespace Mix

variable {w : ℕ}

/-- `x ^ x >> s` -/
def xorShift (s : ℕ) (x : BitVec w) : BitVec w := x ^^^ x >>> s

theorem getLsbD_xorShift (s : ℕ) (x : BitVec w) (i : ℕ) :
    (xorShift s x).getLsbD i = (x.getLsbD i ^^ x.getLsbD (s + i)) := by
  simp [xorShift]

/-- The words agree from the top down: a bit of the shifted word stands for one further up. -/
theorem getLsbD_eq_of_xorShift_eq {s : ℕ} (hs : 0 < s) {x y : BitVec w}
    (h : xorShift s x = xorShift s y) (n i : ℕ) (hi : w ≤ i + n) : x.getLsbD i = y.getLsbD i := by
  induction n generalizing i with
  | zero =>
    have hx : x.getLsbD i = false := BitVec.getLsbD_of_ge x i hi
    have hy : y.getLsbD i = false := BitVec.getLsbD_of_ge y i hi
    rw [hx, hy]
  | succ n ih =>
    have habove : x.getLsbD (s + i) = y.getLsbD (s + i) := ih (s + i) (by omega)
    have hbit : (x.getLsbD i ^^ x.getLsbD (s + i)) = (y.getLsbD i ^^ y.getLsbD (s + i)) := by
      rw [← getLsbD_xorShift, ← getLsbD_xorShift, h]
    rw [habove] at hbit
    exact Bool.xor_left_inj.mp hbit

theorem xorShift_injective {s : ℕ} (hs : 0 < s) :
    Function.Injective (xorShift s : BitVec w → BitVec w) := by
  intro x y h
  apply BitVec.eq_of_getLsbD_eq
  intro i hi
  exact getLsbD_eq_of_xorShift_eq hs h w i (by omega)

theorem mul_injective {c : BitVec w} (hc : Odd c.toNat) :
    Function.Injective fun x : BitVec w => x * c := by
  intro x y h
  have hmod : x.toNat * c.toNat ≡ y.toNat * c.toNat [MOD 2 ^ w] := by
    have hnat : (x * c).toNat = (y * c).toNat := congrArg BitVec.toNat h
    rwa [BitVec.toNat_mul, BitVec.toNat_mul] at hnat
  have hcoprime : (2 ^ w).gcd c.toNat = 1 := (Nat.coprime_two_left.mpr hc).pow_left w
  have hcancel := Nat.ModEq.cancel_right_of_coprime hcoprime hmod
  exact BitVec.eq_of_toNat_eq (hcancel.eq_of_lt_of_lt x.isLt y.isLt)

/-- A shift on either side of a multiplication. -/
def mix (s : ℕ) (c : BitVec w) (t : ℕ) (x : BitVec w) : BitVec w := xorShift t (xorShift s x * c)

theorem mix_bijective {s t : ℕ} (hs : 0 < s) (ht : 0 < t) {c : BitVec w} (hc : Odd c.toNat) :
    Function.Bijective (mix s c t) := by
  have hinjective : Function.Injective (mix s c t) :=
    (xorShift_injective ht).comp ((mul_injective hc).comp (xorShift_injective hs))
  have hfinite : Finite (BitVec w) := Finite.of_equiv (Fin (2 ^ w)) BitVec.equivFin.symm.toEquiv
  exact Finite.injective_iff_bijective.mp hinjective

end Mix
