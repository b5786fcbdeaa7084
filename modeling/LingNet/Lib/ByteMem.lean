import Mathlib.Data.Int.Order.Basic
import Mathlib.Data.Nat.Digits.Defs
import Mathlib.Tactic.Ring

/-! Bytes in little-endian order, and memories of bytes that may not have been written yet. -/
namespace ByteMem

abbrev Byte := BitVec 8

/-- The number with these bytes, the least significant one first. -/
def valueOf (bytes : List Byte) : ℕ := Nat.ofDigits 256 (bytes.map BitVec.toNat)

/-- The last `n` bytes of a number, the least significant one first. -/
def bytesOf : ℕ → ℕ → List Byte
  | 0, _ => []
  | n + 1, v => BitVec.ofNat 8 v :: bytesOf n (v / 256)

@[simp] theorem length_bytesOf (n v : ℕ) : (bytesOf n v).length = n := by
  induction n generalizing v with
  | zero => rfl
  | succ n ih => rw [bytesOf, List.length_cons, ih]

theorem valueOf_cons (b : Byte) (bytes : List Byte) :
    valueOf (b :: bytes) = b.toNat + 256 * valueOf bytes := by
  unfold valueOf
  rw [List.map_cons, Nat.ofDigits_cons]

theorem valueOf_append (a b : List Byte) :
    valueOf (a ++ b) = valueOf a + 256 ^ a.length * valueOf b := by
  unfold valueOf
  rw [List.map_append, Nat.ofDigits_append, List.length_map]

theorem valueOf_lt (bytes : List Byte) : valueOf bytes < 256 ^ bytes.length := by
  induction bytes with
  | nil => exact Nat.one_pos
  | cons b bytes ih =>
    have hb := b.isLt
    rw [valueOf_cons, List.length_cons, pow_succ']
    omega

theorem valueOf_bytesOf (n v : ℕ) : valueOf (bytesOf n v) = v % 256 ^ n := by
  induction n generalizing v with
  | zero =>
    rw [pow_zero, Nat.mod_one]
    rfl
  | succ n ih =>
    have hsplit : v % 256 ^ (n + 1) = v % 256 + 256 * (v / 256 % 256 ^ n) := by
      rw [pow_succ', Nat.mod_mul]
    rw [bytesOf, valueOf_cons, ih, hsplit]
    rfl

theorem take_bytesOf {k n : ℕ} (h : k ≤ n) (v : ℕ) : (bytesOf n v).take k = bytesOf k v := by
  induction k generalizing n v with
  | zero => rfl
  | succ k ih =>
    obtain ⟨n, rfl⟩ := Nat.exists_eq_succ_of_ne_zero (Nat.ne_zero_of_lt h)
    rw [bytesOf, bytesOf, List.take_succ_cons, ih (Nat.le_of_succ_le_succ h)]

theorem drop_take_bytesOf {a k n : ℕ} (h : a + k ≤ n) (v : ℕ) :
    ((bytesOf n v).drop a).take k = bytesOf k (v / 256 ^ a) := by
  induction a generalizing n v with
  | zero =>
    rw [List.drop_zero, take_bytesOf (by omega), pow_zero, Nat.div_one]
  | succ a ih =>
    obtain ⟨n, rfl⟩ := Nat.exists_eq_add_of_le' (show 1 ≤ n by omega)
    rw [bytesOf, List.drop_succ_cons, ih (by omega), Nat.div_div_eq_div_mul, pow_succ']

theorem bytesOf_injective {n v w : ℕ} (hv : v < 256 ^ n) (hw : w < 256 ^ n)
    (h : bytesOf n v = bytesOf n w) : v = w := by
  have hvalue := congrArg valueOf h
  rwa [valueOf_bytesOf, valueOf_bytesOf, Nat.mod_eq_of_lt hv, Nat.mod_eq_of_lt hw] at hvalue

/-- The bytes at `[a, a + n)` of a finite object. -/
def slice (bytes : List Byte) (a : ℤ) (n : ℕ) : Option (List Byte) :=
  if 0 ≤ a ∧ a + n ≤ bytes.length then some ((bytes.drop a.toNat).take n) else none

theorem length_of_slice {bytes piece : List Byte} {a : ℤ} {n : ℕ}
    (h : slice bytes a n = some piece) : piece.length = n := by
  unfold slice at h
  split_ifs at h with hbounds
  cases h
  rw [List.length_take, List.length_drop]
  omega

theorem valueOf_lt_of_slice {bytes piece : List Byte} {a : ℤ} {n : ℕ}
    (h : slice bytes a n = some piece) : valueOf piece < 256 ^ n := by
  rw [← length_of_slice h]
  exact valueOf_lt piece

/-- The object with the bytes from `a` on replaced. -/
def splice (old : List Byte) (a : ℤ) (bytes : List Byte) : Option (List Byte) :=
  if 0 ≤ a ∧ a + bytes.length ≤ old.length then
    some (old.take a.toNat ++ bytes ++ old.drop (a.toNat + bytes.length))
  else none

/-- Bytes by address; those that were not written are missing. -/
abbrev Mem := ℤ → Option Byte

namespace Mem

def empty : Mem := fun _ => none

/-- The bytes at `[a, a + n)` if all of them have been written. -/
def read (m : Mem) : ℤ → ℕ → Option (List Byte)
  | _, 0 => some []
  | a, n + 1 => do
    let b ← m a
    let rest ← read m (a + 1) n
    some (b :: rest)

def write (m : Mem) (a : ℤ) (bytes : List Byte) : Mem := fun x =>
  if a ≤ x ∧ x < a + bytes.length then bytes[(x - a).toNat]? else m x

theorem read_succ (m : Mem) (a : ℤ) (n : ℕ) :
    m.read a (n + 1) = (m a).bind fun b => (m.read (a + 1) n).bind fun rest => some (b :: rest) :=
  rfl

theorem read_congr {m m' : Mem} {a : ℤ} {n : ℕ} (h : ∀ x, a ≤ x → x < a + n → m x = m' x) :
    m.read a n = m'.read a n := by
  induction n generalizing a with
  | zero => rfl
  | succ n ih =>
    have hrest : m.read (a + 1) n = m'.read (a + 1) n := by
      apply ih
      intro x hlo hhi
      exact h x (by omega) (by push_cast; omega)
    rw [read_succ, read_succ, h a le_rfl (by push_cast; omega), hrest]

/-- A write elsewhere is not seen. -/
theorem read_write_of_disjoint {m : Mem} {a b : ℤ} {n : ℕ} {bytes : List Byte}
    (h : b + n ≤ a ∨ a + bytes.length ≤ b) : (m.write a bytes).read b n = m.read b n := by
  apply read_congr
  intro x hlo hhi
  unfold write
  rw [if_neg (by omega)]

/-- What was written is read. -/
theorem read_write_take (m : Mem) (a : ℤ) {n : ℕ} {bytes : List Byte} (h : n ≤ bytes.length) :
    (m.write a bytes).read a n = some (bytes.take n) := by
  induction n generalizing m a bytes with
  | zero => rfl
  | succ n ih =>
    cases bytes with
    | nil => cases h
    | cons b bytes =>
      rw [List.length_cons] at h
      have hhead : m.write a (b :: bytes) a = some b := by
        unfold write
        rw [if_pos (by rw [List.length_cons]; omega), sub_self]
        rfl
      have htail : (m.write a (b :: bytes)).read (a + 1) n =
          (m.write (a + 1) bytes).read (a + 1) n := by
        apply read_congr
        intro x hlo hhi
        unfold write
        rw [List.length_cons, if_pos (by omega), if_pos (by omega),
          show (x - a).toNat = (x - (a + 1)).toNat + 1 by omega, List.getElem?_cons_succ]
      rw [read_succ, hhead, htail, ih m (a + 1) (by omega)]
      rfl

theorem read_write (m : Mem) (a : ℤ) (bytes : List Byte) :
    (m.write a bytes).read a bytes.length = some bytes := by
  rw [read_write_take m a le_rfl, List.take_length]

/-- A read of two neighbouring pieces. -/
theorem read_append {m : Mem} {a : ℤ} {n k : ℕ} {x y : List Byte} (hx : m.read a n = some x)
    (hy : m.read (a + n) k = some y) : m.read a (n + k) = some (x ++ y) := by
  induction n generalizing a x with
  | zero =>
    cases hx
    rw [Nat.cast_zero, add_zero] at hy
    rw [Nat.zero_add]
    exact hy
  | succ n ih =>
    rw [read_succ] at hx
    obtain ⟨b, hb, hx⟩ := Option.bind_eq_some_iff.mp hx
    obtain ⟨rest, hrest, hx⟩ := Option.bind_eq_some_iff.mp hx
    cases hx
    have hy' : m.read (a + 1 + n) k = some y := by
      rwa [Nat.cast_succ, add_comm (n : ℤ), ← add_assoc] at hy
    rw [Nat.succ_add, read_succ, hb, Option.bind_some, ih hrest hy']
    rfl

end Mem
end ByteMem
