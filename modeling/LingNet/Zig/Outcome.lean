import Mathlib.Data.Nat.Basic
import Mathlib.Tactic.Ring

/-! What a call can do in Zig with runtime safety on: return a value, return an error,
or trap. `usize` and `u64` values are naturals below `2 ^ 64`; the checked operators trap
where the language does, the atomic read-modify-writes wrap. -/
namespace Zig

/-- The safety check that stopped the process. -/
inductive Fault where
  | outOfBounds
  | integerOverflow
  | integerCast
  | incorrectAlignment
  | reachedUnreachable
  | divisionByZero
  deriving DecidableEq, Repr

/-- The outcome of a call that may return an error of `ε`. -/
inductive Outcome (ε α : Type) where
  | ok (a : α)
  | err (e : ε)
  | trap (f : Fault)
  deriving DecidableEq, Repr

variable {ε α β : Type}

/-- `try`: errors and traps leave the caller at once. -/
def Outcome.bind (x : Outcome ε α) (f : α → Outcome ε β) : Outcome ε β :=
  match x with
  | .ok a => f a
  | .err e => .err e
  | .trap t => .trap t

instance : Monad (Outcome ε) where
  pure := .ok
  bind := Outcome.bind

@[simp] theorem Outcome.pure_eq (a : α) : (pure a : Outcome ε α) = .ok a := rfl

@[simp] theorem Outcome.ok_bind (a : α) (f : α → Outcome ε β) : (Outcome.ok a >>= f) = f a := rfl

@[simp] theorem Outcome.err_bind (e : ε) (f : α → Outcome ε β) :
    (Outcome.err e >>= f) = .err e := rfl

@[simp] theorem Outcome.trap_bind (t : Fault) (f : α → Outcome ε β) :
    (Outcome.trap t >>= f) = .trap t := rfl

theorem Outcome.bind_eq_ok {x : Outcome ε α} {f : α → Outcome ε β} {b : β} :
    (x >>= f) = .ok b ↔ ∃ a, x = .ok a ∧ f a = .ok b := by
  cases x <;> simp

/-- The outcome is a value that passes a test. -/
def Outcome.isOkAnd (p : α → Bool) : Outcome ε α → Bool
  | .ok a => p a
  | .err _ => false
  | .trap _ => false

theorem Outcome.exists_of_isOkAnd {p : α → Bool} {x : Outcome ε α} (h : x.isOkAnd p = true) :
    ∃ a, x = .ok a ∧ p a = true := by
  cases x with
  | ok a => exact ⟨a, rfl, h⟩
  | err e => cases h
  | trap t => cases h

/-- One more than the largest `usize`. -/
def usizeEnd : ℕ := 2 ^ 64

/-- `a + b` on `usize`. -/
def add (a b : ℕ) : Outcome ε ℕ :=
  if a + b < usizeEnd then .ok (a + b) else .trap .integerOverflow

/-- `a - b` on `usize`. -/
def sub (a b : ℕ) : Outcome ε ℕ :=
  if b ≤ a then .ok (a - b) else .trap .integerOverflow

/-- `a * b` on `usize`. -/
def mul (a b : ℕ) : Outcome ε ℕ :=
  if a * b < usizeEnd then .ok (a * b) else .trap .integerOverflow

/-- `@atomicRmw(.Add)` and `fetchAdd`. -/
def wrappingAdd (a b : ℕ) : ℕ := (a + b) % usizeEnd

/-- `@atomicRmw(.Sub)`. -/
def wrappingSub (a b : ℕ) : ℕ := (a + (usizeEnd - b)) % usizeEnd

/-- `@intCast` of a non-negative value to an integer type with `bits` value bits. -/
def intCast (bits a : ℕ) : Outcome ε ℕ :=
  if a < 2 ^ bits then .ok a else .trap .integerCast

/-- `std.mem.alignForward(usize, addr, alignment)` for a power of two. -/
def alignForward (addr alignment : ℕ) : Outcome ε ℕ := do
  let bumped ← add addr (alignment - 1)
  pure (bumped / alignment * alignment)

theorem add_eq_ok {a b c : ℕ} :
    (add a b : Outcome ε ℕ) = .ok c ↔ a + b < usizeEnd ∧ c = a + b := by
  unfold add
  split_ifs with h <;> simp [h, eq_comm]

theorem add_ne_err {a b : ℕ} {e : ε} : add a b ≠ (.err e : Outcome ε ℕ) := by
  unfold add
  split_ifs <;> simp

theorem sub_eq_ok {a b c : ℕ} :
    (sub a b : Outcome ε ℕ) = .ok c ↔ b ≤ a ∧ c = a - b := by
  unfold sub
  split_ifs with h <;> simp [h, eq_comm]

theorem sub_eq_trap {a b : ℕ} {f : Fault} :
    (sub a b : Outcome ε ℕ) = .trap f ↔ a < b ∧ f = .integerOverflow := by
  unfold sub
  split_ifs with h
  · have hnot : ¬ a < b := by omega
    simp [hnot]
  · have hlt : a < b := by omega
    simp [hlt, eq_comm]

theorem sub_ne_err {a b : ℕ} {e : ε} : sub a b ≠ (.err e : Outcome ε ℕ) := by
  unfold sub
  split_ifs <;> simp

theorem mul_eq_ok {a b c : ℕ} :
    (mul a b : Outcome ε ℕ) = .ok c ↔ a * b < usizeEnd ∧ c = a * b := by
  unfold mul
  split_ifs with h <;> simp [h, eq_comm]

theorem intCast_of_lt {bits a : ℕ} (h : a < 2 ^ bits) :
    (intCast bits a : Outcome ε ℕ) = .ok a := if_pos h

theorem intCast_of_le {bits a : ℕ} (h : 2 ^ bits ≤ a) :
    (intCast bits a : Outcome ε ℕ) = .trap .integerCast := if_neg (Nat.not_lt.mpr h)

theorem le_of_alignForward {addr alignment c : ℕ} (ha : 0 < alignment)
    (h : (alignForward addr alignment : Outcome ε ℕ) = .ok c) : addr ≤ c := by
  obtain ⟨b, hb, hc⟩ := Outcome.bind_eq_ok.mp h
  obtain ⟨_, rfl⟩ := add_eq_ok.mp hb
  cases hc
  have hdiv := Nat.div_add_mod (addr + (alignment - 1)) alignment
  have hmod := Nat.mod_lt (addr + (alignment - 1)) ha
  rw [Nat.mul_comm] at hdiv
  omega

theorem wrappingAdd_one {a : ℕ} (h : a + 1 < usizeEnd) : wrappingAdd a 1 = a + 1 :=
  Nat.mod_eq_of_lt h

theorem wrappingSub_one_ne (a : ℕ) : wrappingSub a 1 ≠ a := by
  have hlt : wrappingSub a 1 < usizeEnd := Nat.mod_lt _ (by decide)
  intro heq
  rw [heq] at hlt
  unfold wrappingSub usizeEnd at heq
  unfold usizeEnd at hlt
  omega

theorem wrappingSub_one {a : ℕ} (h : a + 1 < usizeEnd) : wrappingSub (a + 1) 1 = a := by
  unfold wrappingSub
  have hend : 1 ≤ usizeEnd := by decide
  rw [show a + 1 + (usizeEnd - 1) = a + usizeEnd by omega, Nat.add_mod_right]
  exact Nat.mod_eq_of_lt (by omega)

end Zig
