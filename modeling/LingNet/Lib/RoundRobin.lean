import Mathlib.Data.Int.CardIntervalMod
import Mathlib.Data.List.Nodup

/-! Serving the places of a list in turn by a counter that only counts up. Wherever the counter
starts, any number of turns is shared out evenly. -/
namespace RoundRobin

variable {α : Type*}

/-- The places served in the first turns, from the counter `a` on. -/
def turns (m a : ℕ) : ℕ → List ℕ
  | 0 => []
  | n + 1 => turns m a n ++ [(a + n) % m]

/-- The first turn, and the others from the next value of the counter on. -/
theorem turns_succ (m a n : ℕ) : turns m a (n + 1) = a % m :: turns m (a + 1) n := by
  induction n with
  | zero => rfl
  | succ n ih =>
    have hnext : a + (n + 1) = a + 1 + n := by omega
    rw [turns, ih, turns, hnext]
    rfl

/-- The turns of one place are those at a fixed remainder. -/
theorem count_turns {m i : ℕ} (hi : i < m) (a n : ℕ) :
    (turns m a n).count i = Nat.count (· ≡ i + (m - a % m) [MOD m]) n := by
  have hturn : ∀ k, (a + k) % m = i ↔ k ≡ i + (m - a % m) [MOD m] := by
    intro k
    have hlt : a % m < m := Nat.mod_lt a (by omega)
    have hsplit : a % m + (m - a % m) = m := by omega
    constructor
    · intro hk
      have hadd : a % m + k ≡ a % m + (i + (m - a % m)) [MOD m] := by
        have hleft : a % m + k ≡ i [MOD m] := by
          unfold Nat.ModEq
          rw [Nat.mod_add_mod, hk, Nat.mod_eq_of_lt hi]
        have hright : a % m + (i + (m - a % m)) = i + m := by omega
        rw [hright]
        exact hleft.trans (Nat.ModEq.symm (by simp [Nat.ModEq]))
      exact Nat.ModEq.add_left_cancel' _ hadd
    · intro hk
      have hadd : a % m + k ≡ a % m + (i + (m - a % m)) [MOD m] := hk.add_left _
      have hright : a % m + (i + (m - a % m)) = i + m := by omega
      rw [hright] at hadd
      unfold Nat.ModEq at hadd
      rw [Nat.mod_add_mod, Nat.add_mod_right, Nat.mod_eq_of_lt hi] at hadd
      exact hadd
  induction n with
  | zero => rfl
  | succ n ih =>
    rw [turns, List.count_append, ih, Nat.count_succ]
    by_cases hn : (a + n) % m = i
    · rw [if_pos ((hturn n).mp hn), hn, List.count_singleton_self]
    · rw [if_neg fun h => hn ((hturn n).mpr h)]
      exact congrArg (Nat.count _ n + ·) (List.count_eq_zero_of_not_mem (by simpa using Ne.symm hn))

/-- Each place gets its share of the turns, rounded down or up. -/
theorem count_turns_le {m i : ℕ} (hi : i < m) (a n : ℕ) :
    n / m ≤ (turns m a n).count i ∧ (turns m a n).count i ≤ n / m + 1 := by
  rw [count_turns hi, Nat.count_modEq_card n (by omega)]
  split_ifs <;> omega

end RoundRobin
