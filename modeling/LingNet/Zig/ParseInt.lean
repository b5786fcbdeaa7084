import LingNet.Zig.Outcome

/-! `std.fmt.parseInt` in base ten, for an unsigned type of at least eight bits. What makes it
fail is left out: every error is `none`. -/
namespace Zig

/-- `charToDigit(c, 10)`: a letter is no digit of base ten. -/
def charToDigit (c : UInt8) : Option ℕ :=
  if 48 ≤ c.toNat ∧ c.toNat ≤ 57 then some (c.toNat - 48) else none

/-- The loop over the digits. A negative number leaves the accumulator at zero, or it overflows. -/
def parseDigits (bits : ℕ) (neg : Bool) : ℕ → List UInt8 → Option ℕ
  | accumulate, [] => some accumulate
  | accumulate, c :: buf =>
    -- `_`
    if c = 95 then parseDigits bits neg accumulate buf
    else do
      let digit ← charToDigit c
      if accumulate ≠ 0 then
        if 2 ^ bits ≤ accumulate * 10 then none
        else if neg then
          if accumulate * 10 < digit then none
          else parseDigits bits neg (accumulate * 10 - digit) buf
        else if 2 ^ bits ≤ accumulate * 10 + digit then none
        else parseDigits bits neg (accumulate * 10 + digit) buf
      else if neg then
        if digit ≠ 0 then none else parseDigits bits neg 0 buf
      else parseDigits bits neg digit buf

/-- An underscore may stand between digits only. -/
def parseIntWithSign (bits : ℕ) (neg : Bool) (buf : List UInt8) : Option ℕ :=
  if buf = [] then none
  else if buf.head? = some 95 ∨ buf.getLast? = some 95 then none
  else parseDigits bits neg 0 buf

/-- A sign may come first. -/
def parseInt (bits : ℕ) : List UInt8 → Option ℕ
  | [] => none
  | c :: buf =>
    if c = 43 then parseIntWithSign bits false buf
    else if c = 45 then parseIntWithSign bits true buf
    else parseIntWithSign bits false (c :: buf)

def isDigit (c : UInt8) : Bool := 48 ≤ c.toNat && c.toNat ≤ 57

/-- A non-empty string of the digits `0` to `9`. -/
def IsDecimal (s : List UInt8) : Prop := s ≠ [] ∧ s.all isDigit = true

instance (s : List UInt8) : Decidable (IsDecimal s) := inferInstanceAs (Decidable (_ ∧ _))

/-- The number that digits write, behind those that write `acc`. -/
def decimalFrom (acc : ℕ) (s : List UInt8) : ℕ := s.foldl (fun v c => v * 10 + (c.toNat - 48)) acc

/-- The number that digits write. -/
def decimalValue (s : List UInt8) : ℕ := decimalFrom 0 s

theorem decimalFrom_cons (acc : ℕ) (c : UInt8) (s : List UInt8) :
    decimalFrom acc (c :: s) = decimalFrom (acc * 10 + (c.toNat - 48)) s := by
  unfold decimalFrom
  rw [List.foldl_cons]

theorem le_decimalFrom (acc : ℕ) (s : List UInt8) : acc ≤ decimalFrom acc s := by
  induction s generalizing acc with
  | nil => exact Nat.le_refl acc
  | cons c s ih =>
    have hrest := ih (acc * 10 + (c.toNat - 48))
    rw [decimalFrom_cons]
    omega

theorem charToDigit_of_digit {c : UInt8} (h : isDigit c = true) :
    charToDigit c = some (c.toNat - 48) := by
  unfold isDigit at h
  rw [Bool.and_eq_true, decide_eq_true_eq, decide_eq_true_eq] at h
  exact if_pos h

/-- What is no digit is not in a numeral. -/
theorem IsDecimal.notin {s : List UInt8} (h : IsDecimal s) {c : UInt8} (hc : isDigit c = false) :
    c ∉ s := by
  intro hmem
  have hdigit := List.all_eq_true.mp h.2 c hmem
  rw [hc] at hdigit
  cases hdigit

/-- The loop reads what the digits write, as long as it has room. -/
theorem parseDigits_of_digits {bits acc : ℕ} {s : List UInt8} (hdigits : s.all isDigit = true)
    (hfit : decimalFrom acc s < 2 ^ bits) :
    parseDigits bits false acc s = some (decimalFrom acc s) := by
  induction s generalizing acc with
  | nil => rfl
  | cons c s ih =>
    rw [List.all_cons, Bool.and_eq_true] at hdigits
    obtain ⟨hc, hs⟩ := hdigits
    rw [decimalFrom_cons] at hfit ⊢
    have hrest := ih hs hfit
    have hroom := le_decimalFrom (acc * 10 + (c.toNat - 48)) s
    have hplain : c ≠ 95 := by
      rintro rfl
      exact absurd hc (by decide)
    rw [parseDigits, if_neg hplain, charToDigit_of_digit hc]
    by_cases hzero : acc = 0
    · subst hzero
      simpa using hrest
    · simp only [Option.bind_eq_bind, Option.bind_some, ne_eq, hzero, not_false_eq_true, if_true]
      rw [if_neg (by omega), if_neg Bool.false_ne_true, if_neg (by omega), hrest]

theorem parseInt_of_decimal {bits : ℕ} {s : List UInt8} (h : IsDecimal s)
    (hfit : decimalValue s < 2 ^ bits) : parseInt bits s = some (decimalValue s) := by
  have hhead : s.head? ≠ some 95 := fun hhead =>
    h.notin (by decide) (List.mem_of_head? hhead)
  have hlast : s.getLast? ≠ some 95 := fun hlast =>
    h.notin (by decide) (List.mem_of_getLast? hlast)
  have hsign : parseIntWithSign bits false s = some (decimalValue s) := by
    unfold parseIntWithSign
    rw [if_neg h.1, if_neg (not_or.mpr ⟨hhead, hlast⟩)]
    exact parseDigits_of_digits h.2 hfit
  cases s with
  | nil => exact absurd rfl h.1
  | cons c s =>
    have hplus : c ≠ 43 := by
      rintro rfl
      exact h.notin (by decide) List.mem_cons_self
    have hminus : c ≠ 45 := by
      rintro rfl
      exact h.notin (by decide) List.mem_cons_self
    rw [parseInt, if_neg hplus, if_neg hminus]
    exact hsign

/-- The plain decimal form of a number. -/
def decimal (n : ℕ) : List UInt8 := (Nat.toDigits 10 n).map fun c => UInt8.ofNat c.toNat

theorem decimal_of_lt {n : ℕ} (h : n < 10) : decimal n = [UInt8.ofNat (48 + n)] := by
  unfold decimal
  rw [Nat.toDigits_of_lt_base h, List.map_singleton, Nat.toNat_digitChar_of_lt_ten h]

theorem decimal_of_le {n : ℕ} (h : 10 ≤ n) : decimal n = decimal (n / 10) ++ decimal (n % 10) := by
  have hlast : n % 10 < 10 := Nat.mod_lt n (by omega)
  unfold decimal
  rw [Nat.toDigits_of_base_le (by omega) h, List.map_append, Nat.toDigits_of_lt_base hlast]

theorem toNat_digit {n : ℕ} (h : n < 10) : (UInt8.ofNat (48 + n)).toNat = 48 + n :=
  Nat.mod_eq_of_lt (by omega)

theorem isDigit_digit {n : ℕ} (h : n < 10) : isDigit (UInt8.ofNat (48 + n)) = true := by
  unfold isDigit
  rw [toNat_digit h, Bool.and_eq_true, decide_eq_true_eq, decide_eq_true_eq]
  omega

/-- By induction on the number of digits. -/
theorem isDecimal_decimal (n : ℕ) : IsDecimal (decimal n) := by
  induction n using Nat.strongRecOn with
  | ind n ih =>
    by_cases hn : n < 10
    · rw [decimal_of_lt hn]
      refine ⟨List.cons_ne_nil _ _, ?_⟩
      rw [List.all_cons, isDigit_digit hn]
      rfl
    · have hfront := ih (n / 10) (by omega)
      have hlast := ih (n % 10) (by omega)
      rw [decimal_of_le (by omega)]
      refine ⟨List.append_ne_nil_of_left_ne_nil hfront.1 _, ?_⟩
      rw [List.all_append, hfront.2, hlast.2]
      rfl

theorem decimalFrom_append (acc : ℕ) (s t : List UInt8) :
    decimalFrom acc (s ++ t) = decimalFrom (decimalFrom acc s) t := List.foldl_append

theorem decimalFrom_digit (acc : ℕ) {n : ℕ} (h : n < 10) :
    decimalFrom acc [UInt8.ofNat (48 + n)] = acc * 10 + n := by
  rw [decimalFrom_cons, toNat_digit h]
  simp [decimalFrom]

theorem decimalValue_decimal (n : ℕ) : decimalValue (decimal n) = n := by
  unfold decimalValue
  induction n using Nat.strongRecOn with
  | ind n ih =>
    by_cases hn : n < 10
    · rw [decimal_of_lt hn, decimalFrom_digit 0 hn]
      omega
    · have hlast : n % 10 < 10 := Nat.mod_lt n (by omega)
      rw [decimal_of_le (by omega), decimalFrom_append, ih (n / 10) (by omega),
        decimal_of_lt hlast, decimalFrom_digit _ hlast]
      omega

theorem length_decimal_le {n k : ℕ} (hk : 0 < k) : (decimal n).length ≤ k ↔ n < 10 ^ k := by
  unfold decimal
  rw [List.length_map]
  exact Nat.length_toDigits_le_iff (by omega) hk

/-- A number that fits is read back. -/
theorem parseInt_decimal {bits n : ℕ} (h : n < 2 ^ bits) : parseInt bits (decimal n) = some n := by
  have hfit : decimalValue (decimal n) < 2 ^ bits := by rwa [decimalValue_decimal]
  rw [parseInt_of_decimal (isDecimal_decimal n) hfit, decimalValue_decimal]

/-- `+80`, `8_0` and `-0` are numbers too. -/
example : parseInt 16 [43, 56, 48] = some 80 ∧ parseInt 16 [56, 95, 48] = some 80 ∧
    parseInt 16 [45, 48] = some 0 := by decide

end Zig
