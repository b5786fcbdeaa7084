import LingNet.Boot.Gate
import Mathlib.Data.Nat.Log

/-! The kernel gate of the V2.2 boot sequence, which reads one character for each number, beside
the gate that splits the version. -/
namespace LingNet.Boot.V22
open Zig

/-- The errors of the gate: its own, and those that `try` passes on. -/
inductive GateError where
  | kernelVersionTooOld
  | openFile
  | read
  | parseInt
  deriving DecidableEq, Repr

/-- What `/proc/version` gives: its text, unless it is not opened or not read. -/
abbrev VersionFile := Except GateError (List UInt8)

def readFile (file : VersionFile) : Outcome GateError (List UInt8) :=
  match file with
  | .ok text => .ok text
  | .error e => .err e

/-- `buf[start..stop]` -/
def slice (buf : List UInt8) (start stop : ℕ) : Outcome GateError (List UInt8) :=
  if stop ≤ buf.length then .ok ((buf.drop start).take (stop - start)) else .trap .outOfBounds

def parseU32 (s : List UInt8) : Outcome GateError ℕ :=
  match parseInt 32 s with
  | some n => .ok n
  | none => .err .parseInt

/-- A text without the prefix passes. -/
def checkKernelVersion (file : VersionFile) : Outcome GateError Unit := do
  let text ← readFile file
  let versionStr := text.take 256
  match indexOf versionStr versionPrefix with
  | none => pure ()
  | some idx =>
    let start := idx + versionPrefix.length
    let major ← parseU32 (← slice versionStr start (start + 1))
    let minor ← parseU32 (← slice versionStr (start + 2) (start + 3))
    if major < 5 ∨ major = 5 ∧ minor < 10 then .err .kernelVersionTooOld
    else pure ()

/-- The comparison of the gate. -/
def compare (major minor : ℕ) : Outcome GateError Unit :=
  if major < 5 ∨ major = 5 ∧ minor < 10 then .err .kernelVersionTooOld else .ok ()

theorem slice_of_get {buf : List UInt8} {i : ℕ} {c : UInt8} (h : buf[i]? = some c) :
    slice buf i (i + 1) = .ok [c] := by
  obtain ⟨hi, hc⟩ := List.getElem?_eq_some_iff.mp h
  unfold slice
  rw [if_pos (by omega), Nat.add_sub_cancel_left, List.take_one, List.head?_drop, h]
  rfl

/-- The gate reads the first and the third character behind the prefix. -/
theorem checkKernelVersion_eq {rest : List UInt8} {a c : UInt8} (ha : rest[0]? = some a)
    (hc : rest[2]? = some c) (hlength : (versionPrefix ++ rest).length ≤ 256) :
    checkKernelVersion (.ok (versionPrefix ++ rest)) = (do
      let major ← parseU32 [a]
      let minor ← parseU32 [c]
      compare major minor) := by
  have hfirst : slice (versionPrefix ++ rest) 14 15 = .ok [a] := slice_of_get ha
  have hthird : slice (versionPrefix ++ rest) 16 17 = .ok [c] := slice_of_get hc
  have hstart : 0 + versionPrefix.length = 14 := rfl
  unfold checkKernelVersion compare
  simp only [readFile, Outcome.ok_bind, List.take_of_length_le hlength, indexOf_append, hstart,
    hfirst, hthird, Outcome.pure_eq]

theorem parseU32_digit {d : ℕ} (h : d < 10) : parseU32 [UInt8.ofNat (48 + d)] = .ok d := by
  have hread : parseInt 32 (decimal d) = some d := parseInt_decimal (by omega)
  rw [decimal_of_lt h] at hread
  unfold parseU32
  rw [hread]

theorem parseU32_dot : parseU32 [46] = .err .parseInt := by decide

/-- The first digit of a number. -/
def leadingDigit (n : ℕ) : ℕ := n / 10 ^ Nat.log 10 n

theorem leadingDigit_of_lt {n : ℕ} (h : n < 10) : leadingDigit n = n := by
  unfold leadingDigit
  rw [Nat.log_of_lt h, pow_zero, Nat.div_one]

theorem leadingDigit_of_le {n : ℕ} (h : 10 ≤ n) : leadingDigit n = leadingDigit (n / 10) := by
  unfold leadingDigit
  rw [Nat.log_of_one_lt_of_le (by omega) h, pow_succ', Nat.div_div_eq_div_mul]

theorem leadingDigit_lt (n : ℕ) : leadingDigit n < 10 := by
  induction n using Nat.strongRecOn with
  | ind n ih =>
    by_cases hn : n < 10
    · rw [leadingDigit_of_lt hn]
      exact hn
    · rw [leadingDigit_of_le (by omega)]
      exact ih (n / 10) (by omega)

theorem decimal_getElem_zero (n : ℕ) :
    (decimal n)[0]? = some (UInt8.ofNat (48 + leadingDigit n)) := by
  induction n using Nat.strongRecOn with
  | ind n ih =>
    by_cases hn : n < 10
    · rw [decimal_of_lt hn, leadingDigit_of_lt hn]
      rfl
    · have hfront : 0 < (decimal (n / 10)).length :=
        List.length_pos_iff.mpr (isDecimal_decimal (n / 10)).1
      rw [decimal_of_le (by omega), leadingDigit_of_le (by omega),
        List.getElem?_append_left hfront, ih (n / 10) (by omega)]

/-- A number of at least three digits has a third one, and a shorter one does not. -/
theorem decimal_getElem_two (n : ℕ) {tail : List UInt8} (htail : tail.head? = some 46) :
    (10 ≤ n → n < 100 → (decimal n ++ tail)[2]? = some 46) ∧
      (100 ≤ n → ∃ d < 10, (decimal n ++ tail)[2]? = some (UInt8.ofNat (48 + d))) := by
  constructor
  · intro hlow hhigh
    have hdigit : n / 10 < 10 := by omega
    have hlast : n % 10 < 10 := Nat.mod_lt n (by omega)
    rw [decimal_of_le hlow, decimal_of_lt hdigit, decimal_of_lt hlast]
    cases tail with
    | nil => cases htail
    | cons c tail => exact htail
  · intro hlow
    have hlong : 2 < (decimal n).length := by
      by_contra hshort
      have hsmall := (length_decimal_le (by omega)).mp (Nat.not_lt.mp hshort)
      omega
    have hdigit : isDigit (decimal n)[2] = true :=
      List.all_eq_true.mp (isDecimal_decimal n).2 _ (List.getElem_mem hlong)
    unfold isDigit at hdigit
    rw [Bool.and_eq_true, decide_eq_true_eq, decide_eq_true_eq] at hdigit
    refine ⟨(decimal n)[2].toNat - 48, by omega, ?_⟩
    rw [List.getElem?_append_left hlong, List.getElem?_eq_getElem hlong,
      Nat.add_sub_of_le hdigit.1, UInt8.ofNat_toNat]

/-- One digit of a minor number is never enough for the major number 5. -/
theorem compare_digit {major minor : ℕ} (h : minor < 10) :
    compare major minor = .ok () ↔ 5 < major := by
  unfold compare
  split_ifs with hold
  · simp
    omega
  · simp
    omega

/-- Whether the gate passes a version. -/
def Accepts (major minor patch : UInt32) (suffix : List UInt8) : Prop :=
  checkKernelVersion (.ok (versionText major minor patch ++ suffix)) = .ok ()

section Text

variable {major minor patch : UInt32} {suffix : List UInt8}

/-- What stands behind the major number. -/
theorem dotted_append (major minor patch : UInt32) (suffix : List UInt8) :
    dotted major minor patch ++ suffix = decimal major.toNat ++
      46 :: (decimal minor.toNat ++ (46 :: decimal patch.toNat ++ suffix)) := by
  unfold dotted
  simp

theorem versionText_append (major minor patch : UInt32) (suffix : List UInt8) :
    versionText major minor patch ++ suffix =
      versionPrefix ++ (dotted major minor patch ++ suffix) := by
  unfold versionText
  rw [List.append_assoc]

/-- A text that begins with a number begins with its first digit. -/
theorem decimal_append_getElem_zero (n : ℕ) (tail : List UInt8) :
    (decimal n ++ tail)[0]? = some (UInt8.ofNat (48 + leadingDigit n)) := by
  have hsome : 0 < (decimal n).length := List.length_pos_iff.mpr (isDecimal_decimal n).1
  rw [List.getElem?_append_left hsome]
  exact decimal_getElem_zero n

theorem dotted_getElem_zero : (dotted major minor patch ++ suffix)[0]? =
    some (UInt8.ofNat (48 + leadingDigit major.toNat)) := by
  rw [dotted_append]
  exact decimal_append_getElem_zero major.toNat _

/-- Behind a number of one digit and a dot, the third character is the first digit of the minor
number. -/
theorem dotted_getElem_two (hone : major.toNat < 10) : (dotted major minor patch ++ suffix)[2]? =
    some (UInt8.ofNat (48 + leadingDigit minor.toNat)) := by
  rw [dotted_append, decimal_of_lt hone]
  show (decimal minor.toNat ++ (46 :: decimal patch.toNat ++ suffix))[0]? = _
  exact decimal_append_getElem_zero minor.toNat _

/-- The gate when the third character is a digit. -/
theorem passes_of_digit (hlength : (versionText major minor patch ++ suffix).length ≤ 256) {d : ℕ}
    (hd : d < 10)
    (hthird : (dotted major minor patch ++ suffix)[2]? = some (UInt8.ofNat (48 + d))) :
    Accepts major minor patch suffix ↔ 5 < leadingDigit major.toNat := by
  rw [versionText_append] at hlength
  unfold Accepts
  rw [versionText_append, checkKernelVersion_eq dotted_getElem_zero hthird hlength,
    parseU32_digit (leadingDigit_lt major.toNat), Outcome.ok_bind, parseU32_digit hd,
    Outcome.ok_bind]
  exact compare_digit hd

/-- The gate when the third character is a dot. -/
theorem not_passes_of_dot (hlength : (versionText major minor patch ++ suffix).length ≤ 256)
    (hthird : (dotted major minor patch ++ suffix)[2]? = some 46) :
    ¬ Accepts major minor patch suffix := by
  rw [versionText_append] at hlength
  unfold Accepts
  rw [versionText_append, checkKernelVersion_eq dotted_getElem_zero hthird hlength,
    parseU32_digit (leadingDigit_lt major.toNat), Outcome.ok_bind, parseU32_dot]
  simp

/-- The gate takes a number of one digit as it is, rejects one of two digits, and takes the first
digit of a longer one. -/
theorem passes_iff (hlength : (versionText major minor patch ++ suffix).length ≤ 256) :
    Accepts major minor patch suffix ↔
      5 < leadingDigit major.toNat ∧ (major.toNat < 10 ∨ 100 ≤ major.toNat) := by
  obtain ⟨htwo, hthree⟩ := decimal_getElem_two major.toNat
    (show (46 :: (decimal minor.toNat ++ (46 :: decimal patch.toNat ++ suffix))).head? = some 46
      from rfl)
  rw [← dotted_append] at htwo hthree
  rcases Nat.lt_or_ge major.toNat 10 with hone | hmore
  · rw [passes_of_digit hlength (leadingDigit_lt minor.toNat) (dotted_getElem_two hone)]
    simp [hone]
  · rcases Nat.lt_or_ge major.toNat 100 with hdigits | hlong
    · refine iff_of_false (not_passes_of_dot hlength (htwo hmore hdigits)) ?_
      omega
    · obtain ⟨d, hd, hthird⟩ := hthree hlong
      rw [passes_of_digit hlength hd hthird]
      simp [hlong]

end Text

/-- When the two gates come to the same verdict. -/
def GatesAgree (major minor : ℕ) : Prop :=
  major < 5 ∨ (major = 5 ∧ minor < 10) ∨ (5 < major ∧ major < 10) ∨
    (100 ≤ major ∧ 6 ≤ leadingDigit major)

/-- A suffix that stands behind a version in `/proc/version`: a blank, a minus or a dot, and
anything behind it. -/
def Follows (suffix : List UInt8) : Prop :=
  ∃ c ∈ ([32, 45, 46] : List UInt8), ∃ more, suffix = c :: more

theorem Follows.endsNumber {suffix : List UInt8} (h : Follows suffix) : EndsNumber suffix := by
  obtain ⟨c, hc, more, rfl⟩ := h
  intro d hd
  cases hd
  have hall : ∀ c ∈ ([32, 45, 46] : List UInt8), isVersionDelimiter c = true := by
    decide +kernel
  exact hall c hc

/-- The gates agree on the versions whose first digit tells enough. -/
theorem gatesAgree_iff {major minor patch : UInt32} {suffix : List UInt8} (hsuffix : Follows suffix)
    (hlength : (versionText major minor patch ++ suffix).length ≤ 255) {config : BootConfig}
    (hmajor : config.minKernelMajor = 5) (hminor : config.minKernelMinor = 10) {env : Env}
    (hfile : env.version.Holds (versionText major minor patch ++ suffix) 511) (s : Process) :
    (checkKernelVersion (.ok (versionText major minor patch ++ suffix)) = .ok () ↔
        (Boot.checkKernelVersion config env s).1 = .ok true) ↔
      GatesAgree major.toNat minor.toNat := by
  have hold : checkKernelVersion (.ok (versionText major minor patch ++ suffix)) = .ok () ↔
      5 < leadingDigit major.toNat ∧ (major.toNat < 10 ∨ 100 ≤ major.toNat) :=
    passes_iff (by omega)
  have hnew : (Boot.checkKernelVersion config env s).1 = .ok true ↔
      5 < major.toNat ∨ 5 = major.toNat ∧ 10 ≤ minor.toNat := by
    rw [checkKernelVersion_versionText config hsuffix.endsNumber hfile, Outcome.ok.injEq,
      config.accepts_iff, BootConfig.AtLeast, hmajor, hminor]
  have hone : major.toNat < 10 → leadingDigit major.toNat = major.toNat := leadingDigit_of_lt
  rw [hold, hnew]
  unfold GatesAgree
  rcases Nat.lt_or_ge major.toNat 10 with hshort | hlong
  · rw [hone hshort]
    omega
  · omega


theorem gatesAgree_iff_stable :
    (checkKernelVersion (.ok (versionText 6 1 0 ++ buildSuffix)) = .ok () ↔
        (Boot.checkKernelVersion {} (envOf (versionText 6 1 0 ++ buildSuffix)) {}).1 =
          .ok true) ↔ GatesAgree 6 1 := by
  have hfollows : Follows buildSuffix := ⟨45, by decide, [55, 54, 10], rfl⟩
  have hholds : (envOf (versionText 6 1 0 ++ buildSuffix)).version.Holds
      (versionText 6 1 0 ++ buildSuffix) 511 := ⟨by decide, by decide⟩
  exact gatesAgree_iff hfollows (by decide) rfl rfl hholds {}

/-- The V2.2 gate reads the version 5.15.0 as 5.1. -/
theorem gates_differ : ¬ (checkKernelVersion (.ok (versionText 5 15 0 ++ buildSuffix)) = .ok () ↔
    (Boot.checkKernelVersion {} (envOf (versionText 5 15 0 ++ buildSuffix)) {}).1 =
      .ok true) := by
  have hold : checkKernelVersion (.ok (versionText 5 15 0 ++ buildSuffix)) =
      .err .kernelVersionTooOld := by decide
  have hnew : (Boot.checkKernelVersion {} (envOf (versionText 5 15 0 ++ buildSuffix)) {}).1 =
      .ok true := by decide
  rw [hold, hnew]
  simp

end LingNet.Boot.V22
