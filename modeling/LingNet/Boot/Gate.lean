import LingNet.Boot.Protection

/-! The kernel gate: the version that a kernel prints is the one that the gate compares. -/
namespace LingNet.Boot
open Zig

/-- `M.m.p` -/
def dotted (major minor patch : UInt32) : List UInt8 :=
  decimal major.toNat ++ 46 :: (decimal minor.toNat ++ 46 :: decimal patch.toNat)

/-- `Linux version M.m.p` -/
def versionText (major minor patch : UInt32) : List UInt8 :=
  versionPrefix ++ dotted major minor patch

/-- What follows the version does not go on with its last number. -/
def EndsNumber (suffix : List UInt8) : Prop :=
  ∀ c, suffix.head? = some c → isVersionDelimiter c = true

/-- The file was opened, and the read returned the text as far as the buffer has room. -/
structure File.Holds (file : File) (text : List UInt8) (capacity : ℕ) : Prop where
  opened : file.openResult.toNat < 2 ^ 31
  bytes_eq : file.bytes = text.take capacity

theorem File.length_bytes (file : File) : file.bytes.length = file.readResult.toNat := by
  simp [File.bytes]

theorem length_decimal_u32 (n : UInt32) : (decimal n.toNat).length ≤ 10 := by
  have hlt : n.toNat < 2 ^ 32 := n.toNat_lt
  exact (length_decimal_le (by omega)).mpr (by omega)

theorem decimal_no_delimiter (n : ℕ) : ∀ c ∈ decimal n, isVersionDelimiter c = false := by
  intro c hc
  have hdigit : isDigit c = true := List.all_eq_true.mp (isDecimal_decimal n).2 c hc
  unfold isDigit at hdigit
  rw [Bool.and_eq_true, decide_eq_true_eq, decide_eq_true_eq] at hdigit
  have hne : ∀ d : UInt8, d.toNat < 48 → c ≠ d := by
    rintro d hd rfl
    omega
  have hnot : c ∉ ([46, 32, 45, 43, 10] : List UInt8) := by
    simp [hne 46 (by decide), hne 32 (by decide), hne 45 (by decide), hne 43 (by decide),
      hne 10 (by decide)]
  simpa [isVersionDelimiter] using hnot

theorem indexOf_append (needle rest : List UInt8) : indexOf (needle ++ rest) needle = some 0 := by
  have hfront : needle.isPrefixOf ((needle ++ rest).drop 0) = true := by simp
  unfold indexOf
  rw [List.range_succ_eq_map, List.find?_cons, hfront]

/-- The parser looks at 32 bytes behind the prefix. -/
theorem parseKernelVersion_of_parts {rest : List UInt8} {major minor patch : UInt32}
    {more : List (List UInt8)} (hparts : (rest.take 32).splitOnP isVersionDelimiter =
      decimal major.toNat :: decimal minor.toNat :: decimal patch.toNat :: more) :
    parseKernelVersion (versionPrefix ++ rest) =
      some ⟨major.toNat, minor.toNat, patch.toNat⟩ := by
  have hlength : (versionPrefix ++ rest).length = 14 + rest.length := by
    rw [List.length_append]
    rfl
  have hfront : ∀ n, 14 ≤ n →
      (versionPrefix ++ rest).take n = versionPrefix ++ rest.take (n - 14) := by
    intro n hn
    rw [List.take_append, List.take_of_length_le (show versionPrefix.length ≤ n from hn)]
    rfl
  have hindex : indexOf ((versionPrefix ++ rest).take
      (if (versionPrefix ++ rest).length < 256 then (versionPrefix ++ rest).length else 256))
        versionPrefix = some 0 := by
    rw [hfront _ (by split_ifs <;> omega)]
    exact indexOf_append versionPrefix _
  have hwindow : ((versionPrefix ++ rest).drop (0 + versionPrefix.length)).take
      ((if 0 + versionPrefix.length + 32 < (versionPrefix ++ rest).length then
        0 + versionPrefix.length + 32 else (versionPrefix ++ rest).length) -
          (0 + versionPrefix.length)) = rest.take 32 := by
    rw [Nat.zero_add, List.drop_left]
    split_ifs with hlong
    · rw [Nat.add_sub_cancel_left]
    · have hshort : rest.length ≤ 32 := by
        rw [hlength] at hlong
        exact Nat.le_of_add_le_add_left (Nat.not_lt.mp hlong)
      rw [List.length_append, Nat.add_sub_cancel_left, List.take_length,
        List.take_of_length_le hshort]
  unfold parseKernelVersion
  simp only [hindex, hwindow, hparts, Option.bind_eq_bind, Option.bind_some]
  simp [parseInt_decimal major.toNat_lt, parseInt_decimal minor.toNat_lt,
    parseInt_decimal patch.toNat_lt]

theorem splitOnP_dotted {major minor patch : UInt32} {suffix : List UInt8}
    (hsuffix : EndsNumber suffix) :
    ∃ more, (dotted major minor patch ++ suffix).splitOnP isVersionDelimiter =
      decimal major.toNat :: decimal minor.toNat :: decimal patch.toNat :: more := by
  have hdot : isVersionDelimiter 46 = true := rfl
  have hlast : ∃ more, (decimal patch.toNat ++ suffix).splitOnP isVersionDelimiter =
      decimal patch.toNat :: more := by
    cases suffix with
    | nil =>
      refine ⟨[], ?_⟩
      rw [List.append_nil, List.splitOnP_eq_singleton (decimal_no_delimiter _)]
    | cons c suffix =>
      have hc : isVersionDelimiter c = true := hsuffix c rfl
      exact ⟨_, List.splitOnP_append_cons_of_forall_mem (decimal_no_delimiter _) c hc suffix⟩
  obtain ⟨more, hmore⟩ := hlast
  refine ⟨more, ?_⟩
  unfold dotted
  rw [List.append_assoc, List.cons_append,
    List.splitOnP_append_cons_of_forall_mem (decimal_no_delimiter _) 46 hdot, List.append_assoc,
    List.cons_append, List.splitOnP_append_cons_of_forall_mem (decimal_no_delimiter _) 46 hdot,
    hmore]

theorem length_dotted_le (major minor patch : UInt32) : (dotted major minor patch).length ≤ 32 := by
  have hmajor := length_decimal_u32 major
  have hminor := length_decimal_u32 minor
  have hpatch := length_decimal_u32 patch
  unfold dotted
  rw [List.length_append, List.length_cons, List.length_append, List.length_cons]
  omega

theorem EndsNumber.take {suffix : List UInt8} (h : EndsNumber suffix) (n : ℕ) :
    EndsNumber (suffix.take n) := by
  intro c hc
  cases n with
  | zero => cases hc
  | succ n =>
    cases suffix with
    | nil => cases hc
    | cons d suffix => exact h c hc

/-- The longest version just fills the window. -/
theorem parseKernelVersion_versionText (major minor patch : UInt32) {suffix : List UInt8}
    (hsuffix : EndsNumber suffix) :
    parseKernelVersion (versionText major minor patch ++ suffix) =
      some ⟨major.toNat, minor.toNat, patch.toNat⟩ := by
  have hwindow : (dotted major minor patch ++ suffix).take 32 =
      dotted major minor patch ++ suffix.take (32 - (dotted major minor patch).length) := by
    rw [List.take_append, List.take_of_length_le (length_dotted_le major minor patch)]
  obtain ⟨more, hmore⟩ := @splitOnP_dotted major minor patch _
    (hsuffix.take (32 - (dotted major minor patch).length))
  unfold versionText
  rw [List.append_assoc]
  exact parseKernelVersion_of_parts (by rw [hwindow, hmore])

/-- `buf` has room for 511 bytes and the zero behind them. -/
theorem checkKernelVersion_versionText (config : BootConfig) {env : Env}
    {major minor patch : UInt32} {suffix : List UInt8} (hsuffix : EndsNumber suffix)
    (hfile : env.version.Holds (versionText major minor patch ++ suffix) 511) (s : Process) :
    (checkKernelVersion config env s).1 =
      .ok (config.accepts ⟨major.toNat, minor.toNat, patch.toNat⟩) := by
  have hlength : (versionText major minor patch).length ≤ 46 := by
    have hdotted := length_dotted_le major minor patch
    unfold versionText
    rw [List.length_append]
    have hprefix : versionPrefix.length = 14 := rfl
    omega
  have hfront : (versionText major minor patch ++ suffix).take 511 =
      versionText major minor patch ++
        suffix.take (511 - (versionText major minor patch).length) := by
    rw [List.take_append, List.take_of_length_le (by omega)]
  have hbytes := hfile.bytes_eq
  have hread := env.version.length_bytes
  have hsome : 14 ≤ (versionText major minor patch).length := by
    unfold versionText
    rw [List.length_append]
    exact Nat.le_add_right 14 _
  have hroom : env.version.readResult.toNat < 512 ∧ env.version.readResult.toNat ≠ 0 := by
    have hcut : env.version.bytes.length ≤ 511 := by
      rw [hbytes]
      exact List.length_take_le 511 _
    have hfull : 14 ≤ env.version.bytes.length := by
      rw [hbytes, hfront, List.length_append]
      omega
    omega
  have hcheck : checkVersion config env.version =
      .ok (config.accepts ⟨major.toNat, minor.toNat, patch.toNat⟩) := by
    unfold checkVersion
    rw [if_neg hroom.2, if_neg (by omega), hbytes, hfront,
      parseKernelVersion_versionText major minor patch (hsuffix.take _)]
    rfl
  have hopened := hfile.opened
  unfold checkKernelVersion
  rw [result_withFile, if_neg (by omega), if_pos hopened, hcheck]

/-- A version is at least the minimum when its major and minor numbers are, in that order. -/
def BootConfig.AtLeast (config : BootConfig) (major minor : ℕ) : Prop :=
  config.minKernelMajor < major ∨ config.minKernelMajor = major ∧ config.minKernelMinor ≤ minor

theorem BootConfig.accepts_iff (config : BootConfig) (ver : KernelVersion) :
    config.accepts ver = true ↔ config.AtLeast ver.major ver.minor := by
  unfold BootConfig.accepts BootConfig.AtLeast
  simp
  omega

/-- What a kernel prints is read back, and the gate compares it with the minimum. -/
theorem kernelGate (major minor patch : UInt32) {suffix : List UInt8}
    (hsuffix : EndsNumber suffix) :
    parseKernelVersion (versionText major minor patch ++ suffix) =
        some ⟨major.toNat, minor.toNat, patch.toNat⟩ ∧
      ∀ (config : BootConfig) (env : Env) (s : Process),
        env.version.Holds (versionText major minor patch ++ suffix) 511 →
          ∃ accepted, (checkKernelVersion config env s).1 = .ok accepted ∧
            (accepted = true ↔ config.AtLeast major.toNat minor.toNat) := by
  refine ⟨parseKernelVersion_versionText major minor patch hsuffix, ?_⟩
  intro config env s hfile
  exact ⟨_, checkKernelVersion_versionText config hsuffix hfile s, config.accepts_iff _⟩

/-- A system whose `/proc/version` holds the text. -/
def envOf (text : List UInt8) : Env := { sampleEnv with version := fileOf text }

/-- `-76` and a newline. -/
def buildSuffix : List UInt8 := [45, 55, 54, 10]

theorem endsNumber_buildSuffix : EndsNumber buildSuffix := by
  intro c hc
  cases hc
  decide

theorem kernelGate_build : parseKernelVersion (versionText 5 15 0 ++ buildSuffix) =
      some ⟨5, 15, 0⟩ ∧
    ∃ accepted, (checkKernelVersion {} (envOf (versionText 5 15 0 ++ buildSuffix)) {}).1 =
        .ok accepted ∧ (accepted = true ↔ BootConfig.AtLeast {} 5 15) := by
  have hholds : (envOf (versionText 5 15 0 ++ buildSuffix)).version.Holds
      (versionText 5 15 0 ++ buildSuffix) 511 := ⟨by decide, by decide⟩
  obtain ⟨hparse, hgate⟩ := kernelGate 5 15 0 endsNumber_buildSuffix
  exact ⟨hparse, hgate {} _ {} hholds⟩

end LingNet.Boot
