import LingNet.Lib.Cbpf

/-! The seccomp filters of the sandbox and of the `L2` loader, interpreted on the data the
kernel hands to a filter at each system call. -/
namespace LingNet.Sandbox
open Cbpf

/-- `struct seccomp_data`, as its 16 words. -/
structure SeccompData where
  words : Fin 16 → UInt32

def SeccompData.nr (d : SeccompData) : UInt32 := d.words 0

def SeccompData.arch (d : SeccompData) : UInt32 := d.words 1

/-- A load takes an aligned offset inside the data. -/
def SeccompData.load (d : SeccompData) (offset : UInt32) : Option UInt32 :=
  if h : offset.toNat / 4 < 16 then
    if offset.toNat % 4 = 0 then some (d.words ⟨offset.toNat / 4, h⟩) else none
  else none

/-- `SECCOMP_RET_ALLOW` -/
def ALLOW : UInt32 := 0x7fff0000

/-- `SECCOMP_RET_KILL_PROCESS` -/
def KILL : UInt32 := 0x80000000

def AUDIT_ARCH_X86_64 : UInt32 := 0xC000003E

def bpf_insn (code : UInt16) (jt jf : UInt8) (k : UInt32) : Insn := ⟨code, jt, jf, k⟩

/-- The filter of `sandbox.zig`. -/
def buildBpfFilter : List Insn :=
  [ bpf_insn 0x20 0 0 4,
    bpf_insn 0x15 0 1 0xC000003E,
    bpf_insn 0x06 0 0 KILL,
    bpf_insn 0x20 0 0 0,
    bpf_insn 0x15 11 0 0,
    bpf_insn 0x15 10 0 1,
    bpf_insn 0x15 9 0 3,
    bpf_insn 0x15 8 0 60,
    bpf_insn 0x15 7 0 231,
    bpf_insn 0x15 6 0 9,
    bpf_insn 0x15 5 0 11,
    bpf_insn 0x15 4 0 12,
    bpf_insn 0x15 3 0 15,
    bpf_insn 0x15 2 0 202,
    bpf_insn 0x15 1 0 228,
    bpf_insn 0x15 0 1 230,
    bpf_insn 0x06 0 0 KILL,
    bpf_insn 0x06 0 0 ALLOW ]

/-- The filter of `l2_loader.zig`. -/
def buildSeccompFilter : List Insn :=
  let ARCH : UInt32 := 4
  let NR : UInt32 := 0
  [ bpf_insn 0x20 0 0 ARCH,
    bpf_insn 0x15 0 1 0xC000003E,
    bpf_insn 0x06 0 0 KILL,
    bpf_insn 0x20 0 0 NR,
    bpf_insn 0x15 11 0 0,
    bpf_insn 0x15 10 0 1,
    bpf_insn 0x15 9 0 3,
    bpf_insn 0x15 8 0 60,
    bpf_insn 0x15 7 0 231,
    bpf_insn 0x15 6 0 9,
    bpf_insn 0x15 5 0 11,
    bpf_insn 0x15 4 0 12,
    bpf_insn 0x15 3 0 15,
    bpf_insn 0x15 2 0 202,
    bpf_insn 0x15 1 0 228,
    bpf_insn 0x15 0 1 230,
    bpf_insn 0x06 0 0 KILL,
    bpf_insn 0x06 0 0 ALLOW ]

/-- `read`, `write`, `close`, `exit`, `exit_group`, `mmap`, `munmap`, `brk`, `rt_sigreturn`,
`futex`, `clock_gettime`, `clock_nanosleep` -/
def whitelist : List UInt32 := [0, 1, 3, 60, 231, 9, 11, 12, 15, 202, 228, 230]

theorem buildSeccompFilter_eq : buildSeccompFilter = buildBpfFilter := rfl

theorem load_arch (d : SeccompData) : d.load 4 = some d.arch := rfl

theorem load_nr (d : SeccompData) : d.load 0 = some d.nr := rfl

/-- A hit lands on the `KILL` behind the ladder, a miss on the `ALLOW`. -/
theorem ladder_buildBpfFilter : Ladder buildBpfFilter 16 17 4 whitelist := by
  unfold whitelist
  iterate 12 refine ⟨_, rfl, rfl, rfl, rfl, ?_⟩
  rfl

/-- What the filter decides: the test of the architecture is inverted, and so is the test of
the system call number. -/
theorem exec_buildBpfFilter (d : SeccompData) : exec d.load buildBpfFilter =
    .ret (if d.arch = AUDIT_ARCH_X86_64 ∨ d.nr ∈ whitelist then KILL else ALLOW) := by
  unfold exec
  rw [runFrom_load 0 rfl rfl (load_arch d), runFrom_jeq d.arch rfl rfl]
  change (if d.arch = AUDIT_ARCH_X86_64 then runFrom d.load buildBpfFilter 2 d.arch
    else runFrom d.load buildBpfFilter 3 d.arch) = _
  by_cases harch : d.arch = AUDIT_ARCH_X86_64
  · rw [if_pos harch, if_pos (.inl harch)]
    exact runFrom_ret (i := bpf_insn 0x06 0 0 KILL) d.arch rfl rfl
  · rw [if_neg harch, runFrom_load d.arch rfl rfl (load_nr d),
      runFrom_ladder d.nr ladder_buildBpfFilter]
    by_cases hnr : d.nr ∈ whitelist
    · rw [if_pos hnr, if_pos (.inr hnr)]
      exact runFrom_ret (i := bpf_insn 0x06 0 0 KILL) d.nr rfl rfl
    · have hor : ¬ (d.arch = AUDIT_ARCH_X86_64 ∨ d.nr ∈ whitelist) := not_or.mpr ⟨harch, hnr⟩
      rw [if_neg hnr, if_neg hor]
      exact runFrom_ret (i := bpf_insn 0x06 0 0 ALLOW) d.nr rfl rfl

/-- The run ends at a return, which allows exactly the whitelist on `x86_64` and kills the
process otherwise. -/
def WhitelistExact (filter : List Insn) (d : SeccompData) : Prop :=
  ∃ k, exec d.load filter = .ret k ∧
    (k = ALLOW ↔ d.arch = AUDIT_ARCH_X86_64 ∧ d.nr ∈ whitelist) ∧ (k ≠ ALLOW → k = KILL)

/-- The filters are exact where one of the two tests says no, and only there. -/
theorem seccomp_whitelist_exact (d : SeccompData) :
    (WhitelistExact buildBpfFilter d ↔ (d.arch = AUDIT_ARCH_X86_64 ↔ d.nr ∉ whitelist)) ∧
      (WhitelistExact buildSeccompFilter d ↔ (d.arch = AUDIT_ARCH_X86_64 ↔ d.nr ∉ whitelist)) := by
  have hexact : WhitelistExact buildBpfFilter d ↔
      (d.arch = AUDIT_ARCH_X86_64 ↔ d.nr ∉ whitelist) := by
    have hne : KILL ≠ ALLOW := by decide
    unfold WhitelistExact
    rw [exec_buildBpfFilter]
    by_cases harch : d.arch = AUDIT_ARCH_X86_64 <;> by_cases hnr : d.nr ∈ whitelist <;>
      simp [harch, hnr, hne]
  exact ⟨hexact, buildSeccompFilter_eq ▸ hexact⟩

/-- `read` on `x86_64` is killed; on `i386` system call 59, which is not listed, is allowed. -/
theorem seccomp_whitelist_inverted :
    (exec (SeccompData.mk fun i => if i = 1 then 0xC000003E else 0).load buildBpfFilter =
        .ret KILL ∧
      ¬ WhitelistExact buildBpfFilter (SeccompData.mk fun i => if i = 1 then 0xC000003E else 0)) ∧
    exec (SeccompData.mk fun i => if i = 0 then 59 else if i = 1 then 0x40000003 else 0).load
      buildBpfFilter = .ret ALLOW := by
  have hread : exec (SeccompData.mk fun i => if i = 1 then 0xC000003E else 0).load
      buildBpfFilter = .ret KILL := by decide
  refine ⟨⟨hread, ?_⟩, by decide⟩
  rintro ⟨k, hk, hallow, _⟩
  rw [hread] at hk
  cases hk
  exact absurd (hallow.mpr ⟨rfl, by decide⟩) (by decide)

end LingNet.Sandbox
