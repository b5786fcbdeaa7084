import LingNet.Boot.Preflight

/-! What the boot result says of the programs, and what the kernel still has of them. -/
namespace LingNet.Boot
open Zig EbpfLoader

/-- A program is reported as loaded only if the descriptor of its load is open. -/
def ReportsInForce (r : Outcome BootError BootResult × Process) : Prop :=
  ∀ result, r.1 = .ok result → result.ebpfLoaded = true →
    ∀ i c, r.2.kernel.commands[i]? = some c → c.1.cmd = .progLoad →
      r.2.kernel.table c.2.toNat = some (.bpf i)

/-! When each step passes, by the kernel's answers. -/

/-- A file that is absent, or is read into a buffer of `capacity` bytes. -/
def File.Harmless (file : File) (capacity : ℕ) : Prop :=
  file.openResult.toNat = 2 ^ 64 - 1 ∨
    file.openResult.toNat < 2 ^ 31 ∧ file.readResult.toNat ≤ capacity

/-- The version is read, and is one that the configuration accepts. -/
structure KernelAccepted (config : BootConfig) (env : Env) : Prop where
  opened : env.version.openResult.toNat < 2 ^ 31
  some_read : env.version.readResult.toNat ≠ 0
  room : env.version.readResult.toNat < 512
  accepted : ∃ ver, parseKernelVersion env.version.bytes = some ver ∧ config.accepts ver = true

/-- Every step that the configuration asks for goes well. -/
structure Starts (config : BootConfig) (env : Env) : Prop where
  kernel : KernelAccepted config env
  cgroup : (env.statx.ret = 0 ∧ env.statx.ino ≠ 0) ∨ env.cgroup.Harmless 4096
  ebpf : config.enableEbpf = true → ∀ k < 5, (env.ebpf k).Kept
  hugepages : config.enableHugepages = true → env.hugepages.Harmless 32
  isolated : env.isolated.toNat = 2 ^ 64 - 1 ∨ env.isolated.toNat < 2 ^ 31
  pools_fit : config.arenaBlockCount * config.arenaBlockSize < usizeEnd
  pools_some : config.arenaBlockCount * config.arenaBlockSize ≠ 0
  mapping : env.mapping.isSome = true
  table : env.table = true
  sanitizer : 64 ≤ config.sanitizerCore.toNat ∨ env.spawn = true

/-- No descriptor of a call stands for what the call has made. -/
def Dropped (k : Kernel) : Prop :=
  ∀ c ∈ k.commands, ∀ i, k.table c.2.toNat ≠ some (.bpf i)

def cmds (s : Process) : List BpfCmd := s.kernel.commands.map fun c => c.1.cmd

/-- The run returns a value that meets `Q`, and it leaves the calls `after`, all dropped. -/
structure Passed {α : Type} (after : List BpfCmd) (Q : α → Prop)
    (r : Outcome BootError α × Process) : Prop where
  returns : ∃ a, r.1 = .ok a ∧ Q a
  dropped : Dropped r.2.kernel
  cmds_eq : cmds r.2 = after

/-- A step that passes exactly under the condition `c`. -/
def Passes {α : Type} (c : Prop) (before after : List BpfCmd) (Q : α → Prop)
    (x : Proc Process BootError α) : Prop :=
  ∀ s : Process, Dropped s.kernel → cmds s = before →
    (c → Passed after Q (x s)) ∧ (¬ c → ∀ a, (x s).1 ≠ .ok a)

section Passes

variable {α β : Type} {c c' : Prop} {l m n : List BpfCmd} {Q : α → Prop} {Q' : β → Prop}

theorem Passes.bind {x : Proc Process BootError α} {f : α → Proc Process BootError β}
    (hx : Passes c l m Q x) (hf : ∀ a, Q a → Passes c' m n Q' (f a)) :
    Passes (c ∧ c') l n Q' (x >>= f) := by
  intro s hs hcmds
  obtain ⟨hpass, hstop⟩ := hx s hs hcmds
  by_cases hc : c
  · obtain ⟨⟨a, hok, ha⟩, hdropped, hmade⟩ := hpass hc
    have hr : x s = (.ok a, (x s).2) := Prod.ext hok rfl
    rw [Proc.bind_of_ok hr, and_iff_right hc]
    exact hf a ha (x s).2 hdropped hmade
  · refine ⟨fun hboth => absurd hboth.1 hc, fun _ b hb => ?_⟩
    have hok : (x >>= f) s = (.ok b, ((x >>= f) s).2) := Prod.ext hb rfl
    obtain ⟨a, t, hx', -⟩ := Proc.bind_eq_ok.mp hok
    exact hstop hc a (congrArg Prod.fst hx')

theorem Passes.congr (h : c ↔ c') {x : Proc Process BootError α} (hx : Passes c l m Q x) :
    Passes c' l m Q x := by
  rw [propext h] at hx
  exact hx

theorem Passes.imp {R : α → Prop} (h : ∀ a, Q a → R a) {x : Proc Process BootError α}
    (hx : Passes c l m Q x) : Passes c l m R x := by
  intro s hs hcmds
  obtain ⟨hpass, hstop⟩ := hx s hs hcmds
  refine ⟨fun hc => ?_, hstop⟩
  obtain ⟨⟨a, hok, ha⟩, hdropped, hmade⟩ := hpass hc
  exact ⟨⟨a, hok, h a ha⟩, hdropped, hmade⟩

/-- A step that leaves descriptors alone. -/
theorem passes_of_keeps {x : Proc Process BootError α}
    (hkernel : ∀ s, (x.final s).kernel = s.kernel)
    (hpass : ∀ s, c → ∃ a, x.result s = .ok a ∧ Q a) (hstop : ∀ s, ¬ c → ∀ a, x.result s ≠ .ok a) :
    Passes c l l Q x := by
  intro s hs hcmds
  have hkept : (x s).2.kernel = s.kernel := hkernel s
  refine ⟨fun hc => ⟨hpass s hc, ?_, ?_⟩, fun hc => hstop s hc⟩
  · rw [hkept]
    exact hs
  · unfold cmds
    rw [hkept]
    exact hcmds

theorem passes_pure {a : α} (h : Q a) : Passes True l l Q (pure a) :=
  passes_of_keeps (fun _ => rfl) (fun _ _ => ⟨a, rfl, h⟩) fun _ hnot => absurd trivial hnot

theorem dropped_start : Dropped {} := fun _ hc => absurd hc List.not_mem_nil

/-- Opening and closing of files brings no program back. -/
theorem dropped_openFile {k : Kernel} (h : Dropped k) (result : UInt64) :
    Dropped (k.openFile result) := by
  intro c hc i
  have hold := h c hc i
  unfold Kernel.openFile
  split_ifs with hfailed
  · exact hold
  · show Function.update k.table result.toNat (some .file) c.2.toNat ≠ _
    rw [Function.update_apply]
    split_ifs
    · simp
    · exact hold

theorem dropped_close {k : Kernel} (h : Dropped k) (fd : ℕ) : Dropped (k.close fd) := by
  intro c hc i
  have hold := h c hc i
  show Function.update k.table fd none c.2.toNat ≠ _
  rw [Function.update_apply]
  split_ifs
  · simp
  · exact hold

/-- What an access to a file returns. -/
theorem result_withFile (openResult : UInt64) (missing : α) (o : Outcome BootError α)
    (s : Process) :
    (withFile openResult missing (Proc.lift o) s).1 =
      if openResult.toNat = 2 ^ 64 - 1 then .ok missing
      else if openResult.toNat < 2 ^ 31 then o else .trap .integerCast := by
  have hopen : (Proc.modify (fun s : Process =>
      { s with kernel := s.kernel.openFile openResult }) s : Outcome BootError Unit × Process) =
        (.ok (), { s with kernel := s.kernel.openFile openResult }) := rfl
  unfold withFile
  rw [Proc.bind_of_ok hopen]
  split_ifs with hmiss hfd
  · rfl
  · rw [Proc.lift_bind_of_ok (intCast_of_lt hfd)]
    cases o with
    | ok a => rfl
    | err e => rfl
    | trap fault => rfl
  · have htrap : (intCast 31 openResult.toNat : Outcome BootError ℕ) = .trap .integerCast :=
      intCast_of_le (Nat.not_lt.mp hfd)
    rw [htrap]
    rfl

/-- What it leaves of the descriptors. -/
theorem final_withFile (openResult : UInt64) (missing : α) (o : Outcome BootError α) (s : Process)
    (h : Dropped s.kernel) : Dropped (withFile openResult missing (Proc.lift o) s).2.kernel ∧
      cmds (withFile openResult missing (Proc.lift o) s).2 = cmds s := by
  have hopened := dropped_openFile h openResult
  have hopen : (Proc.modify (fun s : Process =>
      { s with kernel := s.kernel.openFile openResult }) s : Outcome BootError Unit × Process) =
        (.ok (), { s with kernel := s.kernel.openFile openResult }) := rfl
  unfold withFile
  rw [Proc.bind_of_ok hopen]
  split_ifs with hmiss
  · exact ⟨hopened, rfl⟩
  · by_cases hfd : openResult.toNat < 2 ^ 31
    · rw [Proc.lift_bind_of_ok (intCast_of_lt hfd)]
      cases o with
      | ok a => exact ⟨dropped_close hopened openResult.toNat, rfl⟩
      | err e => exact ⟨dropped_close hopened openResult.toNat, rfl⟩
      | trap fault => exact ⟨hopened, rfl⟩
    · have htrap : (intCast 31 openResult.toNat : Outcome BootError ℕ) = .trap .integerCast :=
        intCast_of_le (Nat.not_lt.mp hfd)
      rw [htrap]
      exact ⟨hopened, rfl⟩

/-- A file that may be missing. -/
theorem passes_withFile (openResult : UInt64) (missing : α) {o : Outcome BootError α}
    (hpass : c → ∃ a, o = .ok a) (hstop : ¬ c → ∀ a, o ≠ .ok a) :
    Passes (openResult.toNat = 2 ^ 64 - 1 ∨ openResult.toNat < 2 ^ 31 ∧ c) l l (fun _ => True)
      (withFile openResult missing (Proc.lift o)) := by
  intro s hs hcmds
  obtain ⟨hdropped, hmade⟩ := final_withFile openResult missing o s hs
  have hresult := result_withFile openResult missing o s
  constructor
  · intro hread
    refine ⟨?_, hdropped, hmade.trans hcmds⟩
    rcases hread with hmiss | ⟨hfd, hc⟩
    · rw [if_pos hmiss] at hresult
      exact ⟨missing, hresult, trivial⟩
    · obtain ⟨a, rfl⟩ := hpass hc
      split_ifs at hresult
      · exact ⟨missing, hresult, trivial⟩
      · exact ⟨a, hresult, trivial⟩
  · intro hnot a hok
    obtain ⟨hmiss, hread⟩ := not_or.mp hnot
    rw [hresult, if_neg hmiss] at hok
    split_ifs at hok with hfd
    exact hstop (fun hc => hread ⟨hfd, hc⟩) a hok

theorem checkVersion_eq_true {config : BootConfig} {file : File} :
    checkVersion config file = .ok true ↔ file.readResult.toNat ≠ 0 ∧
      file.readResult.toNat < 512 ∧
      ∃ ver, parseKernelVersion file.bytes = some ver ∧ config.accepts ver = true := by
  unfold checkVersion
  split_ifs with hzero hlong
  · simp [hzero]
  · simp only [false_iff]
    intro hand
    omega
  · rw [Outcome.ok.injEq]
    cases parseKernelVersion file.bytes with
    | none => simp
    | some ver =>
      have hlt : file.readResult.toNat < 512 := Nat.not_le.mp hlong
      simp [hzero, hlt]

/-- The version check returns `true` exactly for a version that is accepted. -/
theorem result_checkKernelVersion (config : BootConfig) (env : Env) (s : Process) :
    (checkKernelVersion config env s).1 = .ok true ↔ KernelAccepted config env := by
  unfold checkKernelVersion
  rw [result_withFile]
  split_ifs with hmiss hfd
  · have hbig : ¬ env.version.openResult.toNat < 2 ^ 31 := by omega
    simp only [Outcome.ok.injEq, Bool.false_eq_true, false_iff]
    intro h
    exact hbig h.opened
  · rw [checkVersion_eq_true]
    constructor
    · intro h
      obtain ⟨hsome, hroom, haccepted⟩ := h
      exact ⟨hfd, hsome, hroom, haccepted⟩
    · intro h
      exact ⟨h.some_read, h.room, h.accepted⟩
  · simp only [false_iff]
    intro h
    exact hfd h.opened

/-- The rest of the boot comes after an accepted version only. -/
theorem passes_checkKernelVersion {config : BootConfig} {env : Env}
    {f : Bool → Proc Process BootError β} (hf : Passes c' l n Q' (f true)) :
    Passes (KernelAccepted config env ∧ c') l n Q'
      (checkKernelVersion config env >>= fun kernelOk =>
        if !kernelOk then Proc.fail .unsupportedKernel else f kernelOk) := by
  intro s hs hcmds
  have hresult := result_checkKernelVersion config env s
  obtain ⟨hdropped, hmade⟩ := final_withFile env.version.openResult false
    (checkVersion config env.version) s hs
  by_cases haccepted : KernelAccepted config env
  · have hr : checkKernelVersion config env s = (.ok true, (checkKernelVersion config env s).2) :=
      Prod.ext (hresult.mpr haccepted) rfl
    rw [Proc.bind_of_ok hr, and_iff_right haccepted]
    exact hf _ hdropped (hmade.trans hcmds)
  · refine ⟨fun hboth => absurd hboth.1 haccepted, fun _ b hb => ?_⟩
    rcases hr : checkKernelVersion config env s with ⟨kernelOk | e | fault, s'⟩
    · rw [Proc.bind_of_ok hr] at hb
      cases kernelOk with
      | true => exact haccepted (hresult.mp (by rw [hr]))
      | false => cases hb
    · rw [Proc.bind_of_err hr] at hb
      cases hb
    · rw [Proc.bind_of_trap hr] at hb
      cases hb

/-- What was read into a buffer is within it, or the slice stops the process. -/
theorem hashLine_ok (env : Env) :
    (env.cgroup.readResult.toNat ≤ 4096 → ∃ a, hashLine env = .ok a) ∧
      (¬ env.cgroup.readResult.toNat ≤ 4096 → ∀ a, hashLine env ≠ .ok a) := by
  unfold hashLine
  split_ifs with hzero hlong
  · exact ⟨fun _ => ⟨1, rfl⟩, fun hnot => by omega⟩
  · exact ⟨fun hle => by omega, fun _ a h => by cases h⟩
  · exact ⟨fun _ => ⟨_, rfl⟩, fun hnot => by omega⟩

theorem checkCount_ok (minCount : ℕ) (file : File) :
    (file.readResult.toNat ≤ 32 → ∃ a, checkCount minCount file = .ok a) ∧
      (¬ file.readResult.toNat ≤ 32 → ∀ a, checkCount minCount file ≠ .ok a) := by
  unfold checkCount
  split_ifs with hzero hlong
  · exact ⟨fun _ => ⟨false, rfl⟩, fun hnot => by omega⟩
  · exact ⟨fun hle => by omega, fun _ a h => by cases h⟩
  · exact ⟨fun _ => ⟨_, rfl⟩, fun hnot => by omega⟩

theorem passes_getCurrentCgroupId (env : Env) :
    Passes ((env.statx.ret = 0 ∧ env.statx.ino ≠ 0) ∨ env.cgroup.Harmless 4096) l l
      (fun _ => True) (getCurrentCgroupId env) := by
  unfold getCurrentCgroupId
  split_ifs with hstatx
  · exact (passes_pure trivial).congr (by simp [hstatx])
  · refine Passes.congr ?_
      (passes_withFile env.cgroup.openResult 1 (hashLine_ok env).1 (hashLine_ok env).2)
    rw [or_iff_right hstatx]
    rfl

theorem passes_hugePages (config : BootConfig) (env : Env) :
    Passes (config.enableHugepages = true → env.hugepages.Harmless 32) l l (fun _ => True)
      (if config.enableHugepages then checkHugePages config.hugepagesMin env
        else pure false) := by
  split_ifs with henable
  · refine (passes_withFile env.hugepages.openResult false
      (checkCount_ok config.hugepagesMin env.hugepages).1
      (checkCount_ok config.hugepagesMin env.hugepages).2).congr ?_
    unfold File.Harmless
    exact ⟨fun h _ => h, fun h => h henable⟩
  · exact (passes_pure trivial).congr (by simp [henable])

theorem passes_checkCpuIsolation (env : Env) :
    Passes (env.isolated.toNat = 2 ^ 64 - 1 ∨ env.isolated.toNat < 2 ^ 31) l l (fun _ => True)
      (checkCpuIsolation env) := by
  refine (passes_withFile (c := True) env.isolated () (fun _ => ⟨(), rfl⟩)
    fun hnot => absurd trivial hnot).congr ?_
  rw [and_true]

/-- When the pools are made. -/
theorem initPools_ok (mapping : Option ℕ) (table : Bool) (blockCount blockSize : ℕ) :
    (∃ pools, Gqap.initPools mapping table blockCount blockSize = .ok pools) ↔
      blockCount * blockSize < usizeEnd ∧ blockCount * blockSize ≠ 0 ∧ mapping.isSome = true ∧
        table = true := by
  constructor
  · intro h
    obtain ⟨pools, h⟩ := h
    obtain ⟨total, htotal, h⟩ := Outcome.bind_eq_ok.mp h
    obtain ⟨hlt, rfl⟩ := mul_eq_ok.mp htotal
    cases mapping with
    | none => cases h
    | some backing =>
      dsimp only at h
      split_ifs at h with hzero htable
      exact ⟨hlt, hzero, rfl, by simpa using htable⟩
  · intro h
    obtain ⟨hlt, hzero, hmapping, rfl⟩ := h
    obtain ⟨backing, rfl⟩ := Option.isSome_iff_exists.mp hmapping
    have htotal : (mul blockCount blockSize : Outcome Gqap.InitError ℕ) =
        .ok (blockCount * blockSize) := mul_eq_ok.mpr ⟨hlt, rfl⟩
    unfold Gqap.initPools
    rw [htotal, Outcome.ok_bind]
    dsimp only
    rw [if_neg hzero]
    exact ⟨_, rfl⟩

theorem passes_initPools (config : BootConfig) (env : Env) :
    Passes (config.arenaBlockCount * config.arenaBlockSize < usizeEnd ∧
        config.arenaBlockCount * config.arenaBlockSize ≠ 0 ∧ env.mapping.isSome = true ∧
          env.table = true) l l (fun _ => True) (initPools env config) := by
  have hok := initPools_ok env.mapping env.table config.arenaBlockCount config.arenaBlockSize
  refine passes_of_keeps (fun s => ?_) (fun s hc => ?_) fun s hc a h => ?_
  · unfold Proc.final initPools
    cases Gqap.initPools env.mapping env.table config.arenaBlockCount config.arenaBlockSize with
    | ok pools => rfl
    | err e => rfl
    | trap fault => rfl
  · obtain ⟨pools, hpools⟩ := hok.mpr hc
    refine ⟨(), ?_, trivial⟩
    unfold Proc.result initPools
    rw [hpools]
  · unfold Proc.result initPools at h
    cases hpools : Gqap.initPools env.mapping env.table config.arenaBlockCount
        config.arenaBlockSize with
    | ok pools => exact hc (hok.mp ⟨pools, hpools⟩)
    | err e =>
      rw [hpools] at h
      cases h
    | trap fault =>
      rw [hpools] at h
      cases h

theorem passes_startSanitizerThread (config : BootConfig) (env : Env) :
    Passes (64 ≤ config.sanitizerCore.toNat ∨ env.spawn = true) l l (fun _ => True)
      (startSanitizerThread config env) := by
  unfold startSanitizerThread
  split_ifs with hcore hspawn
  · exact (passes_pure trivial).congr (by simp [hcore])
  · refine passes_of_keeps (fun _ => rfl) (fun _ _ => ⟨true, rfl, trivial⟩) fun _ hnot => ?_
    exact absurd (.inr hspawn) hnot
  · refine passes_of_keeps (fun _ => rfl) (fun _ hc => absurd hc (not_or.mpr ⟨hcore, hspawn⟩)) ?_
    intro s _ a h
    cases h

/-- The calls of a load that goes well. -/
def loadCmds : List BpfCmd := [.mapCreate, .mapCreate, .progLoad, .progLoad, .progLoad]

/-- The `deinit` of a balanced registry leaves nothing that a call has made. -/
theorem dropped_deinit {s : Loader} (h : s.Balanced) : Dropped (s.reg.deinit s.kernel) := by
  have hcommands : (s.reg.deinit s.kernel).commands = s.kernel.commands := by
    rw [deinit_eq]
    exact commands_foldl s.reg.fds s.kernel
  intro c hc i
  rw [hcommands] at hc
  have hreturned : c.2.toNat ∈ s.kernel.returned := by
    unfold Kernel.returned
    rw [List.mem_filterMap]
    exact ⟨c, hc, if_neg (h.succeeded c hc)⟩
  have hheld : (c.2.toNat : ℤ) ∈ s.reg.fds :=
    h.held.mem_iff.mpr (List.mem_map.mpr ⟨_, hreturned, rfl⟩)
  rw [deinit_eq, table_foldl, if_pos hheld]
  simp

theorem loadEbpfPrograms_of_ok {env : Env} {s : Process} {a : Unit} {loader : Loader}
    (h : EbpfRegistry.loadAllEmbedded env.ebpf { kernel := s.kernel } = (.ok a, loader)) :
    loadEbpfPrograms env s = (.ok true, { s with kernel := loader.reg.deinit loader.kernel }) := by
  unfold loadEbpfPrograms
  rw [h]

theorem loadEbpfPrograms_of_ne {env : Env} {s : Process}
    (h : ∀ a, (EbpfRegistry.loadAllEmbedded env.ebpf { kernel := s.kernel }).1 ≠ .ok a) (b : Bool) :
    (loadEbpfPrograms env s).1 ≠ .ok b := by
  unfold loadEbpfPrograms
  rcases hr : EbpfRegistry.loadAllEmbedded env.ebpf { kernel := s.kernel }
    with ⟨a | e | fault, loader⟩
  · rw [hr] at h
    exact absurd rfl (h a)
  · intro hok
    cases hok
  · intro hok
    cases hok

/-- The load closes what it has loaded. -/
theorem passes_loadEbpfPrograms (env : Env) :
    Passes (∀ k < 5, (env.ebpf k).Kept) [] loadCmds (· = true) (loadEbpfPrograms env) := by
  intro s hs hcmds
  have hempty : s.kernel.commands = [] := List.map_eq_nil_iff.mp hcmds
  have hkept : KeptFrom env.ebpf s.kernel.commands.length 5 ↔ ∀ k < 5, (env.ebpf k).Kept := by
    unfold KeptFrom
    simp only [hempty, List.length_nil, Nat.zero_add]
  obtain ⟨hruns, hfails⟩ := acquires_loadAllEmbedded env.ebpf { kernel := s.kernel }
    (balanced_start hempty) (by simp [EbpfRegistry.names])
  constructor
  · intro hc
    obtain ⟨⟨a, hok, -⟩, hbalanced, -, hmade⟩ := hruns (hkept.mpr hc)
    have hr : EbpfRegistry.loadAllEmbedded env.ebpf { kernel := s.kernel } =
        (.ok a, (EbpfRegistry.loadAllEmbedded env.ebpf { kernel := s.kernel }).2) :=
      Prod.ext hok rfl
    rw [loadEbpfPrograms_of_ok hr]
    refine ⟨⟨true, rfl, rfl⟩, dropped_deinit hbalanced, ?_⟩
    unfold cmds
    rw [deinit_eq, commands_foldl]
    refine hmade.trans ?_
    unfold Loader.cmds
    rw [hempty]
    rfl
  · intro hc b
    refine loadEbpfPrograms_of_ne (fun a hok => ?_) b
    rcases hfails (fun h => hc (hkept.mp h)) with ⟨fault, htrap⟩ | ⟨herr, -⟩
    · rw [htrap] at hok
      cases hok
    · rw [herr] at hok
      cases hok

/-- The calls that are made where the configuration asks for the programs. -/
def BootConfig.loadCmds (config : BootConfig) : List BpfCmd :=
  if config.enableEbpf = true then Boot.loadCmds else []

theorem passes_ebpf (config : BootConfig) (env : Env) :
    Passes (config.enableEbpf = true → ∀ k < 5, (env.ebpf k).Kept) [] config.loadCmds
      (· = config.enableEbpf)
      (if config.enableEbpf then loadEbpfPrograms env else pure false) := by
  unfold BootConfig.loadCmds
  split_ifs with henable
  · refine ((passes_loadEbpfPrograms env).imp fun a ha => ?_).congr
      ⟨fun h _ => h, fun h => h henable⟩
    rw [ha, henable]
  · exact (passes_pure (by simpa using henable)).congr (by simp [henable])

/-- The boot returns a result exactly if every step goes well. -/
theorem passes_bootCheck (config : BootConfig) (env : Env) :
    Passes (Starts config env) [] config.loadCmds (fun r => r.ebpfLoaded = config.enableEbpf)
      (bootCheck config env) := by
  have hrest := (passes_getCurrentCgroupId (l := []) env).bind fun cgroupId _ =>
    (passes_ebpf config env).bind fun ebpfLoaded hloaded =>
    (passes_hugePages config env).bind fun hugepagesOk _ =>
    (passes_checkCpuIsolation env).bind fun _ _ =>
    (passes_initPools config env).bind fun _ _ =>
    (passes_startSanitizerThread config env).bind fun sanitizerStarted _ =>
    passes_pure (Q := fun r : BootResult => r.ebpfLoaded = config.enableEbpf)
      (a := BootResult.mk true [] ebpfLoaded (-1) (-1) (-1) hugepagesOk true sanitizerStarted
        cgroupId true) hloaded
  refine (passes_checkKernelVersion hrest).congr ?_
  constructor
  · intro h
    obtain ⟨h₁, h₂, h₃, h₄, h₅, ⟨h₆, h₇, h₈, h₉⟩, h₁₀, -⟩ := h
    exact ⟨h₁, h₂, h₃, h₄, h₅, h₆, h₇, h₈, h₉, h₁₀⟩
  · intro h
    exact ⟨h.kernel, h.cgroup, h.ebpf, h.hugepages, h.isolated,
      ⟨h.pools_fit, h.pools_some, h.mapping, h.table⟩, h.sanitizer, trivial⟩

end Passes

/-- The descriptors of a load that went well are closed when the boot returns. -/
theorem not_reportsInForce {config : BootConfig} {env : Env} (henable : config.enableEbpf = true)
    (hstarts : Starts config env) : ¬ ReportsInForce (bootCheck config env {}) := by
  intro hreports
  obtain ⟨hpass, -⟩ := passes_bootCheck config env {} dropped_start rfl
  obtain ⟨⟨result, hok, hloaded⟩, hdropped, hmade⟩ := hpass hstarts
  unfold BootConfig.loadCmds at hmade
  rw [if_pos henable] at hmade
  have hlast : (cmds (bootCheck config env {}).2)[4]? = some .progLoad := by
    rw [hmade]
    rfl
  unfold cmds at hlast
  rw [List.getElem?_map, Option.map_eq_some_iff] at hlast
  obtain ⟨c, hc, hcmd⟩ := hlast
  exact hdropped c (List.mem_of_getElem? hc) 4
    (hreports result hok (hloaded.trans henable) 4 c hc hcmd)

/-- The boot reports programs that are in force, except where it is to load them and every step goes
well: then it has closed their descriptors. -/
theorem reportsInForce_iff (config : BootConfig) (env : Env) :
    ReportsInForce (bootCheck config env {}) ↔
      ¬ (config.enableEbpf = true ∧ Starts config env) := by
  constructor
  · intro hreports hboth
    exact not_reportsInForce hboth.1 hboth.2 hreports
  · intro hnot result hok hloaded
    obtain ⟨hpass, hstop⟩ := passes_bootCheck config env {} dropped_start rfl
    by_cases hstarts : Starts config env
    · obtain ⟨⟨result', hok', hloaded'⟩, -, -⟩ := hpass hstarts
      rw [hok'] at hok
      cases hok
      exact absurd ⟨hloaded'.symm.trans hloaded, hstarts⟩ hnot
    · exact absurd hok (hstop hstarts result)

/-- A file with these bytes. -/
def fileOf (bytes : List UInt8) : File where
  openResult := 3
  readResult := .ofNat bytes.length
  content i := bytes.getD i 0

/-- `Linux version 5.15.0` -/
def sampleVersion : List UInt8 :=
  [76, 105, 110, 117, 120, 32, 118, 101, 114, 115, 105, 111, 110, 32, 53, 46, 49, 53, 46, 48]

/-- A kernel of that version, where everything succeeds. -/
def sampleEnv : Env where
  version := fileOf sampleVersion
  statx := ⟨0, 4026531835⟩
  cgroup := fileOf []
  wyhash _ := 0
  ebpf k := ⟨.ofNat (k + 4), true⟩
  hugepages := fileOf [48, 10]
  isolated := 3
  mapping := some 65536
  table := true
  spawn := true

theorem sampleEnv_starts : Starts {} sampleEnv where
  kernel := {
    opened := by decide
    some_read := by decide
    room := by decide
    accepted := ⟨⟨5, 15, 0⟩, by decide, by decide⟩ }
  cgroup := .inl (by decide)
  ebpf _ := by decide
  hugepages _ := .inr (by decide)
  isolated := .inr (by decide)
  pools_fit := by decide
  pools_some := by decide
  mapping := rfl
  table := rfl
  sanitizer := .inr rfl

/-- The default configuration reports programs that are gone. -/
theorem protection_dropped : ¬ ReportsInForce (bootCheck {} sampleEnv {}) :=
  not_reportsInForce rfl sampleEnv_starts

end LingNet.Boot
