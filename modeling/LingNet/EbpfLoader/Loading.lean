import LingNet.EbpfLoader.Registry

/-! Loading the embedded programs: which descriptors the registry closes again. -/
namespace LingNet.EbpfLoader
open Zig Function

/-- A call has returned a descriptor, and what it stands for was inserted. -/
def Answer.Kept (answer : Answer) : Prop :=
  answer.result.toNat < 2 ^ 31 ∧ answer.delivers = true

instance : DecidablePred Answer.Kept := fun _ => inferInstanceAs (Decidable (_ ∧ _))

/-- The registry has all descriptors that were returned so far. -/
structure Loader.Balanced (s : Loader) : Prop where
  succeeded : ∀ c ∈ s.kernel.commands, ¬ Failed c.2
  held : s.reg.fds.Perm (s.kernel.returned.map Int.ofNat)

/-- A returned descriptor is in no container. -/
def Loader.Leaks (s : Loader) : Prop := s.reg.fds.length < s.kernel.returned.length

def Loader.cmds (s : Loader) : List BpfCmd := s.kernel.commands.map fun c => c.1.cmd

theorem Loader.length_cmds (s : Loader) : s.cmds.length = s.kernel.commands.length :=
  List.length_map _

theorem not_failed_of_lt {result : UInt64} (h : result.toNat < 2 ^ 31) : ¬ Failed result := by
  unfold Failed
  omega

theorem returned_bpf (command : Command) {result : UInt64} (h : ¬ Failed result) (k : Kernel) :
    (k.bpf command result).returned = k.returned ++ [result.toNat] := by
  unfold Kernel.returned Kernel.bpf
  rw [List.filterMap_append]
  simp [h]

/-- `n` calls are kept from number `m` on. -/
def KeptFrom (answers : ℕ → Answer) (m n : ℕ) : Prop := ∀ i < n, (answers (m + i)).Kept

/-- A run that stops the process, or loses a descriptor. -/
def GoesWrong {α : Type} (r : Outcome EbpfError α × Loader) : Prop :=
  (∃ fault, r.1 = .trap fault) ∨ r.1 = .err .outOfMemory ∧ r.2.Leaks

/-- The calls `cmds` are made, and their results inserted, under the keys `names` if they are maps.
A value that is returned meets `Q`. -/
structure Run {α : Type} (cmds : List BpfCmd) (names : List String) (Q : α → Prop) (s : Loader)
    (r : Outcome EbpfError α × Loader) : Prop where
  returns : ∃ a, r.1 = .ok a ∧ Q a
  balanced : r.2.Balanced
  names_eq : r.2.reg.names = s.reg.names ++ names
  cmds_eq : r.2.cmds = s.cmds ++ cmds

/-- The calls are made and their results inserted exactly if each is kept; the first that is not
goes wrong. -/
def Acquires {α : Type} (answers : ℕ → Answer) (cmds : List BpfCmd) (names : List String)
    (Q : α → Prop) (x : Proc Loader EbpfError α) : Prop :=
  ∀ s : Loader, s.Balanced → (∀ name ∈ names, name ∉ s.reg.names) →
    (KeptFrom answers s.kernel.commands.length cmds.length → Run cmds names Q s (x s)) ∧
      (¬ KeptFrom answers s.kernel.commands.length cmds.length → GoesWrong (x s))

section Acquires

variable {α β : Type} {answers : ℕ → Answer} {cmds cmds' : List BpfCmd}
  {names names' : List String} {Q : α → Prop} {Q' : β → Prop}

theorem keptFrom_zero (m : ℕ) : KeptFrom answers m 0 := fun i hi => absurd hi (Nat.not_lt_zero i)

theorem keptFrom_one (m : ℕ) : KeptFrom answers m 1 ↔ (answers m).Kept := by
  unfold KeptFrom
  simp

/-- The calls of a sequence are kept if those of both parts are. -/
theorem keptFrom_add (m n n' : ℕ) :
    KeptFrom answers m (n + n') ↔ KeptFrom answers m n ∧ KeptFrom answers (m + n) n' := by
  constructor
  · intro h
    refine ⟨fun i hi => h i (by omega), fun i hi => ?_⟩
    have hlast := h (n + i) (by omega)
    rwa [← Nat.add_assoc] at hlast
  · intro h i hi
    obtain ⟨hfirst, hlast⟩ := h
    by_cases hlt : i < n
    · exact hfirst i hlt
    · have hkept := hlast (i - n) (by omega)
      have hindex : m + n + (i - n) = m + i := by omega
      rwa [hindex] at hkept

theorem acquires_pure {a : α} (h : Q a) : Acquires answers [] [] Q (pure a) := by
  intro s hs _
  refine ⟨fun _ => ⟨⟨a, rfl, h⟩, hs, (List.append_nil _).symm, (List.append_nil _).symm⟩, ?_⟩
  intro hnot
  exact absurd (keptFrom_zero _) hnot

theorem Acquires.bind {x : Proc Loader EbpfError α} {f : α → Proc Loader EbpfError β}
    (hx : Acquires answers cmds names Q x)
    (hf : ∀ a, Q a → Acquires answers cmds' names' Q' (f a))
    (hdisjoint : ∀ name ∈ names', name ∉ names) :
    Acquires answers (cmds ++ cmds') (names ++ names') Q' (x >>= f) := by
  intro s hs hnames
  rw [List.length_append, keptFrom_add]
  have hfresh : ∀ name ∈ names, name ∉ s.reg.names := fun name hname =>
    hnames name (List.mem_append_left _ hname)
  obtain ⟨hruns, hfails⟩ := hx s hs hfresh
  by_cases hkept : KeptFrom answers s.kernel.commands.length cmds.length
  · obtain ⟨⟨a, hok, ha⟩, hs', hput, hmade⟩ := hruns hkept
    have hr : x s = (.ok a, (x s).2) := Prod.ext hok rfl
    have hlength : (x s).2.kernel.commands.length =
        s.kernel.commands.length + cmds.length := by
      have hcongr := congrArg List.length hmade
      rwa [List.length_append, Loader.length_cmds, Loader.length_cmds] at hcongr
    have hfresh' : ∀ name ∈ names', name ∉ (x s).2.reg.names := by
      intro name hname hmem
      rw [hput, List.mem_append] at hmem
      rcases hmem with hold | hnew
      · exact hnames name (List.mem_append_right _ hname) hold
      · exact hdisjoint name hname hnew
    obtain ⟨hruns', hfails'⟩ := hf a ha (x s).2 hs' hfresh'
    rw [hlength] at hruns' hfails'
    rw [Proc.bind_of_ok hr, and_iff_right hkept]
    refine ⟨fun hall => ?_, hfails'⟩
    obtain ⟨hok', hs'', hput', hmade'⟩ := hruns' hall
    refine ⟨hok', hs'', ?_, ?_⟩
    · rw [hput', hput, List.append_assoc]
    · rw [hmade', hmade, List.append_assoc]
  · refine ⟨fun hall => absurd hall.1 hkept, fun _ => ?_⟩
    have hwrong := hfails hkept
    rcases hr : x s with ⟨a | e | fault, s'⟩
    · rw [hr] at hwrong
      simp [GoesWrong] at hwrong
    · rw [hr] at hwrong
      rw [Proc.bind_of_err hr]
      simpa [GoesWrong] using hwrong
    · rw [Proc.bind_of_trap hr]
      exact .inl ⟨fault, rfl⟩

/-- A computation that leaves the state alone and does not fail. -/
theorem acquires_lift {a : α} (h : Q a) :
    Acquires answers [] [] Q (Proc.lift (.ok a)) := acquires_pure h

/-- What a call, its check and its insertion come to. -/
theorem acquire_run (command : Command) (failed : EbpfError) (make : ℤ → α)
    (insert : α → EbpfRegistry → EbpfRegistry) (s : Loader) :
    acquire answers command failed make insert s =
      if (answers s.kernel.commands.length).result.toNat < 2 ^ 31 then
        if (answers s.kernel.commands.length).delivers = true then
          (.ok (make (answers s.kernel.commands.length).result.toNat),
            { kernel := s.kernel.bpf command (answers s.kernel.commands.length).result
              reg := insert (make (answers s.kernel.commands.length).result.toNat) s.reg })
        else (.err .outOfMemory,
          { s with kernel := s.kernel.bpf command (answers s.kernel.commands.length).result })
      else (.trap .integerCast,
        { s with kernel := s.kernel.bpf command (answers s.kernel.commands.length).result }) := by
  have hcall : bpf answers command s = (.ok (answers s.kernel.commands.length),
      { s with kernel := s.kernel.bpf command (answers s.kernel.commands.length).result }) := rfl
  unfold acquire
  rw [Proc.bind_of_ok hcall, if_neg (Nat.not_lt_zero _)]
  by_cases hfd : (answers s.kernel.commands.length).result.toNat < 2 ^ 31
  · rw [if_pos hfd, Proc.lift_bind_of_ok (intCast_of_lt hfd)]
    by_cases hdelivers : (answers s.kernel.commands.length).delivers = true
    · rw [if_pos hdelivers, if_pos hdelivers]
      rfl
    · rw [if_neg hdelivers, if_neg hdelivers]
      rfl
  · have htrap : (intCast 31 (answers s.kernel.commands.length).result.toNat :
        Outcome EbpfError ℕ) = .trap .integerCast := intCast_of_le (Nat.not_lt.mp hfd)
    rw [if_neg hfd, htrap]
    rfl

/-- An insertion under fresh names adds the descriptor. -/
theorem acquires_acquire {command : Command} {cmd : BpfCmd} (hcmd : command.cmd = cmd)
    {failed : EbpfError} {make : ℤ → α} {insert : α → EbpfRegistry → EbpfRegistry}
    (hmake : ∀ fd : ℕ, Q (make fd))
    (hinsert : ∀ (fd : ℤ) (reg : EbpfRegistry), (∀ name ∈ names, name ∉ reg.names) →
      (insert (make fd) reg).fds.Perm (reg.fds ++ [fd]) ∧
        (insert (make fd) reg).names = reg.names ++ names) :
    Acquires answers [cmd] names Q (acquire answers command failed make insert) := by
  intro s hs hnames
  subst hcmd
  rw [acquire_run, List.length_singleton, keptFrom_one]
  unfold Answer.Kept
  by_cases hfd : (answers s.kernel.commands.length).result.toNat < 2 ^ 31
  swap
  · rw [if_neg hfd]
    exact ⟨fun hkept => absurd hkept.1 hfd, fun _ => .inl ⟨_, rfl⟩⟩
  have hreturned := returned_bpf command (not_failed_of_lt hfd) s.kernel
  rw [if_pos hfd]
  by_cases hdelivers : (answers s.kernel.commands.length).delivers = true
  · obtain ⟨hfds, hput⟩ :=
      hinsert (answers s.kernel.commands.length).result.toNat s.reg hnames
    rw [if_pos hdelivers]
    refine ⟨fun _ => ⟨⟨_, rfl, hmake _⟩, ?_, hput, ?_⟩, fun hnot => absurd ⟨hfd, hdelivers⟩ hnot⟩
    · constructor
      · intro c hc
        rcases List.mem_append.mp hc with hold | hnew
        · exact hs.succeeded c hold
        · rw [List.mem_singleton.mp hnew]
          exact not_failed_of_lt hfd
      · show (insert _ s.reg).fds.Perm _
        rw [hreturned, List.map_append]
        exact hfds.trans (hs.held.append_right _)
    · unfold Loader.cmds Kernel.bpf
      rw [List.map_append]
      rfl
  · rw [if_neg hdelivers]
    refine ⟨fun hkept => absurd hkept.2 hdelivers, fun _ => .inr ⟨rfl, ?_⟩⟩
    show s.reg.fds.length < _
    rw [hreturned, List.length_append, hs.held.length_eq, List.length_map]
    exact Nat.lt_succ_self _

theorem acquires_createMap (mapType : MapType) (keySize valueSize maxEntries : ℕ) (name : String) :
    Acquires answers [.mapCreate] [name] (fun map => 0 ≤ map.fd)
      (EbpfRegistry.createMap answers mapType keySize valueSize maxEntries name) := by
  unfold EbpfRegistry.createMap
  refine acquires_acquire ?_ ?_ ?_
  · rfl
  · intro fd
    exact Int.natCast_nonneg fd
  · intro fd reg hnames
    have hfresh : name ∉ reg.names := hnames name (List.mem_singleton.mpr rfl)
    refine ⟨by rw [fds_put hfresh], ?_⟩
    rw [put_of_fresh hfresh]
    exact List.map_append

theorem acquires_loadProgramRaw {insns : List (BitVec 64)} (hne : insns.length ≠ 0)
    (hlt : insns.length < 2 ^ 32) (progType : ProgType) (name : String) :
    Acquires answers [.progLoad] [] (fun _ => True)
      (EbpfRegistry.loadProgramRaw answers insns progType name) := by
  unfold EbpfRegistry.loadProgramRaw
  rw [if_neg hne]
  have hcnt : (intCast 32 insns.length : Outcome EbpfError ℕ) = .ok insns.length :=
    intCast_of_lt hlt
  rw [hcnt]
  refine (acquires_lift (Q := fun _ => True) trivial).bind (fun n _ => ?_) (by simp)
  refine acquires_acquire ?_ ?_ ?_
  · rfl
  · intro _
    trivial
  · intro fd reg _
    exact ⟨fds_append _ reg, (List.append_nil _).symm⟩

theorem acquires_mapFd {map : BpfMap} (h : 0 ≤ map.fd) :
    Acquires answers [] [] (fun _ => True) (Proc.lift (mapFd map)) := by
  unfold mapFd
  rw [if_pos h]
  exact acquires_lift trivial

theorem acquires_loadAllEmbedded (answers : ℕ → Answer) :
    Acquires answers [.mapCreate, .mapCreate, .progLoad, .progLoad, .progLoad]
      ["syscall_count", "clone_audit"] (fun _ => True) (EbpfRegistry.loadAllEmbedded answers) := by
  unfold EbpfRegistry.loadAllEmbedded
  refine (acquires_createMap .hash 4 8 1024 "syscall_count").bind (fun map1 hmap1 => ?_)
    (by decide)
  refine (acquires_createMap .hash 4 8 1024 "clone_audit").bind
    (fun map2 hmap2 => ?_) (by decide)
  refine (acquires_mapFd hmap1).bind (fun mapFd1 _ => ?_) (by decide)
  refine (acquires_loadProgramRaw (by simp [prog1Insns])
    (by simp [prog1Insns]) .tracepoint "runtime_monitor").bind (fun _ _ => ?_) (by decide)
  refine (acquires_mapFd hmap2).bind (fun mapFd2 _ => ?_) (by decide)
  refine (acquires_loadProgramRaw (by simp [prog2Insns])
    (by simp [prog2Insns]) .kprobe "arena_audit").bind (fun _ _ => ?_) (by decide)
  refine (acquires_loadProgramRaw (by simp [prog3Insns])
    (by simp [prog3Insns]) .lsm "lsm_policy").bind (fun _ _ => ?_) (by decide)
  exact acquires_pure trivial

end Acquires

/-- Loading never traps, reports every failed call, and after `deinit` just the descriptors that
calls have returned are closed, each once. -/
structure LoadsCleanly (answers : ℕ → Answer) : Prop where
  no_trap : ∀ fault, (EbpfRegistry.loadAllEmbedded answers).result {} ≠ .trap fault
  reported : (∃ c ∈ ((EbpfRegistry.loadAllEmbedded answers).final {}).kernel.commands, Failed c.2) →
    ∃ e, (EbpfRegistry.loadAllEmbedded answers).result {} = .err e
  closed : (((EbpfRegistry.loadAllEmbedded answers).final {}).reg.deinit
      ((EbpfRegistry.loadAllEmbedded answers).final {}).kernel).closed.Perm
    ((EbpfRegistry.loadAllEmbedded answers).final {}).kernel.returned

/-- Before the first call there is nothing to hold. -/
theorem balanced_start {k : Kernel} (h : k.commands = []) : Loader.Balanced { kernel := k } where
  succeeded c hc := by
    rw [h] at hc
    exact absurd hc List.not_mem_nil
  held := by
    unfold Kernel.returned
    rw [h]
    exact .nil

/-- A call of the loader that closes no descriptor. -/
def ClosesNothing {α : Type} (x : Proc Loader EbpfError α) : Prop :=
  ∀ s, (x.final s).kernel.closed = s.kernel.closed

section ClosesNothing

variable {α β : Type} {x : Proc Loader EbpfError α} {f : α → Proc Loader EbpfError β}

theorem closesNothing_lift (o : Outcome EbpfError α) : ClosesNothing (Proc.lift o) := fun _ => rfl

theorem ClosesNothing.bind (hx : ClosesNothing x) (hf : ∀ a, ClosesNothing (f a)) :
    ClosesNothing (x >>= f) := Proc.bind_keeps (fun s : Loader => s.kernel.closed) hx hf

theorem closesNothing_acquire (answers : ℕ → Answer) (command : Command) (failed : EbpfError)
    (make : ℤ → α) (insert : α → EbpfRegistry → EbpfRegistry) :
    ClosesNothing (acquire answers command failed make insert) := by
  intro s
  unfold Proc.final
  rw [acquire_run]
  split_ifs
  · rfl
  · rfl
  · rfl

theorem closesNothing_loadProgramRaw (answers : ℕ → Answer) (insns : List (BitVec 64))
    (progType : ProgType) (name : String) :
    ClosesNothing (EbpfRegistry.loadProgramRaw answers insns progType name) := by
  unfold EbpfRegistry.loadProgramRaw
  split_ifs
  · exact closesNothing_lift _
  · exact (closesNothing_lift _).bind fun _ => closesNothing_acquire answers _ _ _ _

theorem closesNothing_loadAllEmbedded (answers : ℕ → Answer) :
    ClosesNothing (EbpfRegistry.loadAllEmbedded answers) := by
  unfold EbpfRegistry.loadAllEmbedded
  refine (closesNothing_acquire answers _ _ _ _).bind fun _ => ?_
  refine (closesNothing_acquire answers _ _ _ _).bind fun _ => ?_
  refine (closesNothing_lift _).bind fun _ => ?_
  refine (closesNothing_loadProgramRaw answers _ _ _).bind fun _ => ?_
  refine (closesNothing_lift _).bind fun _ => ?_
  refine (closesNothing_loadProgramRaw answers _ _ _).bind fun _ => ?_
  exact (closesNothing_loadProgramRaw answers _ _ _).bind fun _ => closesNothing_lift (.ok ())

end ClosesNothing

/-- A balanced registry closes what was returned. -/
theorem Loader.Balanced.deinit {s : Loader} (h : s.Balanced) (hclosed : s.kernel.closed = []) :
    (s.reg.deinit s.kernel).closed.Perm s.kernel.returned := by
  rw [deinit_eq, closed_foldl, hclosed, List.nil_append]
  have hperm := (h.held.filter fun fd => 0 ≤ fd).map Int.toNat
  have hall : (s.kernel.returned.map Int.ofNat).filter (fun fd => 0 ≤ fd) =
      s.kernel.returned.map Int.ofNat := by
    rw [List.filter_eq_self]
    intro fd hfd
    obtain ⟨n, -, rfl⟩ := List.mem_map.mp hfd
    simp
  have hcast : (s.kernel.returned.map Int.ofNat).map Int.toNat = s.kernel.returned := by
    rw [List.map_map]
    exact List.map_id _
  rwa [hall, hcast] at hperm

theorem Loader.Leaks.deinit {s : Loader} (h : s.Leaks) (hclosed : s.kernel.closed = []) :
    ¬ (s.reg.deinit s.kernel).closed.Perm s.kernel.returned := by
  intro hperm
  have hlength := hperm.length_eq
  rw [deinit_eq, closed_foldl, hclosed, List.nil_append, List.length_map] at hlength
  have hfilter := List.length_filter_le (fun fd : ℤ => decide (0 ≤ fd)) s.reg.fds
  unfold Loader.Leaks at h
  omega

/-- Loading is clean exactly if all five calls return descriptors and all five insertions find
memory: no other course of events is. -/
theorem loadsCleanly_iff (answers : ℕ → Answer) :
    LoadsCleanly answers ↔ ∀ k < 5, (answers k).Kept := by
  have hindex : KeptFrom answers 0 5 ↔ ∀ k < 5, (answers k).Kept := by
    unfold KeptFrom
    simp only [Nat.zero_add]
  obtain ⟨hruns, hfails⟩ := acquires_loadAllEmbedded answers {} (balanced_start rfl)
    (by simp [EbpfRegistry.names])
  have hclosed := closesNothing_loadAllEmbedded answers {}
  rw [← hindex]
  constructor
  · intro hclean
    by_contra hnot
    rcases hfails hnot with ⟨fault, htrap⟩ | ⟨-, hleaks⟩
    · exact hclean.no_trap fault htrap
    · exact hleaks.deinit hclosed hclean.closed
  · intro hkept
    obtain ⟨⟨_, hok, -⟩, hbalanced, -, -⟩ := hruns hkept
    refine ⟨fun fault htrap => ?_, fun hfailed => ?_, hbalanced.deinit hclosed⟩
    · have hne := hok.symm.trans htrap
      cases hne
    · obtain ⟨c, hc, hfailed⟩ := hfailed
      exact absurd hfailed (hbalanced.succeeded c hc)

/-- `-EPERM`. -/
def refusal : Answer where
  result := .ofNat (2 ^ 64 - 1)
  delivers := true

/-- The kernel refuses the first map. -/
theorem refusal_traps : Failed refusal.result ∧ ¬ LoadsCleanly fun _ => refusal := by
  refine ⟨by decide, fun hclean => ?_⟩
  exact hclean.no_trap .integerCast rfl

end LingNet.EbpfLoader
