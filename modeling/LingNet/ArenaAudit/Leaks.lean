import LingNet.ArenaAudit.Probe
import LingNet.Lib.Run

/-! Which releases into the common pool the audit reports as leaks. -/
namespace LingNet.ArenaAudit

/-- The tier of a block's latest allocation, and where the block was released to last since. -/
structure Record where
  tier : UInt8
  released : Option UInt8
  deriving DecidableEq, Repr

def Record.state (r : Record) : UInt8 :=
  match r.released with
  | none => r.tier
  | some destTier => newState destTier

def note (b : UInt64) (r : Option Record) : Probe → Option Record
  | .arenaAlloc ctx => if ctx.blockId = b then some ⟨ctx.tier, none⟩ else r
  | .arenaDeinit ctx =>
    if ctx.blockId = b then r.map fun r => { r with released := some ctx.tier } else r

def record (past : List Probe) (b : UInt64) : Option Record := past.foldl (note b) none

theorem note_of_ne {b : UInt64} {p : Probe} (h : b ≠ p.ctx.blockId) (r : Option Record) :
    note b r p = r := by
  cases p with
  | arenaAlloc ctx => exact if_neg fun heq => h heq.symm
  | arenaDeinit ctx => exact if_neg fun heq => h heq.symm

/-- The call releases a block into the common pool whose latest allocation was untrusted. -/
def Leaks (past : List Probe) (p : Probe) : Prop :=
  ∃ ctx r, p = .arenaDeinit ctx ∧ ctx.tier = 0 ∧ record past ctx.blockId = some r ∧ r.tier = 2

/-- The audit reports a violation for the block. -/
def Reported (m : Maps) (p : Probe) : Prop :=
  ∃ e ∈ (p.fire m).1, e.eventType = .arenaViolation ∧ e.blockId = p.ctx.blockId

/-- The block comes from its allocation, or from the `L2` pool. -/
def Direct (past : List Probe) (p : Probe) : Prop :=
  ∀ r, record past p.ctx.blockId = some r → r.released = none ∨ r.released = some 1

/-- All probes run in monitored cgroups, on blocks of `S`. -/
structure Monitored (lingnetCgroup : BoundedMap UInt64 UInt8) (S : Finset UInt64)
    (probes : List Probe) : Prop where
  cgroups : ∀ p ∈ probes, (lingnetCgroup.lookup p.ctx.cgroupId).isSome
  blocks : ∀ p ∈ probes, p.ctx.blockId ∈ S

section Run

variable {lingnetCgroup : BoundedMap UInt64 UInt8} {S : Finset UInt64} {m : Maps}

/-- One probe changes the state of a block as it changes the record. -/
theorem lookup_fire {p : Probe} {b : UInt64} {r : Option Record}
    (hcgroup : isLingnetCgroup m p.ctx.cgroupId = true) (hS : m.blkState.Within S)
    (hmem : p.ctx.blockId ∈ S) (h : m.blkState.lookup b = r.map Record.state) :
    (p.fire m).2.blkState.lookup b = (note b r p).map Record.state := by
  by_cases hb : b = p.ctx.blockId
  · subst hb
    cases p with
    | arenaAlloc ctx =>
      have hnote : note ctx.blockId r (.arenaAlloc ctx) = some ⟨ctx.tier, none⟩ := if_pos rfl
      change _ = (note ctx.blockId r (.arenaAlloc ctx)).map _
      rw [hnote]
      exact blkState_alloc hcgroup hS hmem
    | arenaDeinit ctx =>
      have hnote : note ctx.blockId r (.arenaDeinit ctx) =
          r.map fun r => { r with released := some ctx.tier } := if_pos rfl
      change _ = (note ctx.blockId r (.arenaDeinit ctx)).map _
      rw [hnote]
      refine (blkState_deinit hcgroup hS hmem).trans ?_
      change (m.blkState.lookup ctx.blockId).map _ = _
      rw [show m.blkState.lookup ctx.blockId = _ from h, Option.map_map, Option.map_map]
      rfl
  · rw [blkState_of_ne hb, note_of_ne hb, h]

theorem lookup_fireAll {probes : List Probe} (hmon : Monitored lingnetCgroup S probes)
    (hcgroups : m.lingnetCgroup = lingnetCgroup) (hS : m.blkState.Within S) {b : UInt64}
    {r : Option Record} (h : m.blkState.lookup b = r.map Record.state) :
    (fireAll m probes).blkState.lookup b = (probes.foldl (note b) r).map Record.state := by
  induction probes generalizing m r with
  | nil => exact h
  | cons p probes ih =>
    obtain ⟨hcgroup, hcgroups'⟩ := List.forall_mem_cons.mp hmon.cgroups
    obtain ⟨hmem, hblocks⟩ := List.forall_mem_cons.mp hmon.blocks
    have hp : isLingnetCgroup m p.ctx.cgroupId = true := by
      unfold isLingnetCgroup
      rw [hcgroups]
      exact hcgroup
    exact ih ⟨hcgroups', hblocks⟩ ((fire_lingnetCgroup p m).trans hcgroups)
      (within_fire hS hmem) (lookup_fire hp hS hmem h)

theorem fireAll_lingnetCgroup (m : Maps) (probes : List Probe) :
    (fireAll m probes).lingnetCgroup = m.lingnetCgroup := by
  induction probes generalizing m with
  | nil => rfl
  | cons p probes ih => exact (ih _).trans (fire_lingnetCgroup p m)

theorem lookup_of_loaded {past : List Probe} (hmon : Monitored lingnetCgroup S past)
    (hcard : S.card ≤ 10240) (b : UInt64) :
    (fireAll (.loaded lingnetCgroup) past).blkState.lookup b =
      (record past b).map Record.state :=
  lookup_fireAll hmon rfl (BoundedMap.within_empty hcard) (BoundedMap.lookup_empty _ b)

theorem state_eq_two {r : Record} (h : r.tier = 2) :
    r.state = 2 ↔ r.released = none ∨ r.released = some 1 := by
  unfold Record.state
  cases hr : r.released with
  | none => simp [h]
  | some destTier =>
    simp only [newState, Option.some.injEq, reduceCtorEq, false_or]
    split_ifs with htwo hone
    · simp [htwo]
    · simp [hone]
    · simp [hone]

theorem reported_iff {ctx : Ctx} (hcgroup : isLingnetCgroup m ctx.cgroupId = true)
    (hcommon : ctx.tier = 0) :
    Reported m (.arenaDeinit ctx) ↔ m.blkState.lookup ctx.blockId = some 2 := by
  unfold Reported
  change (∃ e ∈ (traceArenaDeinit ctx m).1, _) ↔ _
  cases hb : m.blkState.lookup ctx.blockId with
  | none => simp [traceArenaDeinit_of_none hb]
  | some fromTier =>
    rw [traceArenaDeinit_of_some hcgroup hb]
    by_cases htwo : fromTier = 2
    · simp [htwo, hcommon, Ctx.event, Probe.ctx]
    · simp [htwo]

/-- A leak is reported exactly when the block comes straight from its allocation or from the
`L2` pool. -/
theorem reported_iff_direct {past : List Probe} {p : Probe}
    (hmon : Monitored lingnetCgroup S (past ++ [p])) (hcard : S.card ≤ 10240)
    (hleak : Leaks past p) :
    Reported (fireAll (.loaded lingnetCgroup) past) p ↔ Direct past p := by
  obtain ⟨ctx, r, rfl, hcommon, hrecord, htier⟩ := hleak
  have hpast : Monitored lingnetCgroup S past :=
    ⟨fun q hq => hmon.cgroups q (List.mem_append_left _ hq),
      fun q hq => hmon.blocks q (List.mem_append_left _ hq)⟩
  have hcgroup : isLingnetCgroup (fireAll (.loaded lingnetCgroup) past) ctx.cgroupId = true := by
    unfold isLingnetCgroup
    rw [fireAll_lingnetCgroup]
    exact hmon.cgroups (.arenaDeinit ctx) (List.mem_append_right _ (List.mem_singleton_self _))
  rw [reported_iff hcgroup hcommon, lookup_of_loaded hpast hcard, hrecord, Option.map_some,
    Option.some.injEq, state_eq_two htier]
  constructor
  · intro hdirect r' hr'
    cases hrecord.symm.trans hr'
    exact hdirect
  · intro hdirect
    exact hdirect r hrecord

end Run

def stepPast (past : List Probe) (p : Probe) : Option (List Probe) := some (past ++ [p])

def LeakReported (lingnetCgroup : BoundedMap UInt64 UInt8) (past : List Probe) (p : Probe) : Prop :=
  Leaks past p → Reported (fireAll (.loaded lingnetCgroup) past) p

def LeakDirect (past : List Probe) (p : Probe) : Prop := Leaks past p → Direct past p

/-- Every leak of a run is reported exactly when every leaked block comes straight from its
allocation or from the `L2` pool. -/
theorem leaks_reported_iff (lingnetCgroup : BoundedMap UInt64 UInt8) (probes : List Probe)
    (hcgroups : ∀ p ∈ probes, (lingnetCgroup.lookup p.ctx.cgroupId).isSome)
    (hblocks : (probes.map fun p => p.ctx.blockId).toFinset.card ≤ 10240) :
    Run.AllSteps stepPast (LeakReported lingnetCgroup) [] probes ↔
      Run.AllSteps stepPast LeakDirect [] probes := by
  have hin : ∀ p ∈ probes, p.ctx.blockId ∈ (probes.map fun p => p.ctx.blockId).toFinset :=
    fun p hp => List.mem_toFinset.mpr (List.mem_map.mpr ⟨p, hp, rfl⟩)
  refine Run.allSteps_congr_on (I := fun past => ∀ q ∈ past, q ∈ probes) (R := (· ∈ probes))
    (fun past p hpast hp => ?_) (fun past p past' hpast hp _ hstep => ?_) (by simp) fun p hp => hp
  · have hall : ∀ q ∈ past ++ [p], q ∈ probes := by
      simpa [or_imp, forall_and] using ⟨hpast, hp⟩
    exact forall_congr' fun hleak => reported_iff_direct
      ⟨fun q hq => hcgroups q (hall q hq), fun q hq => hin q (hall q hq)⟩ hblocks hleak
  · cases hstep
    simpa [or_imp, forall_and] using ⟨hpast, hp⟩

def cgroup7 : BoundedMap UInt64 UInt8 := (BoundedMap.empty 16).update 7 1

/-- A call about the block at address 4096, in the cgroup 7. -/
def callOf (tier : UInt64) : Ctx := ⟨0, 7, 4096, tier, 1⟩

theorem leaks_reported_l2 : Run.AllSteps stepPast (LeakReported cgroup7) []
    [.arenaAlloc (callOf 2), .arenaDeinit (callOf 1), .arenaDeinit (callOf 0)] := by
  refine (leaks_reported_iff cgroup7 _ (by decide) (by decide)).mpr ⟨?_, ?_⟩
  · rintro ⟨ctx, r, heq, _⟩
    cases heq
  rintro _ ⟨⟩
  refine ⟨?_, ?_⟩
  · rintro ⟨ctx, r, heq, hcommon, _⟩
    cases heq
    cases hcommon
  rintro _ ⟨⟩
  refine ⟨fun _ r hr => ?_, fun _ _ => trivial⟩
  cases hr
  exact .inr rfl

/-- A block released into quarantine and then into the common pool is not. -/
theorem leak_unreported : ¬ Run.AllSteps stepPast (LeakReported cgroup7) []
    [.arenaAlloc (callOf 2), .arenaDeinit (callOf 2), .arenaDeinit (callOf 0)] := by
  intro hall
  have hreported := (((hall.2 _ rfl).2 _ rfl).1) ⟨callOf 0, ⟨2, some 2⟩, rfl, rfl, rfl, rfl⟩
  have hnone : ((Probe.arenaDeinit (callOf 0)).fire (fireAll (.loaded cgroup7)
      [.arenaAlloc (callOf 2), .arenaDeinit (callOf 2)])).1 = [] := by decide
  obtain ⟨e, he, _⟩ := hreported
  exact List.eq_nil_iff_forall_not_mem.mp hnone e he

end LingNet.ArenaAudit
