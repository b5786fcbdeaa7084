import LingNet.ArenaAudit.Probe
import LingNet.Gqap.Conservation

/-! The audit beside the pools: every client action fires its probe, and the state that the
audit keeps of a block follows the place of the block. -/
namespace LingNet.ArenaAudit
open Gqap Function

structure Caller where
  pidTgid : UInt64
  cgroupId : UInt64
  deriving DecidableEq, Repr

/-- The pools, the maps of the audit and the events so far, oldest first. -/
structure Audited where
  system : System
  maps : Maps
  events : List ArenaEvent

/-- 1 for trusted, 2 for untrusted. -/
def tierCode : SecurityTier → UInt8
  | .trusted => 1
  | .untrusted => 2

/-- 0 for the common pool, 1 for the `L2` pool, 2 for quarantine. -/
def destCode : PoolId → UInt8
  | .common => 0
  | .l2 => 1
  | .quarantine => 2

/-- Where `deinit` puts the block. -/
def deinitPool : SecurityTier → PoolId
  | .trusted => .common
  | .untrusted => .quarantine

/-- Where `deinitAndZero` puts the block. -/
def zeroPool : SecurityTier → PoolId
  | .trusted => .common
  | .untrusted => .l2

section Probes

variable (addr : BlockId → UInt64) (who : Caller)

def ctxOf (b : BlockId) (code : UInt8) (gen : ℕ) : Ctx where
  pidTgid := who.pidTgid
  cgroupId := who.cgroupId
  parm1 := addr b
  parm2 := code.toUInt64
  parm3 := UInt64.ofNat gen

/-- The probe of a client action, where `addr` gives the address of a block's metadata. The
sanitizer has none, and neither has a call that fails. -/
def probe (σ : System) : Op → Option Probe
  | .init tier =>
    match Arena.init tier σ.globals with
    | .ok (a, _) => some (.arenaAlloc (ctxOf addr who a.block (tierCode tier) a.generation))
    | _ => none
  | .deinit i => σ.live[i]?.map fun h => .arenaDeinit (ctxOf addr who h.arena.block
      (destCode (deinitPool h.arena.tier)) σ.globals.currentGeneration)
  | .deinitAndZero i => σ.live[i]?.map fun h => .arenaDeinit (ctxOf addr who h.arena.block
      (destCode (zeroPool h.arena.tier)) σ.globals.currentGeneration)
  | _ => none

/-- What an action makes the audit report and keep. -/
def observe (m : Maps) : Option Probe → List ArenaEvent × Maps
  | none => ([], m)
  | some p => p.fire m

def Audited.step (x : Audited) (call : Caller × Op) : Option Audited :=
  (Gqap.step x.system call.2).map fun σ' =>
    let (events, maps) := observe x.maps (probe addr call.1 x.system call.2)
    ⟨σ', maps, x.events ++ events⟩

end Probes

def Audited.start (s : Globals) (lingnetCgroup : BoundedMap UInt64 UInt8) : Audited :=
  ⟨booted s, .loaded lingnetCgroup, []⟩

/-- The call raises no event. -/
def Silent (addr : BlockId → UInt64) (x : Audited) (call : Caller × Op) : Prop :=
  ∀ x', x.step addr call = some x' → x'.events = x.events

/-- The call does not make an untrusted arena of a block that one had before: the `L2` pool is
empty, and the quarantine is not asked for a block that is due. -/
def Unused (x : Audited) (call : Caller × Op) : Prop :=
  call.2 = .init .untrusted → (x.system.globals.pool .l2).head = none ∧
    ∀ b, (x.system.globals.pool .common).head = none →
      (x.system.globals.pool .quarantine).head = some b →
        x.system.globals.currentGeneration ≤ (x.system.globals.blocks b).retiredGen + 1

/-- The states of a block that fit its place: an `L2` block keeps the 3 it got in quarantine,
or has the 2 of a synchronous release. -/
def Fits : Custody.Place PoolId SecurityTier → Option UInt8 → Prop
  | .pool .common, state => state = none ∨ state = some 0
  | .pool .quarantine, state => state = some 3
  | .pool .l2, state => state = some 2 ∨ state = some 3
  | .holder tier, state => state = some (tierCode tier)

theorem tier_ctxOf (addr : BlockId → UInt64) (who : Caller) (b : BlockId) (code : UInt8)
    (gen : ℕ) : (ctxOf addr who b code gen).tier = code := by
  unfold Ctx.tier ctxOf
  exact UInt8.toUInt8_toUInt64 code

/-! What the successful calls fire. -/

section Steps

variable {addr : BlockId → UInt64} {who : Caller} {σ σ' : System} {tier : SecurityTier}

theorem init_of_step {a : Arena} {s : Globals}
    (h : step σ (.init tier) = some ⟨s, ⟨a, []⟩ :: σ.live⟩) :
    Arena.init tier σ.globals = .ok (a, s) := by
  simp only [step] at h
  split at h
  · rename_i hok
    cases h
    exact hok
  · have hlen := congrArg (fun σ => σ.map fun σ => σ.live.length) h
    simp at hlen
  · cases h

theorem probe_init_of_step {a : Arena} {s : Globals}
    (h : step σ (.init tier) = some ⟨s, ⟨a, []⟩ :: σ.live⟩) :
    probe addr who σ (.init tier) =
      some (.arenaAlloc (ctxOf addr who a.block (tierCode tier) a.generation)) := by
  simp only [probe, init_of_step h]

theorem probe_init_exhausted (h : step σ (.init tier) = some σ) :
    probe addr who σ (.init tier) = none := by
  simp only [step] at h
  split at h
  · have hlen := congrArg (fun σ => σ.map fun σ => σ.live.length) h
    simp at hlen
  · rename_i herr
    simp only [probe, herr]
  · cases h

theorem probe_deinit {i : ℕ} {h : Handle} (hi : σ.live[i]? = some h) (ht : h.arena.tier = tier) :
    probe addr who σ (.deinit i) = some (.arenaDeinit (ctxOf addr who h.arena.block
      (destCode (deinitPool tier)) σ.globals.currentGeneration)) := by
  simp only [probe, hi, Option.map_some, ht]

theorem probe_deinitAndZero {i : ℕ} {h : Handle} (hi : σ.live[i]? = some h)
    (ht : h.arena.tier = tier) :
    probe addr who σ (.deinitAndZero i) = some (.arenaDeinit (ctxOf addr who h.arena.block
      (destCode (zeroPool tier)) σ.globals.currentGeneration)) := by
  simp only [probe, hi, Option.map_some, ht]

end Steps

/-- The sanitizer moves a block without a probe: the block keeps its 3. -/
theorem labelled_sanitized {c : Holdings} {f : BlockId → Option UInt8} {b : BlockId}
    {l : List BlockId} (h : c.Labelled Fits f) (hp : c.stack .quarantine = b :: l)
    (hnodup : (⟨update (update c.stack .quarantine l) .l2 (b :: c.stack .l2), c.held⟩ :
      Holdings).total.Nodup) :
    Custody.State.Labelled Fits
      ⟨update (update c.stack .quarantine l) .l2 (b :: c.stack .l2), c.held⟩ f := by
  have hat : c.At b (.pool .quarantine) := by
    change b ∈ c.stack .quarantine
    rw [hp]
    exact List.mem_cons_self
  have hnew : (⟨update (update c.stack .quarantine l) .l2 (b :: c.stack .l2), c.held⟩ :
      Holdings).At b (.pool .l2) := by
    change b ∈ update (update c.stack .quarantine l) .l2 (b :: c.stack .l2) .l2
    rw [update_self]
    exact List.mem_cons_self
  exact h.relocate hnodup hnew (.inr (h b _ hat)) (fun a z hab haz => haz.of_transfer hp hab)
    fun _ _ _ _ => rfl

/-! The invariant: the audit's states fit the places of the blocks. -/

structure Watched (addr : BlockId → UInt64) (lingnetCgroup : BoundedMap UInt64 UInt8)
    (backing blockCount blockSize : ℕ) (x : Audited) (c : Holdings) : Prop where
  wf : Wf backing blockCount blockSize x.system c
  cgroups : x.maps.lingnetCgroup = lingnetCgroup
  within : x.maps.blkState.Within ((Finset.range blockCount).image addr)
  labelled : c.Labelled Fits fun b => x.maps.blkState.lookup (addr b)

section Invariant

variable {addr : BlockId → UInt64} {lingnetCgroup : BoundedMap UInt64 UInt8}
  {backing blockCount blockSize : ℕ} {x x' : Audited} {c c' : Holdings} {who : Caller} {op : Op}

theorem lt_of_at {σ : System} (hwf : Wf backing blockCount blockSize σ c) {b : BlockId}
    {y : Custody.Place PoolId SecurityTier} (h : c.At b y) : b < blockCount := by
  have hmem := h.mem_total
  rw [hwf.total] at hmem
  exact Multiset.mem_range.mp hmem

theorem addr_mem {σ : System} (hwf : Wf backing blockCount blockSize σ c) {b : BlockId}
    {y : Custody.Place PoolId SecurityTier} (h : c.At b y) :
    addr b ∈ (Finset.range blockCount).image addr :=
  Finset.mem_image_of_mem addr (Finset.mem_range.mpr (lt_of_at hwf h))

theorem Watched.monitored (w : Watched addr lingnetCgroup backing blockCount blockSize x c)
    (hcgroup : (lingnetCgroup.lookup who.cgroupId).isSome) :
    isLingnetCgroup x.maps who.cgroupId = true := by
  unfold isLingnetCgroup
  rw [w.cgroups]
  exact hcgroup

/-- A call about one block that moves this block and no other. -/
theorem Watched.fire (w : Watched addr lingnetCgroup backing blockCount blockSize x c)
    (hinj : Set.InjOn addr {b | b < blockCount}) {p : Probe} {σ' : System} {b : BlockId}
    {y : Custody.Place PoolId SecurityTier} {events : List ArenaEvent}
    (hwf : Wf backing blockCount blockSize σ' c') (hp : p.ctx.blockId = addr b)
    (hb : c'.At b y) (hfits : Fits y ((p.fire x.maps).2.blkState.lookup (addr b)))
    (hother : ∀ a z, a ≠ b → c'.At a z → c.At a z) :
    Watched addr lingnetCgroup backing blockCount blockSize ⟨σ', (p.fire x.maps).2, events⟩ c' := by
  have hmem : p.ctx.blockId ∈ (Finset.range blockCount).image addr := by
    rw [hp]
    exact addr_mem hwf hb
  refine ⟨hwf, (fire_lingnetCgroup p x.maps).trans w.cgroups, within_fire w.within hmem, ?_⟩
  refine w.labelled.relocate hwf.nodup hb hfits hother fun a z hab haz => ?_
  apply blkState_of_ne
  rw [hp]
  exact fun heq => hab (hinj (lt_of_at hwf haz) (lt_of_at hwf hb) heq)

theorem step_eq_some (h : x.step addr (who, op) = some x') :
    Gqap.step x.system op = some x'.system ∧
      x'.maps = (observe x.maps (probe addr who x.system op)).2 ∧
      x'.events = x.events ++ (observe x.maps (probe addr who x.system op)).1 := by
  obtain ⟨σ', hσ, rfl⟩ := Option.map_eq_some_iff.mp h
  exact ⟨hσ, rfl, rfl⟩

theorem traceArenaAlloc_eq_nil {ctx : Ctx} {m : Maps} (h : isLingnetCgroup m ctx.cgroupId = true) :
    (traceArenaAlloc ctx m).1 = [] ↔
      m.blkState.lookup ctx.blockId = none ∨ m.blkState.lookup ctx.blockId = some 0 := by
  rw [traceArenaAlloc_of_monitored h]
  cases m.blkState.lookup ctx.blockId with
  | none => simp
  | some oldState => simp

/-- A release is silent unless it takes a block of state 2 to the common pool. -/
theorem traceArenaDeinit_eq_nil {ctx : Ctx} {m : Maps} (h : isLingnetCgroup m ctx.cgroupId = true)
    (hleak : m.blkState.lookup ctx.blockId = some 2 → ctx.tier ≠ 0) :
    (traceArenaDeinit ctx m).1 = [] := by
  cases hb : m.blkState.lookup ctx.blockId with
  | none => rw [traceArenaDeinit_of_none hb]
  | some fromTier =>
    rw [traceArenaDeinit_of_some h hb]
    refine if_neg fun hboth => ?_
    rw [hboth.1] at hb
    exact hleak hb hboth.2

theorem blockId_ctxOf (addr : BlockId → UInt64) (who : Caller) (b : BlockId) (code : UInt8)
    (gen : ℕ) : (ctxOf addr who b code gen).blockId = addr b := rfl

theorem Watched.take (w : Watched addr lingnetCgroup backing blockCount blockSize x c)
    (hinj : Set.InjOn addr {b | b < blockCount})
    (hcgroup : (lingnetCgroup.lookup who.cgroupId).isSome) {tier : SecurityTier} {p : PoolId}
    {b : BlockId} {l : List BlockId} {gen : ℕ} (hp : c.stack p = b :: l)
    (hprobe : probe addr who x.system op =
      some (.arenaAlloc (ctxOf addr who b (tierCode tier) gen)))
    (h : x.step addr (who, op) = some x')
    (hwf : Wf backing blockCount blockSize x'.system
      ⟨update c.stack p l, (tier, b) :: c.held⟩) :
    Watched addr lingnetCgroup backing blockCount blockSize x'
        ⟨update c.stack p l, (tier, b) :: c.held⟩ ∧
      (x'.events = x.events ↔ p = .common) := by
  obtain ⟨_, hmaps, hevents⟩ := step_eq_some h
  rw [hprobe] at hmaps hevents
  obtain ⟨σ', maps, events⟩ := x'
  obtain rfl : maps = _ := hmaps
  have hmon : isLingnetCgroup x.maps (ctxOf addr who b (tierCode tier) gen).cgroupId = true :=
    w.monitored hcgroup
  have hat : c.At b (.pool p) := by
    change b ∈ c.stack p
    rw [hp]
    exact List.mem_cons_self
  have hmem : (ctxOf addr who b (tierCode tier) gen).blockId ∈
      (Finset.range blockCount).image addr := addr_mem w.wf hat
  constructor
  · refine w.fire hinj hwf rfl (y := .holder tier) List.mem_cons_self ?_
      fun a z hab haz => haz.of_take hp hab
    have hstate := blkState_alloc hmon w.within hmem
    rw [tier_ctxOf] at hstate
    exact hstate
  · rw [show events = _ from hevents, List.append_right_eq_self]
    refine (traceArenaAlloc_eq_nil hmon).trans ?_
    rw [blockId_ctxOf]
    have hlabel : Fits (.pool p) (x.maps.blkState.lookup (addr b)) := w.labelled b _ hat
    cases p with
    | common => exact iff_of_true hlabel rfl
    | quarantine =>
      rw [show x.maps.blkState.lookup (addr b) = some 3 from hlabel]
      decide
    | l2 =>
      rcases hlabel with hlabel | hlabel <;> rw [hlabel] <;> decide

/-- The end of an arena raises no event: only a trusted one goes back to the common pool. -/
theorem Watched.give (w : Watched addr lingnetCgroup backing blockCount blockSize x c)
    (hinj : Set.InjOn addr {b | b < blockCount})
    (hcgroup : (lingnetCgroup.lookup who.cgroupId).isSome) {i : ℕ} {hd : Handle} {p : PoolId}
    {gen : ℕ} (hi : x.system.live[i]? = some hd) (hp : p = .common → hd.arena.tier = .trusted)
    (hprobe : probe addr who x.system op =
      some (.arenaDeinit (ctxOf addr who hd.arena.block (destCode p) gen)))
    (h : x.step addr (who, op) = some x')
    (hwf : Wf backing blockCount blockSize x'.system
      ⟨update c.stack p (hd.arena.block :: c.stack p), c.held.eraseIdx i⟩) :
    Watched addr lingnetCgroup backing blockCount blockSize x'
        ⟨update c.stack p (hd.arena.block :: c.stack p), c.held.eraseIdx i⟩ ∧
      x'.events = x.events := by
  obtain ⟨_, hmaps, hevents⟩ := step_eq_some h
  rw [hprobe] at hmaps hevents
  obtain ⟨σ', maps, events⟩ := x'
  obtain rfl : maps = _ := hmaps
  have hmon : isLingnetCgroup x.maps
      (ctxOf addr who hd.arena.block (destCode p) gen).cgroupId = true := w.monitored hcgroup
  have hat : c.At hd.arena.block (.holder hd.arena.tier) := by
    change (hd.arena.tier, hd.arena.block) ∈ c.held
    rw [w.wf.held]
    exact List.mem_of_getElem? (heldBlocks_getElem? hi)
  have hlabel : x.maps.blkState.lookup (addr hd.arena.block) =
      some (tierCode hd.arena.tier) := w.labelled _ _ hat
  have hmem : (ctxOf addr who hd.arena.block (destCode p) gen).blockId ∈
      (Finset.range blockCount).image addr := addr_mem w.wf hat
  constructor
  · refine w.fire hinj hwf rfl (y := .pool p) ?_ ?_ fun a z hab haz => haz.of_give hab
    · change _ ∈ update c.stack p (hd.arena.block :: c.stack p) p
      rw [update_self]
      exact List.mem_cons_self
    · have hstate := blkState_deinit hmon w.within hmem
      rw [tier_ctxOf, blockId_ctxOf, hlabel] at hstate
      change Fits (.pool p) ((traceArenaDeinit _ x.maps).2.blkState.lookup _)
      rw [hstate]
      cases p with
      | common => exact .inr rfl
      | quarantine => rfl
      | l2 => exact .inl rfl
  · rw [show events = _ from hevents, List.append_right_eq_self]
    refine traceArenaDeinit_eq_nil hmon fun htwo hzero => ?_
    rw [blockId_ctxOf, hlabel] at htwo
    rw [tier_ctxOf] at hzero
    have hcommon : p = .common := by
      cases p
      · rfl
      · cases hzero
      · cases hzero
    rw [hp hcommon] at htwo
    cases htwo

theorem step_of_no_probe (hprobe : probe addr who x.system op = none)
    (h : x.step addr (who, op) = some x') : x'.maps = x.maps ∧ x'.events = x.events := by
  obtain ⟨_, hmaps, hevents⟩ := step_eq_some h
  rw [hprobe] at hmaps hevents
  exact ⟨hmaps, hevents.trans (List.append_nil _)⟩

/-- Such a call may only move a block from quarantine to the `L2` pool. -/
theorem Watched.quiet (w : Watched addr lingnetCgroup backing blockCount blockSize x c)
    (hprobe : probe addr who x.system op = none) (h : x.step addr (who, op) = some x')
    (hwf : Wf backing blockCount blockSize x'.system c')
    (hlabel : ∀ f, c.Labelled Fits f → c'.Labelled Fits f) :
    Watched addr lingnetCgroup backing blockCount blockSize x' c' ∧ x'.events = x.events := by
  obtain ⟨hmaps, hevents⟩ := step_of_no_probe hprobe h
  refine ⟨⟨hwf, ?_, ?_, ?_⟩, hevents⟩
  · rw [hmaps]
    exact w.cgroups
  · rw [hmaps]
    exact w.within
  · rw [hmaps]
    exact hlabel _ w.labelled

/-- Where nothing more can be made of a used block, an untrusted `init` fails or takes a new
one. -/
theorem unused_of_init_ne_ok (w : Wf backing blockCount blockSize x.system c)
    (h : ∀ r, Arena.init .untrusted x.system.globals ≠ .ok r) (call : Caller × Op) :
    Unused x call := by
  intro _
  have hl2 : L2Pool.pop x.system.globals = none ∧ c.stack .l2 = [] := by
    rcases popHead_eq w.initialized w.represents .l2 { zeroed := true } with
      hnone | ⟨b, l, _, hpop⟩
    · exact hnone
    · have hok : Arena.init .untrusted x.system.globals =
          .ok (⟨.untrusted, b, x.system.globals.currentGeneration, 0⟩,
            (x.system.globals.unlink .l2 b).setFlags b { zeroed := true }) := by
        simp only [Arena.init, L2Pool.pop, hpop]
      exact absurd hok (h _)
  refine ⟨w.represents.head_eq_none.mpr hl2.2, fun b hcommon hq => ?_⟩
  by_contra hdue
  have hnext : (x.system.globals.blocks b).retiredGen + 1 < Zig.usizeEnd :=
    (Nat.lt_of_not_le hdue).trans w.generation
  have hpop : CommonPool.pop x.system.globals = none := by
    simp [CommonPool.pop, Globals.popHead, hcommon]
  have hsafe : (QuarantinePool.popSafe x.system.globals x.system.globals.currentGeneration :
      Zig.Outcome ArenaError _) = .ok (some (b, x.system.globals.unlink .quarantine b)) := by
    simp [QuarantinePool.popSafe, hq, Zig.add, hnext, hdue]
  have hok : Arena.init .untrusted x.system.globals =
      .ok (⟨.untrusted, b, x.system.globals.currentGeneration, 0⟩,
        (x.system.globals.unlink .quarantine b).setFlags b
          { zeroed := true, quarantined := false }) := by
    simp only [Arena.init, hl2.1, hpop, hsafe, Zig.Outcome.ok_bind]
  exact absurd hok (h _)

theorem init_ne_ok_of_live {σ : System} {globals : Globals} {tier : SecurityTier}
    (h : Gqap.step σ (.init tier) = some ⟨globals, σ.live⟩) (r : Arena × Globals) :
    Arena.init tier σ.globals ≠ .ok r := by
  intro hr
  have hlive : Gqap.step σ (.init tier) = some ⟨r.2, ⟨r.1, []⟩ :: σ.live⟩ := by
    simp only [Gqap.step, hr]
  have hlen := congrArg (fun σ => σ.map fun σ => σ.live.length) (hlive.symm.trans h)
  simp at hlen

theorem unused_of_ne {call : Caller × Op} (h : call.2 ≠ .init .untrusted) : Unused x call :=
  fun heq => absurd heq h

/-- One call: the audit keeps up with the pools, and is silent exactly on calls that make no
untrusted arena of a used block. -/
theorem Watched.step (w : Watched addr lingnetCgroup backing blockCount blockSize x c)
    (hinj : Set.InjOn addr {b | b < blockCount})
    (hcgroup : (lingnetCgroup.lookup who.cgroupId).isSome)
    (h : x.step addr (who, op) = some x') :
    (∃ c', Watched addr lingnetCgroup backing blockCount blockSize x' c') ∧
      (x'.events = x.events ↔ Unused x (who, op)) := by
  have hσ := (step_eq_some h).1
  obtain ⟨c', t, hwf⟩ := w.wf.step hσ
  have hhead : ∀ {p : PoolId} {b : BlockId} {l : List BlockId}, c.stack p = b :: l →
      (x.system.globals.pool p).head = some b := w.wf.represents.head_of_cons
  obtain ⟨σ', maps, events⟩ := x'
  cases t with
  | initExhausted tier =>
    obtain ⟨hw, hevents⟩ := w.quiet (probe_init_exhausted hσ) h hwf fun _ => id
    refine ⟨⟨_, hw⟩, iff_of_true hevents ?_⟩
    cases tier with
    | trusted => exact unused_of_ne (by simp)
    | untrusted => exact unused_of_init_ne_ok w.wf (init_ne_ok_of_live hσ) _
  | initTrusted hp =>
    obtain ⟨hw, hevents⟩ := w.take hinj hcgroup hp (probe_init_of_step hσ) h hwf
    exact ⟨⟨_, hw⟩, iff_of_true (hevents.mpr rfl) (unused_of_ne (by simp))⟩
  | initFromL2 hp =>
    obtain ⟨hw, hevents⟩ := w.take hinj hcgroup hp (probe_init_of_step hσ) h hwf
    refine ⟨⟨_, hw⟩, iff_of_false (fun heq => by cases hevents.mp heq) fun hunused => ?_⟩
    have hnone := (hunused rfl).1
    rw [hhead hp] at hnone
    cases hnone
  | initFromCommon hl2 hp =>
    obtain ⟨hw, hevents⟩ := w.take hinj hcgroup hp (probe_init_of_step hσ) h hwf
    refine ⟨⟨_, hw⟩, iff_of_true (hevents.mpr rfl) fun _ => ?_⟩
    refine ⟨w.wf.represents.head_eq_none.mpr hl2, fun b hcommon _ => ?_⟩
    rw [hhead hp] at hcommon
    cases hcommon
  | initFromQuarantine hl2 hcommon hp hfit hdue =>
    obtain ⟨hw, hevents⟩ := w.take hinj hcgroup hp (probe_init_of_step hσ) h hwf
    refine ⟨⟨_, hw⟩, iff_of_false (fun heq => by cases hevents.mp heq) fun hunused => ?_⟩
    have hle := (hunused rfl).2 _ (w.wf.represents.head_eq_none.mpr hcommon) (hhead hp)
    exact absurd hdue (Nat.not_lt.mpr hle)
  | deinitTrusted hi ht =>
    obtain ⟨hw, hevents⟩ := w.give hinj hcgroup hi (fun _ => ht) (probe_deinit hi ht) h hwf
    exact ⟨⟨_, hw⟩, iff_of_true hevents (unused_of_ne (by simp))⟩
  | deinitUntrusted hi ht =>
    obtain ⟨hw, hevents⟩ := w.give hinj hcgroup hi (p := .quarantine) (fun heq => by cases heq)
      (probe_deinit hi ht) h hwf
    exact ⟨⟨_, hw⟩, iff_of_true hevents (unused_of_ne (by simp))⟩
  | zeroTrusted hi ht =>
    obtain ⟨hw, hevents⟩ := w.give hinj hcgroup hi (fun _ => ht) (probe_deinitAndZero hi ht) h hwf
    exact ⟨⟨_, hw⟩, iff_of_true hevents (unused_of_ne (by simp))⟩
  | zeroUntrusted hi ht =>
    obtain ⟨hw, hevents⟩ := w.give hinj hcgroup hi (p := .l2) (fun heq => by cases heq)
      (probe_deinitAndZero hi ht) h hwf
    exact ⟨⟨_, hw⟩, iff_of_true hevents (unused_of_ne (by simp))⟩
  | sanitize hp =>
    obtain ⟨hw, hevents⟩ := w.quiet rfl h hwf fun f hlabel =>
      labelled_sanitized hlabel hp hwf.nodup
    exact ⟨⟨_, hw⟩, iff_of_true hevents (unused_of_ne (by simp))⟩
  | _ =>
    obtain ⟨hw, hevents⟩ := w.quiet rfl h hwf fun _ => id
    exact ⟨⟨_, hw⟩, iff_of_true hevents (unused_of_ne (by simp))⟩

theorem silent_iff (w : Watched addr lingnetCgroup backing blockCount blockSize x c)
    (hinj : Set.InjOn addr {b | b < blockCount})
    (hcgroup : (lingnetCgroup.lookup who.cgroupId).isSome) :
    Silent addr x (who, op) ↔ Unused x (who, op) := by
  cases h : x.step addr (who, op) with
  | some x' =>
    refine Iff.trans ?_ (w.step hinj hcgroup h).2
    constructor
    · intro hsilent
      exact hsilent x' h
    · intro hevents x'' h'
      cases h.symm.trans h'
      exact hevents
  | none =>
    refine iff_of_true (fun x' h' => by cases h.symm.trans h') ?_
    by_cases hop : op = .init .untrusted
    · subst hop
      refine unused_of_init_ne_ok w.wf (fun r hr => ?_) _
      rw [Audited.step, Option.map_eq_none_iff] at h
      simp only [Gqap.step, hr] at h
      cases h
    · exact unused_of_ne hop

theorem Watched.start {mapping : Option ℕ} {table : Bool} {s : Globals}
    (hs : initPools mapping table blockCount blockSize = .ok s) (hcount : blockCount ≤ 10240)
    (addr : BlockId → UInt64) (lingnetCgroup : BoundedMap UInt64 UInt8) :
    ∃ backing, Watched addr lingnetCgroup backing blockCount blockSize (.start s lingnetCgroup)
      (bootHoldings blockCount) := by
  obtain ⟨backing, w⟩ := booted_wf hs
  have hcard : ((Finset.range blockCount).image addr).card ≤ 10240 :=
    Finset.card_image_le.trans ((Finset.card_range blockCount).trans_le hcount)
  refine ⟨backing, w, rfl, BoundedMap.within_empty hcard, fun b y hb => ?_⟩
  cases y with
  | pool p =>
    cases p with
    | common => exact .inl (BoundedMap.lookup_empty _ _)
    | quarantine => cases hb
    | l2 => cases hb
  | holder tier => cases hb

end Invariant

/-- In a monitored process of at most 10240 blocks the audit is silent exactly as long as no
untrusted arena is made of a used block. -/
theorem audit_silent_iff {mapping : Option ℕ} {table : Bool} {blockCount blockSize : ℕ}
    {s : Globals} (hs : initPools mapping table blockCount blockSize = .ok s)
    (hcount : blockCount ≤ 10240) {addr : BlockId → UInt64}
    (hinj : Set.InjOn addr {b | b < blockCount}) (lingnetCgroup : BoundedMap UInt64 UInt8)
    (calls : List (Caller × Op))
    (hcgroup : ∀ call ∈ calls, (lingnetCgroup.lookup call.1.cgroupId).isSome) :
    Run.AllSteps (Audited.step addr) (Silent addr) (.start s lingnetCgroup) calls ↔
      Run.AllSteps (Audited.step addr) Unused (.start s lingnetCgroup) calls := by
  obtain ⟨backing, w⟩ := Watched.start hs hcount addr lingnetCgroup
  exact Run.allSteps_congr_on
    (I := fun x => ∃ c, Watched addr lingnetCgroup backing blockCount blockSize x c)
    (R := fun call => (lingnetCgroup.lookup call.1.cgroupId).isSome)
    (fun x call ⟨_, w⟩ hcall => silent_iff w hinj hcall)
    (fun x call x' ⟨_, w⟩ hcall _ hstep => (w.step hinj hcall hstep).1) ⟨_, w⟩ hcgroup

def caller7 : Caller := ⟨0, 7⟩

def tableAddr (b : BlockId) : UInt64 := UInt64.ofNat (4096 + 40 * b)

theorem audit_silent_trusted : Run.AllSteps (Audited.step tableAddr) (Silent tableAddr)
    (.start (initialGlobals 65536 1 64) ((BoundedMap.empty 16).update 7 1))
    [(caller7, .init .trusted), (caller7, .deinit 0), (caller7, .init .untrusted)] := by
  have hs : initPools (some 65536) true 1 64 = .ok (initialGlobals 65536 1 64) := rfl
  have hinj : Set.InjOn tableAddr {b | b < 1} := by
    intro a ha b hb _
    exact (Nat.lt_one_iff.mp ha).trans (Nat.lt_one_iff.mp hb).symm
  refine (audit_silent_iff hs (by decide) hinj _ _ (by decide)).mpr ⟨nofun, ?_⟩
  rintro _ ⟨⟩
  refine ⟨nofun, ?_⟩
  rintro _ ⟨⟩
  refine ⟨fun _ => ⟨rfl, fun b hcommon _ => by cases hcommon⟩, fun _ _ => trivial⟩

/-- A block that was quarantined and sanitized is reported when it is allocated again. -/
theorem sanitized_block_alarms :
    ∃ x, Run.run (Audited.step tableAddr)
        (.start (initialGlobals 65536 1 64) ((BoundedMap.empty 16).update 7 1))
        [(caller7, .init .untrusted), (caller7, .deinit 0), (caller7, .incrementGeneration),
          (caller7, .incrementGeneration), (caller7, .sanitizeOne 3), (caller7, .init .untrusted)] =
          some x ∧
      x.events = [⟨0, 0, 7, 4096, 0, 0, .doubleFree, 3, 2, 0⟩] := ⟨_, rfl, by decide⟩

end LingNet.ArenaAudit
