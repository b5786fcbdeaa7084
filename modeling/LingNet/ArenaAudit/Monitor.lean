import LingNet.ArenaAudit.Probe
import LingNet.Lib.FirstComers

/-! The whole audit of the arenas: its three probes and its hook of `mprotect`, for any calls in any
cgroups and on any number of blocks. -/
namespace LingNet.ArenaAudit
open BoundedMap

def EPERM : ℤ := 1

def PROT_WRITE : UInt64 := 2

def PROT_EXEC : UInt64 := 4

/-- The second argument of a call that reuses a block. -/
def Ctx.newGen (ctx : Ctx) : UInt64 := ctx.parm2

/-- The report of a generation that does not increase. -/
def Ctx.mismatch (ctx : Ctx) (oldGen : UInt64) : ArenaEvent where
  pid := (ctx.pidTgid >>> 32).toUInt32
  tid := ctx.pidTgid.toUInt32
  cgroupId := ctx.cgroupId
  blockId := ctx.blockId
  expectedGen := oldGen + 1
  actualGen := ctx.newGen
  eventType := .genMismatch
  fromTier := 0
  toTier := 0

def traceArenaReuse (ctx : Ctx) (m : Maps) : List ArenaEvent × Maps :=
  if !isLingnetCgroup m ctx.cgroupId then ([], m)
  else
    match m.blockGeneration.lookup ctx.blockId with
    | none => ([], m)
    | some oldGen =>
      let events := if oldGen ≥ ctx.newGen then [ctx.mismatch oldGen] else []
      (events, { m with blockGeneration := m.blockGeneration.update ctx.blockId ctx.newGen })

structure Protection where
  pidTgid : UInt64
  cgroupId : UInt64
  prot : UInt64
  deriving DecidableEq, Repr

/-- Writable and executable at once. -/
def Protection.Open (p : Protection) : Prop :=
  p.prot &&& PROT_WRITE ≠ 0 ∧ p.prot &&& PROT_EXEC ≠ 0

instance (p : Protection) : Decidable p.Open := inferInstanceAs (Decidable (_ ∧ _))

/-- The report of a denied call. The program leaves the thread, the cgroup and the block at zero. -/
def Protection.violation (p : Protection) : ArenaEvent where
  pid := (p.pidTgid >>> 32).toUInt32
  tid := 0
  cgroupId := 0
  blockId := 0
  eventType := .arenaViolation
  fromTier := 0
  toTier := 0

def lsmMprotect (p : Protection) (m : Maps) : ℤ × List ArenaEvent :=
  if !isLingnetCgroup m p.cgroupId then (0, [])
  else if p.Open then (-EPERM, [p.violation])
  else (0, [])

inductive BlockProbe where
  | arenaAlloc (ctx : Ctx)
  | arenaDeinit (ctx : Ctx)
  | arenaReuse (ctx : Ctx)
  deriving DecidableEq, Repr

namespace BlockProbe

def ctx : BlockProbe → Ctx
  | arenaAlloc ctx => ctx
  | arenaDeinit ctx => ctx
  | arenaReuse ctx => ctx

def fire : BlockProbe → Maps → List ArenaEvent × Maps
  | arenaAlloc ctx => traceArenaAlloc ctx
  | arenaDeinit ctx => traceArenaDeinit ctx
  | arenaReuse ctx => traceArenaReuse ctx

end BlockProbe

inductive Hook where
  | uprobe (p : BlockProbe)
  | mprotect (p : Protection)
  deriving DecidableEq, Repr

/-- What a program returns, and the events that it puts out. -/
structure Verdict where
  ret : ℤ
  events : List ArenaEvent
  deriving DecidableEq, Repr

namespace Hook

def cgroupId : Hook → UInt64
  | uprobe p => p.ctx.cgroupId
  | mprotect p => p.cgroupId

def fire : Hook → Maps → Verdict × Maps
  | uprobe p, m => (⟨0, (p.fire m).1⟩, (p.fire m).2)
  | mprotect p, m => (⟨(lsmMprotect p m).1, (lsmMprotect p m).2⟩, m)

end Hook

def fireHooks (m : Maps) (hooks : List Hook) : Maps := hooks.foldl (fun m h => (h.fire m).2) m

/-! What the audit remembers. -/

/-- What the calls write as the state of a block. -/
def states : Writer BlockProbe UInt64 UInt8 where
  key p := p.ctx.blockId
  brings
    | .arenaAlloc _ => true
    | _ => false
  value
    | .arenaAlloc ctx => some ctx.tier
    | .arenaDeinit ctx => some (newState ctx.tier)
    | .arenaReuse _ => none
  value_of_brings p h := by
    cases p with
    | arenaAlloc ctx => rfl
    | arenaDeinit ctx => cases h
    | arenaReuse ctx => cases h

/-- What they write as its generation. -/
def generations : Writer BlockProbe UInt64 UInt64 where
  key p := p.ctx.blockId
  brings
    | .arenaAlloc _ => true
    | _ => false
  value
    | .arenaAlloc ctx => some ctx.gen
    | .arenaDeinit _ => none
    | .arenaReuse ctx => some ctx.newGen
  value_of_brings p h := by
    cases p with
    | arenaAlloc ctx => rfl
    | arenaDeinit ctx => cases h
    | arenaReuse ctx => cases h

section Memory

variable (lingnetCgroup : BoundedMap UInt64 UInt8)

/-- The calls on blocks in the monitored cgroups. -/
def watched (past : List Hook) : List BlockProbe :=
  past.filterMap fun
    | .uprobe p => if (lingnetCgroup.lookup p.ctx.cgroupId).isSome then some p else none
    | .mprotect _ => none

/-- The blocks that the maps have room for: those that were allocated first. -/
def tracked (past : List Hook) : List UInt64 :=
  (states.arrived (watched lingnetCgroup past)).take 10240

/-- What the calls so far make a call on a block look like. -/
def BlockProbe.reports (past : List BlockProbe) : BlockProbe → List ArenaEvent
  | .arenaAlloc ctx =>
    match states.latest past ctx.blockId with
    | none => []
    | some oldState => if oldState ≠ 0 then [ctx.event .doubleFree oldState] else []
  | .arenaDeinit ctx =>
    match states.latest past ctx.blockId with
    | none => []
    | some fromTier =>
      if fromTier = 2 ∧ ctx.tier = 0 then [ctx.event .arenaViolation fromTier] else []
  | .arenaReuse ctx =>
    match generations.latest past ctx.blockId with
    | none => []
    | some oldGen => if oldGen ≥ ctx.newGen then [ctx.mismatch oldGen] else []

/-- The verdict on a call by what came before it. -/
def verdictOn (past : List Hook) (h : Hook) : Verdict :=
  if (lingnetCgroup.lookup h.cgroupId).isSome then
    match h with
    | .uprobe p =>
      if p.ctx.blockId ∈ tracked lingnetCgroup past then
        ⟨0, p.reports (watched lingnetCgroup past)⟩
      else ⟨0, []⟩
    | .mprotect p => if p.Open then ⟨-EPERM, [p.violation]⟩ else ⟨0, []⟩
  else ⟨0, []⟩

/-- The maps remember the calls so far. -/
structure Remembers (past : List Hook) (m : Maps) : Prop where
  cgroups : m.lingnetCgroup = lingnetCgroup
  states : states.Holds 10240 (watched lingnetCgroup past) m.blkState
  generations : generations.Holds 10240 (watched lingnetCgroup past) m.blockGeneration

end Memory

section Run

variable {lingnetCgroup : BoundedMap UInt64 UInt8} {m : Maps} {past : List Hook}

theorem watched_concat (past : List Hook) (h : Hook) :
    watched lingnetCgroup (past ++ [h]) =
      watched lingnetCgroup past ++ watched lingnetCgroup [h] := by
  unfold watched
  rw [List.filterMap_append]

theorem fire_of_unwatched {p : BlockProbe} (h : isLingnetCgroup m p.ctx.cgroupId = false) :
    p.fire m = ([], m) := by
  cases p with
  | arenaAlloc ctx =>
    change isLingnetCgroup m ctx.cgroupId = false at h
    simp [BlockProbe.fire, traceArenaAlloc, h]
  | arenaDeinit ctx =>
    change isLingnetCgroup m ctx.cgroupId = false at h
    simp [BlockProbe.fire, traceArenaDeinit, h]
  | arenaReuse ctx =>
    change isLingnetCgroup m ctx.cgroupId = false at h
    simp [BlockProbe.fire, traceArenaReuse, h]

theorem fire_of_watched {p : BlockProbe} (h : isLingnetCgroup m p.ctx.cgroupId = true) :
    (p.fire m).2 = { m with
      blkState := states.write m.blkState p
      blockGeneration := generations.write m.blockGeneration p } := by
  cases p with
  | arenaAlloc ctx =>
    change isLingnetCgroup m ctx.cgroupId = true at h
    change (traceArenaAlloc ctx m).2 = _
    rw [traceArenaAlloc_of_monitored h]
    rfl
  | arenaDeinit ctx =>
    change isLingnetCgroup m ctx.cgroupId = true at h
    change (traceArenaDeinit ctx m).2 = _
    unfold Writer.write
    cases hb : m.blkState.lookup ctx.blockId with
    | none =>
      rw [traceArenaDeinit_of_none hb]
      simp [states, generations, BlockProbe.ctx, hb]
    | some fromTier =>
      rw [traceArenaDeinit_of_some h hb]
      simp [states, generations, BlockProbe.ctx, hb]
  | arenaReuse ctx =>
    change isLingnetCgroup m ctx.cgroupId = true at h
    change (traceArenaReuse ctx m).2 = _
    unfold Writer.write traceArenaReuse
    cases hb : m.blockGeneration.lookup ctx.blockId <;>
      simp [states, generations, BlockProbe.ctx, h, hb]

theorem Remembers.monitored (hm : Remembers lingnetCgroup past m) (cgroupId : UInt64) :
    isLingnetCgroup m cgroupId = (lingnetCgroup.lookup cgroupId).isSome := by
  unfold isLingnetCgroup
  rw [hm.cgroups]

theorem Remembers.fire (hm : Remembers lingnetCgroup past m) (h : Hook) :
    Remembers lingnetCgroup (past ++ [h]) (h.fire m).2 := by
  obtain ⟨hcgroup, hstates, hgenerations⟩ := hm
  cases h with
  | mprotect p =>
    have hsame : watched lingnetCgroup (past ++ [.mprotect p]) = watched lingnetCgroup past := by
      rw [watched_concat]
      exact List.append_nil _
    refine ⟨hcgroup, ?_, ?_⟩
    · rw [hsame]
      exact hstates
    · rw [hsame]
      exact hgenerations
  | uprobe p =>
    have hmonitored := Remembers.monitored ⟨hcgroup, hstates, hgenerations⟩ p.ctx.cgroupId
    change Remembers lingnetCgroup _ (p.fire m).2
    cases hp : (lingnetCgroup.lookup p.ctx.cgroupId).isSome with
    | false =>
      have hsame : watched lingnetCgroup (past ++ [.uprobe p]) = watched lingnetCgroup past := by
        rw [watched_concat]
        simp [watched, hp]
      rw [fire_of_unwatched (hmonitored.trans hp)]
      refine ⟨hcgroup, ?_, ?_⟩
      · rw [hsame]
        exact hstates
      · rw [hsame]
        exact hgenerations
    | true =>
      have hmore : watched lingnetCgroup (past ++ [.uprobe p]) =
          watched lingnetCgroup past ++ [p] := by
        rw [watched_concat]
        simp [watched, hp]
      rw [fire_of_watched (hmonitored.trans hp)]
      refine ⟨hcgroup, ?_, ?_⟩
      · rw [hmore]
        exact hstates.write p
      · rw [hmore]
        exact hgenerations.write p

theorem remembers_fireHooks (lingnetCgroup : BoundedMap UInt64 UInt8) (past : List Hook) :
    Remembers lingnetCgroup past (fireHooks (Maps.loaded lingnetCgroup) past) := by
  induction past using List.reverseRecOn with
  | nil => exact ⟨rfl, Writer.holds_empty _ _, Writer.holds_empty _ _⟩
  | append_singleton past h ih =>
    unfold fireHooks at ih ⊢
    rw [List.foldl_append]
    exact ih.fire h

/-- On a block that the maps remember, a call is reported by what they remember of it. -/
theorem Remembers.reports (hm : Remembers lingnetCgroup past m) {p : BlockProbe}
    (hp : isLingnetCgroup m p.ctx.cgroupId = true) :
    (p.fire m).1 = if p.ctx.blockId ∈ tracked lingnetCgroup past then
      p.reports (watched lingnetCgroup past) else [] := by
  have hstate := hm.states.lookup p.ctx.blockId
  have hgeneration := hm.generations.lookup p.ctx.blockId
  change _ = if p.ctx.blockId ∈ tracked lingnetCgroup past then _ else _ at hstate hgeneration
  by_cases hmem : p.ctx.blockId ∈ tracked lingnetCgroup past
  · rw [if_pos hmem] at hstate hgeneration ⊢
    unfold BlockProbe.reports
    cases p with
    | arenaAlloc ctx =>
      dsimp only [BlockProbe.ctx] at hp hstate hgeneration
      change (traceArenaAlloc ctx m).1 = _
      dsimp only
      rw [← hstate]
      exact congrArg Prod.fst (traceArenaAlloc_of_monitored hp)
    | arenaDeinit ctx =>
      dsimp only [BlockProbe.ctx] at hp hstate hgeneration
      change (traceArenaDeinit ctx m).1 = _
      unfold traceArenaDeinit
      dsimp only
      rw [if_neg (by simpa using hp), ← hstate]
      cases m.blkState.lookup ctx.blockId <;> rfl
    | arenaReuse ctx =>
      dsimp only [BlockProbe.ctx] at hp hstate hgeneration
      change (traceArenaReuse ctx m).1 = _
      unfold traceArenaReuse
      dsimp only
      rw [if_neg (by simpa using hp), ← hgeneration]
      cases m.blockGeneration.lookup ctx.blockId <;> rfl
  · rw [if_neg hmem] at hstate hgeneration ⊢
    cases p with
    | arenaAlloc ctx =>
      dsimp only [BlockProbe.ctx] at hp hstate hgeneration
      change (traceArenaAlloc ctx m).1 = _
      rw [traceArenaAlloc_of_monitored hp, hstate]
    | arenaDeinit ctx =>
      dsimp only [BlockProbe.ctx] at hp hstate hgeneration
      change (traceArenaDeinit ctx m).1 = _
      rw [traceArenaDeinit_of_none hstate]
    | arenaReuse ctx =>
      dsimp only [BlockProbe.ctx] at hp hstate hgeneration
      change (traceArenaReuse ctx m).1 = _
      unfold traceArenaReuse
      split_ifs
      · rfl
      · rw [hgeneration]

/-- On a call on a block the verdict is that of the calls before it. -/
theorem Remembers.uprobe_verdict (hm : Remembers lingnetCgroup past m) (p : BlockProbe) :
    ((Hook.uprobe p).fire m).1 = verdictOn lingnetCgroup past (.uprobe p) := by
  have hmonitored := hm.monitored p.ctx.cgroupId
  change Verdict.mk 0 (p.fire m).1 = _
  unfold verdictOn
  by_cases hp : (lingnetCgroup.lookup (Hook.uprobe p).cgroupId).isSome = true
  · rw [if_pos hp, hm.reports (hmonitored.trans hp)]
    dsimp only
    split_ifs <;> rfl
  · rw [if_neg hp, fire_of_unwatched (hmonitored.trans (eq_false_of_ne_true hp))]

theorem Remembers.mprotect_verdict (hm : Remembers lingnetCgroup past m) (p : Protection) :
    ((Hook.mprotect p).fire m).1 = verdictOn lingnetCgroup past (.mprotect p) := by
  have hmonitored := hm.monitored p.cgroupId
  unfold verdictOn
  dsimp only [Hook.cgroupId, Hook.fire]
  unfold lsmMprotect
  by_cases hp : (lingnetCgroup.lookup p.cgroupId).isSome = true
  · have hwatched : (!isLingnetCgroup m p.cgroupId) = false := by simp [hmonitored, hp]
    by_cases hopen : p.Open <;> simp [hwatched, hp, hopen]
  · simp [hmonitored, hp]

/-- Whatever was called before, in whatever cgroups and on however many blocks, the verdict of the
audit on a call is that of the monitored calls on the same block, if the block is among the first
ones that were allocated, and otherwise none. -/
theorem audit_exact (lingnetCgroup : BoundedMap UInt64 UInt8) (past : List Hook) (h : Hook) :
    (h.fire (fireHooks (Maps.loaded lingnetCgroup) past)).1 = verdictOn lingnetCgroup past h := by
  have hm := remembers_fireHooks lingnetCgroup past
  cases h with
  | uprobe p => exact hm.uprobe_verdict p
  | mprotect p => exact hm.mprotect_verdict p

end Run

end LingNet.ArenaAudit
