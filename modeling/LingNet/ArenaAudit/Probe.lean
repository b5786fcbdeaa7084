import LingNet.Lib.BoundedMap

/-! The probes of the arena audit: what `trace_arena_alloc` and `trace_arena_deinit` report
about a block, and how they keep its state. -/
namespace LingNet.ArenaAudit

/-- `EVENT_ARENA_VIOLATION`, `EVENT_DOUBLE_FREE` and `EVENT_GEN_MISMATCH`. -/
inductive EventType where
  | arenaViolation
  | doubleFree
  | genMismatch
  deriving DecidableEq, Repr

structure ArenaEvent where
  pid : UInt32
  tid : UInt32
  cgroupId : UInt64
  blockId : UInt64
  expectedGen : UInt64 := 0
  actualGen : UInt64 := 0
  eventType : EventType
  fromTier : UInt8
  toTier : UInt8
  reserved : UInt8 := 0
  deriving DecidableEq, Repr

/-- The hash maps of the program. `blkState` has 0 for a free block, 1 for a trusted one,
2 for an untrusted one and 3 for one in quarantine. -/
structure Maps where
  lingnetCgroup : BoundedMap UInt64 UInt8
  blkState : BoundedMap UInt64 UInt8
  blockGeneration : BoundedMap UInt64 UInt64

def Maps.loaded (lingnetCgroup : BoundedMap UInt64 UInt8) : Maps where
  lingnetCgroup := lingnetCgroup
  blkState := .empty 10240
  blockGeneration := .empty 10240

/-- The current task and the first three arguments of the probed call. -/
structure Ctx where
  pidTgid : UInt64
  cgroupId : UInt64
  parm1 : UInt64
  parm2 : UInt64
  parm3 : UInt64
  deriving DecidableEq, Repr

namespace Ctx

def blockId (ctx : Ctx) : UInt64 := ctx.parm1

/-- The second argument as a `u8`: the tier of an allocation, the destination of a release. -/
def tier (ctx : Ctx) : UInt8 := ctx.parm2.toUInt8

def gen (ctx : Ctx) : UInt64 := ctx.parm3

def event (ctx : Ctx) (eventType : EventType) (fromTier : UInt8) : ArenaEvent where
  pid := (ctx.pidTgid >>> 32).toUInt32
  tid := ctx.pidTgid.toUInt32
  cgroupId := ctx.cgroupId
  blockId := ctx.blockId
  eventType := eventType
  fromTier := fromTier
  toTier := ctx.tier

end Ctx

def isLingnetCgroup (m : Maps) (cgroupId : UInt64) : Bool :=
  (m.lingnetCgroup.lookup cgroupId).isSome

/-- The state a block gets when it is released: 3 in quarantine, 2 in the `L2` pool, else 0. -/
def newState (destTier : UInt8) : UInt8 :=
  if destTier = 2 then 3 else if destTier = 1 then 2 else 0

def traceArenaAlloc (ctx : Ctx) (m : Maps) : List ArenaEvent × Maps :=
  if !isLingnetCgroup m ctx.cgroupId then ([], m)
  else
    let events :=
      match m.blkState.lookup ctx.blockId with
      | none => []
      | some oldState => if oldState ≠ 0 then [ctx.event .doubleFree oldState] else []
    (events, { m with
      blkState := m.blkState.update ctx.blockId ctx.tier
      blockGeneration := m.blockGeneration.update ctx.blockId ctx.gen })

def traceArenaDeinit (ctx : Ctx) (m : Maps) : List ArenaEvent × Maps :=
  if !isLingnetCgroup m ctx.cgroupId then ([], m)
  else
    match m.blkState.lookup ctx.blockId with
    | none => ([], m)
    | some fromTier =>
      let events :=
        if fromTier = 2 ∧ ctx.tier = 0 then [ctx.event .arenaViolation fromTier] else []
      (events, { m with blkState := m.blkState.update ctx.blockId (newState ctx.tier) })

inductive Probe where
  | arenaAlloc (ctx : Ctx)
  | arenaDeinit (ctx : Ctx)
  deriving DecidableEq, Repr

namespace Probe

def ctx : Probe → Ctx
  | arenaAlloc ctx => ctx
  | arenaDeinit ctx => ctx

def fire : Probe → Maps → List ArenaEvent × Maps
  | arenaAlloc ctx => traceArenaAlloc ctx
  | arenaDeinit ctx => traceArenaDeinit ctx

end Probe

def fireAll (m : Maps) (probes : List Probe) : Maps := probes.foldl (fun m p => (p.fire m).2) m

/-! The probes in a monitored cgroup, on blocks that the map has room for. -/

section Monitored

variable {m : Maps} {ctx : Ctx} {p : Probe} {S : Finset UInt64}

theorem fire_lingnetCgroup (p : Probe) (m : Maps) :
    (p.fire m).2.lingnetCgroup = m.lingnetCgroup := by
  cases p with
  | arenaAlloc ctx =>
    change (traceArenaAlloc ctx m).2.lingnetCgroup = _
    unfold traceArenaAlloc
    split_ifs <;> rfl
  | arenaDeinit ctx =>
    change (traceArenaDeinit ctx m).2.lingnetCgroup = _
    unfold traceArenaDeinit
    split_ifs
    · rfl
    · cases m.blkState.lookup ctx.blockId <;> rfl

theorem traceArenaAlloc_of_monitored (h : isLingnetCgroup m ctx.cgroupId = true) :
    traceArenaAlloc ctx m =
      (match m.blkState.lookup ctx.blockId with
        | none => []
        | some oldState => if oldState ≠ 0 then [ctx.event .doubleFree oldState] else [],
      { m with
        blkState := m.blkState.update ctx.blockId ctx.tier
        blockGeneration := m.blockGeneration.update ctx.blockId ctx.gen }) := by
  unfold traceArenaAlloc
  rw [h]
  rfl

theorem traceArenaDeinit_of_none (hb : m.blkState.lookup ctx.blockId = none) :
    traceArenaDeinit ctx m = ([], m) := by
  unfold traceArenaDeinit
  rw [hb]
  split_ifs <;> rfl

theorem traceArenaDeinit_of_some (h : isLingnetCgroup m ctx.cgroupId = true) {fromTier : UInt8}
    (hb : m.blkState.lookup ctx.blockId = some fromTier) :
    traceArenaDeinit ctx m =
      (if fromTier = 2 ∧ ctx.tier = 0 then [ctx.event .arenaViolation fromTier] else [],
      { m with blkState := m.blkState.update ctx.blockId (newState ctx.tier) }) := by
  unfold traceArenaDeinit
  rw [h, hb]
  rfl

theorem blkState_alloc (h : isLingnetCgroup m ctx.cgroupId = true) (hS : m.blkState.Within S)
    (hmem : ctx.blockId ∈ S) :
    (traceArenaAlloc ctx m).2.blkState.lookup ctx.blockId = some ctx.tier := by
  rw [traceArenaAlloc_of_monitored h]
  exact hS.lookup_update_self hmem ctx.tier

/-- A release changes the state only of a block that was allocated. -/
theorem blkState_deinit (h : isLingnetCgroup m ctx.cgroupId = true) (hS : m.blkState.Within S)
    (hmem : ctx.blockId ∈ S) :
    (traceArenaDeinit ctx m).2.blkState.lookup ctx.blockId =
      (m.blkState.lookup ctx.blockId).map fun _ => newState ctx.tier := by
  cases hb : m.blkState.lookup ctx.blockId with
  | none =>
    rw [traceArenaDeinit_of_none hb]
    exact hb
  | some fromTier =>
    rw [traceArenaDeinit_of_some h hb]
    exact hS.lookup_update_self hmem _

/-- A probe leaves the state of every other block alone. -/
theorem blkState_of_ne {b : UInt64} (h : b ≠ p.ctx.blockId) (m : Maps) :
    (p.fire m).2.blkState.lookup b = m.blkState.lookup b := by
  cases p with
  | arenaAlloc ctx =>
    change (traceArenaAlloc ctx m).2.blkState.lookup b = _
    unfold traceArenaAlloc
    split_ifs
    · rfl
    · exact BoundedMap.lookup_update_of_ne _ h _
  | arenaDeinit ctx =>
    change (traceArenaDeinit ctx m).2.blkState.lookup b = _
    unfold traceArenaDeinit
    split_ifs
    · rfl
    · cases m.blkState.lookup ctx.blockId
      · rfl
      · exact BoundedMap.lookup_update_of_ne _ h _

theorem within_fire (hS : m.blkState.Within S) (hmem : p.ctx.blockId ∈ S) :
    (p.fire m).2.blkState.Within S := by
  cases p with
  | arenaAlloc ctx =>
    change (traceArenaAlloc ctx m).2.blkState.Within S
    unfold traceArenaAlloc
    split_ifs
    · exact hS
    · exact hS.update hmem _
  | arenaDeinit ctx =>
    change (traceArenaDeinit ctx m).2.blkState.Within S
    unfold traceArenaDeinit
    split_ifs
    · exact hS
    · cases m.blkState.lookup ctx.blockId
      · exact hS
      · exact hS.update hmem _

end Monitored
end LingNet.ArenaAudit
