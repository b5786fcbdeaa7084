import Mathlib.Data.Multiset.AddSub
import LingNet.Gqap.Arena
import LingNet.Lib.Run
import LingNet.Zig.Heap

/-! The loader of the skills of all three tiers, with a record of what its calls take and give
back. -/
namespace LingNet.Skill
open Zig

inductive SkillTier where
  | l0
  | l1
  | l2
  deriving DecidableEq, Repr

inductive SkillState where
  | unloaded
  | loading
  | loaded
  | running
  | paused
  | error
  deriving DecidableEq, Repr

/-- The code of a skill, by its address. -/
abbrev Entry := ℕ

/-- What `dlopen` returns. -/
abbrev Handle := ℕ

/-- The heap object of an arena. The loader does not allocate from it, so that its content stays
what `Arena.init` made it. -/
structure ArenaBox where
  id : ℕ
  arena : Gqap.Arena
  deriving DecidableEq

/-- `serial` tells skills of one name apart; no call depends on it. -/
structure SkillMeta where
  name : List UInt8
  version : String
  tier : SkillTier
  state : SkillState
  signature : List.Vector UInt8 64
  hash : List.Vector UInt8 32
  entryPoint : Option Entry
  soHandle : Option Handle
  arena : Option ArenaBox
  errorCode : ℤ
  serial : ℕ
  deriving DecidableEq

/-- The record that the loads of all tiers write. -/
def SkillMeta.new (name : List UInt8) (tier : SkillTier) (entryPoint : Option Entry)
    (soHandle : Option Handle) (arena : Option ArenaBox) : SkillMeta where
  name := name
  version := "2.5.0"
  tier := tier
  state := .loaded
  signature := List.Vector.replicate 64 0
  hash := List.Vector.replicate 32 0
  entryPoint := entryPoint
  soHandle := soHandle
  arena := arena
  errorCode := 0
  serial := 0

inductive SkillError where
  | outOfMemory
  | poolExhausted
  | signatureVerificationFailed
  | skillNotReady
  | skillNotFound
  | skillNotRunning
  | skillStillRunning
  deriving DecidableEq, Repr

def SkillError.ofArena : Gqap.ArenaError → SkillError
  | .poolExhausted => .poolExhausted
  | .outOfMemory => .outOfMemory

/-- The handles that are open, the closes of a handle that was not, the heap objects that are
live, and the blocks that arenas of the loader hold. -/
structure Ledger where
  handles : Multiset Handle := 0
  closedTwice : List Handle := []
  nextBox : ℕ := 0
  boxes : Multiset ℕ := 0
  blocks : Multiset Gqap.BlockId := 0

/-- An `execute` whose entry has not returned: it points into the buffer of the list. -/
structure Frame where
  slot : ℕ
  serial : ℕ
  deriving DecidableEq

/-- `frames` are the calls of `execute` that wait for their entry, the innermost first; the list
keeps its buffer meanwhile. What comes behind them records the past, and no call depends on it:
the ledger, the serial of the next skill, the core skills registered and the entries called, each
with the tier of its skill. -/
structure World where
  globals : Gqap.Globals
  skills : List SkillMeta := []
  frames : List Frame := []
  ledger : Ledger := {}
  nextSerial : ℕ := 0
  registered : List (List UInt8 × Entry) := []
  invoked : List (SkillTier × Entry) := []

/-- What the code outside the loader answers during one load: whether the allocator delivers the
path, the name of the symbol, the heap object and room in the list, and what the dynamic linker
finds. -/
structure Env where
  pathBuf : Bool
  dlopen : List UInt8 → Option Handle
  initSym : Bool
  dlsym : Handle → List UInt8 → Option Entry
  create : Bool
  append : Bool

namespace World

def dlclose (handle : Handle) (w : World) : World :=
  { w with ledger :=
      if handle ∈ w.ledger.handles then
        { w.ledger with handles := w.ledger.handles.erase handle }
      else { w.ledger with closedTwice := handle :: w.ledger.closedTwice } }

/-- A handle that `dlopen` has returned. -/
def opened (handle : Handle) (w : World) : World :=
  { w with ledger := { w.ledger with handles := handle ::ₘ w.ledger.handles } }

/-- `arena.deinit()` -/
def deinitArena (box : ArenaBox) (w : World) : World :=
  { w with
    globals := box.arena.deinit w.globals
    ledger := { w.ledger with blocks := w.ledger.blocks.erase box.arena.block } }

/-- `self.allocator.destroy(arena)` -/
def destroy (box : ArenaBox) (w : World) : World :=
  { w with ledger := { w.ledger with boxes := w.ledger.boxes.erase box.id } }

def setState (i : ℕ) (state : SkillState) (w : World) : World :=
  { w with skills := w.skills.modify i fun skill => { skill with state := state } }

end World

namespace SkillLoader

/-- `try self.skills.append(self.allocator, meta)` -/
def append (env : Env) (skill : SkillMeta) : Proc World SkillError Unit := fun w =>
  if env.append then
    (.ok (), { w with
      skills := w.skills ++ [{ skill with serial := w.nextSerial }]
      nextSerial := w.nextSerial + 1 })
  else (.err .outOfMemory, w)

def registerL0 (env : Env) (name : List UInt8) (entry : Entry) : Proc World SkillError Unit := do
  append env (.new name .l0 (some entry) none none)
  Proc.modify fun w => { w with registered := w.registered ++ [(name, entry)] }

/-- `try self.allocator.create(gqap.Arena(.untrusted))` -/
def create (env : Env) : Proc World SkillError ℕ := fun w =>
  if env.create then
    (.ok w.ledger.nextBox, { w with ledger := { w.ledger with
      nextBox := w.ledger.nextBox + 1, boxes := w.ledger.nextBox ::ₘ w.ledger.boxes } })
  else (.err .outOfMemory, w)

/-- `a.* = try gqap.Arena(.untrusted).init()` -/
def initArena (id : ℕ) : Proc World SkillError ArenaBox := fun w =>
  match Gqap.Arena.init .untrusted w.globals with
  | .ok (a, s) => (.ok ⟨id, a⟩, { w with
      globals := s, ledger := { w.ledger with blocks := a.block ::ₘ w.ledger.blocks } })
  | .err e => (.err (.ofArena e), w)
  | .trap t => (.trap t, w)

/-- The record of a skill with an arena, and its place in the list. -/
def addSkill (env : Env) (name : List UInt8) (tier : SkillTier) (entryPoint : Option Entry)
    (soHandle : Option Handle) : Proc World SkillError Unit := do
  let id ← create env
  let box ← initArena id
  append env (.new name tier entryPoint soHandle (some box))

def loadL1Stub (env : Env) (name : List UInt8) : Proc World SkillError Unit :=
  addSkill env name .l1 none none

/-- `{name}_init` with its sentinel. -/
def initSymbol (name : List UInt8) : List UInt8 := name ++ "_init".toUTF8.toList ++ [0]

/-- The `errdefer` stays armed when the handle has been closed for want of the symbol. -/
def loadL1 (env : Env) (name path : List UInt8) : Proc World SkillError Unit :=
  if env.pathBuf = false then Proc.fail .outOfMemory
  else
    match env.dlopen (path ++ [0]) with
    | none => loadL1Stub env name
    | some handle => do
      Proc.modify (World.opened handle)
      Proc.errdefer (World.dlclose handle) <|
        if env.initSym = false then Proc.fail .outOfMemory
        else
          match env.dlsym handle (initSymbol name) with
          | none => do
            Proc.modify (World.dlclose handle)
            loadL1Stub env name
          | some entry => addSkill env name .l1 (some entry) (some handle)

/-- The signature check is a stub. -/
def verifySignature (_data : List UInt8) : Bool := true

def loadL2 (env : Env) (name bytecode : List UInt8) : Proc World SkillError Unit :=
  if !verifySignature bytecode then Proc.fail .signatureVerificationFailed
  else addSkill env name .l2 none none

/-- What `execute` calls. -/
def target (skill : SkillMeta) : Option Entry :=
  match skill.tier with
  | .l0 => skill.entryPoint
  | .l1 => skill.entryPoint
  | .l2 => none

/-- `execute` up to the call of the entry, or to its end when there is none. -/
def execute (name : List UInt8) : Proc World SkillError Unit := do
  let w ← Proc.get
  match w.skills.find? (·.name = name) with
  | none => Proc.fail .skillNotFound
  | some skill => do
    let slot := w.skills.findIdx (·.name = name)
    if skill.state ≠ .loaded ∧ skill.state ≠ .paused then Proc.fail .skillNotReady
    else do
      Proc.modify (World.setState slot .running)
      match target skill with
      | none => Proc.modify (World.setState slot .loaded)
      | some entry => Proc.modify fun w => { w with
          frames := ⟨slot, skill.serial⟩ :: w.frames
          invoked := w.invoked ++ [(skill.tier, entry)] }

/-- The rest of `execute`, when the entry has returned. -/
def finish (frame : Frame) (frames : List Frame) : Proc World SkillError Unit := do
  Proc.modify fun w => { w with frames := frames }
  Proc.modify (World.setState frame.slot .loaded)

def pause (name : List UInt8) : Proc World SkillError Unit := do
  let w ← Proc.get
  match w.skills.find? (·.name = name) with
  | none => Proc.fail .skillNotFound
  | some skill =>
    if skill.state ≠ .running then Proc.fail .skillNotRunning
    else Proc.modify (World.setState (w.skills.findIdx (·.name = name)) .paused)

/-- `if (skill.so_handle) |handle| { _ = c.dlclose(handle); }` -/
def closeHandle (skill : SkillMeta) (w : World) : World :=
  match skill.soHandle with
  | none => w
  | some handle => w.dlclose handle

/-- `if (skill.arena) |arena| { arena.deinit(); }` -/
def endArena (skill : SkillMeta) (w : World) : World :=
  match skill.arena with
  | none => w
  | some box => w.deinitArena box

/-- The heap object of the arena is not destroyed. -/
def unload (name : List UInt8) : Proc World SkillError Unit := do
  let w ← Proc.get
  match w.skills.find? (·.name = name) with
  | none => Proc.fail .skillNotFound
  | some skill =>
    if skill.state = .running then Proc.fail .skillStillRunning
    else do
      Proc.modify (closeHandle skill)
      Proc.modify (endArena skill)
      Proc.modify fun w => { w with skills := w.skills.eraseP (·.name = name) }

section Outcomes

variable {w : World} {name : List UInt8} {skill : SkillMeta}

theorem execute_of_none (hfind : w.skills.find? (·.name = name) = none) :
    execute name w = (.err .skillNotFound, w) := by
  unfold execute
  rw [Proc.bind_of_ok (Proc.get_run w), hfind]
  rfl

theorem execute_of_not_ready (hfind : w.skills.find? (·.name = name) = some skill)
    (hready : ¬ (skill.state = .loaded ∨ skill.state = .paused)) :
    execute name w = (.err .skillNotReady, w) := by
  unfold execute
  rw [Proc.bind_of_ok (Proc.get_run w), hfind]
  dsimp only
  rw [if_pos (not_or.mp hready)]
  rfl

/-- The process when the entry is called, or when `execute` has returned without one. -/
def executed (name : List UInt8) (skill : SkillMeta) (w : World) : World :=
  let slot := w.skills.findIdx (·.name = name)
  match target skill with
  | none => (w.setState slot .running).setState slot .loaded
  | some entry => { w.setState slot .running with
      frames := ⟨slot, skill.serial⟩ :: w.frames
      invoked := w.invoked ++ [(skill.tier, entry)] }

theorem execute_of_ready (hfind : w.skills.find? (·.name = name) = some skill)
    (hready : skill.state = .loaded ∨ skill.state = .paused) :
    execute name w = (.ok (), executed name skill w) := by
  unfold execute executed
  rw [Proc.bind_of_ok (Proc.get_run w), hfind]
  dsimp only
  rw [if_neg (not_and_or.mpr (hready.imp not_not.mpr not_not.mpr)),
    Proc.bind_of_ok (Proc.modify_run _ _)]
  cases target skill <;> rfl

theorem pause_of_none (hfind : w.skills.find? (·.name = name) = none) :
    pause name w = (.err .skillNotFound, w) := by
  unfold pause
  rw [Proc.bind_of_ok (Proc.get_run w), hfind]
  rfl

theorem pause_of_not_running (hfind : w.skills.find? (·.name = name) = some skill)
    (hstate : skill.state ≠ .running) : pause name w = (.err .skillNotRunning, w) := by
  unfold pause
  rw [Proc.bind_of_ok (Proc.get_run w), hfind]
  dsimp only
  rw [if_pos hstate]
  rfl

theorem pause_of_running (hfind : w.skills.find? (·.name = name) = some skill)
    (hstate : skill.state = .running) : pause name w =
      (.ok (), w.setState (w.skills.findIdx (·.name = name)) .paused) := by
  unfold pause
  rw [Proc.bind_of_ok (Proc.get_run w), hfind]
  dsimp only
  rw [if_neg (not_not.mpr hstate)]
  rfl

theorem unload_of_none (hfind : w.skills.find? (·.name = name) = none) :
    unload name w = (.err .skillNotFound, w) := by
  unfold unload
  rw [Proc.bind_of_ok (Proc.get_run w), hfind]
  rfl

theorem unload_of_running (hfind : w.skills.find? (·.name = name) = some skill)
    (hstate : skill.state = .running) : unload name w = (.err .skillStillRunning, w) := by
  unfold unload
  rw [Proc.bind_of_ok (Proc.get_run w), hfind]
  dsimp only
  rw [if_pos hstate]
  rfl

theorem unload_of_not_running (hfind : w.skills.find? (·.name = name) = some skill)
    (hstate : skill.state ≠ .running) : unload name w = (.ok (),
      { endArena skill (closeHandle skill w) with
        skills := w.skills.eraseP (·.name = name) }) := by
  have hskills : (endArena skill (closeHandle skill w)).skills = w.skills := by
    unfold endArena closeHandle
    cases skill.arena <;> cases skill.soHandle <;> rfl
  unfold unload
  rw [Proc.bind_of_ok (Proc.get_run w), hfind]
  dsimp only
  rw [if_neg hstate, Proc.bind_of_ok (Proc.modify_run _ _), Proc.bind_of_ok (Proc.modify_run _ _),
    Proc.modify_run, hskills]

end Outcomes

/-- What `deinit` does to one skill. -/
def deinitSkill (w : World) (skill : SkillMeta) : World :=
  let w := endArena skill (closeHandle skill w)
  match skill.arena with
  | none => w
  | some box => w.destroy box

def deinit (w : World) : World := w.skills.foldl deinitSkill w

end SkillLoader

/-- A call of the loader, the return of the entry that runs, or a change of the pools by their
other users. -/
inductive Call where
  | registerL0 (env : Env) (name : List UInt8) (entry : Entry)
  | loadL1 (env : Env) (name path : List UInt8)
  | loadL2 (env : Env) (name bytecode : List UInt8)
  | execute (name : List UInt8)
  | finish
  | pause (name : List UInt8)
  | unload (name : List UInt8)
  | others (globals : Gqap.Globals)

/-- What a call returns and leaves behind. There is no return without an entry that runs. -/
def play (w : World) : Call → Option (Outcome SkillError Unit × World)
  | .registerL0 env name entry => some (SkillLoader.registerL0 env name entry w)
  | .loadL1 env name path => some (SkillLoader.loadL1 env name path w)
  | .loadL2 env name bytecode => some (SkillLoader.loadL2 env name bytecode w)
  | .execute name => some (SkillLoader.execute name w)
  | .finish =>
    match w.frames with
    | [] => none
    | frame :: frames => some (SkillLoader.finish frame frames w)
  | .pause name => some (SkillLoader.pause name w)
  | .unload name => some (SkillLoader.unload name w)
  | .others globals => some (.ok (), { w with globals := globals })

/-! What the writes of states keep, these calls keep. -/

section Keeps

variable {I : World → Prop} {w w' : World} {name : List UInt8} {r : Outcome SkillError Unit}

theorem execute_keeps (hset : ∀ w i state, I w → I (w.setState i state))
    (hcall : ∀ w frames invoked, I w → I { w with frames := frames, invoked := invoked })
    (h : I w) (hplay : play w (.execute name) = some (r, w')) : I w' := by
  have hrun : SkillLoader.execute name w = (r, w') := Option.some.inj hplay
  cases hfind : w.skills.find? (·.name = name) with
  | none =>
    rw [SkillLoader.execute_of_none hfind] at hrun
    cases hrun
    exact h
  | some skill =>
    by_cases hready : skill.state = .loaded ∨ skill.state = .paused
    swap
    · rw [SkillLoader.execute_of_not_ready hfind hready] at hrun
      cases hrun
      exact h
    rw [SkillLoader.execute_of_ready hfind hready] at hrun
    cases hrun
    have hrunning := hset w (w.skills.findIdx (·.name = name)) .running h
    unfold SkillLoader.executed
    cases SkillLoader.target skill with
    | none => exact hset _ _ _ hrunning
    | some entry => exact hcall _ _ _ hrunning

theorem finish_keeps (hset : ∀ w i state, I w → I (w.setState i state))
    (hcall : ∀ w frames invoked, I w → I { w with frames := frames, invoked := invoked })
    (h : I w) (hplay : play w .finish = some (r, w')) : I w' := by
  unfold play at hplay
  cases hframes : w.frames with
  | nil =>
    rw [hframes] at hplay
    cases hplay
  | cons frame frames =>
    rw [hframes] at hplay
    cases hplay
    exact hset _ _ _ (hcall w frames w.invoked h)

theorem pause_keeps (hset : ∀ w i state, I w → I (w.setState i state)) (h : I w)
    (hplay : play w (.pause name) = some (r, w')) : I w' := by
  have hrun : SkillLoader.pause name w = (r, w') := Option.some.inj hplay
  cases hfind : w.skills.find? (·.name = name) with
  | none =>
    rw [SkillLoader.pause_of_none hfind] at hrun
    cases hrun
    exact h
  | some skill =>
    by_cases hstate : skill.state = .running
    · rw [SkillLoader.pause_of_running hfind hstate] at hrun
      cases hrun
      exact hset _ _ _ h
    · rw [SkillLoader.pause_of_not_running hfind hstate] at hrun
      cases hrun
      exact h

/-- The removal of a skill, behind the calls that give its resources back. -/
theorem unload_keeps (hremove : ∀ skill, w.skills.find? (·.name = name) = some skill →
      I { SkillLoader.endArena skill (SkillLoader.closeHandle skill w) with
        skills := w.skills.eraseP (·.name = name) })
    (h : I w) (hplay : play w (.unload name) = some (r, w')) : I w' := by
  have hrun : SkillLoader.unload name w = (r, w') := Option.some.inj hplay
  cases hfind : w.skills.find? (·.name = name) with
  | none =>
    rw [SkillLoader.unload_of_none hfind] at hrun
    cases hrun
    exact h
  | some skill =>
    by_cases hstate : skill.state = .running
    · rw [SkillLoader.unload_of_running hfind hstate] at hrun
      cases hrun
      exact h
    · rw [SkillLoader.unload_of_not_running hfind hstate] at hrun
      cases hrun
      exact hremove skill hfind

end Keeps

/-- A trap stops the process. -/
def resume : Outcome SkillError Unit × World → Option World
  | (.trap _, _) => none
  | (_, w') => some w'

def step (w : World) (call : Call) : Option World := (play w call).bind resume

end LingNet.Skill
