import LingNet.Gqap.Arena
import LingNet.Zig.Ghost
import LingNet.Zig.Heap

/-! The generator of skills, with a record of what its calls take from the allocator and the block
pools and of what they give back. -/
namespace LingNet.Generator
open Zig

inductive GenerateError where
  | outOfMemory
  | poolExhausted
  deriving DecidableEq, Repr

def GenerateError.ofArena : Gqap.ArenaError → GenerateError
  | .poolExhausted => .poolExhausted
  | .outOfMemory => .outOfMemory

inductive RemoveError where
  | skillNotFound
  deriving DecidableEq, Repr

/-- A `[]const u8` and the region that it came in. A constant of the program and an empty slice
have none. -/
structure Slice where
  bytes : List UInt8
  region : Option Region
  empty : bytes = [] → region = none

structure SkillTemplate where
  name : List UInt8

/-- `arena` is the region of the arena object. -/
structure GeneratedSkill where
  name : Slice
  bytecode : Slice
  hash : List.Vector UInt8 32
  createdAt : ℤ
  arena : Region

/-- The process around a generator. `held` are the blocks that its arenas took from the pools and
did not give back, `invalid` is what it passed to `free` that the allocator had not handed out. -/
structure World where
  globals : Gqap.Globals
  allocator : Allocator
  arenas : Region → Option Gqap.Arena := fun _ => none
  held : List Gqap.BlockId := []
  invalid : List Slice := []
  generated : List GeneratedSkill := []
  buffer : Option Region := none

/-- The bytes of `hash`, each an eighth of the word. -/
def hashBytes (h : UInt64) : List.Vector UInt8 32 :=
  List.Vector.ofFn fun i => (h >>> (UInt64.ofNat (i % 8) * 8)).toUInt8

namespace SkillGenerator

/-- `SkillGenerator.init`, in a process whose allocator fails as given. -/
def init (globals : Gqap.Globals) (fails : ℕ → Bool) : World where
  globals := globals
  allocator := { fails }

/-- A request to the allocator. -/
def request : Proc World GenerateError Region := fun w =>
  ((Allocator.alloc .outOfMemory w.allocator).1,
    { w with allocator := (Allocator.alloc GenerateError.outOfMemory w.allocator).2 })

/-- `arena.* = try gqap.Arena(.untrusted).init()` -/
def initArena (arena : Region) : Proc World GenerateError Unit := fun w =>
  match Gqap.Arena.init .untrusted w.globals with
  | .ok (a, s) => (.ok (), { w with
      globals := s
      arenas := Function.update w.arenas arena (some a)
      held := a.block :: w.held })
  | .err e => (.err (.ofArena e), w)
  | .trap t => (.trap t, w)

/-- The constant that stands for the code of every skill. -/
def stub : Slice where
  bytes := [0x90, 0x90, 0xC3]
  region := none
  empty _ := rfl

def generateBytecode (_template : SkillTemplate) : Proc World GenerateError Slice := pure stub

/-- `self.allocator.dupe`, which asks for nothing if there is nothing to copy. -/
def dupe (bytes : List UInt8) : Proc World GenerateError Slice :=
  if h : bytes = [] then pure ⟨[], none, fun _ => rfl⟩
  else do
    let r ← request
    pure ⟨bytes, some r, fun hnil => absurd hnil h⟩

/-- The buffer of the list goes back to the allocator, if there is one. -/
def freeBuffer (w : World) : World :=
  match w.buffer with
  | none => w
  | some old => { w with allocator := w.allocator.free old }

/-- The list makes room for one more. If there is a buffer, `room` says whether it has room
already or grows where it is. -/
def grow (room : Bool) : Proc World GenerateError Unit := do
  let w ← Proc.get
  if w.buffer = none ∨ room = false then do
    let r ← request
    Proc.modify fun w => { freeBuffer w with buffer := some r }
  else pure ()

/-- `self.generated.append` -/
def append (room : Bool) (skill : GeneratedSkill) : Proc World GenerateError Unit := do
  grow room
  Proc.modify fun w => { w with generated := w.generated ++ [skill] }

def generate (wyhash : UInt64 → List UInt8 → UInt64) (room : Bool) (template : SkillTemplate) :
    Proc World GenerateError GeneratedSkill := do
  let arena ← request
  initArena arena
  let bytecode ← generateBytecode template
  let h := wyhash 0 bytecode.bytes
  let name ← dupe template.name
  let skill : GeneratedSkill := ⟨name, bytecode, hashBytes h, 0, arena⟩
  append room skill
  pure skill

end SkillGenerator

/-- `allocator.free`. The allocator did not hand out a slice without a region: `invalidFree` says
whether it stops the process then. -/
def free {ε : Type} (invalidFree : Option Fault) (sl : Slice) : Proc World ε Unit :=
  if sl.bytes = [] then pure ()
  else
    match sl.region with
    | some r => Proc.modify fun w => { w with allocator := w.allocator.free r }
    | none => do
      Proc.modify fun w => { w with invalid := sl :: w.invalid }
      match invalidFree with
      | none => pure ()
      | some fault => Proc.lift (.trap fault)

/-- `self.arena.deinit()`. The block goes to the quarantine, the object stays. -/
def deinitArena (arena : Region) (w : World) : World :=
  match w.arenas arena with
  | none => w
  | some a => { w with globals := a.deinit w.globals, held := w.held.erase a.block }

def GeneratedSkill.deinit {ε : Type} (invalidFree : Option Fault) (skill : GeneratedSkill) :
    Proc World ε Unit := do
  Proc.modify (deinitArena skill.arena)
  free invalidFree skill.bytecode
  free invalidFree skill.name

namespace SkillGenerator

/-- The skill that `remove` finds is taken out by `orderedRemove`. -/
def remove (invalidFree : Option Fault) (name : List UInt8) : Proc World RemoveError Unit := do
  let w ← Proc.get
  match w.generated.find? (·.name.bytes = name) with
  | none => Proc.fail .skillNotFound
  | some skill => do
    skill.deinit invalidFree
    Proc.modify fun w => { w with generated := w.generated.eraseP (·.name.bytes = name) }

def deinitAll (invalidFree : Option Fault) : List GeneratedSkill → Proc World Empty Unit
  | [] => pure ()
  | skill :: skills => do
    skill.deinit invalidFree
    deinitAll invalidFree skills

def deinit (invalidFree : Option Fault) : Proc World Empty Unit := do
  let w ← Proc.get
  deinitAll invalidFree w.generated
  Proc.modify freeBuffer

/-- A call of the generator, or a change of the pools by the rest of the process. -/
inductive Call where
  | generate (wyhash : UInt64 → List UInt8 → UInt64) (room : Bool) (template : SkillTemplate)
  | remove (invalidFree : Option Fault) (name : List UInt8)
  | elsewhere (globals : Gqap.Globals)

/-- What a call leaves behind, and whether it stops the process. -/
def play (w : World) : Call → Bool × World
  | .generate wyhash room template =>
    let r := generate wyhash room template w
    (r.1.stops, r.2)
  | .remove invalidFree name =>
    let r := remove invalidFree name w
    (r.1.stops, r.2)
  | .elsewhere globals => (false, { w with globals })

def step (w : World) (call : Call) : Option World :=
  if (play w call).1 then none else some (play w call).2

end SkillGenerator
end LingNet.Generator
