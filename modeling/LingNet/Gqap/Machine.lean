import LingNet.Gqap.Arena
import LingNet.Lib.Run

/-! The pools under concurrency. Threads work on the free lists in atomic steps, in any order:
loads, stores and exchanges of a head, a `pool_next`, a `retired_gen` or the generation. -/
namespace LingNet.Gqap
open Function

abbrev ThreadId := ℕ

/-- What a thread can begin when it is idle. -/
inductive Task where
  | commonPop
  | commonPush (b : BlockId)
  | l2Pop
  | l2Push (b : BlockId)
  /-- `Arena(.untrusted).init` -/
  | init
  /-- `Arena(.untrusted).deinit` -/
  | deinit (b : BlockId)
  /-- One round of the sanitizer: `sanitizeOne(currentGeneration())`. -/
  | sanitizeOne
  | incrementGeneration
  deriving DecidableEq, Repr

/-- The atomic step a thread takes next, with the values it has loaded. A pop on behalf of
`init` carries the generation that `init` loaded; `sanitizing` tells the two callers of
`popSafe` apart. -/
inductive Pc where
  | idle
  | initGen
  | deinitGen (b : BlockId)
  | sanitizeGen
  | popLoad (p : PoolId) (init : Option ℕ)
  | popNext (p : PoolId) (init : Option ℕ) (head : BlockId)
  | popExchange (p : PoolId) (init : Option ℕ) (head : BlockId) (next : Option BlockId)
  | retire (b : BlockId) (gen : ℕ)
  | pushLoad (p : PoolId) (b : BlockId)
  | pushStore (p : PoolId) (b : BlockId) (head : Option BlockId)
  | pushExchange (p : PoolId) (b : BlockId) (head : Option BlockId)
  | safeLoad (sanitizing : Bool) (gen : ℕ)
  | safeCheck (sanitizing : Bool) (gen : ℕ) (head : BlockId)
  | safeNext (sanitizing : Bool) (head : BlockId)
  | safeStore (sanitizing : Bool) (head : BlockId) (next : Option BlockId)
  deriving DecidableEq, Repr

/-- The shared variables, where each thread stands, and who holds which block. `pushed` and
`returned` count, for each block, the finished pushes into quarantine and the returns of
`popSafe`; no step reads them. -/
structure Machine where
  links : Chain.Links PoolId BlockId
  retiredGen : BlockId → ℕ
  generation : ℕ
  pc : ThreadId → Pc
  held : List (ThreadId × BlockId)
  pushed : BlockId → ℕ
  returned : BlockId → ℕ

inductive Event where
  | start (t : ThreadId) (task : Task)
  | advance (t : ThreadId)
  deriving DecidableEq, Repr

/-- A thread begins a task and takes `n` steps. -/
def Event.solo (t : ThreadId) (task : Task) (n : ℕ) : List Event :=
  .start t task :: List.replicate n (.advance t)

namespace Machine

/-- The machine right after `initPools`, with all threads idle. -/
def booted (s : Globals) : Machine where
  links := s.links
  retiredGen b := (s.blocks b).retiredGen
  generation := s.currentGeneration
  pc _ := .idle
  held := []
  pushed _ := 0
  returned _ := 0

def goto (σ : Machine) (t : ThreadId) (pc : Pc) : Machine := { σ with pc := update σ.pc t pc }

/-- An idle thread begins a task; it pushes and ends only what it holds. -/
def start (σ : Machine) (t : ThreadId) (task : Task) : Option Machine :=
  if σ.pc t ≠ .idle then none
  else match task with
    | .commonPop => some (σ.goto t (.popLoad .common none))
    | .commonPush b => if (t, b) ∈ σ.held then some (σ.goto t (.pushLoad .common b)) else none
    | .l2Pop => some (σ.goto t (.popLoad .l2 none))
    | .l2Push b => if (t, b) ∈ σ.held then some (σ.goto t (.pushLoad .l2 b)) else none
    | .init => some (σ.goto t .initGen)
    | .deinit b => if (t, b) ∈ σ.held then some (σ.goto t (.deinitGen b)) else none
    | .sanitizeOne => some (σ.goto t .sanitizeGen)
    | .incrementGeneration => some { σ with generation := Zig.wrappingAdd σ.generation 1 }

/-- What an `init` that found pool `p` empty tries next; a plain pop returns null. -/
def afterEmpty (p : PoolId) : Option ℕ → Pc
  | none => .idle
  | some gen => if p = .l2 then .popLoad .common (some gen) else .safeLoad false gen

/-- The next atomic step of a thread; none when it is idle, or when `popSafe` traps. -/
def advance (σ : Machine) (t : ThreadId) : Option Machine :=
  match σ.pc t with
  | .idle => none
  | .initGen => some (σ.goto t (.popLoad .l2 (some σ.generation)))
  | .deinitGen b => some (σ.goto t (.retire b σ.generation))
  | .sanitizeGen => some (σ.goto t (.safeLoad true σ.generation))
  | .popLoad p init =>
    match σ.links.head p with
    | none => some (σ.goto t (afterEmpty p init))
    | some head => some (σ.goto t (.popNext p init head))
  | .popNext p init head => some (σ.goto t (.popExchange p init head (σ.links.next head)))
  | .popExchange p init head next =>
    if σ.links.head p = some head then
      some ({ σ with links := σ.links.setHead p next, held := (t, head) :: σ.held }.goto t .idle)
    else some (σ.goto t (.popLoad p init))
  | .retire b gen =>
    some ({ σ with retiredGen := update σ.retiredGen b gen }.goto t (.pushLoad .quarantine b))
  | .pushLoad p b => some (σ.goto t (.pushStore p b (σ.links.head p)))
  | .pushStore p b head =>
    some ({ σ with links := σ.links.setNext b head }.goto t (.pushExchange p b head))
  | .pushExchange p b head =>
    if σ.links.head p = head then
      some ({ σ with
        links := σ.links.setHead p (some b)
        held := σ.held.erase (t, b)
        pushed := if p = PoolId.quarantine then update σ.pushed b (σ.pushed b + 1)
          else σ.pushed }.goto t .idle)
    else some (σ.goto t (.pushLoad p b))
  | .safeLoad sanitizing gen =>
    match σ.links.head .quarantine with
    | none => some (σ.goto t .idle)
    | some head => some (σ.goto t (.safeCheck sanitizing gen head))
  | .safeCheck sanitizing gen head =>
    match (Zig.add (σ.retiredGen head) 1 : Zig.Outcome ArenaError ℕ) with
    | .ok due => some (σ.goto t (if gen ≤ due then .idle else .safeNext sanitizing head))
    | _ => none
  | .safeNext sanitizing head =>
    some (σ.goto t (.safeStore sanitizing head (σ.links.next head)))
  | .safeStore sanitizing head next =>
    some ({ σ with
      links := σ.links.setHead .quarantine next
      held := (t, head) :: σ.held
      returned := update σ.returned head (σ.returned head + 1) }.goto t
        (if sanitizing then .pushLoad .l2 head else .idle))

def step (σ : Machine) : Event → Option Machine
  | .start t task => σ.start t task
  | .advance t => σ.advance t

/-- Before the step: the exchange of a pop that will succeed has loaded a successor that is
null or still behind the head, and the store of `popSafe` finds both loaded values unchanged. -/
def Fresh (σ : Machine) : Event → Prop
  | .start _ _ => True
  | .advance t =>
    match σ.pc t with
    | .popExchange p _ head next => σ.links.head p = some head →
        ∀ b, next = some b → Chain.Reaches σ.links.next (σ.links.next head) b
    | .safeStore _ head next =>
        σ.links.head .quarantine = some head ∧ σ.links.next head = next
    | _ => True

@[simp] theorem links_goto (σ : Machine) (t : ThreadId) (pc : Pc) :
    (σ.goto t pc).links = σ.links := rfl

@[simp] theorem pc_goto_self (σ : Machine) (t : ThreadId) (pc : Pc) : (σ.goto t pc).pc t = pc :=
  update_self ..

theorem pc_goto_of_ne (σ : Machine) {t u : ThreadId} (h : u ≠ t) (pc : Pc) :
    (σ.goto t pc).pc u = σ.pc u := update_of_ne h ..

end Machine
end LingNet.Gqap
