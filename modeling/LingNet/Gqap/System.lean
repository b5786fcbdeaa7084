import LingNet.Gqap.Arena
import LingNet.Lib.Custody
import LingNet.Lib.Run

/-! Sequential clients of the pools: any program of arena calls, writes through the slices
of live arenas, generation changes and sanitizer rounds. -/
namespace LingNet.Gqap
open Function

/-- A live arena with the slices it handed out. -/
structure Handle where
  arena : Arena
  slices : List Slice
  deriving DecidableEq, Repr

structure System where
  globals : Globals
  live : List Handle

/-- One client action. Arenas are named by their position in the list of live arenas, the
latest first; an arena that was ended is no longer in the list. -/
inductive Op where
  | init (tier : SecurityTier)
  | alloc (i : ℕ) (T : ElemType) (count : ℕ)
  | write (tier : SecurityTier) (i k offset : ℕ) (bytes : List UInt8)
  | deinit (i : ℕ)
  | deinitAndZero (i : ℕ)
  | incrementGeneration
  | sanitizeOne (currentGen : ℕ)

/-- An error leaves the process as it was; a trap, or an arena or a slice that does not
exist, leaves no next state. -/
def step (σ : System) : Op → Option System
  | .init tier =>
    match Arena.init tier σ.globals with
    | .ok (a, s) => some ⟨s, ⟨a, []⟩ :: σ.live⟩
    | .err _ => some σ
    | .trap _ => none
  | .alloc i T count =>
    match σ.live[i]? with
    | none => none
    | some h =>
      match h.arena.alloc T count σ.globals with
      | .ok (sl, a, s) => some ⟨s, σ.live.set i ⟨a, sl :: h.slices⟩⟩
      | .err _ => some σ
      | .trap _ => none
  | .write tier i k offset bytes =>
    match σ.live[i]? with
    | none => none
    | some h =>
      match h.slices[k]? with
      | none => none
      | some sl =>
        if h.arena.tier = tier ∧ offset + bytes.length ≤ sl.len then
          some { σ with globals := σ.globals.store (sl.ptr + offset) bytes }
        else none
  | .deinit i =>
    match σ.live[i]? with
    | none => none
    | some h => some ⟨h.arena.deinit σ.globals, σ.live.eraseIdx i⟩
  | .deinitAndZero i =>
    match σ.live[i]? with
    | none => none
    | some h => some ⟨h.arena.deinitAndZero σ.globals, σ.live.eraseIdx i⟩
  | .incrementGeneration => some { σ with globals := incrementGeneration σ.globals }
  | .sanitizeOne currentGen =>
    match (sanitizeOne σ.globals currentGen : Zig.Outcome ArenaError _) with
    | .ok (_, s) => some { σ with globals := s }
    | .err _ => some σ
    | .trap _ => none

/-- The process right after `initPools`, with no arena yet. -/
def booted (s : Globals) : System := ⟨s, []⟩

def run (σ : System) (ops : List Op) : Option System := Run.run step σ ops

end LingNet.Gqap
