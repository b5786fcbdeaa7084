import Mathlib.Logic.Function.Basic
import LingNet.Lib.Run

/-! The flag of the background sanitizer under concurrency: calls of `startSanitizer` and the
loops they spawn work on it in atomic steps, in any order. -/
namespace LingNet.Orchestrator
open Function

abbrev ThreadId := ℕ

/-- Where a thread stands in `startSanitizer`: behind the load that has found the flag false, or
behind the spawn. -/
inductive StartPc where
  | idle
  | spawning
  | storing
  deriving DecidableEq, Repr

/-- Where a loop stands: before the load of its next round, before the store that follows a load
of false, or behind it. -/
inductive LoopPc where
  | checking
  | exiting
  | exited
  deriving DecidableEq, Repr

structure Sanitizer where
  sanitizerAlive : Bool
  start : ThreadId → StartPc
  loops : List LoopPc

/-- The flag after `Orchestrator.init`. -/
def Sanitizer.init : Sanitizer where
  sanitizerAlive := false
  start _ := .idle
  loops := []

/-- An atomic step: the three of a `startSanitizer` call by a thread, of which the spawn may fail,
or the next one of a loop. -/
inductive Event where
  | load (t : ThreadId)
  | spawn (t : ThreadId) (spawned : Bool)
  | store (t : ThreadId)
  | round (i : ℕ)
  deriving DecidableEq, Repr

namespace Sanitizer

def goto (s : Sanitizer) (t : ThreadId) (pc : StartPc) : Sanitizer :=
  { s with start := update s.start t pc }

/-- `self.sanitizer_alive.load(.acquire)` -/
def load (s : Sanitizer) (t : ThreadId) : Option Sanitizer :=
  match s.start t with
  | .idle => if s.sanitizerAlive then some s else some (s.goto t .spawning)
  | _ => none

/-- `try std.Thread.spawn(.{}, sanitizerLoop, .{ self, config })` -/
def spawn (s : Sanitizer) (t : ThreadId) (spawned : Bool) : Option Sanitizer :=
  match s.start t with
  | .spawning =>
    if spawned then some ({ s with loops := s.loops ++ [LoopPc.checking] }.goto t .storing)
    else some (s.goto t .idle)
  | _ => none

/-- `self.sanitizer_alive.store(true, .release)` -/
def store (s : Sanitizer) (t : ThreadId) : Option Sanitizer :=
  match s.start t with
  | .storing => some ({ s with sanitizerAlive := true }.goto t .idle)
  | _ => none

/-- A step of `sanitizerLoop`. -/
def round (s : Sanitizer) (i : ℕ) : Option Sanitizer :=
  match s.loops[i]? with
  | some .checking =>
    if s.sanitizerAlive then some s else some { s with loops := s.loops.set i .exiting }
  | some .exiting => some { s with sanitizerAlive := false, loops := s.loops.set i .exited }
  | _ => none

/-- The loops that have been spawned and have not exited. -/
def live (s : Sanitizer) : ℕ := s.loops.countP (· ≠ .exited)

/-- Without a call in progress, the flag is true only if there is one loop. -/
def Truthful (s : Sanitizer) : Prop :=
  (∀ t, s.start t = .idle) → s.sanitizerAlive = true → s.live = 1

def step (s : Sanitizer) : Event → Option Sanitizer
  | .load t => s.load t
  | .spawn t spawned => s.spawn t spawned
  | .store t => s.store t
  | .round i => s.round i

end Sanitizer

/-- A loop is spawned only when no other is there, and the flag is set only while a loop is
there. -/
def Orderly (s : Sanitizer) : Event → Prop
  | .spawn t true => s.start t = .spawning → s.live = 0
  | .store t => s.start t = .storing → s.live ≠ 0
  | _ => True

instance (s : Sanitizer) : ∀ e, Decidable (Orderly s e)
  | .load _ => .isTrue trivial
  | .spawn _ false => .isTrue trivial
  | .spawn t true => inferInstanceAs (Decidable (s.start t = .spawning → s.live = 0))
  | .store t => inferInstanceAs (Decidable (s.start t = .storing → s.live ≠ 0))
  | .round _ => .isTrue trivial

/-- There is at most one loop, and there is one while the flag is true. -/
def Sanitizer.Sole (s : Sanitizer) : Prop :=
  s.live ≤ 1 ∧ (s.sanitizerAlive = true → s.live = 1)

section Steps

variable {s s' : Sanitizer} {t : ThreadId}

@[simp] theorem live_goto (s : Sanitizer) (t : ThreadId) (pc : StartPc) :
    (s.goto t pc).live = s.live := rfl

@[simp] theorem sanitizerAlive_goto (s : Sanitizer) (t : ThreadId) (pc : StartPc) :
    (s.goto t pc).sanitizerAlive = s.sanitizerAlive := rfl

theorem live_append (s : Sanitizer) :
    { s with loops := s.loops ++ [LoopPc.checking] }.live = s.live + 1 := by
  simp [Sanitizer.live]

/-- A step of a loop that is there takes it out of the count if it exits. -/
theorem live_set {i : ℕ} {pc : LoopPc} (hi : s.loops[i]? = some pc) (hlive : pc ≠ .exited)
    (pc' : LoopPc) :
    { s with loops := s.loops.set i pc' }.live + (if pc' = .exited then 1 else 0) = s.live := by
  obtain ⟨hlt, hget⟩ := List.getElem?_eq_some_iff.mp hi
  have hset := List.countP_set (p := fun pc : LoopPc => decide (pc ≠ .exited)) (a := pc') hlt
  have hpos : 0 < s.loops.countP (· ≠ .exited) :=
    List.countP_pos_iff.mpr ⟨pc, hget ▸ List.getElem_mem hlt, by simpa using hlive⟩
  have hone : decide (s.loops[i] ≠ .exited) = true := by simpa [hget] using hlive
  simp only [Sanitizer.live]
  by_cases hpc : pc' = .exited
  · have hout : decide (pc' ≠ .exited) = false := by simpa using hpc
    simp only [hone, hout, if_true, Bool.false_eq_true, if_false] at hset
    rw [hset, if_pos hpc]
    omega
  · have hin : decide (pc' ≠ .exited) = true := by simpa using hpc
    simp only [hone, hin, if_true] at hset
    rw [hset, if_neg hpc]
    omega

/-! What each step does, and what it asks for. -/

theorem load_cases (h : s.load t = some s') :
    s.start t = .idle ∧ (s.sanitizerAlive = true ∧ s' = s ∨ s' = s.goto t .spawning) := by
  unfold Sanitizer.load at h
  split at h
  case h_2 => cases h
  case h_1 hidle =>
    split_ifs at h with halive
    · cases h
      exact ⟨hidle, .inl ⟨halive, rfl⟩⟩
    · cases h
      exact ⟨hidle, .inr rfl⟩

theorem spawn_cases {spawned : Bool} (h : s.spawn t spawned = some s') :
    s.start t = .spawning ∧
      s' = if spawned then { s with loops := s.loops ++ [LoopPc.checking] }.goto t .storing
        else s.goto t .idle := by
  unfold Sanitizer.spawn at h
  split at h
  case h_2 => cases h
  case h_1 hspawning =>
    refine ⟨hspawning, ?_⟩
    split_ifs at h ⊢ with hspawned
    · exact (Option.some.inj h).symm
    · exact (Option.some.inj h).symm

theorem store_cases (h : s.store t = some s') :
    s.start t = .storing ∧ s' = { s with sanitizerAlive := true }.goto t .idle := by
  unfold Sanitizer.store at h
  split at h
  case h_2 => cases h
  case h_1 hstoring => exact ⟨hstoring, (Option.some.inj h).symm⟩

theorem round_cases {i : ℕ} (h : s.round i = some s') :
    (s' = s ∧ s.loops[i]? = some .checking ∧ s.sanitizerAlive = true) ∨
      (s' = { s with loops := s.loops.set i .exiting } ∧ s.loops[i]? = some .checking ∧
        s.sanitizerAlive = false) ∨
      (s' = { s with sanitizerAlive := false, loops := s.loops.set i .exited } ∧
        s.loops[i]? = some .exiting) := by
  unfold Sanitizer.round at h
  split at h
  case h_1 hchecking =>
    split_ifs at h with halive
    · exact .inl ⟨(Option.some.inj h).symm, hchecking, halive⟩
    · exact .inr (.inl ⟨(Option.some.inj h).symm, hchecking, by simpa using halive⟩)
  case h_2 hexiting => exact .inr (.inr ⟨(Option.some.inj h).symm, hexiting⟩)
  case h_3 => cases h

/-! One loop at most: the steps of loops keep it, and those of calls do exactly if they are
orderly. -/

theorem sole_round {i : ℕ} (hsole : s.Sole) (h : s.round i = some s') : s'.Sole := by
  obtain ⟨hle, halive⟩ := hsole
  obtain ⟨rfl, -, -⟩ | ⟨rfl, hi, hfalse⟩ | ⟨rfl, hi⟩ := round_cases h
  · exact ⟨hle, halive⟩
  · have hlive := live_set hi (by decide) .exiting
    simp only [reduceCtorEq, if_false, Nat.add_zero] at hlive
    constructor
    · rw [hlive]
      exact hle
    · intro htrue
      simp [hfalse] at htrue
  · have hlive := live_set hi (by decide) .exited
    constructor
    · change { s with loops := s.loops.set i .exited }.live ≤ 1
      omega
    · intro htrue
      cases htrue

theorem sole_spawn {spawned : Bool} (hsole : s.Sole) (h : s.spawn t spawned = some s') :
    s'.Sole ↔ Orderly s (.spawn t spawned) := by
  obtain ⟨hspawning, rfl⟩ := spawn_cases h
  cases spawned with
  | false => exact iff_of_true hsole trivial
  | true =>
    have hlive := live_append s
    constructor
    · intro hsole' _
      have hle : { s with loops := s.loops ++ [LoopPc.checking] }.live ≤ 1 := hsole'.1
      omega
    · intro horderly
      have hzero : s.live = 0 := horderly hspawning
      have hone : { s with loops := s.loops ++ [LoopPc.checking] }.live = 1 := by omega
      exact ⟨Nat.le_of_eq hone, fun _ => hone⟩

theorem sole_store (hsole : s.Sole) (h : s.store t = some s') :
    s'.Sole ↔ Orderly s (.store t) := by
  obtain ⟨hstoring, rfl⟩ := store_cases h
  have hle : s.live ≤ 1 := hsole.1
  constructor
  · intro hsole' _
    have hone : s.live = 1 := hsole'.2 rfl
    omega
  · intro horderly
    have hsome : s.live ≠ 0 := horderly hstoring
    have hone : s.live = 1 := by omega
    exact ⟨hle, fun _ => hone⟩

theorem sole_step {e : Event} (hsole : s.Sole) (h : s.step e = some s') :
    s'.Sole ↔ Orderly s e := by
  cases e with
  | load t =>
    obtain ⟨-, ⟨-, rfl⟩ | rfl⟩ := load_cases h
    · exact iff_of_true hsole trivial
    · exact iff_of_true hsole trivial
  | spawn t spawned => exact sole_spawn hsole h
  | store t => exact sole_store hsole h
  | round i => exact iff_of_true (sole_round hsole h) trivial

theorem sole_init : Sanitizer.init.Sole := by
  constructor
  · simp [Sanitizer.live, Sanitizer.init]
  · intro htrue
    cases htrue

theorem truthful_of_sole (h : s.Sole) : s.Truthful := fun _ halive => h.2 halive

end Steps

open Run
open Sanitizer (step)

/-- Over any interleaving of `startSanitizer` calls and loops that spawns a loop only when none
is there and sets the flag only while one is, the flag tells the truth in every state. -/
theorem truthful_of_orderly (events : List Event) (s : Sanitizer)
    (horderly : AllSteps step Orderly .init events) (hrun : run step .init events = some s) :
    s.Truthful := by
  have hstep : ∀ s e s', s.Sole → Orderly s e → s.step e = some s' → s'.Sole :=
    fun s e s' hsole he h => (sole_step hsole h).mpr he
  have hsole : s.Sole := invariant_of_step hstep sole_init horderly hrun
  exact truthful_of_sole hsole

/-- The states of the run in which a second call finds the sanitizer running. -/
theorem truthful_restart :
    ∃ s, run step .init [.load 0, .spawn 0 true, .store 0, .round 0, .load 1] = some s ∧
      s.sanitizerAlive = true ∧ s.Truthful :=
  ⟨_, rfl, rfl, truthful_of_orderly [.load 0, .spawn 0 true, .store 0, .round 0, .load 1] _
    (by decide) rfl⟩

/-- The first round of the loop may come before the store, and two calls may both find the flag
false: then it is true without a loop, or with two. -/
theorem untruthful :
    (∃ s, run step .init [.load 0, .spawn 0 true, .round 0, .round 0, .store 0] = some s ∧
      ¬ s.Truthful) ∧
    ∃ s, run step .init [.load 0, .load 1, .spawn 0 true, .spawn 1 true, .store 0, .store 1] =
      some s ∧ ¬ s.Truthful := by
  constructor
  · refine ⟨_, rfl, fun h => ?_⟩
    have hlive := h (fun t => by simp [Sanitizer.goto, Sanitizer.init]) rfl
    exact absurd hlive (by decide)
  · refine ⟨_, rfl, fun h => ?_⟩
    have hlive := h (fun t => by
      by_cases h₁ : t = 1
      · rw [h₁]
        rfl
      · by_cases h₀ : t = 0
        · rw [h₀]
          rfl
        · simp [Sanitizer.goto, Sanitizer.init, h₁, h₀]) rfl
    exact absurd hlive (by decide)

end LingNet.Orchestrator
