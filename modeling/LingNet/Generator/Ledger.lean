import LingNet.Generator.Generate
import LingNet.Lib.Custody
import LingNet.Lib.Run

/-! Which regions the generator loses, and when its memory and its blocks are in order. -/
namespace LingNet.Generator
open Zig

/-- The regions that `deinit` gives back with the skill. -/
def GeneratedSkill.regions (skill : GeneratedSkill) : List Region :=
  skill.bytecode.region.toList ++ skill.name.region.toList

/-- The regions that the generator can give back. -/
def World.owned (w : World) : List Region :=
  w.buffer.toList ++ w.generated.flatMap GeneratedSkill.regions

/-- Every region that was handed out was given back, is owned or is lost. -/
def Balanced (w : World) (lost : List Region) : Prop := w.allocator.Accounts (w.owned ++ lost)

/-! What goes back. -/

/-- From `w` to `w'` the regions go back to the allocator. -/
structure GivesBack (regions : List Region) (w w' : World) : Prop where
  generated : w'.generated = w.generated
  buffer : w'.buffer = w.buffer
  accounts : ∀ owned, w.allocator.Accounts (regions ++ owned) → w'.allocator.Accounts owned

/-- The call gives the regions back, or an invalid `free` stops the process. -/
def Returns {ε : Type} (invalidFree : Option Fault) (regions : List Region)
    (x : Proc World ε Unit) : Prop :=
  ∀ w, (∃ w', x w = (.ok (), w') ∧ GivesBack regions w w') ∨
    invalidFree ≠ none ∧ ∃ t w', x w = (.trap t, w')

section Returns

variable {ε : Type} {invalidFree : Option Fault} {regions regions' : List Region}

theorem GivesBack.trans {w w' w'' : World} (h : GivesBack regions w w')
    (h' : GivesBack regions' w' w'') : GivesBack (regions ++ regions') w w'' where
  generated := h'.generated.trans h.generated
  buffer := h'.buffer.trans h.buffer
  accounts owned haccounts := by
    rw [List.append_assoc] at haccounts
    exact h'.accounts owned (h.accounts _ haccounts)

theorem Returns.bind {x y : Proc World ε Unit} (hx : Returns invalidFree regions x)
    (hy : Returns invalidFree regions' y) :
    Returns invalidFree (regions ++ regions') (x >>= fun _ => y) := by
  intro w
  rcases hx w with ⟨w', hrun, hback⟩ | ⟨hfree, t, w', hrun⟩
  · rw [Proc.bind_of_ok hrun]
    rcases hy w' with ⟨w'', hrun', hback'⟩ | htrap
    · exact .inl ⟨w'', hrun', hback.trans hback'⟩
    · exact .inr htrap
  · exact .inr ⟨hfree, t, w', Proc.bind_of_trap hrun _⟩

theorem returns_pure : Returns invalidFree [] (pure () : Proc World ε Unit) :=
  fun w => .inl ⟨w, rfl, rfl, rfl, fun _ h => h⟩

theorem returns_deinitArena (arena : Region) :
    Returns invalidFree [] (Proc.modify (deinitArena arena) : Proc World ε Unit) := by
  intro w
  refine .inl ⟨deinitArena arena w, rfl, ?_⟩
  unfold deinitArena
  cases w.arenas arena with
  | none => exact ⟨rfl, rfl, fun _ h => h⟩
  | some a => exact ⟨rfl, rfl, fun _ h => h⟩

theorem returns_free (sl : Slice) :
    Returns invalidFree sl.region.toList (free invalidFree sl : Proc World ε Unit) := by
  intro w
  unfold free
  by_cases hbytes : sl.bytes = []
  · rw [if_pos hbytes, sl.empty hbytes]
    exact returns_pure w
  rw [if_neg hbytes]
  cases sl.region with
  | some r => exact .inl ⟨_, rfl, rfl, rfl, fun owned haccounts => haccounts.free⟩
  | none =>
    cases invalidFree with
    | none => exact .inl ⟨_, rfl, rfl, rfl, fun _ h => h⟩
    | some fault => exact .inr ⟨Option.some_ne_none fault, fault, _, rfl⟩

theorem returns_deinit (skill : GeneratedSkill) :
    Returns invalidFree skill.regions (skill.deinit invalidFree : Proc World ε Unit) := by
  have hbytecode : Returns invalidFree skill.bytecode.region.toList
      (free invalidFree skill.bytecode : Proc World ε Unit) := returns_free skill.bytecode
  exact (returns_deinitArena skill.arena).bind (hbytecode.bind (returns_free skill.name))

end Returns

namespace SkillGenerator

variable {w w' : World} {lost : List Region} {r : Region} {invalidFree : Option Fault}
  {room : Bool} {skill : GeneratedSkill}

theorem returns_deinitAll (skills : List GeneratedSkill) :
    Returns invalidFree (skills.flatMap GeneratedSkill.regions) (deinitAll invalidFree skills) := by
  induction skills with
  | nil => exact returns_pure
  | cons skill skills ih =>
    rw [List.flatMap_cons]
    exact (returns_deinit skill).bind ih

theorem givesBack_freeBuffer (w : World) : GivesBack w.buffer.toList w (freeBuffer w) := by
  unfold freeBuffer
  cases hbuffer : w.buffer with
  | none => exact ⟨rfl, rfl, fun _ h => h⟩
  | some old => exact ⟨rfl, hbuffer.symm, fun owned haccounts => haccounts.free⟩

/-- `deinit` gives back what is owned. -/
theorem accounts_deinit (h : Balanced w lost) :
    ((deinit none).final w).allocator.Accounts lost := by
  have hreturns : Returns none (w.generated.flatMap GeneratedSkill.regions)
      (deinitAll none w.generated) := returns_deinitAll w.generated
  rcases hreturns w with ⟨w', hrun, hback⟩ | ⟨hfree, -⟩
  swap
  · exact absurd rfl hfree
  have hfinal : (deinit none).final w = freeBuffer w' := by
    unfold Proc.final deinit
    rw [Proc.bind_of_ok (Proc.get_run w), Proc.bind_of_ok hrun]
    rfl
  have hbuffer := givesBack_freeBuffer w'
  rw [hback.buffer] at hbuffer
  rw [hfinal]
  apply (hback.trans hbuffer).accounts
  refine h.of_perm (List.Perm.append_right lost ?_)
  exact List.perm_append_comm

/-! What a `generate` takes. -/

theorem request_of_fails (h : w.allocator.fails w.allocator.requests = true) :
    request w = (.err .outOfMemory, { w with allocator := w.allocator.refused }) := by
  unfold request
  rw [Allocator.alloc_of_fails h]

theorem request_of_serves (h : w.allocator.fails w.allocator.requests = false) :
    request w = (.ok w.allocator.requests, { w with allocator := w.allocator.served }) := by
  unfold request
  rw [Allocator.alloc_of_serves h]

theorem dupe_cases (bytes : List UInt8) (w : World) :
    (∃ name a, dupe bytes w = (.ok name, { w with allocator := a }) ∧
      ∀ owned, w.allocator.Accounts owned → a.Accounts (name.region.toList ++ owned)) ∨
    ∃ a, dupe bytes w = (.err .outOfMemory, { w with allocator := a }) ∧
      ∀ owned, w.allocator.Accounts owned → a.Accounts owned := by
  unfold dupe
  by_cases hbytes : bytes = []
  · rw [dif_pos hbytes]
    exact .inl ⟨_, w.allocator, rfl, fun _ h => h⟩
  rw [dif_neg hbytes]
  cases hfails : w.allocator.fails w.allocator.requests with
  | true =>
    rw [Proc.bind_of_err (request_of_fails hfails)]
    exact .inr ⟨_, rfl, fun _ h => h.refused⟩
  | false =>
    rw [Proc.bind_of_ok (request_of_serves hfails)]
    exact .inl ⟨_, _, rfl, fun _ h => h.served⟩

/-- The list owns the skill that it takes. -/
theorem owned_append (w : World) (skill : GeneratedSkill) (lost : List Region) :
    (w.owned ++ (skill.regions ++ lost)).Perm
      (World.owned { w with generated := w.generated ++ [skill] } ++ lost) := by
  unfold World.owned
  simp

theorem grow_cases (room : Bool) (w : World) :
    (∃ w', grow room w = (.ok (), w') ∧ w'.generated = w.generated ∧
      ∀ lost, Balanced w lost → Balanced w' lost) ∨
    ∃ a, grow room w = (.err .outOfMemory, { w with allocator := a }) ∧
      ∀ owned, w.allocator.Accounts owned → a.Accounts owned := by
  unfold grow
  rw [Proc.bind_of_ok (Proc.get_run w)]
  by_cases hroom : w.buffer = none ∨ room = false
  swap
  · rw [if_neg hroom]
    exact .inl ⟨w, rfl, rfl, fun _ h => h⟩
  rw [if_pos hroom]
  cases hfails : w.allocator.fails w.allocator.requests with
  | true =>
    rw [Proc.bind_of_err (request_of_fails hfails)]
    exact .inr ⟨_, rfl, fun _ h => h.refused⟩
  | false =>
    rw [Proc.bind_of_ok (request_of_serves hfails)]
    have hback := givesBack_freeBuffer { w with allocator := w.allocator.served }
    refine .inl ⟨_, rfl, hback.generated, fun lost h => ?_⟩
    -- the new buffer is owned in the place of the old one
    have hserved : w.allocator.served.Accounts (w.buffer.toList ++
        (w.allocator.requests :: (w.generated.flatMap GeneratedSkill.regions ++ lost))) := by
      refine h.served.of_perm ?_
      unfold World.owned
      rw [List.append_assoc]
      exact List.perm_middle.symm
    have hfreed := hback.accounts _ hserved
    unfold Balanced World.owned
    dsimp only
    rw [hback.generated]
    exact hfreed

theorem append_cases (room : Bool) (skill : GeneratedSkill) (w : World) :
    (∃ w', append room skill w = (.ok (), w') ∧
      ∀ lost, Balanced w (skill.regions ++ lost) → Balanced w' lost) ∨
    ∃ a, append room skill w = (.err .outOfMemory, { w with allocator := a }) ∧
      ∀ owned, w.allocator.Accounts owned → a.Accounts owned := by
  unfold append
  rcases grow_cases room w with ⟨w', hrun, -, hkeep⟩ | ⟨a, hrun, hkeep⟩
  · rw [Proc.bind_of_ok hrun]
    exact .inl ⟨_, rfl, fun lost h => (hkeep _ h).of_perm (owned_append w' skill lost)⟩
  · rw [Proc.bind_of_err hrun]
    exact .inr ⟨a, rfl, hkeep⟩

theorem initArena_of_trap {t : Fault} (h : Gqap.Arena.init .untrusted w.globals = .trap t)
    (arena : Region) : initArena arena w = (.trap t, w) := by
  unfold initArena
  rw [h]

theorem initArena_cases (h : ∀ t, Gqap.Arena.init .untrusted w.globals ≠ .trap t)
    (arena : Region) :
    (∃ w', initArena arena w = (.ok (), w') ∧ w'.owned = w.owned ∧ w'.allocator = w.allocator) ∨
      ∃ e, initArena arena w = (.err e, w) := by
  unfold initArena
  cases hinit : Gqap.Arena.init .untrusted w.globals with
  | ok r => exact .inl ⟨_, rfl, rfl, rfl⟩
  | err e => exact .inr ⟨_, rfl⟩
  | trap t => exact absurd hinit (h t)

section Generate

variable (wyhash : UInt64 → List UInt8 → UInt64) (room : Bool) (template : SkillTemplate)

theorem play_generate (w : World) : play w (.generate wyhash room template) =
    ((generate wyhash room template w).1.stops, (generate wyhash room template w).2) := rfl

theorem play_of_fails (h : w.allocator.fails w.allocator.requests = true) :
    play w (.generate wyhash room template) =
      (false, { w with allocator := w.allocator.refused }) := by
  have hrun : generate wyhash room template w =
      (.err .outOfMemory, { w with allocator := w.allocator.refused }) := by
    unfold generate
    exact Proc.bind_of_err (request_of_fails h) _
  rw [play_generate, hrun]
  rfl

theorem play_of_trap {t : Fault} (hserves : w.allocator.fails w.allocator.requests = false)
    (htrap : Gqap.Arena.init .untrusted w.globals = .trap t) :
    play w (.generate wyhash room template) =
      (true, { w with allocator := w.allocator.served }) := by
  have hinit : initArena w.allocator.requests { w with allocator := w.allocator.served } =
      (.trap t, { w with allocator := w.allocator.served }) :=
    initArena_of_trap (w := { w with allocator := w.allocator.served }) htrap _
  have hrun : generate wyhash room template w =
      (.trap t, { w with allocator := w.allocator.served }) := by
    unfold generate
    rw [Proc.bind_of_ok (request_of_serves hserves), Proc.bind_of_trap hinit]
  rw [play_generate, hrun]
  rfl

/-- A generate that gets an arena object and goes on loses the object. -/
theorem generate_loses (h : Balanced w lost)
    (hserves : w.allocator.fails w.allocator.requests = false)
    (htraps : ∀ t, Gqap.Arena.init .untrusted w.globals ≠ .trap t) :
    ∃ r w' more, generate wyhash room template w = (r, w') ∧ r.stops = false ∧
      Balanced w' (w.allocator.requests :: more ++ lost) := by
  unfold generate
  rw [Proc.bind_of_ok (request_of_serves hserves)]
  have hobject : Balanced { w with allocator := w.allocator.served }
      (w.allocator.requests :: lost) := h.served.of_perm List.perm_middle.symm
  rcases initArena_cases (w := { w with allocator := w.allocator.served }) htraps
    w.allocator.requests with ⟨w₁, hinit, howned, hallocator⟩ | ⟨e, hinit⟩
  swap
  · rw [Proc.bind_of_err hinit]
    exact ⟨_, _, [], rfl, rfl, hobject⟩
  rw [Proc.bind_of_ok hinit]
  have hstart : Balanced w₁ (w.allocator.requests :: lost) := by
    unfold Balanced at *
    rw [howned, hallocator]
    exact hobject
  have hbytecode : generateBytecode template w₁ = (.ok stub, w₁) := rfl
  rw [Proc.bind_of_ok hbytecode]
  rcases dupe_cases template.name w₁ with ⟨name, a, hdupe, hname⟩ | ⟨a, hdupe, hname⟩
  swap
  · rw [Proc.bind_of_err hdupe]
    exact ⟨_, _, [], rfl, rfl, hname _ hstart⟩
  rw [Proc.bind_of_ok hdupe]
  have hlist : Balanced { w₁ with allocator := a }
      (name.region.toList ++ (w.allocator.requests :: lost)) :=
    (hname _ hstart).of_perm (List.perm_append_comm_assoc _ _ _)
  let skill : GeneratedSkill :=
    ⟨name, stub, hashBytes (wyhash 0 stub.bytes), 0, w.allocator.requests⟩
  rcases append_cases room skill { w₁ with allocator := a } with
    ⟨w', happend, hkeep⟩ | ⟨a', happend, hkeep⟩
  · refine ⟨.ok skill, w', [], Proc.bind_of_ok happend _, rfl, hkeep _ hlist⟩
  · refine ⟨.err .outOfMemory, _, name.region.toList, Proc.bind_of_err happend _, rfl, ?_⟩
    -- the copy of the name is lost with the object
    refine (hkeep _ hlist).of_perm (List.Perm.append_left _ ?_)
    exact List.perm_middle

end Generate

/-! Histories of calls. -/

/-- A generate gets no arena object, or `Arena.init` stops the process. -/
def Spares (w : World) : Call → Prop
  | .generate _ _ _ => w.allocator.fails w.allocator.requests = false →
      ∃ t, Gqap.Arena.init .untrusted w.globals = .trap t
  | .remove _ _ => True
  | .elsewhere _ => True

theorem step_eq_some {call : Call} :
    step w call = some w' ↔ (play w call).1 = false ∧ (play w call).2 = w' := by
  unfold step
  by_cases hstops : (play w call).1 = true
  · rw [if_pos hstops]
    simp [hstops]
  · rw [if_neg hstops]
    simp [hstops]

/-- The call gets an arena object and goes on. -/
theorem loses_of_not_spares {call : Call} (h : Balanced w lost) (hnot : ¬ Spares w call) :
    ∃ w' more, step w call = some w' ∧ more ≠ [] ∧ Balanced w' (more ++ lost) := by
  cases call with
  | elsewhere globals => exact absurd trivial hnot
  | remove invalidFree name => exact absurd trivial hnot
  | generate wyhash room template =>
    obtain ⟨hserves, htraps⟩ := Classical.not_imp.mp hnot
    obtain ⟨r, w', more, hrun, hreturns, hbalanced⟩ :=
      generate_loses wyhash room template h hserves (not_exists.mp htraps)
    refine ⟨w', _, step_eq_some.mpr ⟨?_, ?_⟩, List.cons_ne_nil _ _, hbalanced⟩
    · rw [play_generate, hrun]
      exact hreturns
    · rw [play_generate, hrun]

/-- What was passed to `free` had been handed out and was passed once. -/
def Orderly (w : World) : Prop :=
  w.invalid = [] ∧ ∀ r, w.allocator.freed.count r ≤ if r ∈ w.allocator.handed then 1 else 0

/-- Nothing that the generator got is still held. -/
structure Released (w : World) : Prop where
  orderly : Orderly w
  settled : w.allocator.Settled []
  held : w.held = []

/-- What the call passes to `free` is in order, and if the process goes on, the generator holds a
block for each of its skills and a `deinit` behind the call releases everything. -/
def Sound (w : World) (call : Call) : Prop :=
  Orderly (play w call).2 ∧ ∀ w', step w call = some w' →
    w'.held.length = w'.generated.length ∧
      ∀ invalidFree, Released ((deinit invalidFree).final w')

/-- Nothing was handed out so far. -/
structure Fresh (w : World) : Prop where
  generated : w.generated = []
  buffer : w.buffer = none
  held : w.held = []
  invalid : w.invalid = []
  handed : w.allocator.handed = []
  freed : w.allocator.freed = []

section Fresh

variable {call : Call}

theorem orderly_of_unused (hinvalid : w.invalid = []) (hfreed : w.allocator.freed = []) :
    Orderly w := by
  refine ⟨hinvalid, fun r => ?_⟩
  rw [hfreed]
  exact Nat.zero_le _

theorem Fresh.released (h : Fresh w) (invalidFree : Option Fault) :
    Released ((deinit invalidFree).final w) := by
  have hgenerated := h.generated
  have hbuffer := h.buffer
  have hfinal : (deinit invalidFree).final w = w := by
    unfold Proc.final deinit
    rw [Proc.bind_of_ok (Proc.get_run w), hgenerated]
    change freeBuffer w = w
    unfold freeBuffer
    rw [hbuffer]
  rw [hfinal]
  refine ⟨orderly_of_unused h.invalid h.freed, ?_, h.held⟩
  exact (Allocator.accounts_of_unused h.handed h.freed).settled_iff.mpr rfl

theorem Fresh.sound_of_play (hfresh : Fresh (play w call).2) : Sound w call := by
  refine ⟨orderly_of_unused hfresh.invalid hfresh.freed, fun w' hstep => ?_⟩
  obtain ⟨-, rfl⟩ := step_eq_some.mp hstep
  refine ⟨?_, hfresh.released⟩
  rw [hfresh.held, hfresh.generated]
  rfl

/-- The call leaves a fresh generator behind, or it stops the process before any `free`. -/
theorem Fresh.play_of_spares (h : Fresh w) (hspares : Spares w call) :
    Fresh (play w call).2 ∨ Orderly (play w call).2 ∧ (play w call).1 = true := by
  cases call with
  | elsewhere globals => exact .inl ⟨h.generated, h.buffer, h.held, h.invalid, h.handed, h.freed⟩
  | remove invalidFree name =>
    have hgenerated := h.generated
    have hrun : remove invalidFree name w = (.err .skillNotFound, w) := by
      unfold remove
      rw [Proc.bind_of_ok (Proc.get_run w), hgenerated]
      rfl
    have hplay : (play w (.remove invalidFree name)).2 = w := congrArg Prod.snd hrun
    rw [hplay]
    exact .inl h
  | generate wyhash room template =>
    cases hfails : w.allocator.fails w.allocator.requests with
    | true =>
      rw [play_of_fails wyhash room template hfails]
      exact .inl ⟨h.generated, h.buffer, h.held, h.invalid, h.handed, h.freed⟩
    | false =>
      obtain ⟨t, htrap⟩ := hspares hfails
      rw [play_of_trap wyhash room template hfails htrap]
      exact .inr ⟨orderly_of_unused h.invalid h.freed, rfl⟩

theorem Fresh.sound_iff (h : Fresh w) (call : Call) : Sound w call ↔ Spares w call := by
  constructor
  · intro hsound
    by_contra hnot
    have hbalanced : Balanced w [] := by
      have haccounts := Allocator.accounts_of_unused h.handed h.freed
      unfold Balanced World.owned
      rw [h.buffer, h.generated]
      exact haccounts
    obtain ⟨w', more, hstep, hmore, hafter⟩ := loses_of_not_spares hbalanced hnot
    rw [List.append_nil] at hafter
    have hsettled := ((hsound.2 w' hstep).2 none).settled
    exact hmore ((accounts_deinit hafter).settled_iff.mp hsettled)
  · intro hspares
    rcases h.play_of_spares hspares with hfresh | ⟨horderly, hstops⟩
    · exact hfresh.sound_of_play
    · refine ⟨horderly, fun w' hstep => ?_⟩
      obtain ⟨hreturns, -⟩ := step_eq_some.mp hstep
      rw [hstops] at hreturns
      cases hreturns

theorem Fresh.step_of_spares (h : Fresh w) (hspares : Spares w call)
    (hstep : step w call = some w') : Fresh w' := by
  obtain ⟨hreturns, rfl⟩ := step_eq_some.mp hstep
  rcases h.play_of_spares hspares with hfresh | ⟨-, hstops⟩
  · exact hfresh
  · rw [hstops] at hreturns
    cases hreturns

end Fresh

/-- The ledger of the generator is in order over a history of calls exactly when no generate gets
an arena object and goes on with it. -/
theorem generator_sound_iff (globals : Gqap.Globals) (fails : ℕ → Bool) (calls : List Call) :
    Run.AllSteps step Sound (init globals fails) calls ↔
      Run.AllSteps step Spares (init globals fails) calls := by
  have hfresh : Fresh (init globals fails) := ⟨rfl, rfl, rfl, rfl, rfl, rfl⟩
  exact Run.allSteps_congr (fun w call h => h.sound_iff call)
    (fun w call w' h hspares hstep => h.step_of_spares hspares hstep) hfresh

/-- A generate without a failure loses its arena object, the `remove` behind it passes a constant
to `free`, and a generate without room for the skill keeps its block. -/
theorem object_lost :
    ¬ Run.AllSteps step Sound (init (Gqap.initialGlobals 4096 4 4096) fun _ => false)
      [.generate (fun _ _ => 0) true ⟨[97]⟩] ∧
    (∃ w, Run.run step (init (Gqap.initialGlobals 4096 4 4096) fun _ => false)
      [.generate (fun _ _ => 0) true ⟨[97]⟩, .remove none [97]] = some w ∧ w.invalid ≠ []) ∧
    ∃ w, Run.run step (init (Gqap.initialGlobals 4096 4 4096) (· = 2))
      [.generate (fun _ _ => 0) true ⟨[97]⟩] = some w ∧ w.generated = [] ∧ w.held = [0] := by
  refine ⟨?_, ⟨_, rfl, List.cons_ne_nil _ _⟩, ⟨_, rfl, rfl, rfl⟩⟩
  intro hall
  have hfresh : Fresh (init (Gqap.initialGlobals 4096 4 4096) fun _ => false) :=
    ⟨rfl, rfl, rfl, rfl, rfl, rfl⟩
  have hspares := (hfresh.sound_iff (.generate (fun _ _ => 0) true ⟨[97]⟩)).mp hall.1
  obtain ⟨t, htrap⟩ := hspares rfl
  have hblock : ∃ a s, Gqap.Arena.init .untrusted (Gqap.initialGlobals 4096 4 4096) =
      .ok (a, s) := ⟨_, _, rfl⟩
  obtain ⟨a, s, hok⟩ := hblock
  have hglobals : (init (Gqap.initialGlobals 4096 4 4096) fun _ => false).globals =
      Gqap.initialGlobals 4096 4 4096 := rfl
  rw [hglobals, hok] at htrap
  cases htrap

end SkillGenerator
end LingNet.Generator
