import LingNet.Router.Early

/-! Runs of a race: the turns of its tasks and the waits of its loop. -/
namespace LingNet.Router
open Py Coroutine

/-- An action changes neither the session nor the configuration. -/
theorem answer_keeps [Floats] (self : ModelRouter) (a : Action) (reply : Reply) :
    (answer self a reply).2.session = self.session ∧
      (answer self a reply).2.config = self.config := by
  cases a with
  | observeLatency providerId latencyMs =>
    unfold answer ModelRouter.observeLatency
    dsimp only
    cases self.providers.lookup providerId <;> exact ⟨rfl, rfl⟩
  | _ => exact ⟨rfl, rfl⟩

section Pool

variable {α : Type} {p p' : ModelRouter × List (Routine α)}

theorem advance_keeps [Floats] {i : ℕ × Reply} (h : advance answer p i = some p') :
    p'.1.session = p.1.session ∧ p'.1.config = p.1.config := by
  obtain ⟨a, k, -, rfl⟩ := advance_eq_some.mp h
  exact answer_keeps p.1 a i.2

theorem pool_length [Floats] {turns : List (ℕ × Reply)}
    (h : Run.run (advance answer) p turns = some p') :
    p'.2.length = p.2.length :=
  Run.invariant_of_run (I := fun q => q.2.length = p.2.length)
    (fun _ _ _ hlength hstep => (length_advance hstep).trans hlength) rfl h

theorem pool_always [Floats] {N : (a : Action) → (a.Reply → Routine α) → Prop}
    {turns : List (ℕ × Reply)}
    (hp : ∀ t ∈ p.2, t.Always N) (h : Run.run (advance answer) p turns = some p') :
    ∀ t ∈ p'.2, t.Always N :=
  Run.invariant_of_run (I := fun q => ∀ t ∈ q.2, t.Always N)
    (fun _ _ _ halways hstep => Always.advance halways hstep) hp h

theorem pool_keeps [Floats] {turns : List (ℕ × Reply)}
    (h : Run.run (advance answer) p turns = some p') :
    p'.1.session = p.1.session ∧ p'.1.config = p.1.config :=
  Run.invariant_of_run (I := fun q => q.1.session = p.1.session ∧ q.1.config = p.1.config)
    (fun _ _ _ hkeep hstep => ⟨(advance_keeps hstep).1.trans hkeep.1,
      (advance_keeps hstep).2.trans hkeep.2⟩) ⟨rfl, rfl⟩ h

end Pool

namespace Race

/-- The tasks of a race as a pool. -/
def pool (race : Race) : ModelRouter × List (Routine Outcome) := (race.router, race.tasks)

variable {race race' : Race}

/-- A step of a race is a turn of its pool, or a wait that leaves the pool where it is. -/
theorem step_cases [Floats] {event : RaceEvent} (h : race.step event = some race') :
    ∃ pending, race.state = .waiting pending ∧
      ((∃ i reply, event = .turn i reply ∧ advance answer race.pool (i, reply) = some race'.pool ∧
          race'.state = .waiting pending) ∨
        ∃ group, event = .wake group ∧ group.Perm (pending.filter race.finished) ∧
          race' = { race with state := Router.wake race.outcome pending group }) := by
  unfold step at h
  cases event with
  | turn i reply =>
    dsimp only at h
    split at h
    · next pending hstate =>
      obtain ⟨p, hp, rfl⟩ := Option.map_eq_some_iff.mp h
      exact ⟨pending, hstate, .inl ⟨i, reply, rfl, hp, hstate⟩⟩
    · cases h
  | wake group =>
    dsimp only at h
    split at h
    · next pending hstate =>
      split_ifs at h with hperm
      cases h
      exact ⟨pending, hstate, .inr ⟨group, rfl, hperm, rfl⟩⟩
    · cases h

/-- What a race does to its pool is a run of the pool. -/
theorem run_pool [Floats] {events : List RaceEvent} (h : Run.run step race events = some race') :
    ∃ turns, Run.run (advance answer) race.pool turns = some race'.pool := by
  refine Run.invariant_of_run (I := fun later => ∃ turns,
    Run.run (advance answer) race.pool turns = some later.pool) ?_ ⟨[], rfl⟩ h
  rintro later event later' ⟨turns, hturns⟩ hstep
  obtain ⟨pending, -, ⟨i, reply, -, hadvance, -⟩ | ⟨group, -, -, rfl⟩⟩ := step_cases hstep
  · exact ⟨turns ++ [(i, reply)], Run.run_snoc_eq_some.mpr ⟨_, hturns, hadvance⟩⟩
  · exact ⟨turns, hturns⟩

/-- While the loop waits, the tasks can take any turns. -/
theorem run_turns [Floats] {pending : List ℕ} (hstate : race.state = .waiting pending)
    {turns : List (ℕ × Reply)} {p : ModelRouter × List (Routine Outcome)}
    (h : Run.run (advance answer) race.pool turns = some p) :
    Run.run step race (turns.map fun turn => .turn turn.1 turn.2) =
      some { race with router := p.1, tasks := p.2 } := by
  induction turns generalizing race with
  | nil =>
    cases h
    rfl
  | cons turn turns ih =>
    obtain ⟨q, hq, hrest⟩ := Run.run_cons_eq_some.mp h
    have hstep : race.step (.turn turn.1 turn.2) =
        some { race with router := q.1, tasks := q.2 } := by
      unfold step
      rw [hstate]
      dsimp only
      rw [show advance answer (race.router, race.tasks) (turn.1, turn.2) = some q from hq]
      rfl
    rw [List.map_cons, Run.run_cons_of_step hstep]
    exact ih hstate hrest

theorem run_keeps [Floats] {events : List RaceEvent} (h : Run.run step race events = some race') :
    race'.router.session = race.router.session ∧ race'.router.config = race.router.config := by
  obtain ⟨turns, hturns⟩ := run_pool h
  exact pool_keeps hturns

end Race

/-- No request is answered. -/
def Unanswered : ℚ → (a : Action) → a.Reply → Prop
  | _, .post _ _ _, .value _ => False
  | _, _, _ => True

def Fails (_ : ℚ) (outcome : Outcome) : Prop := ¬ ErrorFree outcome

theorem callProvider_fails [Floats] (config : RoutingConfig) (encode : Tokenizer)
    (providerId : String)
    (provider : ModelProvider) (request : LLMRequest) :
    (callProvider config encode providerId provider request).Along granted Unanswered Fails 0 := by
  refine callProvider_along (fun _ _ => id) (fun _ _ => nofun) ?_
  intro modelConfig estCost _ _
  exact ⟨fun _ _ => nofun, fun _ _ _ _ _ _ hpost => absurd hpost id⟩

/-- The race cannot be won unless a request is answered. -/
structure Race.Failing (race : Race) : Prop where
  tasks : ∀ t ∈ race.tasks, ∃ g, t.Along granted Unanswered Fails g
  state : ∀ response cancelled, race.state ≠ .won response cancelled

/-- Whatever turns the tasks of the pool take, none of them has a request answered. -/
def NeverAnswered [Floats] (p : ModelRouter × List (Routine Outcome)) : Prop :=
  ∀ turns q, Run.run (advance answer) p turns = some q → ∀ a resume, .act a resume ∈ q.2 →
    ∀ g reply, Unanswered g a (answer q.1 a reply).1

namespace Race

variable {race race' : Race}

theorem Failing.outcome (h : race.Failing) (i : ℕ) : ¬ ErrorFree (race.outcome i) := by
  unfold Race.outcome
  cases hi : race.tasks[i]? with
  | none => exact id
  | some t =>
    cases t with
    | act a resume => exact id
    | done outcome =>
      obtain ⟨g, hfails⟩ := h.tasks _ (List.mem_of_getElem? hi)
      exact hfails

theorem Failing.wake_ne_won (h : race.Failing) (pending group : List ℕ) (response : LLMResponse)
    (cancelled : List ℕ) : Router.wake race.outcome pending group ≠ .won response cancelled := by
  unfold Router.wake
  rw [firstSuccess_of_fails fun i _ => h.outcome i]
  dsimp only
  split_ifs <;> nofun

theorem Failing.step [Floats] (h : race.Failing) (hun : NeverAnswered race.pool) {event : RaceEvent}
    (hstep : race.step event = some race') : race'.Failing := by
  obtain ⟨pending, -, ⟨i, reply, -, hadvance, hstate⟩ | ⟨group, -, -, rfl⟩⟩ := step_cases hstep
  · obtain ⟨a, resume, hget, hpool⟩ := advance_eq_some.mp hadvance
    refine ⟨fun t ht => ?_, fun _ _ => by rw [hstate]; nofun⟩
    rw [show race'.tasks = _ from congrArg Prod.snd hpool] at ht
    rcases List.mem_or_eq_of_mem_set ht with ht | rfl
    · exact h.tasks t ht
    · have hmem : .act a resume ∈ race.tasks := List.mem_of_getElem? hget
      obtain ⟨g, hfails⟩ := h.tasks _ hmem
      exact ⟨_, hfails _ (hun [] _ rfl a resume hmem g reply)⟩
  · exact ⟨h.tasks, h.wake_ne_won pending group⟩

theorem Failing.run [Floats] (h : race.Failing) (hun : NeverAnswered race.pool)
    {events : List RaceEvent}
    (hrun : Run.run Race.step race events = some race') : race'.Failing := by
  refine (Run.invariant_of_run (I := fun later => later.Failing ∧ NeverAnswered later.pool) ?_
    ⟨h, hun⟩ hrun).1
  rintro later event later' ⟨hfailing, hnever⟩ hstep
  refine ⟨hfailing.step hnever hstep, fun turns q hq => ?_⟩
  obtain ⟨first, hfirst⟩ := run_pool ((Run.run_singleton Race.step later event).trans hstep)
  exact hnever (first ++ turns) q ((Run.run_append_of_run hfirst turns).trans hq)

section Begun

variable {self : ModelRouter} {encode : Tokenizer} {request : LLMRequest}

theorem begin_eq_ok [Floats] (h : Race.begin self encode request = .ok race) :
    ∃ calls, self.raceCalls request self.config.candidates = .ok calls ∧ race.router = self ∧
      race.tasks = calls.map (fun call => self.makeCall encode (.ok call)) ∧
      race.state = if race.tasks = [] then .lost else .waiting (List.range race.tasks.length) := by
  obtain ⟨calls, hcalls, h⟩ := bind_eq_ok.mp h
  cases h
  refine ⟨calls, hcalls, rfl, rfl, ?_⟩
  dsimp only
  rw [List.length_map]
  exact if_congr List.map_eq_nil_iff.symm rfl rfl

theorem begin_of_raceCalls [Floats] (encode : Tokenizer) {calls : List RaceCall}
    (h : self.raceCalls request self.config.candidates = .ok calls) :
    ∃ race, Race.begin self encode request = .ok race := by
  unfold Race.begin
  rw [h]
  exact ⟨_, rfl⟩

theorem begin_of_error [Floats] {e : Exn}
    (h : self.raceCalls request self.config.candidates = .error e) :
    Race.begin self encode request = .error e := by
  unfold Race.begin
  rw [h]
  rfl

theorem begin_failing [Floats] (h : Race.begin self encode request = .ok race) : race.Failing := by
  obtain ⟨calls, -, -, htasks, hstate⟩ := begin_eq_ok h
  refine ⟨fun t ht => ?_, fun response cancelled => ?_⟩
  · rw [htasks] at ht
    obtain ⟨call, -, rfl⟩ := List.mem_map.mp ht
    exact ⟨0, callProvider_fails self.config encode call.providerId call.provider call.request⟩
  · rw [hstate]
    split_ifs <;> nofun

theorem begin_always [Floats] (h : Race.begin self encode request = .ok race) :
    ∀ t ∈ race.tasks, t.Always PostWins := by
  obtain ⟨calls, -, -, htasks, -⟩ := begin_eq_ok h
  intro t ht
  rw [htasks] at ht
  obtain ⟨call, -, rfl⟩ := List.mem_map.mp ht
  exact callProvider_always

end Begun

/-- The loop may wake whenever it waits. -/
theorem step_wake [Floats] {pending : List ℕ} (hstate : race.state = .waiting pending) :
    race.step (.wake (pending.filter race.finished)) = some
      { race with state := Router.wake race.outcome pending (pending.filter race.finished) } := by
  unfold step
  rw [hstate]
  dsimp only
  rw [if_pos (List.Perm.refl _)]

/-- A pending task that is done and has a success ends the race. -/
theorem wake_won (race : Race) {pending : List ℕ} {i : ℕ} (hi : i ∈ pending) {outcome : Outcome}
    (htask : race.tasks[i]? = some (.done outcome)) (hfree : ErrorFree outcome) :
    ∃ response cancelled, Router.wake race.outcome pending (pending.filter race.finished) =
      .won response cancelled ∧ response.error = none := by
  have hfinished : race.finished i = true := by
    unfold finished
    rw [htask]
    rfl
  have houtcome : race.outcome i = outcome := by
    unfold Race.outcome
    rw [htask]
    rfl
  cases hsuccess : firstSuccess race.outcome (pending.filter race.finished) with
  | none =>
    refine absurd ?_ (firstSuccess_eq_none hsuccess i (List.mem_filter.mpr ⟨hi, hfinished⟩))
    rw [houtcome]
    exact hfree
  | some response =>
    refine ⟨response, pending.filter (· ∉ pending.filter race.finished), ?_,
      (firstSuccess_eq_some hsuccess).1⟩
    unfold Router.wake
    rw [hsuccess]

/-- When its tasks are all done and failed, the loop wakes for the last time. -/
theorem Failing.wake_last (h : race.Failing) (hdone : ∀ t ∈ race.tasks, t.IsDone) :
    Router.wake race.outcome (List.range race.tasks.length)
      ((List.range race.tasks.length).filter race.finished) = .lost := by
  have hall : (List.range race.tasks.length).filter race.finished =
      List.range race.tasks.length := by
    rw [List.filter_eq_self]
    intro i hi
    have hlt : i < race.tasks.length := List.mem_range.mp hi
    obtain ⟨outcome, houtcome⟩ := hdone _ (List.getElem_mem hlt)
    unfold finished
    rw [List.getElem?_eq_getElem hlt, houtcome]
    rfl
  have hempty : (List.range race.tasks.length).filter (· ∉ List.range race.tasks.length) = [] :=
    List.filter_eq_nil_iff.mpr fun i hi => by simp [List.mem_range.mp hi]
  rw [hall]
  unfold Router.wake
  rw [firstSuccess_of_fails fun i _ => h.outcome i]
  dsimp only
  rw [if_pos hempty]

section Ends

variable {self : ModelRouter} {encode : Tokenizer} {request : LLMRequest}

/-- A race in which no request is ever answered can be lost. -/
theorem exists_lost [Floats] (h : Race.begin self encode request = .ok race)
    (hnever : NeverAnswered race.pool) (reply : Reply) :
    ∃ events final, Run.run step race events = some final ∧ final.state = .lost := by
  obtain ⟨calls, -, -, -, hstate⟩ := begin_eq_ok h
  by_cases htasks : race.tasks = []
  · rw [if_pos htasks] at hstate
    exact ⟨[], race, rfl, hstate⟩
  rw [if_neg htasks] at hstate
  obtain ⟨turns, p, hturns, hlength, hdone⟩ := exists_finish reply race.router race.tasks
  have hrun := run_turns hstate hturns
  have hfailing := (begin_failing h).run hnever hrun
  refine ⟨_, _, Run.run_snoc_eq_some.mpr ⟨_, hrun, step_wake hstate⟩, ?_⟩
  rw [← hlength]
  exact hfailing.wake_last hdone

/-- A race in which a task comes to a request can be won, when the request is answered well. -/
theorem exists_won [Floats] (h : Race.begin self encode request = .ok race)
    (hsession : self.session = true) {turns : List (ℕ × Reply)}
    {q : ModelRouter × List (Routine Outcome)}
    (hq : Run.run (advance answer) race.pool turns = some q) {url headers payload resume}
    (hpost : .act (.post url headers payload) resume ∈ q.2) :
    ∃ events final response cancelled, Run.run step race events = some final ∧
      final.state = .won response cancelled ∧ response.error = none := by
  obtain ⟨calls, -, hrouter, -, hstate⟩ := begin_eq_ok h
  obtain ⟨i, hi⟩ := List.getElem?_of_mem hpost
  have hlength : q.2.length = race.tasks.length := pool_length hq
  have hlt : i < race.tasks.length := hlength ▸ (List.getElem?_eq_some_iff.mp hi).1
  rw [if_neg (List.ne_nil_of_length_pos (Nat.zero_lt_of_lt hlt))] at hstate
  -- the request is answered well, and the task goes on until it returns
  have hsession' : q.1.session = true := (pool_keeps hq).1.trans ((congrArg _ hrouter).trans hsession)
  let good : Reply := wellAnswered 0 default
  have hanswer : (answer q.1 (.post url headers payload) good).1 = .value 200 :=
    answer_post_of_started hsession' url headers payload good
  obtain ⟨more, hmore⟩ := exists_finish_one (h := answer) _ (fun _ => good) q.1 q.2 hi
  set outcome := ((Coroutine.act (.post url headers payload) resume).run answer (fun _ => good)
    q.1).1 with houtcome
  have hfree : ErrorFree outcome := by
    rw [houtcome, run_act, hanswer]
    exact (pool_always (begin_always h) hq _ hpost).1 0 default _
  have hrun := run_turns hstate ((Run.run_append_of_run hq more).trans hmore)
  -- the loop wakes to a group with this task
  have htask : (q.2.set i (.done outcome))[i]? = some (.done outcome) :=
    List.getElem?_set_self (hlength ▸ hlt)
  obtain ⟨response, cancelled, hwon, herror⟩ := wake_won
    { race with router := _, tasks := q.2.set i (.done outcome) } (List.mem_range.mpr hlt) htask hfree
  exact ⟨_, _, response, cancelled, Run.run_snoc_eq_some.mpr ⟨_, hrun, step_wake hstate⟩, hwon,
    herror⟩

end Ends
end Race
end LingNet.Router
