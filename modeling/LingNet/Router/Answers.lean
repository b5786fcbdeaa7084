import LingNet.Router.Fallback

/-! What becomes of a request: whether routing answers it with a response, or raises. -/
namespace LingNet.Router
open Py Coroutine

/-- What a request meets on its way: what a call is answered, or the events of a race, the clock at
its end, and what its fallback meets. -/
inductive Meeting where
  | call (env : ℕ → Reply)
  | race (events : List RaceEvent) (latencyMs now : ℚ) (fallback : Meeting)

def Meeting.Meets : Meeting → Reply → Prop
  | .call env, reply => ∃ n, env n = reply
  | .race events _ _ fallback, reply => (∃ i, .turn i reply ∈ events) ∨ fallback.Meets reply

/-- A response that a provider's answer made. -/
def Meeting.Made [Floats] (m : Meeting) (response : LLMResponse) : Prop :=
  ∃ reply data provider request modelConfig latencyMs, m.Meets reply ∧ reply.json = .value data ∧
    readBody provider request modelConfig latencyMs data = .ok response

/-- A request is answered with a response, and with an error in it unless some call succeeded. -/
def Answers [Floats] (m : Meeting) (outcome : Outcome) : Prop :=
  ∃ response, outcome = .ok response ∧ (response.error = none → m.Made response)

namespace ModelRouter

variable (self : ModelRouter) (encode : Tokenizer) (request : LLMRequest)

/-- A call raises nothing before its requests: the models have what is read of them, and, once the
charge is granted, the payload can be built. -/
def CallAnswers [Floats] (provider : ModelProvider) (request : LLMRequest) (time : ℚ) : Prop :=
  match quote encode provider request with
  | .error _ => False
  | .ok (.inl _) => True
  | .ok (.inr (_, estCost)) => (self.costTracker.chargeSync time estCost).1 = true →
      ∃ payload, buildPayload provider.apiCompat request = .ok payload

/-- There is a candidate, the one whose turn it is names a provider that is registered, and its call
is answered. -/
def UniformAnswers [Floats] (time : ℚ) : Prop :=
  ∃ candidate providerId modelId provider,
    self.config.candidates[self.stats.totalRequests % self.config.candidates.length]? =
      some candidate ∧
    splitSlash candidate = .ok (providerId, modelId) ∧
    self.providers.lookup providerId = some provider ∧
    self.CallAnswers encode provider (request.forModel providerId modelId) time

/-- The score of a provider can be computed: it is divided by something, and the weight is not too
large for a float. -/
def Scorable [Floats] (provider : ModelProvider) (weight : ℤ) : Prop :=
  slowness provider ≠ 0 ∧ Floats.inRange weight = true

/-- The scores can be computed, and the call that is made is answered: the one of round-robin if the
scores add up to nothing, else the one of the provider picked. -/
def SmartAnswers [Floats] (env : ℕ → Reply) : Prop :=
  (∀ w ∈ self.config.weights, ∀ provider, self.providers.lookup w.1 = some provider →
    Scorable provider w.2) ∧
  ∀ scores, self.scores self.config.weights = .ok scores →
    if total scores = 0 then self.UniformAnswers encode request (env 1).clock
    else ∀ selected provider,
      selectScored scores (uniform (total scores) (env 0).random) = .ok selected →
      self.providers.lookup selected = some provider →
        self.CallAnswers encode provider (request.forModel selected request.model) (env 2).clock

end ModelRouter

/-- What a strategy needs for an answer. A race needs nothing while it can be won; when it is lost,
its fallback needs what its strategy does. -/
def Answerable [Floats] (encode : Tokenizer) (request : LLMRequest) :
    ModelRouter → RoutingStrategy → Meeting → Prop
  | self, .uniform, .call env => self.UniformAnswers encode request (env 1).clock
  | self, .smart, .call env => self.SmartAnswers encode request env
  | self, .race, .race events _ now fallback =>
    ∀ race final strategy, Race.begin self encode request = .ok race →
      Run.run Race.step race events = some final → final.state = .lost →
      self.config.fallbackStrategy = some strategy → strategy.truthy = true →
        ∃ s, strategy = .member s ∧ Answerable encode request
          (final.router.fallbackRouter strategy now).countRequest s fallback
  | _, _, _ => True

def Responds (outcome : Outcome) : Prop := ∃ response, outcome = .ok response

section Calls

variable {self : ModelRouter} {encode : Tokenizer} {request : LLMRequest}

end Calls

/-! Responses without an error are made by a provider's answer. -/

/-- The bodies that are read are among those of the replies. -/
def Supplied (replies : Reply → Prop) : ℚ → (a : Action) → a.Reply → Prop
  | _, .readJson, .value data => ∃ reply, replies reply ∧ reply.json = .value data
  | _, _, _ => True

/-- A response without an error was made by one of the replies. -/
def MadeBy [Floats] (replies : Reply → Prop) (_ : ℚ) (outcome : Outcome) : Prop :=
  ∀ response, outcome = .ok response → response.error = none →
    ∃ reply data provider request modelConfig latencyMs, replies reply ∧ reply.json = .value data ∧
      readBody provider request modelConfig latencyMs data = .ok response

section Made

variable {replies : Reply → Prop} {self : ModelRouter} {encode : Tokenizer} {request : LLMRequest}

theorem madeBy_error [Floats] (g : ℚ) (e : Exn) : MadeBy replies g (.error e) := by
  intro response h
  cases h

theorem answer_supplied [Floats] {reply : Reply} (h : replies reply) (g : ℚ) (a : Action)
    (self : ModelRouter) : Supplied replies g a (answer self a reply).1 := by
  cases a with
  | readJson =>
    show Supplied replies g .readJson reply.json
    cases hjson : reply.json with
    | value data => exact ⟨reply, h, hjson⟩
    | timeout => trivial
    | raised e => trivial
  | _ => trivial

/-- The tasks of a race, and its winner, make their responses of the replies. -/
structure Race.Making [Floats] (replies : Reply → Prop) (race : Race) : Prop where
  tasks : ∀ t ∈ race.tasks, ∃ g, t.Along granted (Supplied replies) (MadeBy replies) g
  state : ∀ response cancelled, race.state = .won response cancelled →
    MadeBy replies 0 (.ok response)

namespace Race

variable {race race' : Race}

theorem Making.outcome [Floats] (h : race.Making replies) (i : ℕ) : MadeBy replies 0
    (race.outcome i) := by
  unfold Race.outcome
  cases hi : race.tasks[i]? with
  | none => exact madeBy_error 0 _
  | some t =>
    cases t with
    | act a resume => exact madeBy_error 0 _
    | done outcome =>
      obtain ⟨g, hmade⟩ := h.tasks _ (List.mem_of_getElem? hi)
      exact hmade

def Replies (replies : Reply → Prop) : RaceEvent → Prop
  | .turn _ reply => replies reply
  | .wake _ => True

theorem Making.step [Floats] (h : race.Making replies) {event : RaceEvent}
    (hreply : Replies replies event)
    (hstep : race.step event = some race') : race'.Making replies := by
  obtain ⟨pending, -, ⟨i, reply, rfl, hadvance, hstate⟩ | ⟨group, -, -, rfl⟩⟩ := step_cases hstep
  · obtain ⟨a, resume, hget, hpool⟩ := advance_eq_some.mp hadvance
    refine ⟨fun t ht => ?_, fun response cancelled hwon => ?_⟩
    · rw [show race'.tasks = _ from congrArg Prod.snd hpool] at ht
      rcases List.mem_or_eq_of_mem_set ht with ht | rfl
      · exact h.tasks t ht
      · obtain ⟨g, hmakes⟩ := h.tasks _ (List.mem_of_getElem? hget)
        exact ⟨_, hmakes _ (answer_supplied hreply g a _)⟩
    · rw [hstate] at hwon
      cases hwon
  · refine ⟨h.tasks, fun response cancelled hwon => ?_⟩
    unfold Router.wake at hwon
    dsimp only at hwon
    cases hsuccess : firstSuccess race.outcome group with
    | none =>
      rw [hsuccess] at hwon
      dsimp only at hwon
      split_ifs at hwon
    | some winner =>
      rw [hsuccess] at hwon
      cases hwon
      obtain ⟨-, i, -, houtcome⟩ := firstSuccess_eq_some hsuccess
      rw [← houtcome]
      exact h.outcome i

theorem Making.run [Floats] (h : race.Making replies) {events : List RaceEvent}
    (hevents : ∀ event ∈ events, Replies replies event)
    (hrun : Run.run Race.step race events = some race') : race'.Making replies :=
  Run.invariant_of_step (P := fun _ event => Replies replies event)
    (fun _ _ _ hmaking hreply hstep => hmaking.step hreply hstep) h
    (Run.allSteps_of_forall fun event hmem _ => hevents event hmem) hrun

end Race
end Made

section Routing

variable {encode : Tokenizer} {request : LLMRequest}

theorem answers_iff [Floats] {m : Meeting} {outcome : Outcome} (hmade : MadeBy m.Meets 0 outcome) :
    Answers m outcome ↔ Responds outcome := by
  constructor
  · rintro ⟨response, heq, -⟩
    exact ⟨response, heq⟩
  · rintro ⟨response, heq⟩
    exact ⟨response, heq, hmade response heq⟩

end Routing

open scoped Floats.Binary64

end LingNet.Router
