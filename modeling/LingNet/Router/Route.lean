import LingNet.Router.Race

/-! The strategies that make one call, and the dispatch of a request. -/
namespace LingNet.Router
open Py Coroutine

namespace ModelRouter

def countRequest (self : ModelRouter) : ModelRouter :=
  { self with stats := { self.stats with totalRequests := self.stats.totalRequests + 1 } }

/-- `self.providers[provider_id]` -/
def getProvider (self : ModelRouter) (providerId : String) : Except Exn ModelProvider :=
  match self.providers.lookup providerId with
  | some provider => .ok provider
  | none => .error ⟨.keyError, "'" ++ providerId ++ "'"⟩

def uniformCall (self : ModelRouter) (request : LLMRequest) : Except Exn RaceCall :=
  match self.config.candidates[self.stats.totalRequests % self.config.candidates.length]? with
  | none => .error ⟨.zeroDivisionError, "integer modulo by zero"⟩
  | some candidate => do
    let (providerId, modelId) ← splitSlash candidate
    let provider ← self.getProvider providerId
    pure ⟨providerId, provider, request.forModel providerId modelId⟩

theorem uniformCall_eq {self : ModelRouter} (request : LLMRequest) (candidate : String)
    (hcandidate : self.config.candidates[self.stats.totalRequests %
      self.config.candidates.length]? = some candidate) {providerId modelId : String}
    (hsplit : splitSlash candidate = .ok (providerId, modelId)) {provider : ModelProvider}
    (hprovider : self.getProvider providerId = .ok provider) : self.uniformCall request =
      .ok ⟨providerId, provider, request.forModel providerId modelId⟩ := by
  unfold uniformCall
  rw [hcandidate]
  dsimp only
  rw [bind_of_ok hsplit]
  dsimp only
  rw [bind_of_ok hprovider]
  rfl

/-- `1.0 + provider.latency_ms / 1000.0` -/
def slowness [Floats] (provider : ModelProvider) : ℚ :=
  Floats.add 1 (Floats.div provider.latencyMs 1000)

def score [Floats] (provider : ModelProvider) (weight : ℤ) : Except Exn Double :=
  if slowness provider = 0 then .error ⟨.zeroDivisionError, "float division by zero"⟩
  else
    match Floats.ofInt weight with
    | none => .error ⟨.other "OverflowError", "int too large to convert to float"⟩
    | some weight =>
      .ok (.finite weight * .finite (Floats.div 1 (slowness provider)) *
        .finite (Floats.sub 1 provider.errorRate))

def scores [Floats] (self : ModelRouter) :
    List (String × ℤ) → Except Exn (List (String × Double))
  | [] => .ok []
  | (providerId, weight) :: weights =>
    match self.providers.lookup providerId with
    | none => self.scores weights
    | some provider => do
      let s ← score provider weight
      let rest ← self.scores weights
      pure ((providerId, s) :: rest)

end ModelRouter

section Selection

variable {S : Type} [Add S] [LE S] [DecidableLE S]

/-- The loop that adds up the scores until they reach the pick. -/
def pickLoop (pick : S) : S → List (String × S) → Option String
  | _, [] => none
  | current, (providerId, score) :: scores =>
    if pick ≤ current + score then some providerId else pickLoop pick (current + score) scores

/-- The provider that a pick selects, or the first one behind the loop. -/
def selectScored [Zero S] (scores : List (String × S)) (pick : S) : Except Exn String :=
  match pickLoop pick 0 scores with
  | some providerId => .ok providerId
  | none =>
    match scores with
    | (providerId, _) :: _ => .ok providerId
    | [] => .error ⟨.indexError, "list index out of range"⟩

end Selection

/-- `random.uniform(0, total)` -/
def uniform [Floats] (total : Double) (u : UnitInterval) : Double :=
  0 + (total - 0) * .finite u

-- The exact pick is beyond the first score, and rounds to it.
open scoped Floats.Binary64 in
example : (selectScored [("a", .finite 1), ("b", .finite 2)] (uniform (.finite 3)
    ⟨3002399751580331 / 2 ^ 53, by decide +kernel⟩)).toOption = some "a" := by decide +kernel

namespace ModelRouter

/-- `sum(scores.values())` -/
def total [Floats] (scores : List (String × Double)) : Double := Floats.sum (scores.map Prod.snd)

def smartCall [Floats] (self : ModelRouter) (request : LLMRequest) (scores : List (String × Double))
    (u : UnitInterval) : Except Exn RaceCall := do
  let selected ← selectScored scores (uniform (total scores) u)
  let provider ← self.getProvider selected
  pure ⟨selected, provider, request.forModel selected request.model⟩

/-- `return await self._call_provider(provider, req)` -/
def makeCall [Floats] (self : ModelRouter) (encode : Tokenizer) :
    Except Exn RaceCall → Routine Outcome
  | .error e => pure (.error e)
  | .ok call => callProvider self.config encode call.providerId call.provider call.request

/-- `_uniform_route` -/
def uniformRoute [Floats] (self : ModelRouter) (encode : Tokenizer) (request : LLMRequest) :
    Routine Outcome :=
  self.makeCall encode (self.uniformCall request)

/-- `_smart_route` -/
def smartRoute [Floats] (self : ModelRouter) (encode : Tokenizer) (request : LLMRequest) :
    Routine Outcome :=
  match self.scores self.config.weights with
  | .error e => pure (.error e)
  | .ok scores =>
    if total scores = 0 then self.uniformRoute encode request
    else do
      let u ← random
      self.makeCall encode (self.smartCall request scores u)

end ModelRouter

/-- A race on a router: its tasks, which take turns, and where its loop stands. -/
structure Race where
  router : ModelRouter
  tasks : List (Routine Outcome)
  state : RaceState

/-- A task performs its next action, or `asyncio.wait` returns. -/
inductive RaceEvent where
  | turn (i : ℕ) (reply : Reply)
  | wake (group : List ℕ)

namespace Race

def outcome (race : Race) (i : ℕ) : Outcome :=
  ((race.tasks[i]?.bind result?)).getD (.error ⟨.other "InvalidStateError", ""⟩)

def finished (race : Race) (i : ℕ) : Bool := (race.tasks[i]?.bind result?).isSome

/-- The tasks are created, and the loop begins unless there is none. -/
def begin [Floats] (self : ModelRouter) (encode : Tokenizer) (request : LLMRequest) :
    Except Exn Race := do
  let calls ← self.raceCalls request self.config.candidates
  pure { router := self
         tasks := calls.map fun call =>
           callProvider self.config encode call.providerId call.provider call.request
         state := if calls = [] then .lost else .waiting (List.range calls.length) }

/-- `asyncio.wait` returns the pending tasks that are done, in any order. -/
def step [Floats] (race : Race) : RaceEvent → Option Race
  | .turn i reply =>
    match race.state with
    | .waiting _ => (advance answer (race.router, race.tasks) (i, reply)).map fun p =>
        { race with router := p.1, tasks := p.2 }
    | _ => none
  | .wake group =>
    match race.state with
    | .waiting pending =>
      if group.Perm (pending.filter race.finished) then
        some { race with state := Router.wake race.outcome pending group }
      else none
    | _ => none

end Race

/-- What a strategy does with a request: one call, or a race. -/
inductive Routing where
  | solo (routine : Routine Outcome)
  | race (begun : Except Exn Race)

namespace ModelRouter

def routing [Floats] (self : ModelRouter) (encode : Tokenizer) (request : LLMRequest) :
    RoutingStrategy → Routing
  | .race => .race (Race.begin self encode request)
  | .smart => .solo (self.smartRoute encode request)
  | .uniform => .solo (self.uniformRoute encode request)

end ModelRouter

/-- The comparisons of `route`: whatever is not a member is taken for the last one. -/
def dispatch (strategy : StrategyField) : RoutingStrategy :=
  if strategy = .member .race then .race
  else if strategy = .member .smart then .smart
  else .uniform

namespace ModelRouter

/-- `route` -/
def route [Floats] (self : ModelRouter) (encode : Tokenizer) (request : LLMRequest) :
    ModelRouter × Routing :=
  let self := self.countRequest
  (self, self.routing encode request (dispatch self.config.strategy))

/-- The router that `_race` makes for its fallback: nothing starts it. -/
def fallbackRouter (self : ModelRouter) (strategy : StrategyField) (now : ℚ) : ModelRouter :=
  .init { strategy := strategy, fallbackStrategy := none,
          budgetPerHour := self.config.budgetPerHour, candidates := self.config.candidates,
          weights := self.config.weights } self.providers now

/-- The fallback of `_race`; the warning reads the name of the strategy. -/
def fallBack [Floats] (self : ModelRouter) (encode : Tokenizer) (request : LLMRequest)
    (strategy : StrategyField) (now : ℚ) : Except Exn (ModelRouter × Routing) := do
  let _ ← strategy.value
  pure ((self.fallbackRouter strategy now).route encode request)

end ModelRouter
end LingNet.Router
