import LingNet.Lib.Coroutine
import LingNet.Router.Config

/-! A call of a provider: its budget check, its requests and its retries, as a coroutine over a
router that calls share. -/
namespace LingNet.Router
open Py Coroutine

/-- How an awaited operation of the HTTP client ends. -/
inductive Awaited (α : Type) where
  | timeout
  | raised (e : Exn)
  | value (a : α)

/-- What a call asks of its surroundings. -/
inductive Action where
  | now
  | charge (cost : ℚ)
  | post (url : String) (headers : List (String × String)) (payload : Json)
  | readJson
  | readText
  | sleep (ms : ℤ)
  | observeLatency (providerId : String) (latencyMs : ℚ)
  | random

/-- The range of `random.random()`. -/
abbrev UnitInterval := { u : ℚ // 0 ≤ u ∧ u < 1 }

instance : Inhabited UnitInterval := ⟨0, by decide⟩

abbrev Action.Reply : Action → Type
  | .now => ℚ
  | .charge _ => Bool
  | .post _ _ _ => Awaited ℕ
  | .readJson => Awaited Json
  | .readText => Awaited String
  | .sleep _ => Unit
  | .observeLatency _ _ => Unit
  | .random => UnitInterval

abbrev Routine := Coroutine Action Action.Reply

def now : Routine ℚ := perform Action.now

def charge (cost : ℚ) : Routine Bool := perform (Action.charge cost)

def post (url : String) (headers : List (String × String)) (payload : Json) :
    Routine (Awaited ℕ) := perform (Action.post url headers payload)

def readJson : Routine (Awaited Json) := perform Action.readJson

def readText : Routine (Awaited String) := perform Action.readText

def sleep (ms : ℤ) : Routine Unit := perform (Action.sleep ms)

def observeLatency (providerId : String) (latencyMs : ℚ) : Routine Unit :=
  perform (Action.observeLatency providerId latencyMs)

def random : Routine UnitInterval := perform Action.random

/-- A response, or the exception that a call raises. -/
abbrev Outcome := Except Exn LLMResponse

structure Stats where
  totalRequests : ℕ
  raceWins : AList fun _ : String => ℕ

structure ModelRouter where
  config : RoutingConfig
  providers : AList fun _ : String => ModelProvider
  costTracker : CostTracker
  session : Bool
  stats : Stats

namespace ModelRouter

def init (config : RoutingConfig) (providers : AList fun _ : String => ModelProvider) (now : ℚ) :
    ModelRouter where
  config := config
  providers := providers
  costTracker := .init config.budgetPerHour now
  session := false
  stats := ⟨0, ∅⟩

def start (self : ModelRouter) : ModelRouter := { self with session := true }

end ModelRouter

/-- What the clock, the random numbers and the provider's server would answer next. -/
structure Reply where
  clock : ℚ
  random : UnitInterval
  status : Awaited ℕ
  json : Awaited Json
  text : Awaited String

/-- `self.session.post` when `start` was never called. -/
def noSession : Exn := ⟨.attributeError, "'NoneType' object has no attribute 'post'"⟩

/-- The running average of a provider's latency. -/
def ModelRouter.observeLatency [Floats] (self : ModelRouter) (providerId : String) (latencyMs : ℚ) :
    ModelRouter :=
  match self.providers.lookup providerId with
  | none => self
  | some provider =>
    let average := Floats.add (Floats.mul provider.latencyMs (Floats.round (9 / 10)))
      (Floats.mul latencyMs (Floats.round (1 / 10)))
    { self with
      providers := self.providers.insert providerId { provider with latencyMs := average } }

def answer [Floats] : Handler ModelRouter Action Action.Reply Reply
  | self, .now, e => (e.clock, self)
  | self, .charge cost, e =>
    let (granted, tracker) := self.costTracker.chargeSync e.clock cost
    (granted, { self with costTracker := tracker })
  | self, .post _ _ _, e => (if self.session then e.status else .raised noSession, self)
  | self, .readJson, e => (e.json, self)
  | self, .readText, e => (e.text, self)
  | self, .sleep _, _ => ((), self)
  | self, .observeLatency providerId latencyMs, _ => ((), self.observeLatency providerId latencyMs)
  | self, .random, e => (e.random, self)

/-- The responses that report an error. -/
def errorResponse (provider : ModelProvider) (request : LLMRequest) (latencyMs : ℚ)
    (error : String) : LLMResponse where
  content := .str ""
  provider := provider.id
  model := request.model
  latencyMs := latencyMs
  tokensIn := .int 0
  tokensOut := .int 0
  costUsd := 0
  finishReason := .str "error"
  error := some error

/-- The response that a well-formed body makes. -/
def readBody [Floats] (provider : ModelProvider) (request : LLMRequest) (modelConfig : Dict)
    (latencyMs : ℚ) (data : Json) : Outcome := do
  let message ← (← (← data.getItem "choices").getFirst).getItem "message"
  let content ← message.getItem "content"
  let tokensIn ← (← data.get "usage" (.dict [])).get "prompt_tokens" (.int 0)
  let tokensOut ← (← data.get "usage" (.dict [])).get "completion_tokens" (.int 0)
  let actualCost ← costOf tokensIn tokensOut modelConfig
  let finishReason ← (← (← data.getItem "choices").getFirst).get "finish_reason" (.str "stop")
  pure { content := content, provider := provider.id, model := request.model,
         latencyMs := latencyMs, tokensIn := tokensIn, tokensOut := tokensOut,
         costUsd := actualCost, finishReason := finishReason }

/-- How the `try` block of an attempt is left. -/
inductive AttemptEnd where
  | response (r : LLMResponse)
  | retry
  | timeout
  | raised (e : Exn)

/-- Only ASCII letters have a letter of the word as their lower case. -/
def mentionsRateLimit (errorText : String) : Prop := Contains "rate_limit" errorText.toLower

instance (errorText : String) : Decidable (mentionsRateLimit errorText) :=
  inferInstanceAs (Decidable (Contains "rate_limit" errorText.toLower))

section Attempts

variable [Floats] (config : RoutingConfig) (providerId : String) (provider : ModelProvider)
  (request : LLMRequest) (modelConfig : Dict) (startTime : ℚ) (payload : Json)

/-- `(time.time() - start_time) * 1000` -/
def elapsedMs (startTime time : ℚ) : ℚ := Floats.mul (Floats.sub time startTime) 1000

/-- The clock is read for the latency of the response. -/
def respondError (error : String) : Routine LLMResponse := do
  let time ← now
  pure (errorResponse provider request (elapsedMs startTime time) error)

def readAnswer : Routine AttemptEnd := do
  match ← readJson with
  | .timeout => pure .timeout
  | .raised e => pure (.raised e)
  | .value data => do
    let time ← now
    let latencyMs := elapsedMs startTime time
    observeLatency providerId latencyMs
    match readBody provider request modelConfig latencyMs data with
    | .ok response => pure (.response response)
    | .error e => pure (.raised e)

def readError (attempt : ℤ) (status : ℕ) : Routine AttemptEnd := do
  match ← readText with
  | .timeout => pure .timeout
  | .raised e => pure (.raised e)
  | .value errorText =>
    if status ∈ [429, 500, 502, 503] ∧ mentionsRateLimit errorText ∧
        "rate_limit" ∈ config.retryOnErrors ∧ attempt < config.retryCount then do
      sleep config.retryDelayMs
      pure .retry
    else do
      let response ← respondError provider request startTime
        ("HTTP " ++ toString status ++ ": " ++ errorText)
      pure (.response response)

/-- The `try` block. -/
def tryPost (attempt : ℤ) : Routine AttemptEnd := do
  match ← post (provider.endpoint ++ "/chat/completions")
      [("Authorization", "Bearer " ++ provider.apiKey), ("Content-Type", "application/json")]
      payload with
  | .timeout => pure .timeout
  | .raised e => pure (.raised e)
  | .value status =>
    if status = 200 then readAnswer providerId provider request modelConfig startTime
    else readError config provider request startTime attempt status

/-- The loop over the attempts that are left. -/
def attempts : ℕ → ℤ → Routine LLMResponse
  | 0, _ => respondError provider request startTime "Exhausted all retries"
  | remaining + 1, attempt => do
    match ← tryPost config providerId provider request modelConfig startTime payload attempt with
    | .response response => pure response
    | .retry => attempts remaining (attempt + 1)
    | .timeout =>
      if "timeout" ∈ config.retryOnErrors ∧ attempt < config.retryCount then do
        sleep config.retryDelayMs
        attempts remaining (attempt + 1)
      else respondError provider request startTime "Request timeout"
    | .raised e =>
      if "server_error" ∈ config.retryOnErrors ∧ attempt < config.retryCount then do
        sleep config.retryDelayMs
        attempts remaining (attempt + 1)
      else respondError provider request startTime e.text

end Attempts

/-- What is known of a call before its budget check: it raises an exception, it is refused
because the provider does not have the model, or it is for a model at an estimated cost. -/
def quote [Floats] (encode : Tokenizer) (provider : ModelProvider) (request : LLMRequest) :
    Except Exn (LLMResponse ⊕ Dict × ℚ) := do
  match ← provider.getModelConfig request.model with
  | none => pure (.inl (errorResponse provider request 0 ("Model " ++ request.model ++ " not found")))
  | some modelConfig => do
    let estCost ← estimateCost encode request modelConfig
    pure (.inr (modelConfig, estCost))

def overBudget (provider : ModelProvider) (request : LLMRequest) : LLMResponse :=
  errorResponse provider request 0 "Hourly budget exceeded"

/-- `_call_provider` -/
def callProvider [Floats] (config : RoutingConfig) (encode : Tokenizer) (providerId : String)
    (provider : ModelProvider) (request : LLMRequest) : Routine Outcome := do
  let startTime ← now
  match quote encode provider request with
  | .error e => pure (.error e)
  | .ok (.inl response) => pure (.ok response)
  | .ok (.inr (modelConfig, estCost)) => do
    if ← charge estCost then
      match buildPayload provider.apiCompat request with
      | .error e => pure (.error e)
      | .ok payload => do
        let response ← attempts config providerId provider request modelConfig startTime payload
          (config.retryCount + 1).toNat 0
        pure (.ok response)
    else pure (.ok (overBudget provider request))

/-- The charges granted so far, as a ghost of a call. -/
def granted : ℚ → (a : Action) → a.Reply → ℚ
  | g, .charge cost, true => g + cost
  | g, _, _ => g

section Along

variable [Floats] {config : RoutingConfig} {encode : Tokenizer} {providerId : String}
  {provider : ModelProvider} {request : LLMRequest} {modelConfig : Dict}
  {Allowed : ℚ → (a : Action) → a.Reply → Prop} {P : ℚ → LLMResponse → Prop} {g : ℚ}

def BodyMeets (provider : ModelProvider) (request : LLMRequest) (modelConfig : Dict)
    (Allowed : ℚ → (a : Action) → a.Reply → Prop) (P : ℚ → LLMResponse → Prop) (g : ℚ) : Prop :=
  ∀ url headers payload data latencyMs response, Allowed g (.post url headers payload) (.value 200) →
    Allowed g .readJson (.value data) →
    readBody provider request modelConfig latencyMs data = .ok response → P g response

def ErrorMeets (provider : ModelProvider) (request : LLMRequest) (P : ℚ → LLMResponse → Prop)
    (g : ℚ) : Prop :=
  ∀ latencyMs error, P g (errorResponse provider request latencyMs error)

theorem respondError_along (h : ErrorMeets provider request P g) (startTime : ℚ) (error : String) :
    (respondError provider request startTime error).Along granted Allowed P g :=
  fun _ _ => h _ error

/-- What an attempt returns, if it returns a response, meets `P`. It charges nothing. -/
def EndMeets (P : ℚ → LLMResponse → Prop) (g g' : ℚ) (attemptEnd : AttemptEnd) : Prop :=
  g' = g ∧ ∀ response, attemptEnd = .response response → P g response

theorem readAnswer_along (startTime : ℚ) (hbody : ∀ data latencyMs response,
      Allowed g .readJson (.value data) →
        readBody provider request modelConfig latencyMs data = .ok response → P g response) :
    (readAnswer providerId provider request modelConfig startTime).Along granted Allowed
      (EndMeets P g) g := by
  refine Along.perform fun r hjson => ?_
  cases r with
  | timeout => exact ⟨rfl, nofun⟩
  | raised e => exact ⟨rfl, nofun⟩
  | value data =>
    refine Along.perform fun time _ => Along.perform fun _ _ => ?_
    cases hread : readBody provider request modelConfig (elapsedMs startTime time) data with
    | ok response =>
      refine ⟨rfl, fun response' heq => ?_⟩
      cases heq
      exact hbody data _ response hjson hread
    | error e => exact ⟨rfl, nofun⟩

theorem readError_along (herror : ErrorMeets provider request P g) (startTime : ℚ) (attempt : ℤ)
    (status : ℕ) :
    (readError config provider request startTime attempt status).Along granted Allowed
      (EndMeets P g) g := by
  refine Along.perform fun r _ => ?_
  cases r with
  | timeout => exact ⟨rfl, nofun⟩
  | raised e => exact ⟨rfl, nofun⟩
  | value errorText =>
    dsimp only
    split_ifs
    · exact Along.perform fun _ _ => ⟨rfl, nofun⟩
    · refine Along.perform fun _ _ => ⟨rfl, fun response heq => ?_⟩
      cases heq
      exact herror _ _

theorem tryPost_along (herror : ErrorMeets provider request P g)
    (hbody : BodyMeets provider request modelConfig Allowed P g) (startTime : ℚ) (payload : Json)
    (attempt : ℤ) :
    (tryPost config providerId provider request modelConfig startTime payload attempt).Along
      granted Allowed (EndMeets P g) g := by
  refine Along.perform fun r hpost => ?_
  cases r with
  | timeout => exact ⟨rfl, nofun⟩
  | raised e => exact ⟨rfl, nofun⟩
  | value status =>
    dsimp only
    split_ifs with hstatus
    · subst hstatus
      exact readAnswer_along startTime fun data _ response => hbody _ _ _ data _ response hpost
    · exact readError_along herror startTime attempt status

theorem attempts_along (herror : ErrorMeets provider request P g)
    (hbody : BodyMeets provider request modelConfig Allowed P g) (startTime : ℚ) (payload : Json)
    (remaining : ℕ) (attempt : ℤ) :
    (attempts config providerId provider request modelConfig startTime payload remaining
      attempt).Along granted Allowed P g := by
  induction remaining generalizing attempt with
  | zero => exact respondError_along herror startTime _
  | succ remaining ih =>
    refine Along.bind
      ((tryPost_along herror hbody startTime payload attempt).mono ?_ fun _ _ _ h => h)
    rintro g' attemptEnd ⟨rfl, hmeets⟩
    cases attemptEnd with
    | response response => exact hmeets response rfl
    | retry => exact ih (attempt + 1)
    | timeout =>
      dsimp only
      split_ifs
      · exact Along.perform fun _ _ => ih (attempt + 1)
      · exact respondError_along herror startTime _
    | raised e =>
      dsimp only
      split_ifs
      · exact Along.perform fun _ _ => ih (attempt + 1)
      · exact respondError_along herror startTime _

theorem quote_eq_inl {response : LLMResponse}
    (h : quote encode provider request = .ok (.inl response)) :
    response = errorResponse provider request 0 ("Model " ++ request.model ++ " not found") := by
  unfold quote at h
  cases hmodel : provider.getModelConfig request.model with
  | error e =>
    rw [hmodel] at h
    cases h
  | ok found =>
    rw [hmodel] at h
    cases found with
    | none =>
      cases h
      rfl
    | some modelConfig =>
      change (do
        let estCost ← estimateCost encode request modelConfig
        pure (.inr (modelConfig, estCost)) : Except Exn (LLMResponse ⊕ Dict × ℚ)) = _ at h
      cases hest : estimateCost encode request modelConfig with
      | error e =>
        rw [hest] at h
        cases h
      | ok estCost =>
        rw [hest] at h
        cases h

/-- What a call returns meets `P`, if its refusals do, and if after its charge its error responses
and the bodies that are allowed do. -/
theorem callProvider_along {Q : ℚ → Outcome → Prop} (hraise : ∀ g e, Q g (.error e))
    (hrefuse : ErrorMeets provider request (fun g r => Q g (.ok r)) g)
    (hcharged : ∀ modelConfig estCost,
      quote encode provider request = .ok (.inr (modelConfig, estCost)) →
      Allowed g (.charge estCost) true →
        ErrorMeets provider request (fun g r => Q g (.ok r)) (g + estCost) ∧
          BodyMeets provider request modelConfig Allowed (fun g r => Q g (.ok r)) (g + estCost)) :
    (callProvider config encode providerId provider request).Along granted Allowed Q g := by
  refine Along.perform fun startTime _ => ?_
  cases hquote : quote encode provider request with
  | error e => exact hraise g e
  | ok quoted =>
    rcases quoted with response | ⟨modelConfig, estCost⟩
    · rw [quote_eq_inl hquote]
      exact hrefuse 0 _
    · refine Along.perform fun granted hgranted => ?_
      cases granted with
      | false => exact hrefuse 0 _
      | true =>
        obtain ⟨herror, hbody⟩ := hcharged modelConfig estCost hquote hgranted
        cases buildPayload provider.apiCompat request with
        | error e => exact hraise _ e
        | ok payload =>
          exact Along.bind (attempts_along herror hbody startTime payload _ 0)

end Along
end LingNet.Router
