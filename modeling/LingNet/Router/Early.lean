import LingNet.Router.Budget
import LingNet.Router.Route

/-! Calls on their own: those that make no request, and those that make one, on a router that was
started and on one that was not. -/
namespace LingNet.Router
open Py Coroutine

theorem answer_post_of_started [Floats] {self : ModelRouter} (h : self.session = true)
    (url : String)
    (headers : List (String × String)) (payload : Json) (reply : Reply) :
    (answer self (.post url headers payload) reply).1 = reply.status := if_pos h

theorem answer_post_of_not_started [Floats] {self : ModelRouter} (h : self.session = false)
    (url : String)
    (headers : List (String × String)) (payload : Json) (reply : Reply) :
    (answer self (.post url headers payload) reply).1 = .raised noSession := by
  refine if_neg ?_
  rw [h]
  exact Bool.false_ne_true

/-- Why a call makes no request. -/
inductive Refusal where
  | raised (e : Exn)
  | unknownModel (provider model : String)
  | overBudget (provider model : String)

def refusedResponse (provider model error : String) : LLMResponse where
  content := .str ""
  provider := provider
  model := model
  latencyMs := 0
  tokensIn := .int 0
  tokensOut := .int 0
  costUsd := 0
  finishReason := .str "error"
  error := some error

def Refusal.outcome : Refusal → Outcome
  | .raised e => .error e
  | .unknownModel provider model =>
    .ok (refusedResponse provider model ("Model " ++ model ++ " not found"))
  | .overBudget provider model => .ok (refusedResponse provider model "Hourly budget exceeded")

/-- Whether a call is refused, when its budget is checked at the given time. -/
def ModelRouter.refusal [Floats] (self : ModelRouter) (encode : Tokenizer) (time : ℚ) :
    Except Exn RaceCall → Option Refusal
  | .error e => some (.raised e)
  | .ok call =>
    match quote encode call.provider call.request with
    | .error e => some (.raised e)
    | .ok (.inl _) => some (.unknownModel call.provider.id call.request.model)
    | .ok (.inr (_, estCost)) =>
      if (self.costTracker.chargeSync time estCost).1 then
        match buildPayload call.provider.apiCompat call.request with
        | .error e => some (.raised e)
        | .ok _ => none
      else some (.overBudget call.provider.id call.request.model)

theorem estimateCost_of_quote [Floats] {encode : Tokenizer} {provider : ModelProvider}
    {request : LLMRequest} {modelConfig : Dict} {estCost : ℚ}
    (h : quote encode provider request = .ok (.inr (modelConfig, estCost))) :
    estimateCost encode request modelConfig = .ok estCost := by
  obtain ⟨found, -, h⟩ := bind_eq_ok.mp h
  cases found with
  | none => cases h
  | some config =>
    obtain ⟨cost, hcost, h⟩ := bind_eq_ok.mp h
    cases h
    exact hcost

section Refusals

variable {self : ModelRouter} {encode : Tokenizer} {time : ℚ} {call : Except Exn RaceCall}

theorem run_makeCall_of_refusal [Floats] (env : ℕ → Reply) {refusal : Refusal}
    (h : self.refusal encode (env 1).clock call = some refusal) :
    ((self.makeCall encode call).run answer env self).1 = refusal.outcome := by
  cases call with
  | error e =>
    cases h
    rfl
  | ok call =>
    unfold ModelRouter.refusal at h
    unfold ModelRouter.makeCall callProvider
    dsimp only at h ⊢
    rw [now, perform_bind, run_act]
    cases hquote : quote encode call.provider call.request with
    | error e =>
      rw [hquote] at h
      cases h
      rfl
    | ok quoted =>
      rw [hquote] at h
      rcases quoted with response | ⟨modelConfig, estCost⟩
      · cases h
        rw [quote_eq_inl hquote]
        rfl
      · dsimp only at h ⊢
        rw [charge, perform_bind, run_act]
        cases hcharge : (self.costTracker.chargeSync (env 1).clock estCost).1 with
        | false =>
          rw [hcharge] at h
          cases h
          have hreply : (answer self (.charge estCost) (env 1)).1 = false := hcharge
          change (Coroutine.run answer (if (answer self (.charge estCost) (env 1)).1 = true then _
            else _) _ _).1 = _
          rw [hreply]
          rfl
        | true =>
          rw [hcharge, if_pos rfl] at h
          have hreply : (answer self (.charge estCost) (env 1)).1 = true := hcharge
          change (Coroutine.run answer (if (answer self (.charge estCost) (env 1)).1 = true then _
            else _) _ _).1 = _
          rw [hreply, if_pos rfl]
          cases hpayload : buildPayload call.provider.apiCompat call.request with
          | error e =>
            rw [hpayload] at h
            cases h
            rfl
          | ok payload =>
            rw [hpayload] at h
            cases h

theorem run_makeCall_of_not_refused [Floats] (reply : Reply)
    (h : self.refusal encode reply.clock call = none) :
    ∃ providerId provider request modelConfig payload tracker,
      (∃ estCost, estimateCost encode request modelConfig = .ok estCost) ∧
        ((self.makeCall encode call).run answer (fun _ => reply) self).1 =
          .ok ((attempts self.config providerId provider request modelConfig reply.clock payload
            (self.config.retryCount + 1).toNat 0).run answer (fun _ => reply)
              { self with costTracker := tracker }).1 := by
  cases call with
  | error e => cases h
  | ok call =>
    unfold ModelRouter.refusal at h
    unfold ModelRouter.makeCall callProvider
    dsimp only at h ⊢
    cases hquote : quote encode call.provider call.request with
    | error e =>
      rw [hquote] at h
      cases h
    | ok quoted =>
      rw [hquote] at h
      rcases quoted with response | ⟨modelConfig, estCost⟩
      · cases h
      · dsimp only at h
        split_ifs at h with hcharge
        cases hpayload : buildPayload call.provider.apiCompat call.request with
        | error e =>
          rw [hpayload] at h
          cases h
        | ok payload =>
          refine ⟨call.providerId, call.provider, call.request, modelConfig, payload,
            (self.costTracker.chargeSync reply.clock estCost).2,
            ⟨estCost, estimateCost_of_quote hquote⟩, ?_⟩
          have hreply : (answer self (.charge estCost) reply).1 = true := hcharge
          rw [now, perform_bind, run_act]
          dsimp only
          rw [charge, perform_bind, run_act]
          change (Coroutine.run answer (if (answer self (.charge estCost) reply).1 = true then _
            else _) _ _).1 = _
          rw [hreply, if_pos rfl, run_bind_const]
          rfl

end Refusals
/-- A server that answers well. -/
def wellAnswered (time : ℚ) (u : UnitInterval) : Reply :=
  { replyWith (bodyWith 0 0) with clock := time, random := u }

section Attempts

variable (config : RoutingConfig) (providerId : String) (provider : ModelProvider)
  (request : LLMRequest) {modelConfig : Dict} (startTime : ℚ) (payload : Json) {self : ModelRouter}

/-- A price that makes one cost makes that of no tokens. -/
theorem perMillion_zero [Floats] {a : ℤ} {price : Json}
    (h : ∃ cost, Json.perMillion (.int a) price = .ok cost) :
    ∃ cost, Json.perMillion (.int 0) price = .ok cost := by
  have hinteger : ∀ p : ℤ, Floats.inRange (((0 : ℤ) : ℚ) * p / 1000000) = true := by
    intro p
    rw [Int.cast_zero, zero_mul, zero_div]
    exact Floats.inRange_zero
  obtain ⟨cost, h⟩ := h
  unfold Json.perMillion
  cases price with
  | int p => exact ⟨_, if_pos (hinteger p)⟩
  | bool b => exact ⟨_, if_pos (hinteger _)⟩
  | float q =>
    have hzero : (Json.int 0).asFloat = some (.ok 0) := by
      simp [Json.asFloat, Json.integer?]
    simp only [Json.integer?, hzero]
    exact ⟨_, rfl⟩
  | _ => cases h

theorem costOf_zero [Floats] {a b : ℤ}
    (h : ∃ cost, costOf (.int a) (.int b) modelConfig = .ok cost) :
    ∃ cost, costOf (.int 0) (.int 0) modelConfig = .ok cost := by
  obtain ⟨cost, h⟩ := h
  obtain ⟨costIn, hcostIn, h⟩ := bind_eq_ok.mp h
  obtain ⟨inPart, hin, h⟩ := bind_eq_ok.mp h
  obtain ⟨costOut, hcostOut, h⟩ := bind_eq_ok.mp h
  obtain ⟨outPart, hout, h⟩ := bind_eq_ok.mp h
  obtain ⟨inPart', hin'⟩ := perMillion_zero ⟨inPart, hin⟩
  obtain ⟨outPart', hout'⟩ := perMillion_zero ⟨outPart, hout⟩
  refine ⟨Floats.add inPart' outPart', ?_⟩
  unfold costOf
  rw [bind_of_ok hcostIn, bind_of_ok hin', bind_of_ok hcostOut, bind_of_ok hout']
  rfl

theorem readBody_bodyWith [Floats] (h : ∃ cost, costOf (.int 0) (.int 0) modelConfig = .ok cost)
    (latencyMs : ℚ) : ∃ response,
      readBody provider request modelConfig latencyMs (bodyWith 0 0) = .ok response ∧
        response.error = none := by
  obtain ⟨cost, hcost⟩ := h
  refine ⟨{ content := .str "hello", provider := provider.id, model := request.model,
            latencyMs := latencyMs, tokensIn := .int 0, tokensOut := .int 0, costUsd := cost,
            finishReason := .str "stop" }, ?_, rfl⟩
  change (do
    let actualCost ← costOf (.int 0) (.int 0) modelConfig
    pure { content := .str "hello", provider := provider.id, model := request.model,
           latencyMs := latencyMs, tokensIn := .int 0, tokensOut := .int 0,
           costUsd := actualCost, finishReason := .str "stop" } : Outcome) = _
  rw [hcost]
  rfl

theorem run_readAnswer [Floats] (h : ∃ cost, costOf (.int 0) (.int 0) modelConfig = .ok cost)
    (time : ℚ)
    (u : UnitInterval) (self : ModelRouter) : ∃ response,
      ((readAnswer providerId provider request modelConfig startTime).run answer
        (fun _ => wellAnswered time u) self).1 = .response response ∧ response.error = none := by
  obtain ⟨response, hread, herror⟩ := readBody_bodyWith provider request h
    (elapsedMs startTime time)
  refine ⟨response, ?_, herror⟩
  rw [readAnswer, readJson, perform_bind, run_act, show
    (answer self .readJson (wellAnswered time u)).1 = .value (bodyWith 0 0) from rfl]
  dsimp only
  rw [now, perform_bind, run_act, show (answer _ .now (wellAnswered time u)).1 = time from rfl]
  rw [hread]
  rfl

theorem run_tryPost_wellAnswered [Floats] (hsession : self.session = true)
    (h : ∃ cost, costOf (.int 0) (.int 0) modelConfig = .ok cost) (time : ℚ) (u : UnitInterval)
    (attempt : ℤ) : ∃ response,
      ((tryPost config providerId provider request modelConfig startTime payload attempt).run answer
        (fun _ => wellAnswered time u) self).1 = .response response ∧ response.error = none := by
  obtain ⟨response, hanswer, herror⟩ := run_readAnswer providerId provider request startTime h time
    u self
  refine ⟨response, ?_, herror⟩
  rw [tryPost, post, perform_bind, run_act, answer_post_of_started hsession]
  exact hanswer

/-- On a router that was started the first attempt succeeds, if there is one. -/
theorem run_attempts_wellAnswered [Floats] (hsession : self.session = true)
    (h : ∃ cost, costOf (.int 0) (.int 0) modelConfig = .ok cost) (time : ℚ) (u : UnitInterval)
    (remaining : ℕ) (attempt : ℤ) :
    ((attempts config providerId provider request modelConfig startTime payload remaining
        attempt).run answer (fun _ => wellAnswered time u) self).1.error ∈
      [none, some "Exhausted all retries"] := by
  cases remaining with
  | zero => exact List.mem_cons_of_mem _ List.mem_cons_self
  | succ remaining =>
    obtain ⟨response, hresponse, herror⟩ := run_tryPost_wellAnswered config providerId provider
      request startTime payload hsession h time u attempt
    unfold attempts
    rw [run_bind_const, hresponse]
    change response.error ∈ _
    rw [herror]
    exact List.mem_cons_self

/-- On a router that nobody started every attempt raises the same exception. -/
theorem run_attempts_unstarted [Floats] (hsession : self.session = false) (reply : Reply)
    {remaining : ℕ}
    {attempt : ℤ} (h : attempt + remaining = config.retryCount) :
    ((attempts config providerId provider request modelConfig startTime payload (remaining + 1)
        attempt).run answer (fun _ => reply) self).1.error = some noSession.text := by
  have htry : ∀ attempt, (tryPost config providerId provider request modelConfig startTime payload
      attempt).run answer (fun _ => reply) self = (.raised noSession, self) := by
    intro attempt
    rw [tryPost, post, perform_bind, run_act, answer_post_of_not_started hsession]
    rfl
  induction remaining generalizing attempt with
  | zero =>
    unfold attempts
    rw [run_bind_const, htry]
    dsimp only
    rw [if_neg (fun hretry => absurd hretry.2 (by omega))]
    rfl
  | succ remaining ih =>
    unfold attempts
    rw [run_bind_const, htry]
    dsimp only
    split_ifs
    · exact ih (by push_cast at h ⊢; omega)
    · rfl

end Attempts

/-- A request that is answered well makes the call a success. -/
def PostWins [Floats] : (a : Action) → (a.Reply → Routine Outcome) → Prop
  | .post _ _ _, resume => ∀ time u self,
    ErrorFree ((resume (.value 200)).run answer (fun _ => wellAnswered time u) self).1
  | _, _ => True

section PostWins

variable {config : RoutingConfig} {encode : Tokenizer} {providerId : String}
  {provider : ModelProvider} {request : LLMRequest} {modelConfig : Dict} {startTime : ℚ}
  {payload : Json}

def IsPost (a : Action) : Prop := ∃ url headers payload, a = .post url headers payload

theorem postWins_of_not_isPost [Floats] {a : Action} (h : ¬ IsPost a)
    (resume : a.Reply → Routine Outcome) :
    PostWins a resume := by
  cases a with
  | post url headers payload => exact absurd ⟨url, headers, payload, rfl⟩ h
  | _ => trivial

/-- The parts of an attempt behind its request make no other. -/
theorem readAnswer_always [Floats] {N : (a : Action) → (a.Reply → Routine AttemptEnd) → Prop}
    (hN : ∀ a k, ¬ IsPost a → N a k) :
    (readAnswer providerId provider request modelConfig startTime).Always N := by
  refine ⟨hN _ _ nofun, fun r => ?_⟩
  cases r with
  | timeout => trivial
  | raised e => trivial
  | value data =>
    refine ⟨hN _ _ nofun, fun time => ⟨hN _ _ nofun, fun _ => ?_⟩⟩
    dsimp only
    cases readBody provider request modelConfig (elapsedMs startTime time) data <;> trivial

theorem readError_always [Floats] {N : (a : Action) → (a.Reply → Routine AttemptEnd) → Prop}
    (hN : ∀ a k, ¬ IsPost a → N a k) (attempt : ℤ) (status : ℕ) :
    (readError config provider request startTime attempt status).Always N := by
  rw [readError, readText, perform_bind]
  refine ⟨hN _ _ nofun, fun r => ?_⟩
  cases r with
  | timeout => trivial
  | raised e => trivial
  | value errorText =>
    dsimp only
    split_ifs
    · exact ⟨hN _ _ nofun, fun _ => trivial⟩
    · exact ⟨hN _ _ nofun, fun _ => trivial⟩

theorem attempts_always [Floats] (h : ∃ cost, costOf (.int 0) (.int 0) modelConfig = .ok cost)
    (remaining : ℕ) (attempt : ℤ) :
    (attempts config providerId provider request modelConfig startTime payload remaining
        attempt).Always fun a k => PostWins a fun r => k r >>= fun response => pure (.ok response) := by
  induction remaining generalizing attempt with
  | zero => exact ⟨trivial, fun _ => trivial⟩
  | succ remaining ih =>
    unfold attempts
    rw [tryPost, post, perform_bind]
    refine Always.bind ⟨?_, ?_⟩ ?_
    · intro time u self
      obtain ⟨response, hanswer, herror⟩ := run_readAnswer providerId provider request startTime h
        time u self
      dsimp only
      rw [if_pos rfl, run_bind_const, run_bind_const, hanswer]
      exact herror
    · intro r
      cases r with
      | timeout => trivial
      | raised e => trivial
      | value status =>
        dsimp only
        by_cases hstatus : status = 200
        · rw [if_pos hstatus]
          exact readAnswer_always fun a k ha => postWins_of_not_isPost ha _
        · rw [if_neg hstatus]
          exact readError_always (fun a k ha => postWins_of_not_isPost ha _) attempt status
    · intro attemptEnd
      cases attemptEnd with
      | response response => trivial
      | retry => exact ih (attempt + 1)
      | timeout =>
        dsimp only
        split_ifs
        · exact ⟨trivial, fun _ => ih (attempt + 1)⟩
        · exact ⟨trivial, fun _ => trivial⟩
      | raised e =>
        dsimp only
        split_ifs
        · exact ⟨trivial, fun _ => ih (attempt + 1)⟩
        · exact ⟨trivial, fun _ => trivial⟩

theorem callProvider_always [Floats] :
    (callProvider config encode providerId provider request).Always PostWins := by
  rw [callProvider, now, perform_bind]
  refine ⟨trivial, fun startTime => ?_⟩
  cases hquote : quote encode provider request with
  | error e => trivial
  | ok quoted =>
    rcases quoted with response | ⟨modelConfig, estCost⟩
    · trivial
    · dsimp only
      rw [charge, perform_bind]
      refine ⟨trivial, fun granted => ?_⟩
      cases granted with
      | false => trivial
      | true =>
        dsimp only
        rw [if_pos rfl]
        cases buildPayload provider.apiCompat request with
        | error e => trivial
        | ok payload =>
          exact Always.bind (attempts_always
            (costOf_zero ⟨estCost, estimateCost_of_quote hquote⟩) _ 0) fun _ => trivial

end PostWins
end LingNet.Router
