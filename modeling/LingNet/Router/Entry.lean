import LingNet.Router.Route

/-! The entry points for the Zig layer, which get a configuration as JSON. -/
namespace LingNet.Router
open Py

/-- A configuration as it is sent. Fields with a default may be left out. -/
structure SentConfig where
  strategy : RoutingStrategy
  fallbackStrategy : Option RoutingStrategy
  budgetPerHour : ℚ
  candidates : List String
  weights : List (String × ℤ)
  retryCount : Option ℤ := none
  retryDelayMs : Option ℤ := none
  retryOnErrors : Option (List String) := none
  raceTimeoutMs : Option ℤ := none

/-- The configuration whose strategies are held by the given fields. -/
def SentConfig.withStrategies (sent : SentConfig) (field : RoutingStrategy → StrategyField) :
    RoutingConfig :=
  let config : RoutingConfig :=
    { strategy := field sent.strategy, fallbackStrategy := sent.fallbackStrategy.map field,
      budgetPerHour := sent.budgetPerHour, candidates := sent.candidates, weights := sent.weights }
  { config with
    retryCount := sent.retryCount.getD config.retryCount
    retryDelayMs := sent.retryDelayMs.getD config.retryDelayMs
    retryOnErrors := sent.retryOnErrors.getD config.retryOnErrors
    raceTimeoutMs := sent.raceTimeoutMs.getD config.raceTimeoutMs }

/-- `RoutingConfig(**json.loads(config_json))`: a dataclass keeps what it is given, and JSON has
strings where the program has members of the enumeration. -/
def SentConfig.loads (sent : SentConfig) : RoutingConfig :=
  sent.withStrategies fun s => .str s.value

/-- The configuration that the program itself would make. -/
def SentConfig.named (sent : SentConfig) : RoutingConfig := sent.withStrategies .member

/-- `_router_registry` -/
abbrev Registry := AList fun _ : ℤ => ModelRouter

/-- `init_router`, with the time at which the budget's hour starts. -/
def initRouter (registry : Registry) (sent : SentConfig)
    (providers : AList fun _ : String => ModelProvider) (now : ℚ) : ℤ × Registry :=
  (0, registry.insert 0 (ModelRouter.init sent.loads providers now).start)

/-- `route_request`: the router of the handle routes the request, or there is none. -/
def routeRequest [Floats] (registry : Registry) (handle : ℤ) (encode : Tokenizer)
    (request : LLMRequest) :
    Json ⊕ ModelRouter × Routing :=
  match registry.lookup handle with
  | none => .inl (.dict [("error", .str "Invalid router handle")])
  | some router => .inr (router.route encode request)

/-- `random.uniform(0, total_w)` for an integer. -/
def uniformInt [Floats] (total : ℤ) (u : UnitInterval) : Except Exn ℚ :=
  match Floats.ofInt total with
  | none => .error ⟨.other "OverflowError", "int too large to convert to float"⟩
  | some total => .ok (Floats.add 0 (Floats.mul total u))

/-- `selected or list(config.weights.keys())[0]`: a name that is empty gives way to the first one,
too. -/
def orFirst {S : Type} (entries : List (String × S)) (selected : Option String) : Option String :=
  match selected with
  | some providerId => if providerId = "" then entries.head?.map Prod.fst else some providerId
  | none => entries.head?.map Prod.fst

/-- The weighted pick of `select_provider`, which adds up the weights as integers. -/
def selectWeighted [Floats] (weights : List (String × ℤ)) (u : UnitInterval) :
    Except Exn (Option String) := do
  let total := (weights.map Prod.snd).sum
  let entries := weights.map fun w => (w.1, (w.2 : ℚ))
  if 0 < total then do
    let pick ← uniformInt total u
    pure (orFirst entries (pickLoop pick 0 entries))
  else pure (orFirst entries none)

/-- The provider that `select_provider` comes to. -/
def selection [Floats] (config : RoutingConfig) (context : Json) (u : UnitInterval) :
    Except Exn (Option String) :=
  if config.strategy = .member .race then .ok config.candidates.head?
  else if config.strategy = .member .smart ∧ config.weights ≠ [] then
    selectWeighted config.weights u
  else if config.candidates ≠ [] then do
    let requestCount ← (← context.get "request_count" (.int 0)).toInt
    pure config.candidates[(requestCount % config.candidates.length).toNat]?
  else .ok none

def selectionJson (selected : Option String) (strategy : String) : Json :=
  .dict [("provider", .str (selected.getD "")), ("strategy", .str strategy)]

/-- `select_provider`. The router it makes is not used. -/
def selectProvider [Floats] (config : RoutingConfig) (context : Json) (u : UnitInterval) :
    Except Exn Json := do
  let selected ← selection config context u
  let strategy ← config.strategy.value
  pure (selectionJson selected strategy)

/-- The entry points do what the strategy named in the JSON is to do: every request of the router
goes to it, and wherever it has a selection, that selection is returned with its name. -/
structure Honours [Floats] (sent : SentConfig) : Prop where
  routes : ∀ registry providers now encode request, ∃ router,
    routeRequest (initRouter registry sent providers now).2 (initRouter registry sent providers now).1
      encode request = .inr (router, router.routing encode request sent.strategy)
  selects : ∀ context u selected, selection sent.named context u = .ok selected →
    selectProvider sent.loads context u = .ok (selectionJson selected sent.strategy.value)

/-- A strategy that was loaded has no value. -/
theorem selectProvider_loads [Floats] (sent : SentConfig) (context : Json) (u : UnitInterval) :
    ∃ e, selectProvider sent.loads context u = .error e := by
  unfold selectProvider
  cases selection sent.loads context u with
  | error e => exact ⟨e, rfl⟩
  | ok selected => exact ⟨_, rfl⟩

/-- The router that routes the first request to it. -/
def firstRouter (sent : SentConfig) (providers : AList fun _ : String => ModelProvider) (now : ℚ) :
    ModelRouter :=
  (ModelRouter.init sent.loads providers now).start.countRequest

/-- Every request to a router from `init_router` takes the last branch of `route`. -/
theorem routeRequest_initRouter [Floats] (registry : Registry) (sent : SentConfig)
    (providers : AList fun _ : String => ModelProvider) (now : ℚ) (encode : Tokenizer)
    (request : LLMRequest) : routeRequest (initRouter registry sent providers now).2
        (initRouter registry sent providers now).1 encode request =
      .inr (firstRouter sent providers now,
        .solo ((firstRouter sent providers now).uniformRoute encode request)) := by
  unfold routeRequest initRouter
  dsimp only
  rw [AList.lookup_insert]
  rfl

/-- There is a selection, unless the strategy is smart and its weights are too large. -/
theorem selection_named [Floats] (sent : SentConfig) (u : UnitInterval) :
    (∃ selected, selection sent.named (.dict []) u = .ok selected) ∨
      sent.strategy = .smart ∧ sent.weights ≠ [] := by
  by_cases hsmart : sent.strategy = .smart ∧ sent.weights ≠ []
  · exact .inr hsmart
  · have hnamed : ¬ (sent.named.strategy = .member .smart ∧ sent.named.weights ≠ []) :=
      fun h => hsmart ⟨StrategyField.member.inj h.1, h.2⟩
    unfold selection
    rw [if_neg hnamed]
    left
    split_ifs <;> exact ⟨_, rfl⟩

/-- A provider whose latency is a second less than nothing. -/
def backdated : ModelProvider where
  id := ""
  endpoint := ""
  apiKey := ""
  apiCompat := ""
  models := []
  latencyMs := -1000

theorem slowness_backdated [Floats] : ModelRouter.slowness backdated = 0 := by
  have hdiv : Floats.div (-1000) 1000 = -1 := by
    unfold Floats.div
    rw [show (-1000 / 1000 : ℚ) = -1 by norm_num, Floats.round_neg_one]
  show Floats.add 1 (Floats.div (-1000) 1000) = 0
  rw [hdiv, Floats.add, add_neg_cancel, Floats.round_zero]

/-- Smart routing divides by zero when the first provider that it weighs is such a one. -/
theorem smartRoute_backdated [Floats] {self : ModelRouter} {providerId : String} {weight : ℤ}
    {weights : List (String × ℤ)} (hweights : self.config.weights = (providerId, weight) :: weights)
    (hlookup : self.providers.lookup providerId = some backdated) (encode : Tokenizer)
    (request : LLMRequest) : self.smartRoute encode request =
      pure (.error ⟨.zeroDivisionError, "float division by zero"⟩) := by
  have hscore : ModelRouter.score backdated weight =
      .error ⟨.zeroDivisionError, "float division by zero"⟩ := if_pos slowness_backdated
  unfold ModelRouter.smartRoute
  rw [hweights, ModelRouter.scores, hlookup]
  dsimp only
  rw [hscore]
  rfl

/-- Round-robin does not divide floats. -/
theorem uniformCall_ne (self : ModelRouter) (request : LLMRequest) :
    self.uniformCall request ≠ .error ⟨.zeroDivisionError, "float division by zero"⟩ := by
  intro h
  unfold ModelRouter.uniformCall at h
  split at h
  · simp at h
  · rcases bind_eq_error.mp h with h | ⟨names, -, h⟩
    · unfold splitSlash at h
      split at h <;> simp at h
    · rcases bind_eq_error.mp h with h | ⟨provider, -, h⟩
      · unfold ModelRouter.getProvider at h
        split at h <;> simp at h
      · cases h

theorem uniformRoute_ne [Floats] (self : ModelRouter) (encode : Tokenizer) (request : LLMRequest) :
    self.uniformRoute encode request ≠
      pure (.error ⟨.zeroDivisionError, "float division by zero"⟩) := by
  intro h
  unfold ModelRouter.uniformRoute at h
  cases hcall : self.uniformCall request with
  | error e =>
    rw [hcall] at h
    cases h
    exact uniformCall_ne self request hcall
  | ok call =>
    rw [hcall] at h
    cases h

/-- There is no configuration for which the entry points honour the strategy. -/
theorem not_honours [Floats] (sent : SentConfig) : ¬ Honours sent := by
  intro h
  rcases selection_named sent default with ⟨selected, hselected⟩ | ⟨hsmart, hweights⟩
  · obtain ⟨e, he⟩ := selectProvider_loads sent (.dict []) default
    cases (h.selects _ _ selected hselected).symm.trans he
  · obtain ⟨⟨providerId, weight⟩, weights, hcons⟩ := List.exists_cons_of_ne_nil hweights
    let providers : AList fun _ : String => ModelProvider := AList.singleton providerId backdated
    let request : LLMRequest := ⟨[], "", "", 0, none, false⟩
    obtain ⟨router, hrouter⟩ := h.routes ∅ providers 0 (fun _ _ => none) request
    rw [routeRequest_initRouter] at hrouter
    obtain ⟨rfl, hrouting⟩ := Prod.mk.inj (Sum.inr.inj hrouter)
    rw [hsmart] at hrouting
    refine uniformRoute_ne (firstRouter sent providers 0) (fun _ _ => none) request ?_
    rw [Routing.solo.inj hrouting]
    exact smartRoute_backdated hcons (AList.lookup_insert ∅) _ _

/-- A race of one candidate. -/
def raceSent : SentConfig where
  strategy := .race
  fallbackStrategy := none
  budgetPerHour := 10
  candidates := ["a/m"]
  weights := []

open scoped Floats.Binary64 in
/-- The race would select its candidate, but its name cannot be read, and its requests are not
raced. -/
theorem race_not_honoured :
    selection raceSent.named (.dict []) default = .ok (some "a/m") ∧
      selectProvider raceSent.loads (.dict []) default =
        .error ⟨.attributeError, "'str' object has no attribute 'value'"⟩ ∧
      dispatch raceSent.loads.strategy = .uniform ∧ ¬ Honours raceSent := by
  have hselection : selection raceSent.named (.dict []) default = .ok (some "a/m") := rfl
  have hraised : selectProvider raceSent.loads (.dict []) default =
      .error ⟨.attributeError, "'str' object has no attribute 'value'"⟩ := rfl
  refine ⟨hselection, hraised, rfl, fun h => ?_⟩
  cases (h.selects _ _ _ hselection).symm.trans hraised

end LingNet.Router
