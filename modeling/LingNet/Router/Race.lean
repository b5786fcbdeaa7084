import LingNet.Router.Call

/-! Race routing: the calls that are started, and the loop that waits for the first success. -/
namespace LingNet.Router
open Py

/-- A task of the race: the call of a provider that the router knows. -/
structure RaceCall where
  providerId : String
  provider : ModelProvider
  request : LLMRequest

def LLMRequest.forModel (request : LLMRequest) (providerId modelId : String) : LLMRequest where
  messages := request.messages
  model := modelId
  provider := providerId
  temperature := request.temperature
  maxTokens := request.maxTokens

/-- The tasks for the candidates, in their order. -/
def ModelRouter.raceCalls (self : ModelRouter) (request : LLMRequest) :
    List String → Except Exn (List RaceCall)
  | [] => .ok []
  | candidate :: candidates => do
    let (providerId, modelId) ← splitSlash candidate
    match self.providers.lookup providerId with
    | none => self.raceCalls request candidates
    | some provider => do
      let calls ← self.raceCalls request candidates
      pure (⟨providerId, provider, request.forModel providerId modelId⟩ :: calls)

/-- A call that is won: a response without an error. -/
def ErrorFree : Outcome → Prop
  | .ok response => response.error = none
  | .error _ => False

/-- The loop over the tasks that are done. -/
def firstSuccess (outcome : ℕ → Outcome) : List ℕ → Option LLMResponse
  | [] => none
  | i :: done =>
    match outcome i with
    | .ok response => if response.error = none then some response else firstSuccess outcome done
    | .error _ => firstSuccess outcome done

/-- Where the loop of the race stands: tasks are pending, a response won and tasks were
cancelled, or all tasks failed. -/
inductive RaceState where
  | waiting (pending : List ℕ)
  | won (response : LLMResponse) (cancelled : List ℕ)
  | lost

/-- One turn of the loop, at which `asyncio.wait` returns the tasks `done`. -/
def wake (outcome : ℕ → Outcome) (pending done : List ℕ) : RaceState :=
  let pending := pending.filter (· ∉ done)
  match firstSuccess outcome done with
  | some response => .won response pending
  | none => if pending = [] then .lost else .waiting pending

/-- The loop, with the groups of tasks that `asyncio.wait` returns. -/
def raceLoop (outcome : ℕ → Outcome) : List (List ℕ) → List ℕ → RaceState
  | _, [] => .lost
  | [], pending => .waiting pending
  | done :: rounds, pending =>
    match wake outcome pending done with
    | .waiting pending => raceLoop outcome rounds pending
    | ended => ended

/-- `stats["race_wins"][provider] += 1` -/
def Stats.recordWin (stats : Stats) (provider : String) : Stats :=
  { stats with raceWins :=
      stats.raceWins.insert provider ((stats.raceWins.lookup provider).getD 0 + 1) }

/-- The response when all candidates failed. -/
def allFailed (latencyMs : ℚ) : LLMResponse where
  content := .str ""
  provider := ""
  model := ""
  latencyMs := latencyMs
  tokensIn := .int 0
  tokensOut := .int 0
  costUsd := 0
  finishReason := .str "error"
  error := some "All race candidates failed and no fallback configured"

/-- How `_race` goes on after its loop: it returns a response, or it falls back. -/
inductive RaceEnd where
  | returned (response : LLMResponse) (stats : Stats) (cancelled : List ℕ)
  | fallback (strategy : StrategyField)

/-- The code behind the loop; `latencyMs` is what the clock says at its end. -/
def ModelRouter.raceEnd (self : ModelRouter) (latencyMs : ℚ) : RaceState → Option RaceEnd
  | .waiting _ => none
  | .won response cancelled =>
    some (.returned response (self.stats.recordWin response.provider) cancelled)
  | .lost =>
    match self.config.fallbackStrategy with
    | none => some (.returned (allFailed latencyMs) self.stats [])
    | some strategy =>
      if strategy.truthy then some (.fallback strategy)
      else some (.returned (allFailed latencyMs) self.stats [])

/-- Each group is part of what is still pending, and at the end every task was returned. A group
may be empty: the wait timed out. -/
def Delivers : List (List ℕ) → List ℕ → Prop
  | [], pending => pending = []
  | done :: rounds, pending => (∀ i ∈ done, i ∈ pending) ∧ Delivers rounds (pending.filter (· ∉ done))

section Loop

variable {outcome : ℕ → Outcome} {rounds : List (List ℕ)} {pending : List ℕ}

theorem firstSuccess_eq_some {done : List ℕ} {response : LLMResponse}
    (h : firstSuccess outcome done = some response) :
    response.error = none ∧ ∃ i ∈ done, outcome i = .ok response := by
  induction done with
  | nil => cases h
  | cons i done ih =>
    unfold firstSuccess at h
    cases hi : outcome i with
    | error e =>
      rw [hi] at h
      obtain ⟨herror, j, hj, heq⟩ := ih h
      exact ⟨herror, j, List.mem_cons_of_mem i hj, heq⟩
    | ok r =>
      rw [hi] at h
      dsimp only at h
      split_ifs at h with herror
      · cases h
        exact ⟨herror, i, List.mem_cons_self, hi⟩
      · obtain ⟨herror, j, hj, heq⟩ := ih h
        exact ⟨herror, j, List.mem_cons_of_mem i hj, heq⟩

theorem firstSuccess_eq_none {done : List ℕ} (h : firstSuccess outcome done = none) :
    ∀ i ∈ done, ¬ ErrorFree (outcome i) := by
  induction done with
  | nil => exact fun i hi => absurd hi List.not_mem_nil
  | cons j done ih =>
    unfold firstSuccess at h
    intro i hi
    cases hj : outcome j with
    | error e =>
      rw [hj] at h
      rcases List.mem_cons.mp hi with rfl | hi
      · rw [hj]
        exact id
      · exact ih h i hi
    | ok r =>
      rw [hj] at h
      dsimp only at h
      split_ifs at h with herror
      rcases List.mem_cons.mp hi with rfl | hi
      · rw [hj]
        exact herror
      · exact ih h i hi

theorem firstSuccess_of_fails {done : List ℕ} (h : ∀ i ∈ done, ¬ ErrorFree (outcome i)) :
    firstSuccess outcome done = none := by
  cases hsuccess : firstSuccess outcome done with
  | none => rfl
  | some winner =>
    obtain ⟨herror, i, hi, houtcome⟩ := firstSuccess_eq_some hsuccess
    have hfree : ErrorFree (outcome i) := by
      rw [houtcome]
      exact herror
    exact absurd hfree (h i hi)

theorem Delivers.mem (h : Delivers rounds pending) {done : List ℕ} (hdone : done ∈ rounds) {i : ℕ}
    (hi : i ∈ done) : i ∈ pending := by
  induction rounds generalizing pending with
  | nil => cases hdone
  | cons first rounds ih =>
    rcases List.mem_cons.mp hdone with rfl | hdone
    · exact h.1 i hi
    · exact List.mem_of_mem_filter (ih h.2 hdone)

/-- The winner is of the first group with a success, and the tasks that were not returned up to
then are cancelled. -/
theorem raceLoop_won {response : LLMResponse} {cancelled : List ℕ}
    (h : raceLoop outcome rounds pending = .won response cancelled) :
    ∃ before done after, rounds = before ++ done :: after ∧
      (∀ d ∈ before, ∀ i ∈ d, ¬ ErrorFree (outcome i)) ∧ response.error = none ∧
      (∃ i ∈ done, outcome i = .ok response) ∧
      cancelled = pending.filter (· ∉ (before ++ [done]).flatten) := by
  induction rounds generalizing pending with
  | nil => cases pending <;> cases h
  | cons done rounds ih =>
    cases pending with
    | nil => cases h
    | cons i pending =>
      unfold raceLoop wake at h
      dsimp only at h
      cases hsuccess : firstSuccess outcome done with
      | some winner =>
        rw [hsuccess] at h
        cases h
        obtain ⟨herror, hmem⟩ := firstSuccess_eq_some hsuccess
        refine ⟨[], done, rounds, rfl, fun d hd => absurd hd List.not_mem_nil, herror, hmem, ?_⟩
        rw [List.nil_append, List.flatten_singleton]
      | none =>
        rw [hsuccess] at h
        split_ifs at h with hempty
        obtain ⟨before, group, after, rfl, hbefore, herror, hmem, hcancelled⟩ := ih h
        refine ⟨done :: before, group, after, rfl, ?_, herror, hmem, ?_⟩
        · intro d hd
          rcases List.mem_cons.mp hd with rfl | hd
          · exact firstSuccess_eq_none hsuccess
          · exact hbefore d hd
        · rw [hcancelled, List.filter_filter]
          congr 1
          funext j
          rw [List.cons_append, List.flatten_cons, ← Bool.decide_and]
          exact decide_eq_decide.mpr (by rw [List.mem_append, not_or, and_comm])

theorem raceLoop_lost (hrounds : Delivers rounds pending)
    (h : raceLoop outcome rounds pending = .lost) : ∀ i ∈ pending, ¬ ErrorFree (outcome i) := by
  induction rounds generalizing pending with
  | nil =>
    rw [show pending = [] from hrounds]
    exact fun i hi => absurd hi List.not_mem_nil
  | cons done rounds ih =>
    cases pending with
    | nil => exact fun i hi => absurd hi List.not_mem_nil
    | cons first pending =>
      unfold raceLoop wake at h
      dsimp only at h
      cases hsuccess : firstSuccess outcome done with
      | some winner =>
        rw [hsuccess] at h
        cases h
      | none =>
        rw [hsuccess] at h
        intro i hi
        by_cases hdone : i ∈ done
        · exact firstSuccess_eq_none hsuccess i hdone
        have hrest : i ∈ (first :: pending).filter (· ∉ done) :=
          List.mem_filter.mpr ⟨hi, decide_eq_true hdone⟩
        split_ifs at h with hempty
        · rw [hempty] at hrest
          cases hrest
        · exact ih hrounds.2 h i hrest

theorem raceLoop_ends (hrounds : Delivers rounds pending) (waiting : List ℕ) :
    raceLoop outcome rounds pending ≠ .waiting waiting := by
  induction rounds generalizing pending with
  | nil =>
    rw [show pending = [] from hrounds]
    nofun
  | cons done rounds ih =>
    cases pending with
    | nil => nofun
    | cons first pending =>
      unfold raceLoop wake
      dsimp only
      cases firstSuccess outcome done with
      | some winner => nofun
      | none =>
        by_cases hempty : (first :: pending).filter (· ∉ done) = []
        · rw [if_pos hempty]
          nofun
        · rw [if_neg hempty]
          exact ih hrounds.2

end Loop

/-- A candidate is well formed when it has the shape `provider/model`. -/
def WellFormed (candidate : String) : Prop := ∃ names, splitSlash candidate = .ok names

/-- The call for a candidate whose provider the router knows. -/
def ModelRouter.knownCall (self : ModelRouter) (request : LLMRequest) (candidate : String) :
    Option RaceCall :=
  match splitSlash candidate with
  | .error _ => none
  | .ok (providerId, modelId) => (self.providers.lookup providerId).map fun provider =>
    ⟨providerId, provider, request.forModel providerId modelId⟩

theorem ModelRouter.raceCalls_of_wellFormed (self : ModelRouter) (request : LLMRequest)
    {candidates : List String} (h : ∀ c ∈ candidates, WellFormed c) :
    self.raceCalls request candidates = .ok (candidates.filterMap (self.knownCall request)) := by
  induction candidates with
  | nil => rfl
  | cons c candidates ih =>
    obtain ⟨⟨⟨providerId, modelId⟩, hsplit⟩, hrest⟩ := List.forall_mem_cons.mp h
    have hknown : self.knownCall request c = (self.providers.lookup providerId).map fun provider =>
        ⟨providerId, provider, request.forModel providerId modelId⟩ := by
      unfold ModelRouter.knownCall
      rw [hsplit]
    unfold ModelRouter.raceCalls
    rw [hsplit, List.filterMap_cons, hknown]
    dsimp only [bind, Except.bind]
    cases self.providers.lookup providerId with
    | none => exact ih hrest
    | some provider =>
      dsimp only [Option.map_some]
      rw [ih hrest]
      rfl

/-- What a race of `n` tasks without a fallback is to come to. -/
structure RaceSpec (outcome : ℕ → Outcome) (rounds : List (List ℕ)) (n : ℕ) (before : Stats)
    (response : LLMResponse) (after : Stats) (cancelled : List ℕ) : Prop where
  success_iff : response.error = none ↔ ∃ i < n, ErrorFree (outcome i)
  first : response.error = none → ∃ earlier done later, rounds = earlier ++ done :: later ∧
    (∀ d ∈ earlier, ∀ i ∈ d, ¬ ErrorFree (outcome i)) ∧ (∃ i ∈ done, outcome i = .ok response) ∧
    cancelled = (List.range n).filter (· ∉ (earlier ++ [done]).flatten)
  wins : response.error = none → ∀ p, (after.raceWins.lookup p).getD 0 =
    (before.raceWins.lookup p).getD 0 + if p = response.provider then 1 else 0
  failed : response.error ≠ none → after = before ∧ cancelled = []

/-- The race returns a success exactly when a task has one: one of the first group with a success,
when the tasks that are still pending are cancelled and its provider gets a win. -/
theorem race_success_iff (self : ModelRouter) (request : LLMRequest)
    (hcandidates : ∀ c ∈ self.config.candidates, WellFormed c)
    (hfallback : self.config.fallbackStrategy = none) :
    ∃ calls, calls = self.config.candidates.filterMap (self.knownCall request) ∧
      self.raceCalls request self.config.candidates = .ok calls ∧
      ∀ (outcome : ℕ → Outcome) (rounds : List (List ℕ)) (latencyMs : ℚ),
        Delivers rounds (List.range calls.length) → ∃ response stats cancelled,
          self.raceEnd latencyMs (raceLoop outcome rounds (List.range calls.length)) =
            some (.returned response stats cancelled) ∧
          RaceSpec outcome rounds calls.length self.stats response stats cancelled := by
  refine ⟨_, rfl, self.raceCalls_of_wellFormed request hcandidates, ?_⟩
  intro outcome rounds latencyMs hrounds
  cases hloop : raceLoop outcome rounds (List.range
      (self.config.candidates.filterMap (self.knownCall request)).length) with
  | waiting pending => exact absurd hloop (raceLoop_ends hrounds pending)
  | won response cancelled =>
    obtain ⟨earlier, done, later, rfl, hearlier, herror, ⟨i, hi, houtcome⟩, hcancelled⟩ :=
      raceLoop_won hloop
    refine ⟨response, _, cancelled, rfl, ⟨iff_of_true herror ⟨i, ?_, ?_⟩, fun _ => ?_, fun _ p => ?_,
      fun h => absurd herror h⟩⟩
    · exact List.mem_range.mp (hrounds.mem (List.mem_append_right _ List.mem_cons_self) hi)
    · rw [houtcome]
      exact herror
    · exact ⟨earlier, done, later, rfl, hearlier, ⟨i, hi, houtcome⟩, hcancelled⟩
    · unfold Stats.recordWin
      dsimp only
      by_cases hp : p = response.provider
      · subst hp
        rw [AList.lookup_insert, if_pos rfl]
        rfl
      · rw [AList.lookup_insert_ne hp, if_neg hp, Nat.add_zero]
  | lost =>
    have hfailed := raceLoop_lost hrounds hloop
    have herror : (allFailed latencyMs).error ≠ none := nofun
    refine ⟨allFailed latencyMs, self.stats, [], ?_, ⟨iff_of_false herror ?_,
      fun h => absurd h herror, fun h => absurd h herror, fun _ => ⟨rfl, rfl⟩⟩⟩
    · unfold ModelRouter.raceEnd
      rw [hfallback]
    · rintro ⟨i, hi, hfree⟩
      exact hfailed i (List.mem_range.mpr hi) hfree

/-- A provider of the model `m`, at a million for each token. -/
def providerOfM (id : String) : ModelProvider where
  id := id
  endpoint := "http://localhost"
  apiKey := ""
  apiCompat := "openai"
  models := [[("id", .str "m"), ("cost_in", .int 1000000), ("cost_out", .int 1000000)]]

/-- A router in race mode that knows the providers `a` and `b`. -/
def routerOf (candidates : List String) (fallback : Option StrategyField) (budget : ℚ) :
    ModelRouter :=
  ModelRouter.start (.init
    { strategy := .member .race, fallbackStrategy := fallback, budgetPerHour := budget,
      candidates := candidates, weights := [] }
    ((AList.insert "a" (providerOfM "a") ∅).insert "b" (providerOfM "b")) 0)

def hello : LLMRequest where
  messages := [[("role", "user"), ("content", "hi")]]
  model := "m"
  provider := ""

/-- The first task fails, and the others have a success. -/
def secondWins (i : ℕ) : Outcome :=
  .ok (if i = 0 then allFailed 0 else { allFailed 0 with error := none, provider := "b" })

/-- Two of three candidates are known, a wait times out, and then both tasks are done. -/
theorem race_success_iff_two : ∃ response stats cancelled,
    (routerOf ["a/m", "x/m", "b/m"] none 1).raceEnd 0
        (raceLoop secondWins [[], [0, 1]] (List.range 2)) =
          some (.returned response stats cancelled) ∧
      RaceSpec secondWins [[], [0, 1]] 2 (routerOf ["a/m", "x/m", "b/m"] none 1).stats response
        stats cancelled := by
  have hcandidates : ∀ c ∈ ["a/m", "x/m", "b/m"], WellFormed c :=
    List.forall_mem_cons.mpr ⟨⟨("a", "m"), rfl⟩, List.forall_mem_cons.mpr ⟨⟨("x", "m"), rfl⟩,
      List.forall_mem_singleton.mpr ⟨("b", "m"), rfl⟩⟩⟩
  obtain ⟨calls, hcalls, -, hrace⟩ :=
    race_success_iff (routerOf ["a/m", "x/m", "b/m"] none 1) hello hcandidates rfl
  have hlength : calls.length = 2 := by
    rw [hcalls]
    rfl
  rw [hlength] at hrace
  exact hrace _ [[], [0, 1]] 0 ⟨by decide, by decide, rfl⟩

end LingNet.Router
