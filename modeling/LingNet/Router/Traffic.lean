import LingNet.Lib.Credit
import LingNet.Router.Budget
import LingNet.Router.Route

/-! The requests that a router sends. Routes run side by side on it and start calls, and every
call pays for its posts and its delays out of what it is granted. -/
namespace LingNet.Router
open Py Coroutine

/-- The calls that a route starts at once. -/
def Routing.calls : Routing → List (Routine Outcome)
  | .solo routine => [routine]
  | .race (.ok begun) => begun.tasks
  | .race (.error _) => []

/-- A router and the calls on it, which take turns. A call that lost its race is cancelled. -/
def service [Floats] (encode : Tokenizer) :
    Service ModelRouter Action Action.Reply Reply Outcome LLMRequest where
  handler := answer
  arrive self request := ((self.route encode request).1, (self.route encode request).2.calls)
  cancelled := .error cancelledError

/-- `retry_count + 1`, and none for a negative count. -/
def RoutingConfig.attempts (config : RoutingConfig) : ℕ := (config.retryCount + 1).toNat

/-- Prices for the grant of a charge, a post and a delay, and what a grant earns. -/
def tariff (grant earned posted delayed : ℕ) : Tariff Action Action.Reply where
  earn
    | .charge _, true => earned
    | _, _ => 0
  cost
    | .charge _, true => grant
    | .post _ _ _, _ => posted
    | .sleep _, _ => delayed
    | _, _ => 0

section Prices

variable {config : RoutingConfig} {encode : Tokenizer} {providerId : String}
  {provider : ModelProvider} {request : LLMRequest} {modelConfig : Dict} {payload : Json}
  {startTime : ℚ} {grant earned posted delayed credit : ℕ} {α : Type} {P : ℕ → α → Prop}

theorem pays_now {f : ℚ → Routine α}
    (h : ∀ time, (f time).Pays (tariff grant earned posted delayed) P credit) :
    (now >>= f).Pays (tariff grant earned posted delayed) P credit :=
  Pays.free (fun _ => rfl) (fun _ => rfl) h

theorem pays_readJson {f : Awaited Json → Routine α}
    (h : ∀ r, (f r).Pays (tariff grant earned posted delayed) P credit) :
    (readJson >>= f).Pays (tariff grant earned posted delayed) P credit :=
  Pays.free (fun _ => rfl) (fun _ => rfl) h

theorem pays_readText {f : Awaited String → Routine α}
    (h : ∀ r, (f r).Pays (tariff grant earned posted delayed) P credit) :
    (readText >>= f).Pays (tariff grant earned posted delayed) P credit :=
  Pays.free (fun _ => rfl) (fun _ => rfl) h

theorem pays_observeLatency {latencyMs : ℚ} {f : Unit → Routine α}
    (h : (f ()).Pays (tariff grant earned posted delayed) P credit) :
    (observeLatency providerId latencyMs >>= f).Pays (tariff grant earned posted delayed) P credit :=
  Pays.free (fun _ => rfl) (fun _ => rfl) fun _ => h

theorem pays_post {url : String} {headers : List (String × String)} {f : Awaited ℕ → Routine α}
    (hle : posted ≤ credit)
    (h : ∀ r, (f r).Pays (tariff grant earned posted delayed) P (credit - posted)) :
    (post url headers payload >>= f).Pays (tariff grant earned posted delayed) P credit :=
  Pays.perform (fun _ => rfl) (fun _ => rfl) hle h

theorem pays_sleep {ms : ℤ} {f : Unit → Routine α} (hle : delayed ≤ credit)
    (h : (f ()).Pays (tariff grant earned posted delayed) P (credit - delayed)) :
    (sleep ms >>= f).Pays (tariff grant earned posted delayed) P credit :=
  Pays.perform (fun _ => rfl) (fun _ => rfl) hle fun _ => h

theorem pays_respondError [Floats] {P : ℕ → LLMResponse → Prop} (error : String)
    (h : ∀ response, P credit response) :
    (respondError provider request startTime error).Pays (tariff grant earned posted delayed) P
      credit :=
  pays_now fun _ => h _

/-- What an attempt that began with the credit leaves of it: another one follows a delay. -/
def Leaves (config : RoutingConfig) (posted delayed credit : ℕ) (attempt : ℤ) (left : ℕ) :
    AttemptEnd → Prop
  | .retry => attempt < config.retryCount ∧ credit = left + posted + delayed
  | _ => credit = left + posted

theorem pays_tryPost [Floats] (attempt : ℤ) (hposted : posted ≤ credit)
    (hdelayed : attempt < config.retryCount → posted + delayed ≤ credit) :
    (tryPost config providerId provider request modelConfig startTime payload attempt).Pays
      (tariff grant earned posted delayed) (Leaves config posted delayed credit attempt)
      credit := by
  have hleft : credit = credit - posted + posted := (Nat.sub_add_cancel hposted).symm
  refine pays_post hposted fun r => ?_
  cases r with
  | timeout => exact hleft
  | raised e => exact hleft
  | value status =>
    dsimp only
    split_ifs with hstatus
    · refine pays_readJson fun r => ?_
      cases r with
      | timeout => exact hleft
      | raised e => exact hleft
      | value data =>
        refine pays_now fun time => pays_observeLatency ?_
        cases readBody provider request modelConfig (elapsedMs startTime time) data with
        | ok response => exact hleft
        | error e => exact hleft
    · refine pays_readText fun r => ?_
      cases r with
      | timeout => exact hleft
      | raised e => exact hleft
      | value errorText =>
        dsimp only
        split_ifs with hretry
        · have hpaid := hdelayed hretry.2.2.2
          refine pays_sleep (by omega) ⟨hretry.2.2.2, ?_⟩
          omega
        · exact Pays.bind (pays_respondError _ fun _ => hleft)

/-- The credit for the attempts that are left, with a delay between two of them. -/
def attemptsPrice (posted delayed : ℕ) : ℕ → ℕ
  | 0 => 0
  | remaining + 1 => posted + remaining * (posted + delayed)

/-- Each attempt pays for itself, and for the delay that comes before the next one. -/
theorem pays_attempts [Floats] (remaining : ℕ) (attempt : ℤ)
    (hleft : (remaining : ℤ) = config.retryCount + 1 - attempt ∨ remaining = 0)
    (hcredit : attemptsPrice posted delayed remaining ≤ credit) :
    (attempts config providerId provider request modelConfig startTime payload remaining
      attempt).Pays (tariff grant earned posted delayed) (fun _ _ => True) credit := by
  induction remaining generalizing attempt credit with
  | zero => exact pays_respondError _ fun _ => trivial
  | succ remaining ih =>
    have hattempt : (remaining : ℤ) = config.retryCount - attempt := by
      rcases hleft with h | h <;> omega
    have hnext : (remaining : ℤ) = config.retryCount + 1 - (attempt + 1) ∨ remaining = 0 :=
      .inl (by omega)
    -- a delay is followed by another attempt, for which there is credit
    have hmore : attempt < config.retryCount →
        posted + delayed + attemptsPrice posted delayed remaining ≤ credit := by
      intro hlt
      cases remaining with
      | zero => omega
      | succ remaining =>
        have hprice : attemptsPrice posted delayed (remaining + 1 + 1) =
            posted + delayed + attemptsPrice posted delayed (remaining + 1) := by
          unfold attemptsPrice
          ring
        omega
    have hfirst : posted ≤ credit :=
      (Nat.le_add_right posted (remaining * (posted + delayed))).trans hcredit
    refine Pays.bind ((pays_tryPost attempt hfirst fun hlt => ?_).mono fun left attemptEnd hend => ?_)
    · have hpaid := hmore hlt
      omega
    · cases attemptEnd with
      | response response => trivial
      | retry =>
        obtain ⟨hlt, hpaid⟩ := hend
        have henough := hmore hlt
        exact ih (attempt + 1) hnext (by omega)
      | timeout =>
        have hpaid : credit = left + posted := hend
        dsimp only
        split_ifs with hretry
        · have henough := hmore hretry.2
          exact pays_sleep (by omega) (ih (attempt + 1) hnext (by omega))
        · exact pays_respondError _ fun _ => trivial
      | raised e =>
        have hpaid : credit = left + posted := hend
        dsimp only
        split_ifs with hretry
        · have henough := hmore hretry.2
          exact pays_sleep (by omega) (ih (attempt + 1) hnext (by omega))
        · exact pays_respondError _ fun _ => trivial

/-- A call pays for its attempts once its charge is granted. -/
theorem solvent_callProvider [Floats] (providerId : String) (provider : ModelProvider)
    (request : LLMRequest)
    (hprice : grant + attemptsPrice posted delayed config.attempts ≤ credit + earned) :
    (callProvider config encode providerId provider request).Solvent
      (tariff grant earned posted delayed) credit := by
  refine pays_now fun startTime => ?_
  cases quote encode provider request with
  | error e => trivial
  | ok quoted =>
    rcases quoted with response | ⟨modelConfig, estCost⟩
    · trivial
    · intro granted
      cases granted with
      | false => exact ⟨Nat.zero_le _, trivial⟩
      | true =>
        refine ⟨(Nat.le_add_right grant _).trans hprice, ?_⟩
        change Pays _ _ (credit + earned - grant) _
        have hattempts : ∀ payload, (do
            let response ← attempts config providerId provider request modelConfig startTime
              payload config.attempts 0
            pure (.ok response) : Routine Outcome).Solvent (tariff grant earned posted delayed)
              (credit + earned - grant) := by
          intro payload
          refine Pays.bind ((pays_attempts config.attempts 0 ?_ ?_).mono fun _ _ _ => trivial)
          · unfold RoutingConfig.attempts
            omega
          · omega
        cases buildPayload provider.apiCompat request with
        | error e => trivial
        | ok payload => exact hattempts payload

theorem solvent_makeCall [Floats] (self : ModelRouter) (call : Except Exn RaceCall)
    (hprice : grant + attemptsPrice posted delayed self.config.attempts ≤ credit + earned) :
    (self.makeCall encode call).Solvent (tariff grant earned posted delayed) credit := by
  cases call with
  | error e => trivial
  | ok call => exact solvent_callProvider call.providerId call.provider call.request hprice

theorem solvent_smartRoute [Floats] (self : ModelRouter)
    (hprice : grant + attemptsPrice posted delayed self.config.attempts ≤ credit + earned) :
    (self.smartRoute encode request).Solvent (tariff grant earned posted delayed) credit := by
  unfold ModelRouter.smartRoute
  cases self.scores self.config.weights with
  | error e => trivial
  | ok scores =>
    dsimp only
    split_ifs
    · exact solvent_makeCall self _ hprice
    · exact Pays.free (fun _ => rfl) (fun _ => rfl) fun u => solvent_makeCall self _ hprice

theorem raceCalls_length {self : ModelRouter} {candidates : List String} {calls : List RaceCall}
    (h : self.raceCalls request candidates = .ok calls) : calls.length ≤ candidates.length := by
  induction candidates generalizing calls with
  | nil =>
    cases h
    exact le_rfl
  | cons candidate candidates ih =>
    unfold ModelRouter.raceCalls at h
    obtain ⟨⟨providerId, modelId⟩, -, h⟩ := bind_eq_ok.mp h
    dsimp only at h
    cases hprovider : self.providers.lookup providerId with
    | none =>
      rw [hprovider] at h
      exact (ih h).trans (Nat.le_succ _)
    | some provider =>
      rw [hprovider] at h
      obtain ⟨rest, hrest, h⟩ := bind_eq_ok.mp h
      cases h
      exact Nat.succ_le_succ (ih hrest)

/-- The tasks of a race are calls of providers, one for a candidate at most. -/
theorem tasks_of_begin [Floats] {self : ModelRouter} {begun : Race}
    (h : Race.begin self encode request = .ok begun) : ∃ calls : List RaceCall,
      begun.tasks = calls.map (fun call =>
        callProvider self.config encode call.providerId call.provider call.request) ∧
      calls.length ≤ self.config.candidates.length := by
  unfold Race.begin at h
  obtain ⟨calls, hcalls, h⟩ := bind_eq_ok.mp h
  cases h
  exact ⟨calls, rfl, raceCalls_length hcalls⟩

theorem calls_route [Floats] (self : ModelRouter) (request : LLMRequest) :
    (self.route encode request).2.calls =
      (self.countRequest.routing encode request (dispatch self.config.strategy)).calls := rfl

theorem solvent_route [Floats] (self : ModelRouter)
    (hprice : grant + attemptsPrice posted delayed self.config.attempts ≤ credit + earned) :
    ∀ t ∈ (self.route encode request).2.calls,
      t.Solvent (tariff grant earned posted delayed) credit := by
  intro t ht
  rw [calls_route] at ht
  cases hstrategy : dispatch self.config.strategy with
  | uniform =>
    rw [hstrategy] at ht
    obtain rfl : t = self.countRequest.uniformRoute encode request := List.mem_singleton.mp ht
    exact solvent_makeCall self.countRequest _ hprice
  | smart =>
    rw [hstrategy] at ht
    obtain rfl : t = self.countRequest.smartRoute encode request := List.mem_singleton.mp ht
    exact solvent_smartRoute self.countRequest hprice
  | race =>
    rw [hstrategy] at ht
    unfold ModelRouter.routing at ht
    cases hbegin : Race.begin self.countRequest encode request with
    | error e =>
      rw [hbegin] at ht
      cases ht
    | ok begun =>
      rw [hbegin] at ht
      obtain ⟨calls, htasks, -⟩ := tasks_of_begin hbegin
      rw [Routing.calls, htasks] at ht
      obtain ⟨call, -, rfl⟩ := List.mem_map.mp ht
      exact solvent_callProvider call.providerId call.provider call.request hprice

/-- The calls that so many requests start: one each for a strategy that selects, and for a race at
most one for each candidate. -/
def RoutingConfig.Starts (config : RoutingConfig) (calls requests : ℕ) : Prop :=
  match dispatch config.strategy with
  | .race => calls ≤ config.candidates.length * requests
  | _ => calls = requests

theorem RoutingConfig.Starts.zero (config : RoutingConfig) : config.Starts 0 0 := by
  unfold Starts
  split
  · exact Nat.zero_le _
  · rfl

theorem RoutingConfig.Starts.add {calls calls' requests requests' : ℕ}
    (h : config.Starts calls requests) (h' : config.Starts calls' requests') :
    config.Starts (calls + calls') (requests + requests') := by
  unfold Starts at h h' ⊢
  cases hstrategy : dispatch config.strategy with
  | race =>
    rw [hstrategy] at h h'
    exact (Nat.add_le_add h h').trans_eq (Nat.mul_add _ _ _).symm
  | _ =>
    rw [hstrategy] at h h'
    exact congrArg₂ (· + ·) h h'

theorem starts_route [Floats] (self : ModelRouter) (request : LLMRequest) :
    self.config.Starts (self.route encode request).2.calls.length 1 := by
  unfold RoutingConfig.Starts
  rw [calls_route]
  cases dispatch self.config.strategy with
  | uniform => rfl
  | smart => rfl
  | race =>
    unfold ModelRouter.routing
    cases hbegin : Race.begin self.countRequest encode request with
    | error e => exact Nat.zero_le _
    | ok begun =>
      obtain ⟨calls, htasks, hle⟩ := tasks_of_begin hbegin
      rw [Routing.calls, htasks, List.length_map, Nat.mul_one]
      exact hle

end Prices

/-! Runs of the service. -/

def grants : (a : Action) → a.Reply → ℕ
  | .charge _, true => 1
  | _, _ => 0

def posts : (a : Action) → a.Reply → ℕ
  | .post _ _ _, _ => 1
  | _, _ => 0

def delays : (a : Action) → a.Reply → ℕ
  | .sleep _, _ => 1
  | _, _ => 0

def requested : Service.Event Reply LLMRequest → ℕ
  | .request _ => 1
  | _ => 0

section Runs

variable {encode : Tokenizer} {self : ModelRouter} {p p' : ModelRouter × List (Routine Outcome)}
  {events : List (Service.Event Reply LLMRequest)}

theorem config_answer [Floats] (self : ModelRouter) (a : Action) (e : Reply) :
    (answer self a e).2.config = self.config := by
  cases a with
  | observeLatency providerId latencyMs =>
    simp only [answer, ModelRouter.observeLatency]
    cases self.providers.lookup providerId <;> rfl
  | _ => rfl

theorem totalRequests_answer [Floats] (self : ModelRouter) (a : Action) (e : Reply) :
    (answer self a e).2.stats.totalRequests = self.stats.totalRequests := by
  cases a with
  | observeLatency providerId latencyMs =>
    simp only [answer, ModelRouter.observeLatency]
    cases self.providers.lookup providerId <;> rfl
  | _ => rfl

theorem cost_tariff (grant earned posted delayed : ℕ) :
    (tariff grant earned posted delayed).cost = fun a r =>
      grant * grants a r + (posted * posts a r + delayed * delays a r) := by
  funext a r
  cases a with
  | charge cost => cases r <;> simp [tariff, grants, posts, delays]
  | _ => simp [tariff, grants, posts, delays]

theorem earn_tariff (grant earned posted delayed : ℕ) :
    (tariff grant earned posted delayed).earn = fun a r => earned * grants a r := by
  funext a r
  cases a with
  | charge cost => cases r <;> simp [tariff, grants]
  | _ => simp [tariff, grants]

def count [Floats] (encode : Tokenizer) (f : (a : Action) → a.Reply → ℕ)
    (p : ModelRouter × List (Routine Outcome)) (events : List (Service.Event Reply LLMRequest)) :
    ℕ := Run.total (service encode).step ((service encode).charges f) p events

theorem count_tariff [Floats] (hr : Run.run (service encode).step p events = some p')
    (grant earned posted delayed : ℕ) :
    count encode (tariff grant earned posted delayed).cost p events =
      grant * count encode grants p events + (posted * count encode posts p events +
        delayed * count encode delays p events) ∧
      count encode (tariff grant earned posted delayed).earn p events =
        earned * count encode grants p events := by
  rw [cost_tariff, earn_tariff]
  unfold count
  constructor
  · rw [← Run.total_const_mul grant hr, ← Run.total_const_mul posted hr,
      ← Run.total_const_mul delayed hr, ← Run.total_add hr, ← Run.total_add hr]
    congr 1
    funext p event
    rw [Service.charges_add, Service.charges_add, Service.charges_const_mul,
      Service.charges_const_mul, Service.charges_const_mul]
  · rw [← Run.total_const_mul earned hr]
    congr 1
    funext p event
    exact Service.charges_const_mul earned event

/-- What the calls pay in a run is what they earned, and what came with them. -/
theorem count_le [Floats] (hr : Run.run (service encode).step (self, []) events = some p')
    (grant earned posted delayed credit : ℕ)
    (hprice : grant + attemptsPrice posted delayed self.config.attempts ≤ credit + earned) :
    grant * count encode grants (self, []) events +
        (posted * count encode posts (self, []) events +
          delayed * count encode delays (self, []) events) ≤
      earned * count encode grants (self, []) events +
        credit * Run.total (service encode).step (service encode).arrivals (self, []) events := by
  obtain ⟨hcost, hearn⟩ := count_tariff hr grant earned posted delayed
  rw [← hcost, ← hearn]
  refine Service.charges_le (I := fun router => router.config = self.config) ?_ ?_ ?_ rfl hr
  · exact fun router a e h => (config_answer router a e).trans h
  · exact fun router request h => h
  · intro router request h
    refine solvent_route router ?_
    rw [h]
    exact hprice

/-- A request starts its calls, and counts. -/
theorem starts_step [Floats] {event : Service.Event Reply LLMRequest}
    (h : (service encode).step p event = some p') : p'.1.config = p.1.config ∧
      p'.1.stats.totalRequests = p.1.stats.totalRequests + requested event ∧
      p.1.config.Starts ((service encode).arrivals p event) (requested event) := by
  cases event with
  | request request =>
    cases h
    exact ⟨rfl, rfl, starts_route p.1 request⟩
  | turn i e =>
    obtain ⟨a, k, -, rfl⟩ := advance_eq_some.mp h
    exact ⟨config_answer p.1 a e, totalRequests_answer p.1 a e, .zero _⟩
  | cancel i =>
    obtain ⟨-, rfl⟩ := Service.step_cancel_eq_some h
    exact ⟨rfl, rfl, .zero _⟩

end Runs

open scoped Floats.Binary64

end LingNet.Router
