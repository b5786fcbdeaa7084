import LingNet.Providers.Status
import Mathlib.Algebra.BigOperators.Group.List.Basic

/-! The failures that `route` counts, beside those that its callers see. -/
namespace LingNet.Providers

namespace RouterCore

/-- What `route` does when `_execute` has raised. A selected provider is always there. -/
def routeFailed (self : RouterCore) (p : Ref) (error : String) (elapsed : ℚ) :
    RouteResult × RouterCore :=
  let self := self.recordFailure p
  match self.providers[p]? with
  | none => (noProvider, self)
  | some provider =>
    (failed provider error elapsed,
      if self.needsFailover p then self.setStatus p .degraded else self)

/-- `route`, from its selection to its result. -/
def route (self : RouterCore) (request : RouteRequest) (outcome : Outcome) (elapsed : ℚ) :
    RouteResult × RouterCore :=
  match self.selectProvider request with
  | (none, self) => (noProvider, self)
  | (some p, self) =>
    match outcome with
    | .ok result => ({ result with latencyMs := elapsed }, self.recordSuccess p result elapsed)
    | .error e => self.routeFailed p e elapsed

end RouterCore

/-- A call of `route`, with what `_execute` comes to. -/
structure Call where
  request : RouteRequest
  outcome : Outcome
  elapsed : ℚ

/-- A router, and the requests that a provider had so far with whether their results were a
success. -/
structure Ledger where
  core : RouterCore
  log : List (Ref × Bool) := []

namespace Ledger

def step (s : Ledger) (c : Call) : Option Ledger :=
  let r := s.core.route c.request c.outcome c.elapsed
  some { core := r.2
         log := s.log ++
           ((s.core.selectProvider c.request).1.map fun p => (p, r.1.success)).toList }

/-- The requests that the provider had. -/
def requests (s : Ledger) (p : Ref) : ℕ := s.log.countP fun e => e.1 = p

/-- Those whose results were failures. -/
def failures (s : Ledger) (p : Ref) : ℕ := s.log.countP fun e => e.1 = p ∧ e.2 = false

/-- The counters are what has happened. -/
structure Accounted (s : Ledger) : Prop where
  requests_eq : ∀ p provider, s.core.providers[p]? = some provider →
    provider.totalRequests = s.requests p
  failures_eq : ∀ p provider, s.core.providers[p]? = some provider →
    provider.failedRequests = s.failures p
  total_eq : s.core.totalFailures = (s.core.providers.map Provider.failedRequests).sum

/-- A provider that a request has failed with, and that fails too often, is not healthy. -/
def FailsOver (s s' : Ledger) (c : Call) : Prop :=
  ∀ p provider, (s.core.selectProvider c.request).1 = some p →
    (s.core.route c.request c.outcome c.elapsed).1.success = false →
    s'.core.providers[p]? = some provider →
    s'.core.config.failoverThreshold < provider.failureRate → provider.status ≠ .healthy

/-- What a call is to leave behind. -/
def Faithful (s : Ledger) (c : Call) : Prop :=
  ∀ s', s.step c = some s' → s'.Accounted ∧ FailsOver s s' c

/-- If a provider is selected and returns a result, then it is a success. -/
def Succeeds (s : Ledger) (c : Call) : Prop :=
  ∀ p result, (s.core.selectProvider c.request).1 = some p → c.outcome = .ok result →
    result.success = true

end Ledger

section Counters

variable {self : RouterCore} {p : Ref} {provider : Provider}

theorem exists_of_select {request : RouteRequest} (h : (self.selectProvider request).1 = some p) :
    ∃ provider, self.providers[p]? = some provider := by
  have havailable := isAvailable_of_select h
  unfold RouterCore.isAvailable RouterCore.status at havailable
  cases hget : self.providers[p]? with
  | none => simp [hget] at havailable
  | some provider => exact ⟨provider, rfl⟩

/-- The sum of a counter, of which one provider counts some more. -/
theorem sum_modify {providers : List Provider} (h : providers[p]? = some provider)
    {f : Provider → Provider} {key : Provider → ℕ} {n : ℕ} (hf : ∀ x, key (f x) = key x + n) :
    ((providers.modify p f).map key).sum = (providers.map key).sum + n := by
  induction providers generalizing p with
  | nil => cases h
  | cons x providers ih =>
    cases p with
    | zero =>
      rw [List.modify_zero_cons, List.map_cons, List.map_cons, List.sum_cons, List.sum_cons, hf]
      omega
    | succ p =>
      rw [List.modify_succ_cons, List.map_cons, List.map_cons, List.sum_cons, List.sum_cons,
        ih (by simpa using h)]
      omega

/-- A request of provider `p` was counted, with `n` failures. -/
structure Counted (core core' : RouterCore) (p : Ref) (n : ℕ) : Prop where
  config_eq : core'.config = core.config
  counters : ∀ q x', core'.providers[q]? = some x' → ∃ x, core.providers[q]? = some x ∧
    x'.totalRequests = x.totalRequests + (if p = q then 1 else 0) ∧
    x'.failedRequests = x.failedRequests + (if p = q then n else 0)
  present : ∃ x', core'.providers[p]? = some x'
  total_eq : core'.totalFailures = core.totalFailures + n
  sum_eq : (core'.providers.map Provider.failedRequests).sum =
    (core.providers.map Provider.failedRequests).sum + n

/-- A change of the provider that counts. -/
theorem counted_modify {self' : RouterCore} {n : ℕ} {f : Provider → Provider}
    (hget : self.providers[p]? = some provider) (hconfig : self'.config = self.config)
    (hproviders : self'.providers = self.providers.modify p f)
    (htotal : self'.totalFailures = self.totalFailures + n)
    (hrequests : ∀ x, (f x).totalRequests = x.totalRequests + 1)
    (hfailed : ∀ x, (f x).failedRequests = x.failedRequests + n) : Counted self self' p n := by
  have hmodified : ∀ q, self'.providers[q]? =
      if p = q then self.providers[q]?.map f else self.providers[q]? := by
    intro q
    rw [← getElem?_modifyProvider self p q f, hproviders]
    rfl
  refine ⟨hconfig, ?_, ⟨f provider, ?_⟩, htotal, ?_⟩
  · intro q x' hx'
    rw [hmodified] at hx'
    by_cases hpq : p = q
    · rw [if_pos hpq] at hx'
      obtain ⟨x, hx, rfl⟩ := Option.map_eq_some_iff.mp hx'
      exact ⟨x, hx, by rw [if_pos hpq, hrequests], by rw [if_pos hpq, hfailed]⟩
    · rw [if_neg hpq] at hx'
      exact ⟨x', hx', by rw [if_neg hpq, Nat.add_zero], by rw [if_neg hpq, Nat.add_zero]⟩
  · rw [hmodified, if_pos rfl, hget]
    rfl
  · rw [hproviders]
    exact sum_modify hget hfailed

theorem selectProvider_core (self : RouterCore) (request : RouteRequest) :
    ∃ rrIndex, (self.selectProvider request).2 = { self with rrIndex := rrIndex } := by
  unfold RouterCore.selectProvider
  dsimp only
  split_ifs
  · exact ⟨self.rrIndex, rfl⟩
  · split
    · exact ⟨self.rrIndex, rfl⟩
    · cases self.config.strategy
      · exact ⟨self.rrIndex + 1, rfl⟩
      all_goals exact ⟨self.rrIndex, rfl⟩

/-- A failure that was raised is counted, and the failover follows it. -/
theorem routeFailed_spec (hget : self.providers[p]? = some provider) (error : String)
    (elapsed : ℚ) :
    (self.routeFailed p error elapsed).1.success = false ∧
      Counted self (self.routeFailed p error elapsed).2 p 1 ∧
      ∀ x, (self.routeFailed p error elapsed).2.providers[p]? = some x →
        self.config.failoverThreshold < x.failureRate → x.status ≠ .healthy := by
  set record : Provider → Provider := fun x =>
    { x with totalRequests := x.totalRequests + 1, failedRequests := x.failedRequests + 1 }
  have hrecorded : (self.recordFailure p).providers[p]? = some (record provider) :=
    getElem?_recordFailure hget
  unfold RouterCore.routeFailed
  dsimp only
  rw [hrecorded]
  dsimp only
  refine ⟨rfl, ?_⟩
  by_cases hfailover : (self.recordFailure p).needsFailover p = true
  · rw [if_pos hfailover]
    constructor
    · refine @counted_modify self p provider _ 1
        ((fun x => { x with status := .degraded }) ∘ record) hget rfl ?_ rfl (fun _ => rfl)
        (fun _ => rfl)
      exact List.modify_modify_eq _ _ _ _
    · intro x hx _
      rw [getElem?_setStatus hrecorded] at hx
      cases hx
      simp
  · rw [if_neg hfailover]
    constructor
    · exact counted_modify hget rfl rfl rfl (fun _ => rfl) (fun _ => rfl)
    · intro x hx hrate
      rw [hrecorded] at hx
      cases hx
      refine absurd ?_ hfailover
      unfold RouterCore.needsFailover
      rw [hrecorded]
      exact decide_eq_true hrate

/-- What `route` counts: a failure only if `_execute` has raised. -/
def raises : Outcome → ℕ
  | .ok _ => 0
  | .error _ => 1

/-- A call that has selected a provider: what is counted, and the failover behind a failure. -/
theorem route_of_select {request : RouteRequest}
    (hselect : (self.selectProvider request).1 = some p) (outcome : Outcome) (elapsed : ℚ) :
    Counted self (self.route request outcome elapsed).2 p (raises outcome) ∧
      ((self.route request outcome elapsed).1.success = true ↔
        ∃ result, outcome = .ok result ∧ result.success = true) ∧
      (raises outcome = 1 → ∀ x, (self.route request outcome elapsed).2.providers[p]? = some x →
        self.config.failoverThreshold < x.failureRate → x.status ≠ .healthy) := by
  obtain ⟨provider, hget⟩ := exists_of_select hselect
  obtain ⟨rrIndex, hcore⟩ := selectProvider_core self request
  have hpair : self.selectProvider request = (some p, { self with rrIndex := rrIndex }) :=
    Prod.ext hselect hcore
  unfold RouterCore.route
  rw [hpair]
  cases outcome with
  | ok result =>
    refine ⟨counted_modify hget rfl rfl rfl (fun _ => rfl) (fun _ => rfl), by simp, ?_⟩
    intro hraises
    cases hraises
  | error e =>
    obtain ⟨hfailure, hcounted, hfailover⟩ :=
      @routeFailed_spec { self with rrIndex := rrIndex } p provider hget e elapsed
    refine ⟨⟨hcounted.config_eq, hcounted.counters, hcounted.present, hcounted.total_eq,
      hcounted.sum_eq⟩, ?_, fun _ => hfailover⟩
    dsimp only
    simp [hfailure]

theorem route_of_none {request : RouteRequest} (hselect : (self.selectProvider request).1 = none)
    (outcome : Outcome) (elapsed : ℚ) :
    (self.route request outcome elapsed).2 = (self.selectProvider request).2 := by
  have hpair : self.selectProvider request = (none, (self.selectProvider request).2) :=
    Prod.ext hselect rfl
  unfold RouterCore.route
  rw [hpair]

end Counters

/-! Between the calls of other threads, a call of `route` is the steps of one thread. -/

section Events

open Function

variable {self : RouterCore} {p : Ref} {σ : System} {t : ThreadId} {last : Option Answer}

/-- The steps of `route` behind the record of a failure. -/
def failedEvents (t : ThreadId) (core : RouterCore) (p : Ref) : List Event :=
  if core.needsFailover p then [.judge t, .degrade t] else [.judge t]

/-- The steps of `route`. -/
def Call.events (c : Call) (t : ThreadId) (core : RouterCore) : List Event :=
  match core.selectProvider c.request with
  | (none, _) => [.route t c.request]
  | (some p, core) =>
    .route t c.request :: .record t c.outcome c.elapsed ::
      match c.outcome with
      | .ok _ => []
      | .error _ => failedEvents t (core.recordFailure p) p

theorem run_failedEvents {provider : Provider} {error : String} {elapsed : ℚ}
    (hpc : σ.pc t = .failed p error elapsed) (hget : σ.core.providers[p]? = some provider) :
    ∃ σ', Run.run System.step σ (failedEvents t σ.core p) = some σ' ∧
      σ'.core = (if σ.core.needsFailover p then σ.core.setStatus p .degraded else σ.core) ∧
      σ'.pc t = .idle (some (.result (failed provider error elapsed))) := by
  unfold failedEvents
  by_cases hfailover : σ.core.needsFailover p = true
  · rw [if_pos hfailover, if_pos hfailover]
    have hjudge : σ.step (.judge t) = some (σ.goto t (.degrading p error elapsed)) := by
      simp [System.step, System.judge, hpc, hfailover]
    have hdegrade : (σ.goto t (.degrading p error elapsed)).step (.degrade t) =
        ((σ.goto t (.degrading p error elapsed)).withCore
          (σ.core.setStatus p .degraded)).answerFailed t p error elapsed := by
      simp [System.step, System.degrade, System.goto]
    rw [Run.run_cons_of_step hjudge, Run.run_singleton, hdegrade]
    unfold System.answerFailed
    rw [core_withCore, getElem?_setStatus hget]
    exact ⟨_, rfl, rfl, update_self ..⟩
  · rw [if_neg hfailover, if_neg hfailover]
    have hjudge : σ.step (.judge t) = σ.answerFailed t p error elapsed := by
      simp [System.step, System.judge, hpc, hfailover]
    rw [Run.run_singleton, hjudge]
    unfold System.answerFailed
    rw [hget]
    exact ⟨_, rfl, rfl, update_self ..⟩

/-- The steps of a thread that no other thread interrupts come to what `route` returns and to the
router that it leaves. -/
theorem run_events (hidle : σ.pc t = .idle last) (c : Call) :
    ∃ σ', Run.run System.step σ (c.events t σ.core) = some σ' ∧
      σ'.core = (σ.core.route c.request c.outcome c.elapsed).2 ∧
      σ'.pc t = .idle (some (.result (σ.core.route c.request c.outcome c.elapsed).1)) := by
  unfold Call.events RouterCore.route
  rcases hselect : σ.core.selectProvider c.request with ⟨_ | p, core⟩
  · refine ⟨(σ.withCore core).answer t noProvider, ?_, rfl, update_self ..⟩
    simp [System.step, System.route, hidle, hselect]
  have hroute : σ.step (.route t c.request) = some ((σ.withCore core).goto t (.executing p)) := by
    simp [System.step, System.route, hidle, hselect]
  dsimp only
  rw [Run.run_cons_of_step hroute]
  set σ₁ := (σ.withCore core).goto t (.executing p)
  have hpc : σ₁.pc t = .executing p := update_self ..
  rcases houtcome : c.outcome with e | result
  · have hrecord : σ₁.step (.record t (.error e) c.elapsed) =
        some ((σ₁.withCore (core.recordFailure p)).goto t (.failed p e c.elapsed)) := by
      simp only [System.step, System.record, hpc]
      rfl
    obtain ⟨provider, hget⟩ : ∃ provider, (core.recordFailure p).providers[p]? = some provider := by
      obtain ⟨provider, hget⟩ := exists_of_select (congrArg Prod.fst hselect)
      have hproviders := providers_selectProvider σ.core c.request
      rw [hselect] at hproviders
      rw [← hproviders] at hget
      exact ⟨_, getElem?_recordFailure hget⟩
    rw [Run.run_cons_of_step hrecord]
    set σ₂ := (σ₁.withCore (core.recordFailure p)).goto t (.failed p e c.elapsed)
    have hfailed : σ₂.pc t = .failed p e c.elapsed := update_self ..
    obtain ⟨σ', hrun, hcore, hend⟩ := run_failedEvents hfailed hget
    refine ⟨σ', hrun, ?_, ?_⟩
    · unfold RouterCore.routeFailed
      dsimp only
      rw [hget, hcore]
      rfl
    · unfold RouterCore.routeFailed
      dsimp only
      rw [hget, hend]
  · have hrecord : σ₁.step (.record t (.ok result) c.elapsed) =
        some ((σ₁.withCore (core.recordSuccess p result c.elapsed)).answer t
          { result with latencyMs := c.elapsed }) := by
      simp only [System.step, System.record, hpc]
      rfl
    refine ⟨_, Run.run_cons_of_step hrecord _, rfl, update_self ..⟩

end Events

namespace Ledger

variable {s s' : Ledger} {c : Call} {p : Ref}

theorem Accounted.of_none (h : s.Accounted) (hselect : (s.core.selectProvider c.request).1 = none)
    (hstep : s.step c = some s') : s'.Accounted ∧ FailsOver s s' c := by
  obtain ⟨rrIndex, hcore⟩ := selectProvider_core s.core c.request
  have hroute := route_of_none hselect c.outcome c.elapsed
  have hs' : s' = { core := { s.core with rrIndex := rrIndex }, log := s.log } := by
    cases hstep
    rw [hroute, hcore, hselect]
    simp
  rw [hs']
  refine ⟨⟨h.requests_eq, h.failures_eq, h.total_eq⟩, ?_⟩
  intro p provider hp
  rw [hselect] at hp
  cases hp

theorem countP_append_singleton (log : List (Ref × Bool)) (e : Ref × Bool)
    (f : Ref × Bool → Bool) :
    (log ++ [e]).countP f = log.countP f + if f e then 1 else 0 := by
  rw [List.countP_append, List.countP_singleton]

/-- The step of a call that has selected a provider. -/
theorem step_of_select (hselect : (s.core.selectProvider c.request).1 = some p)
    (hstep : s.step c = some s') :
    s'.core = (s.core.route c.request c.outcome c.elapsed).2 ∧
      s'.log = s.log ++ [(p, (s.core.route c.request c.outcome c.elapsed).1.success)] := by
  cases hstep
  rw [hselect]
  exact ⟨rfl, rfl⟩

/-- The failures that the caller sees in one call. -/
def seen (success : Bool) : ℕ := if success = false then 1 else 0

theorem requests_of_append {b : Bool} (hlog : s'.log = s.log ++ [(p, b)]) (q : Ref) :
    s'.requests q = s.requests q + if p = q then 1 else 0 := by
  unfold requests
  rw [hlog, countP_append_singleton]
  simp

theorem failures_of_append {b : Bool} (hlog : s'.log = s.log ++ [(p, b)]) (q : Ref) :
    s'.failures q = s.failures q + if p = q then seen b else 0 := by
  unfold failures seen
  rw [hlog, countP_append_singleton]
  by_cases hpq : p = q
  · simp [hpq]
  · simp [hpq]

/-- A call leaves the counters as they should be exactly if it counts the failures that are seen. -/
theorem accounted_iff_of_counted {n : ℕ} {b : Bool} (h : s.Accounted)
    (hcounted : Counted s.core s'.core p n) (hlog : s'.log = s.log ++ [(p, b)]) :
    s'.Accounted ↔ n = seen b := by
  constructor
  · intro h'
    obtain ⟨x', hx'⟩ := hcounted.present
    obtain ⟨x, hx, -, hfailed⟩ := hcounted.counters p x' hx'
    have hbefore := h.failures_eq p x hx
    have hbehind := h'.failures_eq p x' hx'
    rw [failures_of_append hlog, if_pos rfl] at hbehind
    rw [if_pos rfl] at hfailed
    omega
  · intro hn
    constructor
    · intro q x' hx'
      obtain ⟨x, hx, hrequests, -⟩ := hcounted.counters q x' hx'
      rw [hrequests, requests_of_append hlog, h.requests_eq q x hx]
    · intro q x' hx'
      obtain ⟨x, hx, -, hfailed⟩ := hcounted.counters q x' hx'
      rw [hfailed, failures_of_append hlog, h.failures_eq q x hx, hn]
    · rw [hcounted.total_eq, hcounted.sum_eq, h.total_eq]

theorem raises_eq_seen_iff {outcome : Outcome} {b : Bool}
    (h : b = true ↔ ∃ result, outcome = .ok result ∧ result.success = true) :
    raises outcome = seen b ↔ ∀ result, outcome = .ok result → result.success = true := by
  cases outcome with
  | ok result =>
    have hb : b = true ↔ result.success = true := by simpa using h
    cases b with
    | false => simpa [raises, seen] using hb
    | true => simpa [raises, seen] using hb
  | error e =>
    have hb : b = false := by simpa using h
    simp [raises, seen, hb]

/-- A call leaves the counters as they should be exactly if it returns no failure as a result. -/
theorem accounted_iff (h : s.Accounted) (hselect : (s.core.selectProvider c.request).1 = some p)
    (hstep : s.step c = some s') : s'.Accounted ↔ Succeeds s c := by
  obtain ⟨hcore, hlog⟩ := step_of_select hselect hstep
  obtain ⟨hcounted, hsuccess, -⟩ := route_of_select hselect c.outcome c.elapsed
  rw [← hcore] at hcounted
  rw [accounted_iff_of_counted h hcounted hlog, raises_eq_seen_iff hsuccess]
  unfold Succeeds
  constructor
  · intro hall q result _ hok
    exact hall result hok
  · intro hall result hok
    exact hall p result hselect hok

/-- If a failure is no result, then the failover follows it. -/
theorem failsOver_of_succeeds (hselect : (s.core.selectProvider c.request).1 = some p)
    (hstep : s.step c = some s') (h : Succeeds s c) : FailsOver s s' c := by
  obtain ⟨hcore, -⟩ := step_of_select hselect hstep
  obtain ⟨hcounted, hsuccess, hfailover⟩ := route_of_select hselect c.outcome c.elapsed
  rw [← hcore] at hcounted hfailover
  intro q provider hq hfailed hget hrate
  rw [hselect] at hq
  cases hq
  rw [hcounted.config_eq] at hrate
  refine hfailover ?_ provider hget hrate
  -- a result would have been a success
  rcases houtcome : c.outcome with e | result
  · rfl
  · have htrue := hsuccess.mpr ⟨result, houtcome, h p result hselect houtcome⟩
    rw [hfailed] at htrue
    cases htrue

theorem faithful_iff (h : s.Accounted) : Faithful s c ↔ Succeeds s c := by
  rcases hselect : (s.core.selectProvider c.request).1 with _ | p
  · constructor
    · intro _ p result hp
      rw [hselect] at hp
      cases hp
    · intro _ s' hstep
      exact h.of_none hselect hstep
  · constructor
    · intro hfaithful
      exact (accounted_iff h hselect rfl).mp (hfaithful _ rfl).1
    · intro hsucceeds s' hstep
      exact ⟨(accounted_iff h hselect hstep).mpr hsucceeds,
        failsOver_of_succeeds hselect hstep hsucceeds⟩

theorem accounted_of_fresh {config : RouterConfig} {providers : List Provider}
    (hfresh : ∀ x ∈ providers, x.totalRequests = 0 ∧ x.failedRequests = 0) :
    Accounted { core := { config := config, providers := providers } } := by
  constructor
  · intro p x hx
    exact (hfresh x (List.mem_of_getElem? hx)).1
  · intro p x hx
    exact (hfresh x (List.mem_of_getElem? hx)).2
  · refine (List.sum_eq_zero ?_).symm
    intro n hn
    obtain ⟨x, hx, rfl⟩ := List.mem_map.mp hn
    exact (hfresh x hx).2

end Ledger

open Run Ledger

/-- Over every sequence of calls, the counters are what has happened and the failovers follow the
failures exactly if each result that `_execute` returns is a success. -/
theorem accounting_iff (config : RouterConfig) (providers : List Provider)
    (hfresh : ∀ x ∈ providers, x.totalRequests = 0 ∧ x.failedRequests = 0) (calls : List Call) :
    AllSteps Ledger.step Faithful { core := { config := config, providers := providers } } calls ↔
      AllSteps Ledger.step Succeeds { core := { config := config, providers := providers } }
        calls := by
  refine allSteps_congr (I := Ledger.Accounted) (fun s c h => faithful_iff h) ?_
    (accounted_of_fresh hfresh)
  intro s c s' h hsucceeds hstep
  exact ((faithful_iff h).mpr hsucceeds s' hstep).1

/-- What a client's response comes to when the service has refused it. -/
def refused : RouteResult where
  provider := "openai"
  model := .str "gpt-4o"
  response := .dict [("text", .str "")]
  latencyMs := 12
  tokensUsed := 0
  cost := 0
  success := false
  error := "Client error '401 Unauthorized'"

theorem accounting_iff_raised :
    AllSteps Ledger.step Faithful { core := { config := {}, providers := [{ name := "openai" }] } }
      [⟨{}, .ok { refused with success := true }, 12⟩, ⟨{}, .error "timed out", 30000⟩] := by
  refine (accounting_iff {} [{ name := "openai" }] (by simp) _).mpr ?_
  simp [AllSteps, Succeeds, Ledger.step]

/-- A failure that is returned as a result counts as no failure. -/
theorem refused_not_counted :
    ¬ AllSteps Ledger.step Faithful
      { core := { config := {}, providers := [{ name := "openai" }] } }
      [⟨{}, .ok refused, 12⟩] := by
  intro hall
  have hbehind := (hall.1 _ rfl).1.failures_eq 0
  have hcounted := hbehind _ rfl
  revert hcounted
  decide +kernel

end LingNet.Providers
