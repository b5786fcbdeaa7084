import LingNet.Router.RaceRun

/-! The fallback of a race. It runs on a router of its own, and not on the one that raced. -/
namespace LingNet.Router
open Py Coroutine

/-- An outcome without the latency that was measured. -/
def untimed : Outcome → Outcome
  | .ok response => .ok { response with latencyMs := 0 }
  | .error e => .error e

theorem error_of_untimed {response response' : LLMResponse}
    (h : untimed (.ok response) = untimed (.ok response')) : response.error = response'.error := by
  obtain ⟨-, -, -, -, -, -, -, -, herror⟩ := LLMResponse.mk.inj (Except.ok.inj h)
  exact herror

/-- A race can end with the outcome, up to the latency. -/
def RaceReturns [Floats] (begun : Except Exn Race) (outcome : Outcome) : Prop :=
  match begun with
  | .error e => outcome = .error e
  | .ok race => ∃ events final latencyMs response stats cancelled,
      Run.run Race.step race events = some final ∧
        final.router.raceEnd latencyMs final.state = some (.returned response stats cancelled) ∧
          outcome = untimed (.ok response)

/-- Two routers return the same: a call in every environment, and a race over all of its runs. -/
def SameOutcomes [Floats] (router router' : ModelRouter) : Routing → Routing → Prop
  | .solo routine, .solo routine' => ∀ env,
      untimed (routine.run answer env router).1 = untimed (routine'.run answer env router').1
  | .race begun, .race begun' => ∀ outcome, RaceReturns begun outcome ↔ RaceReturns begun' outcome
  | _, _ => False

namespace ModelRouter

def withoutFallback (self : ModelRouter) : ModelRouter :=
  { self with config := { self.config with fallbackStrategy := none } }

/-- The fallback returns what its strategy returns on the router itself. -/
def FallsBack [Floats] (self : ModelRouter) (encode : Tokenizer) (request : LLMRequest)
    (s : RoutingStrategy) : Prop :=
  ∀ now, ∃ router routing, self.fallBack encode request (.member s) now = .ok (router, routing) ∧
    SameOutcomes router self.withoutFallback routing (self.withoutFallback.routing encode request s)

/-- The call that the smart strategy comes to. -/
def smartChoice [Floats] (self : ModelRouter) (request : LLMRequest) (u : UnitInterval) :
    Except Exn RaceCall :=
  match self.scores self.config.weights with
  | .error e => .error e
  | .ok scores =>
    if total scores = 0 then self.uniformCall request else self.smartCall request scores u

end ModelRouter

/-- The calls of both routers are refused for the same reason. -/
def BothRefuse [Floats] (encode : Tokenizer) (router router' : ModelRouter)
    (choice : ModelRouter → Except Exn RaceCall) (time : ℚ) : Prop :=
  ∃ refusal, router.refusal encode time (choice router) = some refusal ∧
    router'.refusal encode time (choice router') = some refusal

/-- No call of the strategy comes to a request: it is refused by both routers, or no run of the
calls of a race on the second router posts anything. -/
def NoRequest [Floats] (encode : Tokenizer) (request : LLMRequest) (router router' : ModelRouter) :
    RoutingStrategy → Prop
  | .uniform => ∀ time, BothRefuse encode router router' (·.uniformCall request) time
  | .smart => ∀ time u, BothRefuse encode router router' (·.smartChoice request u) time
  | .race => ∀ calls, router'.raceCalls request router'.config.candidates = .ok calls →
      ∀ turns p, Run.run (advance answer)
        (router', calls.map fun call => router'.makeCall encode (.ok call)) turns = some p →
          ∀ url headers payload resume, .act (.post url headers payload) resume ∉ p.2

/-! What tells the outcomes of calls apart is their errors. -/

theorem errorText_ne (m : String) {text : String} (h : text.toList.head? ≠ some 'M') :
    "Model " ++ m ++ " not found" ≠ text := by
  rintro rfl
  exact h (by simp)

/-- The error of a refused call is not one of a call that made a request in vain. -/
theorem Refusal.untimed_ne (refusal : Refusal) {response : LLMResponse}
    (h : response.error ∈ [none, some "Exhausted all retries", some noSession.text]) :
    untimed refusal.outcome ≠ untimed (.ok response) := by
  intro heq
  have hmem : ∀ provider model error, refusal.outcome = .ok (refusedResponse provider model error) →
      some error ∈ [none, some "Exhausted all retries", some noSession.text] := by
    intro provider model error hrefused
    rw [hrefused] at heq
    rw [show some error = response.error from error_of_untimed heq]
    exact h
  cases refusal with
  | raised e => cases heq
  | unknownModel provider model =>
    rcases List.mem_cons.mp (hmem _ _ _ rfl) with h | h
    · cases h
    rcases List.mem_cons.mp h with h | h
    · exact errorText_ne model (by decide) (Option.some.inj h)
    · exact errorText_ne model (by decide) (Option.some.inj (List.mem_singleton.mp h))
  | overBudget provider model =>
    exact absurd (hmem _ _ _ rfl) (by decide)

theorem Refusal.untimed_inj {refusal refusal' : Refusal}
    (h : untimed refusal.outcome = untimed refusal'.outcome) : refusal = refusal' := by
  cases refusal with
  | raised e =>
    cases refusal' with
    | raised e' =>
      cases h
      rfl
    | _ => cases h
  | unknownModel provider model =>
    cases refusal' with
    | raised e' => cases h
    | unknownModel provider' model' =>
      have hresponse := Except.ok.inj h
      rw [show provider = provider' from congrArg LLMResponse.provider hresponse,
        show model = model' from congrArg LLMResponse.model hresponse]
    | overBudget provider' model' =>
      have herror := congrArg LLMResponse.error (Except.ok.inj h)
      exact absurd (Option.some.inj herror) (errorText_ne model (by decide))
  | overBudget provider model =>
    cases refusal' with
    | raised e' => cases h
    | unknownModel provider' model' =>
      have herror := congrArg LLMResponse.error (Except.ok.inj h)
      exact absurd (Option.some.inj herror).symm (errorText_ne model' (by decide))
    | overBudget provider' model' =>
      have hresponse := Except.ok.inj h
      rw [show provider = provider' from congrArg LLMResponse.provider hresponse,
        show model = model' from congrArg LLMResponse.model hresponse]

section Calls

variable {encode : Tokenizer} {own new : ModelRouter} {call : Except Exn RaceCall}

theorem run_unstarted [Floats] (hsession : new.session = false) (hretry : 0 ≤ new.config.retryCount)
    (reply : Reply) (h : new.refusal encode reply.clock call = none) : ∃ response,
      ((new.makeCall encode call).run answer (fun _ => reply) new).1 = .ok response ∧
        response.error = some noSession.text := by
  obtain ⟨providerId, provider, request, modelConfig, payload, tracker, -, hrun⟩ :=
    run_makeCall_of_not_refused reply h
  refine ⟨_, hrun, ?_⟩
  have hattempts : (new.config.retryCount + 1).toNat = new.config.retryCount.toNat + 1 := by omega
  rw [hattempts]
  refine run_attempts_unstarted new.config _ _ _ _ _ ?_ reply ?_
  · exact hsession
  · omega

theorem run_wellAnswered [Floats] (hsession : own.session = true) {time : ℚ} (u : UnitInterval)
    (h : own.refusal encode time call = none) : ∃ response,
      ((own.makeCall encode call).run answer (fun _ => wellAnswered time u) own).1 = .ok response ∧
        response.error ∈ [none, some "Exhausted all retries"] := by
  obtain ⟨providerId, provider, request, modelConfig, payload, tracker, ⟨estCost, hest⟩, hrun⟩ :=
    run_makeCall_of_not_refused (wellAnswered time u) h
  refine ⟨_, hrun, run_attempts_wellAnswered _ _ _ _ _ _ ?_ (costOf_zero ⟨estCost, hest⟩) time u
    _ 0⟩
  exact hsession

/-- A router that was not started returns what a started one does, in every environment, exactly
when both always refuse the call. -/
theorem makeCall_same_iff [Floats] (hown : own.session = true) (hnew : new.session = false)
    (hretry : 0 ≤ new.config.retryCount) (choice : UnitInterval → ModelRouter → Except Exn RaceCall)
    (d : ℕ) :
    (∀ env : ℕ → Reply,
      untimed ((new.makeCall encode (choice (env 0).random new)).run answer
        (fun n => env (n + d)) new).1 =
      untimed ((own.makeCall encode (choice (env 0).random own)).run answer
        (fun n => env (n + d)) own).1) ↔
      ∀ time u, BothRefuse encode new own (choice u) time := by
  constructor
  · intro hsame time u
    have heq : untimed ((new.makeCall encode (choice u new)).run answer
        (fun _ => wellAnswered time u) new).1 = untimed ((own.makeCall encode (choice u own)).run
          answer (fun _ => wellAnswered time u) own).1 := hsame fun _ => wellAnswered time u
    cases hnone : new.refusal encode time (choice u new) with
    | none =>
      obtain ⟨response, hrun, herror⟩ := run_unstarted hnew hretry (wellAnswered time u) hnone
      rw [hrun] at heq
      cases hnone' : own.refusal encode time (choice u own) with
      | none =>
        obtain ⟨response', hrun', herror'⟩ := run_wellAnswered hown u hnone'
        rw [hrun'] at heq
        rw [← error_of_untimed heq, herror] at herror'
        exact absurd herror' (by decide)
      | some refusal' =>
        rw [run_makeCall_of_refusal (fun _ => wellAnswered time u) hnone'] at heq
        refine absurd heq.symm (refusal'.untimed_ne ?_)
        rw [herror]
        exact List.mem_cons_of_mem _ (List.mem_cons_of_mem _ List.mem_cons_self)
    | some refusal =>
      rw [run_makeCall_of_refusal (fun _ => wellAnswered time u) hnone] at heq
      cases hnone' : own.refusal encode time (choice u own) with
      | none =>
        obtain ⟨response', hrun', herror'⟩ := run_wellAnswered hown u hnone'
        rw [hrun'] at heq
        exact absurd heq (refusal.untimed_ne (List.mem_append_left [some noSession.text] herror'))
      | some refusal' =>
        rw [run_makeCall_of_refusal (fun _ => wellAnswered time u) hnone'] at heq
        exact ⟨refusal, hnone, by rw [hnone', Refusal.untimed_inj heq]⟩
  · intro hrefuse env
    obtain ⟨refusal, hnew, hown⟩ := hrefuse (env (1 + d)).clock (env 0).random
    rw [run_makeCall_of_refusal (fun n => env (n + d)) hnew,
      run_makeCall_of_refusal (fun n => env (n + d)) hown]

end Calls

theorem dispatch_member (s : RoutingStrategy) : dispatch (.member s) = s := by
  cases s <;> rfl

section Strategies

variable {encode : Tokenizer} {request : LLMRequest} {own new : ModelRouter}

theorem scores_congr [Floats] (h : new.providers = own.providers) (weights : List (String × ℤ)) :
    new.scores weights = own.scores weights := by
  induction weights with
  | nil => rfl
  | cons weight weights ih =>
    unfold ModelRouter.scores
    rw [h, ih]

theorem raceCalls_congr (h : new.providers = own.providers) (candidates : List String) :
    new.raceCalls request candidates = own.raceCalls request candidates := by
  induction candidates with
  | nil => rfl
  | cons candidate candidates ih =>
    unfold ModelRouter.raceCalls
    rw [h, ih]

/-- The smart strategy comes to its choice, with or without a random number. -/
theorem run_smartRoute [Floats] (encode : Tokenizer) (request : LLMRequest)
    (hproviders : new.providers = own.providers)
    (hweights : new.config.weights = own.config.weights) : ∃ d, ∀ router ∈ [new, own],
      ∀ env : ℕ → Reply, ((router.smartRoute encode request).run answer env router).1 =
        ((router.makeCall encode (router.smartChoice request (env 0).random)).run answer
          (fun n => env (n + d)) router).1 := by
  have hscores : ∀ router ∈ [new, own],
      router.scores router.config.weights = own.scores own.config.weights := by
    simp [hweights, scores_congr hproviders]
  cases hown : own.scores own.config.weights with
  | error e =>
    refine ⟨0, fun router hrouter env => ?_⟩
    unfold ModelRouter.smartRoute ModelRouter.smartChoice
    rw [(hscores router hrouter).trans hown]
    rfl
  | ok scores =>
    by_cases htotal : ModelRouter.total scores = 0
    · refine ⟨0, fun router hrouter env => ?_⟩
      unfold ModelRouter.smartRoute ModelRouter.smartChoice
      rw [(hscores router hrouter).trans hown]
      dsimp only
      rw [if_pos htotal, if_pos htotal]
      rfl
    · refine ⟨1, fun router hrouter env => ?_⟩
      unfold ModelRouter.smartRoute ModelRouter.smartChoice
      rw [(hscores router hrouter).trans hown]
      dsimp only
      rw [if_neg htotal, if_neg htotal]
      rfl

/-- A race without fallback in which no request is answered returns that all candidates failed. -/
theorem raceReturns_iff_allFailed [Floats] {race : Race}
    (hbegin : Race.begin own encode request = .ok race)
    (hfallback : own.config.fallbackStrategy = none) (hnever : NeverAnswered race.pool)
    (outcome : Outcome) :
    RaceReturns (.ok race) outcome ↔ outcome = untimed (.ok (allFailed 0)) := by
  obtain ⟨calls, -, hrouter, -, -⟩ := Race.begin_eq_ok hbegin
  have hend : ∀ events final, Run.run Race.step race events = some final → ∀ latencyMs,
      final.state = .lost → final.router.raceEnd latencyMs final.state =
        some (.returned (allFailed latencyMs) final.router.stats []) := by
    intro events final hrun latencyMs hlost
    unfold ModelRouter.raceEnd
    rw [hlost, (Race.run_keeps hrun).2, hrouter, hfallback]
  constructor
  · rintro ⟨events, final, latencyMs, response, stats, cancelled, hrun, hreturned, rfl⟩
    have hfailing := (Race.begin_failing hbegin).run hnever hrun
    cases hstate : final.state with
    | waiting pending =>
      rw [hstate] at hreturned
      cases hreturned
    | won winner others => exact absurd hstate (hfailing.state winner others)
    | lost =>
      rw [hend events final hrun latencyMs hstate] at hreturned
      cases hreturned
      rfl
  · rintro rfl
    obtain ⟨events, final, hrun, hlost⟩ :=
      Race.exists_lost hbegin hnever (wellAnswered 0 default)
    exact ⟨events, final, 0, _, _, _, hrun, hend events final hrun 0 hlost, rfl⟩

theorem neverAnswered_of_not_started [Floats] {p : ModelRouter × List (Routine Outcome)}
    (h : p.1.session = false) : NeverAnswered p := by
  intro turns q hq a resume _ g reply
  have hsession : q.1.session = false := (pool_keeps hq).1.trans h
  cases a with
  | post url headers payload =>
    rw [answer_post_of_not_started hsession]
    trivial
  | _ => trivial

theorem neverAnswered_of_noRequest [Floats] {p : ModelRouter × List (Routine Outcome)}
    (h : ∀ turns q, Run.run (advance answer) p turns = some q →
      ∀ url headers payload resume, .act (.post url headers payload) resume ∉ q.2) :
    NeverAnswered p := by
  intro turns q hq a resume hmem g reply
  cases a with
  | post url headers payload => exact absurd hmem (h turns q hq url headers payload resume)
  | _ => trivial

theorem race_same_iff [Floats] (hown : own.session = true) (hnew : new.session = false)
    (hownFallback : own.config.fallbackStrategy = none)
    (hnewFallback : new.config.fallbackStrategy = none) (hproviders : new.providers = own.providers)
    (hcandidates : new.config.candidates = own.config.candidates) :
    (∀ outcome, RaceReturns (Race.begin new encode request) outcome ↔
      RaceReturns (Race.begin own encode request) outcome) ↔
        NoRequest encode request new own .race := by
  have hnewCalls : new.raceCalls request new.config.candidates =
      own.raceCalls request own.config.candidates := by
    rw [hcandidates, raceCalls_congr hproviders]
  cases hcalls : own.raceCalls request own.config.candidates with
  | error e =>
    rw [Race.begin_of_error hcalls, Race.begin_of_error (hnewCalls.trans hcalls)]
    exact iff_of_true (fun _ => Iff.rfl) fun calls h => nomatch hcalls.symm.trans h
  | ok calls =>
    obtain ⟨race, hbegin⟩ := Race.begin_of_raceCalls encode hcalls
    obtain ⟨race', hbegin'⟩ := Race.begin_of_raceCalls encode (hnewCalls.trans hcalls)
    obtain ⟨calls', hcalls', hrouter, htasks, -⟩ := Race.begin_eq_ok hbegin
    obtain ⟨-, -, hrouter', -, -⟩ := Race.begin_eq_ok hbegin'
    have hpool : race.pool = (own, calls'.map fun call => own.makeCall encode (.ok call)) :=
      Prod.ext hrouter htasks
    have hnever : NeverAnswered race'.pool :=
      neverAnswered_of_not_started ((congrArg _ hrouter').trans hnew)
    rw [hbegin, hbegin']
    constructor
    · intro hsame calls'' h turns p hp url headers payload resume hpost
      cases (hcalls'.symm.trans h)
      rw [← hpool] at hp
      obtain ⟨events, final, response, cancelled, hrun, hwon, herror⟩ :=
        Race.exists_won hbegin hown hp hpost
      have hreturns : RaceReturns (.ok race) (untimed (.ok response)) :=
        ⟨events, final, 0, response, _, cancelled, hrun, by rw [hwon]; rfl, rfl⟩
      have hfailed := (raceReturns_iff_allFailed hbegin' hnewFallback hnever _).mp
        ((hsame _).mpr hreturns)
      have hsome := error_of_untimed hfailed
      rw [herror] at hsome
      cases hsome
    · intro hnone outcome
      have hnever' : NeverAnswered race.pool := by
        rw [hpool]
        exact neverAnswered_of_noRequest (hnone calls' hcalls')
      rw [raceReturns_iff_allFailed hbegin' hnewFallback hnever,
        raceReturns_iff_allFailed hbegin hownFallback hnever']

theorem sameOutcomes_iff [Floats] (encode : Tokenizer) (request : LLMRequest) (new : ModelRouter)
    (hown : own.session = true) (hnew : new.session = false)
    (hownFallback : own.config.fallbackStrategy = none)
    (hnewFallback : new.config.fallbackStrategy = none)
    (hproviders : new.providers = own.providers)
    (hcandidates : new.config.candidates = own.config.candidates)
    (hweights : new.config.weights = own.config.weights) (hretry : 0 ≤ new.config.retryCount)
    (s : RoutingStrategy) :
    SameOutcomes new own (new.routing encode request s) (own.routing encode request s) ↔
      NoRequest encode request new own s := by
  cases s with
  | race => exact race_same_iff hown hnew hownFallback hnewFallback hproviders hcandidates
  | smart =>
    obtain ⟨d, hrun⟩ := run_smartRoute encode request hproviders hweights
    refine Iff.trans (forall_congr' fun env => ?_) (makeCall_same_iff hown hnew hretry
      (fun u router => router.smartChoice request u) d)
    rw [hrun new List.mem_cons_self, hrun own (List.mem_cons_of_mem _ List.mem_cons_self)]
  | uniform =>
    refine Iff.trans (makeCall_same_iff hown hnew hretry
      (fun _ router => router.uniformCall request) 0) ?_
    exact ⟨fun h time => h time default, fun h time _ => h time⟩

end Strategies

theorem fallBack_member [Floats] (self : ModelRouter) (encode : Tokenizer) (request : LLMRequest)
    (s : RoutingStrategy) (now : ℚ) : self.fallBack encode request (.member s) now =
      .ok ((self.fallbackRouter (.member s) now).countRequest,
        (self.fallbackRouter (.member s) now).countRequest.routing encode request s) := by
  change Except.ok (_, ModelRouter.routing _ encode request (dispatch (.member s))) = _
  rw [dispatch_member]

/-- When all candidates of a race failed, its fallback returns what its strategy would return on
the same router, exactly when the strategy comes to no request. -/
theorem fallsBack_iff [Floats] (self : ModelRouter) (encode : Tokenizer) (request : LLMRequest)
    (s : RoutingStrategy) (hstarted : self.session = true)
    (hstrategy : self.config.strategy = .member .race)
    (hfallback : self.config.fallbackStrategy = some (.member s)) {race : Race}
    (hbegin : Race.begin self.countRequest encode request = .ok race) (events : List RaceEvent)
    {final : Race} (hrun : Run.run Race.step race events = some final)
    (hlost : final.state = .lost) :
    self.route encode request = (self.countRequest, .race (.ok race)) ∧
      (∀ latencyMs, final.router.raceEnd latencyMs final.state = some (.fallback (.member s))) ∧
        (final.router.FallsBack encode request s ↔ ∀ now, NoRequest encode request
          (final.router.fallbackRouter (.member s) now).countRequest final.router.withoutFallback
            s) := by
  obtain ⟨hsession, hconfig⟩ := Race.run_keeps hrun
  obtain ⟨calls, -, hrouter, -, -⟩ := Race.begin_eq_ok hbegin
  rw [hrouter] at hsession hconfig
  refine ⟨?_, fun latencyMs => ?_, forall_congr' fun now => ?_⟩
  · unfold ModelRouter.route
    dsimp only
    rw [show self.countRequest.config.strategy = .member .race from hstrategy, dispatch_member]
    exact congrArg (fun begun => (self.countRequest, Routing.race begun)) hbegin
  · unfold ModelRouter.raceEnd
    rw [hlost, hconfig, show self.countRequest.config.fallbackStrategy = _ from hfallback]
    rfl
  · have hown : final.router.withoutFallback.session = true := hsession.trans hstarted
    have hsame := sameOutcomes_iff encode request
      (final.router.fallbackRouter (.member s) now).countRequest hown rfl rfl rfl rfl rfl rfl
        (by decide : (0 : ℤ) ≤ 2) s
    rw [fallBack_member]
    constructor
    · rintro ⟨router, routing, heq, hroutes⟩
      cases heq
      exact hsame.mp hroutes
    · exact fun hnone => ⟨_, _, rfl, hsame.mpr hnone⟩

/-- A server that fails. -/
def failed : Reply :=
  { replyWith .none with status := .value 500 }

open scoped Floats.Binary64

/-- A model that no provider has: the race is lost, and the fallback is refused the same. -/
theorem fallsBack_iff_unknownModel : ∃ race final,
    Race.begin (routerOf ["a/z"] (some (.member .uniform)) 1).countRequest noEncoding hello =
      .ok race ∧
    Run.run Race.step race [.turn 0 failed, .wake [0]] = some final ∧ final.state = .lost ∧
    final.router.FallsBack noEncoding hello .uniform := by
  obtain ⟨race, final, hbegin, hrun, hlost, hrouter⟩ : ∃ race final,
      Race.begin (routerOf ["a/z"] (some (.member .uniform)) 1).countRequest noEncoding hello =
        .ok race ∧
      Run.run Race.step race [.turn 0 failed, .wake [0]] = some final ∧ final.state = .lost ∧
      final.router = (routerOf ["a/z"] (some (.member .uniform)) 1).countRequest :=
    ⟨_, _, rfl, rfl, rfl, rfl⟩
  obtain ⟨-, -, hiff⟩ := fallsBack_iff (routerOf ["a/z"] (some (.member .uniform)) 1) noEncoding
    hello .uniform rfl rfl rfl hbegin [.turn 0 failed, .wake [0]] hrun hlost
  refine ⟨race, final, hbegin, hrun, hlost, hiff.mpr ?_⟩
  rw [hrouter]
  have hcall : ∀ router : ModelRouter, router.config.candidates = ["a/z"] →
      router.getProvider "a" = .ok (providerOfM "a") →
      router.uniformCall hello = .ok ⟨"a", providerOfM "a", hello.forModel "a" "z"⟩ := by
    intro router hcandidates hprovider
    refine ModelRouter.uniformCall_eq hello "a/z" ?_ rfl hprovider
    rw [hcandidates, List.length_singleton, Nat.mod_one]
    rfl
  refine fun now time => ⟨.unknownModel "a" "z", ?_, ?_⟩
  · dsimp only
    rw [hcall _ rfl rfl]
    rfl
  · dsimp only
    rw [hcall _ rfl rfl]
    rfl

/-- The error of a response. -/
def errorOf : Outcome → Option (Option String)
  | .ok response => some response.error
  | .error _ => none

theorem errorOf_untimed (outcome : Outcome) : errorOf (untimed outcome) = errorOf outcome := by
  cases outcome <;> rfl

def RaceState.isLost : RaceState → Bool
  | .lost => true
  | _ => false

theorem RaceState.isLost_iff {state : RaceState} : state.isLost = true ↔ state = .lost := by
  cases state <;> simp [isLost]

/-- The error that the uniform strategy comes to when the server answers well. -/
def uniformError (router : ModelRouter) : Option (Option String) :=
  errorOf ((router.uniformRoute noEncoding hello).run answer
    (fun _ => wellAnswered 0 default) router).1

/-- The server fails in the race, and answers well later: on the router itself the fallback would
have a response without an error, but on its own router nobody opened a session. -/
theorem fallback_not_started : ∃ race final,
    Race.begin (routerOf ["a/m"] (some (.member .uniform)) 100).countRequest noEncoding hello =
      .ok race ∧
    Run.run Race.step race (List.replicate 5 (.turn 0 failed) ++ [.wake [0]]) = some final ∧
    final.state = .lost ∧ uniformError final.router.withoutFallback = some none ∧
    uniformError (final.router.fallbackRouter (.member .uniform) 0).countRequest =
      some (some "'NoneType' object has no attribute 'post'") ∧
    ¬ final.router.FallsBack noEncoding hello .uniform := by
  obtain ⟨race, hbegin⟩ : ∃ race, Race.begin
      (routerOf ["a/m"] (some (.member .uniform)) 100).countRequest noEncoding hello = .ok race :=
    ⟨_, rfl⟩
  have hlost : (match Race.begin (routerOf ["a/m"] (some (.member .uniform)) 100).countRequest
      noEncoding hello with
    | .error _ => none
    | .ok race => (Run.run Race.step race
        (List.replicate 5 (.turn 0 failed) ++ [.wake [0]])).map fun final =>
          (final.state.isLost, uniformError final.router.withoutFallback, uniformError
            (final.router.fallbackRouter (.member .uniform) 0).countRequest)) =
      some (true, some none, some (some noSession.text)) := by
    decide +kernel
  rw [hbegin] at hlost
  obtain ⟨final, hrun, hfinal⟩ := Option.map_eq_some_iff.mp hlost
  obtain ⟨hstate, hown, hnew⟩ : final.state.isLost = true ∧
      uniformError final.router.withoutFallback = some none ∧
      uniformError (final.router.fallbackRouter (.member .uniform) 0).countRequest =
        some (some noSession.text) := by
    simpa only [Prod.mk.injEq] using hfinal
  refine ⟨race, final, hbegin, hrun, RaceState.isLost_iff.mp hstate, hown, hnew, fun hfalls => ?_⟩
  obtain ⟨router, routing, hfallBack, hsame⟩ := hfalls 0
  rw [fallBack_member] at hfallBack
  cases hfallBack
  have herror := congrArg errorOf (hsame fun _ => wellAnswered 0 default)
  rw [errorOf_untimed, errorOf_untimed] at herror
  have hmismatch : some (some noSession.text) = some (none : Option String) :=
    hnew.symm.trans (herror.trans hown)
  cases hmismatch

end LingNet.Router
