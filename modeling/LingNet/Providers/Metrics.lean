import LingNet.Providers.Effect
import Mathlib.Algebra.BigOperators.Group.Finset.Piecewise
import Mathlib.Algebra.Order.Field.Basic

/-! What `get_metrics` reports while threads route and race in any order: the outcomes that the lock
has let through one after another, whatever else happens between them. -/
namespace LingNet.Providers
open Run

/-- What `get_metrics` says of a provider. -/
structure ProviderMetrics where
  status : ProviderStatus
  failureRate : ℚ
  avgLatencyMs : ℚ
  totalRequests : ℕ

/-- The result of `get_metrics`. -/
structure Metrics where
  totalRequests : ℕ
  totalFailures : ℕ
  failureRate : ℚ
  avgLatencyMs : ℚ
  totalTokens : ℤ
  totalCost : ℚ
  providers : List (String × ProviderMetrics)

namespace Record

def raised (r : Record) : Bool := r.outcome.toOption.isNone

/-- What a result adds to a total; an exception adds nothing. -/
def adds {M : Type} [Zero M] (f : RouteResult → ℚ → M) (r : Record) : M :=
  match r.outcome with
  | .ok result => f result r.elapsed
  | .error _ => 0

/-- `provider.avg_latency_ms * 0.9 + elapsed * 0.1` -/
def latency (avg : ℚ) (r : Record) : ℚ :=
  match r.outcome with
  | .ok _ => avg * (9 / 10) + r.elapsed * (1 / 10)
  | .error _ => avg

end Record

namespace RouterCore

def getMetrics (self : RouterCore) : Metrics where
  totalRequests := self.totalRequests
  totalFailures := self.totalFailures
  failureRate := self.totalFailures / (max self.totalRequests 1 : ℕ)
  avgLatencyMs := self.totalLatencyMs / (max self.totalRequests 1 : ℕ)
  totalTokens := self.totalTokens
  totalCost := self.totalCost
  providers := self.providers.map fun p =>
    (p.name, ⟨p.status, p.failureRate, p.avgLatencyMs, p.totalRequests⟩)

end RouterCore

/-- A system with the outcomes that were recorded, in the order of the lock. -/
structure Observed where
  system : System
  history : List Record := []

def Observed.step (o : Observed) (e : Event) : Option Observed :=
  (o.system.step e).map fun σ => ⟨σ, o.history ++ (o.system.recorded e).toList⟩

/-- The counters of a provider. -/
structure Counters where
  requests : ℕ
  failures : ℕ
  latency : ℚ
  deriving DecidableEq

def Provider.counters (p : Provider) : Counters :=
  ⟨p.totalRequests, p.failedRequests, p.avgLatencyMs⟩

/-- The counters of the router and of each provider are what the history makes of those before. -/
structure Tallied (core₀ core : RouterCore) (history : List Record) : Prop where
  requests : core.totalRequests = core₀.totalRequests + history.length
  failures : core.totalFailures = core₀.totalFailures + history.countP (·.raised)
  latency : core.totalLatencyMs =
    core₀.totalLatencyMs + (history.map (Record.adds fun _ elapsed => elapsed)).sum
  tokens : core.totalTokens =
    core₀.totalTokens + (history.map (Record.adds fun result _ => result.tokensUsed)).sum
  cost : core.totalCost =
    core₀.totalCost + (history.map (Record.adds fun result _ => result.cost)).sum
  providers : ∀ q, core.providers[q]?.map Provider.counters = core₀.providers[q]?.map fun p =>
    let own := history.filter (·.provider = q)
    ⟨p.totalRequests + own.length, p.failedRequests + own.countP (·.raised),
      own.foldl Record.latency p.avgLatencyMs⟩

section Steps

variable {σ σ' : System} {core₀ core core' : RouterCore} {history : List Record}

/-- What changes no counter. -/
structure SameCounters (core core' : RouterCore) : Prop where
  requests : core'.totalRequests = core.totalRequests
  failures : core'.totalFailures = core.totalFailures
  latency : core'.totalLatencyMs = core.totalLatencyMs
  tokens : core'.totalTokens = core.totalTokens
  cost : core'.totalCost = core.totalCost
  providers : ∀ q : ℕ, core'.providers[q]?.map Provider.counters =
    core.providers[q]?.map Provider.counters

theorem SameCounters.refl (core : RouterCore) : SameCounters core core :=
  ⟨rfl, rfl, rfl, rfl, rfl, fun _ => rfl⟩

theorem sameCounters_modify {f : Provider → Provider} (hf : ∀ p, (f p).counters = p.counters)
    (core : RouterCore) (p : Ref) : SameCounters core (core.modifyProvider p f) := by
  refine ⟨rfl, rfl, rfl, rfl, rfl, fun q => ?_⟩
  rw [getElem?_modifyProvider]
  split_ifs
  · cases core.providers[q]? with
    | none => rfl
    | some x => exact congrArg some (hf x)
  · rfl

theorem Tallied.congr (h : Tallied core₀ core history) (hsame : SameCounters core core') :
    Tallied core₀ core' history where
  requests := hsame.requests.trans h.requests
  failures := hsame.failures.trans h.failures
  latency := hsame.latency.trans h.latency
  tokens := hsame.tokens.trans h.tokens
  cost := hsame.cost.trans h.cost
  providers q := (hsame.providers q).trans (h.providers q)

/-- The counters of a provider with one more outcome. -/
def Counters.after (c : Counters) (r : Record) : Counters :=
  ⟨c.requests + 1, c.failures + [r].countP (·.raised), r.latency c.latency⟩

theorem counters_record (core : RouterCore) (r : Record) (q : Ref) :
    (core.record r).providers[q]?.map Provider.counters =
      if r.provider = q then (core.providers[q]?.map Provider.counters).map (·.after r)
      else core.providers[q]?.map Provider.counters := by
  obtain ⟨p, outcome, elapsed⟩ := r
  have hmodify : ∀ {self : RouterCore} {f : Provider → Provider}, self.providers = core.providers →
      (∀ x, (f x).counters = x.counters.after ⟨p, outcome, elapsed⟩) →
      (self.modifyProvider p f).providers[q]?.map Provider.counters =
        if p = q then
          (core.providers[q]?.map Provider.counters).map (·.after ⟨p, outcome, elapsed⟩)
        else core.providers[q]?.map Provider.counters := by
    intro self f hself hf
    rw [getElem?_modifyProvider, hself]
    split_ifs
    · rw [Option.map_map, Option.map_map]
      exact congrArg (Option.map · core.providers[q]?) (funext hf)
    · rfl
  cases outcome with
  | ok result => exact hmodify rfl fun _ => rfl
  | error e => exact hmodify rfl fun _ => rfl

theorem Tallied.record (h : Tallied core₀ core history) (r : Record) :
    Tallied core₀ (core.record r) (history ++ [r]) := by
  have hproviders : ∀ q, (core.record r).providers[q]?.map Provider.counters =
      core₀.providers[q]?.map fun p =>
        let own := (history ++ [r]).filter (·.provider = q)
        ⟨p.totalRequests + own.length, p.failedRequests + own.countP (·.raised),
          own.foldl Record.latency p.avgLatencyMs⟩ := by
    intro q
    rw [counters_record, h.providers q]
    by_cases hq : r.provider = q
    · rw [if_pos hq, Option.map_map]
      have hmine : [r].filter (·.provider = q) = [r] := by simp [hq]
      congr 1
      funext p
      simp only [Function.comp_def, Counters.after, List.filter_append, hmine, List.length_append,
        List.length_singleton, List.countP_append, List.foldl_append, List.foldl_cons,
        List.foldl_nil, Nat.add_assoc]
    · rw [if_neg hq]
      have hnone : [r].filter (·.provider = q) = [] := by simp [hq]
      simp only [List.filter_append, hnone, List.append_nil]
  obtain ⟨p, outcome, elapsed⟩ := r
  cases outcome with
  | ok result =>
    refine ⟨?_, ?_, ?_, ?_, ?_, hproviders⟩
    · simp [RouterCore.record, RouterCore.recordSuccess, RouterCore.modifyProvider, h.requests,
        Nat.add_assoc]
    · simp [RouterCore.record, RouterCore.recordSuccess, RouterCore.modifyProvider, h.failures,
        Record.raised, Except.toOption]
    · simp [RouterCore.record, RouterCore.recordSuccess, RouterCore.modifyProvider, h.latency,
        Record.adds, add_assoc]
    · simp [RouterCore.record, RouterCore.recordSuccess, RouterCore.modifyProvider, h.tokens,
        Record.adds, add_assoc]
    · simp [RouterCore.record, RouterCore.recordSuccess, RouterCore.modifyProvider, h.cost,
        Record.adds, add_assoc]
  | error e =>
    refine ⟨?_, ?_, ?_, ?_, ?_, hproviders⟩
    · simp [RouterCore.record, RouterCore.recordFailure, RouterCore.modifyProvider, h.requests,
        Nat.add_assoc]
    · simp [RouterCore.record, RouterCore.recordFailure, RouterCore.modifyProvider, h.failures,
        Record.raised, Except.toOption, Nat.add_assoc]
    · simp [RouterCore.record, RouterCore.recordFailure, RouterCore.modifyProvider, h.latency,
        Record.adds]
    · simp [RouterCore.record, RouterCore.recordFailure, RouterCore.modifyProvider, h.tokens,
        Record.adds]
    · simp [RouterCore.record, RouterCore.recordFailure, RouterCore.modifyProvider, h.cost,
        Record.adds]

/-- A step counts what it records, and nothing else. -/
theorem tallied_step {e : Event} (h : Tallied core₀ σ.core history) (hstep : σ.step e = some σ') :
    Tallied core₀ σ'.core (history ++ (σ.recorded e).toList) := by
  have hkept : ∀ {core : RouterCore}, SameCounters σ.core core → σ.recorded e = none →
      Tallied core₀ core (history ++ (σ.recorded e).toList) := by
    intro core hsame hnone
    rw [hnone, Option.toList_none, List.append_nil]
    exact h.congr hsame
  have heffect := (does_of_step hstep).effect
  generalize σ'.core = core' at heffect ⊢
  cases heffect with
  | same _ hrecorded => exact hkept (.refl _) hrecorded
  | @select request _ hrecorded =>
    obtain ⟨rrIndex, hselect⟩ := selectProvider_core σ.core request
    rw [hselect]
    exact hkept ⟨rfl, rfl, rfl, rfl, rfl, fun _ => rfl⟩ hrecorded
  | @status p _ _ hrecorded =>
    exact hkept (sameCounters_modify (by intro _; rfl) σ.core p) hrecorded
  | @outcome r _ hrecorded =>
    rw [hrecorded]
    exact h.record r
  | @check p _ _ hrecorded =>
    exact hkept (sameCounters_modify (by intro _; rfl) σ.core p) hrecorded

/-! The providers that threads are busy with are in the dictionary. -/

/-- The providers that threads may still record about are there. -/
def InRange (σ : System) : Prop := ∀ t, ∀ p ∈ (σ.pc t).awaited, p < σ.core.providers.length

theorem length_of_tallied (h : Tallied core₀ core history) :
    core.providers.length = core₀.providers.length := by
  have hout : ∀ q, core.providers.length ≤ q ↔ core₀.providers.length ≤ q := by
    intro q
    have hsame := h.providers q
    rw [← List.getElem?_eq_none_iff, ← List.getElem?_eq_none_iff]
    constructor
    · intro hnone
      rw [hnone, Option.map_none] at hsame
      exact Option.map_eq_none_iff.mp hsame.symm
    · intro hnone
      rw [hnone, Option.map_none] at hsame
      exact Option.map_eq_none_iff.mp hsame
  have hle := (hout core.providers.length).mp le_rfl
  have hge := (hout core₀.providers.length).mpr le_rfl
  omega

/-- What a step sets a thread on is among the providers. -/
theorem within_step {e : Event} (h : InRange σ) (hstep : σ.step e = some σ') (u : ThreadId) :
    ∀ p ∈ (σ'.pc u).awaited, p < σ.core.providers.length := by
  intro p hp
  rcases (does_of_step hstep).awaits u p hp with hbefore | havailable
  · exact h u p hbefore
  · exact lt_of_isAvailable havailable

/-- What is recorded is about one of the providers. -/
theorem recorded_within {e : Event} (h : InRange σ) (hstep : σ.step e = some σ') :
    ∀ r ∈ σ.recorded e, r.provider < σ.core.providers.length := by
  intro r hr
  cases e with
  | record t outcome elapsed =>
    have hthread := h t
    unfold System.recorded at hr
    cases hpc : σ.pc t with
    | executing p =>
      rw [hpc] at hthread
      simp only [hpc] at hr
      cases hr
      exact hthread p (List.mem_singleton_self p)
    | _ =>
      simp only [hpc] at hr
      cases hr
  | complete t i outcome elapsed =>
    have hthread := h t
    unfold System.recorded at hr
    cases hpc : σ.pc t with
    | racing racers =>
      rw [hpc] at hthread
      simp only [hpc] at hr
      obtain ⟨p, hp, hr⟩ := Option.bind_eq_some_iff.mp hr
      have hprovider : r.provider = p := by
        cases outcome with
        | ok result =>
          dsimp only at hr
          split_ifs at hr
          cases hr
          rfl
        | error e =>
          cases hr
          rfl
      rw [hprovider]
      exact hthread p (List.mem_of_getElem? hp)
    | _ =>
      simp only [hpc] at hr
      cases hr
  | _ => cases hr

/-- The requests of all providers together. -/
theorem sum_own (n : ℕ) (h : ∀ r ∈ history, r.provider < n) :
    ∑ q ∈ Finset.range n, (history.filter (·.provider = q)).length = history.length := by
  induction history with
  | nil => simp
  | cons r history ih =>
    have hrest := ih fun r' hr' => h r' (List.mem_cons_of_mem r hr')
    have hone : ∀ q, ((r :: history).filter (·.provider = q)).length =
        (if r.provider = q then 1 else 0) + (history.filter (·.provider = q)).length := by
      intro q
      by_cases hq : r.provider = q
      · rw [List.filter_cons_of_pos (by simpa using hq), if_pos hq, List.length_cons]
        omega
      · rw [List.filter_cons_of_neg (by simpa using hq), if_neg hq]
        omega
    have hmem : r.provider ∈ Finset.range n := Finset.mem_range.mpr (h r List.mem_cons_self)
    simp only [hone, Finset.sum_add_distrib, hrest, Finset.sum_ite_eq, hmem, if_true,
      List.length_cons]
    omega

end Steps

/-- A router on which no request was counted yet. -/
structure Fresh (core : RouterCore) : Prop where
  requests : core.totalRequests = 0
  failures : core.totalFailures = 0
  latency : core.totalLatencyMs = 0
  tokens : core.totalTokens = 0
  cost : core.totalCost = 0
  providers : ∀ p ∈ core.providers, p.counters = ⟨0, 0, 0⟩

/-- The metrics of a provider are those of the outcomes that were recorded about it. -/
structure ProviderReports (m : ProviderMetrics) (own : List Record) : Prop where
  requests : m.totalRequests = own.length
  rate : m.failureRate * own.length = own.countP (·.raised)
  rate_nonneg : 0 ≤ m.failureRate
  rate_le_one : m.failureRate ≤ 1
  latency : m.avgLatencyMs = own.foldl Record.latency 0

/-- The metrics are those of the outcomes that were recorded. The average latency is over all
requests, of which only those with a result add to the sum. -/
structure Reports (m : Metrics) (history : List Record) : Prop where
  requests : m.totalRequests = history.length
  failures : m.totalFailures = history.countP (·.raised)
  rate : m.failureRate * history.length = history.countP (·.raised)
  rate_nonneg : 0 ≤ m.failureRate
  rate_le_one : m.failureRate ≤ 1
  latency : m.avgLatencyMs * (max history.length 1 : ℕ) =
    (history.map (Record.adds fun _ elapsed => elapsed)).sum
  tokens : m.totalTokens = (history.map (Record.adds fun result _ => result.tokensUsed)).sum
  cost : m.totalCost = (history.map (Record.adds fun result _ => result.cost)).sum
  providers : ∀ q entry, m.providers[q]? = some entry →
    ProviderReports entry.2 (history.filter (·.provider = q))
  sum : (m.providers.map (·.2.totalRequests)).sum = m.totalRequests

theorem tallied_of_run {o o' : Observed} {events : List Event} {core₀ : RouterCore}
    (h : Tallied core₀ o.system.core o.history) (hrange : InRange o.system)
    (hhistory : ∀ r ∈ o.history, r.provider < core₀.providers.length)
    (hr : run Observed.step o events = some o') :
    Tallied core₀ o'.system.core o'.history ∧
      ∀ r ∈ o'.history, r.provider < core₀.providers.length := by
  have hinv := invariant_of_run (I := fun o : Observed =>
    Tallied core₀ o.system.core o.history ∧ InRange o.system ∧
      ∀ r ∈ o.history, r.provider < core₀.providers.length) ?_ ⟨h, hrange, hhistory⟩ hr
  · exact ⟨hinv.1, hinv.2.2⟩
  rintro o e o' ⟨htallied, hrange, hhistory⟩ hobserved
  obtain ⟨σ', hstep, rfl⟩ := Option.map_eq_some_iff.mp hobserved
  have htallied' := tallied_step htallied hstep
  have hlength := length_of_tallied htallied
  have hlength' := length_of_tallied htallied'
  refine ⟨htallied', fun u => ?_, fun r hr => ?_⟩
  · dsimp only
    rw [hlength', ← hlength]
    exact within_step hrange hstep u
  · rcases List.mem_append.mp hr with hr | hr
    · exact hhistory r hr
    · rw [← hlength]
      exact recorded_within hrange hstep r (Option.mem_toList.mp hr)

/-- A part of the requests, as a rate. -/
theorem rate_spec {k n : ℕ} (h : k ≤ n) :
    (k : ℚ) / (max n 1 : ℕ) * n = k ∧ (0 : ℚ) ≤ k / (max n 1 : ℕ) ∧
      (k : ℚ) / (max n 1 : ℕ) ≤ 1 := by
  rcases Nat.eq_zero_or_pos n with rfl | hn
  · obtain rfl : k = 0 := by omega
    simp
  · have hmax : max n 1 = n := by omega
    have hpos : (0 : ℚ) < n := by exact_mod_cast hn
    rw [hmax]
    refine ⟨div_mul_cancel₀ _ hpos.ne', div_nonneg (Nat.cast_nonneg k) hpos.le, ?_⟩
    rw [div_le_one hpos]
    exact_mod_cast h

theorem providerReports_of_counters {p : Provider} {own : List Record}
    (h : p.counters = ⟨own.length, own.countP (·.raised), own.foldl Record.latency 0⟩) :
    ProviderReports ⟨p.status, p.failureRate, p.avgLatencyMs, p.totalRequests⟩ own := by
  obtain ⟨htotal, hfailed, havg⟩ := Counters.mk.inj h
  have hrate := rate_spec (List.countP_le_length (p := (·.raised)) (l := own))
  have hfailure : p.failureRate = (own.countP (·.raised) : ℚ) / (max own.length 1 : ℕ) := by
    unfold Provider.failureRate
    rw [htotal, hfailed]
    split_ifs with hzero
    · have hnil : own = [] := List.length_eq_zero_iff.mp hzero
      simp [hnil]
    · have hmax : max own.length 1 = own.length := by omega
      rw [hmax]
  exact {
    requests := htotal
    rate := by
      dsimp only
      rw [hfailure]
      exact hrate.1
    rate_nonneg := by
      dsimp only
      rw [hfailure]
      exact hrate.2.1
    rate_le_one := by
      dsimp only
      rw [hfailure]
      exact hrate.2.2
    latency := havg }

/-- The counters of a provider that were zero at the start are those of its own outcomes. -/
theorem Tallied.counters_eq {core core' : RouterCore} {history : List Record} (hfresh : Fresh core)
    (h : Tallied core core' history) {q : ℕ} {p : Provider} (hp : core'.providers[q]? = some p) :
    p.counters = ⟨(history.filter (·.provider = q)).length,
      (history.filter (·.provider = q)).countP (·.raised),
      (history.filter (·.provider = q)).foldl Record.latency 0⟩ := by
  have hq := h.providers q
  rw [hp, Option.map_some] at hq
  cases hp₀ : core.providers[q]? with
  | none =>
    rw [hp₀] at hq
    cases hq
  | some p₀ =>
    rw [hp₀] at hq
    have hzero := hfresh.providers p₀ (List.mem_of_getElem? hp₀)
    unfold Provider.counters at hzero
    obtain ⟨htotal, hfailed, havg⟩ := Counters.mk.inj hzero
    rw [Option.map_some, htotal, hfailed, havg] at hq
    dsimp only at hq
    rw [Nat.zero_add, Nat.zero_add] at hq
    exact Option.some.inj hq

/-- Each outcome is one provider's. -/
theorem Tallied.sum_requests {core core' : RouterCore} {history : List Record} (hfresh : Fresh core)
    (h : Tallied core core' history)
    (hhistory : ∀ r ∈ history, r.provider < core.providers.length) :
    (core'.getMetrics.providers.map (·.2.totalRequests)).sum = history.length := by
  have hlength := length_of_tallied h
  have hmap : core'.getMetrics.providers.map (·.2.totalRequests) =
      (List.range core.providers.length).map fun q =>
        (history.filter (·.provider = q)).length := by
    unfold RouterCore.getMetrics
    rw [List.map_map]
    refine List.ext_getElem (by simp [hlength]) fun q hq _ => ?_
    have hp := h.counters_eq hfresh (List.getElem?_eq_getElem (by simpa using hq))
    simpa using (Counters.mk.inj hp).1
  rw [hmap]
  exact sum_own core.providers.length hhistory

/-- Whatever the threads, the operator and the health checks do in between, the metrics report each
recorded outcome once, and a provider's are its own part of them, in the order of the lock. -/
theorem metrics_report {core : RouterCore} (hfresh : Fresh core) {pc : ThreadId → Option Answer}
    {events : List Event} {o : Observed}
    (hr : run Observed.step ⟨⟨core, fun t => .idle (pc t)⟩, []⟩ events = some o) :
    Reports o.system.core.getMetrics o.history := by
  have hstart : Tallied core core [] := by
    refine ⟨by simp, by simp, by simp, by simp, by simp, fun q => ?_⟩
    cases core.providers[q]? <;> rfl
  have hinside : InRange ⟨core, fun t => .idle (pc t)⟩ := fun _ p hp => absurd hp List.not_mem_nil
  obtain ⟨htallied, hrange⟩ := tallied_of_run hstart hinside
    (fun r hr => absurd hr List.not_mem_nil) hr
  have ⟨hrequests, hfailures, hlatency, htokens, hcost, _⟩ := htallied
  rw [hfresh.requests, Nat.zero_add] at hrequests
  rw [hfresh.failures, Nat.zero_add] at hfailures
  rw [hfresh.latency, zero_add] at hlatency
  rw [hfresh.tokens, zero_add] at htokens
  rw [hfresh.cost, zero_add] at hcost
  have hrate := rate_spec (List.countP_le_length (p := (·.raised)) (l := o.history))
  exact {
    requests := hrequests
    failures := hfailures
    rate := by
      change (o.system.core.totalFailures : ℚ) / (max o.system.core.totalRequests 1 : ℕ) * _ = _
      rw [hfailures, hrequests]
      exact hrate.1
    rate_nonneg := by
      change (0 : ℚ) ≤ o.system.core.totalFailures / (max o.system.core.totalRequests 1 : ℕ)
      rw [hfailures, hrequests]
      exact hrate.2.1
    rate_le_one := by
      change (o.system.core.totalFailures : ℚ) / (max o.system.core.totalRequests 1 : ℕ) ≤ 1
      rw [hfailures, hrequests]
      exact hrate.2.2
    latency := by
      have hpos : ((max o.history.length 1 : ℕ) : ℚ) ≠ 0 := by
        have hmax : max o.history.length 1 ≠ 0 := by omega
        exact_mod_cast hmax
      change o.system.core.totalLatencyMs / (max o.system.core.totalRequests 1 : ℕ) * _ = _
      rw [hlatency, hrequests, div_mul_cancel₀ _ hpos]
    tokens := htokens
    cost := hcost
    providers := by
      intro q entry hq
      unfold RouterCore.getMetrics at hq
      rw [List.getElem?_map] at hq
      obtain ⟨p, hp, rfl⟩ := Option.map_eq_some_iff.mp hq
      exact providerReports_of_counters (htallied.counters_eq hfresh hp)
    sum := (htallied.sum_requests hfresh hrange).trans hrequests.symm }

/-- Two requests whose outcomes are recorded in the other order, a health check between them, and a
race that the rest of the threads do not wait for. -/
def interleaved : List Event :=
  [.route 0 {}, .route 1 { preferredProvider := some "ollama" }, .check 2, .inspect 2 0,
    .record 1 (.error "refused") 20, .judge 1, .race 3 [], .write 2,
    .record 0 (.ok refused) 30, .complete 3 1 (.error "reset") 5]

theorem metrics_report_interleaved :
    ∃ o, run Observed.step ⟨⟨{ providers := [{ name := "openai" }, { name := "ollama" }] },
        fun _ => .idle none⟩, []⟩ interleaved = some o ∧
      o.history.map (·.provider) = [1, 0, 1] ∧ Reports o.system.core.getMetrics o.history := by
  have hsome : (run Observed.step ⟨⟨{ providers := [{ name := "openai" }, { name := "ollama" }] },
      fun _ => .idle none⟩, []⟩ interleaved).isSome = true := by decide +kernel
  obtain ⟨o, ho⟩ := Option.isSome_iff_exists.mp hsome
  have hfresh : Fresh { providers := [{ name := "openai" }, { name := "ollama" }] } :=
    ⟨rfl, rfl, rfl, rfl, rfl, by simp [Provider.counters]⟩
  refine ⟨o, ho, ?_, metrics_report hfresh ho⟩
  have hproviders := congrArg (Option.map fun o : Observed => o.history.map (·.provider)) ho
  exact Option.some.inj (hproviders.symm.trans (by decide +kernel))

end LingNet.Providers
