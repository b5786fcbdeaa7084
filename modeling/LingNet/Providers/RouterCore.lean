import Mathlib.Algebra.Order.Field.Rat
import LingNet.Py.Value

/-! The routing core: the providers with their counters, the choice of one for a request, and
what is recorded about it. Times, costs and rates are exact. -/
namespace LingNet.Providers
open Py

inductive RoutingStrategy where
  | roundRobin
  | leastLatency
  | costOptimized
  | priority
  | race
  deriving DecidableEq, Repr

inductive ProviderStatus where
  | healthy
  | degraded
  | unhealthy
  | disabled
  deriving DecidableEq, Repr

structure Provider where
  name : String
  model : String := ""
  priority : ℤ := 0
  costPer1kTokens : ℚ := 0
  status : ProviderStatus := .healthy
  avgLatencyMs : ℚ := 0
  totalRequests : ℕ := 0
  failedRequests : ℕ := 0
  lastHealthCheck : ℚ := 0

namespace Provider

def failureRate (p : Provider) : ℚ :=
  if p.totalRequests = 0 then 0 else p.failedRequests / p.totalRequests

def isAvailable (p : Provider) : Bool := p.status ∈ [.healthy, .degraded]

end Provider

/-- `preferredProvider` is `none` or empty when there is no preference. -/
structure RouteRequest where
  preferredProvider : Option String := none
  maxCost : ℚ := 0
  timeoutMs : ℚ := 30000

/-- `model` is the name of a model, but an empty dictionary when `route` has no provider. -/
structure RouteResult where
  provider : String
  model : Json
  response : Json
  latencyMs : ℚ
  tokensUsed : ℤ
  cost : ℚ
  success : Bool
  error : String := ""

structure RouterConfig where
  strategy : RoutingStrategy := .leastLatency
  failoverThreshold : ℚ := 1 / 2

/-- A provider, by its place in the dictionary. -/
abbrev Ref := ℕ

/-- `providers` are the values of the dictionary in its order. -/
structure RouterCore where
  config : RouterConfig := {}
  providers : List Provider
  rrIndex : ℕ := 0
  totalRequests : ℕ := 0
  totalFailures : ℕ := 0
  totalLatencyMs : ℚ := 0
  totalCost : ℚ := 0
  totalTokens : ℤ := 0

/-- `min(items, key=key)`, the first of the least. -/
def minBy {α κ : Type} [LT κ] [DecidableLT κ] (key : α → κ) : List α → Option α
  | [] => none
  | a :: items => some (items.foldl (fun least b => if key b < key least then b else least) a)

theorem minBy_mem {α κ : Type} [LT κ] [DecidableLT κ] {key : α → κ} {items : List α} {a : α}
    (h : minBy key items = some a) : a ∈ items := by
  cases items with
  | nil => cases h
  | cons b items =>
    cases h
    induction items generalizing b with
    | nil => simp
    | cons c items ih =>
      rw [List.foldl_cons]
      split_ifs
      · exact List.mem_cons_of_mem b (ih c)
      · rcases List.mem_cons.mp (ih b) with hb | hmem
        · rw [hb]
          exact List.mem_cons_self
        · exact List.mem_cons_of_mem b (List.mem_cons_of_mem c hmem)

namespace RouterCore

def modifyProvider (self : RouterCore) (p : Ref) (f : Provider → Provider) : RouterCore :=
  { self with providers := self.providers.modify p f }

def setStatus (self : RouterCore) (p : Ref) (status : ProviderStatus) : RouterCore :=
  self.modifyProvider p fun provider => { provider with status := status }

def status (self : RouterCore) (p : Ref) : Option ProviderStatus :=
  self.providers[p]?.map (·.status)

def isAvailable (self : RouterCore) (p : Ref) : Bool :=
  self.status p ∈ [some .healthy, some .degraded]

/-- `[p for p in self._providers.values() if p.is_available]` -/
def available (self : RouterCore) : List (Provider × Ref) :=
  self.providers.zipIdx.filter (·.1.isAvailable)

def leastLatency (providers : List (Provider × Ref)) : Option (Provider × Ref) :=
  minBy (·.1.avgLatencyMs) providers

def costOptimized (providers : List (Provider × Ref)) (maxCost : ℚ) : Option (Provider × Ref) :=
  let affordable :=
    if 0 < maxCost then providers.filter (·.1.costPer1kTokens ≤ maxCost) else providers
  let affordable := if affordable.isEmpty then providers else affordable
  minBy (·.1.costPer1kTokens) affordable

def priority (providers : List (Provider × Ref)) : Option (Provider × Ref) :=
  minBy (·.1.priority) providers

def raceSelect (providers : List (Provider × Ref)) : Option (Provider × Ref) := providers.head?

/-- `_select_provider`. Only `_round_robin` changes the router. -/
def selectProvider (self : RouterCore) (request : RouteRequest) : Option Ref × RouterCore :=
  let available : List (Provider × Ref) := self.available
  if available.isEmpty then (none, self)
  else
    let preferred : Option (Provider × Ref) := match request.preferredProvider with
      | some name => if name = "" then none else available.find? (·.1.name = name)
      | none => none
    match preferred with
    | some p => (some p.2, self)
    | none =>
      match self.config.strategy with
      | .roundRobin =>
        (available[self.rrIndex % available.length]?.map (·.2),
          { self with rrIndex := self.rrIndex + 1 })
      | .leastLatency => ((leastLatency available).map (·.2), self)
      | .costOptimized => ((costOptimized available request.maxCost).map (·.2), self)
      | .priority => ((priority available).map (·.2), self)
      | .race => ((raceSelect available).map (·.2), self)

/-- The racers of `route_race`: the names that are known and available, or all providers. An empty
list of names is no list. -/
def racers (self : RouterCore) (providerNames : List String) : List Ref :=
  if providerNames.isEmpty then self.available.map (·.2)
  else providerNames.filterMap fun name =>
    (self.providers.zipIdx.find? (·.1.name = name)).bind fun p =>
      if p.1.isAvailable then some p.2 else none

/-- What is recorded under the lock when a request has been answered. -/
def recordSuccess (self : RouterCore) (p : Ref) (result : RouteResult) (elapsed : ℚ) :
    RouterCore :=
  { self with
    totalRequests := self.totalRequests + 1
    totalLatencyMs := self.totalLatencyMs + elapsed
    totalTokens := self.totalTokens + result.tokensUsed
    totalCost := self.totalCost + result.cost }.modifyProvider p fun provider =>
      { provider with
        totalRequests := provider.totalRequests + 1
        avgLatencyMs := provider.avgLatencyMs * (9 / 10) + elapsed * (1 / 10) }

/-- What is recorded under the lock when `_execute` has raised. -/
def recordFailure (self : RouterCore) (p : Ref) : RouterCore :=
  { self with
    totalRequests := self.totalRequests + 1
    totalFailures := self.totalFailures + 1 }.modifyProvider p fun provider =>
      { provider with
        totalRequests := provider.totalRequests + 1
        failedRequests := provider.failedRequests + 1 }

/-- `provider.failure_rate > self.config.failover_threshold` -/
def needsFailover (self : RouterCore) (p : Ref) : Bool :=
  (self.providers[p]?).any fun provider => self.config.failoverThreshold < provider.failureRate

end RouterCore

/-- The result of `route` when no provider is available. -/
def noProvider : RouteResult where
  provider := ""
  model := .dict []
  response := .dict []
  latencyMs := 0
  tokensUsed := 0
  cost := 0
  success := false
  error := "No available providers"

/-- The result of `route` when `_execute` has raised. -/
def failed (provider : Provider) (error : String) (elapsed : ℚ) : RouteResult where
  provider := provider.name
  model := .str provider.model
  response := .dict []
  latencyMs := elapsed
  tokensUsed := 0
  cost := 0
  success := false
  error := error

/-- The result of `route_race` without a winner. -/
def noWinner (elapsed : ℚ) (error : String) : RouteResult where
  provider := ""
  model := .str ""
  response := .dict []
  latencyMs := elapsed
  tokensUsed := 0
  cost := 0
  success := false
  error := error

/-- The status that `health_check_all` gives a provider. -/
def health (provider : Provider) : ProviderStatus :=
  if 8 / 10 < provider.failureRate then .unhealthy
  else if 3 / 10 < provider.failureRate then .degraded
  else .healthy

theorem health_ne_disabled (provider : Provider) : health provider ≠ .disabled := by
  unfold health
  split_ifs
  · exact nofun
  · exact nofun
  · exact nofun

section Select

variable {self : RouterCore} {p : Ref} {provider : Provider}

/-! The providers behind the operations. -/

theorem getElem?_modifyProvider (self : RouterCore) (p q : Ref) (f : Provider → Provider) :
    (self.modifyProvider p f).providers[q]? =
      if p = q then self.providers[q]?.map f else self.providers[q]? := by
  unfold RouterCore.modifyProvider
  rw [List.getElem?_modify]
  split_ifs
  · rfl
  · simp

theorem getElem?_setStatus {status : ProviderStatus}
    (hget : self.providers[p]? = some provider) :
    (self.setStatus p status).providers[p]? = some { provider with status := status } := by
  have hmodified := getElem?_modifyProvider self p p fun x => { x with status := status }
  rw [if_pos rfl, hget] at hmodified
  exact hmodified

theorem getElem?_recordFailure (hget : self.providers[p]? = some provider) :
    (self.recordFailure p).providers[p]? = some { provider with
      totalRequests := provider.totalRequests + 1
      failedRequests := provider.failedRequests + 1 } := by
  have hmodified := getElem?_modifyProvider self p p fun x =>
    { x with totalRequests := x.totalRequests + 1, failedRequests := x.failedRequests + 1 }
  rw [if_pos rfl, hget] at hmodified
  exact hmodified

/-! The status of each provider behind the operations. -/

theorem status_setStatus (self : RouterCore) (p q : Ref) (status : ProviderStatus) :
    (self.setStatus p status).status q =
      if q = p then (self.status q).map fun _ => status else self.status q := by
  unfold RouterCore.status RouterCore.setStatus
  rw [getElem?_modifyProvider]
  by_cases hq : q = p
  · rw [if_pos hq.symm, if_pos hq, Option.map_map, Option.map_map]
    rfl
  · rw [if_neg (Ne.symm hq), if_neg hq]

theorem status_modifyProvider {f : Provider → Provider} (hf : ∀ x, (f x).status = x.status)
    (self : RouterCore) (p q : Ref) : (self.modifyProvider p f).status q = self.status q := by
  unfold RouterCore.status
  rw [getElem?_modifyProvider]
  split_ifs
  · rw [Option.map_map]
    exact congrArg (Option.map · self.providers[q]?) (funext hf)
  · rfl

@[simp] theorem status_recordSuccess (self : RouterCore) (p q : Ref) (result : RouteResult)
    (elapsed : ℚ) : (self.recordSuccess p result elapsed).status q = self.status q :=
  status_modifyProvider (by intro _; rfl) _ p q

@[simp] theorem status_recordFailure (self : RouterCore) (p q : Ref) :
    (self.recordFailure p).status q = self.status q :=
  status_modifyProvider (by intro _; rfl) _ p q

theorem providers_selectProvider (self : RouterCore) (request : RouteRequest) :
    (self.selectProvider request).2.providers = self.providers := by
  unfold RouterCore.selectProvider
  dsimp only
  split_ifs
  · rfl
  · split
    · rfl
    · cases self.config.strategy <;> rfl

@[simp] theorem status_selectProvider (self : RouterCore) (request : RouteRequest) (q : Ref) :
    (self.selectProvider request).2.status q = self.status q := by
  unfold RouterCore.status
  rw [providers_selectProvider]

theorem mem_zipIdx {x : Provider × Ref} (h : x ∈ self.providers.zipIdx) :
    self.providers[x.2]? = some x.1 := List.mem_zipIdx_iff_getElem?.mp h

theorem isAvailable_eq {provider : Provider} (h : self.providers[p]? = some provider) :
    self.isAvailable p = provider.isAvailable := by
  unfold RouterCore.isAvailable RouterCore.status Provider.isAvailable
  rw [h]
  simp

theorem isAvailable_of_mem {x : Provider × Ref} (h : x ∈ self.available) :
    self.isAvailable x.2 = true := by
  obtain ⟨hmem, havail⟩ := List.mem_filter.mp h
  rw [isAvailable_eq (mem_zipIdx hmem)]
  exact havail

theorem isAvailable_of_status {status : ProviderStatus} (h : self.status p = some status) :
    self.isAvailable p = decide (status ∈ [.healthy, .degraded]) := by
  unfold RouterCore.isAvailable
  rw [h]
  simp

/-- A provider chosen from the available ones is one of them. -/
theorem isAvailable_of_map {x : Option (Provider × Ref)}
    (hx : ∀ y, x = some y → y ∈ self.available) (h : x.map (·.2) = some p) :
    self.isAvailable p = true := by
  obtain ⟨y, hy, rfl⟩ := Option.map_eq_some_iff.mp h
  exact isAvailable_of_mem (hx y hy)

theorem costOptimized_mem {providers : List (Provider × Ref)} {maxCost : ℚ} {x : Provider × Ref}
    (h : RouterCore.costOptimized providers maxCost = some x) : x ∈ providers := by
  unfold RouterCore.costOptimized at h
  have hmem := minBy_mem h
  split_ifs at hmem
  · exact hmem
  · exact (List.mem_filter.mp hmem).1
  · exact hmem
  · exact hmem

/-- A selected provider is available. -/
theorem isAvailable_of_select {request : RouteRequest}
    (h : (self.selectProvider request).1 = some p) : self.isAvailable p = true := by
  unfold RouterCore.selectProvider at h
  dsimp only at h
  split_ifs at h
  split at h
  next x hpreferred =>
    refine isAvailable_of_map (x := some x) (fun y hy => ?_) h
    cases hy
    split at hpreferred
    next name =>
      split_ifs at hpreferred
      exact List.mem_of_find?_eq_some hpreferred
    next => cases hpreferred
  next =>
    cases hstrategy : self.config.strategy with
    | roundRobin =>
      rw [hstrategy] at h
      exact isAvailable_of_map (fun y hy => List.mem_of_getElem? hy) h
    | leastLatency =>
      rw [hstrategy] at h
      exact isAvailable_of_map (fun y hy => minBy_mem hy) h
    | costOptimized =>
      rw [hstrategy] at h
      exact isAvailable_of_map (fun y hy => costOptimized_mem hy) h
    | priority =>
      rw [hstrategy] at h
      exact isAvailable_of_map (fun y hy => minBy_mem hy) h
    | race =>
      rw [hstrategy] at h
      exact isAvailable_of_map (fun y hy => List.mem_of_mem_head? hy) h

/-- So is every racer. -/
theorem isAvailable_of_racers {names : List String} (h : p ∈ self.racers names) :
    self.isAvailable p = true := by
  unfold RouterCore.racers at h
  split_ifs at h
  · obtain ⟨x, hx, rfl⟩ := List.mem_map.mp h
    exact isAvailable_of_mem hx
  · obtain ⟨name, -, hname⟩ := List.mem_filterMap.mp h
    obtain ⟨x, hfind, hx⟩ := Option.bind_eq_some_iff.mp hname
    split_ifs at hx with havail
    cases hx
    rw [isAvailable_eq (mem_zipIdx (List.mem_of_find?_eq_some hfind))]
    exact havail

end Select

end LingNet.Providers
