import LingNet.Lib.Amortized
import LingNet.Lib.RoundRobin
import LingNet.Providers.Effect

/-! The round robin of the router, with threads that route side by side. -/
namespace LingNet.Providers
open Run

/-- A request without a preference. -/
def RouteRequest.Open (request : RouteRequest) : Prop :=
  request.preferredProvider = none ∨ request.preferredProvider = some ""

/-- No status is written, and no request has a preference. -/
def Undisturbed (σ : System) (e : Event) : Prop :=
  σ.writes e = none ∧ ∀ request ∈ e.request, request.Open

instance (request : RouteRequest) : Decidable request.Open :=
  inferInstanceAs (Decidable (_ ∨ _))

instance (σ : System) (e : Event) : Decidable (Undisturbed σ e) :=
  inferInstanceAs (Decidable (_ ∧ ∀ request ∈ e.request, request.Open))

/-- Whether the step selects the provider for a request. -/
def serves (p : Ref) (σ : System) (e : Event) : ℕ :=
  match e.request with
  | some request => if (σ.core.selectProvider request).1 = some p then 1 else 0
  | none => 0

/-- Whether the step selects for a request. -/
def asks (_ : System) (e : Event) : ℕ := if e.request.isSome then 1 else 0

section Steps

variable {σ σ' : System} {core : RouterCore} {e : Event} {p : Ref}

theorem available_refs (core : RouterCore) :
    core.available.map (·.2) = (List.range core.providers.length).filter core.isAvailable := by
  have hsame : ∀ x ∈ core.providers.zipIdx, x.1.isAvailable = core.isAvailable x.2 :=
    fun x hx => (isAvailable_eq (mem_zipIdx hx)).symm
  have hrefs : core.providers.zipIdx.map (·.2) = List.range core.providers.length := by
    rw [List.zipIdx_map_snd, List.range_eq_range']
  unfold RouterCore.available
  rw [List.filter_congr hsame, ← hrefs, List.filter_map]
  rfl

/-- With the round robin, a request without a preference takes the next of the available ones. -/
theorem selectProvider_roundRobin {request : RouteRequest}
    (hstrategy : core.config.strategy = .roundRobin) (hopen : request.Open)
    (havailable : core.available ≠ []) :
    core.selectProvider request =
      ((core.available.map (·.2))[core.rrIndex % core.available.length]?,
        { core with rrIndex := core.rrIndex + 1 }) := by
  have hempty : ¬ core.available.isEmpty = true := by simpa using havailable
  unfold RouterCore.selectProvider
  dsimp only
  rw [if_neg hempty]
  rcases hopen with hnone | hblank
  · simp only [hnone, hstrategy, List.getElem?_map]
  · simp only [hblank, if_true, hstrategy, List.getElem?_map]

/-- A step that writes no status leaves the same providers available. -/
theorem status_of_undisturbed (hwrites : σ.writes e = none) (hstep : σ.step e = some σ') (q : Ref) :
    σ'.core.status q = σ.core.status q := by
  have hwritten := status_step hstep q
  unfold Written at hwritten
  rw [hwrites] at hwritten
  exact hwritten

theorem isAvailable_of_step (hwrites : σ.writes e = none) (hstep : σ.step e = some σ') :
    σ'.core.isAvailable = σ.core.isAvailable := by
  funext q
  unfold RouterCore.isAvailable
  rw [status_of_undisturbed hwrites hstep]

theorem available_of_step (hwrites : σ.writes e = none) (hstep : σ.step e = some σ') :
    σ'.core.available.map (·.2) = σ.core.available.map (·.2) := by
  have hout : ∀ q, σ'.core.providers.length ≤ q ↔ σ.core.providers.length ≤ q := by
    intro q
    have hq := congrArg (· = none) (status_of_undisturbed hwrites hstep q)
    simpa [RouterCore.status, -iff_self] using hq
  have hle := (hout σ'.core.providers.length).mp le_rfl
  have hge := (hout σ.core.providers.length).mpr le_rfl
  have hlength : σ'.core.providers.length = σ.core.providers.length := by omega
  rw [available_refs, available_refs, hlength, isAvailable_of_step hwrites hstep]

theorem strategy_of_step (hstep : σ.step e = some σ') :
    σ'.core.config.strategy = σ.core.config.strategy := by
  have heffect := (does_of_step hstep).effect
  generalize σ'.core = core' at heffect ⊢
  cases heffect with
  | @select request =>
    obtain ⟨rrIndex, hselect⟩ := selectProvider_core σ.core request
    rw [hselect]
  | @outcome r =>
    obtain ⟨q, outcome, elapsed⟩ := r
    cases outcome <;> rfl
  | _ => rfl

/-- The counter moves with the requests. -/
theorem counter_of_step (hstrategy : σ.core.config.strategy = .roundRobin)
    (hundisturbed : Undisturbed σ e) (havailable : σ.core.available ≠ [])
    (hstep : σ.step e = some σ') : σ'.core.rrIndex = σ.core.rrIndex + asks σ e := by
  have heffect := (does_of_step hstep).effect
  generalize σ'.core = core' at heffect ⊢
  unfold asks
  cases heffect with
  | @select request hrequest =>
    rw [selectProvider_roundRobin hstrategy (hundisturbed.2 request hrequest) havailable]
    simp [hrequest]
  | @outcome r hrequest =>
    obtain ⟨q, outcome, elapsed⟩ := r
    rw [hrequest]
    cases outcome <;> rfl
  | same hrequest | status hrequest | check hrequest =>
    rw [hrequest]
    rfl

/-- The requests of a stretch without a disturbance are served in turn. -/
theorem served_eq {events : List Event} {i : ℕ}
    (hstrategy : σ.core.config.strategy = .roundRobin)
    (hall : AllSteps System.step Undisturbed σ events) (hr : run System.step σ events = some σ')
    (hi : (σ.core.available.map (·.2))[i]? = some p) :
    total System.step (serves p) σ events = (RoundRobin.turns σ.core.available.length
      σ.core.rrIndex (total System.step asks σ events)).count i := by
  induction events generalizing σ with
  | nil => rfl
  | cons e events ih =>
    obtain ⟨σ₁, hstep, hrest⟩ := run_cons_eq_some.mp hr
    have hsame := available_of_step hall.1.1 hstep
    have hlength : σ₁.core.available.length = σ.core.available.length := by
      simpa using congrArg List.length hsame
    have havailable : σ.core.available ≠ [] := by
      intro hnil
      rw [hnil] at hi
      cases hi
    have hcounter := counter_of_step hstrategy hall.1 havailable hstep
    have hstrategy₁ := (strategy_of_step hstep).trans hstrategy
    have hrest' := ih hstrategy₁ (hall.2 σ₁ hstep) hrest (hsame.symm ▸ hi)
    rw [total_cons_of_step hstep, total_cons_of_step hstep, hrest', hlength, hcounter]
    cases hrequest : e.request with
    | none =>
      have hasks : asks σ e = 0 := by simp [asks, hrequest]
      have hserves : serves p σ e = 0 := by simp [serves, hrequest]
      rw [hasks, hserves, Nat.zero_add, Nat.zero_add, Nat.add_zero]
    | some request =>
      have hasks : asks σ e = 1 := by simp [asks, hrequest]
      rw [hasks, Nat.add_comm 1, RoundRobin.turns_succ, List.count_cons, Nat.add_comm]
      congr 1
      have hselect := selectProvider_roundRobin hstrategy (hall.1.2 request hrequest) havailable
      have hnodup : (σ.core.available.map (·.2)).Nodup := by
        rw [available_refs]
        exact List.nodup_range.filter _
      simp only [serves, hrequest, hselect]
      by_cases hturn : σ.core.rrIndex % σ.core.available.length = i
      · rw [if_pos (hturn ▸ hi), if_pos (by simpa using hturn)]
      · rw [if_neg, if_neg (by simpa using hturn)]
        intro hget
        obtain ⟨hlt, -⟩ := List.getElem?_eq_some_iff.mp hget
        exact hturn ((List.getElem?_inj hlt hnodup).mp (hget.trans hi.symm))

end Steps

/-- While nobody writes a status and no request has a preference, the available providers share the
requests out evenly, and the others get none, whatever the threads do besides. -/
theorem round_robin_fair {σ σ' : System} {events : List Event}
    (hstrategy : σ.core.config.strategy = .roundRobin)
    (hall : AllSteps System.step Undisturbed σ events) (hr : run System.step σ events = some σ')
    (p : Ref) :
    (σ.core.isAvailable p = true →
      total System.step asks σ events / σ.core.available.length ≤
          total System.step (serves p) σ events ∧
        total System.step (serves p) σ events ≤
          total System.step asks σ events / σ.core.available.length + 1) ∧
      (σ.core.isAvailable p = false → total System.step (serves p) σ events = 0) := by
  constructor
  · intro havailable
    have hmem : p ∈ σ.core.available.map (·.2) := by
      rw [available_refs]
      exact List.mem_filter.mpr ⟨List.mem_range.mpr (lt_of_isAvailable havailable), havailable⟩
    obtain ⟨i, hi⟩ := List.mem_iff_getElem?.mp hmem
    obtain ⟨hlt, -⟩ := List.getElem?_eq_some_iff.mp hi
    rw [served_eq hstrategy hall hr hi]
    exact RoundRobin.count_turns_le (by simpa using hlt) _ _
  · intro hunavailable
    induction events generalizing σ with
    | nil => rfl
    | cons e events ih =>
      obtain ⟨σ₁, hstep, hrest⟩ := run_cons_eq_some.mp hr
      have hstrategy₁ := strategy_of_step hstep
      have havailable₁ := isAvailable_of_step hall.1.1 hstep
      have hzero : serves p σ e = 0 := by
        unfold serves
        cases e.request with
        | none => rfl
        | some request =>
          refine if_neg fun hselect => ?_
          rw [isAvailable_of_select hselect] at hunavailable
          cases hunavailable
      have hrest' := ih (hstrategy₁.trans hstrategy) (hall.2 σ₁ hstep) hrest
        (by rw [havailable₁, hunavailable])
      rw [total_cons_of_step hstep, hzero, hrest']

/-- Three providers, of which the second one is disabled. -/
def threeProviders : System where
  core := { config := { strategy := .roundRobin }
            providers := [{ name := "openai" }, { name := "ollama", status := .disabled },
              { name := "groq" }]
            rrIndex := 5 }
  pc _ := .idle none

/-- Three requests of two threads and a race between them. -/
def threeRequests : List Event :=
  [.route 0 {}, .route 1 { preferredProvider := some "" }, .race 2 [], .record 1 (.ok refused) 3,
    .route 1 {}, .record 0 (.error "reset") 5]

theorem round_robin_fair_three :
    total System.step (serves 0) threeProviders threeRequests ≤ 2 ∧
      1 ≤ total System.step (serves 2) threeProviders threeRequests ∧
      total System.step (serves 1) threeProviders threeRequests = 0 := by
  have hsome : (run System.step threeProviders threeRequests).isSome = true := by decide +kernel
  obtain ⟨σ, hσ⟩ := Option.isSome_iff_exists.mp hsome
  have hall : AllSteps System.step Undisturbed threeProviders threeRequests := by decide +kernel
  have hasks : total System.step asks threeProviders threeRequests = 3 := by decide +kernel
  have hfirst := (round_robin_fair rfl hall hσ 0).1 (by decide +kernel)
  have hlast := (round_robin_fair rfl hall hσ 2).1 (by decide +kernel)
  rw [hasks] at hfirst hlast
  exact ⟨hfirst.2, hlast.1, (round_robin_fair rfl hall hσ 1).2 (by decide +kernel)⟩

end LingNet.Providers
