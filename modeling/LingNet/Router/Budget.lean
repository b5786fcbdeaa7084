import Mathlib.Algebra.BigOperators.Group.List.Basic
import Mathlib.Algebra.Order.BigOperators.Group.List
import Mathlib.Tactic.Linarith
import LingNet.Router.Race

/-! What the budget of a router has to do with what its calls cost, over all runs of calls that
take turns. -/
namespace LingNet.Router
open Py Coroutine

/-- A call that was started, with the charges it was granted. -/
structure Slot where
  provider : ModelProvider
  request : LLMRequest
  charged : ℚ
  routine : Routine Outcome

def Slot.paid (slot : Slot) : ℚ :=
  match slot.routine with
  | .done (.ok response) => response.costUsd
  | _ => 0

/-- A router and all calls on it, the first one first. -/
structure Book where
  router : ModelRouter
  slots : List Slot

def Book.paid (book : Book) : ℚ := (book.slots.map Slot.paid).sum

inductive Event where
  | begin (providerId : String) (provider : ModelProvider) (request : LLMRequest)
  | turn (i : ℕ) (reply : Reply)
  | cancel (i : ℕ)

/-- What a task that is cancelled ends with. -/
def cancelledError : Exn := ⟨.other "CancelledError", ""⟩

/-- A call begins, performs its next action, or is cancelled. -/
def Book.step [Floats] (encode : Tokenizer) (book : Book) : Event → Option Book
  | .begin providerId provider request =>
    some { book with slots := book.slots ++ [⟨provider, request, 0,
      callProvider book.router.config encode providerId provider request⟩] }
  | .turn i reply =>
    match book.slots[i]? with
    | some ⟨provider, request, charged, .act a resume⟩ =>
      let (r, router) := answer book.router a reply
      some ⟨router, book.slots.set i ⟨provider, request, granted charged a r, resume r⟩⟩
    | _ => none
  | .cancel i =>
    match book.slots[i]? with
    | some ⟨provider, request, charged, .act _ _⟩ => some { book with
        slots := book.slots.set i ⟨provider, request, charged, .done (.error cancelledError)⟩ }
    | _ => none

def reportedCost [Floats] (modelConfig : Dict) (data : Json) : Except Exn ℚ := do
  let tokensIn ← (← data.get "usage" (.dict [])).get "prompt_tokens" (.int 0)
  let tokensOut ← (← data.get "usage" (.dict [])).get "completion_tokens" (.int 0)
  costOf tokensIn tokensOut modelConfig

/-- No charge of the step starts a new hour. -/
def SameHour (book : Book) : Event → Prop
  | .turn i reply =>
    match book.slots[i]? with
    | some ⟨_, _, _, .act (.charge _) _⟩ => reply.clock - book.router.costTracker.hourStart ≤ 3600
    | _ => True
  | _ => True

/-- The usage in a body costs at most the estimate of the call. -/
def UsageWithin [Floats] (encode : Tokenizer) (provider : ModelProvider) (request : LLMRequest)
    (data : Json) : Prop :=
  match quote encode provider request with
  | .ok (.inr (modelConfig, estCost)) =>
    match reportedCost modelConfig data with
    | .ok cost => cost ≤ estCost
    | .error _ => True
  | _ => True

/-- What a call may be told: a charge that is granted is not negative, and the usage in a body
costs at most the estimate. -/
def Estimated [Floats] (encode : Tokenizer) (provider : ModelProvider) (request : LLMRequest) :
    ℚ → (a : Action) → a.Reply → Prop
  | _, .charge cost, true => 0 ≤ cost
  | _, .readJson, .value data => UsageWithin encode provider request data
  | _, _, _ => True

/-- The step charges no negative estimate and reads no usage beyond the estimate of its call. -/
def WithinEstimate [Floats] (encode : Tokenizer) (book : Book) : Event → Prop
  | .turn i reply =>
    match book.slots[i]? with
    | some ⟨provider, request, charged, .act a _⟩ =>
      Estimated encode provider request charged a (answer book.router a reply).1
    | _ => True
  | _ => True

/-- A response costs at most what was charged for it. -/
def Paid (charged : ℚ) : Outcome → Prop
  | .ok response => response.costUsd ≤ charged
  | .error _ => True

/-- What the calls were charged covers what they cost, and the budget covers what they were
charged. -/
structure Covered [Floats] (encode : Tokenizer) (budget : ℚ) (book : Book) : Prop where
  slots : ∀ slot ∈ book.slots, 0 ≤ slot.charged ∧
    slot.routine.Along granted (Estimated encode slot.provider slot.request) Paid slot.charged
  charged : (book.slots.map Slot.charged).sum ≤ book.router.costTracker.hourlySpent
  spent : book.router.costTracker.hourlySpent ≤ budget
  budget_eq : book.router.costTracker.hourlyBudget = budget

section Calls

variable {encode : Tokenizer} {provider : ModelProvider} {request : LLMRequest}

theorem reportedCost_of_readBody [Floats] {modelConfig : Dict} {latencyMs : ℚ} {data : Json}
    {response : LLMResponse}
    (h : readBody provider request modelConfig latencyMs data = .ok response) :
    reportedCost modelConfig data = .ok response.costUsd := by
  unfold readBody at h
  obtain ⟨choices, -, h⟩ := bind_eq_ok.mp h
  obtain ⟨choice, -, h⟩ := bind_eq_ok.mp h
  obtain ⟨message, -, h⟩ := bind_eq_ok.mp h
  obtain ⟨content, -, h⟩ := bind_eq_ok.mp h
  obtain ⟨usage, husage, h⟩ := bind_eq_ok.mp h
  obtain ⟨tokensIn, hin, h⟩ := bind_eq_ok.mp h
  obtain ⟨usage', husage', h⟩ := bind_eq_ok.mp h
  obtain ⟨tokensOut, hout, h⟩ := bind_eq_ok.mp h
  obtain ⟨actualCost, hcost, h⟩ := bind_eq_ok.mp h
  obtain ⟨_, -, h⟩ := bind_eq_ok.mp h
  obtain ⟨_, -, h⟩ := bind_eq_ok.mp h
  obtain ⟨finishReason, -, h⟩ := bind_eq_ok.mp h
  cases h
  unfold reportedCost
  rw [bind_of_ok husage, bind_of_ok hin, bind_of_ok husage', bind_of_ok hout]
  exact hcost

theorem callProvider_paid [Floats] (config : RoutingConfig) (providerId : String) :
    (callProvider config encode providerId provider request).Along granted
      (Estimated encode provider request) Paid 0 := by
  refine callProvider_along (fun g e => trivial) (fun latencyMs error => le_refl 0) ?_
  intro modelConfig estCost hquote hgranted
  refine ⟨fun latencyMs error => ?_, ?_⟩
  · change 0 ≤ 0 + estCost
    rw [zero_add]
    exact hgranted
  · intro url headers payload data latencyMs response _ hjson hread
    change response.costUsd ≤ 0 + estCost
    rw [zero_add]
    have hwithin : UsageWithin encode provider request data := hjson
    unfold UsageWithin at hwithin
    rw [hquote] at hwithin
    dsimp only at hwithin
    rw [reportedCost_of_readBody hread] at hwithin
    exact hwithin

end Calls
/-! Costs are taken as exact from here on. -/

open scoped Floats.Exact

section Steps

variable {encode : Tokenizer} {budget : ℚ} {book book' : Book}

theorem Covered.paid_le (h : Covered encode budget book) : book.paid ≤ budget := by
  have hslot : ∀ slot ∈ book.slots, slot.paid ≤ slot.charged := by
    intro slot hslot
    obtain ⟨hcharged, halong⟩ := h.slots slot hslot
    unfold Slot.paid
    split
    · next response hdone =>
      rw [hdone] at halong
      exact halong
    · exact hcharged
  exact (List.sum_le_sum hslot).trans (h.charged.trans h.spent)

theorem sum_set {slots : List Slot} {i : ℕ} {slot : Slot} (hi : slots[i]? = some slot)
    (slot' : Slot) : ((slots.set i slot').map Slot.charged).sum =
      (slots.map Slot.charged).sum + (slot'.charged - slot.charged) := by
  obtain ⟨hlt, rfl⟩ := List.getElem?_eq_some_iff.mp hi
  have hlen : i < (slots.map Slot.charged).length := by rwa [List.length_map]
  rw [List.map_set, List.sum_set', dif_pos hlen, List.getElem_map, neg_add_eq_sub]

theorem chargeSync_of_le {t : CostTracker} {time : ℚ} (h : time - t.hourStart ≤ 3600) (cost : ℚ) :
    t.chargeSync time cost = if t.hourlyBudget < t.hourlySpent + cost then (false, t)
      else (true, { t with hourlySpent := t.hourlySpent + cost }) := by
  have hsame : ¬ 3600 < Floats.sub time t.hourStart := not_lt.mpr h
  unfold CostTracker.chargeSync CostTracker.refresh
  rw [if_neg hsame]
  rfl

theorem observeLatency_costTracker (router : ModelRouter) (providerId : String) (latencyMs : ℚ) :
    (router.observeLatency providerId latencyMs).costTracker = router.costTracker := by
  unfold ModelRouter.observeLatency
  cases router.providers.lookup providerId <;> rfl

/-- What an action does to the tracker: a charge that is granted is booked, and nothing else is. -/
theorem answer_tracker (router : ModelRouter) (a : Action) (reply : Reply)
    (hhour : ∀ cost, a = .charge cost → reply.clock - router.costTracker.hourStart ≤ 3600)
    (hspent : router.costTracker.hourlySpent ≤ router.costTracker.hourlyBudget) (charged : ℚ) :
    (answer router a reply).2.costTracker.hourlySpent = router.costTracker.hourlySpent +
        (granted charged a (answer router a reply).1 - charged) ∧
      (answer router a reply).2.costTracker.hourlySpent ≤ router.costTracker.hourlyBudget ∧
      (answer router a reply).2.costTracker.hourlyBudget = router.costTracker.hourlyBudget := by
  have hkeep : router.costTracker.hourlySpent + (charged - charged) =
      router.costTracker.hourlySpent := by rw [sub_self, add_zero]
  cases a with
  | charge cost =>
    have hcharge := chargeSync_of_le (hhour cost rfl) cost
    by_cases hover : router.costTracker.hourlyBudget < router.costTracker.hourlySpent + cost
    · rw [if_pos hover] at hcharge
      unfold answer
      dsimp only
      rw [hcharge]
      exact ⟨hkeep.symm, hspent, rfl⟩
    · rw [if_neg hover] at hcharge
      unfold answer
      dsimp only
      rw [hcharge]
      refine ⟨?_, not_lt.mp hover, rfl⟩
      change _ = _ + (charged + cost - charged)
      rw [add_sub_cancel_left]
  | observeLatency providerId latencyMs =>
    unfold answer
    dsimp only
    rw [observeLatency_costTracker]
    exact ⟨hkeep.symm, hspent, rfl⟩
  | _ => exact ⟨hkeep.symm, hspent, rfl⟩

theorem granted_nonneg {provider : ModelProvider} {request : LLMRequest} {charged : ℚ}
    (hcharged : 0 ≤ charged) {a : Action} {r : a.Reply}
    (hest : Estimated encode provider request charged a r) : 0 ≤ granted charged a r := by
  cases a with
  | charge cost =>
    cases r with
    | false => exact hcharged
    | true => exact add_nonneg hcharged hest
  | _ => exact hcharged

theorem Covered.set (h : Covered encode budget book) {i : ℕ} {slot : Slot}
    (hi : book.slots[i]? = some slot) (slot' : Slot) {router : ModelRouter}
    (hslot' : 0 ≤ slot'.charged ∧ slot'.routine.Along granted
      (Estimated encode slot'.provider slot'.request) Paid slot'.charged)
    (hbooked : router.costTracker.hourlySpent =
      book.router.costTracker.hourlySpent + (slot'.charged - slot.charged))
    (hspent : router.costTracker.hourlySpent ≤ budget)
    (hbudget : router.costTracker.hourlyBudget = budget) :
    Covered encode budget ⟨router, book.slots.set i slot'⟩ where
  slots slot'' hmem := by
    rcases List.mem_or_eq_of_mem_set hmem with hmem | rfl
    · exact h.slots slot'' hmem
    · exact hslot'
  charged := by
    rw [sum_set hi, hbooked]
    exact add_le_add_left h.charged _
  spent := hspent
  budget_eq := hbudget

theorem Covered.step (h : Covered encode budget book) {event : Event} (hhour : SameHour book event)
    (hest : WithinEstimate encode book event) (hstep : book.step encode event = some book') :
    Covered encode budget book' := by
  cases event with
  | begin providerId provider request =>
    cases hstep
    refine ⟨fun slot hslot => ?_, ?_, h.spent, h.budget_eq⟩
    · rcases List.mem_append.mp hslot with hslot | hslot
      · exact h.slots slot hslot
      · rw [List.mem_singleton.mp hslot]
        exact ⟨le_refl 0, callProvider_paid _ providerId⟩
    · rw [List.map_append, List.sum_append, List.map_singleton, List.sum_singleton, add_zero]
      exact h.charged
  | turn i reply =>
    unfold Book.step at hstep
    dsimp only at hstep
    split at hstep
    · next provider request charged a resume hi =>
      cases hstep
      obtain ⟨hcharged, halong⟩ := h.slots _ (List.mem_of_getElem? hi)
      have hreply : Estimated encode provider request charged a (answer book.router a reply).1 := by
        rw [WithinEstimate, hi] at hest
        exact hest
      have htime : ∀ cost, a = .charge cost →
          reply.clock - book.router.costTracker.hourStart ≤ 3600 := by
        rintro cost rfl
        rw [SameHour, hi] at hhour
        exact hhour
      have hspent := h.spent
      rw [← h.budget_eq] at hspent
      obtain ⟨hbooked, hspent', hbudget⟩ :=
        answer_tracker book.router a reply htime hspent charged
      rw [h.budget_eq] at hspent' hbudget
      exact h.set hi _ ⟨granted_nonneg hcharged hreply, halong _ hreply⟩ hbooked hspent' hbudget
    · cases hstep
  | cancel i =>
    unfold Book.step at hstep
    dsimp only at hstep
    split at hstep
    · next provider request charged a resume hi =>
      cases hstep
      obtain ⟨hcharged, -⟩ := h.slots _ (List.mem_of_getElem? hi)
      refine h.set hi _ ⟨hcharged, trivial⟩ ?_ h.spent h.budget_eq
      rw [sub_self, add_zero]
    · cases hstep

end Steps
/-- Responses cost no more than the budget, in every state that calls reach within an hour of the
tracker, when they charge no negative estimate and read no usage beyond their estimate. -/
theorem paid_le_budget (encode : Tokenizer) (router : ModelRouter)
    (hspent : router.costTracker.hourlySpent = 0) (hbudget : 0 ≤ router.costTracker.hourlyBudget)
    (events : List Event) (hhour : Run.AllSteps (Book.step encode) SameHour ⟨router, []⟩ events)
    (hest : Run.AllSteps (Book.step encode) (WithinEstimate encode) ⟨router, []⟩ events)
    {book : Book} (hrun : Run.run (Book.step encode) ⟨router, []⟩ events = some book) :
    book.paid ≤ router.costTracker.hourlyBudget := by
  have hstart : Covered encode router.costTracker.hourlyBudget ⟨router, []⟩ :=
    ⟨fun slot hslot => absurd hslot List.not_mem_nil, hspent.ge, hspent.le.trans hbudget, rfl⟩
  have hboth : Run.AllSteps (Book.step encode)
      (fun book event => SameHour book event ∧ WithinEstimate encode book event)
      ⟨router, []⟩ events := by
    rw [Run.allSteps_iff] at hhour hest ⊢
    exact fun m i r s hl hr => ⟨hhour m i r s hl hr, hest m i r s hl hr⟩
  exact (Run.invariant_of_step (fun _ _ _ h hcond hstep => h.step hcond.1 hcond.2 hstep) hstart
    hboth hrun).paid_le

/-! The conditions can be checked on a given run. -/

instance (book : Book) : DecidablePred (SameHour book)
  | .begin _ _ _ => inferInstanceAs (Decidable True)
  | .cancel _ => inferInstanceAs (Decidable True)
  | .turn i reply => by
    unfold SameHour
    dsimp only
    split <;> infer_instance

instance (encode : Tokenizer) (provider : ModelProvider) (request : LLMRequest) (data : Json) :
    Decidable (UsageWithin encode provider request data) := by
  unfold UsageWithin
  split
  · split <;> infer_instance
  · infer_instance

instance (encode : Tokenizer) (provider : ModelProvider) (request : LLMRequest) (charged : ℚ) :
    ∀ (a : Action) (r : a.Reply), Decidable (Estimated encode provider request charged a r)
  | .charge cost, true => inferInstanceAs (Decidable (0 ≤ cost))
  | .charge _, false => inferInstanceAs (Decidable True)
  | .readJson, .value data => inferInstanceAs (Decidable (UsageWithin encode provider request data))
  | .readJson, .timeout => inferInstanceAs (Decidable True)
  | .readJson, .raised _ => inferInstanceAs (Decidable True)
  | .now, _ => inferInstanceAs (Decidable True)
  | .post _ _ _, _ => inferInstanceAs (Decidable True)
  | .readText, _ => inferInstanceAs (Decidable True)
  | .sleep _, _ => inferInstanceAs (Decidable True)
  | .observeLatency _ _, _ => inferInstanceAs (Decidable True)
  | .random, _ => inferInstanceAs (Decidable True)

instance (encode : Tokenizer) (book : Book) : DecidablePred (WithinEstimate encode book)
  | .begin _ _ _ => inferInstanceAs (Decidable True)
  | .cancel _ => inferInstanceAs (Decidable True)
  | .turn i reply => by
    unfold WithinEstimate
    dsimp only
    split <;> infer_instance

def bodyWith (promptTokens completionTokens : ℤ) : Json :=
  .dict [("choices", .list [.dict [("message", .dict [("content", .str "hello")])]]),
    ("usage", .dict [("prompt_tokens", .int promptTokens),
      ("completion_tokens", .int completionTokens)])]

/-- A server that answers with the body at once. -/
def replyWith (body : Json) : Reply where
  clock := 0
  random := default
  status := .value 200
  json := .value body
  text := .value ""

def oneCall (body : Json) : List Event :=
  .begin "a" (providerOfM "a") (hello.forModel "a" "m") ::
    List.replicate 6 (.turn 0 (replyWith body))

def noEncoding : Tokenizer := fun _ _ => none

/-- The request is estimated at 4, which is the whole budget, and the usage costs 4. -/
theorem paid_le_budget_exact : ∃ book,
    Run.run (Book.step noEncoding) ⟨routerOf ["a/m"] none 4, []⟩ (oneCall (bodyWith 3 1)) =
      some book ∧ book.paid = 4 ∧
        book.paid ≤ (routerOf ["a/m"] none 4).costTracker.hourlyBudget := by
  have hpaid : (Run.run (Book.step noEncoding) ⟨routerOf ["a/m"] none 4, []⟩
      (oneCall (bodyWith 3 1))).map Book.paid = some 4 := by decide +kernel
  obtain ⟨book, hrun, hbook⟩ := Option.map_eq_some_iff.mp hpaid
  exact ⟨book, hrun, hbook, paid_le_budget noEncoding (routerOf ["a/m"] none 4) rfl
    (by decide +kernel) _ (by decide +kernel) (by decide +kernel) hrun⟩

/-- The request is estimated at 4, which is the whole budget, and the usage costs 5. -/
theorem budget_overrun : ∃ book,
    Run.run (Book.step noEncoding) ⟨routerOf ["a/m"] none 4, []⟩ (oneCall (bodyWith 5 0)) =
      some book ∧
    Run.AllSteps (Book.step noEncoding) SameHour ⟨routerOf ["a/m"] none 4, []⟩
      (oneCall (bodyWith 5 0)) ∧
    ¬ book.paid ≤ (routerOf ["a/m"] none 4).costTracker.hourlyBudget := by
  have hpaid : (Run.run (Book.step noEncoding) ⟨routerOf ["a/m"] none 4, []⟩
      (oneCall (bodyWith 5 0))).map Book.paid = some 5 := by decide +kernel
  obtain ⟨book, hrun, hbook⟩ := Option.map_eq_some_iff.mp hpaid
  refine ⟨book, hrun, by decide +kernel, ?_⟩
  rw [hbook]
  decide +kernel

end LingNet.Router
