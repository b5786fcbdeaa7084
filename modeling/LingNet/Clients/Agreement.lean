import LingNet.Clients.Adapters

/-! The awaited calls do what the synchronous ones do. -/
namespace LingNet.Clients
open Py Coroutine

/-- Responses that differ in their latency only. -/
def SameButLatency (r r' : ModelResponse) : Prop :=
  { r with latencyMs := 0 } = { r' with latencyMs := 0 }

section Loops

variable {request : Request}

theorem alike_post {k l : Posted → Routine LoopEnd}
    (h : ∀ posted, Alike answer Eq (k posted) (l posted)) :
    Alike answer Eq (httpxPost request >>= k) (awaitPost request >>= l) :=
  .act (fun _ _ _ => rfl) fun w _ _ => h (w.outcomes 0)

theorem alike_sleep {seconds : ℕ} {p q : Routine LoopEnd} (h : Alike answer Eq p q) :
    Alike answer Eq (do sleep seconds; p) (do awaitSleep seconds; q) :=
  .act (fun _ _ _ => rfl) fun _ _ _ => h

/-- Round by round, the loops are alike. -/
theorem alike_loops (request : Request) (left attempt : ℕ) (lastErr : Option Exn) :
    Alike answer Eq (postLoop request left attempt lastErr)
      (apostLoop request left attempt lastErr) := by
  induction left generalizing attempt lastErr with
  | zero => exact .done rfl
  | succ left ih =>
    unfold postLoop apostLoop
    refine alike_post fun posted => ?_
    cases posted with
    | response r =>
      dsimp only
      split_ifs
      · exact alike_sleep (ih _ _)
      · exact .done rfl
      · exact alike_sleep (ih _ _)
      · exact .done rfl
    | timeout text => exact alike_sleep (ih _ _)
    | raised e => exact .done rfl

/-- To open and to close a client has no effect of its own. -/
theorem alike_withClient {p q : Routine LoopEnd} (h : Alike answer Eq p q) :
    Alike answer Eq p (withClient q) := by
  refine .act_right (fun _ _ => rfl) fun _ => ?_
  rw [← bind_done p]
  refine h.bind fun loopEnd loopEnd' heq => ?_
  rw [heq]
  exact .act_right (fun _ _ => rfl) fun _ => .done rfl

/-- `_post` and `_apost` are alike. -/
theorem alike_apost (headers : List (String × String)) (url : String) (payload : Json)
    (timeout : ℚ) :
    Alike answer Eq (post headers url payload timeout) (apost headers url payload timeout) := by
  unfold post apost
  refine (alike_withClient (alike_loops _ _ _ _)).bind ?_
  intro r r' hr
  rw [hr]
  exact .done rfl

end Loops

section Respond

variable {self : BaseModelClient}

theorem alike_now {k l : ℚ → Routine ModelResponse}
    (h : ∀ time time', Alike answer SameButLatency (k time) (l time')) :
    Alike answer SameButLatency (monotonic >>= k) (monotonic >>= l) :=
  .act (fun _ _ _ => rfl) fun _ time time' => h time time'

theorem alike_failed (start start' : ℚ) (e : Exn) :
    Alike answer SameButLatency (self.failed start e) (self.failed start' e) :=
  alike_now fun _ _ => .done rfl

theorem alike_answered (start start' : ℚ) (read : Json → Except Exn (Json × Json))
    (cost : Json → Except Exn ℚ) (r : Response) :
    Alike answer SameButLatency (self.answered start read cost r)
      (self.answered start' read cost r) := by
  unfold BaseModelClient.answered
  split
  · exact alike_failed start start' _
  · refine alike_now fun time time' => ?_
    split
    · exact alike_failed start start' _
    · exact .done rfl

/-- Responses that are made of the same payload and the same reading, with posts that are alike. -/
theorem alike_respond {payload : Except Exn Json}
    {post post' : Json → Routine (Except Exn Response)} {read : Json → Except Exn (Json × Json)}
    {cost : Json → Except Exn ℚ}
    (hpost : ∀ payload, Alike answer Eq (post payload) (post' payload)) :
    Alike answer SameButLatency (self.respond payload post read cost)
      (self.respond payload post' read cost) := by
  refine alike_now fun start start' => ?_
  cases payload with
  | error e => exact alike_failed start start' e
  | ok payload =>
    refine (hpost payload).bind fun posted posted' heq => ?_
    rw [← heq]
    cases posted with
    | error e => exact alike_failed start start' e
    | ok r => exact alike_answered start start' read cost r

end Respond

/-- The awaited call of an adapter and its synchronous one are alike. -/
theorem alike_acomplete (adapter : Adapter) (self : BaseModelClient) (messages : List Json)
    (kwargs : Kwargs) :
    Alike answer SameButLatency (adapter.complete self messages kwargs)
      (adapter.acomplete self messages kwargs) := by
  cases adapter with
  | openai =>
    unfold Adapter.complete Adapter.acomplete OpenAIClient.complete OpenAIClient.acomplete
    exact alike_respond fun payload => alike_apost _ _ payload 30
  | anthropic =>
    unfold Adapter.complete Adapter.acomplete AnthropicClient.complete AnthropicClient.acomplete
    exact alike_respond fun payload => alike_apost _ _ payload 30
  | google =>
    unfold Adapter.complete Adapter.acomplete GoogleClient.complete GoogleClient.acomplete
    exact alike_respond fun payload => alike_apost _ _ payload 30
  | ollama =>
    unfold Adapter.complete Adapter.acomplete OllamaClient.complete OllamaClient.acomplete
    exact alike_respond fun payload => alike_apost _ _ payload 30
  | cohere =>
    unfold Adapter.complete Adapter.acomplete CohereClient.acomplete CohereClient.complete
    exact alike_respond fun payload => (alike_apost _ _ payload 30).refl_left
  | minimax =>
    unfold Adapter.complete Adapter.acomplete MinimaxClient.complete MinimaxClient.acomplete
    exact alike_respond fun payload => alike_apost _ _ payload 30

/-- Whatever the service answers and whenever, `_post` and `_apost` return or raise the same behind
the same requests and delays, and so do `complete` and `acomplete` of each adapter, but for the
latency. -/
theorem acomplete_agrees :
    (∀ headers url payload timeout (wire : Wire) (clock clock' : ℕ → ℚ),
      (post headers url payload timeout).run answer clock wire =
        (apost headers url payload timeout).run answer clock' wire) ∧
    ∀ (adapter : Adapter) self messages kwargs (wire : Wire) (clock clock' : ℕ → ℚ),
      SameButLatency ((adapter.complete self messages kwargs).run answer clock wire).1
          ((adapter.acomplete self messages kwargs).run answer clock' wire).1 ∧
        ((adapter.complete self messages kwargs).run answer clock wire).2 =
          ((adapter.acomplete self messages kwargs).run answer clock' wire).2 := by
  constructor
  · intro headers url payload timeout wire clock clock'
    obtain ⟨hresult, hwire⟩ := alike_apost headers url payload timeout clock clock' wire
    exact Prod.ext hresult hwire
  · intro adapter self messages kwargs wire clock clock'
    exact alike_acomplete adapter self messages kwargs clock clock' wire

end LingNet.Clients
