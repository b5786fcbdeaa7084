import LingNet.Router.Budget

/-! The retry policy: which attempts of a call are followed by another one. -/
namespace LingNet.Router
open Py Coroutine

/-- What an attempt meets: the status, or how `session.post` fails, and what reading the body
comes to. -/
structure PostOutcome where
  status : Awaited ℕ
  json : Awaited Json := .value .none
  text : Awaited String := .value ""

/-- What a call has done so far. -/
structure Transcript where
  charges : List ℚ := []
  posts : ℕ := 0

/-- What an attempt comes to. -/
inductive AttemptResult where
  | success (response : LLMResponse)
  | refused (status : ℕ) (errorText : String)
  | timedOut
  | failed (e : Exn)

namespace AttemptResult

/-- The class under which an attempt may be retried. -/
def failureClass : AttemptResult → Option String
  | .success _ => none
  | .refused status _ =>
    if status = 429 then some "rate_limit"
    else if 500 ≤ status ∧ status < 600 then some "server_error"
    else none
  | .timedOut => some "timeout"
  | .failed _ => some "server_error"

/-- The policy: an attempt is retried when its class is in the list. -/
def ByClass (config : RoutingConfig) (r : AttemptResult) : Prop :=
  ∃ cls, r.failureClass = some cls ∧ cls ∈ config.retryOnErrors

/-- The tests of the code. -/
def ByCode (config : RoutingConfig) : AttemptResult → Prop
  | .success _ => False
  | .refused status errorText => status ∈ [429, 500, 502, 503] ∧ mentionsRateLimit errorText ∧
      "rate_limit" ∈ config.retryOnErrors
  | .timedOut => "timeout" ∈ config.retryOnErrors
  | .failed _ => "server_error" ∈ config.retryOnErrors

/-- The response that reports the attempt. -/
def response (provider : ModelProvider) (request : LLMRequest) (latencyMs : ℚ) :
    AttemptResult → LLMResponse
  | .success r => r
  | .refused status errorText => errorResponse provider request latencyMs
      ("HTTP " ++ toString status ++ ": " ++ errorText)
  | .timedOut => errorResponse provider request latencyMs "Request timeout"
  | .failed e => errorResponse provider request latencyMs e.text

end AttemptResult

section Policy

variable (config : RoutingConfig) (provider : ModelProvider) (request : LLMRequest)
  (modelConfig : Dict)

def PostOutcome.result [Floats] (latencyMs : ℚ) (o : PostOutcome) : AttemptResult :=
  match o.status with
  | .timeout => .timedOut
  | .raised e => .failed e
  | .value status =>
    if status = 200 then
      match o.json with
      | .timeout => .timedOut
      | .raised e => .failed e
      | .value data =>
        match readBody provider request modelConfig latencyMs data with
        | .ok response => .success response
        | .error e => .failed e
    else
      match o.text with
      | .timeout => .timedOut
      | .raised e => .failed e
      | .value errorText => .refused status errorText

/-- A call that retries the attempts that are `Retryable`: it charges once, an attempt is followed
by another one exactly when it is retryable and one is left, and the last one is reported. -/
structure Follows [Floats] (Retryable : AttemptResult → Prop) (estCost : ℚ)
    (outcomes : ℕ → PostOutcome)
    (outcome : Outcome) (t : Transcript) : Prop where
  one_charge : t.charges = [estCost]
  posts_pos : 0 < t.posts
  posts_le : (t.posts : ℤ) ≤ config.retryCount + 1
  retries_iff : ∀ k < t.posts, k + 1 < t.posts ↔
    (k : ℤ) < config.retryCount ∧ Retryable ((outcomes k).result provider request modelConfig 0)
  returns_last : ∃ latencyMs responseMs, outcome = .ok
    (((outcomes (t.posts - 1)).result provider request modelConfig latencyMs).response
      provider request responseMs)

def AttemptResult.attemptEnd (attempt : ℤ) (responseMs : ℚ) : AttemptResult → AttemptEnd
  | .success r => .response r
  | .refused status errorText =>
    if status ∈ [429, 500, 502, 503] ∧ mentionsRateLimit errorText ∧
        "rate_limit" ∈ config.retryOnErrors ∧ attempt < config.retryCount then .retry
    else .response (errorResponse provider request responseMs
      ("HTTP " ++ toString status ++ ": " ++ errorText))
  | .timedOut => .timeout
  | .failed e => .raised e

end Policy

section Run

variable {config : RoutingConfig} {providerId : String} {provider : ModelProvider}
  {request : LLMRequest} {modelConfig : Dict}

/-- What the loop comes to from an attempt on: the attempts before the last one are retried by the
code, and the last one is not. -/
structure LoopEnd [Floats] (config : RoutingConfig) (provider : ModelProvider)
    (request : LLMRequest)
    (modelConfig : Dict) (outcomes : ℕ → PostOutcome) (first : Transcript)
    (r : LLMResponse × Transcript) : Prop where
  charges_eq : r.2.charges = first.charges
  lt_posts : first.posts < r.2.posts
  retried : ∀ k, first.posts ≤ k → k + 1 < r.2.posts → (k : ℤ) < config.retryCount ∧
    ((outcomes k).result provider request modelConfig 0).ByCode config
  stopped : ¬ (((r.2.posts - 1 : ℕ) : ℤ) < config.retryCount ∧
    ((outcomes (r.2.posts - 1)).result provider request modelConfig 0).ByCode config)
  reports : ∃ latencyMs responseMs, r.1 =
    ((outcomes (r.2.posts - 1)).result provider request modelConfig latencyMs).response
      provider request responseMs

section Loop

variable {outcomes : ℕ → PostOutcome} {t : Transcript} {r : LLMResponse × Transcript}

theorem LoopEnd.last [Floats] (ht : r.2 = { t with posts := t.posts + 1 })
    (hstop : ¬ ((t.posts : ℤ) < config.retryCount ∧
      ((outcomes t.posts).result provider request modelConfig 0).ByCode config))
    (hreport : ∃ latencyMs responseMs, r.1 =
      ((outcomes t.posts).result provider request modelConfig latencyMs).response provider request
        responseMs) : LoopEnd config provider request modelConfig outcomes t r := by
  have hposts : r.2.posts = t.posts + 1 := by rw [ht]
  have hlast : r.2.posts - 1 = t.posts := by omega
  refine ⟨by rw [ht], by omega, ?_, by rwa [hlast], by rwa [hlast]⟩
  intro k hfirst hlt
  omega

theorem LoopEnd.next [Floats] (h : LoopEnd config provider request modelConfig outcomes
      { t with posts := t.posts + 1 } r)
    (hleft : (t.posts : ℤ) < config.retryCount)
    (hretry : ((outcomes t.posts).result provider request modelConfig 0).ByCode config) :
    LoopEnd config provider request modelConfig outcomes t r := by
  have hlt : t.posts + 1 < r.2.posts := h.lt_posts
  refine ⟨h.charges_eq, by omega, ?_, h.stopped, h.reports⟩
  intro k hfirst hk
  rcases Nat.eq_or_lt_of_le hfirst with rfl | hbehind
  · exact ⟨hleft, hretry⟩
  · exact h.retried k hbehind hk

end Loop

/-- The policy comes to an attempt when it retries all those before it. -/
def Reaches [Floats] (config : RoutingConfig) (provider : ModelProvider) (request : LLMRequest)
    (modelConfig : Dict) (outcomes : ℕ → PostOutcome) (k : ℕ) : Prop :=
  ∀ j < k, (j : ℤ) < config.retryCount ∧
    ((outcomes j).result provider request modelConfig 0).ByClass config

end Run

open scoped Floats.Binary64

end LingNet.Router
