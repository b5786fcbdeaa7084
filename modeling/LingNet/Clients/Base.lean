import Mathlib.Algebra.Order.Field.Rat
import LingNet.Lib.Coroutine
import LingNet.Py.Value

/-! The base of the clients of the model services: posts with their retries, in the synchronous way
and in the awaited way, and the response that is made of an answer. Numbers are exact. -/
namespace LingNet.Clients
open Py Coroutine

/-- A response of the HTTP client: its status, what `raise_for_status` says if that is no success,
and its decoded body. -/
structure Response where
  statusCode : ℕ
  statusError : String
  json : Except Exn Json

/-- How a post ends. -/
inductive Posted where
  | response (r : Response)
  | timeout (text : String)
  | raised (e : Exn)

structure Request where
  url : String
  payload : Json
  headers : List (String × String)
  timeout : ℚ

/-- What a client asks of its surroundings, on its own or as a task of the event loop. -/
inductive Action where
  | monotonic
  | post (request : Request)
  | sleep (seconds : ℕ)
  | openClient
  | closeClient
  | awaitPost (request : Request)
  | awaitSleep (seconds : ℕ)

abbrev Action.Reply : Action → Type
  | .monotonic => ℚ
  | .post _ => Posted
  | .sleep _ => Unit
  | .openClient => Unit
  | .closeClient => Unit
  | .awaitPost _ => Posted
  | .awaitSleep _ => Unit

abbrev Routine := Coroutine Action Action.Reply

/-- `time.monotonic()` -/
def monotonic : Routine ℚ := perform Action.monotonic

/-- `httpx.post(…)` -/
def httpxPost (request : Request) : Routine Posted := perform (Action.post request)

/-- `time.sleep(seconds)` -/
def sleep (seconds : ℕ) : Routine Unit := perform (Action.sleep seconds)

/-- `await client.post(…)` -/
def awaitPost (request : Request) : Routine Posted := perform (Action.awaitPost request)

/-- `await asyncio.sleep(seconds)` -/
def awaitSleep (seconds : ℕ) : Routine Unit := perform (Action.awaitSleep seconds)

/-- `async with httpx.AsyncClient() as client` -/
def withClient {α : Type} (body : Routine α) : Routine α := do
  perform Action.openClient
  let a ← body
  perform Action.closeClient
  pure a

inductive Effect where
  | request (r : Request)
  | delay (seconds : ℕ)

/-- The outcomes of the posts to come, and what was done so far. -/
structure Wire where
  outcomes : ℕ → Posted
  trace : List Effect := []

namespace Wire

def posted (w : Wire) (request : Request) : Posted × Wire :=
  (w.outcomes 0, ⟨fun n => w.outcomes (n + 1), w.trace ++ [.request request]⟩)

def delayed (w : Wire) (seconds : ℕ) : Wire := { w with trace := w.trace ++ [.delay seconds] }

end Wire

/-- The clock is all that the environment has to say. -/
def answer : Handler Wire Action Action.Reply ℚ
  | w, .monotonic, time => (time, w)
  | w, .post request, _ => w.posted request
  | w, .sleep seconds, _ => ((), w.delayed seconds)
  | w, .openClient, _ => ((), w)
  | w, .closeClient, _ => ((), w)
  | w, .awaitPost request, _ => w.posted request
  | w, .awaitSleep seconds, _ => ((), w.delayed seconds)

/-- How the loop over the attempts is left. -/
inductive LoopEnd where
  | returned (r : Response)
  | raised (e : Exn)
  | over (lastErr : Option Exn)

/-- `raise last_err or httpx.HTTPError("Max retries exceeded")` behind the loop. -/
def LoopEnd.result : LoopEnd → Except Exn Response
  | .returned r => .ok r
  | .raised e => .error e
  | .over lastErr => .error (lastErr.getD ⟨.other "HTTPError", "Max retries exceeded"⟩)

namespace Response

def isSuccess (r : Response) : Bool := 200 ≤ r.statusCode ∧ r.statusCode < 300

/-- `httpx.HTTPStatusError` -/
def httpStatusError (r : Response) : Exn := ⟨.other "HTTPStatusError", r.statusError⟩

end Response

/-- `httpx.TimeoutException` -/
def timeoutException (text : String) : Exn := ⟨.other "TimeoutException", text⟩

section Loops

variable (request : Request)

/-- The loop of `_post` over the attempts that are left. -/
def postLoop : ℕ → ℕ → Option Exn → Routine LoopEnd
  | 0, _, lastErr => pure (.over lastErr)
  | left + 1, attempt, lastErr => do
    match ← httpxPost request with
    | .response r =>
      if r.statusCode = 429 then do
        sleep (2 ^ attempt)
        postLoop left (attempt + 1) lastErr
      else if r.isSuccess then pure (.returned r)
      else if r.statusCode ∈ [500, 502, 503] then do
        sleep (2 ^ attempt)
        postLoop left (attempt + 1) (some r.httpStatusError)
      else pure (.raised r.httpStatusError)
    | .timeout text => do
      sleep (2 ^ attempt)
      postLoop left (attempt + 1) (some (timeoutException text))
    | .raised e => pure (.raised e)

/-- The loop of `_apost`. -/
def apostLoop : ℕ → ℕ → Option Exn → Routine LoopEnd
  | 0, _, lastErr => pure (.over lastErr)
  | left + 1, attempt, lastErr => do
    match ← awaitPost request with
    | .response r =>
      if r.statusCode = 429 then do
        awaitSleep (2 ^ attempt)
        apostLoop left (attempt + 1) lastErr
      else if r.isSuccess then pure (.returned r)
      else if r.statusCode ∈ [500, 502, 503] then do
        awaitSleep (2 ^ attempt)
        apostLoop left (attempt + 1) (some r.httpStatusError)
      else pure (.raised r.httpStatusError)
    | .timeout text => do
      awaitSleep (2 ^ attempt)
      apostLoop left (attempt + 1) (some (timeoutException text))
    | .raised e => pure (.raised e)

end Loops

/-- `_post`, with the headers of the class. -/
def post (headers : List (String × String)) (url : String) (payload : Json) (timeout : ℚ) :
    Routine (Except Exn Response) := do
  let loopEnd ← postLoop ⟨url, payload, headers, timeout⟩ 3 0 none
  pure loopEnd.result

/-- `_apost` -/
def apost (headers : List (String × String)) (url : String) (payload : Json) (timeout : ℚ) :
    Routine (Except Exn Response) := do
  let loopEnd ← withClient (apostLoop ⟨url, payload, headers, timeout⟩ 3 0 none)
  pure loopEnd.result

structure ModelResponse where
  text : Json
  tokensUsed : Json
  cost : ℚ
  latencyMs : ℚ
  provider : String
  model : String
  raw : Json := .none
  success : Bool := true
  error : String := ""

structure BaseModelClient where
  name : String
  baseUrl : String
  apiKey : String
  model : String
  costPer1kTokens : ℚ
  maxTokens : ℤ

/-- The keyword arguments of a call. -/
abbrev Kwargs := List (String × Json)

/-- `kwargs.get(key, default)` -/
def Kwargs.get (kwargs : Kwargs) (key : String) (default : Json) : Json :=
  (kwargs.lookup key).getD default

namespace BaseModelClient

variable (self : BaseModelClient)

/-- `_compute_cost` -/
def computeCost (tokens : Json) : Except Exn ℚ :=
  match tokens.number? with
  | some t => .ok (self.costPer1kTokens * (t / 1000))
  | none => Json.typeError (Json.unsupported "/" tokens.typeName "int")

/-- `_headers` -/
def headers : List (String × String) :=
  [("Authorization", "Bearer " ++ self.apiKey), ("Content-Type", "application/json")]

/-- The response to an exception. -/
def failed (start : ℚ) (e : Exn) : Routine ModelResponse := do
  let time ← monotonic
  pure { text := .str "", tokensUsed := .int 0, cost := 0, latencyMs := (time - start) * 1000,
         provider := self.name, model := self.model, success := false, error := e.text }

/-- The response that is made of an answer. The clock is read before the cost is computed. -/
def answered (start : ℚ) (read : Json → Except Exn (Json × Json)) (cost : Json → Except Exn ℚ)
    (r : Response) : Routine ModelResponse :=
  match (do let data ← r.json; pure (data, ← read data)) with
  | .error e => self.failed start e
  | .ok (data, text, tokens) => do
    let time ← monotonic
    match cost tokens with
    | .error e => self.failed start e
    | .ok cost =>
      pure { text := text, tokensUsed := tokens, cost := cost, latencyMs := (time - start) * 1000,
             provider := self.name, model := self.model, raw := data }

/-- What `complete` and `acomplete` have in common: the payload is posted, text and tokens are read
from the answer, and an exception on the way makes a response. -/
def respond (payload : Except Exn Json) (post : Json → Routine (Except Exn Response))
    (read : Json → Except Exn (Json × Json)) (cost : Json → Except Exn ℚ) :
    Routine ModelResponse := do
  let start ← monotonic
  match payload with
  | .error e => self.failed start e
  | .ok payload => do
    match ← post payload with
    | .error e => self.failed start e
    | .ok r => self.answered start read cost r

end BaseModelClient

/-! What a routine adds to the trace, whatever the service answers. -/

section Trace

variable {α β : Type}

def Adds (x : Routine α) (holds : List Effect → Prop) : Prop :=
  ∀ clock wire, ∃ effects,
    (x.run answer clock wire).2.trace = wire.trace ++ effects ∧ holds effects

/-- It adds nothing. -/
def Silent (x : Routine α) : Prop := ∀ clock wire, (x.run answer clock wire).2 = wire

theorem silent_done (a : α) : Silent (.done a : Routine α) := fun _ _ => rfl

theorem silent_monotonic {k : ℚ → Routine α} (h : ∀ time, Silent (k time)) :
    Silent (monotonic >>= k) := fun clock wire => h (clock 0) _ wire

theorem Adds.monotonic {k : ℚ → Routine α} {holds : List Effect → Prop}
    (h : ∀ time, Adds (k time) holds) : Adds (monotonic >>= k) holds :=
  fun clock wire => h (clock 0) _ wire

theorem Adds.of_silent {x : Routine α} {holds : List Effect → Prop} (hx : Silent x)
    (h : holds []) : Adds x holds := by
  intro clock wire
  rw [hx]
  exact ⟨[], (List.append_nil _).symm, h⟩

theorem Adds.bind_silent {x : Routine α} {f : α → Routine β} {holds : List Effect → Prop}
    (hx : Adds x holds) (hf : ∀ a, Silent (f a)) : Adds (x >>= f) holds := by
  intro clock wire
  obtain ⟨later, hrun⟩ := exists_run_bind answer x f clock wire
  rw [hrun, hf]
  exact hx clock wire

/-- Every request is the given one. -/
def Only (request : Request) (effects : List Effect) : Prop :=
  ∀ r, .request r ∈ effects → r = request

/-- The given request is made, and no other one. -/
def Repeats (request : Request) (effects : List Effect) : Prop :=
  .request request ∈ effects ∧ Only request effects

variable {request : Request}

theorem adds_sleep {seconds : ℕ} {x : Routine α} (hx : Adds x (Only request)) :
    Adds (do sleep seconds; x) (Only request) := by
  intro clock wire
  obtain ⟨effects, htrace, honly⟩ := hx (fun n => clock (n + 1)) (wire.delayed seconds)
  refine ⟨.delay seconds :: effects, ?_, ?_⟩
  · refine htrace.trans ?_
    unfold Wire.delayed
    rw [List.append_assoc]
    rfl
  · intro r hr
    rcases List.mem_cons.mp hr with heq | hmem
    · cases heq
    · exact honly r hmem

theorem adds_post {k : Posted → Routine α} (hk : ∀ posted, Adds (k posted) (Only request)) :
    Adds (httpxPost request >>= k) (Repeats request) := by
  intro clock wire
  obtain ⟨effects, htrace, honly⟩ :=
    hk (wire.outcomes 0) (fun n => clock (n + 1)) (wire.posted request).2
  refine ⟨.request request :: effects, ?_, List.mem_cons_self, ?_⟩
  · refine htrace.trans ?_
    unfold Wire.posted
    rw [List.append_assoc]
    rfl
  · intro r hr
    rcases List.mem_cons.mp hr with heq | hmem
    · cases heq
      rfl
    · exact honly r hmem

theorem only_nil : Only request [] := by
  intro r hr
  cases hr

/-- A round of the loop: the request, and what the rounds behind it add. -/
theorem postLoop_succ_adds {left attempt : ℕ} {lastErr : Option Exn}
    (h : ∀ attempt lastErr, Adds (postLoop request left attempt lastErr) (Only request)) :
    Adds (postLoop request (left + 1) attempt lastErr) (Repeats request) := by
  unfold postLoop
  refine adds_post fun posted => ?_
  cases posted with
  | response r =>
    dsimp only
    split_ifs
    · exact adds_sleep (h _ _)
    · exact .of_silent (silent_done _) only_nil
    · exact adds_sleep (h _ _)
    · exact .of_silent (silent_done _) only_nil
  | timeout text => exact adds_sleep (h _ _)
  | raised e => exact .of_silent (silent_done _) only_nil

theorem postLoop_adds (request : Request) (left attempt : ℕ) (lastErr : Option Exn) :
    Adds (postLoop request left attempt lastErr) (Only request) := by
  induction left generalizing attempt lastErr with
  | zero => exact .of_silent (silent_done _) only_nil
  | succ left ih =>
    intro clock wire
    obtain ⟨effects, htrace, hrepeats⟩ := postLoop_succ_adds ih clock wire
    exact ⟨effects, htrace, hrepeats.2⟩

theorem post_adds (headers : List (String × String)) (url : String) (payload : Json)
    (timeout : ℚ) :
    Adds (post headers url payload timeout) (Repeats ⟨url, payload, headers, timeout⟩) :=
  (postLoop_succ_adds fun attempt lastErr => postLoop_adds _ 2 attempt lastErr).bind_silent
    fun _ => silent_done _

variable {self : BaseModelClient} {read : Json → Except Exn (Json × Json)}
  {cost : Json → Except Exn ℚ}

theorem silent_failed (start : ℚ) (e : Exn) : Silent (self.failed start e) :=
  silent_monotonic fun _ => silent_done _

theorem silent_answered (start : ℚ) (r : Response) :
    Silent (self.answered start read cost r) := by
  unfold BaseModelClient.answered
  split
  · exact silent_failed start _
  · refine silent_monotonic fun time => ?_
    split
    · exact silent_failed start _
    · exact silent_done _

/-- The payload is what is posted. -/
theorem respond_adds {post : Json → Routine (Except Exn Response)} {payload : Json}
    (h : Adds (post payload) (Repeats request)) :
    Adds (self.respond (.ok payload) post read cost) (Repeats request) := by
  refine .monotonic fun start => h.bind_silent fun posted => ?_
  cases posted with
  | error e => exact silent_failed start e
  | ok r => exact silent_answered start r

end Trace

end LingNet.Clients
