import LingNet.Clients.Registry

/-! The attempts of a call: which requests a client of the registry makes, how long it waits
between them, and what it answers in the end. -/
namespace LingNet.Clients
open Py Coroutine

namespace Posted

/-- The outcome is followed by another attempt, if one is left. -/
def Retried : Posted → Prop
  | response r => r.statusCode = 429 ∨ r.statusCode ∈ [500, 502, 503]
  | timeout _ => True
  | raised _ => False

instance : DecidablePred Retried
  | response r => inferInstanceAs (Decidable (r.statusCode = 429 ∨ r.statusCode ∈ [500, 502, 503]))
  | timeout _ => .isTrue trivial
  | raised _ => .isFalse id

/-- The exception that the outcome leaves for the end of the loop. A response 429 leaves none. -/
def leaves : Posted → Option Exn
  | response r => if r.statusCode = 429 then none else some r.httpStatusError
  | timeout text => some (timeoutException text)
  | raised e => some e

/-- What the loop is left with at an outcome that is not retried. -/
def settled : Posted → Except Exn Response
  | response r => if r.isSuccess then .ok r else .error r.httpStatusError
  | timeout text => .error (timeoutException text)
  | raised e => .error e

end Posted

/-- Requests that are retried, each with its delay. -/
def backoff (request : Request) (attempts : List ℕ) : List Effect :=
  attempts.flatMap fun attempt => [.request request, .delay (2 ^ attempt)]

/-- The last exception that the outcomes leave. -/
def lastErr (outcomes : ℕ → Posted) (attempts : List ℕ) (lastErr : Option Exn) : Option Exn :=
  attempts.foldl (fun last attempt => (outcomes attempt).leaves.or last) lastErr

/-- A loop with `left` attempts retries the first `k` outcomes. -/
structure Retries (outcomes : ℕ → Posted) (left k : ℕ) : Prop where
  le : k ≤ left
  retried : ∀ j < k, (outcomes j).Retried
  settled : k < left → ¬ (outcomes k).Retried

namespace Retries

variable {outcomes : ℕ → Posted} {left k : ℕ}

theorem zero_left (outcomes : ℕ → Posted) : Retries outcomes 0 0 where
  le := le_rfl
  retried _ h := absurd h (by omega)
  settled h := absurd h (by omega)

theorem zero (h : ¬ (outcomes 0).Retried) : Retries outcomes (left + 1) 0 where
  le := Nat.zero_le _
  retried _ h := absurd h (by omega)
  settled _ := h

theorem succ (h₀ : (outcomes 0).Retried) (h : Retries (fun n => outcomes (n + 1)) left k) :
    Retries outcomes (left + 1) (k + 1) where
  le := Nat.succ_le_succ h.le
  retried j hj := by
    cases j with
    | zero => exact h₀
    | succ j => exact h.retried j (by omega)
  settled hk := h.settled (by omega)

end Retries

section Loop

variable {request : Request}

/-- What the loop adds to the trace, with the request that is not retried. -/
def effectsOf (request : Request) (left attempt k : ℕ) : List Effect :=
  backoff request (List.range' attempt k) ++ if k < left then [.request request] else []

theorem effectsOf_succ (left attempt k : ℕ) :
    effectsOf request (left + 1) attempt (k + 1) =
      [.request request, .delay (2 ^ attempt)] ++ effectsOf request left (attempt + 1) k := by
  have hlt : k + 1 < left + 1 ↔ k < left := by omega
  simp only [effectsOf, backoff, List.range'_succ, List.flatMap_cons, hlt, List.append_assoc]

/-- The loop ends with the outcome that is not retried, or with the last exception. -/
def endOf (outcomes : ℕ → Posted) (left k : ℕ) (last : Option Exn) : Except Exn Response :=
  if k < left then (outcomes k).settled
  else .error ((lastErr outcomes (List.range k) last).getD
    ⟨.other "HTTPError", "Max retries exceeded"⟩)

theorem endOf_succ (outcomes : ℕ → Posted) (left k : ℕ) (last : Option Exn) :
    endOf outcomes (left + 1) (k + 1) last =
      endOf (fun n => outcomes (n + 1)) left k ((outcomes 0).leaves.or last) := by
  have hlt : k + 1 < left + 1 ↔ k < left := by omega
  unfold endOf lastErr
  rw [List.range_succ_eq_map, List.foldl_cons, List.foldl_map]
  simp only [hlt]

/-- What a loop with so many attempts left comes to. -/
def LoopRuns (request : Request) (left attempt : ℕ) (last : Option Exn)
    (loop : Routine LoopEnd) : Prop :=
  ∀ clock wire, ∃ k, Retries wire.outcomes left k ∧
    (loop.run answer clock wire).1.result = endOf wire.outcomes left k last ∧
    (loop.run answer clock wire).2.trace = wire.trace ++ effectsOf request left attempt k

/-- An attempt that is retried, and the loop behind it. -/
theorem LoopRuns.retry {left attempt : ℕ} {last next : Option Exn} {rest : Routine LoopEnd}
    {wire : Wire} (h : LoopRuns request left (attempt + 1) next rest)
    (hretried : (wire.outcomes 0).Retried) (hleaves : (wire.outcomes 0).leaves.or last = next)
    (clock : ℕ → ℚ) :
    let out := ((do sleep (2 ^ attempt); rest).run answer clock (wire.posted request).2)
    ∃ k, Retries wire.outcomes (left + 1) k ∧
      out.1.result = endOf wire.outcomes (left + 1) k last ∧
      out.2.trace = wire.trace ++ effectsOf request (left + 1) attempt k := by
  obtain ⟨k, hretries, hresult, htrace⟩ :=
    h (fun n => clock (n + 1)) ((wire.posted request).2.delayed (2 ^ attempt))
  refine ⟨k + 1, hretries.succ hretried, ?_, ?_⟩
  · rw [endOf_succ, hleaves]
    exact hresult
  · rw [effectsOf_succ, ← List.append_assoc]
    refine htrace.trans (congrArg (· ++ _) ?_)
    exact List.append_assoc _ _ _

/-- The attempt that ends the loop. -/
theorem loopRuns_done {left attempt : ℕ} {last : Option Exn} {wire : Wire} {loopEnd : LoopEnd}
    (hsettled : ¬ (wire.outcomes 0).Retried)
    (hend : loopEnd.result = (wire.outcomes 0).settled) (clock : ℕ → ℚ) :
    let out := ((.done loopEnd : Routine LoopEnd).run answer clock (wire.posted request).2)
    ∃ k, Retries wire.outcomes (left + 1) k ∧
      out.1.result = endOf wire.outcomes (left + 1) k last ∧
      out.2.trace = wire.trace ++ effectsOf request (left + 1) attempt k := by
  refine ⟨0, .zero hsettled, ?_, ?_⟩
  · simpa [endOf] using hend
  · simp [effectsOf, backoff, Wire.posted]

/-- The loop runs on with the reply to its request. -/
theorem run_httpxPost (k : Posted → Routine LoopEnd) (clock : ℕ → ℚ) (wire : Wire) :
    (httpxPost request >>= k).run answer clock wire =
      (k (wire.outcomes 0)).run answer (fun n => clock (n + 1)) (wire.posted request).2 := rfl

/-- Attempt by attempt: an outcome is retried behind its delay, or it ends the loop. -/
theorem loopRuns_postLoop (request : Request) (left attempt : ℕ) (last : Option Exn) :
    LoopRuns request left attempt last (postLoop request left attempt last) := by
  induction left generalizing attempt last with
  | zero =>
    intro clock wire
    exact ⟨0, .zero_left _, rfl, (List.append_nil _).symm⟩
  | succ left ih =>
    intro clock wire
    unfold postLoop
    rw [run_httpxPost]
    cases hposted : wire.outcomes 0 with
    | response r =>
      dsimp only
      split_ifs with hlimit hsuccess hstatus
      · refine (ih (attempt + 1) last).retry ?_ ?_ _
        · rw [hposted]
          exact .inl hlimit
        · rw [hposted]
          simp [Posted.leaves, hlimit]
      · refine loopRuns_done ?_ ?_ _
        · rw [hposted]
          intro hretried
          have hbound : r.statusCode < 300 := by
            simp only [Response.isSuccess, decide_eq_true_eq] at hsuccess
            exact hsuccess.2
          rcases hretried with h | h
          · omega
          · simp only [List.mem_cons, List.not_mem_nil, or_false] at h
            omega
        · rw [hposted]
          exact (if_pos hsuccess).symm
      · refine (ih (attempt + 1) _).retry ?_ ?_ _
        · rw [hposted]
          exact .inr hstatus
        · rw [hposted]
          simp [Posted.leaves, hlimit]
      · refine loopRuns_done ?_ ?_ _
        · rw [hposted]
          exact fun hretried => hretried.elim hlimit hstatus
        · rw [hposted]
          exact (if_neg hsuccess).symm
    | timeout text =>
      refine (ih (attempt + 1) _).retry ?_ ?_ _
      · rw [hposted]
        trivial
      · rw [hposted]
        rfl
    | raised e =>
      refine loopRuns_done ?_ ?_ _
      · rw [hposted]
        exact id
      · rw [hposted]
        rfl

end Loop

/-- What a call sends, and how it reads and prices the answer. -/
structure Protocol where
  payload : Except Exn Json
  headers : List (String × String)
  url : String
  read : Json → Except Exn (Json × Json)
  cost : Json → Except Exn ℚ

namespace Protocol

variable (p : Protocol)

def request (payload : Json) : Request := ⟨p.url, payload, p.headers, 30⟩

/-- The decoded body, the text and the tokens. -/
def readBody (r : Response) : Except Exn (Json × Json × Json) := do
  let data ← r.json
  pure (data, ← p.read data)

/-- What an answer comes to: the body as it is read, and the cost of the tokens. -/
def conclude (answer : Except Exn Response) : Except Exn (Json × Json × Json × ℚ) := do
  let (data, text, tokens) ← p.readBody (← answer)
  pure (data, text, tokens, ← p.cost tokens)

end Protocol

/-- The response that reports a conclusion, but for its latency. -/
def BaseModelClient.report (self : BaseModelClient) :
    Except Exn (Json × Json × Json × ℚ) → ModelResponse
  | .ok (data, text, tokens, cost) =>
    { text := text, tokensUsed := tokens, cost := cost, latencyMs := 0,
      provider := self.name, model := self.model, raw := data }
  | .error e =>
    { text := .str "", tokensUsed := .int 0, cost := 0, latencyMs := 0, provider := self.name,
      model := self.model, success := false, error := e.text }

/-- A call makes no request when its payload cannot be made. Otherwise it repeats one request, up
to three times, with delays that double, and reports the outcome that is not retried or the last
exception. -/
structure Concludes (client : BaseModelClient) (p : Protocol) (wire : Wire)
    (out : ModelResponse × Wire) : Prop where
  unsent : ∀ e, p.payload = .error e →
    SameButLatency out.1 (client.report (.error e)) ∧ out.2.trace = wire.trace
  sent : ∀ payload, p.payload = .ok payload → ∃ k, Retries wire.outcomes 3 k ∧
    SameButLatency out.1 (client.report (p.conclude (endOf wire.outcomes 3 k none))) ∧
    out.2.trace = wire.trace ++ effectsOf (p.request payload) 3 0 k

section Respond

variable {self : BaseModelClient} {p : Protocol}

theorem failed_run (self : BaseModelClient) (start : ℚ) (e : Exn) (clock : ℕ → ℚ) (wire : Wire) :
    let out := (self.failed start e).run answer clock wire
    SameButLatency out.1 (self.report (.error e)) ∧ out.2 = wire := ⟨rfl, rfl⟩

theorem priced_run (self : BaseModelClient) (p : Protocol) (start time : ℚ)
    (data text tokens : Json) (clock : ℕ → ℚ) (wire : Wire) :
    let out := (match p.cost tokens with
      | .error e => self.failed start e
      | .ok cost => pure { text := text, tokensUsed := tokens, cost := cost,
                           latencyMs := (time - start) * 1000, provider := self.name,
                           model := self.model, raw := data } :
        Routine ModelResponse).run answer clock wire
    SameButLatency out.1
        (self.report (p.cost tokens >>= fun cost => pure (data, text, tokens, cost))) ∧
      out.2 = wire := by
  cases p.cost tokens with
  | error e => exact failed_run self start e clock wire
  | ok cost => exact ⟨rfl, rfl⟩

/-- The response to an answer reports what the answer comes to. -/
theorem answered_run (self : BaseModelClient) (p : Protocol) (start : ℚ) (r : Response)
    (clock : ℕ → ℚ) (wire : Wire) :
    let out := (self.answered start p.read p.cost r).run answer clock wire
    SameButLatency out.1 (self.report (p.conclude (.ok r))) ∧ out.2 = wire := by
  have hconclude : p.conclude (.ok r) = (do
      let (data, text, tokens) ← p.readBody r
      pure (data, text, tokens, ← p.cost tokens)) := rfl
  rw [hconclude]
  unfold BaseModelClient.answered
  cases hbody : p.readBody r with
  | error e =>
    unfold Protocol.readBody at hbody
    rw [hbody]
    exact failed_run self start e clock wire
  | ok body =>
    obtain ⟨data, text, tokens⟩ := body
    unfold Protocol.readBody at hbody
    rw [hbody]
    exact priced_run self p start (clock 0) data text tokens (fun n => clock (n + 1)) wire

/-- How a call goes on behind its posts. -/
def BaseModelClient.reply (self : BaseModelClient) (p : Protocol) (start : ℚ) :
    Except Exn Response → Routine ModelResponse
  | .error e => self.failed start e
  | .ok r => self.answered start p.read p.cost r

theorem reply_run (self : BaseModelClient) (p : Protocol) (start : ℚ)
    (posted : Except Exn Response) (clock : ℕ → ℚ) (wire : Wire) :
    let out := (self.reply p start posted).run answer clock wire
    SameButLatency out.1 (self.report (p.conclude posted)) ∧ out.2 = wire := by
  cases posted with
  | error e => exact failed_run self start e clock wire
  | ok r => exact answered_run self p start r clock wire

/-- What the posts come to. -/
theorem post_run (p : Protocol) (payload : Json) (clock : ℕ → ℚ) (wire : Wire) :
    let out := (post p.headers p.url payload 30).run answer clock wire
    ∃ k, Retries wire.outcomes 3 k ∧ out.1 = endOf wire.outcomes 3 k none ∧
      out.2.trace = wire.trace ++ effectsOf (p.request payload) 3 0 k := by
  obtain ⟨later, hrun⟩ := exists_run_bind answer (postLoop (p.request payload) 3 0 none)
    (fun loopEnd => (.done loopEnd.result : Routine (Except Exn Response))) clock wire
  obtain ⟨k, hretries, hresult, htrace⟩ := loopRuns_postLoop (p.request payload) 3 0 none clock wire
  refine ⟨k, hretries, ?_, ?_⟩
  · exact (congrArg Prod.fst hrun).trans hresult
  · exact (congrArg (fun out => out.2.trace) hrun).trans htrace

theorem respond_run (self : BaseModelClient) {payload : Json} (h : p.payload = .ok payload)
    (clock : ℕ → ℚ) (wire : Wire) :
    (self.respond p.payload (post p.headers p.url · 30) p.read p.cost).run answer clock wire =
      (post p.headers p.url payload 30 >>= self.reply p (clock 0)).run answer
        (fun n => clock (n + 1)) wire := by
  rw [h]
  rfl

/-- The payload is posted, and the response reports what the posts come to. -/
theorem respond_concludes (self : BaseModelClient) (p : Protocol) (clock : ℕ → ℚ) (wire : Wire) :
    Concludes self p wire ((self.respond p.payload (post p.headers p.url · 30) p.read
      p.cost).run answer clock wire) := by
  constructor
  · intro e he
    rw [he]
    obtain ⟨hsame, hwire⟩ := failed_run self (clock 0) e (fun n => clock (n + 1)) wire
    exact ⟨hsame, congrArg Wire.trace hwire⟩
  · intro payload hok
    obtain ⟨k, hretries, hresult, htrace⟩ := post_run p payload (fun n => clock (n + 1)) wire
    obtain ⟨later, hrun⟩ := exists_run_bind answer (post p.headers p.url payload 30)
      (self.reply p (clock 0)) (fun n => clock (n + 1)) wire
    rw [respond_run self hok, hrun, hresult]
    obtain ⟨hsame, hwire⟩ := reply_run self p (clock 0) (endOf wire.outcomes 3 k none) later
      ((post p.headers p.url payload 30).run answer (fun n => clock (n + 1)) wire).2
    exact ⟨k, hretries, hsame, (congrArg Wire.trace hwire).trans htrace⟩

end Respond

section Registry

/-- The calls of a client follow a protocol: the address is below the base address, and the price
is that of the client or there is none. -/
structure Follows (client : BaseModelClient) (complete acomplete : Routine ModelResponse)
    (p : Protocol) : Prop where
  complete_eq : complete = client.respond p.payload (post p.headers p.url · 30) p.read p.cost
  alike : Alike answer SameButLatency complete acomplete
  url : ∃ path, p.url = client.baseUrl ++ path
  cost : p.cost = client.computeCost ∨ client.costPer1kTokens = 0 ∧ p.cost = fun _ => .ok 0

variable {self : BaseModelClient} {complete acomplete : Routine ModelResponse} {p : Protocol}

/-- Both calls conclude by the protocol. -/
theorem Follows.concludes (h : Follows self complete acomplete p) (clock : ℕ → ℚ) (wire : Wire) :
    Concludes self p wire (complete.run answer clock wire) ∧
      Concludes self p wire (acomplete.run answer clock wire) := by
  have hcomplete := respond_concludes self p clock wire
  rw [← h.complete_eq] at hcomplete
  obtain ⟨halike, hwire⟩ := h.alike clock clock wire
  refine ⟨hcomplete, ⟨fun e he => ?_, fun payload hok => ?_⟩⟩
  · obtain ⟨hsame, htrace⟩ := hcomplete.unsent e he
    exact ⟨halike.symm.trans hsame, hwire ▸ htrace⟩
  · obtain ⟨k, hretries, hsame, htrace⟩ := hcomplete.sent payload hok
    exact ⟨k, hretries, halike.symm.trans hsame, hwire ▸ htrace⟩

theorem follows_of_respond {headers : List (String × String)} {url path : String}
    {payload : Except Exn Json} {read : Json → Except Exn (Json × Json)}
    {cost : Json → Except Exn ℚ} (hurl : url = self.baseUrl ++ path)
    (hcost : cost = self.computeCost ∨ self.costPer1kTokens = 0 ∧ cost = fun _ => .ok 0) :
    ∃ p, Follows self (self.respond payload (post headers url · 30) read cost)
      (self.respond payload (apost headers url · 30) read cost) p :=
  ⟨⟨payload, headers, url, read, cost⟩, rfl,
    alike_respond fun payload => alike_apost headers url payload 30, ⟨path, hurl⟩, hcost⟩

variable (messages : List Json) (kwargs : Kwargs)

theorem follows_openai : ∃ p, Follows self (OpenAIClient.complete self messages kwargs)
    (OpenAIClient.acomplete self messages kwargs) p := by
  unfold OpenAIClient.complete OpenAIClient.acomplete
  exact follows_of_respond rfl (.inl rfl)

theorem follows_anthropic : ∃ p, Follows self (AnthropicClient.complete self messages kwargs)
    (AnthropicClient.acomplete self messages kwargs) p := by
  unfold AnthropicClient.complete AnthropicClient.acomplete
  exact follows_of_respond rfl (.inl rfl)

theorem follows_google : ∃ p, Follows self (GoogleClient.complete self messages)
    (GoogleClient.acomplete self messages) p := by
  have hurl : self.baseUrl ++ "/models/" ++ self.model ++ ":generateContent?key=" ++ self.apiKey =
      self.baseUrl ++ ("/models/" ++ self.model ++ ":generateContent?key=" ++ self.apiKey) := by
    simp only [String.append_assoc]
  unfold GoogleClient.complete GoogleClient.acomplete
  exact follows_of_respond hurl (.inl rfl)

theorem follows_ollama (hfree : self.costPer1kTokens = 0) :
    ∃ p, Follows self (OllamaClient.complete self messages kwargs)
      (OllamaClient.acomplete self messages kwargs) p := by
  unfold OllamaClient.complete OllamaClient.acomplete
  exact follows_of_respond rfl (.inr ⟨hfree, rfl⟩)

/-- Its awaited call is the synchronous one. -/
theorem follows_cohere : ∃ p, Follows self (CohereClient.complete self messages kwargs)
    (CohereClient.acomplete self messages kwargs) p :=
  ⟨⟨_, self.headers, self.baseUrl ++ "/chat", _, self.computeCost⟩, rfl,
    alike_respond fun payload => (alike_apost _ _ payload 30).refl_left, ⟨_, rfl⟩, .inl rfl⟩

theorem follows_minimax : ∃ p, Follows self (MinimaxClient.complete self messages kwargs)
    (MinimaxClient.acomplete self messages kwargs) p := by
  unfold MinimaxClient.complete MinimaxClient.acomplete
  exact follows_of_respond rfl (.inl rfl)

theorem follows_remote (tokens : ℤ) :
    ∃ p, Follows self (remoteComplete self messages kwargs tokens)
      (remoteAcomplete self messages kwargs tokens) p := by
  unfold remoteComplete remoteAcomplete chatComplete chatAcomplete
  exact follows_of_respond rfl (.inl rfl)

theorem follows_local (headers : List (String × String)) (path : String) (tokens : ℤ)
    (hfree : self.costPer1kTokens = 0) : ∃ p, Follows self
      (chatComplete self messages kwargs headers path tokens fun _ => .ok 0)
      (chatAcomplete self messages kwargs headers path tokens fun _ => .ok 0) p := by
  unfold chatComplete chatAcomplete
  exact follows_of_respond rfl (.inr ⟨hfree, rfl⟩)

/-- The classes of the registry follow protocols, and their clients have the name they are
registered under. -/
theorem follows_of_mem {entry : String × ClientClass} (h : entry ∈ providers)
    (value model : String) :
    (entry.2.init value model).name = entry.1 ∧ ∀ messages kwargs, ∃ p,
      Follows (entry.2.init value model)
        (entry.2.complete (entry.2.init value model) messages kwargs)
        (entry.2.acomplete (entry.2.init value model) messages kwargs) p := by
  simp only [providers, List.mem_cons, List.not_mem_nil, or_false] at h
  rcases h with rfl | rfl | rfl | rfl | rfl | rfl | rfl | rfl | rfl | rfl | rfl | rfl | rfl | rfl |
    rfl | rfl | rfl | rfl
  · exact ⟨rfl, follows_openai⟩
  · exact ⟨rfl, follows_anthropic⟩
  · exact ⟨rfl, fun messages _ => follows_google messages⟩
  · exact ⟨rfl, fun messages kwargs => follows_remote messages kwargs 100⟩
  · exact ⟨rfl, fun messages kwargs => follows_ollama messages kwargs rfl⟩
  · exact ⟨rfl, fun messages kwargs => follows_remote messages kwargs 130⟩
  · exact ⟨rfl, fun messages kwargs => follows_remote messages kwargs 110⟩
  · exact ⟨rfl, fun messages kwargs => follows_remote messages kwargs 90⟩
  · exact ⟨rfl, fun messages kwargs => follows_remote messages kwargs 140⟩
  · exact ⟨rfl, follows_cohere⟩
  · exact ⟨rfl, fun messages kwargs => follows_remote messages kwargs 100⟩
  · exact ⟨rfl, fun messages kwargs => follows_remote messages kwargs 100⟩
  · exact ⟨rfl, fun messages kwargs => follows_remote messages kwargs 100⟩
  · exact ⟨rfl, fun messages kwargs => follows_remote messages kwargs 100⟩
  · exact ⟨rfl, follows_minimax⟩
  · exact ⟨rfl, fun messages kwargs => follows_remote messages kwargs 100⟩
  · exact ⟨rfl, fun messages kwargs => follows_local messages kwargs _ _ 100 rfl⟩
  · exact ⟨rfl, fun messages kwargs => follows_local messages kwargs _ _ 100 rfl⟩

/-- A created client is the one that a class of the registry makes of the arguments. -/
theorem createProvider_eq_ok {name : String} {arguments : Arguments} {created : Created}
    (h : createProvider name arguments = .ok created) :
    (name, created.cls) ∈ providers ∧
      ∃ value model, created.client = created.cls.init value model := by
  unfold createProvider at h
  split at h
  case h_1 => cases h
  case h_2 cls hlookup =>
    have hmem : (name, cls) ∈ providers := by
      obtain ⟨entries, rest, hsplit, -⟩ := List.lookup_eq_some_iff.mp hlookup
      rw [hsplit]
      simp
    unfold ClientClass.construct at h
    split at h
    case h_1 => cases h
    case h_2 =>
      split at h
      case h_1 => cases h
      case h_2 value _ =>
        cases h
        exact ⟨hmem, value, _, rfl⟩

end Registry

/-- Whatever the service answers and whenever, a client that the registry creates has the name it
is registered under, and each of its calls makes one request up to three times, waits between the
attempts, and reports the first outcome that is not retried. -/
theorem provider_concludes {name : String} {arguments : Arguments} {created : Created}
    (h : createProvider name arguments = .ok created) :
    created.client.name = name ∧ ∀ messages kwargs, ∃ p : Protocol,
      (∃ path, p.url = created.client.baseUrl ++ path) ∧
      (p.cost = created.client.computeCost ∨
        created.client.costPer1kTokens = 0 ∧ p.cost = fun _ => .ok 0) ∧
      ∀ (wire : Wire) (clock : ℕ → ℚ),
        Concludes created.client p wire
            ((created.cls.complete created.client messages kwargs).run answer clock wire) ∧
          Concludes created.client p wire
            ((created.cls.acomplete created.client messages kwargs).run answer clock wire) := by
  obtain ⟨hmem, value, model, hclient⟩ := createProvider_eq_ok h
  obtain ⟨hname, hfollows⟩ := follows_of_mem hmem value model
  rw [hclient]
  refine ⟨hname, fun messages kwargs => ?_⟩
  obtain ⟨p, hp⟩ := hfollows messages kwargs
  exact ⟨p, hp.url, hp.cost, fun wire clock => hp.concludes clock wire⟩

/-- A service that limits the first request and answers the next one. -/
def limited : Wire where
  outcomes n := if n = 0 then .response ⟨429, "", .ok (.dict [])⟩ else
    .response ⟨200, "", .ok (.dict [("choices", .list [.dict [("message",
      .dict [("content", .str "hello")])]])])⟩

theorem provider_concludes_groq :
    ∃ created p, createProvider "groq" [("api_key", "gsk")] = .ok created ∧
      created.client.name = "groq" ∧ ∀ clock,
        Concludes created.client p limited
          ((created.cls.acomplete created.client [] []).run answer clock limited) := by
  have hcreated : ∃ created, createProvider "groq" [("api_key", "gsk")] = .ok created :=
    ⟨_, rfl⟩
  obtain ⟨created, h⟩ := hcreated
  obtain ⟨hname, hcalls⟩ := provider_concludes h
  obtain ⟨p, -, -, hconcludes⟩ := hcalls [] []
  exact ⟨created, p, h, hname, fun clock => (hconcludes limited clock).2⟩

end LingNet.Clients
