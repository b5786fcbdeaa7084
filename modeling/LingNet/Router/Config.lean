import Mathlib.Algebra.Order.Field.Rat
import Mathlib.Data.List.AList
import LingNet.Py.Value

/-! The configuration of the model router, its budget, its token counter and its payloads. -/
namespace LingNet.Router
open Py

inductive RoutingStrategy where
  | race
  | smart
  | uniform
  deriving DecidableEq, Repr

def RoutingStrategy.value : RoutingStrategy → String
  | .race => "race"
  | .smart => "smart"
  | .uniform => "uniform"

/-- What the field of a strategy holds: a member of the enumeration, or the string that a
configuration from JSON leaves there. A string equals no member. -/
inductive StrategyField where
  | member (s : RoutingStrategy)
  | str (s : String)
  deriving DecidableEq, Repr

namespace StrategyField

/-- `strategy.value` -/
def value : StrategyField → Except Exn String
  | .member s => .ok s.value
  | .str _ => .error ⟨.attributeError, "'str' object has no attribute 'value'"⟩

/-- Every member is true, and every string but the empty one. -/
def truthy : StrategyField → Bool
  | .member _ => true
  | .str s => s ≠ ""

end StrategyField

abbrev Dict := List (String × Json)

structure ModelProvider where
  id : String
  endpoint : String
  apiKey : String
  apiCompat : String
  models : List Dict
  latencyMs : ℚ := 0
  errorRate : ℚ := 0

namespace ModelProvider

/-- The first model of the list with the id. -/
def findModel (modelId : String) : List Dict → Except Exn (Option Dict)
  | [] => .ok none
  | m :: models => do
    match ← Json.getField m "id" with
    | .str id => if id = modelId then pure (some m) else findModel modelId models
    | _ => findModel modelId models

def getModelConfig (provider : ModelProvider) (modelId : String) : Except Exn (Option Dict) :=
  findModel modelId provider.models

end ModelProvider

structure RoutingConfig where
  strategy : StrategyField
  fallbackStrategy : Option StrategyField
  budgetPerHour : ℚ
  candidates : List String
  weights : List (String × ℤ)
  retryCount : ℤ := 2
  retryDelayMs : ℤ := 1000
  retryOnErrors : List String := ["timeout", "rate_limit", "server_error"]
  raceTimeoutMs : ℤ := 5000

structure LLMRequest where
  messages : List (List (String × String))
  model : String
  provider : String
  temperature : ℚ := 7 / 10
  maxTokens : Option ℤ := none
  stream : Bool := false

structure LLMResponse where
  content : Json
  provider : String
  model : String
  latencyMs : ℚ
  tokensIn : Json
  tokensOut : Json
  costUsd : ℚ
  finishReason : Json
  error : Option String := none

structure CostTracker where
  hourlyBudget : ℚ
  hourlySpent : ℚ
  hourStart : ℚ

namespace CostTracker

def init (hourlyBudget now : ℚ) : CostTracker := ⟨hourlyBudget, 0, now⟩

/-- The first statement of `_charge_sync`: an hour after its start the tracker starts again. -/
def refresh [Floats] (now : ℚ) (t : CostTracker) : CostTracker :=
  if 3600 < Floats.sub now t.hourStart then { t with hourStart := now, hourlySpent := 0 } else t

/-- `_charge_sync`, under the lock. -/
def chargeSync [Floats] (now cost : ℚ) (t : CostTracker) : Bool × CostTracker :=
  let t := t.refresh now
  if t.hourlyBudget < Floats.add t.hourlySpent cost then (false, t)
  else (true, { t with hourlySpent := Floats.add t.hourlySpent cost })

end CostTracker

/-- The length of the encoding that `tiktoken` has for a text under a model, if it has one. -/
abbrev Tokenizer := String → String → Option ℕ

namespace TokenCounter

def countTokens (encode : Tokenizer) (text model : String) : ℕ :=
  let estimate := text.length / 4 + 1
  if Contains "gpt-4" model ∨ Contains "gpt-3.5" model then (encode text model).getD estimate
  else estimate

def countMessageTokens (encode : Tokenizer) (messages : List (List (String × String)))
    (model : String) : ℕ :=
  (messages.map fun msg =>
    countTokens encode ((msg.lookup "content").getD "") model +
      countTokens encode ((msg.lookup "role").getD "") model).sum

end TokenCounter

/-- The cost of so many tokens: an estimate for a request, or the actual cost of a response. -/
def costOf [Floats] (tokensIn tokensOut : Json) (modelConfig : Dict) : Except Exn ℚ := do
  let costIn ← Json.getField modelConfig "cost_in"
  let inPart ← Json.perMillion tokensIn costIn
  let costOut ← Json.getField modelConfig "cost_out"
  let outPart ← Json.perMillion tokensOut costOut
  pure (Floats.add inPart outPart)

/-- The output is taken to be half of the input. -/
def estimateCost [Floats] (encode : Tokenizer) (request : LLMRequest) (modelConfig : Dict) :
    Except Exn ℚ :=
  let tokensIn := TokenCounter.countMessageTokens encode request.messages request.model
  costOf (.int tokensIn) (.int (tokensIn / 2 : ℕ)) modelConfig

def messageField (msg : List (String × String)) (key : String) : Except Exn Json :=
  match msg.lookup key with
  | some text => .ok (.str text)
  | none => .error ⟨.keyError, "'" ++ key ++ "'"⟩

def tokenLimit (maxTokens : Option ℤ) : Json := (maxTokens.map Json.int).getD .none

def jsonMessages (messages : List (List (String × String))) : Json :=
  .list (messages.map fun msg => .dict (msg.map fun field => (field.1, .str field.2)))

def buildPayload (apiCompat : String) (request : LLMRequest) : Except Exn Json :=
  if apiCompat = "openai" then
    .ok (.dict [("model", .str request.model), ("messages", jsonMessages request.messages),
      ("temperature", .float request.temperature), ("max_tokens", tokenLimit request.maxTokens),
      ("stream", .bool request.stream)])
  else if apiCompat = "anthropic" then
    -- `request.max_tokens or 4096`
    let maxTokens := match request.maxTokens with
      | none => 4096
      | some n => if n = 0 then 4096 else n
    .ok (.dict [("model", .str request.model), ("messages", jsonMessages request.messages),
      ("max_tokens", .int maxTokens), ("temperature", .float request.temperature)])
  else if apiCompat = "google" then do
    let contents ← request.messages.mapM fun m => do
      let role ← messageField m "role"
      let text ← messageField m "content"
      pure (Json.dict [("role", role), ("parts", .list [.dict [("text", text)]])])
    pure (.dict [("contents", .list contents),
      ("generationConfig", .dict [("temperature", .float request.temperature),
        ("maxOutputTokens", tokenLimit request.maxTokens)])])
  else .ok (.dict [])

end LingNet.Router
