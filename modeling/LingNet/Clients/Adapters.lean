import LingNet.Clients.Base

/-! The clients of six services, each with its payload and its reading of an answer, twice. -/
namespace LingNet.Clients
open Py

/-- `base_url.rstrip("/")` -/
def rstripSlash (baseUrl : String) : String :=
  String.ofList (baseUrl.toList.rdropWhile (· = '/'))

/-- `BaseModelClient.__init__` -/
def BaseModelClient.init (name baseUrl apiKey model : String) (costPer1kTokens : ℚ)
    (maxTokens : ℤ := 4096) : BaseModelClient where
  name := name
  baseUrl := rstripSlash baseUrl
  apiKey := apiKey
  model := model
  costPer1kTokens := costPer1kTokens
  maxTokens := maxTokens

section Clients

variable (self : BaseModelClient) (messages : List Json) (kwargs : Kwargs)

namespace OpenAIClient

def init (apiKey : String) (model : String := "gpt-4o") : BaseModelClient :=
  .init "openai" "https://api.openai.com/v1" apiKey model (5 / 1000)

def complete : Routine ModelResponse :=
  self.respond
    (.ok (.dict ([("model", .str self.model), ("messages", .list messages),
        ("max_tokens", kwargs.get "max_tokens" (.int self.maxTokens))] ++
      match kwargs.lookup "temperature" with
      | some temperature => [("temperature", temperature)]
      | none => [])))
    (post self.headers (self.baseUrl ++ "/chat/completions") · 30)
    (fun data => do
      let text ← (← (← (← data.getItem "choices").getFirst).getItem "message").getItem "content"
      let usage ← data.get "usage" (.dict [])
      let tokens ← usage.get "total_tokens" (.int 0)
      pure (text, tokens))
    self.computeCost

def acomplete : Routine ModelResponse :=
  self.respond
    (.ok (.dict ([("model", .str self.model), ("messages", .list messages),
        ("max_tokens", kwargs.get "max_tokens" (.int self.maxTokens))] ++
      match kwargs.lookup "temperature" with
      | some temperature => [("temperature", temperature)]
      | none => [])))
    (apost self.headers (self.baseUrl ++ "/chat/completions") · 30)
    (fun data => do
      let text ← (← (← (← data.getItem "choices").getFirst).getItem "message").getItem "content"
      let usage ← data.get "usage" (.dict [])
      let tokens ← usage.get "total_tokens" (.int 0)
      pure (text, tokens))
    self.computeCost

end OpenAIClient

namespace AnthropicClient

def init (apiKey : String) (model : String := "claude-sonnet-4-20250514") : BaseModelClient :=
  .init "anthropic" "https://api.anthropic.com/v1" apiKey model (3 / 1000)

def headers : List (String × String) :=
  [("x-api-key", self.apiKey), ("Content-Type", "application/json"),
    ("anthropic-version", "2023-06-01")]

/-- A round of the loop that takes the system message out. -/
def takeMessage (taken : Json × List Json) (m : Json) : Except Exn (Json × List Json) := do
  if (← m.getItem "role").isStr "system" then pure (← m.getItem "content", taken.2)
  else pure (taken.1, taken.2 ++ [m])

/-- The payload of `complete`. -/
def payload : Except Exn Json := do
  let (systemMsg, anthropicMessages) ← messages.foldlM takeMessage (.str "", [])
  pure (.dict ([("model", .str self.model), ("messages", .list anthropicMessages),
      ("max_tokens", kwargs.get "max_tokens" (.int self.maxTokens))] ++
    if systemMsg.truthy then [("system", systemMsg)] else []))

def complete : Routine ModelResponse :=
  self.respond (payload self messages kwargs)
    (post (headers self) (self.baseUrl ++ "/messages") · 30)
    (fun data => do
      let text ← (← (← data.getItem "content").getFirst).getItem "text"
      let usage ← data.get "usage" (.dict [])
      let tokens ← (← usage.get "input_tokens" (.int 0)).add (← usage.get "output_tokens" (.int 0))
      pure (text, tokens))
    self.computeCost

def acomplete : Routine ModelResponse :=
  self.respond
    (do
      let (systemMsg, anthropicMessages) ← messages.foldlM takeMessage (.str "", [])
      pure (.dict ([("model", .str self.model), ("messages", .list anthropicMessages),
          ("max_tokens", kwargs.get "max_tokens" (.int self.maxTokens))] ++
        if systemMsg.truthy then [("system", systemMsg)] else [])))
    (apost (headers self) (self.baseUrl ++ "/messages") · 30)
    (fun data => do
      let text ← (← (← data.getItem "content").getFirst).getItem "text"
      let usage ← data.get "usage" (.dict [])
      let tokens ← (← usage.get "input_tokens" (.int 0)).add (← usage.get "output_tokens" (.int 0))
      pure (text, tokens))
    self.computeCost

end AnthropicClient

namespace GoogleClient

def init (apiKey : String) (model : String := "gemini-1.5-pro") : BaseModelClient :=
  .init "google" "https://generativelanguage.googleapis.com/v1beta" apiKey model (1 / 1000)

/-- An entry of `contents`. -/
def toContent (m : Json) : Except Exn Json := do
  let role ← m.getItem "role"
  let text ← m.getItem "content"
  let googleRole := if role.isStr "user" || role.isStr "system" then "user" else "model"
  pure (.dict [("role", .str googleRole), ("parts", .list [.dict [("text", text)]])])

/-- The payload of `complete`. -/
def payload : Except Exn Json := do
  let contents ← messages.mapM toContent
  pure (.dict [("contents", .list contents)])

def complete : Routine ModelResponse :=
  self.respond (payload messages)
    (post self.headers
      (self.baseUrl ++ "/models/" ++ self.model ++ ":generateContent?key=" ++ self.apiKey) · 30)
    (fun data => do
      let content ← (← (← data.getItem "candidates").getFirst).getItem "content"
      let text ← (← (← content.getItem "parts").getFirst).getItem "text"
      let usage ← data.get "metadata" (.dict [])
      let tokens ← usage.get "tokenCount" (.int 120)
      pure (text, tokens))
    self.computeCost

def acomplete : Routine ModelResponse :=
  self.respond
    (do
      let contents ← messages.mapM toContent
      pure (.dict [("contents", .list contents)]))
    (apost self.headers
      (self.baseUrl ++ "/models/" ++ self.model ++ ":generateContent?key=" ++ self.apiKey) · 30)
    (fun data => do
      let content ← (← (← data.getItem "candidates").getFirst).getItem "content"
      let text ← (← (← content.getItem "parts").getFirst).getItem "text"
      let usage ← data.get "metadata" (.dict [])
      let tokens ← usage.get "tokenCount" (.int 120)
      pure (text, tokens))
    self.computeCost

end GoogleClient

namespace OllamaClient

def init (baseUrl : String := "http://localhost:11434") (model : String := "llama3") :
    BaseModelClient := .init "ollama" (rstripSlash baseUrl) "" model 0 8192

def headers : List (String × String) := [("Content-Type", "application/json")]

def complete : Routine ModelResponse :=
  self.respond
    (.ok (.dict [("model", .str self.model), ("messages", .list messages), ("stream", .bool false),
      ("options", .dict [("num_predict", kwargs.get "max_tokens" (.int self.maxTokens))])]))
    (post headers (self.baseUrl ++ "/api/chat") · 30)
    (fun data => do
      let text ← (← data.getItem "message").getItem "content"
      let tokens ← data.get "eval_count" (.int 80)
      pure (text, tokens))
    (fun _ => .ok 0)

def acomplete : Routine ModelResponse :=
  self.respond
    (.ok (.dict [("model", .str self.model), ("messages", .list messages), ("stream", .bool false),
      ("options", .dict [("num_predict", kwargs.get "max_tokens" (.int self.maxTokens))])]))
    (apost headers (self.baseUrl ++ "/api/chat") · 30)
    (fun data => do
      let text ← (← data.getItem "message").getItem "content"
      let tokens ← data.get "eval_count" (.int 80)
      pure (text, tokens))
    (fun _ => .ok 0)

end OllamaClient

namespace CohereClient

def init (apiKey : String) (model : String := "command-r-plus") : BaseModelClient :=
  .init "cohere" "https://api.cohere.com/v2" apiKey model (3 / 1000)

/-- A round of the loop that makes the history and finds the last message. -/
def takeMessage (taken : List Json × Json) (m : Json) : Except Exn (List Json × Json) := do
  if (← m.getItem "role").isStr "system" then
    let content ← m.getItem "content"
    pure (taken.1 ++ [.dict [("role", .str "SYSTEM"), ("message", content)]], taken.2)
  else if (← m.getItem "role").isStr "assistant" then
    let content ← m.getItem "content"
    pure (taken.1 ++ [.dict [("role", .str "CHATBOT"), ("message", content)]], taken.2)
  else pure (taken.1, ← m.getItem "content")

/-- The payload of `complete`. -/
def payload : Except Exn Json := do
  let (chatHistory, lastMessage) ← messages.foldlM takeMessage ([], .str "")
  pure (.dict [("model", .str self.model), ("message", lastMessage),
    ("chat_history", .list chatHistory),
    ("max_tokens", kwargs.get "max_tokens" (.int self.maxTokens))])

def complete : Routine ModelResponse :=
  self.respond (payload self messages kwargs)
    (post self.headers (self.baseUrl ++ "/chat") · 30)
    (fun data => do
      let text ← data.getItem "text"
      let metadata ← data.get "meta" (.dict [])
      let input ← (← metadata.get "tokens" (.dict [])).get "input_tokens" (.int 0)
      let output ← (← metadata.get "tokens" (.dict [])).get "output_tokens" (.int 0)
      pure (text, ← input.add output))
    self.computeCost

/-- It waits in `complete`. -/
def acomplete : Routine ModelResponse := complete self messages kwargs

end CohereClient

namespace MinimaxClient

def init (apiKey : String) (model : String := "abab6.5s") : BaseModelClient :=
  .init "minimax" "https://api.minimax.chat/v1" apiKey model (1 / 1000)

def complete : Routine ModelResponse :=
  self.respond
    (.ok (.dict [("model", .str self.model), ("messages", .list messages),
      ("max_tokens", kwargs.get "max_tokens" (.int self.maxTokens))]))
    (post self.headers (self.baseUrl ++ "/text/chatcompletion_pro") · 30)
    (fun data => do
      let choice ← (← data.getItem "choices").getFirst
      let text ← (← (← choice.getItem "messages").getFirst).getItem "text"
      let usage ← data.get "usage" (.dict [])
      let tokens ← usage.get "total_tokens" (.int 100)
      pure (text, tokens))
    self.computeCost

def acomplete : Routine ModelResponse :=
  self.respond
    (.ok (.dict [("model", .str self.model), ("messages", .list messages),
      ("max_tokens", kwargs.get "max_tokens" (.int self.maxTokens))]))
    (apost self.headers (self.baseUrl ++ "/text/chatcompletion_pro") · 30)
    (fun data => do
      let choice ← (← data.getItem "choices").getFirst
      let text ← (← (← choice.getItem "messages").getFirst).getItem "text"
      let usage ← data.get "usage" (.dict [])
      let tokens ← usage.get "total_tokens" (.int 100)
      pure (text, tokens))
    self.computeCost

end MinimaxClient

end Clients

/-- The clients of the registry that read an answer in a way of their own. -/
inductive Adapter where
  | openai
  | anthropic
  | google
  | ollama
  | cohere
  | minimax

namespace Adapter

def complete : Adapter → BaseModelClient → List Json → Kwargs → Routine ModelResponse
  | openai => OpenAIClient.complete
  | anthropic => AnthropicClient.complete
  | google => fun self messages _ => GoogleClient.complete self messages
  | ollama => OllamaClient.complete
  | cohere => CohereClient.complete
  | minimax => MinimaxClient.complete

def acomplete : Adapter → BaseModelClient → List Json → Kwargs → Routine ModelResponse
  | openai => OpenAIClient.acomplete
  | anthropic => AnthropicClient.acomplete
  | google => fun self messages _ => GoogleClient.acomplete self messages
  | ollama => OllamaClient.acomplete
  | cohere => CohereClient.acomplete
  | minimax => MinimaxClient.acomplete

end Adapter

end LingNet.Clients
