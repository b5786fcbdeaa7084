import LingNet.Clients.Agreement

/-! The registry of the clients: the services that speak the protocol of OpenAI, which differ in
their address, their price and the tokens they count without a report, and the factory. -/
namespace LingNet.Clients
open Py Coroutine

section Compatible

variable (self : BaseModelClient) (messages : List Json) (kwargs : Kwargs)
  (headers : List (String × String)) (path : String) (tokens : ℤ) (cost : Json → Except Exn ℚ)

/-- `complete` of the clients that are compatible with OpenAI. -/
def chatComplete : Routine ModelResponse :=
  self.respond
    (.ok (.dict [("model", .str self.model), ("messages", .list messages),
      ("max_tokens", kwargs.get "max_tokens" (.int self.maxTokens))]))
    (post headers (self.baseUrl ++ path) · 30)
    (fun data => do
      let text ← (← (← (← data.getItem "choices").getFirst).getItem "message").getItem "content"
      let usage ← data.get "usage" (.dict [])
      let tokens ← usage.get "total_tokens" (.int tokens)
      pure (text, tokens))
    cost

/-- `acomplete` of these clients. -/
def chatAcomplete : Routine ModelResponse :=
  self.respond
    (.ok (.dict [("model", .str self.model), ("messages", .list messages),
      ("max_tokens", kwargs.get "max_tokens" (.int self.maxTokens))]))
    (apost headers (self.baseUrl ++ path) · 30)
    (fun data => do
      let text ← (← (← (← data.getItem "choices").getFirst).getItem "message").getItem "content"
      let usage ← data.get "usage" (.dict [])
      let tokens ← usage.get "total_tokens" (.int tokens)
      pure (text, tokens))
    cost

/-- A service on the net: its key is in the headers, and its tokens have a price. -/
def remoteComplete (tokens : ℤ) : Routine ModelResponse :=
  chatComplete self messages kwargs self.headers "/chat/completions" tokens self.computeCost

def remoteAcomplete (tokens : ℤ) : Routine ModelResponse :=
  chatAcomplete self messages kwargs self.headers "/chat/completions" tokens self.computeCost

end Compatible

namespace DeepSeekClient

def init (apiKey model : String) : BaseModelClient :=
  .init "deepseek" "https://api.deepseek.com/v1" apiKey model (3 / 10000)

def complete (self : BaseModelClient) (messages : List Json) (kwargs : Kwargs) :
    Routine ModelResponse := remoteComplete self messages kwargs 100

def acomplete (self : BaseModelClient) (messages : List Json) (kwargs : Kwargs) :
    Routine ModelResponse := remoteAcomplete self messages kwargs 100

end DeepSeekClient

namespace MoonshotClient

def init (apiKey model : String) : BaseModelClient :=
  .init "moonshot" "https://api.moonshot.cn/v1" apiKey model (2 / 1000)

def complete (self : BaseModelClient) (messages : List Json) (kwargs : Kwargs) :
    Routine ModelResponse := remoteComplete self messages kwargs 130

def acomplete (self : BaseModelClient) (messages : List Json) (kwargs : Kwargs) :
    Routine ModelResponse := remoteAcomplete self messages kwargs 130

end MoonshotClient

namespace ZhipuaiClient

def init (apiKey model : String) : BaseModelClient :=
  .init "zhipuai" "https://open.bigmodel.cn/api/paas/v4" apiKey model (1 / 1000)

def complete (self : BaseModelClient) (messages : List Json) (kwargs : Kwargs) :
    Routine ModelResponse := remoteComplete self messages kwargs 110

def acomplete (self : BaseModelClient) (messages : List Json) (kwargs : Kwargs) :
    Routine ModelResponse := remoteAcomplete self messages kwargs 110

end ZhipuaiClient

namespace GroqClient

def init (apiKey model : String) : BaseModelClient :=
  .init "groq" "https://api.groq.com/openai/v1" apiKey model (7 / 10000) 8192

def complete (self : BaseModelClient) (messages : List Json) (kwargs : Kwargs) :
    Routine ModelResponse := remoteComplete self messages kwargs 90

def acomplete (self : BaseModelClient) (messages : List Json) (kwargs : Kwargs) :
    Routine ModelResponse := remoteAcomplete self messages kwargs 90

end GroqClient

namespace TogetherClient

def init (apiKey model : String) : BaseModelClient :=
  .init "together" "https://api.together.xyz/v1" apiKey model (9 / 10000)

def complete (self : BaseModelClient) (messages : List Json) (kwargs : Kwargs) :
    Routine ModelResponse := remoteComplete self messages kwargs 140

def acomplete (self : BaseModelClient) (messages : List Json) (kwargs : Kwargs) :
    Routine ModelResponse := remoteAcomplete self messages kwargs 140

end TogetherClient

namespace QwenClient

def init (apiKey model : String) : BaseModelClient :=
  .init "qwen" "https://dashscope.aliyuncs.com/compatible-mode/v1" apiKey model (2 / 1000)

def complete (self : BaseModelClient) (messages : List Json) (kwargs : Kwargs) :
    Routine ModelResponse := remoteComplete self messages kwargs 100

def acomplete (self : BaseModelClient) (messages : List Json) (kwargs : Kwargs) :
    Routine ModelResponse := remoteAcomplete self messages kwargs 100

end QwenClient

namespace MistralClient

def init (apiKey model : String) : BaseModelClient :=
  .init "mistral" "https://api.mistral.ai/v1" apiKey model (2 / 1000)

def complete (self : BaseModelClient) (messages : List Json) (kwargs : Kwargs) :
    Routine ModelResponse := remoteComplete self messages kwargs 100

def acomplete (self : BaseModelClient) (messages : List Json) (kwargs : Kwargs) :
    Routine ModelResponse := remoteAcomplete self messages kwargs 100

end MistralClient

namespace PerplexityClient

def init (apiKey model : String) : BaseModelClient :=
  .init "perplexity" "https://api.perplexity.ai" apiKey model (1 / 1000)

def complete (self : BaseModelClient) (messages : List Json) (kwargs : Kwargs) :
    Routine ModelResponse := remoteComplete self messages kwargs 100

def acomplete (self : BaseModelClient) (messages : List Json) (kwargs : Kwargs) :
    Routine ModelResponse := remoteAcomplete self messages kwargs 100

end PerplexityClient

namespace BaichuanClient

def init (apiKey model : String) : BaseModelClient :=
  .init "baichuan" "https://api.baichuan-ai.com/v1" apiKey model (1 / 1000)

def complete (self : BaseModelClient) (messages : List Json) (kwargs : Kwargs) :
    Routine ModelResponse := remoteComplete self messages kwargs 100

def acomplete (self : BaseModelClient) (messages : List Json) (kwargs : Kwargs) :
    Routine ModelResponse := remoteAcomplete self messages kwargs 100

end BaichuanClient

namespace FireworksClient

def init (apiKey model : String) : BaseModelClient :=
  .init "fireworks" "https://api.fireworks.ai/inference/v1" apiKey model (5 / 10000)

def complete (self : BaseModelClient) (messages : List Json) (kwargs : Kwargs) :
    Routine ModelResponse := remoteComplete self messages kwargs 100

def acomplete (self : BaseModelClient) (messages : List Json) (kwargs : Kwargs) :
    Routine ModelResponse := remoteAcomplete self messages kwargs 100

end FireworksClient

/-! The two services on the machine itself take an address in place of a key. -/

namespace VllmClient

def init (baseUrl model : String) : BaseModelClient :=
  .init "vllm" (rstripSlash baseUrl) "" model 0

def headers : List (String × String) := [("Content-Type", "application/json")]

def complete (self : BaseModelClient) (messages : List Json) (kwargs : Kwargs) :
    Routine ModelResponse :=
  chatComplete self messages kwargs headers "/v1/chat/completions" 100 fun _ => .ok 0

def acomplete (self : BaseModelClient) (messages : List Json) (kwargs : Kwargs) :
    Routine ModelResponse :=
  chatAcomplete self messages kwargs headers "/v1/chat/completions" 100 fun _ => .ok 0

end VllmClient

namespace HuggingfaceClient

def init (baseUrl model : String) : BaseModelClient :=
  .init "huggingface" (rstripSlash baseUrl) "" model 0

def headers : List (String × String) := [("Content-Type", "application/json")]

def complete (self : BaseModelClient) (messages : List Json) (kwargs : Kwargs) :
    Routine ModelResponse :=
  chatComplete self messages kwargs headers "/v1/chat/completions" 100 fun _ => .ok 0

def acomplete (self : BaseModelClient) (messages : List Json) (kwargs : Kwargs) :
    Routine ModelResponse :=
  chatAcomplete self messages kwargs headers "/v1/chat/completions" 100 fun _ => .ok 0

end HuggingfaceClient

/-- The parameter of a constructor in front of the model. -/
inductive Parameter where
  | apiKey
  | baseUrl (default : String)

namespace Parameter

def name : Parameter → String
  | apiKey => "api_key"
  | baseUrl _ => "base_url"

def default? : Parameter → Option String
  | apiKey => none
  | baseUrl default => some default

end Parameter

/-- A class of the registry: its parameters with their defaults, its constructor and its calls. -/
structure ClientClass where
  name : String
  parameter : Parameter
  model : String
  init : String → String → BaseModelClient
  complete : BaseModelClient → List Json → Kwargs → Routine ModelResponse
  acomplete : BaseModelClient → List Json → Kwargs → Routine ModelResponse

/-- The keyword arguments of a constructor. -/
abbrev Arguments := List (String × String)

/-- `cls(**kwargs)` -/
def ClientClass.construct (cls : ClientClass) (arguments : Arguments) :
    Except Exn BaseModelClient :=
  match arguments.find? fun argument => argument.1 ∉ [cls.parameter.name, "model"] with
  | some (key, _) => .error ⟨.typeError,
      cls.name ++ ".__init__() got an unexpected keyword argument '" ++ key ++ "'"⟩
  | none =>
    match (arguments.lookup cls.parameter.name).orElse fun _ => cls.parameter.default? with
    | none => .error ⟨.typeError, cls.name ++
        ".__init__() missing 1 required positional argument: '" ++ cls.parameter.name ++ "'"⟩
    | some value => .ok (cls.init value ((arguments.lookup "model").getD cls.model))

/-- `PROVIDERS` -/
def providers : List (String × ClientClass) :=
  [("openai", ⟨"OpenAIClient", .apiKey, "gpt-4o",
      @OpenAIClient.init, OpenAIClient.complete, OpenAIClient.acomplete⟩),
    ("anthropic", ⟨"AnthropicClient", .apiKey, "claude-sonnet-4-20250514",
      @AnthropicClient.init, AnthropicClient.complete, AnthropicClient.acomplete⟩),
    ("google", ⟨"GoogleClient", .apiKey, "gemini-1.5-pro", @GoogleClient.init,
      fun self messages _ => GoogleClient.complete self messages,
      fun self messages _ => GoogleClient.acomplete self messages⟩),
    ("deepseek", ⟨"DeepSeekClient", .apiKey, "deepseek-chat",
      DeepSeekClient.init, DeepSeekClient.complete, DeepSeekClient.acomplete⟩),
    ("ollama", ⟨"OllamaClient", .baseUrl "http://localhost:11434", "llama3",
      @OllamaClient.init, OllamaClient.complete, OllamaClient.acomplete⟩),
    ("moonshot", ⟨"MoonshotClient", .apiKey, "moonshot-v1-32k",
      MoonshotClient.init, MoonshotClient.complete, MoonshotClient.acomplete⟩),
    ("zhipuai", ⟨"ZhipuaiClient", .apiKey, "glm-4-plus",
      ZhipuaiClient.init, ZhipuaiClient.complete, ZhipuaiClient.acomplete⟩),
    ("groq", ⟨"GroqClient", .apiKey, "llama-3.1-70b-versatile",
      GroqClient.init, GroqClient.complete, GroqClient.acomplete⟩),
    ("together", ⟨"TogetherClient", .apiKey, "meta-llama/Meta-Llama-3.1-70B-Instruct-Turbo",
      TogetherClient.init, TogetherClient.complete, TogetherClient.acomplete⟩),
    ("cohere", ⟨"CohereClient", .apiKey, "command-r-plus",
      @CohereClient.init, CohereClient.complete, CohereClient.acomplete⟩),
    ("qwen", ⟨"QwenClient", .apiKey, "qwen-max",
      QwenClient.init, QwenClient.complete, QwenClient.acomplete⟩),
    ("mistral", ⟨"MistralClient", .apiKey, "mistral-large-latest",
      MistralClient.init, MistralClient.complete, MistralClient.acomplete⟩),
    ("perplexity", ⟨"PerplexityClient", .apiKey, "sonar-medium",
      PerplexityClient.init, PerplexityClient.complete, PerplexityClient.acomplete⟩),
    ("baichuan", ⟨"BaichuanClient", .apiKey, "baichuan3-turbo",
      BaichuanClient.init, BaichuanClient.complete, BaichuanClient.acomplete⟩),
    ("minimax", ⟨"MinimaxClient", .apiKey, "abab6.5s",
      @MinimaxClient.init, MinimaxClient.complete, MinimaxClient.acomplete⟩),
    ("fireworks", ⟨"FireworksClient", .apiKey, "accounts/fireworks/models/mixtral-8x7b-instruct",
      FireworksClient.init, FireworksClient.complete, FireworksClient.acomplete⟩),
    ("vllm", ⟨"VllmClient", .baseUrl "http://localhost:8000", "default",
      VllmClient.init, VllmClient.complete, VllmClient.acomplete⟩),
    ("huggingface", ⟨"HuggingfaceClient", .baseUrl "http://localhost:8080", "default",
      HuggingfaceClient.init, HuggingfaceClient.complete, HuggingfaceClient.acomplete⟩)]

/-- The list of names as Python prints it. -/
def namesText : String :=
  "[" ++ ", ".intercalate (providers.map fun entry => "'" ++ entry.1 ++ "'") ++ "]"

/-- A client of the registry and its class. -/
structure Created where
  cls : ClientClass
  client : BaseModelClient

/-- `create_provider` -/
def createProvider (name : String) (arguments : Arguments) : Except Exn Created :=
  match providers.lookup name with
  | none => .error ⟨.valueError, "Unknown provider: " ++ name ++ ". Available: " ++ namesText⟩
  | some cls => (cls.construct arguments).map fun client => ⟨cls, client⟩

end LingNet.Clients
