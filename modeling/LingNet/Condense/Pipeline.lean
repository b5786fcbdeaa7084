import LingNet.Lib.Floats
import Mathlib.Algebra.Order.Field.Rat
import Mathlib.Data.List.Sort

/-! The condenser: the stages that shorten a conversation to a number of tokens. The arithmetic of
floats and the hash are parameters. -/
namespace LingNet.Condense

inductive CompressionStrategy where
  | none
  | dedup
  | slidingWindow
  | summarize
  | hybrid
  deriving DecidableEq, Repr

structure Message where
  role : String
  content : String
  timestamp : ℚ
  tokenCount : ℤ
  importance : ℚ := 1
  deriving DecidableEq, Repr

/-- `md5` gives the digest of a text in hexadecimal digits. -/
def Message.fingerprint (md5 : String → String) (msg : Message) : String :=
  String.ofList ((md5 (msg.role ++ ":" ++ msg.content)).toList.take 12)

/-- `condense` goes by the strategy of the `Condenser`, not by this one. -/
structure CondenserInput where
  messages : List Message
  maxTokens : ℤ := 4096
  strategy : CompressionStrategy := .hybrid
  preserveSystem : Bool := true
  minMessages : ℤ := 2

structure CondenserOutput where
  messages : List Message
  originalTokens : ℤ
  compressedTokens : ℤ
  tokensSaved : ℤ
  compressionRatio : ℚ
  strategyUsed : CompressionStrategy
  processingTimeMs : ℚ

structure Condenser where
  strategy : CompressionStrategy := .hybrid
  totalCompressed : ℕ := 0
  totalSaved : ℤ := 0

/-- `sum(m.token_count for m in messages)` -/
def tokens (messages : List Message) : ℤ := (messages.map (·.tokenCount)).sum

@[simp] theorem tokens_nil : tokens [] = 0 := rfl

@[simp] theorem tokens_cons (m : Message) (l : List Message) :
    tokens (m :: l) = m.tokenCount + tokens l := by
  simp [tokens]

@[simp] theorem tokens_append (l l' : List Message) : tokens (l ++ l') = tokens l + tokens l' := by
  simp [tokens]

theorem tokens_perm {l l' : List Message} (h : l.Perm l') : tokens l = tokens l' :=
  (h.map _).sum_eq

/-- The loop of `_dedup`, with the fingerprints it has seen. -/
def dedupLoop (md5 : String → String) (preserveSystem : Bool) :
    List String → List Message → List Message
  | _, [] => []
  | seen, msg :: messages =>
    if preserveSystem ∧ msg.role = "system" then msg :: dedupLoop md5 preserveSystem seen messages
    else
      let fp := msg.fingerprint md5
      if fp ∈ seen then dedupLoop md5 preserveSystem seen messages
      else msg :: dedupLoop md5 preserveSystem (fp :: seen) messages

def dedup (md5 : String → String) (messages : List Message) (preserveSystem : Bool) :
    List Message :=
  dedupLoop md5 preserveSystem [] messages

section Stages

variable [Floats]

/-- `m.importance * 0.6 + (m.timestamp / 1e12) * 0.4` -/
def score (m : Message) : ℚ :=
  Floats.add (Floats.mul m.importance (Floats.round (6 / 10)))
    (Floats.mul (Floats.div m.timestamp (10 ^ 12)) (Floats.round (4 / 10)))

/-- `budget * 0.9` -/
def nineTenths (budget : ℤ) : ℚ := Floats.mul (Floats.round budget) (Floats.round (9 / 10))

/-- The loop of `_sliding_window` over the messages by score, with those it has kept and their
tokens. It ends early when enough messages fill nine tenths of the budget. -/
def keep (others : ℕ) (budget minMessages : ℤ) : List Message → List Message → ℤ → List Message
  | [], kept, _ => kept
  | msg :: scored, kept, used =>
    let fits : Bool := used + msg.tokenCount ≤ budget ∧ kept.length < others
    let kept := if fits then kept ++ [msg] else kept
    let used := if fits then used + msg.tokenCount else used
    if minMessages ≤ kept.length ∧ nineTenths budget ≤ used then kept
    else keep others budget minMessages scored kept used

/-- The messages that the window does not touch. -/
def systemMsgs (messages : List Message) (preserveSystem : Bool) : List Message :=
  if preserveSystem then messages.filter (·.role = "system") else []

def otherMsgs (messages : List Message) (preserveSystem : Bool) : List Message :=
  messages.filter fun m => m.role ≠ "system" ∨ ¬ preserveSystem

/-- Both sorts are stable, also the one in reverse. -/
def slidingWindow (messages : List Message) (maxTokens : ℤ) (preserveSystem : Bool)
    (minMessages : ℤ) : List Message :=
  if tokens messages ≤ maxTokens then messages
  else
    let systemMsgs := systemMsgs messages preserveSystem
    let otherMsgs := otherMsgs messages preserveSystem
    let budget := maxTokens - tokens systemMsgs
    let scored := otherMsgs.insertionSort fun a b => score b ≤ score a
    let kept := keep otherMsgs.length budget minMessages scored [] 0
    systemMsgs ++ kept.insertionSort fun a b => a.timestamp ≤ b.timestamp

/-- The placeholder of the summary: the first message and the last three. -/
def summarizeTrigger (messages : List Message) (maxTokens : ℤ) : List Message :=
  if tokens messages ≤ maxTokens then messages
  else if 4 < messages.length then messages.take 1 ++ messages.drop (messages.length - 3)
  else messages

/-- The messages behind the three stages. -/
def Condenser.pipeline (md5 : String → String) (self : Condenser) (inp : CondenserInput) :
    List Message :=
  let messages := inp.messages
  let messages :=
    if self.strategy ∈ [.dedup, .hybrid] then dedup md5 messages inp.preserveSystem else messages
  let messages :=
    if self.strategy ∈ [.slidingWindow, .hybrid] then
      slidingWindow messages inp.maxTokens inp.preserveSystem inp.minMessages
    else messages
  if self.strategy ∈ [.summarize, .hybrid] then
    if inp.maxTokens < tokens messages then summarizeTrigger messages inp.maxTokens else messages
  else messages

/-- `elapsed` is what the clock says at the end. -/
def Condenser.condense (md5 : String → String) (self : Condenser) (inp : CondenserInput)
    (elapsed : ℚ) : CondenserOutput × Condenser :=
  let originalTokens := tokens inp.messages
  let messages := self.pipeline md5 inp
  let compressedTokens := tokens messages
  let tokensSaved := originalTokens - compressedTokens
  ({ messages := messages
     originalTokens := originalTokens
     compressedTokens := compressedTokens
     tokensSaved := tokensSaved
     compressionRatio := Floats.div compressedTokens (max originalTokens 1 : ℤ)
     strategyUsed := self.strategy
     processingTimeMs := elapsed },
   { self with
     totalCompressed := self.totalCompressed + 1
     totalSaved := self.totalSaved + tokensSaved })

end Stages

end LingNet.Condense
