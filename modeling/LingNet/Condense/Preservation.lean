import LingNet.Condense.Budget

/-! What becomes of the system messages under each strategy. The summary is the one stage that is
not told to preserve them. -/
namespace LingNet.Condense

/-- The messages that the summary of a long conversation leaves out. -/
def middle (messages : List Message) : List Message :=
  (messages.drop 1).take (messages.length - 4)

theorem eq_append_middle {messages : List Message} (hlength : 4 < messages.length) :
    messages = messages.take 1 ++ middle messages ++ messages.drop (messages.length - 3) := by
  have hlast : (messages.drop 1).drop (messages.length - 4) =
      messages.drop (messages.length - 3) := by
    rw [List.drop_drop]
    congr 1
    omega
  rw [List.append_assoc, middle, ← hlast, List.take_append_drop, List.take_append_drop]

/-- The summary keeps the system messages exactly where none is in the middle. -/
theorem systemMsgs_sublist_summary {messages : List Message} (hlength : 4 < messages.length) :
    (systemMsgs messages true).Sublist
        (messages.take 1 ++ messages.drop (messages.length - 3)) ↔
      ∀ m ∈ middle messages, m.role ≠ "system" := by
  have hsplit : systemMsgs messages true =
      systemMsgs (messages.take 1) true ++ systemMsgs (middle messages) true ++
        systemMsgs (messages.drop (messages.length - 3)) true := by
    conv_lhs => rw [eq_append_middle hlength]
    simp [systemMsgs]
  have hmiddle : systemMsgs (middle messages) true = [] ↔
      ∀ m ∈ middle messages, m.role ≠ "system" := by
    simp [systemMsgs]
  rw [← hmiddle]
  constructor
  · intro hsub
    have hfilter := (hsub.filter fun m => m.role = "system").length_le
    have hself : (systemMsgs messages true).filter (fun m => m.role = "system") =
        systemMsgs messages true := by
      simp [systemMsgs]
    rw [hself, hsplit] at hfilter
    simp only [systemMsgs, if_true, List.filter_append, List.length_append] at hfilter
    apply List.eq_nil_of_length_eq_zero
    simp only [systemMsgs, if_true]
    omega
  · intro hnil
    rw [hsplit, hnil, List.append_nil]
    apply List.Sublist.append <;> exact systemMsgs_sublist _ _

/-- A summary of system messages only loses one as soon as there are five. -/
theorem sublist_summarizeTrigger_self {messages : List Message} {maxTokens : ℤ}
    (hover : maxTokens < tokens messages) :
    messages.Sublist (summarizeTrigger messages maxTokens) ↔ messages.length ≤ 4 := by
  unfold summarizeTrigger
  rw [if_neg (Int.not_le.mpr hover)]
  constructor
  · intro hsub
    by_contra hlength
    rw [if_pos (by omega)] at hsub
    have hle := hsub.length_le
    simp only [List.length_append, List.length_take, List.length_drop] at hle
    omega
  · intro hlength
    rw [if_neg (by omega)]

/-- The order in which the window looks at the messages that it may drop. -/
def byScore [Floats] (messages : List Message) : List Message :=
  (otherMsgs messages true).insertionSort fun a b => score b ≤ score a

/-- The messages the window looks at when it has no room: all of them, or only the first where it is
asked for none. -/
def lookedAt (minMessages : ℤ) (scored : List Message) : List Message :=
  if minMessages ≤ 0 then scored.take 1 else scored

/-- Without room a message is kept only if its own count makes room for it. -/
theorem keptOf_eq_nil_iff [Floats] {messages : List Message} {maxTokens : ℤ} (minMessages : ℤ)
    (hsystem : maxTokens < tokens (systemMsgs messages true)) :
    keptOf id messages maxTokens minMessages true = [] ↔
      ∀ m ∈ lookedAt minMessages (byScore messages),
        maxTokens - tokens (systemMsgs messages true) < m.tokenCount := by
  have hnegative : nineTenths (maxTokens - tokens (systemMsgs messages true)) ≤ 0 := by
    have hcast : ((maxTokens - tokens (systemMsgs messages true) : ℤ) : ℚ) ≤ 0 := by
      exact_mod_cast (show maxTokens - tokens (systemMsgs messages true) ≤ 0 by omega)
    have hnine : (0 : ℚ) ≤ 9 / 10 := by decide +kernel
    exact Floats.mul_nonpos (Floats.round_nonpos hcast) (Floats.round_nonneg hnine)
  have hbudget : (systemMsgsOf id messages true).map id = systemMsgs messages true := by
    rw [map_systemMsgsOf, List.map_id]
  have hfull : (windowRule id (maxTokens - tokens (systemMsgs messages true))
      minMessages : Greedy.Rule Message).full [] = decide (minMessages ≤ 0) := by
    simp only [windowRule, List.length_nil, Nat.cast_zero, List.map_nil, tokens_nil, Int.cast_zero,
      hnegative, and_true]
  unfold keptOf
  rw [hbudget, Greedy.Rule.run_eq_nil_iff, hfull]
  simp only [decide_eq_true_eq, lookedAt]
  have hfits (m : Message) : (windowRule id (maxTokens - tokens (systemMsgs messages true))
      minMessages : Greedy.Rule Message).fits [] m = false ↔
        maxTokens - tokens (systemMsgs messages true) < m.tokenCount := by
    simp [windowRule]
  simp only [hfits]
  rfl

/-- When a condenser that is told to preserve the system messages does. -/
def Condenser.Spares [Floats] (md5 : String → String) (self : Condenser) (inp : CondenserInput) :
    Prop :=
  match self.strategy with
  | .none | .dedup | .slidingWindow => True
  | .summarize =>
    tokens inp.messages ≤ inp.maxTokens ∨ inp.messages.length ≤ 4 ∨
      ∀ m ∈ middle inp.messages, m.role ≠ "system"
  | .hybrid =>
    let messages := dedup md5 inp.messages true
    let budget := inp.maxTokens - tokens (systemMsgs inp.messages true)
    tokens messages ≤ inp.maxTokens ∨ 0 ≤ budget ∨ (systemMsgs inp.messages true).length ≤ 4 ∨
      ∃ m ∈ lookedAt inp.minMessages (byScore messages), m.tokenCount ≤ budget

theorem systemMsgs_sublist_summarize (messages : List Message) (maxTokens : ℤ) :
    (systemMsgs messages true).Sublist (summarizeTrigger messages maxTokens) ↔
      tokens messages ≤ maxTokens ∨ messages.length ≤ 4 ∨
        ∀ m ∈ middle messages, m.role ≠ "system" := by
  unfold summarizeTrigger
  by_cases hfit : tokens messages ≤ maxTokens
  · simp [hfit, systemMsgs_sublist]
  · by_cases hlength : 4 < messages.length
    · rw [if_neg hfit, if_pos hlength, systemMsgs_sublist_summary hlength]
      simp [hfit, Nat.not_le.mpr hlength]
    · rw [if_neg hfit, if_neg hlength]
      simp [systemMsgs_sublist, Nat.not_lt.mp hlength]

/-- What the window leaves behind is still over the limit exactly where it has kept nothing and the
system messages alone are. -/
theorem slidingWindow_over_iff [Floats] {messages : List Message} {maxTokens : ℤ} (minMessages : ℤ)
    (htotal : maxTokens < tokens messages) :
    maxTokens < tokens (slidingWindow messages maxTokens true minMessages) ↔
      maxTokens < tokens (systemMsgs messages true) ∧
        ∀ m ∈ lookedAt minMessages (byScore messages),
          maxTokens - tokens (systemMsgs messages true) < m.tokenCount := by
  have htotal' : maxTokens < tokens (messages.map id) := by rwa [List.map_id]
  have hwindow : tokens (slidingWindow messages maxTokens true minMessages) =
      tokens (systemMsgs messages true) +
        tokens (keptOf id messages maxTokens minMessages true) := by
    have htokens : tokens ((slidingWindowOf id messages maxTokens true minMessages).map id) = _ :=
      tokens_slidingWindowOf_of_over htotal'
    rwa [List.map_id, List.map_id, List.map_id, ← slidingWindow_eq] at htokens
  by_cases hsystem : maxTokens < tokens (systemMsgs messages true)
  · rw [and_iff_right hsystem, ← keptOf_eq_nil_iff minMessages hsystem]
    constructor
    · intro hover
      apply keptOf_eq_nil_of_over htotal'
      rwa [List.map_id, ← slidingWindow_eq]
    · intro hnil
      rw [hwindow, hnil, tokens_nil]
      omega
  · have hle : tokens (slidingWindow messages maxTokens true minMessages) ≤ maxTokens :=
      tokens_slidingWindow_le (Int.not_lt.mp hsystem)
    constructor
    · intro hover
      omega
    · intro hboth
      exact absurd hboth.1 hsystem

theorem slidingWindow_eq_systemMsgs [Floats] {messages : List Message} {maxTokens minMessages : ℤ}
    {preserveSystem : Bool} (htotal : maxTokens < tokens messages)
    (hover : maxTokens < tokens (slidingWindow messages maxTokens preserveSystem minMessages)) :
    slidingWindow messages maxTokens preserveSystem minMessages =
      systemMsgs messages preserveSystem := by
  have htotal' : maxTokens < tokens (messages.map id) := by rwa [List.map_id]
  rw [slidingWindow_eq] at hover ⊢
  have hnil := keptOf_eq_nil_of_over htotal' (by rwa [List.map_id])
  rw [slidingWindowOf_of_over htotal', hnil, List.insertionSort_nil, List.append_nil]
  rfl

/-- Behind the window the summary only ever sees system messages. -/
theorem systemMsgs_sublist_hybrid [Floats] (messages : List Message) (maxTokens minMessages : ℤ) :
    (systemMsgs messages true).Sublist
        (summarizeTrigger (slidingWindow messages maxTokens true minMessages) maxTokens) ↔
      tokens messages ≤ maxTokens ∨ 0 ≤ maxTokens - tokens (systemMsgs messages true) ∨
        (systemMsgs messages true).length ≤ 4 ∨
        ∃ m ∈ lookedAt minMessages (byScore messages),
          m.tokenCount ≤ maxTokens - tokens (systemMsgs messages true) := by
  have hwindow := systemMsgs_sublist_slidingWindow messages maxTokens minMessages true
  by_cases htotal : tokens messages ≤ maxTokens
  · have heq : slidingWindow messages maxTokens true minMessages = messages := by
      simp [slidingWindow, htotal]
    simp [heq, summarizeTrigger, htotal, systemMsgs_sublist]
  · have hiff := slidingWindow_over_iff minMessages (Int.not_le.mp htotal)
    by_cases hover : maxTokens < tokens (slidingWindow messages maxTokens true minMessages)
    · obtain ⟨hsystem, hall⟩ := hiff.mp hover
      rw [slidingWindow_eq_systemMsgs (Int.not_le.mp htotal) hover,
        sublist_summarizeTrigger_self hsystem]
      have hbudget : ¬ 0 ≤ maxTokens - tokens (systemMsgs messages true) := by omega
      have hnone : ¬ ∃ m ∈ lookedAt minMessages (byScore messages),
          m.tokenCount ≤ maxTokens - tokens (systemMsgs messages true) := by
        rintro ⟨m, hm, hle⟩
        exact absurd hle (Int.not_le.mpr (hall m hm))
      rw [or_iff_right htotal, or_iff_right hbudget, or_iff_left hnone]
    · have heq : summarizeTrigger (slidingWindow messages maxTokens true minMessages) maxTokens =
          slidingWindow messages maxTokens true minMessages := by
        simp [summarizeTrigger, Int.not_lt.mp hover]
      rw [heq]
      apply iff_of_true hwindow
      by_contra hnone
      simp only [not_or, not_exists, not_and, Int.not_le] at hnone
      apply hover
      apply hiff.mpr
      exact ⟨by omega, hnone.2.2.2⟩

/-- The third stage leaves alone what is within the limit, so it can be asked in any case. -/
theorem summarize_if_over (messages : List Message) (maxTokens : ℤ) :
    (if maxTokens < tokens messages then summarizeTrigger messages maxTokens else messages) =
      summarizeTrigger messages maxTokens := by
  split_ifs with hover
  · rfl
  · simp [summarizeTrigger, Int.not_lt.mp hover]

theorem systemMsgs_sublist_pipeline [Floats] (md5 : String → String) (self : Condenser)
    (inp : CondenserInput) (hpreserve : inp.preserveSystem = true) :
    (systemMsgs inp.messages true).Sublist (self.pipeline md5 inp) ↔ self.Spares md5 inp := by
  have hdedup := systemMsgs_dedup md5 inp.messages true
  unfold Condenser.pipeline Condenser.Spares
  rw [hpreserve]
  simp only [summarize_if_over]
  cases self.strategy with
  | none => simp [systemMsgs_sublist]
  | dedup =>
    have hsub := systemMsgs_sublist (dedup md5 inp.messages true) true
    rw [hdedup] at hsub
    simp [hsub]
  | slidingWindow =>
    have hsub := systemMsgs_sublist_slidingWindow inp.messages inp.maxTokens inp.minMessages true
    simp [hsub]
  | summarize =>
    have hiff := systemMsgs_sublist_summarize inp.messages inp.maxTokens
    simpa using hiff
  | hybrid =>
    have hiff := systemMsgs_sublist_hybrid (dedup md5 inp.messages true) inp.maxTokens
      inp.minMessages
    rw [hdedup] at hiff
    simpa using hiff

/-- A condenser that is told to preserve the system messages does so unless its summary cuts them
away. -/
theorem condense_preserves_system_iff [Floats] (md5 : String → String) (self : Condenser)
    (inp : CondenserInput) (elapsed : ℚ) (hpreserve : inp.preserveSystem = true) :
    (inp.messages.filter (·.role = "system")).Sublist
        (self.condense md5 inp elapsed).1.messages ↔ self.Spares md5 inp :=
  systemMsgs_sublist_pipeline md5 self inp hpreserve

section Instructions

open scoped Floats.Binary64

theorem greeting_preserved :
    (greeting.messages.filter (·.role = "system")).Sublist
        (Condenser.condense greetingMd5 {} greeting 0).1.messages ↔
      Condenser.Spares greetingMd5 {} greeting :=
  condense_preserves_system_iff greetingMd5 {} greeting 0 rfl

/-- Five system messages of one token each, for four tokens. -/
def instructions : CondenserInput where
  messages := (List.range 5).map fun i =>
    { role := "system", content := "Be brief.", timestamp := i, tokenCount := 1 }
  maxTokens := 4

theorem instructions_not_preserved :
    instructions.preserveSystem = true ∧
      ¬ (instructions.messages.filter (·.role = "system")).Sublist
        (Condenser.condense greetingMd5 {} instructions 0).1.messages := by
  constructor
  · rfl
  · decide +kernel

end Instructions

end LingNet.Condense
