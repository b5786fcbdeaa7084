import LingNet.Condense.Window

/-! A window fits into its budget, and it keeps the system messages. -/
namespace LingNet.Condense

section Stages

variable {md5 : String → String} {messages : List Message} {maxTokens minMessages : ℤ}
  {preserveSystem : Bool}

@[simp] theorem systemMsgs_false (messages : List Message) : systemMsgs messages false = [] := rfl

theorem systemMsgs_cons (m : Message) (messages : List Message) :
    systemMsgs (m :: messages) preserveSystem =
      if preserveSystem ∧ m.role = "system" then m :: systemMsgs messages preserveSystem
      else systemMsgs messages preserveSystem := by
  cases preserveSystem with
  | false => simp
  | true => simp [systemMsgs, List.filter_cons]

theorem systemMsgs_sublist (messages : List Message) (preserveSystem : Bool) :
    (systemMsgs messages preserveSystem).Sublist messages := by
  cases preserveSystem with
  | false => exact List.nil_sublist _
  | true => exact List.filter_sublist

theorem systemMsgs_dedupLoop (seen : List String) (messages : List Message) :
    systemMsgs (dedupLoop md5 preserveSystem seen messages) preserveSystem =
      systemMsgs messages preserveSystem := by
  induction messages generalizing seen with
  | nil => rfl
  | cons msg messages ih =>
    unfold dedupLoop
    by_cases hsystem : preserveSystem = true ∧ msg.role = "system"
    · simp only [if_pos hsystem, systemMsgs_cons, ih]
    · simp only [if_neg hsystem, systemMsgs_cons]
      split_ifs
      · exact ih seen
      · rw [systemMsgs_cons, if_neg hsystem]
        exact ih _

/-- The first stage loses no preserved message. -/
theorem systemMsgs_dedup (md5 : String → String) (messages : List Message) (preserveSystem : Bool) :
    systemMsgs (dedup md5 messages preserveSystem) preserveSystem =
      systemMsgs messages preserveSystem :=
  systemMsgs_dedupLoop [] messages

/-- The second stage is within the limit where the preserved messages are. -/
theorem tokens_slidingWindow_le [Floats]
    (hfit : tokens (systemMsgs messages preserveSystem) ≤ maxTokens) :
    tokens (slidingWindow messages maxTokens preserveSystem minMessages) ≤ maxTokens := by
  by_cases hover : maxTokens < tokens (messages.map id)
  · by_contra hstill
    rw [slidingWindow_eq, ← List.map_id (slidingWindowOf id messages _ _ _), Int.not_le] at hstill
    have hnil := keptOf_eq_nil_of_over hover hstill
    rw [tokens_slidingWindowOf_of_over hover, hnil, map_systemMsgsOf, List.map_id] at hstill
    rw [List.map_nil, tokens_nil] at hstill
    omega
  · rw [List.map_id, Int.not_lt] at hover
    rw [slidingWindow, if_pos hover]
    exact hover

theorem systemMsgs_sublist_slidingWindow [Floats] (messages : List Message)
    (maxTokens minMessages : ℤ)
    (preserveSystem : Bool) : (systemMsgs messages preserveSystem).Sublist
      (slidingWindow messages maxTokens preserveSystem minMessages) := by
  unfold slidingWindow
  split_ifs
  · exact systemMsgs_sublist messages preserveSystem
  · exact List.sublist_append_left _ _

end Stages

/-- Where the preserved messages are within the limit, the window is the last stage that has
anything to do. -/
theorem pipeline_eq [Floats] (md5 : String → String) (self : Condenser) (inp : CondenserInput)
    (hstrategy : self.strategy = .slidingWindow ∨ self.strategy = .hybrid)
    (hfit : tokens (systemMsgs inp.messages inp.preserveSystem) ≤ inp.maxTokens) :
    ∃ messages, systemMsgs messages inp.preserveSystem =
        systemMsgs inp.messages inp.preserveSystem ∧
      self.pipeline md5 inp =
        slidingWindow messages inp.maxTokens inp.preserveSystem inp.minMessages := by
  unfold Condenser.pipeline
  rcases hstrategy with hstrategy | hstrategy
  · refine ⟨inp.messages, rfl, ?_⟩
    simp [hstrategy]
  · have hdedup := systemMsgs_dedup md5 inp.messages inp.preserveSystem
    refine ⟨dedup md5 inp.messages inp.preserveSystem, hdedup, ?_⟩
    have hle : tokens (slidingWindow (dedup md5 inp.messages inp.preserveSystem) inp.maxTokens
        inp.preserveSystem inp.minMessages) ≤ inp.maxTokens :=
      tokens_slidingWindow_le (hdedup ▸ hfit)
    simp [hstrategy, Int.not_lt.mpr hle]

/-- With a window the condenser keeps to the limit where the preserved messages do, and then it
keeps these messages. -/
theorem condense_within_limit [Floats] (md5 : String → String) (self : Condenser)
    (inp : CondenserInput)
    (elapsed : ℚ) (hstrategy : self.strategy = .slidingWindow ∨ self.strategy = .hybrid)
    (hmax : 0 ≤ inp.maxTokens)
    (hfit : inp.preserveSystem = false ∨
      tokens (inp.messages.filter (·.role = "system")) ≤ inp.maxTokens) :
    (self.condense md5 inp elapsed).1.compressedTokens ≤ inp.maxTokens ∧
      (inp.preserveSystem = true → (inp.messages.filter (·.role = "system")).Sublist
        (self.condense md5 inp elapsed).1.messages) := by
  have hsystem : tokens (systemMsgs inp.messages inp.preserveSystem) ≤ inp.maxTokens := by
    unfold systemMsgs
    split_ifs with hpreserve
    · exact hfit.resolve_left (by simp [hpreserve])
    · exact hmax
  obtain ⟨messages, hkept, hpipeline⟩ := pipeline_eq md5 self inp hstrategy hsystem
  unfold Condenser.condense
  dsimp only
  rw [hpipeline]
  constructor
  · apply tokens_slidingWindow_le
    rw [hkept]
    exact hsystem
  · intro hpreserve
    have hsub := systemMsgs_sublist_slidingWindow messages inp.maxTokens inp.minMessages
      inp.preserveSystem
    rw [hkept, hpreserve] at hsub
    rw [hpreserve]
    exact hsub

section Greeting

open scoped Floats.Binary64

/-- The digests of the texts that `greeting` hashes. -/
def greetingMd5 (text : String) : String :=
  if text = "user:Hello!" then "af8c63b79e3c73f9681772474a6ebcf4"
  else if text = "user:Tell me more." then "03b73664fbdd8de9df76c39411b067b9"
  else ""

/-- Seven tokens, of which one is said twice and two are a system message. -/
def greeting : CondenserInput where
  messages :=
    [{ role := "system", content := "Be brief.", timestamp := 0, tokenCount := 2 },
      { role := "user", content := "Hello!", timestamp := 1, tokenCount := 1 },
      { role := "user", content := "Hello!", timestamp := 2, tokenCount := 1 },
      { role := "user", content := "Tell me more.", timestamp := 3, tokenCount := 3 }]
  maxTokens := 5

theorem greeting_within_limit :
    (Condenser.condense greetingMd5 {} greeting 0).1.compressedTokens ≤ 5 ∧
      (greeting.messages.take 1).Sublist
        (Condenser.condense greetingMd5 {} greeting 0).1.messages := by
  have hlimit := condense_within_limit greetingMd5 {} greeting 0 (.inr rfl) (by decide)
    (.inr (by decide))
  exact ⟨hlimit.1, hlimit.2 rfl⟩

end Greeting

end LingNet.Condense
