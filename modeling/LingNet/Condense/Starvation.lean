import LingNet.Condense.Entitlement

/-! Whether the window keeps the messages that it promises at least. It looks at the messages by
their score, so a few that score well can take up the room of more that would fit. -/
namespace LingNet.Condense

open Greedy

/-- The messages that are not of the system. -/
def nonSystem (messages : List Message) : List Message :=
  messages.filter (·.role ≠ "system")

/-- There are so many messages besides those of the system, and beside the preserved ones there is
room for them. -/
def Attainable (received : List Message) (maxTokens : ℤ) (preserveSystem : Bool)
    (minMessages : ℤ) : Prop :=
  ∃ group, group.Sublist (nonSystem received) ∧ (group.length : ℤ) = minMessages ∧
    tokens group ≤ maxTokens - tokens (systemMsgs received preserveSystem)

/-- The messages keep the promise of `min_messages` where it can be kept. -/
def Condenser.KeepsMinimum [Floats] (md5 : String → String) (self : Condenser)
    (inp : CondenserInput)
    (elapsed : ℚ) : Prop :=
  Attainable (self.receivedOf id md5 inp inp.messages) inp.maxTokens inp.preserveSystem
      inp.minMessages →
    inp.minMessages ≤ (nonSystem (self.condense md5 inp elapsed).1.messages).length

/-- Enough messages in nine tenths of the budget. -/
def Full [Floats] (budget minMessages : ℤ) (kept : List Message) : Prop :=
  minMessages ≤ kept.length ∧ nineTenths budget ≤ tokens kept

/-- A group of messages within the budget. Messages that go on behind enough of their group do not
count as one. -/
structure Admissible [Floats] (scored : List Message) (budget minMessages : ℤ) (K : Finset ℕ) :
    Prop where
  within : tokens (picks K scored) ≤ budget
  needed : ∀ r m, scored[r]? = some m → r ∈ K → ¬ Full budget minMessages (picks K (scored.take r))

/-- A group with enough messages outranks every group with too few: the message with the best score
that is in only one of the two is in the former. -/
def EnoughOutrank [Floats] (scored : List Message) (budget minMessages : ℤ) : Prop :=
  ∃ K, Admissible scored budget minMessages K ∧
    minMessages ≤ (nonSystem (picks K scored)).length ∧
    ∀ K', Admissible scored budget minMessages K' →
      (nonSystem (picks K' scored)).length < minMessages → Outranks scored.length K K'

/-- The window has no reason to go below the minimum. -/
def Condenser.LeavesRoom [Floats] (md5 : String → String) (self : Condenser)
    (inp : CondenserInput) : Prop :=
  let received := self.receivedOf id md5 inp inp.messages
  let budget := inp.maxTokens - tokens (systemMsgs received inp.preserveSystem)
  ¬ Attainable received inp.maxTokens inp.preserveSystem inp.minMessages ∨
    tokens received ≤ inp.maxTokens ∨
    EnoughOutrank (rankedOf id received inp.preserveSystem) budget inp.minMessages

section Window

variable {scored : List Message} {budget minMessages : ℤ} {K : Finset ℕ}

theorem full_mono [Floats] {kept kept' : List Message} (hsub : kept.Sublist kept')
    (hcount : ∀ m ∈ kept', 0 ≤ m.tokenCount) (hfull : Full budget minMessages kept) :
    Full budget minMessages kept' := by
  have hlength := hsub.length_le
  have htokens : (tokens kept : ℚ) ≤ tokens kept' := by
    exact_mod_cast tokens_sublist_le hsub hcount
  constructor
  · have hmin := hfull.1
    omega
  · exact hfull.2.trans htokens

theorem windowRule_full [Floats] (kept : List Message) :
    (windowRule id budget minMessages).full kept = true ↔ Full budget minMessages kept := by
  simp [windowRule, Full]

theorem windowRule_fits [Floats] (kept : List Message) (m : Message) :
    (windowRule id budget minMessages).fits kept m = true ↔
      tokens kept + m.tokenCount ≤ budget := by
  simp [windowRule]

theorem tokens_picks_take_le [Floats] (hadmits : (windowRule id budget minMessages).Admits scored K)
    (hbudget : 0 ≤ budget) (r : ℕ) : tokens (picks K (scored.take r)) ≤ budget := by
  induction r with
  | zero => simpa using hbudget
  | succ r ih =>
    cases hm : scored[r]? with
    | none =>
      have hlength : scored.length ≤ r := List.getElem?_eq_none_iff.mp hm
      rwa [List.take_of_length_le (by omega), ← List.take_of_length_le hlength]
    | some m =>
      rw [picks_take_succ hm]
      split_ifs with hr
      · have hfits := (hadmits r m hm hr).2
        rw [windowRule_fits] at hfits
        rwa [tokens_append, tokens_cons, tokens_nil, add_zero]
      · rwa [List.append_nil]

/-- Where no count is negative, the groups within the budget are those that the window could
take. -/
theorem admissible_iff [Floats] (hcount : ∀ m ∈ scored, 0 ≤ m.tokenCount) (hbudget : 0 ≤ budget)
    (hmin : 0 < minMessages) :
    Admissible scored budget minMessages K ↔
      (windowRule id budget minMessages).Admits scored K := by
  have hkept (r : ℕ) : ∀ m ∈ picks K (scored.take r), 0 ≤ m.tokenCount := fun m hm =>
    hcount m (List.mem_of_mem_take ((picks_sublist K _).subset hm))
  constructor
  · intro hgroup r m hm hr
    constructor
    · intro q hq
      rw [← Bool.not_eq_true, windowRule_full]
      intro hfull
      have hsub := picks_take_sublist K scored (show q + 1 ≤ r by omega)
      exact hgroup.needed r m hm hr (full_mono hsub (hkept r) hfull)
    · have hle := tokens_sublist_le (picks_take_sublist_self K scored (r + 1))
        fun m hm => hcount m ((picks_sublist K scored).subset hm)
      have htotal := hgroup.within
      rw [picks_take_succ hm, if_pos hr, tokens_append, tokens_cons, tokens_nil] at hle
      rw [windowRule_fits]
      omega
  · intro hadmits
    constructor
    · have hall := tokens_picks_take_le hadmits hbudget scored.length
      rwa [List.take_length] at hall
    · intro r m hm hr hfull
      cases r with
      | zero =>
        have hle := hfull.1
        rw [List.take_zero, picks_nil, List.length_nil] at hle
        omega
      | succ q =>
        have hopen := (hadmits (q + 1) m hm hr).1 q (Nat.lt_succ_self q)
        rw [← Bool.not_eq_true, windowRule_full] at hopen
        exact hopen hfull

end Window

theorem nonSystem_eq (messages : List Message) : nonSystem messages = nonSystemOf id messages := rfl

theorem mem_of_mem_rankedOf [Floats] {received : List Message} {preserveSystem : Bool} {m : Message}
    (hm : m ∈ rankedOf id received preserveSystem) : m ∈ received := by
  have hother := (List.mem_insertionSort _).mp hm
  exact List.filter_sublist.subset hother

/-- Of the messages that a window takes, those that are not of the system come through. -/
theorem length_nonSystem_condense [Floats] {md5 : String → String} {self : Condenser}
    {inp : CondenserInput}
    {elapsed : ℚ} (hstrategy : self.strategy = .slidingWindow ∨ self.strategy = .hybrid)
    (hover : inp.maxTokens < tokens (self.receivedOf id md5 inp inp.messages)) :
    (nonSystem (self.condense md5 inp elapsed).1.messages).length =
      (nonSystem (keptOf id (self.receivedOf id md5 inp inp.messages) inp.maxTokens
        inp.minMessages inp.preserveSystem)).length := by
  have hover' : inp.maxTokens < tokens ((self.receivedOf id md5 inp inp.messages).map id) := by
    rwa [List.map_id]
  have hpipeline := nonSystemOf_pipelineOf hstrategy hover'
  have hsort := (List.perm_insertionSort (fun a b : Message => (id a).timestamp ≤ (id b).timestamp)
    (keptOf id (self.receivedOf id md5 inp inp.messages) inp.maxTokens inp.minMessages
      inp.preserveSystem)).filter fun m => decide (m.role ≠ "system")
  unfold Condenser.condense
  dsimp only
  rw [pipeline_eq_pipelineOf, nonSystem_eq, hpipeline]
  exact hsort.length_eq

/-- The window keeps as many messages as asked for exactly where a group of so many outranks those
of fewer. -/
theorem min_le_kept_iff [Floats] {received : List Message} {maxTokens minMessages : ℤ}
    {preserveSystem : Bool} (hcount : ∀ m ∈ received, 0 ≤ m.tokenCount)
    (hbudget : 0 ≤ maxTokens - tokens (systemMsgs received preserveSystem)) :
    minMessages ≤ (nonSystem (keptOf id received maxTokens minMessages
        preserveSystem)).length ↔
      EnoughOutrank (rankedOf id received preserveSystem)
        (maxTokens - tokens (systemMsgs received preserveSystem)) minMessages := by
  by_cases hmin : 0 < minMessages
  · have hranked : ∀ m ∈ rankedOf id received preserveSystem, 0 ≤ m.tokenCount :=
      fun m hm => hcount m (mem_of_mem_rankedOf hm)
    have hsystem : (systemMsgsOf id received preserveSystem).map id =
        systemMsgs received preserveSystem := by
      rw [map_systemMsgsOf, List.map_id]
    unfold keptOf EnoughOutrank
    rw [hsystem, Rule.run_iff_outranks _ _ fun kept => minMessages ≤ (nonSystem kept).length]
    simp only [admissible_iff hranked hbudget hmin, Int.not_le]
  · have hnone (n : ℕ) : minMessages ≤ n := by omega
    have hempty : picks ∅ (rankedOf id received preserveSystem) = [] := by
      simp [picks]
    refine iff_of_true (hnone _) ⟨∅, ⟨?_, ?_⟩, hnone _, fun K' _ hfew => ?_⟩
    · rw [hempty]
      exact hbudget
    · intro r m _ hr
      exact absurd hr (Finset.notMem_empty r)
    · exact absurd (hnone _) (Int.not_le.mpr hfew)

/-- A window keeps the minimum of messages exactly where it need not choose, or where enough of them
outrank any group of too few. -/
theorem keepsMinimum_iff [Floats] (md5 : String → String) (self : Condenser) (inp : CondenserInput)
    (elapsed : ℚ) (hstrategy : self.strategy = .slidingWindow ∨ self.strategy = .hybrid)
    (hcount : ∀ m ∈ inp.messages, 0 < m.tokenCount) :
    self.KeepsMinimum md5 inp elapsed ↔ self.LeavesRoom md5 inp := by
  have hsub := receivedOf_sublist id md5 self inp inp.messages
  unfold Condenser.KeepsMinimum Condenser.LeavesRoom
  dsimp only
  by_cases hatt : Attainable (self.receivedOf id md5 inp inp.messages) inp.maxTokens
      inp.preserveSystem inp.minMessages
  · rw [imp_iff_right hatt, or_iff_right (not_not.mpr hatt)]
    obtain ⟨group, hgroup, hlength, hroom⟩ := hatt
    by_cases hfits : tokens (self.receivedOf id md5 inp inp.messages) ≤ inp.maxTokens
    · have hpipeline : self.pipelineOf id md5 inp inp.messages =
          self.receivedOf id md5 inp inp.messages :=
        pipelineOf_of_fits hstrategy (by rwa [List.map_id])
      have hle := hgroup.length_le
      apply iff_of_true _ (.inl hfits)
      unfold Condenser.condense
      dsimp only
      rw [pipeline_eq_pipelineOf, hpipeline]
      omega
    · rw [or_iff_right hfits, length_nonSystem_condense hstrategy (Int.not_le.mp hfits)]
      apply min_le_kept_iff
      · intro m hm
        exact (hcount m (hsub.subset hm)).le
      · have hnonneg : 0 ≤ tokens group := by
          apply tokens_nonneg
          intro m hm
          have hmem := List.filter_sublist.subset (hgroup.subset hm)
          exact (hcount m (hsub.subset hmem)).le
        omega
  · exact iff_of_true (fun h => absurd h hatt) (.inl hatt)

section Lecture

open scoped Floats.Binary64

/-- Three messages for ten tokens, of which the longest is the most important. -/
def lecture : CondenserInput where
  messages :=
    [{ role := "assistant", content := "Qubits are subtle.", timestamp := 0, tokenCount := 9 },
      { role := "user", content := "Why not?", timestamp := 1, tokenCount := 5, importance := 0 },
      { role := "user", content := "Anyone?", timestamp := 2, tokenCount := 5, importance := 0 }]
  maxTokens := 10

/-- The only message that is kept takes the room of the two that are asked for. -/
theorem lecture_starves :
    (∀ m ∈ lecture.messages, 0 < m.tokenCount) ∧
      ¬ Condenser.KeepsMinimum greetingMd5 { strategy := .slidingWindow } lecture 0 := by
  refine ⟨by decide +kernel, fun hkeeps => ?_⟩
  have hatt : Attainable (Condenser.receivedOf id greetingMd5 { strategy := .slidingWindow } lecture
      lecture.messages) lecture.maxTokens lecture.preserveSystem lecture.minMessages :=
    ⟨lecture.messages.drop 1, by decide +kernel, by decide +kernel, by decide +kernel⟩
  have hone : (nonSystem (Condenser.condense greetingMd5 { strategy := .slidingWindow } lecture
      0).1.messages).length = 1 := by
    decide +kernel
  have hle := hkeeps hatt
  rw [hone] at hle
  exact absurd hle (by decide)

theorem keepsMinimum_iff_lecture :
    Condenser.KeepsMinimum greetingMd5 { strategy := .slidingWindow } lecture 0 ↔
      Condenser.LeavesRoom greetingMd5 { strategy := .slidingWindow } lecture :=
  keepsMinimum_iff greetingMd5 { strategy := .slidingWindow } lecture 0 (.inl rfl)
    (by decide +kernel)

/-- Three messages of ten microseconds, whose scores are one float. -/
def chatter : List Message :=
  [9, 5, 5].mapIdx fun i tokens =>
    { role := "user", content := "Hm.", timestamp := Floats.nearest (1700000000 + i / 100000)
      tokenCount := tokens }

example : (slidingWindow chatter 10 true 2).map (·.tokenCount) = [9] ∧
    (@slidingWindow Floats.exact chatter 10 true 2).map (·.tokenCount) = [5, 5] := by
  decide +kernel

end Lecture

end LingNet.Condense
