import LingNet.Condense.Budget

/-! Whether the conversation comes back in its order. The window puts what it has chosen by score in
the order of time again, and leaves it by score where the times are the same. -/
namespace LingNet.Condense

open Greedy

section Exactly

-- rounded, the scores of two messages that differ in importance can be the same
open scoped Floats.Exact

/-- The places in the input of the messages in the output, those of the system apart. -/
def Condenser.order (md5 : String → String) (self : Condenser) (inp : CondenserInput) : List ℕ :=
  (nonSystemOf Prod.fst (self.placed md5 inp)).map Prod.snd

/-- There are two messages of the same time, the later one more important. -/
def Inverted (kept : List (Message × ℕ)) : Prop :=
  ∃ p ∈ kept, ∃ q ∈ kept, p.2 < q.2 ∧ p.1.timestamp = q.1.timestamp ∧
    p.1.importance < q.1.importance

/-- The window has no choice to make, or none of its choices by score takes two messages of the same
time against their order. -/
def Condenser.RanksInOrder (md5 : String → String) (self : Condenser) (inp : CondenserInput) :
    Prop :=
  let received := self.receivedOf Prod.fst md5 inp inp.messages.zipIdx
  let budget := inp.maxTokens -
    tokens ((systemMsgsOf Prod.fst received inp.preserveSystem).map Prod.fst)
  ¬ (self.strategy = .slidingWindow ∨ self.strategy = .hybrid) ∨
    tokens (received.map Prod.fst) ≤ inp.maxTokens ∨
    ∀ K, (windowRule Prod.fst budget inp.minMessages).Selects
        (rankedOf Prod.fst received inp.preserveSystem) K →
      ¬ Inverted (nonSystemOf Prod.fst (picks K (rankedOf Prod.fst received inp.preserveSystem)))

/-- In this order and at no earlier time. -/
def Follows (p q : Message × ℕ) : Prop := p.2 < q.2 ∧ p.1.timestamp ≤ q.1.timestamp

section Places

variable {messages : List Message} {md5 : String → String} {preserveSystem : Bool}

theorem pairwise_zipIdx (htime : messages.Pairwise fun a b => a.timestamp ≤ b.timestamp) (n : ℕ) :
    (messages.zipIdx n).Pairwise Follows := by
  induction messages generalizing n with
  | nil => exact List.Pairwise.nil
  | cons m messages ih =>
    obtain ⟨hhead, htail⟩ := List.pairwise_cons.mp htime
    rw [List.zipIdx_cons, List.pairwise_cons]
    refine ⟨fun p hp => ?_, ih htail (n + 1)⟩
    obtain ⟨hle, hlt, heq⟩ := List.mem_zipIdx (x := p.1) (i := p.2) hp
    have hmem : p.1 ∈ messages := by
      rw [heq]
      exact List.getElem_mem _
    have hplace : n < p.2 := by omega
    exact ⟨hplace, hhead p.1 hmem⟩

/-- What is ranked by score and then by time: neither sort changes the order of what it does not
tell apart. -/
theorem pairwise_sorted {received kept : List (Message × ℕ)} (hreceived : received.Pairwise Follows)
    (hsub : kept.Sublist (rankedOf Prod.fst received preserveSystem)) :
    (kept.insertionSort fun a b => a.1.timestamp ≤ b.1.timestamp).Pairwise fun p q =>
      p.1.timestamp ≤ q.1.timestamp ∧ (q.1.timestamp ≤ p.1.timestamp →
        score q.1 ≤ score p.1 ∧ (score p.1 ≤ score q.1 → Follows p q)) := by
  have hothers : (otherMsgsOf Prod.fst received preserveSystem).Pairwise Follows :=
    hreceived.sublist List.filter_sublist
  have htotal : Std.Total fun a b : Message × ℕ => score b.1 ≤ score a.1 :=
    ⟨fun a b => le_total (score b.1) (score a.1)⟩
  have htrans : IsTrans (Message × ℕ) fun a b => score b.1 ≤ score a.1 :=
    ⟨fun _ _ _ hab hbc => hbc.trans hab⟩
  have htotal' : Std.Total fun a b : Message × ℕ => a.1.timestamp ≤ b.1.timestamp :=
    ⟨fun a b => le_total a.1.timestamp b.1.timestamp⟩
  have htrans' : IsTrans (Message × ℕ) fun a b => a.1.timestamp ≤ b.1.timestamp :=
    ⟨fun _ _ _ hab hbc => hab.trans hbc⟩
  have hranked := pairwise_insertionSort (r := fun a b : Message × ℕ => score b.1 ≤ score a.1)
    hothers
  exact pairwise_insertionSort (hranked.sublist hsub)

theorem score_lt_iff {m m' : Message} (htime : m.timestamp = m'.timestamp) :
    score m < score m' ↔ m.importance < m'.importance := by
  have hexact (m : Message) :
      score m = m.importance * (6 / 10) + m.timestamp / 10 ^ 12 * (4 / 10) := rfl
  rw [hexact, hexact, htime, add_lt_add_iff_right]
  exact mul_lt_mul_iff_left₀ (by decide +kernel)

/-- Sorted by time the messages are in their order again exactly where none of the same time have
been chosen against it. -/
theorem pairwise_places_iff {received kept : List (Message × ℕ)}
    (hreceived : received.Pairwise Follows)
    (hsub : kept.Sublist (rankedOf Prod.fst received preserveSystem)) :
    ((nonSystemOf Prod.fst (kept.insertionSort fun a b => a.1.timestamp ≤ b.1.timestamp)).map
        Prod.snd).Pairwise (· < ·) ↔ ¬ Inverted (nonSystemOf Prod.fst kept) := by
  have hsorted := (pairwise_sorted hreceived hsub).sublist
    (List.filter_sublist (p := fun a => decide (a.1.role ≠ "system")))
  have hperm := (List.perm_insertionSort (fun a b : Message × ℕ => a.1.timestamp ≤ b.1.timestamp)
    kept).filter fun a => decide (a.1.role ≠ "system")
  have hmem (p : Message × ℕ) (hp : p ∈ nonSystemOf Prod.fst kept) : p ∈ received := by
    have hranked := hsub.subset (List.filter_sublist.subset hp)
    exact List.filter_sublist.subset ((List.mem_insertionSort _).mp hranked)
  rw [List.pairwise_map]
  constructor
  · intro hplaces hinverted
    obtain ⟨p, hp, q, hq, hlt, htime, himportance⟩ := hinverted
    have hscore := (score_lt_iff htime).mpr himportance
    have hne : p ≠ q := by
      intro heq
      rw [heq] at hlt
      exact absurd hlt (lt_irrefl _)
    rcases rel_or_rel (hplaces.and hsorted) (hperm.mem_iff.mpr hp) (hperm.mem_iff.mpr hq) hne
      with hpq | hqp
    · have hle := (hpq.2.2 htime.ge).1
      exact absurd hscore (not_lt.mpr hle)
    · have hback : q.2 < p.2 := hqp.1
      omega
  · intro hnone
    apply hsorted.imp_of_mem
    intro p q hp hq hpq
    have hp' := hperm.mem_iff.mp hp
    have hq' := hperm.mem_iff.mp hq
    by_contra hplace
    -- behind `p` at the same time, `q` can only have come first when it scores worse
    have hscore (htime : q.1.timestamp ≤ p.1.timestamp) : score q.1 < score p.1 := by
      by_contra hle
      exact hplace ((hpq.2 htime).2 (not_lt.mp hle)).1
    by_cases hne : p = q
    · have hlt := hscore (by rw [hne])
      rw [hne] at hlt
      exact absurd hlt (lt_irrefl _)
    · rcases rel_or_rel hreceived (hmem p hp') (hmem q hq') hne with hfollows | hfollows
      · exact hplace hfollows.1
      · have htime : q.1.timestamp = p.1.timestamp := le_antisymm hfollows.2 hpq.1
        have himportance := (score_lt_iff htime).mp (hscore hfollows.2)
        exact hnone ⟨q, hq', p, hp', hfollows.1, htime, himportance⟩

theorem pairwise_places_of_sublist {l : List (Message × ℕ)} (hl : l.Sublist messages.zipIdx) :
    ((nonSystemOf Prod.fst l).map Prod.snd).Pairwise (· < ·) := by
  have hplaces : (messages.zipIdx.map Prod.snd).Pairwise (· < ·) := by
    rw [List.zipIdx_map_snd]
    exact List.pairwise_lt_range'
  exact hplaces.sublist ((List.filter_sublist.trans hl).map Prod.snd)

/-- Without a window the stages only leave messages out. -/
theorem pipelineOf_sublist {α : Type} {view : α → Message} {self : Condenser} {inp : CondenserInput}
    {l : List α} (hstrategy : ¬ (self.strategy = .slidingWindow ∨ self.strategy = .hybrid)) :
    (self.pipelineOf view md5 inp l).Sublist l := by
  have hreceived := receivedOf_sublist view md5 self inp l
  have hwindow : self.strategy ∉ [CompressionStrategy.slidingWindow, .hybrid] := by
    simpa using hstrategy
  unfold Condenser.pipelineOf
  dsimp only
  rw [if_neg hwindow]
  split_ifs
  · exact (summarizeTriggerOf_sublist view _ _).trans hreceived
  · exact hreceived
  · exact hreceived

end Places

/-- The messages come out in the order in which they went in exactly where the window does not
choose two messages of the same time against it. -/
theorem order_iff (md5 : String → String) (self : Condenser) (inp : CondenserInput) (elapsed : ℚ)
    (htime : inp.messages.Pairwise fun a b => a.timestamp ≤ b.timestamp) :
    (self.placed md5 inp).map Prod.fst = (self.condense md5 inp elapsed).1.messages ∧
      ((self.order md5 inp).Pairwise (· < ·) ↔ self.RanksInOrder md5 inp) := by
  have hsub := receivedOf_sublist Prod.fst md5 self inp inp.messages.zipIdx
  refine ⟨placed_map_fst md5 self inp elapsed, ?_⟩
  unfold Condenser.order Condenser.placed Condenser.RanksInOrder
  dsimp only
  by_cases hstrategy : self.strategy = .slidingWindow ∨ self.strategy = .hybrid
  · by_cases hfits : tokens ((self.receivedOf Prod.fst md5 inp inp.messages.zipIdx).map Prod.fst) ≤
        inp.maxTokens
    · rw [pipelineOf_of_fits hstrategy hfits]
      exact iff_of_true (pairwise_places_of_sublist hsub) (.inr (.inl hfits))
    · have hreceived := (pairwise_zipIdx htime 0).sublist hsub
      rw [or_iff_right (not_not.mpr hstrategy), or_iff_right hfits,
        nonSystemOf_pipelineOf hstrategy (Int.not_le.mp hfits),
        pairwise_places_iff hreceived (keptOf_sublist _ _ _ _)]
      exact Rule.run_iff _ _ fun kept => ¬ Inverted (nonSystemOf Prod.fst kept)
  · have hpipeline : (self.pipelineOf Prod.fst md5 inp inp.messages.zipIdx).Sublist
        inp.messages.zipIdx := pipelineOf_sublist hstrategy
    exact iff_of_true (pairwise_places_of_sublist hpipeline) (.inl hstrategy)

/-- Two questions at the same time, the second more important, and an answer that does not fit. -/
def questions : CondenserInput where
  messages :=
    [{ role := "user", content := "Who?", timestamp := 0, tokenCount := 1, importance := 0 },
      { role := "user", content := "Where?", timestamp := 0, tokenCount := 1 },
      { role := "assistant", content := "Nowhere.", timestamp := 1, tokenCount := 9 }]
  maxTokens := 2

/-- The window hands the second question out first. -/
theorem questions_swapped :
    (questions.messages.Pairwise fun a b => a.timestamp ≤ b.timestamp) ∧
      (Condenser.condense greetingMd5 { strategy := .slidingWindow } questions 0).1.messages =
        (questions.messages.take 2).reverse ∧
      ¬ (Condenser.order greetingMd5 { strategy := .slidingWindow } questions).Pairwise
        (· < ·) := by
  decide +kernel

theorem order_iff_questions :
    (Condenser.order greetingMd5 { strategy := .slidingWindow } questions).Pairwise (· < ·) ↔
      Condenser.RanksInOrder greetingMd5 { strategy := .slidingWindow } questions :=
  (order_iff greetingMd5 { strategy := .slidingWindow } questions 0 (by decide +kernel)).2

end Exactly

end LingNet.Condense
