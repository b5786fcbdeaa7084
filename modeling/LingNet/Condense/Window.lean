import LingNet.Condense.Tracking
import LingNet.Lib.Greedy

/-! The window as a greedy choice by score, and what it and the stages around it hand on. -/
namespace LingNet.Condense

variable {α : Type} (view : α → Message)

/-- What the window takes by: room for one message more, and enough messages in nine tenths of the
budget. -/
def windowRule [Floats] (budget minMessages : ℤ) : Greedy.Rule α where
  fits kept a := tokens (kept.map view) + (view a).tokenCount ≤ budget
  full kept := minMessages ≤ kept.length ∧ nineTenths budget ≤ tokens (kept.map view)

section Window

variable {view} {md5 : String → String} {budget minMessages maxTokens : ℤ} {preserveSystem : Bool}

/-- The loop of the window is greedy by this rule: that it keeps less than all the messages goes
without saying. -/
theorem keepOf_eq_run [Floats] {others : ℕ} {scored kept : List α} {used : ℤ}
    (hlength : kept.length + scored.length ≤ others) (hused : tokens (kept.map view) = used) :
    keepOf view others budget minMessages scored kept used =
      (windowRule view budget minMessages).run scored kept := by
  induction scored generalizing kept used with
  | nil => rfl
  | cons a scored ih =>
    rw [List.length_cons] at hlength
    have hroom : kept.length < others := by omega
    have hgrow : (kept ++ [a]).length + scored.length ≤ others := by
      rw [List.length_append, List.length_singleton]
      omega
    have hadd : tokens ((kept ++ [a]).map view) = used + (view a).tokenCount := by
      simp [hused]
    unfold keepOf Greedy.Rule.run windowRule
    simp only [hroom, and_true, hused]
    by_cases hfits : used + (view a).tokenCount ≤ budget
    · simp only [hfits, decide_true, if_true, hadd, decide_eq_true_eq]
      split_ifs
      · rfl
      · exact ih hgrow hadd
    · simp only [hfits, decide_false, Bool.false_eq_true, if_false, hused, decide_eq_true_eq]
      split_ifs
      · rfl
      · exact ih (by omega) hused

/-- What the window keeps besides the system messages, before it puts that in order. -/
def keptOf [Floats] (view : α → Message) (l : List α) (maxTokens minMessages : ℤ)
    (preserveSystem : Bool) :
    List α :=
  (windowRule view (maxTokens - tokens ((systemMsgsOf view l preserveSystem).map view))
    minMessages).run (rankedOf view l preserveSystem) []

theorem slidingWindowOf_of_over [Floats] {l : List α} (hover : maxTokens < tokens (l.map view)) :
    slidingWindowOf view l maxTokens preserveSystem minMessages =
      systemMsgsOf view l preserveSystem ++
        (keptOf view l maxTokens minMessages preserveSystem).insertionSort
          fun a b => (view a).timestamp ≤ (view b).timestamp := by
  have hlength : ([] : List α).length + (rankedOf view l preserveSystem).length ≤
      (otherMsgsOf view l preserveSystem).length := by
    rw [rankedOf, List.length_insertionSort]
    simp
  unfold slidingWindowOf keptOf
  rw [if_neg (Int.not_le.mpr hover)]
  dsimp only
  rw [keepOf_eq_run hlength (by simp)]

theorem keptOf_sublist [Floats] (l : List α) (maxTokens minMessages : ℤ) (preserveSystem : Bool) :
    (keptOf view l maxTokens minMessages preserveSystem).Sublist (rankedOf view l preserveSystem) :=
  Greedy.Rule.run_sublist _ _

/-- What has been kept fits, once something has been. -/
theorem tokens_keptOf_le [Floats] {l : List α}
    (hne : keptOf view l maxTokens minMessages preserveSystem ≠ []) :
    tokens ((keptOf view l maxTokens minMessages preserveSystem).map view) ≤
      maxTokens - tokens ((systemMsgsOf view l preserveSystem).map view) := by
  unfold keptOf at hne ⊢
  revert hne
  apply Greedy.Rule.run_induction (P := fun kept => kept ≠ [] → tokens (kept.map view) ≤ _)
  · intro kept a _ hfits _
    have hle : tokens (kept.map view) + (view a).tokenCount ≤
        maxTokens - tokens ((systemMsgsOf view l preserveSystem).map view) := by
      simpa [windowRule] using hfits
    simpa using hle
  · intro hne
    exact absurd rfl hne

theorem tokens_slidingWindowOf_of_over [Floats] {l : List α}
    (hover : maxTokens < tokens (l.map view)) :
    tokens ((slidingWindowOf view l maxTokens preserveSystem minMessages).map view) =
      tokens ((systemMsgsOf view l preserveSystem).map view) +
        tokens ((keptOf view l maxTokens minMessages preserveSystem).map view) := by
  have hsort := (keptOf view l maxTokens minMessages preserveSystem).perm_insertionSort
    fun a b => (view a).timestamp ≤ (view b).timestamp
  rw [slidingWindowOf_of_over hover, List.map_append, tokens_append, tokens_perm (hsort.map view)]

/-- A window that is still over the limit has kept the system messages and no other. -/
theorem keptOf_eq_nil_of_over [Floats] {l : List α} (hover : maxTokens < tokens (l.map view))
    (hstill : maxTokens <
      tokens ((slidingWindowOf view l maxTokens preserveSystem minMessages).map view)) :
    keptOf view l maxTokens minMessages preserveSystem = [] := by
  by_contra hne
  have hle := tokens_keptOf_le hne
  rw [tokens_slidingWindowOf_of_over hover] at hstill
  omega

theorem systemMsgsOf_append_otherMsgsOf (l : List α) (preserveSystem : Bool) :
    (systemMsgsOf view l preserveSystem ++ otherMsgsOf view l preserveSystem).Perm l := by
  cases preserveSystem with
  | false => simp [systemMsgsOf, otherMsgsOf]
  | true =>
    have hsplit := List.filter_append_perm (fun a => decide ((view a).role = "system")) l
    simpa [systemMsgsOf, otherMsgsOf] using hsplit

/-- The window duplicates nothing and invents nothing. -/
theorem subperm_slidingWindowOf [Floats] (l : List α) (maxTokens minMessages : ℤ)
    (preserveSystem : Bool) :
    (slidingWindowOf view l maxTokens preserveSystem minMessages).Subperm l := by
  by_cases hover : maxTokens < tokens (l.map view)
  · have hkept : ((keptOf view l maxTokens minMessages preserveSystem).insertionSort
        fun a b => (view a).timestamp ≤ (view b).timestamp).Subperm
        (otherMsgsOf view l preserveSystem) := by
      have hranked := List.perm_insertionSort (fun a b => score (view b) ≤ score (view a))
        (otherMsgsOf view l preserveSystem)
      apply (List.perm_insertionSort _ _).subperm.trans
      exact (keptOf_sublist l maxTokens minMessages preserveSystem).subperm.trans hranked.subperm
    rw [slidingWindowOf_of_over hover]
    apply ((List.subperm_append_left _).mpr hkept).trans
    exact (systemMsgsOf_append_otherMsgsOf l preserveSystem).subperm
  · rw [slidingWindowOf, if_pos (Int.not_lt.mp hover)]

theorem slidingWindow_eq [Floats] (messages : List Message) (maxTokens minMessages : ℤ)
    (preserveSystem : Bool) : slidingWindow messages maxTokens preserveSystem minMessages =
      slidingWindowOf id messages maxTokens preserveSystem minMessages := by
  have hmap : (slidingWindowOf id messages maxTokens preserveSystem minMessages).map id =
      slidingWindow (messages.map id) maxTokens preserveSystem minMessages :=
    map_slidingWindowOf id messages maxTokens minMessages
  rw [List.map_id, List.map_id] at hmap
  exact hmap.symm

theorem subperm_pipelineOf [Floats] (self : Condenser) (inp : CondenserInput) (l : List α) :
    (self.pipelineOf view md5 inp l).Subperm l := by
  have hreceived := (receivedOf_sublist view md5 self inp l).subperm
  have hwindow : (if self.strategy ∈ [.slidingWindow, .hybrid] then
      slidingWindowOf view (self.receivedOf view md5 inp l) inp.maxTokens inp.preserveSystem
        inp.minMessages
      else self.receivedOf view md5 inp l).Subperm l := by
    split_ifs
    · exact (subperm_slidingWindowOf _ _ _ _).trans hreceived
    · exact hreceived
  unfold Condenser.pipelineOf
  dsimp only
  generalize (if self.strategy ∈ [.slidingWindow, .hybrid] then
    slidingWindowOf view (self.receivedOf view md5 inp l) inp.maxTokens inp.preserveSystem
      inp.minMessages
    else self.receivedOf view md5 inp l) = window at hwindow ⊢
  split_ifs
  · exact (summarizeTriggerOf_sublist view window _).subperm.trans hwindow
  · exact hwindow
  · exact hwindow

/-- What the condenser hands on is not ranked and not cut where the window has no need to. -/
theorem pipelineOf_of_fits [Floats] {self : Condenser} {inp : CondenserInput} {l : List α}
    (hstrategy : self.strategy = .slidingWindow ∨ self.strategy = .hybrid)
    (hfits : tokens ((self.receivedOf view md5 inp l).map view) ≤ inp.maxTokens) :
    self.pipelineOf view md5 inp l = self.receivedOf view md5 inp l := by
  have hwindow : slidingWindowOf view (self.receivedOf view md5 inp l) inp.maxTokens
      inp.preserveSystem inp.minMessages = self.receivedOf view md5 inp l := by
    rw [slidingWindowOf, if_pos hfits]
  unfold Condenser.pipelineOf
  rcases hstrategy with hstrategy | hstrategy <;>
    simp [hstrategy, hwindow, Int.not_lt.mpr hfits]

def nonSystemOf (view : α → Message) (l : List α) : List α :=
  l.filter fun a => (view a).role ≠ "system"

theorem nonSystemOf_systemMsgsOf (l : List α) :
    nonSystemOf view (systemMsgsOf view l preserveSystem) = [] := by
  unfold nonSystemOf systemMsgsOf
  split_ifs
  · simp
  · rfl

theorem nonSystemOf_sublist (view : α → Message) {l l' : List α} (hsub : l.Sublist l') :
    (nonSystemOf view l).Sublist (nonSystemOf view l') :=
  hsub.filter _

theorem nonSystemOf_slidingWindowOf [Floats] {l : List α}
    (hover : maxTokens < tokens (l.map view)) :
    nonSystemOf view (slidingWindowOf view l maxTokens preserveSystem minMessages) =
      nonSystemOf view ((keptOf view l maxTokens minMessages preserveSystem).insertionSort
        fun a b => (view a).timestamp ≤ (view b).timestamp) := by
  have hsystem : nonSystemOf view (systemMsgsOf view l preserveSystem) = [] :=
    nonSystemOf_systemMsgsOf l
  rw [slidingWindowOf_of_over hover]
  unfold nonSystemOf at hsystem ⊢
  rw [List.filter_append, hsystem, List.nil_append]

/-- The summary behind a window has nothing to do with other messages than those of the system. -/
theorem nonSystemOf_summarizeTriggerOf [Floats] {l : List α}
    (hover : maxTokens < tokens (l.map view)) :
    nonSystemOf view (summarizeTriggerOf view
        (slidingWindowOf view l maxTokens preserveSystem minMessages) maxTokens) =
      nonSystemOf view (slidingWindowOf view l maxTokens preserveSystem minMessages) := by
  by_cases hstill : maxTokens <
      tokens ((slidingWindowOf view l maxTokens preserveSystem minMessages).map view)
  · have hnil := keptOf_eq_nil_of_over hover hstill
    have hnone : nonSystemOf view
        (slidingWindowOf view l maxTokens preserveSystem minMessages) = [] := by
      rw [nonSystemOf_slidingWindowOf hover, hnil]
      rfl
    have hsub := nonSystemOf_sublist view (summarizeTriggerOf_sublist view
      (slidingWindowOf view l maxTokens preserveSystem minMessages) maxTokens)
    rw [hnone] at hsub ⊢
    exact List.sublist_nil.mp hsub
  · rw [summarizeTriggerOf, if_pos (Int.not_lt.mp hstill)]

theorem nonSystemOf_pipelineOf [Floats] {self : Condenser} {inp : CondenserInput} {l : List α}
    (hstrategy : self.strategy = .slidingWindow ∨ self.strategy = .hybrid)
    (hover : inp.maxTokens < tokens ((self.receivedOf view md5 inp l).map view)) :
    nonSystemOf view (self.pipelineOf view md5 inp l) =
      nonSystemOf view ((keptOf view (self.receivedOf view md5 inp l) inp.maxTokens
        inp.minMessages inp.preserveSystem).insertionSort
          fun a b => (view a).timestamp ≤ (view b).timestamp) := by
  rw [← nonSystemOf_slidingWindowOf hover]
  unfold Condenser.pipelineOf
  rcases hstrategy with hstrategy | hstrategy
  · simp [hstrategy]
  · simp only [hstrategy, List.mem_cons, reduceCtorEq, List.not_mem_nil, or_false, or_true, if_true]
    split_ifs
    · exact nonSystemOf_summarizeTriggerOf hover
    · rfl

end Window

end LingNet.Condense
