import LingNet.Condense.Pipeline

/-! The stages over messages that carry a mark of their own, such as the place at which a message
was handed in. A stage looks only at the message, so without the marks it is the condenser's. -/
namespace LingNet.Condense

variable {α : Type} (view : α → Message)

def dedupLoopOf (md5 : String → String) (preserveSystem : Bool) : List String → List α → List α
  | _, [] => []
  | seen, a :: l =>
    if preserveSystem ∧ (view a).role = "system" then a :: dedupLoopOf md5 preserveSystem seen l
    else
      let fp := (view a).fingerprint md5
      if fp ∈ seen then dedupLoopOf md5 preserveSystem seen l
      else a :: dedupLoopOf md5 preserveSystem (fp :: seen) l

def dedupOf (md5 : String → String) (l : List α) (preserveSystem : Bool) : List α :=
  dedupLoopOf view md5 preserveSystem [] l

def keepOf [Floats] (others : ℕ) (budget minMessages : ℤ) : List α → List α → ℤ → List α
  | [], kept, _ => kept
  | a :: scored, kept, used =>
    let fits : Bool := used + (view a).tokenCount ≤ budget ∧ kept.length < others
    let kept := if fits then kept ++ [a] else kept
    let used := if fits then used + (view a).tokenCount else used
    if minMessages ≤ kept.length ∧ nineTenths budget ≤ used then kept
    else keepOf others budget minMessages scored kept used

def systemMsgsOf (l : List α) (preserveSystem : Bool) : List α :=
  if preserveSystem then l.filter fun a => (view a).role = "system" else []

def otherMsgsOf (l : List α) (preserveSystem : Bool) : List α :=
  l.filter fun a => (view a).role ≠ "system" ∨ ¬ preserveSystem

/-- The messages that the window chooses from, in the order in which it looks at them. -/
def rankedOf [Floats] (l : List α) (preserveSystem : Bool) : List α :=
  (otherMsgsOf view l preserveSystem).insertionSort fun a b => score (view b) ≤ score (view a)

def slidingWindowOf [Floats] (l : List α) (maxTokens : ℤ) (preserveSystem : Bool)
    (minMessages : ℤ) :
    List α :=
  if tokens (l.map view) ≤ maxTokens then l
  else
    let systemMsgs := systemMsgsOf view l preserveSystem
    let otherMsgs := otherMsgsOf view l preserveSystem
    let budget := maxTokens - tokens (systemMsgs.map view)
    let kept := keepOf view otherMsgs.length budget minMessages (rankedOf view l preserveSystem)
      [] 0
    systemMsgs ++ kept.insertionSort fun a b => (view a).timestamp ≤ (view b).timestamp

def summarizeTriggerOf (l : List α) (maxTokens : ℤ) : List α :=
  if tokens (l.map view) ≤ maxTokens then l
  else if 4 < l.length then l.take 1 ++ l.drop (l.length - 3)
  else l

/-- What the window receives. -/
def Condenser.receivedOf (md5 : String → String) (self : Condenser) (inp : CondenserInput)
    (l : List α) : List α :=
  if self.strategy ∈ [.dedup, .hybrid] then dedupOf view md5 l inp.preserveSystem else l

/-- `pipeline` with the parameters of `inp`, over messages of its own. -/
def Condenser.pipelineOf [Floats] (md5 : String → String) (self : Condenser) (inp : CondenserInput)
    (l : List α) : List α :=
  let l := self.receivedOf view md5 inp l
  let l :=
    if self.strategy ∈ [.slidingWindow, .hybrid] then
      slidingWindowOf view l inp.maxTokens inp.preserveSystem inp.minMessages
    else l
  if self.strategy ∈ [.summarize, .hybrid] then
    if inp.maxTokens < tokens (l.map view) then summarizeTriggerOf view l inp.maxTokens else l
  else l

/-- The messages of the output, each with the place at which it was handed in. -/
def Condenser.placed [Floats] (md5 : String → String) (self : Condenser) (inp : CondenserInput) :
    List (Message × ℕ) :=
  self.pipelineOf Prod.fst md5 inp inp.messages.zipIdx

section Stages

variable (md5 : String → String) {preserveSystem : Bool}

theorem map_dedupLoopOf (seen : List String) (l : List α) :
    (dedupLoopOf view md5 preserveSystem seen l).map view =
      dedupLoop md5 preserveSystem seen (l.map view) := by
  induction l generalizing seen with
  | nil => rfl
  | cons a l ih =>
    simp only [dedupLoopOf, List.map_cons, dedupLoop]
    split_ifs <;> simp [ih]

theorem map_dedupOf (l : List α) :
    (dedupOf view md5 l preserveSystem).map view = dedup md5 (l.map view) preserveSystem :=
  map_dedupLoopOf view md5 [] l

theorem map_keepOf [Floats] (others : ℕ) (budget minMessages : ℤ) (scored kept : List α)
    (used : ℤ) :
    (keepOf view others budget minMessages scored kept used).map view =
      keep others budget minMessages (scored.map view) (kept.map view) used := by
  induction scored generalizing kept used with
  | nil => rfl
  | cons a scored ih =>
    have hkept (fits : Bool) : (if fits then kept ++ [a] else kept).map view =
        if fits then kept.map view ++ [view a] else kept.map view := by
      cases fits <;> simp
    have hlength (fits : Bool) :
        (if fits then kept.map view ++ [view a] else kept.map view).length =
          (if fits then kept ++ [a] else kept).length := by
      rw [← hkept, List.length_map]
    simp only [List.map_cons, keepOf, keep, List.length_map]
    rw [apply_ite (List.map view), ih, hkept, hlength]

theorem map_systemMsgsOf (l : List α) :
    (systemMsgsOf view l preserveSystem).map view = systemMsgs (l.map view) preserveSystem := by
  unfold systemMsgsOf systemMsgs
  split_ifs
  · rw [List.filter_map]
    rfl
  · rfl

theorem map_otherMsgsOf (l : List α) :
    (otherMsgsOf view l preserveSystem).map view = otherMsgs (l.map view) preserveSystem := by
  unfold otherMsgsOf otherMsgs
  rw [List.filter_map]
  rfl

theorem map_rankedOf [Floats] (l : List α) :
    (rankedOf view l preserveSystem).map view =
      (otherMsgs (l.map view) preserveSystem).insertionSort fun a b => score b ≤ score a := by
  unfold rankedOf
  rw [← map_otherMsgsOf]
  apply List.map_insertionSort
  intro a _ b _
  exact Iff.rfl

theorem map_slidingWindowOf [Floats] (l : List α) (maxTokens minMessages : ℤ) :
    (slidingWindowOf view l maxTokens preserveSystem minMessages).map view =
      slidingWindow (l.map view) maxTokens preserveSystem minMessages := by
  have hsort (l : List α) :
      (l.insertionSort fun a b => (view a).timestamp ≤ (view b).timestamp).map view =
        (l.map view).insertionSort fun a b => a.timestamp ≤ b.timestamp := by
    apply List.map_insertionSort
    intro a _ b _
    exact Iff.rfl
  have hlength : (otherMsgsOf view l preserveSystem).length =
      (otherMsgs (l.map view) preserveSystem).length := by
    rw [← map_otherMsgsOf, List.length_map]
  unfold slidingWindowOf slidingWindow
  dsimp only
  split_ifs
  · rfl
  · rw [List.map_append, hsort, map_keepOf, map_rankedOf, map_systemMsgsOf, hlength]
    rfl

theorem map_summarizeTriggerOf (l : List α) (maxTokens : ℤ) :
    (summarizeTriggerOf view l maxTokens).map view = summarizeTrigger (l.map view) maxTokens := by
  simp only [summarizeTriggerOf, summarizeTrigger, List.length_map]
  split_ifs <;> simp

theorem map_receivedOf (self : Condenser) (inp : CondenserInput) (l : List α) :
    (self.receivedOf view md5 inp l).map view =
      if self.strategy ∈ [.dedup, .hybrid] then dedup md5 (l.map view) inp.preserveSystem
      else l.map view := by
  unfold Condenser.receivedOf
  split_ifs
  · exact map_dedupOf view md5 l
  · rfl

/-- Without its marks the output is the output of the condenser. -/
theorem map_pipelineOf [Floats] (self : Condenser) (inp : CondenserInput) (l : List α) :
    (self.pipelineOf view md5 inp l).map view =
      self.pipeline md5 { inp with messages := l.map view } := by
  have hreceived := map_receivedOf view md5 self inp l
  unfold Condenser.pipelineOf Condenser.pipeline
  dsimp only
  rw [← hreceived]
  by_cases hwindow : self.strategy ∈ [.slidingWindow, .hybrid]
  · simp only [hwindow, if_true, map_slidingWindowOf]
    split_ifs <;> simp [map_summarizeTriggerOf, map_slidingWindowOf]
  · simp only [hwindow, if_false]
    split_ifs <;> simp [map_summarizeTriggerOf]

/-- The places belong to the messages that the condenser hands out. -/
theorem placed_map_fst [Floats] (self : Condenser) (inp : CondenserInput) (elapsed : ℚ) :
    (self.placed md5 inp).map Prod.fst = (self.condense md5 inp elapsed).1.messages := by
  unfold Condenser.placed
  rw [map_pipelineOf, List.zipIdx_map_fst]
  rfl

theorem pipeline_eq_pipelineOf [Floats] (self : Condenser) (inp : CondenserInput) :
    self.pipeline md5 inp = self.pipelineOf id md5 inp inp.messages := by
  have hmap := map_pipelineOf id md5 self inp inp.messages
  simpa using hmap.symm

theorem dedupLoopOf_sublist (seen : List String) (l : List α) :
    (dedupLoopOf view md5 preserveSystem seen l).Sublist l := by
  induction l generalizing seen with
  | nil => exact List.Sublist.refl _
  | cons a l ih =>
    unfold dedupLoopOf
    dsimp only
    split_ifs
    · exact (ih seen).cons_cons a
    · exact (ih seen).cons a
    · exact (ih _).cons_cons a

theorem receivedOf_sublist (self : Condenser) (inp : CondenserInput) (l : List α) :
    (self.receivedOf view md5 inp l).Sublist l := by
  unfold Condenser.receivedOf
  split_ifs
  · exact dedupLoopOf_sublist view md5 [] l
  · exact List.Sublist.refl l

theorem summarizeTriggerOf_sublist (l : List α) (maxTokens : ℤ) :
    (summarizeTriggerOf view l maxTokens).Sublist l := by
  unfold summarizeTriggerOf
  split_ifs with _ hlength
  · exact List.Sublist.refl l
  · have hends : (l.take 1 ++ l.drop (l.length - 3)).Sublist (l.take 1 ++ l.drop 1) :=
      (List.Sublist.refl _).append (List.drop_sublist_drop_left l (by omega))
    rwa [List.take_append_drop] at hends
  · exact List.Sublist.refl l

end Stages

end LingNet.Condense
