import LingNet.Condense.Entitlement
import LingNet.Condense.Preservation

/-! A conversation that has been condensed is left as it is: no stage has anything to do with what
the last one hands out. -/
namespace LingNet.Condense

/-- Of the messages that are not preserved none has the fingerprint of another. -/
def Distinct (md5 : String → String) (preserveSystem : Bool) (messages : List Message) : Prop :=
  ((messages.filter fun m => ¬ Preserved preserveSystem m).map (·.fingerprint md5)).Nodup

section Stages

variable {md5 : String → String} {preserveSystem : Bool} {messages messages' : List Message}

theorem Distinct.of_subperm (h : Distinct md5 preserveSystem messages')
    (hsub : messages.Subperm messages') : Distinct md5 preserveSystem messages := by
  obtain ⟨l, hperm, hsublist⟩ := hsub
  have hl : Distinct md5 preserveSystem l := List.Nodup.sublist ((hsublist.filter _).map _) h
  exact ((hperm.filter _).map _).nodup_iff.mp hl

theorem distinct_cons {msg : Message} :
    Distinct md5 preserveSystem (msg :: messages) ↔
      Distinct md5 preserveSystem messages ∧ (¬ Preserved preserveSystem msg → ∀ m ∈ messages,
        ¬ Preserved preserveSystem m → m.fingerprint md5 ≠ msg.fingerprint md5) := by
  unfold Distinct
  rw [List.filter_cons]
  by_cases hpreserved : Preserved preserveSystem msg
  · simp [hpreserved]
  · simp only [hpreserved, not_false_eq_true, decide_true, if_true, List.map_cons, List.nodup_cons,
      List.mem_map, List.mem_filter, decide_eq_true_eq, not_exists, not_and, and_imp,
      forall_true_left]
    rw [and_comm]

theorem dedupLoop_of_distinct {seen : List String} (h : Distinct md5 preserveSystem messages)
    (hseen : ∀ m ∈ messages, ¬ Preserved preserveSystem m → m.fingerprint md5 ∉ seen) :
    dedupLoop md5 preserveSystem seen messages = messages := by
  induction messages generalizing seen with
  | nil => rfl
  | cons msg messages ih =>
    obtain ⟨hrest, hmsg⟩ := distinct_cons.mp h
    unfold dedupLoop
    by_cases hpreserved : preserveSystem = true ∧ msg.role = "system"
    · have hsame := ih hrest fun m hm => hseen m (List.mem_cons_of_mem msg hm)
      rw [if_pos hpreserved, hsame]
    · have hnew := hseen msg List.mem_cons_self hpreserved
      have hsame : dedupLoop md5 preserveSystem (msg.fingerprint md5 :: seen) messages =
          messages := by
        apply ih hrest
        intro m hm hother
        rw [List.mem_cons, not_or]
        exact ⟨hmsg hpreserved m hm hother, hseen m (List.mem_cons_of_mem msg hm) hother⟩
      rw [if_neg hpreserved]
      dsimp only
      rw [if_neg hnew, hsame]

theorem distinct_dedupLoop (seen : List String) (messages : List Message) :
    Distinct md5 preserveSystem (dedupLoop md5 preserveSystem seen messages) ∧
      ∀ m ∈ dedupLoop md5 preserveSystem seen messages, ¬ Preserved preserveSystem m →
        m.fingerprint md5 ∉ seen := by
  induction messages generalizing seen with
  | nil => simp [dedupLoop, Distinct]
  | cons msg messages ih =>
    unfold dedupLoop
    by_cases hpreserved : preserveSystem = true ∧ msg.role = "system"
    · obtain ⟨hrest, hseen⟩ := ih seen
      rw [if_pos hpreserved, distinct_cons, List.forall_mem_cons]
      exact ⟨⟨hrest, fun hother => absurd hpreserved hother⟩,
        fun hother => absurd hpreserved hother, hseen⟩
    · rw [if_neg hpreserved]
      dsimp only
      by_cases hdup : msg.fingerprint md5 ∈ seen
      · rw [if_pos hdup]
        exact ih seen
      · obtain ⟨hrest, hseen⟩ := ih (msg.fingerprint md5 :: seen)
        rw [if_neg hdup, distinct_cons, List.forall_mem_cons]
        refine ⟨⟨hrest, fun _ m hm hother => ?_⟩, fun _ => hdup, fun m hm hother => ?_⟩
        · exact (not_or.mp (List.mem_cons.not.mp (hseen m hm hother))).1
        · exact (not_or.mp (List.mem_cons.not.mp (hseen m hm hother))).2

/-- What has been through the first stage goes through it again unchanged, whatever has been left
out or moved since. -/
theorem dedup_of_subperm_dedup (hsub : messages.Subperm (dedup md5 messages' preserveSystem)) :
    dedup md5 messages preserveSystem = messages :=
  dedupLoop_of_distinct ((distinct_dedupLoop [] messages').1.of_subperm hsub) (by simp)

/-- A window over preserved messages only keeps them all. -/
theorem slidingWindow_of_preserved [Floats] (h : ∀ m ∈ messages, Preserved preserveSystem m)
    (maxTokens minMessages : ℤ) :
    slidingWindow messages maxTokens preserveSystem minMessages = messages := by
  cases messages with
  | nil => simp [slidingWindow, systemMsgs, otherMsgs, keep]
  | cons msg messages =>
    have hpreserve : preserveSystem = true := (h msg List.mem_cons_self).1
    have hsystem : systemMsgs (msg :: messages) preserveSystem = msg :: messages := by
      unfold systemMsgs
      rw [if_pos hpreserve, List.filter_eq_self]
      intro m hm
      exact decide_eq_true (h m hm).2
    have hothers : otherMsgs (msg :: messages) preserveSystem = [] := by
      unfold otherMsgs
      rw [List.filter_eq_nil_iff]
      intro m hm
      simp [hpreserve, (h m hm).2]
    unfold slidingWindow
    rw [hsystem, hothers]
    simp [keep]

/-- A window is within the limit, or it has only preserved messages left. -/
theorem slidingWindow_le_or_preserved [Floats] (messages : List Message) (maxTokens minMessages : ℤ)
    (preserveSystem : Bool) :
    tokens (slidingWindow messages maxTokens preserveSystem minMessages) ≤ maxTokens ∨
      ∀ m ∈ slidingWindow messages maxTokens preserveSystem minMessages,
        Preserved preserveSystem m := by
  apply or_iff_not_imp_left.mpr
  intro hstill
  rw [Int.not_le] at hstill
  have hover : maxTokens < tokens messages := by
    by_contra hfits
    rw [slidingWindow, if_pos (Int.not_lt.mp hfits)] at hstill
    exact hfits hstill
  rw [slidingWindow_eq_systemMsgs hover hstill]
  intro m hm
  unfold systemMsgs at hm
  split_ifs at hm with hpreserve
  · exact ⟨hpreserve, by simpa using (List.mem_filter.mp hm).2⟩
  · exact absurd hm (by simp)

theorem slidingWindow_of_fits [Floats] {maxTokens : ℤ} (minMessages : ℤ)
    (hfits : tokens messages ≤ maxTokens) :
    slidingWindow messages maxTokens preserveSystem minMessages = messages := by
  rw [slidingWindow, if_pos hfits]

theorem summarizeTrigger_of_fits {maxTokens : ℤ} (hfits : tokens messages ≤ maxTokens) :
    summarizeTrigger messages maxTokens = messages := by
  rw [summarizeTrigger, if_pos hfits]

theorem summarizeTrigger_summarizeTrigger (messages : List Message) (maxTokens : ℤ) :
    summarizeTrigger (summarizeTrigger messages maxTokens) maxTokens =
      summarizeTrigger messages maxTokens := by
  have hshort {l : List Message} (hl : l.length ≤ 4) : summarizeTrigger l maxTokens = l := by
    unfold summarizeTrigger
    rw [if_neg (Nat.not_lt.mpr hl)]
    split_ifs <;> rfl
  by_cases hfits : tokens messages ≤ maxTokens
  · rw [summarizeTrigger_of_fits hfits, summarizeTrigger_of_fits hfits]
  · by_cases hlength : 4 < messages.length
    · have hcut : summarizeTrigger messages maxTokens =
          messages.take 1 ++ messages.drop (messages.length - 3) := by
        rw [summarizeTrigger, if_neg hfits, if_pos hlength]
      rw [hcut]
      apply hshort
      rw [List.length_append, List.length_take, List.length_drop]
      omega
    · rw [hshort (Nat.not_lt.mp hlength), hshort (Nat.not_lt.mp hlength)]

theorem summarizeTrigger_sublist (messages : List Message) (maxTokens : ℤ) :
    (summarizeTrigger messages maxTokens).Sublist messages := by
  have hmap := map_summarizeTriggerOf id messages maxTokens
  rw [List.map_id, List.map_id] at hmap
  rw [← hmap]
  exact summarizeTriggerOf_sublist id messages maxTokens

/-- What a window hands out it hands out again, also when the summary has cut it since. -/
theorem slidingWindow_of_sublist [Floats] {maxTokens minMessages : ℤ}
    (hsub : messages.Sublist (slidingWindow messages' maxTokens preserveSystem minMessages))
    (hcut : tokens (slidingWindow messages' maxTokens preserveSystem minMessages) ≤ maxTokens →
      messages = slidingWindow messages' maxTokens preserveSystem minMessages) :
    slidingWindow messages maxTokens preserveSystem minMessages = messages := by
  rcases slidingWindow_le_or_preserved messages' maxTokens minMessages preserveSystem
    with hle | hall
  · apply slidingWindow_of_fits
    rw [hcut hle]
    exact hle
  · exact slidingWindow_of_preserved (fun m hm => hall m (hsub.subset hm)) maxTokens minMessages

end Stages

theorem pipeline_pipeline [Floats] (md5 : String → String) (self : Condenser)
    (inp : CondenserInput) :
    self.pipeline md5 { inp with messages := self.pipeline md5 inp } = self.pipeline md5 inp := by
  unfold Condenser.pipeline
  simp only [summarize_if_over]
  cases self.strategy with
  | none => simp
  | dedup =>
    have hdedup := dedup_of_subperm_dedup (List.Subperm.refl
      (dedup md5 inp.messages inp.preserveSystem))
    simpa using hdedup
  | slidingWindow =>
    have hwindow := slidingWindow_of_sublist (List.Sublist.refl (slidingWindow inp.messages
      inp.maxTokens inp.preserveSystem inp.minMessages)) fun _ => rfl
    simpa using hwindow
  | summarize =>
    have hsummary := summarizeTrigger_summarizeTrigger inp.messages inp.maxTokens
    simpa using hsummary
  | hybrid =>
    have hsub := summarizeTrigger_sublist (slidingWindow (dedup md5 inp.messages inp.preserveSystem)
      inp.maxTokens inp.preserveSystem inp.minMessages) inp.maxTokens
    have hsubperm : (slidingWindow (dedup md5 inp.messages inp.preserveSystem) inp.maxTokens
        inp.preserveSystem inp.minMessages).Subperm
        (dedup md5 inp.messages inp.preserveSystem) := by
      rw [slidingWindow_eq]
      exact subperm_slidingWindowOf _ _ _ _
    have hdedup := dedup_of_subperm_dedup (hsub.subperm.trans hsubperm)
    have hwindow := slidingWindow_of_sublist hsub summarizeTrigger_of_fits
    have hsummary := summarizeTrigger_summarizeTrigger (slidingWindow
      (dedup md5 inp.messages inp.preserveSystem) inp.maxTokens inp.preserveSystem
        inp.minMessages) inp.maxTokens
    simp [hdedup, hwindow, hsummary]

/-- Whoever condenses a conversation again with the same parameters gets it back. -/
theorem condense_condense [Floats] (md5 : String → String) (self : Condenser) (inp : CondenserInput)
    (elapsed elapsed' : ℚ) :
    ((self.condense md5 inp elapsed).2.condense md5
        { inp with messages := (self.condense md5 inp elapsed).1.messages } elapsed').1.messages =
      (self.condense md5 inp elapsed).1.messages :=
  pipeline_pipeline md5 self inp

end LingNet.Condense
