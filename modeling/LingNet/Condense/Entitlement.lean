import LingNet.Condense.Budget

/-! What the condenser may drop: only what the limit does not leave room for, and what has been said
before. -/
namespace LingNet.Condense

/-- A system message that the condenser is told to preserve. -/
def Preserved (preserveSystem : Bool) (m : Message) : Prop :=
  preserveSystem = true ∧ m.role = "system"

instance (preserveSystem : Bool) (m : Message) : Decidable (Preserved preserveSystem m) :=
  inferInstanceAs (Decidable (_ ∧ _))

/-- Who says what. -/
def Message.key (m : Message) : String × String := (m.role, m.content)

/-- A message is in its place for good when it is preserved or none before it that is not preserved
has the same role and content. -/
def Stands (preserveSystem : Bool) (before : List Message) (m : Message) : Prop :=
  Preserved preserveSystem m ∨ ∀ m' ∈ before, ¬ Preserved preserveSystem m' → m'.key ≠ m.key

instance (preserveSystem : Bool) (before : List Message) (m : Message) :
    Decidable (Stands preserveSystem before m) :=
  inferInstanceAs (Decidable (_ ∨ _))

/-- The preserved messages and the first ones of their role and content among the others, with their
places. -/
def firsts (messages : List Message) (preserveSystem : Bool) : List (Message × ℕ) :=
  messages.zipIdx.filter fun p => Stands preserveSystem (messages.take p.2) p.1

section Counts

variable {l l' : List Message}

theorem tokens_sublist_le (hsub : l.Sublist l') (hcount : ∀ m ∈ l', 0 ≤ m.tokenCount) :
    tokens l ≤ tokens l' := by
  induction hsub with
  | slnil => exact le_refl _
  | cons m _ ih =>
    have hm := hcount m List.mem_cons_self
    have hrest := ih fun m' hm' => hcount m' (List.mem_cons_of_mem m hm')
    rw [tokens_cons]
    omega
  | cons_cons m _ ih =>
    have hrest := ih fun m' hm' => hcount m' (List.mem_cons_of_mem m hm')
    rw [tokens_cons, tokens_cons]
    omega

theorem tokens_subperm_le (hsub : l.Subperm l') (hcount : ∀ m ∈ l', 0 ≤ m.tokenCount) :
    tokens l ≤ tokens l' := by
  obtain ⟨s, hperm, hs⟩ := hsub
  rw [← tokens_perm hperm]
  exact tokens_sublist_le hs hcount

theorem tokens_nonneg (hcount : ∀ m ∈ l, 0 ≤ m.tokenCount) : 0 ≤ tokens l := by
  have hle := tokens_sublist_le (List.nil_sublist l) hcount
  rwa [tokens_nil] at hle

end Counts

section Stages

variable {md5 : String → String} {preserveSystem : Bool}

/-- The texts that are hashed tell the messages apart where no role has a colon. -/
theorem key_eq_of_text_eq {m m' : Message} (hm : ':' ∉ m.role.toList) (hm' : ':' ∉ m'.role.toList)
    (htext : m.role ++ ":" ++ m.content = m'.role ++ ":" ++ m'.content) : m.key = m'.key := by
  have hsplit (r r' c c' : List Char) (hr : ':' ∉ r) (hr' : ':' ∉ r')
      (h : r ++ ':' :: c = r' ++ ':' :: c') : r = r' ∧ c = c' := by
    induction r generalizing r' with
    | nil =>
      cases r' with
      | nil => simpa using h
      | cons a r' =>
        have hhead : ':' = a := (List.cons.inj h).1
        exact absurd (hhead ▸ List.mem_cons_self) hr'
    | cons a r ih =>
      cases r' with
      | nil =>
        have hhead : a = ':' := (List.cons.inj h).1
        exact absurd (hhead ▸ List.mem_cons_self) hr
      | cons b r' =>
        obtain ⟨hab, htail⟩ := List.cons.inj h
        obtain ⟨hrest, hc⟩ := ih r' (fun h => hr (List.mem_cons_of_mem a h))
          (fun h => hr' (List.mem_cons_of_mem b h)) htail
        exact ⟨by rw [hab, hrest], hc⟩
  have hchars := congrArg String.toList htext
  simp only [String.toList_append, List.append_assoc] at hchars
  have hcolon : ":".toList = [':'] := rfl
  rw [hcolon] at hchars
  obtain ⟨hrole, hcontent⟩ := hsplit _ _ _ _ hm hm' hchars
  exact Prod.ext (String.toList_inj.mp hrole) (String.toList_inj.mp hcontent)

/-- A message that is not preserved has this fingerprint. -/
def Seen (md5 : String → String) (preserveSystem : Bool) (before : List Message) (fp : String) :
    Prop :=
  ∃ m ∈ before, ¬ Preserved preserveSystem m ∧ m.fingerprint md5 = fp

theorem seen_concat {before : List Message} {msg : Message} {fp : String} :
    Seen md5 preserveSystem (before ++ [msg]) fp ↔
      Seen md5 preserveSystem before fp ∨
        ¬ Preserved preserveSystem msg ∧ msg.fingerprint md5 = fp := by
  unfold Seen
  simp only [List.mem_append, List.mem_singleton, or_and_right, exists_or, exists_eq_left]

/-- Where one fingerprint is one text, a message that is not preserved stands when its fingerprint
has not been seen. -/
theorem stands_iff {before : List Message} {msg : Message}
    (hfp : ∀ m ∈ before, m.fingerprint md5 = msg.fingerprint md5 ↔ m.key = msg.key)
    (hother : ¬ Preserved preserveSystem msg) :
    Stands preserveSystem before msg ↔
      ¬ Seen md5 preserveSystem before (msg.fingerprint md5) := by
  unfold Stands Seen
  rw [or_iff_right hother]
  constructor
  · intro hfirst hdup
    obtain ⟨m, hm, hnot, heq⟩ := hdup
    exact hfirst m hm hnot ((hfp m hm).mp heq)
  · intro hnew m hm hnot hkey
    exact hnew ⟨m, hm, hnot, (hfp m hm).mpr hkey⟩

/-- The loop keeps the messages that stand, as its set of fingerprints stands for the messages that
came before. -/
theorem dedupLoopOf_eq {seen : List String} {before messages : List Message}
    (hfp : ∀ m ∈ before ++ messages, ∀ m' ∈ before ++ messages,
      m.fingerprint md5 = m'.fingerprint md5 ↔ m.key = m'.key)
    (hseen : ∀ fp, fp ∈ seen ↔ Seen md5 preserveSystem before fp) :
    dedupLoopOf Prod.fst md5 preserveSystem seen (messages.zipIdx before.length) =
      (messages.zipIdx before.length).filter fun p =>
        Stands preserveSystem ((before ++ messages).take p.2) p.1 := by
  induction messages generalizing seen before with
  | nil => rfl
  | cons msg messages ih =>
    have hassoc : before ++ msg :: messages = (before ++ [msg]) ++ messages := by simp
    have hlength : before.length + 1 = (before ++ [msg]).length := by simp
    have htake : (before ++ msg :: messages).take before.length = before := List.take_left
    have hin : msg ∈ before ++ msg :: messages := by simp
    have hrest (seen' : List String)
        (hseen' : ∀ fp, fp ∈ seen' ↔ Seen md5 preserveSystem (before ++ [msg]) fp) :
        dedupLoopOf Prod.fst md5 preserveSystem seen' (messages.zipIdx (before.length + 1)) =
          (messages.zipIdx (before.length + 1)).filter fun p =>
            Stands preserveSystem ((before ++ msg :: messages).take p.2) p.1 := by
      rw [hlength, hassoc]
      apply ih _ hseen'
      rwa [← hassoc]
    rw [List.zipIdx_cons, List.filter_cons, htake]
    by_cases hpreserved : Preserved preserveSystem msg
    · have hstands : Stands preserveSystem before msg := .inl hpreserved
      have hsame := hrest seen fun fp => by simp [hseen fp, seen_concat, hpreserved]
      unfold dedupLoopOf
      rw [if_pos (show preserveSystem = true ∧ msg.role = "system" from hpreserved), hsame]
      simp [hstands]
    · have hstands : Stands preserveSystem before msg ↔ msg.fingerprint md5 ∉ seen := by
        rw [hseen]
        exact stands_iff (fun m hm => hfp m (by simp [hm]) msg hin) hpreserved
      unfold dedupLoopOf
      rw [if_neg (show ¬ (preserveSystem = true ∧ msg.role = "system") from hpreserved)]
      dsimp only
      by_cases hdup : msg.fingerprint md5 ∈ seen
      · have hsame := hrest seen fun fp => by
          rw [seen_concat, ← hseen fp]
          constructor
          · exact Or.inl
          · intro hor
            rcases hor with hmem | hlast
            · exact hmem
            · rw [← hlast.2]
              exact hdup
        rw [if_pos hdup, hsame]
        simp [hstands, hdup]
      · have hnext := hrest (msg.fingerprint md5 :: seen) fun fp => by
          rw [seen_concat, List.mem_cons, hseen fp, and_iff_right hpreserved]
          rw [or_comm, eq_comm]
        rw [if_neg hdup, hnext]
        simp [hstands, hdup]

theorem dedupOf_eq_firsts {messages : List Message}
    (hfp : ∀ m ∈ messages, ∀ m' ∈ messages,
      m.fingerprint md5 = m'.fingerprint md5 ↔ m.key = m'.key) :
    dedupOf Prod.fst md5 messages.zipIdx preserveSystem = firsts messages preserveSystem :=
  @dedupLoopOf_eq md5 preserveSystem [] [] messages hfp (by simp [Seen])

end Stages

/-- Within the limit the messages that have not been said before are all there is. -/
theorem placed_eq_dedupOf [Floats] {md5 : String → String} {self : Condenser} {inp : CondenserInput}
    (hfits : self.strategy = .dedup ∨ self.strategy = .hybrid ∧
      tokens (dedup md5 inp.messages inp.preserveSystem) ≤ inp.maxTokens) :
    self.placed md5 inp = dedupOf Prod.fst md5 inp.messages.zipIdx inp.preserveSystem := by
  unfold Condenser.placed
  rcases hfits with hstrategy | ⟨hstrategy, htotal⟩
  · simp [Condenser.pipelineOf, Condenser.receivedOf, hstrategy]
  · have hreceived : self.receivedOf Prod.fst md5 inp inp.messages.zipIdx =
        dedupOf Prod.fst md5 inp.messages.zipIdx inp.preserveSystem := by
      simp [Condenser.receivedOf, hstrategy]
    rw [pipelineOf_of_fits (.inr hstrategy), hreceived]
    rw [hreceived, map_dedupOf, List.zipIdx_map_fst]
    exact htotal

/-- The condenser hands out no message that it has not been given, and none more often, in no more
tokens. What it hands out without having to keep to a limit are all the messages that are preserved
or said for the first time. -/
theorem condense_entitled [Floats] (md5 : String → String) (self : Condenser) (inp : CondenserInput)
    (elapsed : ℚ) (hcount : ∀ m ∈ inp.messages, 0 ≤ m.tokenCount)
    (hrole : ∀ m ∈ inp.messages, ':' ∉ m.role.toList)
    (hmd5 : ∀ m ∈ inp.messages, ∀ m' ∈ inp.messages, m.fingerprint md5 = m'.fingerprint md5 →
      m.role ++ ":" ++ m.content = m'.role ++ ":" ++ m'.content) :
    (self.condense md5 inp elapsed).1.messages.Subperm inp.messages ∧
      (self.placed md5 inp).map Prod.fst = (self.condense md5 inp elapsed).1.messages ∧
      (self.placed md5 inp).Subperm inp.messages.zipIdx ∧
      0 ≤ (self.condense md5 inp elapsed).1.compressedTokens ∧
      (self.condense md5 inp elapsed).1.compressedTokens ≤
        (self.condense md5 inp elapsed).1.originalTokens ∧
      (self.strategy = .dedup ∨ self.strategy = .hybrid ∧
          tokens (dedup md5 inp.messages inp.preserveSystem) ≤ inp.maxTokens →
        self.placed md5 inp = firsts inp.messages inp.preserveSystem) := by
  have hsub : (self.pipeline md5 inp).Subperm inp.messages := by
    rw [pipeline_eq_pipelineOf]
    exact subperm_pipelineOf self inp inp.messages
  have hfp : ∀ m ∈ inp.messages, ∀ m' ∈ inp.messages,
      m.fingerprint md5 = m'.fingerprint md5 ↔ m.key = m'.key := by
    intro m hm m' hm'
    constructor
    · intro heq
      exact key_eq_of_text_eq (hrole m hm) (hrole m' hm') (hmd5 m hm m' hm' heq)
    · intro hkey
      obtain ⟨hr, hc⟩ := Prod.ext_iff.mp hkey
      have hrole' : m.role = m'.role := hr
      have hcontent' : m.content = m'.content := hc
      rw [Message.fingerprint, Message.fingerprint, hrole', hcontent']
  refine ⟨hsub, placed_map_fst md5 self inp elapsed, subperm_pipelineOf self inp _, ?_, ?_, ?_⟩
  · exact tokens_nonneg fun m hm => hcount m (hsub.subset hm)
  · exact tokens_subperm_le hsub hcount
  · intro hfits
    rw [placed_eq_dedupOf hfits]
    exact dedupOf_eq_firsts hfp

open scoped Floats.Binary64 in
theorem condense_entitled_greeting :
    Condenser.placed greetingMd5 {} { greeting with maxTokens := 6 } =
      firsts greeting.messages true :=
  (condense_entitled greetingMd5 {} { greeting with maxTokens := 6 } 0 (by decide +kernel)
    (by decide +kernel) (by decide +kernel)).2.2.2.2.2 (.inr (by decide +kernel))

end LingNet.Condense
