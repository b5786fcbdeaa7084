import LingNet.Netlink.Wire

/-! What the parser makes of errors and acknowledgements. -/
namespace LingNet.Netlink
open Zig ByteMem

def beforeDone (messages : List Message) : List Message :=
  messages.takeWhile fun m => m.type.toNat ≠ NLMSG_DONE

/-- The messages that the parser lists before it meets an error or the end. -/
def plain (messages : List Message) : List Message := messages.takeWhile fun m => m.Plain

/-- A message tells that a request has failed. -/
def Message.Refuses (m : Message) : Prop := m.type.toNat = NLMSG_ERROR ∧ m.errorCode ≠ 0

instance : DecidablePred Message.Refuses := fun _ => inferInstanceAs (Decidable (_ ∧ _))

/-- The parser's answer is an error exactly if a request has failed, otherwise the headers. -/
structure Reports (messages : List Message) (r : Outcome NlError (List NlMsgHdr)) : Prop where
  kernelError : r = .err .kernelError ↔ ∃ m ∈ beforeDone messages, m.Refuses
  headers : (¬ ∃ m ∈ beforeDone messages, m.Refuses) →
    r = .ok ((beforeDone messages).map Message.header)

/-- There is a message of an error before the end. -/
def Erroneous (messages : List Message) : Prop :=
  ∃ m ∈ beforeDone messages, m.type.toNat = NLMSG_ERROR

instance (messages : List Message) : Decidable (Erroneous messages) :=
  inferInstanceAs (Decidable (∃ m ∈ _, _))

/-- The list of the headers finds memory as far as it grows, and the messages of errors are not
all acknowledgements. -/
structure Answerable (delivers : ℕ → Bool) (messages : List Message) : Prop where
  appended : ∀ k < (plain messages).length, delivers k = true
  refused : Erroneous messages → ∃ m ∈ beforeDone messages, m.Refuses
  returned : ¬ Erroneous messages → delivers (beforeDone messages).length = true

section Scan

variable {delivers : ℕ → Bool} {headers : List NlMsgHdr} {m : Message} {messages : List Message}

theorem plain_cons_of_plain (h : m.Plain) : plain (m :: messages) = m :: plain messages :=
  List.takeWhile_cons_of_pos (by simpa using h)

theorem plain_cons_of_not (h : ¬ m.Plain) : plain (m :: messages) = [] :=
  List.takeWhile_cons_of_neg (by simpa using h)

theorem beforeDone_cons_of_ne (h : m.type.toNat ≠ NLMSG_DONE) :
    beforeDone (m :: messages) = m :: beforeDone messages :=
  List.takeWhile_cons_of_pos (by simpa using h)

theorem beforeDone_cons_of_done (h : m.type.toNat = NLMSG_DONE) :
    beforeDone (m :: messages) = [] :=
  List.takeWhile_cons_of_neg (by simpa using h)

theorem erroneous_cons_of_plain (h : m.Plain) :
    Erroneous (m :: messages) ↔ Erroneous messages := by
  have herror := h.1
  unfold Erroneous
  rw [beforeDone_cons_of_ne h.2, List.exists_mem_cons_iff]
  exact or_iff_right herror

theorem not_erroneous_of_done (h : m.type.toNat = NLMSG_DONE) : ¬ Erroneous (m :: messages) := by
  unfold Erroneous
  rw [beforeDone_cons_of_done h]
  simp

theorem scan_of_plain (h : m.Plain) (hdelivers : delivers headers.length = true) :
    scan delivers headers (m :: messages) = scan delivers (headers ++ [m.header]) messages := by
  rw [scan, if_neg h.1, if_neg h.2, if_pos hdelivers]

/-- The shift that an append makes to the requests for memory. -/
theorem delivers_tail (h : ∀ k < (plain (m :: messages)).length,
    delivers (headers.length + k) = true) (hm : m.Plain) :
    delivers headers.length = true ∧
      ∀ k < (plain messages).length, delivers ((headers ++ [m.header]).length + k) = true := by
  rw [plain_cons_of_plain hm, List.length_cons] at h
  refine ⟨h 0 (Nat.succ_pos _), fun k hk => ?_⟩
  have hnext := h (k + 1) (Nat.succ_lt_succ hk)
  rw [List.length_append, List.length_singleton]
  have hindex : headers.length + 1 + k = headers.length + (k + 1) := by omega
  rwa [hindex]

/-- An append without memory ends the walk. -/
theorem scan_of_undelivered {k : ℕ} (hk : k < (plain messages).length)
    (hdelivers : ¬ delivers (headers.length + k) = true) :
    scan delivers headers messages = .err .outOfMemory := by
  induction messages generalizing headers k with
  | nil => exact absurd hk (Nat.not_lt_zero k)
  | cons m messages ih =>
    by_cases hm : m.Plain
    swap
    · rw [plain_cons_of_not hm] at hk
      exact absurd hk (Nat.not_lt_zero k)
    rw [plain_cons_of_plain hm, List.length_cons] at hk
    by_cases hroom : delivers headers.length = true
    · have hpos : k ≠ 0 := by
        rintro rfl
        exact hdelivers hroom
      obtain ⟨k, rfl⟩ := Nat.exists_eq_succ_of_ne_zero hpos
      rw [scan_of_plain hm hroom]
      refine ih (k := k) (by omega) ?_
      rw [List.length_append, List.length_singleton]
      have hindex : headers.length + 1 + k = headers.length + (k + 1) := by omega
      rwa [hindex]
    · rw [scan, if_neg hm.1, if_neg hm.2, if_neg hroom]

/-- The first message of an error ends the walk, whatever its code is. -/
theorem scan_of_erroneous
    (hdelivers : ∀ k < (plain messages).length, delivers (headers.length + k) = true)
    (herror : Erroneous messages) : scan delivers headers messages = .err .kernelError := by
  induction messages generalizing headers with
  | nil =>
    obtain ⟨m, hm, -⟩ := herror
    exact absurd hm List.not_mem_nil
  | cons m messages ih =>
    by_cases hm : m.Plain
    · obtain ⟨hroom, hrest⟩ := delivers_tail hdelivers hm
      rw [scan_of_plain hm hroom]
      exact ih hrest ((erroneous_cons_of_plain hm).mp herror)
    · have htype : m.type.toNat = NLMSG_ERROR := by
        by_contra hne
        have hdone : m.type.toNat = NLMSG_DONE := by
          by_contra hnot
          exact hm ⟨hne, hnot⟩
        exact not_erroneous_of_done hdone herror
      rw [scan, if_pos htype]

/-- Without one, the headers before the end are returned. -/
theorem scan_of_not_erroneous
    (hdelivers : ∀ k < (plain messages).length, delivers (headers.length + k) = true)
    (herror : ¬ Erroneous messages) :
    scan delivers headers messages =
      owned delivers (headers ++ (beforeDone messages).map Message.header) := by
  induction messages generalizing headers with
  | nil =>
    show owned delivers headers = _
    rw [show beforeDone [] = [] from rfl, List.map_nil, List.append_nil]
  | cons m messages ih =>
    by_cases hdone : m.type.toNat = NLMSG_DONE
    · have hne : m.type.toNat ≠ NLMSG_ERROR := by
        rw [hdone]
        decide
      rw [scan, if_neg hne, if_pos hdone, beforeDone_cons_of_done hdone, List.map_nil,
        List.append_nil]
    · have hne : m.type.toNat ≠ NLMSG_ERROR := by
        intro htype
        refine herror ⟨m, ?_, htype⟩
        rw [beforeDone_cons_of_ne hdone]
        exact List.mem_cons_self
      have hm : m.Plain := ⟨hne, hdone⟩
      obtain ⟨hroom, hrest⟩ := delivers_tail hdelivers hm
      rw [scan_of_plain hm hroom, ih hrest (mt (erroneous_cons_of_plain hm).mpr herror),
        beforeDone_cons_of_ne hdone, List.map_cons, List.append_assoc, List.singleton_append]

/-- The walk answers as it should, exactly if it is answerable. -/
theorem reports_scan_iff :
    Reports messages (scan delivers [] messages) ↔ Answerable delivers messages := by
  by_cases happended : ∀ k < (plain messages).length, delivers k = true
  swap
  · have hscan : scan delivers [] messages = .err .outOfMemory := by
      push Not at happended
      obtain ⟨k, hk, hfails⟩ := happended
      exact scan_of_undelivered hk (by rwa [List.length_nil, Nat.zero_add])
    rw [hscan]
    constructor
    · intro hreports
      have hnone : ¬ ∃ m ∈ beforeDone messages, m.Refuses := by
        intro hsome
        cases hreports.kernelError.mpr hsome
      cases hreports.headers hnone
    · intro hanswerable
      exact absurd hanswerable.appended happended
  have hshifted : ∀ k < (plain messages).length,
      delivers (([] : List NlMsgHdr).length + k) = true := by
    simpa using happended
  by_cases herror : Erroneous messages
  · rw [scan_of_erroneous hshifted herror]
    constructor
    · intro hreports
      exact ⟨happended, fun _ => hreports.kernelError.mp rfl, fun hnot => absurd herror hnot⟩
    · intro hanswerable
      have hrefuses := hanswerable.refused herror
      exact ⟨iff_of_true rfl hrefuses, fun hnone => absurd hrefuses hnone⟩
  · have hnone : ¬ ∃ m ∈ beforeDone messages, m.Refuses := by
      intro hsome
      obtain ⟨m, hm, htype, -⟩ := hsome
      exact herror ⟨m, hm, htype⟩
    rw [scan_of_not_erroneous hshifted herror, List.nil_append]
    unfold owned
    rw [List.length_map]
    constructor
    · intro hreports
      have hok := hreports.headers hnone
      refine ⟨happended, fun h => absurd h herror, fun _ => ?_⟩
      by_contra hfails
      rw [if_neg hfails] at hok
      cases hok
    · intro hanswerable
      rw [if_pos (hanswerable.returned herror)]
      have hne : (Outcome.ok ((beforeDone messages).map Message.header) :
          Outcome NlError (List NlMsgHdr)) ≠ .err .kernelError := by
        intro h
        cases h
      exact ⟨iff_of_false hne hnone, fun _ => rfl⟩

end Scan

/-- The parser takes acknowledgements for errors: it reports rightly exactly where every list with
messages of errors has one of a failure, the headers find memory and lie aligned. -/
theorem reports_iff {delivers : ℕ → Bool} {msg : NlMsg} {messages : List Message}
    (h : msg.Written (encodeAll messages)) :
    Reports messages ((parse delivers msg).result {}) ↔
      (messages = [] ∨ msg.ptr % 4 = 0) ∧ Answerable delivers messages := by
  by_cases halign : messages = [] ∨ msg.ptr % 4 = 0
  · rw [parse_eq_scan h halign, and_iff_right halign]
    exact reports_scan_iff
  · obtain ⟨hne, hodd⟩ := not_or.mp halign
    obtain ⟨m, rest, rfl⟩ := List.exists_cons_of_ne_nil hne
    rw [parse_of_misaligned h hodd]
    refine iff_of_false (fun hreports => ?_) (fun hand => halign hand.1)
    have hnone : ¬ ∃ m' ∈ beforeDone (m :: rest), m'.Refuses := by
      intro hsome
      cases hreports.kernelError.mpr hsome
    cases hreports.headers hnone

/-- The answer to a request of type 16: the code and the header of the request. -/
def answer (code : UInt8) : Message where
  type := 2
  flags := 0
  seq := 1
  pid := 7
  payload := [code, 0, 0, 0] ++ [16, 0, 0, 0, 16, 0, 1, 0, 1, 0, 0, 0, 7, 0, 0, 0]
  padding := []
  fits := by simp [NLMSG_HDRLEN]
  padded := by simp [NLMSG_HDRLEN]
  reports _ := by simp [NLMSG_HDRLEN]

/-- The kernel's refusal is reported. -/
theorem reports_iff_refused :
    Reports [answer 1] ((parse (fun _ => true)
      (.ofBytes 4096 (encodeAll [answer 1]) (by decide))).result {}) :=
  (reports_iff (written_ofBytes 4096 (encodeAll [answer 1]) (by decide))).mpr
    ⟨.inr (by decide), fun _ _ => rfl, fun _ => by decide, fun _ => rfl⟩

/-- An acknowledgement is reported as a failure. -/
theorem acknowledgement_refused : (answer 0).errorCode = 0 ∧
    ¬ Reports [answer 0] ((parse (fun _ => true)
      (.ofBytes 4096 (encodeAll [answer 0]) (by decide))).result {}) := by
  refine ⟨by decide, fun hreports => ?_⟩
  have hscan : (parse (fun _ => true)
      (.ofBytes 4096 (encodeAll [answer 0]) (by decide))).result {} = .err .kernelError :=
    parse_eq_scan (written_ofBytes 4096 (encodeAll [answer 0]) (by decide)) (.inr (by decide))
  have hsome := hreports.kernelError.mp hscan
  revert hsome
  decide

end LingNet.Netlink
