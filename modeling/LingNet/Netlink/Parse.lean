import LingNet.Zig.Proc

/-! The parser of netlink responses. Every byte it reads is recorded, and so is the offset of every
header it lists. -/
namespace LingNet.Netlink
open Zig

inductive NlError where
  | kernelError
  | outOfMemory
  deriving DecidableEq, Repr

structure NlMsgHdr where
  nlmsgLen : UInt32
  nlmsgType : UInt16
  nlmsgFlags : UInt16
  nlmsgSeq : UInt32
  nlmsgPid : UInt32
  deriving DecidableEq, Repr

/-- `@sizeOf(NlMsgHdr)` -/
def NLMSG_HDRLEN : ℕ := 16

def NLMSG_ALIGNTO : ℕ := 4

def NLMSG_ERROR : ℕ := 2

def NLMSG_DONE : ℕ := 3

/-- The slice `data` has the address `ptr` and is `len` bytes long; `bytes` is what memory holds
from there on, behind the slice too. No object is larger than half the address space. -/
structure NlMsg where
  ptr : ℕ
  bytes : ℕ → UInt8
  len : ℕ
  pos : ℕ
  len_lt : len < 2 ^ 63

/-- The bytes that a call has read, and where it has found what it lists. -/
structure Trace where
  read : List ℕ := []
  listed : List ℕ := []

namespace NlMsg

variable (msg : NlMsg)

/-- The little-endian number of `n` bytes. -/
def word (offset : ℕ) : ℕ → ℕ
  | 0 => 0
  | n + 1 => (msg.bytes offset).toNat + 256 * word (offset + 1) n

/-- The structure behind `&data[offset]`. -/
def header (offset : ℕ) : NlMsgHdr where
  nlmsgLen := .ofNat (msg.word offset 4)
  nlmsgType := .ofNat (msg.word (offset + 4) 2)
  nlmsgFlags := .ofNat (msg.word (offset + 6) 2)
  nlmsgSeq := .ofNat (msg.word (offset + 8) 4)
  nlmsgPid := .ofNat (msg.word (offset + 12) 4)

/-- `@ptrCast(@alignCast(&data[offset]))`, for both structures. Only the first byte is checked to
lie in the slice. -/
def pointer (offset : ℕ) : Outcome NlError Unit :=
  if msg.len ≤ offset then .trap .outOfBounds
  else if (msg.ptr + offset) % 4 ≠ 0 then .trap .incorrectAlignment
  else .ok ()

end NlMsg

/-- The load of `n` bytes. -/
def touch (offset n : ℕ) : Proc Trace NlError Unit :=
  Proc.modify fun t => { t with read := t.read ++ List.range' offset n }

def lenAt (msg : NlMsg) (offset : ℕ) : Proc Trace NlError ℕ := do
  touch offset 4
  pure (msg.header offset).nlmsgLen.toNat

def typeAt (msg : NlMsg) (offset : ℕ) : Proc Trace NlError ℕ := do
  touch (offset + 4) 2
  pure (msg.header offset).nlmsgType.toNat

/-- `error_code` is the first field of `NlMsgErr`. -/
def errorCodeAt (msg : NlMsg) (offset : ℕ) : Proc Trace NlError ℕ := do
  touch offset 4
  pure (msg.word offset 4)

/-- The branch of `NLMSG_ERROR`. -/
def checkError (msg : NlMsg) (offset type : ℕ) : Proc Trace NlError Unit := do
  if type = NLMSG_ERROR then
    Proc.lift (msg.pointer offset)
    let errorCode ← errorCodeAt msg offset
    if errorCode ≠ 0 then Proc.fail .kernelError else pure ()
  else pure ()

/-- `try headers.append(hdr.*)` -/
def append (delivers : Bool) (msg : NlMsg) (offset : ℕ) : Proc Trace NlError NlMsgHdr := do
  touch offset NLMSG_HDRLEN
  if delivers then
    Proc.modify fun t => { t with listed := t.listed ++ [offset] }
    pure (msg.header offset)
  else Proc.fail .outOfMemory

/-- One round of the loop: the header it lists and the next offset, or `break`. -/
def parseStep (delivers : Bool) (msg : NlMsg) (offset : ℕ) :
    Proc Trace NlError (Option (NlMsgHdr × ℕ)) := do
  let stop ← Proc.lift (add offset NLMSG_HDRLEN)
  if msg.pos < stop then pure none
  else
    Proc.lift (msg.pointer offset)
    let len ← lenAt msg offset
    if len < NLMSG_HDRLEN then pure none
    else
      let type ← typeAt msg offset
      checkError msg offset type
      if type = NLMSG_DONE then pure none
      else
        let hdr ← append delivers msg offset
        let alignedLen ← Proc.lift (alignForward len NLMSG_ALIGNTO)
        let next ← Proc.lift (add offset alignedLen)
        pure (some (hdr, next))

/-- The next offset behind a header. -/
def NlMsg.next (msg : NlMsg) (offset : ℕ) : ℕ :=
  offset + ((msg.header offset).nlmsgLen.toNat + 3) / 4 * 4

/-- There is a whole header in the first `pos` bytes, and its message is no shorter. -/
def NlMsg.Present (msg : NlMsg) (offset : ℕ) : Prop :=
  offset + NLMSG_HDRLEN ≤ msg.pos ∧ NLMSG_HDRLEN ≤ (msg.header offset).nlmsgLen.toNat

instance (msg : NlMsg) (offset : ℕ) : Decidable (msg.Present offset) :=
  inferInstanceAs (Decidable (_ ∧ _))

/-- A header that the loop lists. -/
def NlMsg.Listed (msg : NlMsg) (offset : ℕ) : Prop :=
  msg.Present offset ∧ (msg.header offset).nlmsgType.toNat ≠ NLMSG_ERROR ∧
    (msg.header offset).nlmsgType.toNat ≠ NLMSG_DONE

instance (msg : NlMsg) (offset : ℕ) : Decidable (msg.Listed offset) :=
  inferInstanceAs (Decidable (_ ∧ _ ∧ _))

/-- Only the first `pos` bytes were read. -/
def Trace.Inside (msg : NlMsg) (t : Trace) : Prop := ∀ i ∈ t.read, i < msg.pos

section Step

variable {msg : NlMsg} {offset : ℕ} {t : Trace}

theorem Trace.Inside.touch (h : t.Inside msg) (offset n : ℕ) (hn : offset + n ≤ msg.pos) :
    Trace.Inside msg { t with read := t.read ++ List.range' offset n } := by
  intro i hi
  rcases List.mem_append.mp hi with hold | hnew
  · exact h i hold
  · have hlt := (List.mem_range'_1.mp hnew).2
    omega

theorem NlMsg.word_lt (msg : NlMsg) (n offset : ℕ) : msg.word offset n < 256 ^ n := by
  induction n generalizing offset with
  | zero => exact Nat.one_pos
  | succ n ih =>
    have hbyte := (msg.bytes offset).toNat_lt
    have hrest := ih (offset + 1)
    rw [NlMsg.word, Nat.pow_succ]
    omega

/-- The error code lies over the length. -/
theorem NlMsg.errorCode_eq (msg : NlMsg) (offset : ℕ) :
    msg.word offset 4 = (msg.header offset).nlmsgLen.toNat := by
  have hlt := msg.word_lt 4 offset
  unfold NlMsg.header
  rw [UInt32.toNat_ofNat_of_lt' (by simpa using hlt)]

theorem add_header (hfit : offset + NLMSG_HDRLEN < usizeEnd) :
    (add offset NLMSG_HDRLEN : Outcome NlError ℕ) = .ok (offset + NLMSG_HDRLEN) :=
  add_eq_ok.mpr ⟨hfit, rfl⟩

theorem lenAt_run (msg : NlMsg) (offset : ℕ) (t : Trace) : lenAt msg offset t =
    (.ok (msg.header offset).nlmsgLen.toNat,
      { t with read := t.read ++ List.range' offset 4 }) := rfl

theorem typeAt_run (msg : NlMsg) (offset : ℕ) (t : Trace) : typeAt msg offset t =
    (.ok (msg.header offset).nlmsgType.toNat,
      { t with read := t.read ++ List.range' (offset + 4) 2 }) := rfl

theorem pointer_ok (hpos : msg.pos ≤ msg.len) (halign : (msg.ptr + offset) % 4 = 0)
    (hstop : offset + NLMSG_HDRLEN ≤ msg.pos) : msg.pointer offset = .ok () := by
  unfold NlMsg.pointer NLMSG_HDRLEN at *
  rw [if_neg (by omega), if_neg (by omega)]

/-- A message of an error is never taken for an acknowledgement: its code is its length. -/
theorem checkError_run (hpos : msg.pos ≤ msg.len) (halign : (msg.ptr + offset) % 4 = 0)
    (hpresent : msg.Present offset) (type : ℕ) (ht : t.Inside msg) :
    ∃ t', t'.Inside msg ∧ t'.listed = t.listed ∧ checkError msg offset type t =
      (if type = NLMSG_ERROR then .err .kernelError else .ok (), t') := by
  obtain ⟨hstop, hlen⟩ := hpresent
  unfold checkError
  split_ifs with htype
  · have hcode : msg.word offset 4 ≠ 0 := by
      rw [msg.errorCode_eq]
      unfold NLMSG_HDRLEN at hlen
      omega
    refine ⟨_, ht.touch offset 4 (Nat.le_trans (Nat.add_le_add_left (by decide) offset) hstop),
      rfl, ?_⟩
    rw [Proc.lift_bind_of_ok (pointer_ok hpos halign hstop)]
    have hrun : errorCodeAt msg offset t =
        (.ok (msg.word offset 4), { t with read := t.read ++ List.range' offset 4 }) := rfl
    rw [Proc.bind_of_ok hrun, if_pos hcode]
    rfl
  · exact ⟨t, ht, rfl, rfl⟩

theorem align_run (len : UInt32) : (alignForward len.toNat NLMSG_ALIGNTO : Outcome NlError ℕ) =
    .ok ((len.toNat + 3) / 4 * 4) := by
  have hlen := len.toNat_lt
  have hbump : (add len.toNat 3 : Outcome NlError ℕ) = .ok (len.toNat + 3) :=
    add_eq_ok.mpr ⟨by unfold usizeEnd; omega, rfl⟩
  unfold alignForward NLMSG_ALIGNTO
  rw [hbump]
  rfl

theorem add_next (hfit : offset < 2 ^ 63) :
    (add offset (((msg.header offset).nlmsgLen.toNat + 3) / 4 * 4) : Outcome NlError ℕ) =
      .ok (msg.next offset) := by
  have hlen := (msg.header offset).nlmsgLen.toNat_lt
  exact add_eq_ok.mpr ⟨by unfold usizeEnd; omega, rfl⟩

/-- The end of a round that lists its header. -/
theorem list_run (hpos : msg.pos ≤ msg.len) (hstop : offset + NLMSG_HDRLEN ≤ msg.pos)
    (delivers : Bool) (ht : t.Inside msg) :
    ∃ t', t'.Inside msg ∧ t'.listed = t.listed ∧
      (append delivers msg offset >>= fun hdr =>
        Proc.lift (alignForward (msg.header offset).nlmsgLen.toNat NLMSG_ALIGNTO) >>= fun aligned =>
          Proc.lift (add offset aligned) >>= fun next => pure (some (hdr, next))) t =
        if delivers = true then (.ok (some (msg.header offset, msg.next offset)),
          { t' with listed := t'.listed ++ [offset] })
        else (.err .outOfMemory, t') := by
  have hread := ht.touch _ _ hstop
  cases delivers with
  | false => exact ⟨_, hread, rfl, rfl⟩
  | true =>
    refine ⟨_, hread, rfl, ?_⟩
    have happend : append true msg offset t = (.ok (msg.header offset),
        { read := t.read ++ List.range' offset NLMSG_HDRLEN
          listed := t.listed ++ [offset] }) := rfl
    have hlt : offset < 2 ^ 63 := by
      have hmax := msg.len_lt
      omega
    rw [Proc.bind_of_ok happend, Proc.lift_bind_of_ok (align_run _),
      Proc.lift_bind_of_ok (add_next hlt)]
    rfl

/-- A round of the loop, by what it finds. -/
theorem parseStep_run (hpos : msg.pos ≤ msg.len) (halign : (msg.ptr + offset) % 4 = 0)
    (hfit : offset + NLMSG_HDRLEN < usizeEnd) (delivers : Bool) (ht : t.Inside msg) :
    ∃ t', t'.Inside msg ∧ t'.listed = t.listed ∧ parseStep delivers msg offset t =
      if ¬ msg.Present offset then (.ok none, t')
      else if (msg.header offset).nlmsgType.toNat = NLMSG_ERROR then (.err .kernelError, t')
      else if (msg.header offset).nlmsgType.toNat = NLMSG_DONE then (.ok none, t')
      else if delivers = true then
        (.ok (some (msg.header offset, msg.next offset)),
          { t' with listed := t'.listed ++ [offset] })
      else (.err .outOfMemory, t') := by
  unfold parseStep
  rw [Proc.lift_bind_of_ok (add_header hfit)]
  by_cases hstop : offset + NLMSG_HDRLEN ≤ msg.pos
  swap
  · refine ⟨t, ht, rfl, ?_⟩
    rw [if_pos (Nat.lt_of_not_le hstop), if_pos (fun hpresent => hstop hpresent.1)]
    rfl
  rw [if_neg (Nat.not_lt.mpr hstop), Proc.lift_bind_of_ok (pointer_ok hpos halign hstop),
    Proc.bind_of_ok (lenAt_run msg offset t)]
  have hlenRead := ht.touch offset 4
    (Nat.le_trans (Nat.add_le_add_left (by decide) offset) hstop)
  by_cases hlen : NLMSG_HDRLEN ≤ (msg.header offset).nlmsgLen.toNat
  swap
  · refine ⟨_, hlenRead, rfl, ?_⟩
    rw [if_pos (Nat.lt_of_not_le hlen), if_pos (fun hpresent => hlen hpresent.2)]
    rfl
  have hpresent : msg.Present offset := ⟨hstop, hlen⟩
  have htypeRead := hlenRead.touch (offset + 4) 2
    (Nat.le_trans (Nat.add_le_add_left (by decide : 4 + 2 ≤ NLMSG_HDRLEN) offset) hstop)
  obtain ⟨t', ht', hlisted, hcheck⟩ := checkError_run hpos halign hpresent
    (msg.header offset).nlmsgType.toNat htypeRead
  rw [if_neg (Nat.not_lt.mpr hlen), Proc.bind_of_ok (typeAt_run msg offset _)]
  simp only [not_not.mpr hpresent, if_false]
  by_cases herror : (msg.header offset).nlmsgType.toNat = NLMSG_ERROR
  · simp only [herror, if_true] at hcheck ⊢
    exact ⟨t', ht', hlisted, Proc.bind_of_err hcheck _⟩
  simp only [herror, if_false] at hcheck ⊢
  rw [Proc.bind_of_ok hcheck]
  by_cases hdone : (msg.header offset).nlmsgType.toNat = NLMSG_DONE
  · simp only [hdone, if_true]
    exact ⟨t', ht', hlisted, rfl⟩
  simp only [hdone, if_false]
  obtain ⟨t'', ht'', hlisted', hlist⟩ := list_run hpos hstop delivers ht'
  exact ⟨t'', ht'', hlisted'.trans hlisted, hlist⟩

end Step

/-- A round that goes on has a whole header before it, and the next offset behind it. -/
theorem parseStep_progress {delivers : Bool} {msg : NlMsg} {offset next : ℕ} {hdr : NlMsgHdr}
    {t t' : Trace} (h : parseStep delivers msg offset t = (.ok (some (hdr, next)), t')) :
    offset < msg.pos ∧ offset < next := by
  unfold parseStep at h
  obtain ⟨stop, t₁, hstart, h⟩ := Proc.bind_eq_ok.mp h
  obtain ⟨hadd, -⟩ := Proc.lift_eq_ok.mp hstart
  obtain ⟨-, rfl⟩ := add_eq_ok.mp hadd
  split_ifs at h with hstop
  · cases h
  obtain ⟨_, t₂, -, h⟩ := Proc.bind_eq_ok.mp h
  obtain ⟨len, t₃, -, h⟩ := Proc.bind_eq_ok.mp h
  split_ifs at h with hlen
  · cases h
  obtain ⟨type, t₄, -, h⟩ := Proc.bind_eq_ok.mp h
  obtain ⟨_, t₅, -, h⟩ := Proc.bind_eq_ok.mp h
  split_ifs at h
  · cases h
  obtain ⟨_, t₆, -, h⟩ := Proc.bind_eq_ok.mp h
  obtain ⟨aligned, t₇, hforward, h⟩ := Proc.bind_eq_ok.mp h
  obtain ⟨next', t₈, hlast, h⟩ := Proc.bind_eq_ok.mp h
  obtain ⟨halign, -⟩ := Proc.lift_eq_ok.mp hforward
  obtain ⟨hnext, -⟩ := Proc.lift_eq_ok.mp hlast
  obtain ⟨-, rfl⟩ := add_eq_ok.mp hnext
  have hle : len ≤ aligned := le_of_alignForward (by decide) halign
  cases h
  unfold NLMSG_HDRLEN at hstop hlen
  omega

/-- The loop from an offset on: every round takes it further, and `pos` ends it. -/
def parseFrom (delivers : ℕ → Bool) (msg : NlMsg) (headers : List NlMsgHdr) (offset : ℕ) :
    Proc Trace NlError (List NlMsgHdr) := fun t =>
  match _h : parseStep (delivers headers.length) msg offset t with
  | (.ok (some (hdr, next)), t') => parseFrom delivers msg (headers ++ [hdr]) next t'
  | (.ok none, t') =>
    -- `headers.toOwnedSlice()`
    if delivers headers.length then (.ok headers, t') else (.err .outOfMemory, t')
  | (.err e, t') => (.err e, t')
  | (.trap f, t') => (.trap f, t')
termination_by msg.pos - offset
decreasing_by
  have hprogress := parseStep_progress _h
  omega

/-- `delivers` says which requests of the list find memory: an append each, and the last one. -/
def parse (delivers : ℕ → Bool) (msg : NlMsg) : Proc Trace NlError (List NlMsgHdr) :=
  parseFrom delivers msg [] 0

/-- The walk comes to the offset with so many headers listed. -/
inductive Reached (msg : NlMsg) : ℕ → ℕ → Prop where
  | start : Reached msg 0 0
  | next {n offset : ℕ} (h : Reached msg n offset) (hlisted : msg.Listed offset) :
      Reached msg (n + 1) (msg.next offset)

/-- The header is of a message in the first `pos` bytes. -/
def Describes (msg : NlMsg) (offset : ℕ) (hdr : NlMsgHdr) : Prop :=
  hdr = msg.header offset ∧ NLMSG_HDRLEN ≤ hdr.nlmsgLen.toNat ∧
    offset + hdr.nlmsgLen.toNat ≤ msg.pos

/-- The call ends without a trap, it has read the first `pos` bytes only, and what it returns are
the headers of messages among them. -/
def StaysInside (delivers : ℕ → Bool) (msg : NlMsg) : Prop :=
  (∀ fault, (parse delivers msg).result {} ≠ .trap fault) ∧
    ((parse delivers msg).final {}).Inside msg ∧
    ∀ headers, (parse delivers msg).result {} = .ok headers →
      List.Forall₂ (Describes msg) ((parse delivers msg).final {}).listed headers

/-- A header whose message goes on behind the first `pos` bytes comes to be returned. -/
def Oversized (delivers : ℕ → Bool) (msg : NlMsg) (n offset : ℕ) : Prop :=
  Reached msg n offset ∧ msg.Listed offset ∧ (∀ k ≤ n + 1, delivers k = true) ∧
    msg.pos < offset + (msg.header offset).nlmsgLen.toNat

section Loop

variable {delivers : ℕ → Bool} {msg : NlMsg} {headers : List NlMsgHdr} {offset : ℕ} {t t' : Trace}

theorem parseFrom_next {hdr : NlMsgHdr} {next : ℕ}
    (h : parseStep (delivers headers.length) msg offset t = (.ok (some (hdr, next)), t')) :
    parseFrom delivers msg headers offset t =
      parseFrom delivers msg (headers ++ [hdr]) next t' := by
  rw [parseFrom]
  split
  next heq =>
    rw [h] at heq
    cases heq
    rfl
  all_goals
    rename_i heq
    rw [h] at heq
    cases heq

theorem parseFrom_stop
    (h : parseStep (delivers headers.length) msg offset t = (.ok none, t')) :
    parseFrom delivers msg headers offset t =
      (if delivers headers.length = true then .ok headers else .err .outOfMemory, t') := by
  rw [parseFrom]
  split
  next heq =>
    rw [h] at heq
    cases heq
  next heq =>
    rw [h] at heq
    cases heq
    split_ifs
    · rfl
    · rfl
  all_goals
    rename_i heq
    rw [h] at heq
    cases heq

theorem parseFrom_err {e : NlError}
    (h : parseStep (delivers headers.length) msg offset t = (.err e, t')) :
    parseFrom delivers msg headers offset t = (.err e, t') := by
  rw [parseFrom]
  split
  next heq =>
    rw [h] at heq
    cases heq
  next heq =>
    rw [h] at heq
    cases heq
  next heq =>
    rw [h] at heq
    cases heq
    rfl
  next heq =>
    rw [h] at heq
    cases heq

theorem parseFrom_trap {fault : Fault}
    (h : parseStep (delivers headers.length) msg offset t = (.trap fault, t')) :
    parseFrom delivers msg headers offset t = (.trap fault, t') := by
  rw [parseFrom]
  split
  next heq =>
    rw [h] at heq
    cases heq
  next heq =>
    rw [h] at heq
    cases heq
  next heq =>
    rw [h] at heq
    cases heq
  next heq =>
    rw [h] at heq
    cases heq
    rfl

/-- What holds at the head of the loop. -/
structure Walked (delivers : ℕ → Bool) (msg : NlMsg) (headers : List NlMsgHdr) (offset : ℕ)
    (t : Trace) : Prop where
  reached : Reached msg headers.length offset
  aligned : (msg.ptr + offset) % 4 = 0
  fits : offset + NLMSG_HDRLEN < usizeEnd
  inside : t.Inside msg
  listed : List.Forall₂ (fun o hdr => hdr = msg.header o ∧ msg.Listed o) t.listed headers
  places : ∀ i o, t.listed[i]? = some o → Reached msg i o
  delivered : ∀ k < headers.length, delivers k = true

theorem Walked.length_eq (h : Walked delivers msg headers offset t) :
    t.listed.length = headers.length := h.listed.length_eq

theorem walked_start (halign : msg.ptr % 4 = 0) : Walked delivers msg [] 0 {} where
  reached := .start
  aligned := by simpa using halign
  fits := by decide
  inside := nofun
  listed := .nil
  places i o h := by simp at h
  delivered := nofun

theorem Walked.next (h : Walked delivers msg headers offset t) (hpos : msg.pos ≤ msg.len)
    (hlisted : msg.Listed offset) (hdelivers : delivers headers.length = true)
    (hinside : t'.Inside msg) (ht' : t'.listed = t.listed ++ [offset]) :
    Walked delivers msg (headers ++ [msg.header offset]) (msg.next offset) t' where
  reached := by
    rw [List.length_append]
    exact .next h.reached hlisted
  aligned := by
    have haligned := h.aligned
    unfold NlMsg.next
    omega
  fits := by
    have hlen := (msg.header offset).nlmsgLen.toNat_lt
    have hstop := hlisted.1.1
    have hmax := msg.len_lt
    unfold NlMsg.next NLMSG_HDRLEN usizeEnd at *
    omega
  inside := hinside
  listed := by
    rw [ht']
    exact List.rel_append h.listed (.cons ⟨rfl, hlisted⟩ .nil)
  places i o hi := by
    rw [ht', List.getElem?_append] at hi
    split_ifs at hi with hlt
    · exact h.places i o hi
    · obtain ⟨hindex, hoffset⟩ := List.getElem?_eq_some_iff.mp hi
      have hlast : i = headers.length := by
        rw [List.length_singleton, h.length_eq] at hindex
        rw [h.length_eq] at hlt
        omega
      rw [List.getElem_singleton] at hoffset
      rw [← hoffset, hlast]
      exact h.reached
  delivered k hk := by
    rw [List.length_append, List.length_singleton] at hk
    rcases Nat.lt_succ_iff_lt_or_eq.mp hk with hlt | rfl
    · exact h.delivered k hlt
    · exact hdelivers

/-- Reads change nothing else. -/
theorem Walked.reads (h : Walked delivers msg headers offset t) (hinside : t'.Inside msg)
    (ht' : t'.listed = t.listed) : Walked delivers msg headers offset t' where
  reached := h.reached
  aligned := h.aligned
  fits := h.fits
  inside := hinside
  listed := by
    rw [ht']
    exact h.listed
  places := by
    rw [ht']
    exact h.places
  delivered := h.delivered

/-- What is proved of every call, whatever the lengths in the headers say. -/
structure Ends (delivers : ℕ → Bool) (msg : NlMsg) (r : Outcome NlError (List NlMsgHdr) × Trace) :
    Prop where
  no_trap : ∀ fault, r.1 ≠ .trap fault
  inside : r.2.Inside msg
  walked : ∀ headers, r.1 = .ok headers →
    delivers headers.length = true ∧ ∃ stop, Walked delivers msg headers stop r.2

theorem ends_of_err (hinside : t.Inside msg) (e : NlError) : Ends delivers msg (.err e, t) where
  no_trap := nofun
  inside := hinside
  walked := nofun

theorem Walked.stop (h : Walked delivers msg headers offset t) :
    Ends delivers msg
      (if delivers headers.length = true then .ok headers else .err .outOfMemory, t) := by
  split_ifs with hdelivers
  · exact {
      no_trap := nofun
      inside := h.inside
      walked := by
        intro returned hreturned
        cases hreturned
        exact ⟨hdelivers, offset, h⟩ }
  · exact ends_of_err h.inside _

/-- The rounds of the loop, one after the other. -/
theorem Walked.ends {headers : List NlMsgHdr} {offset : ℕ} {t : Trace}
    (h : Walked delivers msg headers offset t) (hpos : msg.pos ≤ msg.len) :
    Ends delivers msg (parseFrom delivers msg headers offset t) := by
  obtain ⟨t', hinside, ht', hstep⟩ :=
    parseStep_run hpos h.aligned h.fits (delivers headers.length) h.inside
  split_ifs at hstep with hpresent herror hdone hdelivers
  · rw [parseFrom_err hstep]
    exact ends_of_err hinside _
  · rw [parseFrom_stop hstep]
    exact (h.reads hinside ht').stop
  · have hlisted : msg.Listed offset := ⟨hpresent, herror, hdone⟩
    have hprogress := parseStep_progress hstep
    rw [parseFrom_next hstep]
    have hplaces : t'.listed ++ [offset] = t.listed ++ [offset] := by rw [ht']
    have hnext : Walked delivers msg (headers ++ [msg.header offset]) (msg.next offset)
        { t' with listed := t'.listed ++ [offset] } :=
      h.next hpos hlisted hdelivers hinside hplaces
    exact hnext.ends hpos
  · rw [parseFrom_err hstep]
    exact ends_of_err hinside _
  · rw [parseFrom_stop hstep]
    exact (h.reads hinside ht').stop
termination_by msg.pos - offset

/-- The loop passes every offset that the walk reaches, as long as the appends find memory. -/
theorem parse_of_reached (hpos : msg.pos ≤ msg.len) (halign : msg.ptr % 4 = 0) {n : ℕ}
    (hreached : Reached msg n offset) (hdelivers : ∀ k < n, delivers k = true) :
    ∃ headers t, headers.length = n ∧ Walked delivers msg headers offset t ∧
      parse delivers msg {} = parseFrom delivers msg headers offset t := by
  induction hreached with
  | start => exact ⟨[], {}, rfl, walked_start halign, rfl⟩
  | @next n offset hreached hlisted ih =>
    obtain ⟨headers, t, rfl, hwalked, hparse⟩ :=
      ih fun k hk => hdelivers k (Nat.lt_succ_of_lt hk)
    have hroom : delivers headers.length = true := hdelivers _ (Nat.lt_succ_self _)
    obtain ⟨t', hinside, ht', hstep⟩ := parseStep_run hpos hwalked.aligned hwalked.fits
      (delivers headers.length) hwalked.inside
    rw [if_neg (not_not.mpr hlisted.1), if_neg hlisted.2.1, if_neg hlisted.2.2,
      if_pos hroom] at hstep
    have hplaces : t'.listed ++ [offset] = t.listed ++ [offset] := by rw [ht']
    have hnext : Walked delivers msg (headers ++ [msg.header offset]) (msg.next offset)
        { t' with listed := t'.listed ++ [offset] } :=
      hwalked.next hpos hlisted hroom hinside hplaces
    refine ⟨headers ++ [msg.header offset], _, ?_, hnext, ?_⟩
    · rw [List.length_append, List.length_singleton]
    · rw [hparse, parseFrom_next hstep]

/-- A header whose message is too long ends the loop, and is returned. -/
theorem parse_of_oversized (hpos : msg.pos ≤ msg.len) (halign : msg.ptr % 4 = 0) {n : ℕ}
    (h : Oversized delivers msg n offset) :
    ∃ headers places t, parse delivers msg {} = (.ok (headers ++ [msg.header offset]), t) ∧
      t.listed = places ++ [offset] := by
  obtain ⟨hreached, hlisted, hdelivers, hlong⟩ := h
  obtain ⟨headers, t, rfl, hwalked, hparse⟩ := parse_of_reached hpos halign hreached
    fun k hk => hdelivers k (by omega)
  have hroom : delivers headers.length = true := hdelivers _ (Nat.le_succ _)
  obtain ⟨t', hinside, ht', hstep⟩ := parseStep_run hpos hwalked.aligned hwalked.fits
    (delivers headers.length) hwalked.inside
  rw [if_neg (not_not.mpr hlisted.1), if_neg hlisted.2.1, if_neg hlisted.2.2,
    if_pos hroom] at hstep
  have hplaces : t'.listed ++ [offset] = t.listed ++ [offset] := by rw [ht']
  have hnext : Walked delivers msg (headers ++ [msg.header offset]) (msg.next offset)
      { t' with listed := t'.listed ++ [offset] } :=
    hwalked.next hpos hlisted hroom hinside hplaces
  have habsent : ¬ msg.Present (msg.next offset) := by
    rintro ⟨hstop, -⟩
    unfold NlMsg.next at hstop
    omega
  obtain ⟨t₂, -, ht₂, hstep₂⟩ := parseStep_run hpos hnext.aligned hnext.fits
    (delivers (headers ++ [msg.header offset]).length) hnext.inside
  rw [if_pos habsent] at hstep₂
  have hlast : delivers (headers ++ [msg.header offset]).length = true :=
    hdelivers _ (by rw [List.length_append, List.length_singleton])
  refine ⟨headers, t'.listed, t₂, ?_, ht₂⟩
  rw [hparse, parseFrom_next hstep, parseFrom_stop hstep₂, if_pos hlast]

theorem not_staysInside (hpos : msg.pos ≤ msg.len) (halign : msg.ptr % 4 = 0) {n : ℕ}
    (h : Oversized delivers msg n offset) : ¬ StaysInside delivers msg := by
  rintro ⟨-, -, hdescribes⟩
  obtain ⟨headers, places, t, hparse, ht⟩ := parse_of_oversized hpos halign h
  have hall := hdescribes (headers ++ [msg.header offset]) (congrArg Prod.fst hparse)
  have hfinal : (parse delivers msg).final {} = t := congrArg Prod.snd hparse
  rw [hfinal, ht, ← List.forall₂_reverse_iff, List.reverse_append, List.reverse_append] at hall
  obtain ⟨⟨-, -, hend⟩, -⟩ := List.forall₂_cons.mp hall
  have hbehind := h.2.2.2
  omega

end Loop

/-- What is returned from the first `pos` bytes describes messages in them, exactly if no message
that the walk comes to lists is longer than what is left of them. -/
theorem staysInside_iff (delivers : ℕ → Bool) (msg : NlMsg) (hpos : msg.pos ≤ msg.len)
    (halign : msg.ptr % 4 = 0) :
    StaysInside delivers msg ↔ ∀ n offset, ¬ Oversized delivers msg n offset := by
  constructor
  · intro hstays n offset hlong
    exact not_staysInside hpos halign hlong hstays
  · intro hfit
    have hstart : Walked delivers msg [] 0 {} := walked_start halign
    have hends := hstart.ends hpos
    refine ⟨hends.no_trap, hends.inside, fun headers hheaders => ?_⟩
    obtain ⟨hlast, stop, hwalked⟩ := hends.walked headers hheaders
    rw [List.forall₂_iff_get]
    refine ⟨hwalked.length_eq, fun i hplace hheader => ?_⟩
    obtain ⟨heq, hlisted⟩ := (List.forall₂_iff_get.mp hwalked.listed).2 i hplace hheader
    have hreached := hwalked.places i _ (List.getElem?_eq_getElem hplace)
    refine ⟨heq, ?_, ?_⟩
    · rw [heq]
      exact hlisted.1.2
    · by_contra hlong
      rw [heq, Nat.not_le] at hlong
      refine hfit i _ ⟨hreached, hlisted, fun k hk => ?_, hlong⟩
      rcases Nat.lt_or_ge k headers.length with hlt | hge
      · exact hwalked.delivered k hlt
      · obtain rfl : k = headers.length := by omega
        exact hlast

/-- Sixteen bytes: a message of type 16 that says it is `length` bytes long. -/
def soleHeader (length : UInt8) : NlMsg where
  ptr := 4096
  bytes
    | 0 => length
    | 4 => 16
    | _ => 0
  len := 16
  pos := 16
  len_lt := by decide

theorem staysInside_iff_sole : StaysInside (fun _ => true) (soleHeader 16) := by
  apply (staysInside_iff _ _ (by decide) (by decide)).mpr
  rintro n offset ⟨-, ⟨⟨hstop, -⟩, -⟩, -, hlong⟩
  obtain rfl : offset = 0 := by
    have hend : offset + 16 ≤ 16 := hstop
    omega
  revert hlong
  decide

/-- A header of sixteen received bytes tells of a message of a hundred. -/
theorem header_oversized : ¬ StaysInside (fun _ => true) (soleHeader 100) :=
  not_staysInside (by decide) (by decide) (n := 0)
    ⟨.start, by decide, fun _ _ => rfl, by decide⟩

end LingNet.Netlink
