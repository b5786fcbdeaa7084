import LingNet.Lib.ByteMem
import LingNet.Netlink.Parse

/-! Messages as they follow each other in a buffer, and the parser as a walk over their list. -/
namespace LingNet.Netlink
open Zig ByteMem

/-- The little-endian bytes of a number. -/
def wordBytes (n v : ℕ) : List UInt8 := (bytesOf n v).map UInt8.ofBitVec

/-- `mem.asBytes(&hdr)` -/
def NlMsgHdr.asBytes (hdr : NlMsgHdr) : List UInt8 :=
  wordBytes 4 hdr.nlmsgLen.toNat ++ (wordBytes 2 hdr.nlmsgType.toNat ++
    (wordBytes 2 hdr.nlmsgFlags.toNat ++ (wordBytes 4 hdr.nlmsgSeq.toNat ++
      wordBytes 4 hdr.nlmsgPid.toNat)))

/-- A message of the kernel's, with the bytes that fill it up to a multiple of four. A message of
an error carries its code and the header it is about, and maybe more. -/
structure Message where
  type : UInt16
  flags : UInt16
  seq : UInt32
  pid : UInt32
  payload : List UInt8
  padding : List UInt8
  fits : NLMSG_HDRLEN + payload.length < 2 ^ 32
  padded : NLMSG_HDRLEN + payload.length + padding.length =
    (NLMSG_HDRLEN + payload.length + 3) / 4 * 4
  reports : type.toNat = NLMSG_ERROR → 4 + NLMSG_HDRLEN ≤ payload.length

namespace Message

variable (m : Message)

def header : NlMsgHdr where
  nlmsgLen := .ofNat (NLMSG_HDRLEN + m.payload.length)
  nlmsgType := m.type
  nlmsgFlags := m.flags
  nlmsgSeq := m.seq
  nlmsgPid := m.pid

/-- The bits of the `i32` that follows the header of an error. -/
def errorCode : BitVec 32 := .ofNat 32 (valueOf ((m.payload.take 4).map UInt8.toBitVec))

def encode : List UInt8 := m.header.asBytes ++ (m.payload ++ m.padding)

/-- The parser comes to a listed message past this one. -/
def Plain : Prop := m.type.toNat ≠ NLMSG_ERROR ∧ m.type.toNat ≠ NLMSG_DONE

instance : DecidablePred Plain := fun m =>
  inferInstanceAs (Decidable (m.type.toNat ≠ NLMSG_ERROR ∧ m.type.toNat ≠ NLMSG_DONE))

end Message

/-- A well-formed concatenation. -/
def encodeAll (messages : List Message) : List UInt8 := messages.flatMap Message.encode

/-- The buffer holds these bytes from an offset on. -/
def NlMsg.Holds (msg : NlMsg) (offset : ℕ) (bytes : List UInt8) : Prop :=
  ∀ i, (h : i < bytes.length) → msg.bytes (offset + i) = bytes[i]

/-- These are the first `pos` bytes. -/
structure NlMsg.Written (msg : NlMsg) (bytes : List UInt8) : Prop where
  pos_eq : msg.pos = bytes.length
  pos_le : msg.pos ≤ msg.len
  holds : msg.Holds 0 bytes

/-- A buffer of just these bytes. -/
def NlMsg.ofBytes (ptr : ℕ) (bytes : List UInt8) (h : bytes.length < 2 ^ 63) : NlMsg where
  ptr := ptr
  bytes i := bytes.getD i 0
  len := bytes.length
  pos := bytes.length
  len_lt := h

theorem written_ofBytes (ptr : ℕ) (bytes : List UInt8) (h : bytes.length < 2 ^ 63) :
    (NlMsg.ofBytes ptr bytes h).Written bytes where
  pos_eq := rfl
  pos_le := Nat.le_refl _
  holds i hi := by
    show bytes.getD (0 + i) 0 = bytes[i]
    rw [Nat.zero_add, List.getD_eq_getElem?_getD, List.getElem?_eq_getElem hi,
      Option.getD_some]

section Bytes

variable {msg : NlMsg} {offset : ℕ}

@[simp] theorem length_wordBytes (n v : ℕ) : (wordBytes n v).length = n := by
  unfold wordBytes
  rw [List.length_map, length_bytesOf]

@[simp] theorem length_asBytes (hdr : NlMsgHdr) : hdr.asBytes.length = NLMSG_HDRLEN := by
  unfold NlMsgHdr.asBytes NLMSG_HDRLEN
  simp only [List.length_append, length_wordBytes]

@[simp] theorem Message.length_encode (m : Message) :
    m.encode.length = (NLMSG_HDRLEN + m.payload.length + 3) / 4 * 4 := by
  have hpadded := m.padded
  unfold Message.encode
  simp only [List.length_append, length_asBytes]
  omega

theorem NlMsg.Holds.append {a b : List UInt8} (h : msg.Holds offset (a ++ b)) :
    msg.Holds offset a ∧ msg.Holds (offset + a.length) b := by
  constructor
  · intro i hi
    have hbyte := h i (by rw [List.length_append]; omega)
    rwa [List.getElem_append_left hi] at hbyte
  · intro i hi
    have hbyte := h (a.length + i) (by rw [List.length_append]; omega)
    rw [List.getElem_append_right (Nat.le_add_right _ _)] at hbyte
    rw [Nat.add_assoc, hbyte]
    congr 1
    omega

/-- The word at an offset, from the bytes there. -/
theorem NlMsg.Holds.word_eq {n : ℕ} {bytes : List UInt8} (h : msg.Holds offset bytes)
    (hn : bytes.length = n) : msg.word offset n = valueOf (bytes.map UInt8.toBitVec) := by
  induction bytes generalizing n offset with
  | nil =>
    subst hn
    rfl
  | cons b bytes ih =>
    subst hn
    have hfirst : msg.bytes offset = b := h 0 (Nat.succ_pos _)
    have hrest : msg.Holds (offset + 1) bytes := (NlMsg.Holds.append (a := [b]) h).2
    rw [List.length_cons, NlMsg.word, hfirst, ih hrest rfl, List.map_cons, valueOf_cons]
    rfl

theorem NlMsg.Holds.word_wordBytes {n v : ℕ} (h : msg.Holds offset (wordBytes n v)) :
    msg.word offset n = v % 256 ^ n := by
  have hvalue : (wordBytes n v).map UInt8.toBitVec = bytesOf n v := by
    unfold wordBytes
    rw [List.map_map]
    exact List.map_id _
  rw [h.word_eq (length_wordBytes n v), hvalue, valueOf_bytesOf]

theorem NlMsg.Holds.word_uint32 {v : UInt32} (h : msg.Holds offset (wordBytes 4 v.toNat)) :
    UInt32.ofNat (msg.word offset 4) = v := by
  have hv : v.toNat < 256 ^ 4 := v.toNat_lt
  rw [h.word_wordBytes, Nat.mod_eq_of_lt hv, UInt32.ofNat_toNat]

theorem NlMsg.Holds.word_uint16 {v : UInt16} (h : msg.Holds offset (wordBytes 2 v.toNat)) :
    UInt16.ofNat (msg.word offset 2) = v := by
  have hv : v.toNat < 256 ^ 2 := v.toNat_lt
  rw [h.word_wordBytes, Nat.mod_eq_of_lt hv, UInt16.ofNat_toNat]

/-- Bytes of a header are read as that header. -/
theorem NlMsg.Holds.header_eq {hdr : NlMsgHdr} (h : msg.Holds offset hdr.asBytes) :
    msg.header offset = hdr := by
  obtain ⟨hlen, h⟩ := h.append
  obtain ⟨htype, h⟩ := h.append
  obtain ⟨hflags, h⟩ := h.append
  obtain ⟨hseq, hpid⟩ := h.append
  simp only [length_wordBytes, Nat.add_assoc] at htype hflags hseq hpid
  unfold NlMsg.header
  rw [hlen.word_uint32, htype.word_uint16, hflags.word_uint16, hseq.word_uint32, hpid.word_uint32]

end Bytes

/-! The walk over the list, which the parser makes over the bytes. -/

/-- `headers.toOwnedSlice()` -/
def owned (delivers : ℕ → Bool) (headers : List NlMsgHdr) : Outcome NlError (List NlMsgHdr) :=
  if delivers headers.length = true then .ok headers else .err .outOfMemory

def scan (delivers : ℕ → Bool) (headers : List NlMsgHdr) :
    List Message → Outcome NlError (List NlMsgHdr)
  | [] => owned delivers headers
  | m :: messages =>
    if m.type.toNat = NLMSG_ERROR then .err .kernelError
    else if m.type.toNat = NLMSG_DONE then owned delivers headers
    else if delivers headers.length = true then scan delivers (headers ++ [m.header]) messages
    else .err .outOfMemory

section Walk

variable {delivers : ℕ → Bool} {msg : NlMsg} {m : Message} {messages : List Message}
  {offset : ℕ}

theorem Message.length_header (m : Message) :
    m.header.nlmsgLen.toNat = NLMSG_HDRLEN + m.payload.length :=
  UInt32.toNat_ofNat_of_lt' m.fits

theorem header_of_holds (h : msg.Holds offset (encodeAll (m :: messages))) :
    msg.header offset = m.header := by
  have hmessage : msg.Holds offset m.encode := (NlMsg.Holds.append h).1
  exact hmessage.append.1.header_eq

theorem next_of_holds (h : msg.Holds offset (encodeAll (m :: messages))) :
    msg.next offset = offset + m.encode.length := by
  unfold NlMsg.next
  rw [header_of_holds h, m.length_header, m.length_encode]

theorem length_encodeAll_cons (m : Message) (messages : List Message) :
    (encodeAll (m :: messages)).length = m.encode.length + (encodeAll messages).length :=
  List.length_append

theorem present_of_holds (h : msg.Holds offset (encodeAll (m :: messages)))
    (hpos : offset + (encodeAll (m :: messages)).length = msg.pos) : msg.Present offset := by
  have hlength := length_encodeAll_cons m messages
  rw [m.length_encode] at hlength
  refine ⟨by omega, ?_⟩
  rw [header_of_holds h, m.length_header]
  omega

/-- Behind the last whole header the loop ends without a look at the buffer. -/
theorem parseFrom_end {headers : List NlMsgHdr} {t : Trace} (hend : offset = msg.pos)
    (hlen : msg.pos ≤ msg.len) :
    parseFrom delivers msg headers offset t = (owned delivers headers, t) := by
  have hmax := msg.len_lt
  have hfit : offset + NLMSG_HDRLEN < usizeEnd := by
    unfold NLMSG_HDRLEN usizeEnd
    omega
  have hstop : msg.pos < offset + NLMSG_HDRLEN := by
    unfold NLMSG_HDRLEN
    omega
  have hstep : parseStep (delivers headers.length) msg offset t = (.ok none, t) := by
    unfold parseStep
    rw [Proc.lift_bind_of_ok (add_header hfit), if_pos hstop]
    rfl
  rw [parseFrom_stop hstep]
  rfl

/-- The rounds of the loop, one for each message. -/
theorem parseFrom_holds {headers : List NlMsgHdr} {t : Trace}
    (hholds : msg.Holds offset (encodeAll messages))
    (hpos : offset + (encodeAll messages).length = msg.pos) (hlen : msg.pos ≤ msg.len)
    (halign : messages = [] ∨ (msg.ptr + offset) % 4 = 0) (ht : t.Inside msg) :
    (parseFrom delivers msg headers offset t).1 = scan delivers headers messages := by
  induction messages generalizing headers offset t with
  | nil =>
    have hend : offset = msg.pos := hpos
    rw [parseFrom_end hend hlen]
    rfl
  | cons m messages ih =>
    replace halign := halign.resolve_left (List.cons_ne_nil m messages)
    have hpresent := present_of_holds hholds hpos
    have hfit : offset + NLMSG_HDRLEN < usizeEnd := by
      have hmax := msg.len_lt
      have hstop := hpresent.1
      unfold usizeEnd
      omega
    have hheader := header_of_holds hholds
    have htype : (msg.header offset).nlmsgType = m.type := by rw [hheader]; rfl
    obtain ⟨t', hinside, ht', hstep⟩ :=
      parseStep_run hlen halign hfit (delivers headers.length) ht
    rw [if_neg (not_not.mpr hpresent), htype] at hstep
    unfold scan
    split_ifs at hstep ⊢ with herror hdone hdelivers
    · rw [parseFrom_err hstep]
    · rw [parseFrom_stop hstep]
      rfl
    · have hlength := length_encodeAll_cons m messages
      have hsize := m.length_encode
      rw [parseFrom_next hstep, hheader, next_of_holds hholds]
      have hrest : msg.Holds (offset + m.encode.length) (encodeAll messages) :=
        (NlMsg.Holds.append hholds).2
      exact ih hrest (by omega) (.inr (by omega)) hinside
    · rw [parseFrom_err hstep]

/-- On a well-formed concatenation the parser walks over the list of its messages. -/
theorem parse_eq_scan (h : msg.Written (encodeAll messages))
    (halign : messages = [] ∨ msg.ptr % 4 = 0) :
    (parse delivers msg).result {} = scan delivers [] messages := by
  have hpos : 0 + (encodeAll messages).length = msg.pos := by
    rw [h.pos_eq, Nat.zero_add]
  exact parseFrom_holds h.holds hpos h.pos_le halign nofun

/-- `@alignCast` checks the address at the first header. -/
theorem parse_of_misaligned (h : msg.Written (encodeAll (m :: messages)))
    (halign : msg.ptr % 4 ≠ 0) :
    (parse delivers msg).result {} = .trap .incorrectAlignment := by
  have hpos : 0 + (encodeAll (m :: messages)).length = msg.pos := by
    rw [h.pos_eq, Nat.zero_add]
  have hstop := (present_of_holds h.holds hpos).1
  have hlen := h.pos_le
  have hpointer : msg.pointer 0 = .trap .incorrectAlignment := by
    unfold NlMsg.pointer NLMSG_HDRLEN at *
    rw [if_neg (by omega), Nat.add_zero, if_pos halign]
  have hstep : parseStep (delivers ([] : List NlMsgHdr).length) msg 0 {} =
      (.trap .incorrectAlignment, {}) := by
    unfold parseStep
    rw [Proc.lift_bind_of_ok (add_header (by decide)), if_neg (Nat.not_lt.mpr hstop)]
    exact Proc.bind_of_trap (by rw [hpointer]; rfl) _
  exact congrArg Prod.fst (parseFrom_trap hstep)

end Walk

end LingNet.Netlink
