import LingNet.Netlink.Report
import Mathlib.Data.List.TakeWhile

/-! Netlink requests: how a message is built in its buffer, and that the parser reads it back. -/
namespace LingNet.Netlink
open Zig ByteMem

def NLM_F_REQUEST : UInt16 := 1

/-- What the allocator hands out: an address, and whatever memory holds there. -/
structure Region where
  ptr : ℕ
  bytes : ℕ → UInt8

namespace NlMsg

/-- `allocator` answers with a region or with `null`, which it must for half the address space. -/
def init (allocator : Option Region) (capacity : ℕ) : Outcome NlError NlMsg :=
  match allocator with
  | none => .err .outOfMemory
  | some region =>
    if h : capacity < 2 ^ 63 then
      .ok { ptr := region.ptr, bytes := region.bytes, len := capacity, pos := 0, len_lt := h }
    else .err .outOfMemory

/-- Bytes stored at an offset; the others stay. -/
def store (msg : NlMsg) (offset : ℕ) (bytes : List UInt8) : NlMsg :=
  { msg with
    bytes := fun i =>
      if offset ≤ i then (bytes[i - offset]?).getD (msg.bytes i) else msg.bytes i }

def put (msg : NlMsg) (bytes : List UInt8) : Outcome NlError NlMsg :=
  -- `self.tail()`
  if msg.len < msg.pos then .trap .outOfBounds
  -- `[0..bytes_.len]`
  else if msg.len - msg.pos < bytes.length then .trap .outOfBounds
  else do
    let pos ← add msg.pos bytes.length
    pure { msg.store msg.pos bytes with pos := pos }

def alignPos (msg : NlMsg) (alignment : ℕ) : Outcome NlError NlMsg := do
  let aligned ← alignForward msg.pos alignment
  if msg.pos < aligned then
    if msg.len < aligned then .trap .outOfBounds
    else pure { msg.store msg.pos (List.replicate (aligned - msg.pos) 0) with pos := aligned }
  else pure msg

/-- `bytes()`, what is sent. -/
def toBytes (msg : NlMsg) : List UInt8 := (List.range msg.pos).map msg.bytes

end NlMsg

/-- What `newMsg` uses of a socket. -/
structure NlSock where
  seq : UInt32
  pid : UInt32
  deriving DecidableEq, Repr

/-- `self.seq += 1` -/
def NlSock.advance (sock : NlSock) : Outcome NlError NlSock :=
  if sock.seq.toNat + 1 < 2 ^ 32 then .ok { sock with seq := sock.seq + 1 }
  else .trap .integerOverflow

def NlSock.newMsg (sock : NlSock) (allocator : Option Region) (msgType flags : UInt16)
    (payloadSize : ℕ) : Outcome NlError (NlMsg × NlSock) := do
  let total ← add NLMSG_HDRLEN payloadSize
  let capacity ← alignForward total NLMSG_ALIGNTO
  let msg ← NlMsg.init allocator capacity
  let len ← intCast 32 total
  let hdr : NlMsgHdr :=
    { nlmsgLen := .ofNat len
      nlmsgType := msgType
      nlmsgFlags := flags ||| NLM_F_REQUEST
      nlmsgSeq := sock.seq
      nlmsgPid := sock.pid }
  let msg ← msg.put hdr.asBytes
  let msg ← msg.alignPos NLMSG_ALIGNTO
  let sock ← sock.advance
  pure (msg, sock)

/-- A request of a caller, which leaves the two types of the kernel's answers alone. -/
structure Request where
  type : UInt16
  flags : UInt16
  payload : List UInt8
  fits : NLMSG_HDRLEN + payload.length < 2 ^ 32
  plain : type.toNat ≠ NLMSG_ERROR ∧ type.toNat ≠ NLMSG_DONE

/-- `newMsg`, then `put` of the payload and `align_pos(4)`. -/
def NlSock.build (sock : NlSock) (allocator : Option Region) (r : Request) :
    Outcome NlError (NlMsg × NlSock) := do
  let (msg, sock) ← sock.newMsg allocator r.type r.flags r.payload.length
  let msg ← msg.put r.payload
  let msg ← msg.alignPos NLMSG_ALIGNTO
  pure (msg, sock)

/-- The requests one after the other; `allocators` has the answers to their allocations. -/
def NlSock.buildAll (allocators : ℕ → Option Region) (sock : NlSock) (k : ℕ) :
    List Request → Outcome NlError (List NlMsg × NlSock)
  | [] => pure ([], sock)
  | r :: requests => do
    let (msg, sock) ← sock.build (allocators k) r
    let (msgs, sock) ← buildAll allocators sock (k + 1) requests
    pure (msg :: msgs, sock)

/-- The header that the caller of `newMsg` asks for. -/
def Request.header (r : Request) (seq pid : UInt32) : NlMsgHdr where
  nlmsgLen := .ofNat (NLMSG_HDRLEN + r.payload.length)
  nlmsgType := r.type
  nlmsgFlags := r.flags ||| NLM_F_REQUEST
  nlmsgSeq := seq
  nlmsgPid := pid

section Buffer

variable {msg : NlMsg} {offset : ℕ} {bytes : List UInt8}

theorem holds_store_self (msg : NlMsg) (offset : ℕ) (bytes : List UInt8) :
    (msg.store offset bytes).Holds offset bytes := by
  intro i hi
  unfold NlMsg.store
  have hle : offset ≤ offset + i := Nat.le_add_right offset i
  have hindex : offset + i - offset = i := Nat.add_sub_cancel_left offset i
  show (if offset ≤ offset + i then _ else _) = bytes[i]
  rw [if_pos hle, hindex, List.getElem?_eq_getElem hi, Option.getD_some]

/-- The bytes before an offset are not touched by a store there. -/
theorem NlMsg.Holds.store (h : msg.Holds 0 bytes) (hend : bytes.length ≤ offset)
    (stored : List UInt8) : (msg.store offset stored).Holds 0 bytes := by
  intro i hi
  have hbyte := h i hi
  have hlt : ¬ offset ≤ 0 + i := by omega
  show (if offset ≤ 0 + i then _ else msg.bytes (0 + i)) = bytes[i]
  rw [if_neg hlt, hbyte]

theorem holds_append {a b : List UInt8} (ha : msg.Holds offset a)
    (hb : msg.Holds (offset + a.length) b) : msg.Holds offset (a ++ b) := by
  intro i hi
  rw [List.length_append] at hi
  by_cases hlt : i < a.length
  · rw [List.getElem_append_left hlt]
    exact ha i hlt
  · have hle : a.length ≤ i := Nat.not_lt.mp hlt
    have hbyte := hb (i - a.length) (by omega)
    have hindex : offset + a.length + (i - a.length) = offset + i := by omega
    rw [List.getElem_append_right hle, ← hbyte, hindex]

/-- A store at the end of what is written. -/
theorem NlMsg.Written.store (h : msg.Written bytes) (stored : List UInt8)
    (hroom : msg.pos + stored.length ≤ msg.len) :
    NlMsg.Written { msg.store msg.pos stored with pos := msg.pos + stored.length }
      (bytes ++ stored) where
  pos_eq := by
    rw [List.length_append, ← h.pos_eq]
  pos_le := hroom
  holds := by
    have hend : msg.pos = 0 + bytes.length := by
      rw [h.pos_eq, Nat.zero_add]
    have hold : (msg.store msg.pos stored).Holds 0 bytes :=
      h.holds.store (Nat.le_of_eq h.pos_eq.symm) stored
    have hnew : (msg.store msg.pos stored).Holds (0 + bytes.length) stored := by
      rw [← hend]
      exact holds_store_self msg msg.pos stored
    exact holds_append hold hnew

theorem NlMsg.Written.toBytes_eq (h : msg.Written bytes) : msg.toBytes = bytes := by
  unfold NlMsg.toBytes
  apply List.ext_getElem
  · rw [List.length_map, List.length_range, h.pos_eq]
  · intro i hi hbytes
    have hbyte := h.holds i hbytes
    rw [Nat.zero_add] at hbyte
    rw [List.getElem_map, List.getElem_range, hbyte]

theorem put_written (h : msg.Written bytes) (added : List UInt8)
    (hroom : msg.pos + added.length ≤ msg.len) :
    ∃ msg', msg.put added = .ok msg' ∧ msg'.Written (bytes ++ added) ∧ msg'.len = msg.len := by
  have hmax := msg.len_lt
  have hadd : (add msg.pos added.length : Outcome NlError ℕ) = .ok (msg.pos + added.length) :=
    add_eq_ok.mpr ⟨by unfold usizeEnd; omega, rfl⟩
  refine ⟨{ msg.store msg.pos added with pos := msg.pos + added.length }, ?_,
    h.store added hroom, rfl⟩
  unfold NlMsg.put
  rw [if_neg (by omega), if_neg (by omega), hadd]
  rfl

/-- `align_pos(4)` fills up with zeros. -/
theorem alignPos_written (h : msg.Written bytes)
    (hroom : (msg.pos + 3) / 4 * 4 ≤ msg.len) :
    ∃ msg', msg.alignPos NLMSG_ALIGNTO = .ok msg' ∧ msg'.len = msg.len ∧
      msg'.Written (bytes ++ List.replicate ((msg.pos + 3) / 4 * 4 - msg.pos) 0) := by
  have hmax := msg.len_lt
  have hpos := h.pos_le
  have hbump : (add msg.pos 3 : Outcome NlError ℕ) = .ok (msg.pos + 3) :=
    add_eq_ok.mpr ⟨by unfold usizeEnd; omega, rfl⟩
  have halign : (alignForward msg.pos NLMSG_ALIGNTO : Outcome NlError ℕ) =
      .ok ((msg.pos + 3) / 4 * 4) := by
    unfold alignForward NLMSG_ALIGNTO
    rw [hbump]
    rfl
  unfold NlMsg.alignPos
  rw [halign, Outcome.ok_bind]
  by_cases hmore : msg.pos < (msg.pos + 3) / 4 * 4
  · have hzeros : (List.replicate ((msg.pos + 3) / 4 * 4 - msg.pos) (0 : UInt8)).length =
        (msg.pos + 3) / 4 * 4 - msg.pos := List.length_replicate
    have hend : msg.pos + ((msg.pos + 3) / 4 * 4 - msg.pos) = (msg.pos + 3) / 4 * 4 := by omega
    have hwritten := h.store (List.replicate ((msg.pos + 3) / 4 * 4 - msg.pos) 0)
      (by rw [hzeros]; omega)
    rw [hzeros, hend] at hwritten
    rw [if_pos hmore, if_neg (Nat.not_lt.mpr hroom)]
    exact ⟨_, rfl, rfl, hwritten⟩
  · have hnone : (msg.pos + 3) / 4 * 4 - msg.pos = 0 := by omega
    rw [if_neg hmore, hnone, List.replicate_zero, List.append_nil]
    exact ⟨msg, rfl, rfl, h⟩

end Buffer

/-- The message that a request becomes. -/
def Request.message (r : Request) (sock : NlSock) : Message where
  type := r.type
  flags := r.flags ||| NLM_F_REQUEST
  seq := sock.seq
  pid := sock.pid
  payload := r.payload
  padding := List.replicate ((NLMSG_HDRLEN + r.payload.length + 3) / 4 * 4 -
    (NLMSG_HDRLEN + r.payload.length)) 0
  fits := r.fits
  padded := by
    rw [List.length_replicate]
    omega
  reports h := absurd h r.plain.1

def NlSock.next (sock : NlSock) : NlSock := { sock with seq := sock.seq + 1 }

/-- The messages of a list of requests. -/
def messages (sock : NlSock) : List Request → List Message
  | [] => []
  | r :: requests => r.message sock :: messages sock.next requests

section Build

variable {sock : NlSock} {r : Request} {requests : List Request}

theorem advance_of_lt (h : sock.seq.toNat + 1 < 2 ^ 32) : sock.advance = .ok sock.next :=
  if_pos h

theorem toNat_seq_next (h : sock.seq.toNat + 1 < 2 ^ 32) :
    sock.next.seq.toNat = sock.seq.toNat + 1 := by
  show (sock.seq + 1).toNat = _
  rw [UInt32.toNat_add]
  exact Nat.mod_eq_of_lt h

/-- The length of a request and of its buffer are computed without a trap. -/
theorem Request.total_eq (r : Request) : (add NLMSG_HDRLEN r.payload.length : Outcome NlError ℕ) =
    .ok (NLMSG_HDRLEN + r.payload.length) := by
  have hfits := r.fits
  exact add_eq_ok.mpr ⟨by unfold usizeEnd; omega, rfl⟩

/-- The size of the buffer. -/
def Request.capacity (r : Request) : ℕ := (NLMSG_HDRLEN + r.payload.length + 3) / 4 * 4

theorem Request.capacity_eq (r : Request) :
    (alignForward (NLMSG_HDRLEN + r.payload.length) NLMSG_ALIGNTO : Outcome NlError ℕ) =
      .ok r.capacity := by
  have hfits := r.fits
  have hbump : (add (NLMSG_HDRLEN + r.payload.length) (NLMSG_ALIGNTO - 1) : Outcome NlError ℕ) =
      .ok (NLMSG_HDRLEN + r.payload.length + 3) :=
    add_eq_ok.mpr ⟨by unfold NLMSG_ALIGNTO usizeEnd; omega, rfl⟩
  unfold alignForward
  rw [hbump]
  rfl

theorem Request.capacity_lt (r : Request) : r.capacity < 2 ^ 63 := by
  have hfits := r.fits
  unfold Request.capacity
  omega

theorem newMsg_of_none (sock : NlSock) (r : Request) :
    sock.newMsg none r.type r.flags r.payload.length = .err .outOfMemory := by
  unfold NlSock.newMsg
  rw [r.total_eq, Outcome.ok_bind, r.capacity_eq, Outcome.ok_bind]
  rfl

/-- What `newMsg` returns: the header is written, and there is room for the payload. -/
theorem newMsg_of_some (region : Region) (hseq : sock.seq.toNat + 1 < 2 ^ 32) :
    ∃ msg, sock.newMsg (some region) r.type r.flags r.payload.length = .ok (msg, sock.next) ∧
      msg.Written (r.message sock).header.asBytes ∧ msg.len = r.capacity := by
  let fresh : NlMsg :=
    { ptr := region.ptr
      bytes := region.bytes
      len := r.capacity
      pos := 0
      len_lt := r.capacity_lt }
  have hinit : NlMsg.init (some region) r.capacity = .ok fresh := dif_pos r.capacity_lt
  have hfresh : fresh.Written [] :=
    ⟨rfl, Nat.zero_le _, fun i hi => absurd hi (Nat.not_lt_zero i)⟩
  have hheader : NLMSG_HDRLEN ≤ r.capacity := by
    unfold Request.capacity
    omega
  obtain ⟨headed, hput, hwritten, hheaded⟩ :=
    put_written hfresh (r.message sock).header.asBytes (by
      rw [length_asBytes]
      show 0 + NLMSG_HDRLEN ≤ r.capacity
      omega)
  have hpos : headed.pos = NLMSG_HDRLEN := by
    rw [hwritten.pos_eq, List.nil_append, length_asBytes]
  have hroom : (headed.pos + 3) / 4 * 4 ≤ headed.len := by
    rw [hpos, hheaded]
    exact hheader
  obtain ⟨aligned, halign, hkept, hpadded⟩ := alignPos_written hwritten hroom
  rw [hpos] at hpadded
  refine ⟨aligned, ?_, ?_, hkept.trans hheaded⟩
  · unfold NlSock.newMsg
    rw [r.total_eq, Outcome.ok_bind, r.capacity_eq, Outcome.ok_bind, hinit, Outcome.ok_bind,
      intCast_of_lt r.fits, Outcome.ok_bind]
    show (fresh.put (r.message sock).header.asBytes >>= _) = _
    rw [hput, Outcome.ok_bind, halign, Outcome.ok_bind, advance_of_lt hseq, Outcome.ok_bind]
    rfl
  · -- a header needs no filling up
    simpa [NLMSG_HDRLEN] using hpadded

/-- A built message is written as it goes on the wire. -/
theorem build_of_some (region : Region) (hseq : sock.seq.toNat + 1 < 2 ^ 32) :
    ∃ msg, sock.build (some region) r = .ok (msg, sock.next) ∧
      msg.Written (r.message sock).encode := by
  obtain ⟨msg, hnew, hwritten, hlen⟩ := newMsg_of_some (r := r) region hseq
  have hpos : msg.pos = NLMSG_HDRLEN := by
    rw [hwritten.pos_eq, length_asBytes]
  have hpayload : msg.pos + r.payload.length ≤ msg.len := by
    rw [hpos, hlen]
    unfold Request.capacity
    omega
  obtain ⟨filled, hput, hfilled, hkept⟩ := put_written hwritten r.payload hpayload
  have hend : filled.pos = NLMSG_HDRLEN + r.payload.length := by
    rw [hfilled.pos_eq, List.length_append, length_asBytes]
  have hroom : (filled.pos + 3) / 4 * 4 ≤ filled.len := by
    rw [hend, hkept, hlen]
    exact Nat.le_refl _
  obtain ⟨aligned, halign, -, hpadded⟩ := alignPos_written hfilled hroom
  rw [hend, List.append_assoc] at hpadded
  refine ⟨aligned, ?_, hpadded⟩
  unfold NlSock.build
  rw [hnew, Outcome.ok_bind]
  show (msg.put r.payload >>= _) = _
  rw [hput, Outcome.ok_bind, halign]
  rfl

theorem build_of_none (sock : NlSock) (r : Request) :
    sock.build none r = .err .outOfMemory := by
  unfold NlSock.build
  rw [newMsg_of_none]
  rfl

/-- The built messages together are the concatenation, unless an allocation fails. -/
theorem buildAll_cases (allocators : ℕ → Option Region) (k : ℕ)
    (hseq : sock.seq.toNat + requests.length < 2 ^ 32) :
    (sock.buildAll allocators k requests = .err .outOfMemory ∧
      ∃ i < requests.length, allocators (k + i) = none) ∨
    ∃ msgs sock', sock.buildAll allocators k requests = .ok (msgs, sock') ∧
      msgs.flatMap NlMsg.toBytes = encodeAll (messages sock requests) := by
  induction requests generalizing sock k with
  | nil => exact .inr ⟨[], sock, rfl, rfl⟩
  | cons r requests ih =>
    rw [List.length_cons] at hseq
    have hlt : sock.seq.toNat + 1 < 2 ^ 32 := by omega
    unfold NlSock.buildAll
    cases hregion : allocators k with
    | none =>
      rw [build_of_none]
      exact .inl ⟨rfl, 0, Nat.succ_pos _, hregion⟩
    | some region =>
      obtain ⟨msg, hbuild, hwritten⟩ := build_of_some (r := r) region hlt
      rw [hbuild, Outcome.ok_bind]
      show ((sock.next.buildAll allocators (k + 1) requests >>= _) = _ ∧ _) ∨
        ∃ msgs sock', (sock.next.buildAll allocators (k + 1) requests >>= _) = _ ∧ _
      rcases @ih sock.next (k + 1) (by rw [toNat_seq_next hlt]; omega) with
        ⟨hrest, i, hi, hnone⟩ | ⟨msgs, sock', hrest, hbytes⟩
      · rw [hrest]
        have hindex : k + (i + 1) = k + 1 + i := by omega
        exact .inl ⟨rfl, i + 1, Nat.succ_lt_succ hi, by rw [hindex]; exact hnone⟩
      · rw [hrest]
        refine .inr ⟨msg :: msgs, sock', rfl, ?_⟩
        rw [List.flatMap_cons, hwritten.toBytes_eq, hbytes]
        rfl

theorem header_messages (sock : NlSock) (requests : List Request) :
    (messages sock requests).map Message.header =
      requests.mapIdx fun i r => r.header (sock.seq + .ofNat i) sock.pid := by
  induction requests generalizing sock with
  | nil => rfl
  | cons r requests ih =>
    rw [messages, List.map_cons, ih, List.mapIdx_cons]
    have hfirst : sock.seq + UInt32.ofNat 0 = sock.seq := UInt32.add_zero _
    have hshift : ∀ i, sock.next.seq + UInt32.ofNat i = sock.seq + UInt32.ofNat (i + 1) := by
      intro i
      show sock.seq + 1 + UInt32.ofNat i = _
      rw [UInt32.ofNat_add, UInt32.add_assoc, UInt32.add_comm 1]
      rfl
    simp only [hshift]
    rw [hfirst]
    rfl

theorem plain_of_mem {m : Message} (hm : m ∈ messages sock requests) : m.Plain := by
  induction requests generalizing sock with
  | nil => exact absurd hm List.not_mem_nil
  | cons r requests ih =>
    rcases List.mem_cons.mp hm with rfl | hrest
    · exact r.plain
    · exact ih hrest

theorem length_messages (sock : NlSock) (requests : List Request) :
    (messages sock requests).length = requests.length := by
  have hlength := congrArg List.length (header_messages sock requests)
  rwa [List.length_map, List.length_mapIdx] at hlength

/-- The walk over messages that are neither errors nor the end lists them all. -/
theorem scan_of_all_plain {delivers : ℕ → Bool} {ms : List Message}
    (hplain : ∀ m ∈ ms, m.Plain) (hdelivers : ∀ k ≤ ms.length, delivers k = true) :
    scan delivers [] ms = .ok (ms.map Message.header) := by
  have hall : plain ms = ms := List.takeWhile_eq_self_iff.mpr fun m hm => by
    simpa using hplain m hm
  have hbefore : beforeDone ms = ms := List.takeWhile_eq_self_iff.mpr fun m hm => by
    simpa using (hplain m hm).2
  have hnone : ¬ Erroneous ms := by
    intro herror
    obtain ⟨m, hm, htype⟩ := herror
    rw [hbefore] at hm
    exact (hplain m hm).1 htype
  have happended : ∀ k < (plain ms).length,
      delivers (([] : List NlMsgHdr).length + k) = true := by
    intro k hk
    rw [hall] at hk
    rw [List.length_nil, Nat.zero_add]
    exact hdelivers k (Nat.le_of_lt hk)
  rw [scan_of_not_erroneous happended hnone, hbefore, List.nil_append]
  unfold owned
  rw [List.length_map, if_pos (hdelivers _ (Nat.le_refl _))]

end Build

/-- What building requests comes to: no trap, so that no byte is put behind a buffer, and where
the allocations succeed the parser lists from the bytes of the messages just the headers that were
asked for, with the numbers of the sequence. -/
structure RoundTrip (allocators : ℕ → Option Region) (sock : NlSock) (requests : List Request) :
    Prop where
  no_trap : ∀ fault, sock.buildAll allocators 0 requests ≠ .trap fault
  built : (∀ k < requests.length, (allocators k).isSome) →
    ∃ msgs sock', sock.buildAll allocators 0 requests = .ok (msgs, sock')
  parsed : ∀ msgs sock', sock.buildAll allocators 0 requests = .ok (msgs, sock') →
    ∀ (delivers : ℕ → Bool) (msg : NlMsg), msg.Written (msgs.flatMap NlMsg.toBytes) →
      msg.ptr % 4 = 0 → (∀ k ≤ requests.length, delivers k = true) →
        (parse delivers msg).result {} =
          .ok (requests.mapIdx fun i r => r.header (sock.seq + .ofNat i) sock.pid)

/-- Requests that a socket builds are read back. -/
theorem roundTrip (allocators : ℕ → Option Region) (sock : NlSock) (requests : List Request)
    (hseq : sock.seq.toNat + requests.length < 2 ^ 32) : RoundTrip allocators sock requests := by
  rcases buildAll_cases allocators 0 hseq with
    ⟨hbuild, i, hi, hnone⟩ | ⟨msgs, sock', hbuild, hbytes⟩
  · rw [Nat.zero_add] at hnone
    refine ⟨fun fault h => ?_, fun hall => ?_, fun msgs sock' h => ?_⟩
    · rw [hbuild] at h
      cases h
    · have hsome := hall i hi
      rw [hnone] at hsome
      cases hsome
    · rw [hbuild] at h
      cases h
  · refine ⟨fun fault h => ?_, fun _ => ⟨msgs, sock', hbuild⟩, ?_⟩
    · rw [hbuild] at h
      cases h
    · intro msgs' sock'' h delivers msg hwritten halign hdelivers
      rw [hbuild] at h
      cases h
      rw [hbytes] at hwritten
      rw [parse_eq_scan hwritten (.inr halign), ← header_messages]
      refine scan_of_all_plain (fun m hm => plain_of_mem hm) ?_
      rwa [length_messages]

/-- A request with a payload that is no multiple of four. -/
def sampleRequest : Request where
  type := 16
  flags := 4
  payload := [1, 2, 3, 4, 5]
  fits := by decide
  plain := by decide

/-- Two requests from a socket of the sequence number 42. -/
theorem roundTrip_two :
    RoundTrip (fun _ => some ⟨4096, fun _ => 0xaa⟩) ⟨42, 1234⟩ [sampleRequest, sampleRequest] :=
  roundTrip _ _ _ (by decide)

end LingNet.Netlink
