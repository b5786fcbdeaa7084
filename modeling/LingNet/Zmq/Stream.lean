import LingNet.Zmq.Receive

/-! A stream of frames comes back as it was sent, unless the size of a large frame is split. -/
namespace LingNet.Zmq
open Zig ByteMem ByteStream

theorem length_writeInt (v : ℕ) : (writeInt v).length = 8 := by
  unfold writeInt
  rw [List.length_map, List.length_reverse, length_bytesOf]

theorem readInt_writeInt {v : ℕ} (h : v < usizeEnd) : readInt (writeInt v) = v := by
  have hbytes : (writeInt v).map UInt8.toBitVec = (bytesOf 8 v).reverse := by
    unfold writeInt
    rw [List.map_map]
    exact List.map_id _
  unfold readInt
  rw [hbytes, List.reverse_reverse, valueOf_bytesOf]
  exact Nat.mod_eq_of_lt h

theorem readInt_lt {buf : List UInt8} (h : buf.length = 8) : readInt buf < usizeEnd := by
  have hlt := valueOf_lt (buf.map UInt8.toBitVec).reverse
  rw [List.length_reverse, List.length_map, h] at hlt
  exact hlt

def flagsOf (large more : Bool) : UInt8 :=
  (if more then ZmqFrame.flagMore else 0) ||| (if large then ZmqFrame.flagLarge else 0)

theorem flagMore_flagsOf (large more : Bool) :
    decide (flagsOf large more &&& ZmqFrame.flagMore ≠ 0) = more := by
  revert large more
  decide

theorem flagLarge_flagsOf (large more : Bool) :
    decide (flagsOf large more &&& ZmqFrame.flagLarge ≠ 0) = large := by
  revert large more
  decide

def sizeOf (n : ℕ) : List UInt8 := if n < 255 then [UInt8.ofNat n] else writeInt n

theorem header_eq (data : Bytes) (more : Bool) : header data more =
    flagsOf (decide (255 ≤ data.val.length)) more :: sizeOf data.val.length := by
  unfold header sizeOf
  by_cases hlen : data.val.length < 255
  · rw [if_pos hlen, if_pos hlen, decide_eq_false (Nat.not_le.mpr hlen)]
    cases more <;> rfl
  · rw [if_neg hlen, if_neg hlen, decide_eq_true (Nat.not_lt.mp hlen)]
    cases more <;> rfl

section Receive

variable {s : Socket} {ready : ℕ → ℕ}

/-- The two header fields that `recvFrame` reads first. -/
theorem recvFrame_flags (h : s.Splits ready) (undef : ℕ → UInt8) (large more : Bool)
    {rest : List UInt8} (hincoming : s.source.incoming = flagsOf large more :: rest) :
    recvFrame undef s = (do
      let dataLen ← recvSize undef large
      let data ← recvPayload undef dataLen
      pure (data, more)) (s.next 1) := by
  unfold recvFrame
  rw [Proc.bind_of_ok (read_byte h undef hincoming)]
  dsimp only
  rw [if_neg Nat.one_ne_zero]
  change (do
    let dataLen ← recvSize undef (decide (flagsOf large more &&& ZmqFrame.flagLarge ≠ 0))
    let data ← recvPayload undef dataLen
    pure (data, decide (flagsOf large more &&& ZmqFrame.flagMore ≠ 0)) :
      Proc Socket ZmqError (List UInt8 × Bool)) (s.next 1) = _
  rw [flagLarge_flagsOf, flagMore_flagsOf]

theorem recvSize_byte (h : s.Splits ready) (undef : ℕ → UInt8) {n : ℕ} (hn : n < 255)
    {rest : List UInt8} (hincoming : s.source.incoming = UInt8.ofNat n :: rest) :
    recvSize undef false s = (.ok n, s.next 1) := by
  unfold recvSize
  rw [if_neg Bool.false_ne_true, Proc.bind_of_ok (read_byte h undef hincoming)]
  dsimp only
  rw [if_neg Nat.one_ne_zero]
  dsimp only [List.headD_cons]
  rw [UInt8.toNat_ofNat_of_lt' (Nat.lt_succ_of_lt hn)]
  rfl

/-- A size of eight bytes is any number when the read got fewer of them. -/
theorem recvSize_large (h : s.Splits ready) (undef : ℕ → UInt8) {n : ℕ} (hn : n < usizeEnd)
    {rest : List UInt8} (hincoming : s.source.incoming = writeInt n ++ rest) :
    ∃ m k, recvSize undef true s = (.ok m, s.next k) ∧ m < usizeEnd ∧ k ≤ 8 ∧
      (8 ≤ ready s.source.reads → k = 8 ∧ m = n) ∧ (k = 8 → 8 ≤ ready s.source.reads) := by
  obtain ⟨k, hk⟩ : ∃ k, k = Source.handed 8 (ready s.source.reads) := ⟨_, rfl⟩
  have hkle : k ≤ 8 := hk ▸ Source.handed_le _ _
  have hkpos : 0 < k := hk ▸ Source.handed_pos (by decide) _
  have htake : s.source.incoming.take k = (writeInt n).take k := by
    rw [hincoming, List.take_append_of_le_length (by rwa [length_writeInt])]
  have hlength : ((writeInt n).take k).length = k := by
    rw [List.length_take, length_writeInt, Nat.min_eq_left hkle]
  have hread := read_run h ((List.range 8).map undef) 0 8 (hk ▸ htake.symm)
  rw [← hk, hlength, List.take_zero, List.nil_append, Nat.zero_add] at hread
  have hbuf : ((writeInt n).take k ++ ((List.range 8).map undef).drop k).length = 8 := by
    rw [List.length_append, hlength, List.length_drop, List.length_map, List.length_range]
    omega
  refine ⟨_, k, ?_, readInt_lt hbuf, hkle, fun hready => ?_, fun hk8 => ?_⟩
  · unfold recvSize
    rw [if_pos rfl, Proc.bind_of_ok hread]
    dsimp only
    rw [if_neg hkpos.ne', intCast_of_lt (readInt_lt hbuf)]
    rfl
  · obtain rfl : k = 8 := hk.trans (Source.handed_of_le hready)
    refine ⟨rfl, ?_⟩
    rw [List.take_of_length_le (length_writeInt n).le]
    have hdrop : ((List.range 8).map undef).drop 8 = [] := rfl
    rw [hdrop, List.append_nil, readInt_writeInt hn]
  · have hmax := Source.handed_eq_self.mp (hk.symm.trans hk8)
    omega

theorem recvSize_run (h : s.Splits ready) (undef : ℕ → UInt8) {n : ℕ} (hn : n < usizeEnd)
    (hwhole : n < 255 ∨ 8 ≤ ready s.source.reads) {rest : List UInt8}
    (hincoming : s.source.incoming = sizeOf n ++ rest) :
    recvSize undef (decide (255 ≤ n)) s = (.ok n, s.next (sizeOf n).length) := by
  unfold sizeOf at hincoming ⊢
  by_cases hshort : n < 255
  · rw [if_pos hshort] at hincoming ⊢
    rw [decide_eq_false (Nat.not_le.mpr hshort)]
    exact recvSize_byte h undef hshort hincoming
  · rw [if_neg hshort] at hincoming ⊢
    obtain ⟨m, k, hrun, -, -, hready, -⟩ := recvSize_large h undef hn hincoming
    obtain ⟨rfl, rfl⟩ := hready (hwhole.resolve_left hshort)
    rw [decide_eq_true (Nat.not_lt.mp hshort), length_writeInt]
    exact hrun

theorem recvFrame_whole (h : s.Splits ready) (undef : ℕ → UInt8) {data : Bytes} {more : Bool}
    (hwhole : data.val.length < 255 ∨ 8 ≤ ready (s.source.reads + 1)) {rest : List UInt8}
    (hincoming : s.source.incoming = sendFrame data more ++ rest) :
    ∃ s', recvFrame undef s = (do
        let data ← recvPayload undef data.val.length
        pure (data, more)) s' ∧
      s'.source.incoming = data.val ++ rest ∧ s'.Splits ready ∧ s'.allocator = s.allocator := by
  have hfields : s.source.incoming = flagsOf (decide (255 ≤ data.val.length)) more ::
      (sizeOf data.val.length ++ (data.val ++ rest)) := by
    rw [hincoming, sendFrame, header_eq, List.cons_append, List.cons_append, List.append_assoc]
  have hsize : (s.next 1).source.incoming = sizeOf data.val.length ++ (data.val ++ rest) := by
    change s.source.incoming.drop 1 = _
    rw [hfields, List.drop_one, List.tail_cons]
  refine ⟨(s.next 1).next (sizeOf data.val.length).length, ?_, ?_, h, rfl⟩
  · rw [recvFrame_flags h undef _ more hfields,
      Proc.bind_of_ok (recvSize_run (h.next 1) undef data.length_lt hwhole hsize)]
  · change (s.next 1).source.incoming.drop _ = _
    rw [hsize, List.drop_left]

theorem recvFrame_granted (h : s.Splits ready) (undef : ℕ → UInt8) {data : Bytes} {more : Bool}
    (hwhole : data.val.length < 255 ∨ 8 ≤ ready (s.source.reads + 1)) {rest : List UInt8}
    (hincoming : s.source.incoming = sendFrame data more ++ rest)
    (hgranted : ¬ s.Refuses data.val.length) :
    ∃ s', recvFrame undef s = (.ok (data.val, more), s') ∧ s'.source.incoming = rest ∧
      s'.Splits ready ∧ s'.allocator.fails = s.allocator.fails := by
  obtain ⟨s₁, hframe, hpayload, hsplits, halloc⟩ := recvFrame_whole h undef hwhole hincoming
  have hgranted' : ¬ s₁.Refuses data.val.length := by
    unfold Socket.Refuses
    rw [halloc]
    exact hgranted
  have henough : data.val.length ≤ s₁.source.incoming.length := by
    rw [hpayload, List.length_append]
    exact Nat.le_add_right _ _
  obtain ⟨s', hrun, hrest, hsplits', hfails⟩ :=
    recvPayload_run undef hsplits data.length_lt hgranted' henough
  rw [hpayload, List.take_left] at hrun
  rw [hpayload, List.drop_left] at hrest
  refine ⟨s', ?_, hrest, hsplits', halloc ▸ hfails⟩
  rw [hframe, Proc.bind_of_ok hrun]
  rfl

theorem recvFrame_refused (h : s.Splits ready) (undef : ℕ → UInt8) {data : Bytes} {more : Bool}
    (hwhole : data.val.length < 255 ∨ 8 ≤ ready (s.source.reads + 1)) {rest : List UInt8}
    (hincoming : s.source.incoming = sendFrame data more ++ rest)
    (hrefused : s.Refuses data.val.length) :
    ∃ s', recvFrame undef s = (.err .outOfMemory, s') ∧
      s'.source.incoming = data.val ++ rest := by
  obtain ⟨s₁, hframe, hpayload, hsplits, halloc⟩ := recvFrame_whole h undef hwhole hincoming
  have hrefused' : s₁.Refuses data.val.length := by
    unfold Socket.Refuses
    rw [halloc]
    exact hrefused
  obtain ⟨s', hrun, hsource⟩ := alloc_refused undef hrefused'
  have hpay : recvPayload undef data.val.length s₁ = (.err .outOfMemory, s') := by
    unfold recvPayload
    rw [Proc.bind_of_err hrun]
  exact ⟨s', by rw [hframe, Proc.bind_of_err hpay], by rw [hsource, hpayload]⟩

end Receive

def wire (frames : List Frame) : List UInt8 :=
  (frames.map fun f => sendFrame f.data f.more).flatten

theorem wire_cons (f : Frame) (frames : List Frame) :
    wire (f :: frames) = sendFrame f.data f.more ++ wire frames := rfl

/-- Each of so many calls of `recvFrame` finds fresh memory of its own. -/
def recvFrames (undef : ℕ → ℕ → UInt8) : ℕ → Proc Socket ZmqError (List (List UInt8 × Bool))
  | 0 => pure []
  | n + 1 => do
    let frame ← recvFrame (undef n)
    let frames ← recvFrames undef n
    pure (frame :: frames)

theorem recvFrames_run (ready : ℕ → ℕ) (hready : ∀ k, 8 ≤ ready k) (undef : ℕ → ℕ → UInt8)
    (frames : List Frame) (rest : List UInt8) {s : Socket} (h : s.Splits ready)
    (hincoming : s.source.incoming = wire frames ++ rest) :
    (∃ s', recvFrames undef frames.length s =
        (.ok (frames.map fun f => (f.data.val, f.more)), s') ∧ s'.source.incoming = rest) ∨
      ((∃ k, s.allocator.fails k = true) ∧
        ∃ s', recvFrames undef frames.length s = (.err .outOfMemory, s')) := by
  induction frames generalizing s with
  | nil => exact .inl ⟨s, rfl, hincoming⟩
  | cons f frames ih =>
    rw [wire_cons, List.append_assoc] at hincoming
    have hwhole := Or.inr (a := f.data.val.length < 255) (hready (s.source.reads + 1))
    rw [List.length_cons, recvFrames]
    by_cases hrefused : s.Refuses f.data.val.length
    · obtain ⟨s', hrun, -⟩ := recvFrame_refused h (undef frames.length) hwhole hincoming hrefused
      exact .inr ⟨⟨_, hrefused.2⟩, s', Proc.bind_of_err hrun _⟩
    · obtain ⟨s', hrun, hrest, hsplits, hfails⟩ :=
        recvFrame_granted h (undef frames.length) hwhole hincoming hrefused
      rw [Proc.bind_of_ok hrun]
      rcases ih hsplits hrest with ⟨s'', hruns, hend⟩ | ⟨hfail, s'', hruns⟩
      · refine .inl ⟨s'', ?_, hend⟩
        rw [Proc.bind_of_ok hruns]
        rfl
      · rw [hfails] at hfail
        exact .inr ⟨hfail, s'', Proc.bind_of_err hruns _⟩

/-- Frames come back as they were sent, and nothing else is taken from the stream, unless a
request for memory is refused. -/
theorem recvFrames_wire (undef : ℕ → ℕ → UInt8) (allocator : Allocator) (frames : List Frame)
    (rest : List UInt8) :
    (∃ s', recvFrames undef frames.length
          ⟨.split (wire frames ++ rest) fun _ => usizeEnd, allocator⟩ =
        (.ok (frames.map fun f => (f.data.val, f.more)), s') ∧ s'.source.incoming = rest) ∨
      ((∃ k, allocator.fails k = true) ∧ ∃ s', recvFrames undef frames.length
          ⟨.split (wire frames ++ rest) fun _ => usizeEnd, allocator⟩ = (.err .outOfMemory, s')) :=
  recvFrames_run (fun _ => usizeEnd) (fun _ => by decide) undef frames rest rfl rfl

end LingNet.Zmq
