import LingNet.Zmq.Stream

/-! What `recvFrame` gets does not depend on how the stream is split, except in the middle of an
eight-byte size. -/
namespace LingNet.Zmq
open Zig ByteMem ByteStream

def received (undef : ℕ → UInt8) (allocator : Allocator) (source : Source) :
    Outcome ZmqError (List UInt8 × Bool) × List UInt8 :=
  let (result, s) := recvFrame undef ⟨source, allocator⟩
  (result, s.source.incoming)

theorem received_of {undef : ℕ → UInt8} {allocator : Allocator} {source : Source}
    {result : Outcome ZmqError (List UInt8 × Bool)} {s' : Socket}
    (h : recvFrame undef ⟨source, allocator⟩ = (result, s')) :
    received undef allocator source = (result, s'.source.incoming) := by
  unfold received
  rw [h]

theorem received_nil (undef : ℕ → UInt8) (allocator : Allocator) (ready : ℕ → ℕ) :
    received undef allocator (.split [] ready) = (.err .recvFailed, []) := by
  have hsplits : Socket.Splits ⟨.split [] ready, allocator⟩ ready := rfl
  obtain ⟨data, n, hread⟩ := read_of_nil hsplits ((List.range 1).map undef) 0 1 rfl
  unfold received recvFrame
  rw [Proc.bind_of_ok hread]
  exact Prod.ext rfl List.drop_nil

section Header

variable {s : Socket} {ready : ℕ → ℕ}

/-- A size of which only some bytes were read: the others are taken for the payload. -/
theorem recvFrame_cut (h : s.Splits ready) (undef : ℕ → UInt8) {data : Bytes} {more : Bool}
    (hlarge : 255 ≤ data.val.length) (hcut : ready (s.source.reads + 1) < 8) {rest : List UInt8}
    (hincoming : s.source.incoming = sendFrame data more ++ rest) :
    ∃ m k s', k < 8 ∧ m < usizeEnd ∧ recvFrame undef s = (do
        let data ← recvPayload undef m
        pure (data, more)) s' ∧
      s'.source.incoming = (writeInt data.val.length).drop k ++ (data.val ++ rest) ∧
      s'.Splits ready := by
  have hsizeOf : sizeOf data.val.length = writeInt data.val.length :=
    if_neg (Nat.not_lt.mpr hlarge)
  have hfields : s.source.incoming =
      flagsOf true more :: (writeInt data.val.length ++ (data.val ++ rest)) := by
    rw [hincoming, sendFrame, header_eq, hsizeOf, decide_eq_true hlarge, List.cons_append,
      List.cons_append, List.append_assoc]
  have hsize : (s.next 1).source.incoming = writeInt data.val.length ++ (data.val ++ rest) := by
    change s.source.incoming.drop 1 = _
    rw [hfields, List.drop_one, List.tail_cons]
  obtain ⟨m, k, hrun, hm, hk, -, hk8⟩ := recvSize_large (h.next 1) undef data.length_lt hsize
  have hlt : k < 8 := by
    refine Nat.lt_of_le_of_ne hk fun heq => ?_
    exact Nat.not_le.mpr hcut (hk8 heq)
  refine ⟨m, k, (s.next 1).next k, hlt, hm, ?_, ?_, h⟩
  · rw [recvFrame_flags h undef true more hfields, Proc.bind_of_ok hrun]
  · change (s.next 1).source.incoming.drop k = _
    rw [hsize, List.drop_append_of_le_length (by rw [length_writeInt]; exact hk)]

end Header

section Splitting

variable {undef undef' : ℕ → UInt8} {allocator : Allocator} {data : Bytes} {more : Bool}
  {ready ready' : ℕ → ℕ} {rest : List UInt8}

/-- Splits that bring the size in one piece make no difference. -/
theorem received_congr (h : data.val.length < 255 ∨ 8 ≤ ready 1)
    (h' : data.val.length < 255 ∨ 8 ≤ ready' 1) :
    received undef allocator (.split (sendFrame data more ++ rest) ready) =
      received undef' allocator (.split (sendFrame data more ++ rest) ready') := by
  let s : Socket := ⟨.split (sendFrame data more ++ rest) ready, allocator⟩
  let s' : Socket := ⟨.split (sendFrame data more ++ rest) ready', allocator⟩
  by_cases hrefused : s.Refuses data.val.length
  · obtain ⟨t, hrun, hrest⟩ := recvFrame_refused (s := s) rfl undef h rfl hrefused
    obtain ⟨t', hrun', hrest'⟩ := recvFrame_refused (s := s') rfl undef' h' rfl hrefused
    rw [received_of hrun, received_of hrun', hrest, hrest']
  · obtain ⟨t, hrun, hrest, -⟩ := recvFrame_granted (s := s) rfl undef h rfl hrefused
    obtain ⟨t', hrun', hrest', -⟩ := recvFrame_granted (s := s') rfl undef' h' rfl hrefused
    rw [received_of hrun, received_of hrun', hrest, hrest']

theorem received_whole (undef : ℕ → UInt8) (allocator : Allocator) (more : Bool)
    (rest : List UInt8) (h : data.val.length < 255 ∨ 8 ≤ ready 1) :
    received undef allocator (.split (sendFrame data more ++ rest) ready) =
        (.err .outOfMemory, data.val ++ rest) ∨
      received undef allocator (.split (sendFrame data more ++ rest) ready) =
        (.ok (data.val, more), rest) := by
  let s : Socket := ⟨.split (sendFrame data more ++ rest) ready, allocator⟩
  by_cases hrefused : s.Refuses data.val.length
  · obtain ⟨t, hrun, hrest⟩ := recvFrame_refused (s := s) rfl undef h rfl hrefused
    exact .inl (by rw [received_of hrun, hrest])
  · obtain ⟨t, hrun, hrest, -⟩ := recvFrame_granted (s := s) rfl undef h rfl hrefused
    exact .inr (by rw [received_of hrun, hrest])

/-- A size that is cut is noticed: the call fails for another reason, or leaves too much. -/
theorem received_cut (hlarge : 255 ≤ data.val.length) (hcut : ready 1 < 8)
    (hwhole : 8 ≤ ready' 1) :
    received undef allocator (.split (sendFrame data more ++ rest) ready) ≠
      received undef' allocator (.split (sendFrame data more ++ rest) ready') := by
  let s : Socket := ⟨.split (sendFrame data more ++ rest) ready, allocator⟩
  obtain ⟨m, k, t, hk, hm, hframe, hleft, hsplits⟩ :=
    recvFrame_cut (s := s) rfl undef hlarge hcut rfl
  have hlength : t.source.incoming.length = 8 - k + (data.val.length + rest.length) := by
    rw [hleft, List.length_append, List.length_append, List.length_drop, length_writeInt]
  have hall := received_whole undef' allocator more rest (.inr hwhole : data.val.length < 255 ∨ _)
  intro heq
  rcases recvPayload_cases undef hsplits hm with ⟨u, hpay, hrest⟩ | ⟨u, hpay⟩ | ⟨u, hpay, hle, hrest⟩
  · have hrun : recvFrame undef s = (.err .outOfMemory, u) :=
      hframe.trans (Proc.bind_of_err hpay _)
    rw [received_of hrun] at heq
    rcases hall with hres | hres
    · have hsame := congrArg (fun r => r.2.length) (heq.trans hres)
      dsimp only at hsame
      rw [hrest, hlength, List.length_append] at hsame
      omega
    · cases congrArg Prod.fst (heq.trans hres)
  · have hrun : recvFrame undef s = (.err .recvFailed, u) :=
      hframe.trans (Proc.bind_of_err hpay _)
    rw [received_of hrun] at heq
    rcases hall with hres | hres
    · cases congrArg Prod.fst (heq.trans hres)
    · cases congrArg Prod.fst (heq.trans hres)
  · have hrun : recvFrame undef s = (.ok (t.source.incoming.take m, more), u) := by
      rw [hframe, Proc.bind_of_ok hpay]
      rfl
    rw [received_of hrun] at heq
    rcases hall with hres | hres
    · cases congrArg Prod.fst (heq.trans hres)
    · have hfst := congrArg Prod.fst (heq.trans hres)
      injection hfst with hpair
      have hdata := congrArg (fun r => r.1.length) hpair
      have hsame := congrArg (fun r => r.2.length) (heq.trans hres)
      dsimp only at hdata hsame
      rw [List.length_take, Nat.min_eq_left hle] at hdata
      rw [hrest, List.length_drop, hlength] at hsame
      omega

end Splitting

/-- A call gets the same from a stream of frames however it is split, exactly when the first
frame is short or its size arrives in one piece. -/
theorem received_split_iff (undef undef' : ℕ → UInt8) (allocator : Allocator)
    (frames : List Frame) (ready : ℕ → ℕ) :
    received undef allocator (.split (wire frames) ready) =
        received undef' allocator (.split (wire frames) fun _ => usizeEnd) ↔
      ∀ f ∈ frames.head?, f.data.val.length < 255 ∨ 8 ≤ ready 1 := by
  cases frames with
  | nil => exact ⟨fun _ => nofun, fun _ => (received_nil _ _ _).trans (received_nil _ _ _).symm⟩
  | cons f frames =>
    rw [wire_cons, List.head?_cons]
    refine ⟨fun heq g hg => ?_, fun h => received_congr (h f rfl) (.inr (by decide))⟩
    obtain rfl := Option.some.inj hg
    by_contra hcut
    rw [not_or, not_lt, not_le] at hcut
    exact received_cut hcut.1 hcut.2 (by decide) heq

def frame255 : Frame := ⟨⟨List.replicate 255 7, by rw [List.length_replicate]; decide⟩, false⟩

set_option maxRecDepth 4000 in
/-- Seven of the eight bytes of a size make an empty frame, and the rest of the size is left. -/
theorem received_seven : received (fun _ => 0) ⟨fun _ => false, 0, [], []⟩
      (.split (wire [frame255]) fun k => if k = 1 then 7 else usizeEnd) ≠
    received (fun _ => 0) ⟨fun _ => false, 0, [], []⟩
      (.split (wire [frame255]) fun _ => usizeEnd) := by
  have hseven : received (fun _ => 0) ⟨fun _ => false, 0, [], []⟩
      (.split (wire [frame255]) fun k => if k = 1 then 7 else usizeEnd) =
        (.ok ([], false), 255 :: frame255.data.val) := rfl
  have hfull : received (fun _ => 0) ⟨fun _ => false, 0, [], []⟩
      (.split (wire [frame255]) fun _ => usizeEnd) = (.ok (frame255.data.val, false), []) := rfl
  rw [hseven, hfull]
  nofun

end LingNet.Zmq
