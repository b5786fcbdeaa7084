import LingNet.Zmq.Frame

/-! What the receiving side makes of the bytes that wait, when no read fails. -/
namespace LingNet.Zmq
open Zig ByteMem ByteStream

/-- Read number `k` of the socket finds `ready k` bytes. -/
def Socket.Splits (s : Socket) (ready : ℕ → ℕ) : Prop :=
  s.source.replies = fun k => .ready (ready k)

def Socket.next (s : Socket) (n : ℕ) : Socket :=
  { s with source := { s.source with
      incoming := s.source.incoming.drop n
      reads := s.source.reads + 1 } }

section Reads

variable {s : Socket} {ready : ℕ → ℕ}

theorem Socket.Splits.next (h : s.Splits ready) (n : ℕ) : (s.next n).Splits ready := h

theorem read_run (h : s.Splits ready) (buf : List UInt8) (offset count : ℕ) {bytes : List UInt8}
    (hbytes : bytes = s.source.incoming.take (Source.handed count (ready s.source.reads))) :
    read buf offset count s =
      (.ok (bytes.length, buf.take offset ++ bytes ++ buf.drop (offset + bytes.length)),
        s.next (Source.handed count (ready s.source.reads))) := by
  have hreply : s.source.replies s.source.reads = .ready (ready s.source.reads) := by rw [h]
  unfold read
  rw [Source.read_of_ready hreply, ← hbytes]
  rfl

theorem read_byte (h : s.Splits ready) (undef : ℕ → UInt8) {c : UInt8} {rest : List UInt8}
    (hincoming : s.source.incoming = c :: rest) :
    read ((List.range 1).map undef) 0 1 s = (.ok (1, [c]), s.next 1) := by
  have hbytes : [c] = s.source.incoming.take (Source.handed 1 (ready s.source.reads)) := by
    rw [Source.handed_one, hincoming]
    rfl
  rw [read_run h _ 0 1 hbytes, Source.handed_one]
  rfl

theorem read_of_nil (h : s.Splits ready) (buf : List UInt8) (offset count : ℕ)
    (hincoming : s.source.incoming = []) :
    ∃ data n, read buf offset count s = (.ok (0, data), s.next n) := by
  have hbytes : [] = s.source.incoming.take (Source.handed count (ready s.source.reads)) := by
    rw [hincoming, List.take_nil]
  exact ⟨_, _, read_run h buf offset count hbytes⟩

theorem recvData_turn (h : s.Splits ready) (region : Option Region) (turns : ℕ)
    {dataLen totalRead : ℕ} {data : List UInt8} (hlen : data.length = dataLen)
    (hmore : totalRead < dataLen) (hlt : dataLen < usizeEnd)
    (hincoming : s.source.incoming ≠ []) :
    ∃ n k, 0 < n ∧ n ≤ k ∧ k ≤ dataLen - totalRead ∧
      n = min k s.source.incoming.length ∧
      (data.take totalRead ++ s.source.incoming.take n ++ data.drop (totalRead + n)).length =
        dataLen ∧
      recvData region dataLen (turns + 1) totalRead data s =
        recvData region dataLen turns (totalRead + n)
          (data.take totalRead ++ s.source.incoming.take n ++ data.drop (totalRead + n))
          (s.next k) := by
  obtain ⟨k, hk⟩ : ∃ k, k = Source.handed (dataLen - totalRead) (ready s.source.reads) := ⟨_, rfl⟩
  obtain ⟨n, hn⟩ : ∃ n, n = min k s.source.incoming.length := ⟨_, rfl⟩
  have hkle : k ≤ dataLen - totalRead := hk ▸ Source.handed_le _ _
  have hkpos : 0 < k := hk ▸ Source.handed_pos (Nat.sub_pos_of_lt hmore) _
  have hpos : 0 < n := hn ▸ Nat.lt_min.mpr ⟨hkpos, List.length_pos_iff.mpr hincoming⟩
  have htake : s.source.incoming.take k = s.source.incoming.take n := by
    rw [hn, ← List.take_take, List.take_length]
  have hlength : (s.source.incoming.take n).length = n := by
    rw [List.length_take]
    omega
  have hread := read_run h data totalRead (dataLen - totalRead) (hk ▸ htake.symm)
  rw [← hk, hlength] at hread
  have hadd : (add totalRead n : Outcome ZmqError ℕ) = .ok (totalRead + n) :=
    add_eq_ok.mpr ⟨by omega, rfl⟩
  refine ⟨n, k, hpos, hn ▸ Nat.min_le_left _ _, hkle, hn, ?_, ?_⟩
  · rw [List.length_append, List.length_append, List.length_take, hlength, List.length_drop, hlen]
    omega
  · rw [recvData, if_pos hmore, Proc.bind_of_ok hread]
    dsimp only
    rw [if_neg hpos.ne', Proc.lift_bind_of_ok hadd]

theorem recvData_done (region : Option Region) {dataLen : ℕ} {data : List UInt8} (turns : ℕ)
    (s : Socket) : recvData region dataLen turns dataLen data s = (.ok data, s) := by
  cases turns with
  | zero => rfl
  | succ turns =>
    rw [recvData, if_neg (Nat.lt_irrefl dataLen)]
    rfl

/-- The loop fills the buffer from the bytes that wait, however they are split. -/
theorem recvData_run (h : s.Splits ready) (region : Option Region) {dataLen turns totalRead : ℕ}
    {data : List UInt8} (hlen : data.length = dataLen) (htotal : totalRead ≤ dataLen)
    (hturns : dataLen ≤ totalRead + turns) (hlt : dataLen < usizeEnd)
    (henough : dataLen - totalRead ≤ s.source.incoming.length) :
    ∃ s', recvData region dataLen turns totalRead data s =
        (.ok (data.take totalRead ++ s.source.incoming.take (dataLen - totalRead)), s') ∧
      s'.source.incoming = s.source.incoming.drop (dataLen - totalRead) ∧
      s'.Splits ready ∧ s'.allocator = s.allocator := by
  induction turns generalizing s totalRead data with
  | zero =>
    obtain rfl : totalRead = dataLen := Nat.le_antisymm htotal hturns
    refine ⟨s, ?_, by rw [Nat.sub_self]; rfl, h, rfl⟩
    rw [recvData_done, Nat.sub_self, List.take_zero, List.append_nil,
      List.take_of_length_le hlen.le]
  | succ turns ih =>
    rcases Nat.eq_or_lt_of_le htotal with rfl | hmore
    · refine ⟨s, ?_, by rw [Nat.sub_self]; rfl, h, rfl⟩
      rw [recvData_done, Nat.sub_self, List.take_zero, List.append_nil,
        List.take_of_length_le hlen.le]
    · have hincoming : s.source.incoming ≠ [] := by
        apply List.length_pos_iff.mp
        omega
      obtain ⟨n, k, hpos, hnk, hkle, hn, hlen', hturn⟩ :=
        recvData_turn h region turns hlen hmore hlt hincoming
      obtain rfl : n = k := by omega
      have hdrop : (s.next n).source.incoming = s.source.incoming.drop n := rfl
      have henough' : dataLen - (totalRead + n) ≤ (s.next n).source.incoming.length := by
        rw [hdrop, List.length_drop]
        omega
      obtain ⟨s', hrun, hincoming', hsplits, halloc⟩ :=
        ih (h.next n) hlen' (by omega) (by omega) henough'
      have hfill : (data.take totalRead ++ s.source.incoming.take n).length = totalRead + n := by
        rw [List.length_append, List.length_take, List.length_take, hlen]
        omega
      have hrest : n + (dataLen - (totalRead + n)) = dataLen - totalRead := by omega
      refine ⟨s', hturn.trans (hrun.trans ?_), ?_, hsplits, halloc⟩
      · rw [List.take_left' hfill, hdrop, List.append_assoc, ← List.take_add, hrest]
      · rw [hincoming', hdrop, List.drop_drop, hrest]

/-- A payload that never arrives whole fails. -/
theorem recvData_short (h : s.Splits ready) (region : Option Region)
    {dataLen turns totalRead : ℕ} {data : List UInt8} (hlen : data.length = dataLen)
    (hturns : dataLen ≤ totalRead + turns) (hlt : dataLen < usizeEnd)
    (hshort : s.source.incoming.length < dataLen - totalRead) :
    ∃ s', recvData region dataLen turns totalRead data s = (.err .recvFailed, s') := by
  induction turns generalizing s totalRead data with
  | zero => omega
  | succ turns ih =>
    have hmore : totalRead < dataLen := by omega
    by_cases hincoming : s.source.incoming = []
    · obtain ⟨data', n, hread⟩ := read_of_nil h data totalRead (dataLen - totalRead) hincoming
      rw [recvData, if_pos hmore, Proc.bind_of_ok hread]
      exact ⟨_, rfl⟩
    · obtain ⟨n, k, hpos, hnk, hkle, hn, hlen', hturn⟩ :=
        recvData_turn h region turns hlen hmore hlt hincoming
      have hshort' : (s.next k).source.incoming.length < dataLen - (totalRead + n) := by
        change (s.source.incoming.drop k).length < _
        rw [List.length_drop]
        omega
      obtain ⟨s', hrun⟩ := ih (h.next k) hlen' (by omega) hshort'
      exact ⟨s', hturn.trans hrun⟩

/-- Whether the next request for `count` bytes is refused. -/
def Socket.Refuses (s : Socket) (count : ℕ) : Prop :=
  count ≠ 0 ∧ s.allocator.fails s.allocator.requests = true

theorem alloc_refused (undef : ℕ → UInt8) {count : ℕ} (h : s.Refuses count) :
    ∃ s', alloc undef count s = (.err .outOfMemory, s') ∧ s'.source = s.source := by
  unfold alloc Allocator.alloc
  rw [if_neg h.1, if_pos h.2]
  exact ⟨_, rfl, rfl⟩

theorem alloc_granted (undef : ℕ → UInt8) {count : ℕ} (h : ¬ s.Refuses count) :
    ∃ region data s', alloc undef count s = (.ok (region, data), s') ∧ data.length = count ∧
      s'.source = s.source ∧ s'.allocator.fails = s.allocator.fails := by
  unfold alloc
  by_cases hcount : count = 0
  · rw [if_pos hcount]
    exact ⟨_, _, _, rfl, hcount.symm, rfl, rfl⟩
  · have hfails : ¬ s.allocator.fails s.allocator.requests = true := fun hf => h ⟨hcount, hf⟩
    unfold Allocator.alloc
    rw [if_neg hcount, if_neg hfails]
    refine ⟨_, _, _, rfl, ?_, rfl, rfl⟩
    rw [List.length_map, List.length_range]

theorem recvPayload_run (undef : ℕ → UInt8) (h : s.Splits ready) {dataLen : ℕ}
    (hlt : dataLen < usizeEnd) (hgranted : ¬ s.Refuses dataLen)
    (henough : dataLen ≤ s.source.incoming.length) :
    ∃ s', recvPayload undef dataLen s = (.ok (s.source.incoming.take dataLen), s') ∧
      s'.source.incoming = s.source.incoming.drop dataLen ∧ s'.Splits ready ∧
      s'.allocator.fails = s.allocator.fails := by
  obtain ⟨region, data, s₁, halloc, hlen, hsource, hfails⟩ :=
    alloc_granted undef hgranted
  have hsplits : s₁.Splits ready := by
    unfold Socket.Splits
    rw [hsource]
    exact h
  have henough' : dataLen - 0 ≤ s₁.source.incoming.length := by
    rw [hsource]
    exact henough
  obtain ⟨s', hrun, hincoming, hsplits', hallocator⟩ :=
    recvData_run hsplits region hlen (Nat.zero_le _) (Nat.le_add_left _ _) hlt henough'
  rw [hsource, Nat.sub_zero] at hrun hincoming
  refine ⟨s', ?_, hincoming, hsplits', hallocator ▸ hfails⟩
  unfold recvPayload
  rw [Proc.bind_of_ok halloc]
  exact hrun

/-- What becomes of any payload. -/
theorem recvPayload_cases (undef : ℕ → UInt8) (h : s.Splits ready) {dataLen : ℕ}
    (hlt : dataLen < usizeEnd) :
    (∃ s', recvPayload undef dataLen s = (.err .outOfMemory, s') ∧
      s'.source.incoming = s.source.incoming) ∨
    (∃ s', recvPayload undef dataLen s = (.err .recvFailed, s')) ∨
    ∃ s', recvPayload undef dataLen s = (.ok (s.source.incoming.take dataLen), s') ∧
      dataLen ≤ s.source.incoming.length ∧
      s'.source.incoming = s.source.incoming.drop dataLen := by
  by_cases hrefused : s.Refuses dataLen
  · obtain ⟨s', halloc, hsource⟩ := alloc_refused undef hrefused
    refine .inl ⟨s', ?_, by rw [hsource]⟩
    unfold recvPayload
    rw [Proc.bind_of_err halloc]
  · by_cases henough : dataLen ≤ s.source.incoming.length
    · obtain ⟨s', hrun, hincoming, _⟩ := recvPayload_run undef h hlt hrefused henough
      exact .inr (.inr ⟨s', hrun, henough, hincoming⟩)
    · obtain ⟨region, data, s₁, halloc, hlen, hsource, _⟩ :=
        alloc_granted undef hrefused
      have hsplits : s₁.Splits ready := by
        unfold Socket.Splits
        rw [hsource]
        exact h
      obtain ⟨s', hrun⟩ := recvData_short hsplits region hlen (Nat.le_add_left dataLen 0) hlt
        (by rw [hsource]; omega)
      refine .inr (.inl ⟨s', ?_⟩)
      unfold recvPayload
      rw [Proc.bind_of_ok halloc]
      exact hrun

end Reads
end LingNet.Zmq
