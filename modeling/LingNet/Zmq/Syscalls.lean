import LingNet.Lib.Run
import LingNet.Zmq.Endpoint
import LingNet.Zmq.Stream

/-! The calls of a socket and the system calls under them. The results are words without a sign, so
that an error is a large one. -/
namespace LingNet.Zmq
open Zig

/-- What the kernel says: the result of system call number `k`, and what its buffer holds then. -/
structure Kernel where
  ret : ℕ → UInt64
  buffer : ℕ → ℕ → UInt8

/-- The error numbers go up to 4095. -/
def IsError (ret : UInt64) : Prop := 2 ^ 64 - 4095 ≤ ret.toNat

instance (ret : UInt64) : Decidable (IsError ret) := inferInstanceAs (Decidable (_ ≤ _))

structure ZmqSocket where
  fd : ℤ := -1
  isBound : Bool := false
  isConnected : Bool := false
  deriving DecidableEq

/-- The process around a socket: how many system calls there have been, what was offered to
`writev`, and the memory that the calls use. `addrs` are the structures for addresses that are
live. -/
structure World where
  socket : ZmqSocket
  calls : ℕ
  offered : List (List UInt8)
  allocator : Allocator
  addrs : List ℕ

/-- A process without a socket yet, of which no allocation fails. -/
def World.start : World where
  socket := {}
  calls := 0
  offered := []
  allocator := { fails := fun _ => false }
  addrs := []

def World.called (w : World) (n : ℕ) : World := { w with calls := w.calls + n }

namespace ZmqSocket

variable (kernel : Kernel)

def syscall : Proc World SocketError UInt64 := fun w => (.ok (kernel.ret w.calls), w.called 1)

def writev (bytes : List UInt8) : Proc World SocketError UInt64 := fun w =>
  (.ok (kernel.ret w.calls), { w.called 1 with offered := w.offered ++ [bytes] })

def read : Proc World SocketError (UInt64 × (ℕ → UInt8)) := fun w =>
  (.ok (kernel.ret w.calls, kernel.buffer w.calls), w.called 1)

/-- A list of capacity zero takes no memory. -/
def init : Proc World SocketError Unit := do
  let fd ← syscall kernel
  if fd < 0 then Proc.fail .socketFailed
  else
    let fd ← Proc.lift (intCast 31 fd.toNat)
    Proc.modify fun w => { w with socket := { fd := fd } }

def makeAddr (memory : Option ℕ) (endpoint : List UInt8) : Proc World SocketError AddrBytes := do
  let addr ← Proc.lift (parseEndpoint memory endpoint)
  Proc.modify fun w => { w with addrs := addr.ptr :: w.addrs }
  pure addr

def freeAddr (addr : AddrBytes) (w : World) : World := { w with addrs := w.addrs.erase addr.ptr }

def bind (memory : Option ℕ) (endpoint : List UInt8) : Proc World SocketError Unit := do
  let addr ← makeAddr memory endpoint
  Proc.defer (freeAddr addr) do
    let ret ← syscall kernel
    if ret < 0 then Proc.fail .bindFailed
    else
      Proc.modify fun w => { w with socket := { w.socket with isBound := true } }
      let listenRet ← syscall kernel
      if listenRet < 0 then Proc.fail .bindFailed else pure ()

def connect (memory : Option ℕ) (endpoint : List UInt8) : Proc World SocketError Unit := do
  let addr ← makeAddr memory endpoint
  Proc.defer (freeAddr addr) do
    let ret ← syscall kernel
    if ret < 0 then Proc.fail .connectFailed
    else Proc.modify fun w => { w with socket := { w.socket with isConnected := true } }

/-- The two branches differ in the header. -/
def sendFrame (data : Bytes) (more : Bool) : Proc World SocketError Unit := do
  let ret ← writev kernel (header data more ++ data.val)
  if ret < 0 then Proc.fail .sendFailed else pure ()

/-- `allocator.alloc(u8, data_len)`; nothing is asked of the allocator for no bytes. -/
def alloc (count : ℕ) : Proc World SocketError (Option Region) := fun w =>
  if count = 0 then (.ok none, w)
  else
    match Allocator.alloc SocketError.outOfMemory w.allocator with
    | (.ok region, allocator) => (.ok (some region), { w with allocator := allocator })
    | (.err e, allocator) => (.err e, { w with allocator := allocator })
    | (.trap t, allocator) => (.trap t, { w with allocator := allocator })

/-- `allocator.free(data)` -/
def free (region : Option Region) (w : World) : World :=
  match region with
  | none => w
  | some region => { w with allocator := w.allocator.free region }

/-- The loop over the payload. Every read that goes on takes the total further. -/
def recvData (region : Option Region) (dataLen totalRead : ℕ) : Proc World SocketError Unit :=
  fun w =>
  if _hmore : totalRead < dataLen then
    if _hread : kernel.ret w.calls ≤ 0 then (.err .recvFailed, free region (w.called 1))
    else
      match _hadd : (add totalRead (kernel.ret w.calls).toNat : Outcome SocketError ℕ) with
      | .ok totalRead => recvData region dataLen totalRead (w.called 1)
      | .err e => (.err e, w.called 1)
      | .trap f => (.trap f, w.called 1)
  else (.ok (), w)
termination_by dataLen - totalRead
decreasing_by
  have hpos := UInt64.lt_iff_toNat_lt.mp (UInt64.not_le.mp _hread)
  rw [UInt64.toNat_zero] at hpos
  obtain ⟨-, rfl⟩ := add_eq_ok.mp _hadd
  omega

def recvSize (isLarge : Bool) : Proc World SocketError ℕ :=
  if isLarge then do
    let (sizeRead, sizeBuf) ← read kernel
    if sizeRead ≤ 0 then Proc.fail .recvFailed
    else Proc.lift (intCast 64 (readInt ((List.range 8).map sizeBuf)))
  else do
    let (sizeRead, sizeBuf) ← read kernel
    if sizeRead ≤ 0 then Proc.fail .recvFailed else pure (sizeBuf 0).toNat

/-- What it returns is the memory of the payload, its length, and whether more is to come. -/
def recvFrame : Proc World SocketError (Option Region × ℕ × Bool) := do
  let (flagsRead, flagsBuf) ← read kernel
  if flagsRead ≤ 0 then Proc.fail .recvFailed
  else
    let flags := flagsBuf 0
    let more := flags &&& ZmqFrame.flagMore ≠ 0
    let isLarge := flags &&& ZmqFrame.flagLarge ≠ 0
    let dataLen ← recvSize kernel isLarge
    let data ← alloc dataLen
    recvData kernel data dataLen 0
    pure (data, dataLen, decide more)

end ZmqSocket

inductive Op where
  | init
  | bind (memory : Option ℕ) (endpoint : List UInt8)
  | connect (memory : Option ℕ) (endpoint : List UInt8)
  | sendFrame (data : Bytes) (more : Bool)
  | recvFrame

def call (kernel : Kernel) : Op → Proc World SocketError Unit
  | .init => ZmqSocket.init kernel
  | .bind memory endpoint => ZmqSocket.bind kernel memory endpoint
  | .connect memory endpoint => ZmqSocket.connect kernel memory endpoint
  | .sendFrame data more => ZmqSocket.sendFrame kernel data more
  | .recvFrame => do
    let _ ← ZmqSocket.recvFrame kernel
    pure ()

def step (kernel : Kernel) (w : World) (op : Op) : Option World :=
  match call kernel op w with
  | (.trap _, _) => none
  | (_, w') => some w'

def Succeeded (kernel : Kernel) (w w' : World) : Prop :=
  ∀ k, w.calls ≤ k → k < w'.calls → ¬ IsError (kernel.ret k)

/-- The call does not trap. It fails if a system call of it does; it says that the socket is bound,
or connected, only if it was before or all of its system calls have succeeded; a frame that it
takes for sent was accepted by `writev`; and what it has allocated for a frame that it does not
deliver, it has freed. -/
structure Reported (kernel : Kernel) (w : World) (op : Op) (r : Outcome SocketError Unit × World) :
    Prop where
  no_trap : ∀ fault, r.1 ≠ .trap fault
  failed : ¬ Succeeded kernel w r.2 → ∃ e, r.1 = .err e
  bound : r.2.socket.isBound = true → w.socket.isBound = true ∨
    (∃ memory endpoint, op = .bind memory endpoint) ∧ Succeeded kernel w r.2
  connected : r.2.socket.isConnected = true → w.socket.isConnected = true ∨
    (∃ memory endpoint, op = .connect memory endpoint) ∧ Succeeded kernel w r.2
  sent : ∀ data more, op = .sendFrame data more → r.1 = .ok () →
    r.2.offered = w.offered ++ [Zmq.sendFrame data more] ∧
      (kernel.ret w.calls).toNat = (Zmq.sendFrame data more).length
  freed : ∀ e, op = .recvFrame → r.1 = .err e →
    ∃ taken, r.2.allocator.handed = w.allocator.handed ++ taken ∧
      r.2.allocator.freed = w.allocator.freed ++ taken

def Reports (kernel : Kernel) (w : World) (op : Op) : Prop :=
  Reported kernel w op (call kernel op w)

/-! What the kernel has to answer. -/

/-- The size that a frame announces, in the buffers of two reads. -/
def announced (kernel : Kernel) (k : ℕ) : ℕ :=
  if kernel.buffer k 0 &&& ZmqFrame.flagLarge ≠ 0 then
    readInt ((List.range 8).map (kernel.buffer (k + 1)))
  else (kernel.buffer (k + 1) 0).toNat

inductive Reaches (kernel : Kernel) (start dataLen : ℕ) : ℕ → ℕ → Prop where
  | start : Reaches kernel start dataLen 0 0
  | next {n total : ℕ} (h : Reaches kernel start dataLen n total) (hmore : total < dataLen)
      (hread : kernel.ret (start + n) ≠ 0)
      (hfit : total + (kernel.ret (start + n)).toNat < usizeEnd) :
      Reaches kernel start dataLen (n + 1) (total + (kernel.ret (start + n)).toNat)

/-- The total of the reads never runs over, and a payload comes whole by good reads only. -/
def PayloadAnswered (kernel : Kernel) (k dataLen : ℕ) : Prop :=
  ∀ n total, Reaches kernel (k + 2) dataLen n total →
    (total < dataLen → total + (kernel.ret (k + 2 + n)).toNat < usizeEnd) ∧
      (dataLen ≤ total → ∀ i < n + 2, ¬ IsError (kernel.ret (k + i)))

def Made (memory : Option ℕ) (endpoint : List UInt8) : Prop :=
  Delivers memory ∧ ∃ port, Accepts endpoint port

/-- Memory that is not aligned is not taken for an address. -/
def Aligned (memory : Option ℕ) (endpoint : List UInt8) : Prop :=
  ∀ ptr port, memory = some ptr → Accepts endpoint port → ptr % 4 = 0

/-- The socket's number is one, the calls for an address succeed, a frame is accepted whole, and
no total of reads hides an error. -/
def Answered (kernel : Kernel) (w : World) : Op → Prop
  | .init => (kernel.ret w.calls).toNat < 2 ^ 31
  | .bind memory endpoint => Aligned memory endpoint ∧ (Made memory endpoint →
      ¬ IsError (kernel.ret w.calls) ∧ ¬ IsError (kernel.ret (w.calls + 1)))
  | .connect memory endpoint => Aligned memory endpoint ∧ (Made memory endpoint →
      ¬ IsError (kernel.ret w.calls))
  | .sendFrame data more => (kernel.ret w.calls).toNat = (Zmq.sendFrame data more).length ∧
      ¬ IsError (kernel.ret w.calls)
  | .recvFrame => kernel.ret w.calls ≠ 0 → kernel.ret (w.calls + 1) ≠ 0 →
      announced kernel w.calls = 0 ∨ w.allocator.fails w.allocator.requests = false →
      PayloadAnswered kernel w.calls (announced kernel w.calls)

namespace ZmqSocket

section Runs

variable {kernel : Kernel} {w : World} {memory : Option ℕ} {endpoint : List UInt8}

/-- A result has no sign. -/
theorem not_neg (ret : UInt64) : ¬ ret < 0 := UInt64.not_lt.mpr UInt64.zero_le

theorem syscall_run (kernel : Kernel) (w : World) :
    ZmqSocket.syscall kernel w = (.ok (kernel.ret w.calls), w.called 1) := rfl

theorem readBuf_run (kernel : Kernel) (w : World) : ZmqSocket.read kernel w =
    (.ok (kernel.ret w.calls, kernel.buffer w.calls), w.called 1) := rfl

theorem init_run (kernel : Kernel) (w : World) : ZmqSocket.init kernel w =
    if (kernel.ret w.calls).toNat < 2 ^ 31 then
      (.ok (), { w.called 1 with socket := { fd := (kernel.ret w.calls).toNat } })
    else (.trap .integerCast, w.called 1) := by
  unfold ZmqSocket.init
  rw [Proc.bind_of_ok (syscall_run kernel w), if_neg (not_neg _)]
  split_ifs with hfit
  · rw [Proc.lift_bind_of_ok (intCast_of_lt hfit)]
    rfl
  · rw [intCast_of_le (Nat.le_of_not_lt hfit)]
    rfl

theorem parseEndpoint_cases (memory : Option ℕ) (endpoint : List UInt8) :
    (∃ addr, parseEndpoint memory endpoint = .ok addr ∧ Made memory endpoint ∧
        Aligned memory endpoint) ∨
      (∃ e, parseEndpoint memory endpoint = .err e ∧ ¬ Made memory endpoint ∧
        Aligned memory endpoint) ∨
      ∃ f, parseEndpoint memory endpoint = .trap f ∧ ¬ Aligned memory endpoint := by
  by_cases haccepts : ∃ port, Accepts endpoint port
  swap
  · have hrefused : parseEndpoint memory endpoint = .err .invalidEndpoint := by
      by_contra hne
      exact haccepts (accepts_of_ne hne)
    refine .inr (.inl ⟨_, hrefused, fun hmade => haccepts hmade.2, fun ptr port _ hport => ?_⟩)
    exact absurd ⟨port, hport⟩ haccepts
  obtain ⟨port, hport⟩ := haccepts
  have hparse := parseEndpoint_of_accepts hport memory
  cases memory with
  | none =>
    refine .inr (.inl ⟨_, hparse, ?_, nofun⟩)
    rintro ⟨⟨ptr, hptr, -⟩, -⟩
    cases hptr
  | some ptr =>
    by_cases haligned : ptr % 4 = 0
    · have hall : Aligned (some ptr) endpoint := by
        intro ptr' port' hptr _
        cases hptr
        exact haligned
      exact .inl ⟨_, hparse.trans (if_neg (not_not.mpr haligned)),
        ⟨⟨ptr, rfl, haligned⟩, port, hport⟩, hall⟩
    · exact .inr (.inr ⟨_, hparse.trans (if_pos haligned), fun hall => haligned
        (hall ptr port rfl hport)⟩)

theorem makeAddr_run {addr : AddrBytes} (h : parseEndpoint memory endpoint = .ok addr) (w : World) :
    ZmqSocket.makeAddr memory endpoint w =
      (.ok addr, { w with addrs := addr.ptr :: w.addrs }) := by
  unfold ZmqSocket.makeAddr
  rw [Proc.lift_bind_of_ok h]
  rfl

theorem makeAddr_of_err {e : SocketError} (h : parseEndpoint memory endpoint = .err e) (w : World) :
    ZmqSocket.makeAddr memory endpoint w = (.err e, w) := by
  unfold ZmqSocket.makeAddr
  rw [h]
  rfl

theorem makeAddr_of_trap {f : Fault} (h : parseEndpoint memory endpoint = .trap f) (w : World) :
    ZmqSocket.makeAddr memory endpoint w = (.trap f, w) := by
  unfold ZmqSocket.makeAddr
  rw [h]
  rfl

theorem bind_run {addr : AddrBytes} (h : parseEndpoint memory endpoint = .ok addr) (w : World) :
    ZmqSocket.bind kernel memory endpoint w =
      (.ok (), { w.called 2 with socket := { w.socket with isBound := true } }) := by
  unfold ZmqSocket.bind
  rw [Proc.bind_of_ok (makeAddr_run h w)]
  unfold Proc.defer
  rw [Proc.bind_of_ok (syscall_run kernel _), if_neg (not_neg _),
    Proc.bind_of_ok (Proc.modify_run _ _), Proc.bind_of_ok (syscall_run kernel _),
    if_neg (not_neg _)]
  change (Outcome.ok (), ZmqSocket.freeAddr addr _) = _
  unfold ZmqSocket.freeAddr
  simp [World.called]

theorem connect_run {addr : AddrBytes} (h : parseEndpoint memory endpoint = .ok addr) (w : World) :
    ZmqSocket.connect kernel memory endpoint w =
      (.ok (), { w.called 1 with socket := { w.socket with isConnected := true } }) := by
  unfold ZmqSocket.connect
  rw [Proc.bind_of_ok (makeAddr_run h w)]
  unfold Proc.defer
  rw [Proc.bind_of_ok (syscall_run kernel _), if_neg (not_neg _)]
  change (Outcome.ok (), ZmqSocket.freeAddr addr _) = _
  unfold ZmqSocket.freeAddr
  simp [World.called]

theorem sendFrame_run (kernel : Kernel) (data : Bytes) (more : Bool) (w : World) :
    ZmqSocket.sendFrame kernel data more w = (.ok (),
      { w.called 1 with offered := w.offered ++ [Zmq.sendFrame data more] }) := by
  have hwritev : ZmqSocket.writev kernel (header data more ++ data.val) w =
      (.ok (kernel.ret w.calls),
        { w.called 1 with offered := w.offered ++ [Zmq.sendFrame data more] }) := rfl
  unfold ZmqSocket.sendFrame
  rw [Proc.bind_of_ok hwritev, if_neg (not_neg _)]
  rfl

end Runs

section Loop

variable {kernel : Kernel} {w : World} {region : Option Region} {dataLen total n : ℕ}

theorem loop_done (hdone : dataLen ≤ total) (w : World) :
    ZmqSocket.recvData kernel region dataLen total w = (.ok (), w) := by
  rw [ZmqSocket.recvData]
  exact dif_neg (Nat.not_lt.mpr hdone)

theorem loop_zero (hmore : total < dataLen) (hread : kernel.ret w.calls = 0) :
    ZmqSocket.recvData kernel region dataLen total w =
      (.err .recvFailed, ZmqSocket.free region (w.called 1)) := by
  rw [ZmqSocket.recvData, dif_pos hmore]
  exact dif_pos (UInt64.le_of_eq hread)

theorem not_le_zero {ret : UInt64} (h : ret ≠ 0) : ¬ ret ≤ 0 := by
  intro hle
  exact h (UInt64.le_antisymm hle UInt64.zero_le)

theorem loop_overflow (hmore : total < dataLen) (hread : kernel.ret w.calls ≠ 0)
    (hfull : ¬ total + (kernel.ret w.calls).toNat < usizeEnd) :
    ZmqSocket.recvData kernel region dataLen total w = (.trap .integerOverflow, w.called 1) := by
  have hadd : (add total (kernel.ret w.calls).toNat : Outcome SocketError ℕ) =
      .trap .integerOverflow := if_neg hfull
  rw [ZmqSocket.recvData, dif_pos hmore, dif_neg (not_le_zero hread)]
  split
  next heq =>
    rw [hadd] at heq
    cases heq
  next heq =>
    rw [hadd] at heq
    cases heq
  next heq =>
    rw [hadd] at heq
    cases heq
    rfl

theorem loop_next (hmore : total < dataLen) (hread : kernel.ret w.calls ≠ 0)
    (hfit : total + (kernel.ret w.calls).toNat < usizeEnd) :
    ZmqSocket.recvData kernel region dataLen total w =
      ZmqSocket.recvData kernel region dataLen (total + (kernel.ret w.calls).toNat)
        (w.called 1) := by
  have hadd : (add total (kernel.ret w.calls).toNat : Outcome SocketError ℕ) =
      .ok (total + (kernel.ret w.calls).toNat) := if_pos hfit
  rw [ZmqSocket.recvData, dif_pos hmore, dif_neg (not_le_zero hread)]
  split
  next heq =>
    rw [hadd] at heq
    cases heq
    rfl
  next heq =>
    rw [hadd] at heq
    cases heq
  next heq =>
    rw [hadd] at heq
    cases heq

/-- The loop passes every total that the reads come to. -/
theorem loop_of_reaches (region : Option Region) (h : Reaches kernel w.calls dataLen n total) :
    ZmqSocket.recvData kernel region dataLen 0 w =
      ZmqSocket.recvData kernel region dataLen total (w.called n) := by
  induction h with
  | start => rfl
  | @next n total h hmore hread hfit ih =>
    rw [ih]
    exact loop_next hmore hread hfit

theorem exists_stop (kernel : Kernel) (start dataLen : ℕ) :
    ∃ n total, Reaches kernel start dataLen n total ∧ (dataLen ≤ total ∨
      total < dataLen ∧ (kernel.ret (start + n) = 0 ∨
        kernel.ret (start + n) ≠ 0 ∧
          ¬ total + (kernel.ret (start + n)).toNat < usizeEnd)) := by
  have hfrom : ∀ left n total, Reaches kernel start dataLen n total → dataLen - total ≤ left →
      ∃ n total, Reaches kernel start dataLen n total ∧ (dataLen ≤ total ∨
        total < dataLen ∧ (kernel.ret (start + n) = 0 ∨
          kernel.ret (start + n) ≠ 0 ∧
            ¬ total + (kernel.ret (start + n)).toNat < usizeEnd)) := by
    intro left
    induction left with
    | zero => exact fun n total h hleft => ⟨n, total, h, .inl (by omega)⟩
    | succ left ih =>
      intro n total h hleft
      rcases Nat.lt_or_ge total dataLen with hmore | hdone
      swap
      · exact ⟨n, total, h, .inl hdone⟩
      by_cases hread : kernel.ret (start + n) = 0
      · exact ⟨n, total, h, .inr ⟨hmore, .inl hread⟩⟩
      by_cases hfit : total + (kernel.ret (start + n)).toNat < usizeEnd
      · have hpos : (kernel.ret (start + n)).toNat ≠ 0 := fun hzero =>
          hread (UInt64.toNat_inj.mp hzero)
        exact ih _ _ (.next h hmore hread hfit) (by omega)
      · exact ⟨n, total, h, .inr ⟨hmore, .inr ⟨hread, hfit⟩⟩⟩
  exact hfrom dataLen 0 0 .start (by omega)

end Loop

section Frame

variable {kernel : Kernel} {w : World} {count : ℕ}

/-- Memory for a payload, which a later `free` gives back. -/
theorem alloc_run (h : count = 0 ∨ w.allocator.fails w.allocator.requests = false) :
    ∃ region allocator taken,
      ZmqSocket.alloc count w = (.ok region, { w with allocator := allocator }) ∧
      allocator.handed = w.allocator.handed ++ taken ∧ allocator.freed = w.allocator.freed ∧
      ∀ w', ∃ freed, ZmqSocket.free region w' =
        { w' with allocator := { w'.allocator with freed := freed } } ∧
          freed = w'.allocator.freed ++ taken := by
  unfold ZmqSocket.alloc
  by_cases hzero : count = 0
  · refine ⟨none, w.allocator, [], ?_, (List.append_nil _).symm, rfl, fun w' => ?_⟩
    · rw [if_pos hzero]
    · exact ⟨_, rfl, (List.append_nil _).symm⟩
  · refine ⟨some w.allocator.requests, w.allocator.served, [w.allocator.requests], ?_, rfl, rfl,
      fun w' => ?_⟩
    · rw [if_neg hzero, Allocator.alloc_of_serves (h.resolve_left hzero)]
    · exact ⟨_, rfl, rfl⟩

theorem alloc_refused (hcount : count ≠ 0)
    (hfails : w.allocator.fails w.allocator.requests = true) :
    ZmqSocket.alloc count w = (.err .outOfMemory, { w with allocator := w.allocator.refused }) := by
  unfold ZmqSocket.alloc
  rw [if_neg hcount, Allocator.alloc_of_fails hfails]

theorem recvSize_run (isLarge : Bool) (hread : kernel.ret w.calls ≠ 0) :
    ZmqSocket.recvSize kernel isLarge w = (.ok (if isLarge = true then
      readInt ((List.range 8).map (kernel.buffer w.calls)) else (kernel.buffer w.calls 0).toNat),
      w.called 1) := by
  unfold ZmqSocket.recvSize
  cases isLarge with
  | true =>
    have hlt : readInt ((List.range 8).map (kernel.buffer w.calls)) < usizeEnd :=
      readInt_lt (by simp)
    rw [if_pos rfl, if_pos rfl, Proc.bind_of_ok (readBuf_run kernel w)]
    dsimp only
    rw [if_neg (not_le_zero hread), intCast_of_lt hlt]
    rfl
  | false =>
    rw [if_neg Bool.false_ne_true, if_neg Bool.false_ne_true,
      Proc.bind_of_ok (readBuf_run kernel w)]
    dsimp only
    rw [if_neg (not_le_zero hread)]
    rfl

theorem recvSize_zero (isLarge : Bool) (hread : kernel.ret w.calls = 0) :
    ZmqSocket.recvSize kernel isLarge w = (.err .recvFailed, w.called 1) := by
  unfold ZmqSocket.recvSize
  cases isLarge with
  | true =>
    rw [if_pos rfl, Proc.bind_of_ok (readBuf_run kernel w)]
    exact congrFun (if_pos (UInt64.le_of_eq hread)) _
  | false =>
    rw [if_neg Bool.false_ne_true, Proc.bind_of_ok (readBuf_run kernel w)]
    exact congrFun (if_pos (UInt64.le_of_eq hread)) _

/-! What `recvFrame` comes to, by the call that fails first. -/

theorem recvFrame_no_flags (hflags : kernel.ret w.calls = 0) :
    recvFrame kernel w = (.err .recvFailed, w.called 1) := by
  unfold recvFrame
  rw [Proc.bind_of_ok (readBuf_run kernel w)]
  exact congrFun (if_pos (UInt64.le_of_eq hflags)) _

theorem recvFrame_no_size (hflags : kernel.ret w.calls ≠ 0)
    (hsize : kernel.ret (w.calls + 1) = 0) :
    recvFrame kernel w = (.err .recvFailed, w.called 2) := by
  unfold recvFrame
  rw [Proc.bind_of_ok (readBuf_run kernel w)]
  dsimp only
  rw [if_neg (not_le_zero hflags), Proc.bind_of_err (recvSize_zero (w := w.called 1) _ hsize)]
  rfl

theorem recvFrame_run (hflags : kernel.ret w.calls ≠ 0) (hsize : kernel.ret (w.calls + 1) ≠ 0) :
    ∃ more, recvFrame kernel w = (alloc (announced kernel w.calls) >>= fun data =>
      recvData kernel data (announced kernel w.calls) 0 >>= fun _ =>
        pure (data, announced kernel w.calls, more)) (w.called 2) := by
  have hannounced : (if decide (kernel.buffer w.calls 0 &&& ZmqFrame.flagLarge ≠ 0) = true then
      readInt ((List.range 8).map (kernel.buffer (w.called 1).calls))
      else (kernel.buffer (w.called 1).calls 0).toNat) = announced kernel w.calls := by
    unfold announced World.called
    simp only [decide_eq_true_eq]
  have hread := recvSize_run (w := w.called 1)
    (decide (kernel.buffer w.calls 0 &&& ZmqFrame.flagLarge ≠ 0)) hsize
  rw [hannounced] at hread
  refine ⟨decide (kernel.buffer w.calls 0 &&& ZmqFrame.flagMore ≠ 0), ?_⟩
  unfold recvFrame
  rw [Proc.bind_of_ok (readBuf_run kernel w)]
  dsimp only
  rw [if_neg (not_le_zero hflags), Proc.bind_of_ok hread]
  rfl

end Frame

end ZmqSocket

section Steps

variable {kernel : Kernel} {w w' : World}

theorem succeeded_one (h : ¬ IsError (kernel.ret w.calls)) (hcalls : w'.calls = w.calls + 1) :
    Succeeded kernel w w' := by
  intro k hle hlt
  obtain rfl : k = w.calls := by omega
  exact h

theorem init_reports_iff : Reports kernel w .init ↔ Answered kernel w .init := by
  unfold Reports
  change Reported kernel w .init (ZmqSocket.init kernel w) ↔ (kernel.ret w.calls).toNat < 2 ^ 31
  rw [ZmqSocket.init_run]
  split_ifs with hfit
  · refine iff_of_true ?_ hfit
    have hgood : ¬ IsError (kernel.ret w.calls) := by
      unfold IsError
      omega
    exact {
      no_trap := nofun
      failed := fun hfailed => absurd (succeeded_one hgood rfl) hfailed
      bound := nofun
      connected := nofun
      sent := nofun
      freed := nofun }
  · exact iff_of_false (fun hreported => hreported.no_trap _ rfl) hfit

theorem reported_of_err {op : Op} (e : SocketError) : Reported kernel w op (.err e, w) where
  no_trap := nofun
  failed _ := ⟨e, rfl⟩
  bound := .inl
  connected := .inl
  sent := nofun
  freed _ _ _ := ⟨[], (List.append_nil _).symm, (List.append_nil _).symm⟩

theorem addr_reports_iff {op : Op} {memory : Option ℕ} {endpoint : List UInt8}
    {x : AddrBytes → Proc World SocketError Unit} {good : Prop}
    (hcall : call kernel op = ZmqSocket.makeAddr memory endpoint >>= x)
    (hmade : ∀ addr, parseEndpoint memory endpoint = .ok addr → (Reports kernel w op ↔ good)) :
    Reports kernel w op ↔ Aligned memory endpoint ∧ (Made memory endpoint → good) := by
  rcases ZmqSocket.parseEndpoint_cases memory endpoint with
    ⟨addr, hparse, hmake, haligned⟩ | ⟨e, hparse, hmake, haligned⟩ | ⟨f, hparse, haligned⟩
  · rw [hmade addr hparse]
    exact ⟨fun h => ⟨haligned, fun _ => h⟩, fun h => h.2 hmake⟩
  · have hrun : call kernel op w = (.err e, w) := by
      rw [hcall, Proc.bind_of_err (ZmqSocket.makeAddr_of_err hparse w)]
    unfold Reports
    rw [hrun]
    exact iff_of_true (reported_of_err e) ⟨haligned, fun h => absurd h hmake⟩
  · have hrun : call kernel op w = (.trap f, w) := by
      rw [hcall, Proc.bind_of_trap (ZmqSocket.makeAddr_of_trap hparse w)]
    unfold Reports
    rw [hrun]
    exact iff_of_false (fun hreported => hreported.no_trap f rfl) fun h => haligned h.1

/-- A call that returns no error has had none. -/
theorem Reported.succeeded {op : Op} (h : Reported kernel w op (.ok (), w')) :
    Succeeded kernel w w' := by
  by_contra hfailed
  obtain ⟨e, he⟩ := h.failed hfailed
  cases he

theorem bind_reports_iff (memory : Option ℕ) (endpoint : List UInt8) :
    Reports kernel w (.bind memory endpoint) ↔ Answered kernel w (.bind memory endpoint) := by
  apply addr_reports_iff rfl
  intro addr hparse
  unfold Reports
  change Reported kernel w _ (ZmqSocket.bind kernel memory endpoint w) ↔ _
  rw [ZmqSocket.bind_run hparse]
  constructor
  · intro hreported
    have hall := hreported.succeeded
    exact ⟨hall _ (Nat.le_refl _) (Nat.lt_add_of_pos_right (by decide)),
      hall _ (Nat.le_succ _) (Nat.lt_succ_self _)⟩
  · rintro ⟨hbind, hlisten⟩
    have hall : ∀ w' : World, w'.calls = w.calls + 2 → Succeeded kernel w w' := by
      intro w' hcalls k hle hlt
      rcases Nat.eq_or_lt_of_le hle with rfl | hnext
      · exact hbind
      · obtain rfl : k = w.calls + 1 := by omega
        exact hlisten
    exact {
      no_trap := nofun
      failed := fun hfailed => absurd (hall _ rfl) hfailed
      bound := fun _ => .inr ⟨⟨memory, endpoint, rfl⟩, hall _ rfl⟩
      connected := .inl
      sent := nofun
      freed := nofun }

theorem connect_reports_iff (memory : Option ℕ) (endpoint : List UInt8) :
    Reports kernel w (.connect memory endpoint) ↔
      Answered kernel w (.connect memory endpoint) := by
  apply addr_reports_iff rfl
  intro addr hparse
  unfold Reports
  change Reported kernel w _ (ZmqSocket.connect kernel memory endpoint w) ↔ _
  rw [ZmqSocket.connect_run hparse]
  constructor
  · intro hreported
    exact hreported.succeeded _ (Nat.le_refl _) (Nat.lt_succ_self _)
  · intro hgood
    exact {
      no_trap := nofun
      failed := fun hfailed => absurd (succeeded_one hgood rfl) hfailed
      bound := .inl
      connected := fun _ => .inr ⟨⟨memory, endpoint, rfl⟩, succeeded_one hgood rfl⟩
      sent := nofun
      freed := nofun }

theorem sendFrame_reports_iff (data : Bytes) (more : Bool) :
    Reports kernel w (.sendFrame data more) ↔ Answered kernel w (.sendFrame data more) := by
  unfold Reports
  change Reported kernel w _ (ZmqSocket.sendFrame kernel data more w) ↔
    (kernel.ret w.calls).toNat = (Zmq.sendFrame data more).length ∧ ¬ IsError (kernel.ret w.calls)
  rw [ZmqSocket.sendFrame_run]
  constructor
  · intro hreported
    exact ⟨(hreported.sent data more rfl rfl).2,
      hreported.succeeded _ (Nat.le_refl _) (Nat.lt_succ_self _)⟩
  · rintro ⟨hwhole, hgood⟩
    exact {
      no_trap := nofun
      failed := fun hfailed => absurd (succeeded_one hgood rfl) hfailed
      bound := .inl
      connected := .inl
      sent := by
        intro data' more' hop _
        cases hop
        exact ⟨rfl, hwhole⟩
      freed := nofun }

/-- A frame that is not delivered, and whose memory is back. -/
theorem reported_of_recv_err {w' : World} (e : SocketError) (hsocket : w'.socket = w.socket)
    {taken : List Region} (hhanded : w'.allocator.handed = w.allocator.handed ++ taken)
    (hfreed : w'.allocator.freed = w.allocator.freed ++ taken) :
    Reported kernel w .recvFrame (.err e, w') where
  no_trap := nofun
  failed _ := ⟨e, rfl⟩
  bound h := .inl (hsocket ▸ h)
  connected h := .inl (hsocket ▸ h)
  sent := nofun
  freed _ _ _ := ⟨taken, hhanded, hfreed⟩

theorem call_recvFrame_of_err {e : SocketError} (h : ZmqSocket.recvFrame kernel w = (.err e, w')) :
    call kernel .recvFrame w = (.err e, w') := Proc.bind_of_err h _

theorem call_of_loop {region : Option Region} {dataLen : ℕ} {more : Bool} {w₁ : World}
    (hrun : ZmqSocket.recvFrame kernel w = (ZmqSocket.recvData kernel region dataLen 0 >>= fun _ =>
      pure (region, dataLen, more)) w₁) {r : Outcome SocketError Unit}
    (hloop : ZmqSocket.recvData kernel region dataLen 0 w₁ = (r, w')) :
    call kernel .recvFrame w = (r, w') := by
  cases r with
  | ok u =>
    rw [Proc.bind_of_ok hloop] at hrun
    exact Proc.bind_of_ok hrun _
  | err e =>
    rw [Proc.bind_of_err hloop] at hrun
    exact Proc.bind_of_err hrun _
  | trap f =>
    rw [Proc.bind_of_trap hloop] at hrun
    exact Proc.bind_of_trap hrun _

theorem announced_lt (kernel : Kernel) (k : ℕ) : announced kernel k < usizeEnd := by
  unfold announced
  split_ifs
  · exact readInt_lt (by simp)
  · have hbyte := (kernel.buffer (k + 1) 0).toNat_lt
    unfold usizeEnd
    omega

section Payload

variable {w₁ : World} {region : Option Region} {taken : List Region} {more : Bool}

/-- Between the header and the payload: the memory was taken, and nothing else was done. -/
structure Allocated (w w₁ : World) (region : Option Region) (taken : List Region) : Prop where
  calls : w₁.calls = w.calls + 2
  socket : w₁.socket = w.socket
  handed : w₁.allocator.handed = w.allocator.handed ++ taken
  freed : w₁.allocator.freed = w.allocator.freed
  back : ∀ w', ∃ freed, ZmqSocket.free region w' =
    { w' with allocator := { w'.allocator with freed := freed } } ∧
      freed = w'.allocator.freed ++ taken

theorem payloadAnswered_of_reported (halloc : Allocated w w₁ region taken)
    (hrun : ZmqSocket.recvFrame kernel w =
      (ZmqSocket.recvData kernel region (announced kernel w.calls) 0 >>= fun _ =>
        pure (region, announced kernel w.calls, more)) w₁)
    (hreported : Reported kernel w .recvFrame (call kernel .recvFrame w)) :
    PayloadAnswered kernel w.calls (announced kernel w.calls) := by
  intro n total hreaches
  rw [← halloc.calls] at hreaches ⊢
  have hloop := ZmqSocket.loop_of_reaches region hreaches
  refine ⟨fun hmore => ?_, fun hdone i hi => ?_⟩
  · by_contra hfull
    have hread : kernel.ret (w₁.calls + n) ≠ 0 := by
      intro hzero
      have hlen := announced_lt kernel w.calls
      rw [hzero, UInt64.toNat_zero] at hfull
      omega
    rw [ZmqSocket.loop_overflow (w := w₁.called n) hmore hread hfull] at hloop
    rw [call_of_loop hrun hloop] at hreported
    exact hreported.no_trap _ rfl
  · rw [ZmqSocket.loop_done hdone] at hloop
    rw [call_of_loop hrun hloop] at hreported
    have hcalls := halloc.calls
    have hbehind : w.calls + i < w₁.calls + n := by omega
    exact hreported.succeeded _ (Nat.le_add_right _ _) hbehind

theorem reported_of_payloadAnswered (halloc : Allocated w w₁ region taken)
    (hrun : ZmqSocket.recvFrame kernel w =
      (ZmqSocket.recvData kernel region (announced kernel w.calls) 0 >>= fun _ =>
        pure (region, announced kernel w.calls, more)) w₁)
    (hanswers : PayloadAnswered kernel w.calls (announced kernel w.calls)) :
    Reported kernel w .recvFrame (call kernel .recvFrame w) := by
  obtain ⟨n, total, hreaches, hstop⟩ :=
    ZmqSocket.exists_stop kernel w₁.calls (announced kernel w.calls)
  obtain ⟨hfits, hgood⟩ := hanswers n total (halloc.calls ▸ hreaches)
  rw [← halloc.calls] at hfits
  have hloop := ZmqSocket.loop_of_reaches region hreaches
  rcases hstop with hdone | ⟨hmore, hzero | ⟨-, hfull⟩⟩
  · rw [ZmqSocket.loop_done hdone] at hloop
    rw [call_of_loop hrun hloop]
    have hall : Succeeded kernel w (w₁.called n) := by
      intro k hle hlt
      have hcalls := halloc.calls
      have hend : k < w₁.calls + n := hlt
      obtain ⟨i, rfl⟩ := Nat.exists_eq_add_of_le hle
      exact hgood hdone i (by omega)
    have hsocket : (w₁.called n).socket = w.socket := halloc.socket
    exact {
      no_trap := nofun
      failed := fun hfailed => absurd hall hfailed
      bound := fun h => .inl (hsocket ▸ h)
      connected := fun h => .inl (hsocket ▸ h)
      sent := nofun
      freed := nofun }
  · rw [ZmqSocket.loop_zero (w := w₁.called n) hmore hzero] at hloop
    rw [call_of_loop hrun hloop]
    obtain ⟨freed, hback, rfl⟩ := halloc.back ((w₁.called n).called 1)
    rw [hback]
    refine reported_of_recv_err _ halloc.socket halloc.handed ?_
    exact congrArg (· ++ taken) halloc.freed
  · exact absurd (hfits hmore) hfull

end Payload

theorem recvFrame_reports_iff : Reports kernel w .recvFrame ↔ Answered kernel w .recvFrame := by
  have hsame : ∀ l : List Region, l = l ++ [] := fun l => (List.append_nil l).symm
  unfold Reports
  change Reported kernel w _ _ ↔ (kernel.ret w.calls ≠ 0 → kernel.ret (w.calls + 1) ≠ 0 →
    announced kernel w.calls = 0 ∨ w.allocator.fails w.allocator.requests = false →
      PayloadAnswered kernel w.calls (announced kernel w.calls))
  by_cases hflags : kernel.ret w.calls = 0
  · rw [call_recvFrame_of_err (ZmqSocket.recvFrame_no_flags hflags)]
    exact iff_of_true (reported_of_recv_err _ rfl (hsame _) (hsame _)) fun h => absurd hflags h
  by_cases hsize : kernel.ret (w.calls + 1) = 0
  · rw [call_recvFrame_of_err (ZmqSocket.recvFrame_no_size hflags hsize)]
    exact iff_of_true (reported_of_recv_err _ rfl (hsame _) (hsame _))
      fun _ h => absurd hsize h
  obtain ⟨more, hrun⟩ := ZmqSocket.recvFrame_run hflags hsize
  by_cases hmemory : announced kernel w.calls = 0 ∨
    w.allocator.fails w.allocator.requests = false
  swap
  · obtain ⟨hcount, hfails⟩ := not_or.mp hmemory
    have hrefuses : w.allocator.fails w.allocator.requests = true := by simpa using hfails
    have hrefused := ZmqSocket.alloc_refused (w := w.called 2) hcount hrefuses
    rw [call_recvFrame_of_err (hrun.trans (Proc.bind_of_err hrefused _))]
    exact iff_of_true (reported_of_recv_err _ rfl (hsame _) (hsame _))
      fun _ _ h => absurd h hmemory
  obtain ⟨region, allocator, taken, halloc, hhanded, hfreed, hback⟩ :=
    ZmqSocket.alloc_run (w := w.called 2) hmemory
  rw [Proc.bind_of_ok halloc] at hrun
  have hallocated : Allocated w { w.called 2 with allocator := allocator } region taken :=
    ⟨rfl, rfl, hhanded, hfreed, hback⟩
  constructor
  · intro hreported _ _ _
    exact payloadAnswered_of_reported hallocated hrun hreported
  · intro hanswered
    exact reported_of_payloadAnswered hallocated hrun (hanswered hflags hsize hmemory)

end Steps

/-- Over every sequence of calls, whatever the kernel answers, the failures are reported exactly if
no call gets an answer that it does not look at. -/
theorem reports_iff_answered (kernel : Kernel) (w : World) (ops : List Op) :
    Run.AllSteps (step kernel) (Reports kernel) w ops ↔
      Run.AllSteps (step kernel) (Answered kernel) w ops := by
  apply Run.allSteps_congr (I := fun _ => True) _ _ trivial
  · intro w op _
    cases op with
    | init => exact init_reports_iff
    | bind memory endpoint => exact bind_reports_iff memory endpoint
    | connect memory endpoint => exact connect_reports_iff memory endpoint
    | sendFrame data more => exact sendFrame_reports_iff data more
    | recvFrame => exact recvFrame_reports_iff
  · intros
    trivial

def inUse : Kernel where
  ret _ := 0 - 98
  buffer _ _ := 0

/-- The port is taken, and the socket says that it is bound: `tcp://*:80`. -/
theorem bind_failure_lost : ¬ Run.AllSteps (step inUse) (Reports inUse) .start
    [.bind (some 4096) (tcp ++ [42, 58, 56, 48])] := by
  rintro ⟨hreported, -⟩
  have hparse : parseEndpoint (some 4096) (tcp ++ [42, 58, 56, 48]) =
      .ok ⟨4096, (sockAddr 80).bytes⟩ := by decide
  unfold Reports at hreported
  change Reported inUse .start _ (ZmqSocket.bind inUse (some 4096) _ .start) at hreported
  rw [ZmqSocket.bind_run hparse] at hreported
  exact hreported.succeeded 0 (Nat.le_refl 0) (by decide) (by decide)

end LingNet.Zmq
