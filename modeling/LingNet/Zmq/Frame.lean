import LingNet.Lib.ByteMem
import LingNet.Lib.ByteStream
import LingNet.Zig.Heap

/-! The frames of the wire protocol: what `sendFrame` writes, and how `recvFrame` reads. -/
namespace LingNet.Zmq
open Zig ByteMem ByteStream

namespace ZmqFrame

def flagMore : UInt8 := 0x01

def flagLarge : UInt8 := 0x02

end ZmqFrame

structure Frame where
  data : Bytes
  more : Bool

inductive ZmqError where
  | recvFailed
  | outOfMemory
  deriving DecidableEq, Repr

/-- `mem.writeInt(u64, _, v, .big)` -/
def writeInt (v : ℕ) : List UInt8 := (bytesOf 8 v).reverse.map UInt8.ofBitVec

/-- `mem.readInt(u64, _, .big)` -/
def readInt (buf : List UInt8) : ℕ := valueOf (buf.map UInt8.toBitVec).reverse

/-- The header of `sendFrame`: one byte for the size of a short frame, eight for a large one. -/
def header (data : Bytes) (more : Bool) : List UInt8 :=
  if data.val.length < 255 then
    [if more then ZmqFrame.flagMore else 0, UInt8.ofNat data.val.length]
  else
    (if more then ZmqFrame.flagMore ||| ZmqFrame.flagLarge else ZmqFrame.flagLarge) ::
      writeInt data.val.length

def sendFrame (data : Bytes) (more : Bool) : List UInt8 := header data more ++ data.val

structure Socket where
  source : Source
  allocator : Allocator

/-- `linux.read` of `count` bytes to `buf[offset..]`. The result is unsigned: an error number
comes out as a large one. -/
def read (buf : List UInt8) (offset count : ℕ) : Proc Socket ZmqError (ℕ × List UInt8) := fun s =>
  match s.source.read count with
  | (.ok bytes, source) =>
    (.ok (bytes.length, buf.take offset ++ bytes ++ buf.drop (offset + bytes.length)),
      { s with source := source })
  | (.error errno, source) => (.ok (usizeEnd - errno, buf), { s with source := source })

/-- `allocator.alloc(u8, count)`; nothing is asked of the allocator for no bytes. -/
def alloc (undef : ℕ → UInt8) (count : ℕ) : Proc Socket ZmqError (Option Region × List UInt8) :=
  fun s =>
  if count = 0 then (.ok (none, []), s)
  else
    match Allocator.alloc ZmqError.outOfMemory s.allocator with
    | (.ok region, allocator) =>
      (.ok (some region, (List.range count).map undef), { s with allocator := allocator })
    | (.err e, allocator) => (.err e, { s with allocator := allocator })
    | (.trap t, allocator) => (.trap t, { s with allocator := allocator })

/-- `allocator.free` -/
def free (region : Option Region) : Proc Socket ZmqError Unit :=
  Proc.modify fun s => match region with
    | none => s
    | some region => { s with allocator := s.allocator.free region }

/-- The loop over the payload. A turn that goes on has read a byte, so that as many turns as
there are bytes are enough. -/
def recvData (region : Option Region) (dataLen : ℕ) :
    ℕ → ℕ → List UInt8 → Proc Socket ZmqError (List UInt8)
  | 0, _, data => pure data
  | turns + 1, totalRead, data =>
    if totalRead < dataLen then do
      let (n, data) ← read data totalRead (dataLen - totalRead)
      if n = 0 then do
        free region
        Proc.fail .recvFailed
      else do
        let totalRead ← Proc.lift (add totalRead n)
        recvData region dataLen turns totalRead data
    else pure data

def recvSize (undef : ℕ → UInt8) (isLarge : Bool) : Proc Socket ZmqError ℕ :=
  if isLarge then do
    let (sizeRead, sizeBuf) ← read ((List.range 8).map undef) 0 8
    if sizeRead = 0 then Proc.fail .recvFailed
    else Proc.lift (intCast 64 (readInt sizeBuf))
  else do
    let (sizeRead, sizeBuf) ← read ((List.range 1).map undef) 0 1
    if sizeRead = 0 then Proc.fail .recvFailed
    else pure (sizeBuf.headD 0).toNat

def recvPayload (undef : ℕ → UInt8) (dataLen : ℕ) : Proc Socket ZmqError (List UInt8) := do
  let (region, data) ← alloc undef dataLen
  recvData region dataLen dataLen 0 data

/-- `undef` is what fresh memory holds. -/
def recvFrame (undef : ℕ → UInt8) : Proc Socket ZmqError (List UInt8 × Bool) := do
  let (flagsRead, flagsBuf) ← read ((List.range 1).map undef) 0 1
  if flagsRead = 0 then Proc.fail .recvFailed
  else do
    let flags := flagsBuf.headD 0
    let more := flags &&& ZmqFrame.flagMore ≠ 0
    let isLarge := flags &&& ZmqFrame.flagLarge ≠ 0
    let dataLen ← recvSize undef isLarge
    let data ← recvPayload undef dataLen
    pure (data, decide more)

end LingNet.Zmq
