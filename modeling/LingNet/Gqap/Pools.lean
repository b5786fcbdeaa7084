import LingNet.Lib.Chain
import LingNet.Zig.Outcome
import Mathlib.Data.Fintype.Basic

/-! The block pools of the generation-quarantined arenas: block metadata, the three
intrusive free lists and their operations, one at a time. A pointer to a block is its
index in the table that `initPools` allocates. -/
namespace LingNet.Gqap
open Function

/-- `L0` core and `L1` built-in skills are trusted, `L2` dynamic skills are not. -/
inductive SecurityTier where
  | trusted
  | untrusted
  deriving DecidableEq, Repr

abbrev BlockId := ℕ

structure BlockFlags where
  dirty : Bool := false
  zeroed : Bool := false
  quarantined : Bool := false
  deriving DecidableEq, Repr

structure ArenaBlock where
  memory : ℕ
  capacity : ℕ
  flags : BlockFlags
  retiredGen : ℕ
  poolNext : Option BlockId
  deriving DecidableEq, Repr

inductive PoolId where
  | common
  | quarantine
  | l2
  deriving DecidableEq, Repr

instance : Fintype PoolId where
  elems := {.common, .quarantine, .l2}
  complete p := by cases p <;> decide

/-- `CommonPool`, `QuarantinePool` and `L2Pool` have the same two fields. -/
structure Pool where
  head : Option BlockId
  count : ℕ
  deriving DecidableEq, Repr

/-- The process-wide variables, and the bytes of the anonymous mapping. -/
structure Globals where
  blocks : BlockId → ArenaBlock
  mem : ℕ → UInt8
  pool : PoolId → Pool
  currentGeneration : ℕ
  totalSanitized : ℕ
  totalViolations : ℕ
  poolsInitialized : Bool

structure PoolStats where
  commonFree : ℕ
  quarantinePending : ℕ
  l2Free : ℕ
  totalSanitized : ℕ
  totalViolations : ℕ
  deriving DecidableEq, Repr

inductive InitError where
  | mmapFailed
  | outOfMemory
  deriving DecidableEq, Repr

/-- The block table that `initPools` fills in: every block points at the next one. -/
def initialBlock (backing blockCount blockSize : ℕ) (i : BlockId) : ArenaBlock where
  memory := backing + i * blockSize
  capacity := blockSize
  flags := {}
  retiredGen := 0
  poolNext := if i + 1 < blockCount then some (i + 1) else none

/-- The globals right after a successful `initPools`, with all blocks in the common pool. -/
def initialGlobals (backing blockCount blockSize : ℕ) : Globals where
  blocks := initialBlock backing blockCount blockSize
  mem := fun _ => 0
  pool
    | .common => ⟨some 0, blockCount⟩
    | .quarantine => ⟨none, 0⟩
    | .l2 => ⟨none, 0⟩
  currentGeneration := 1
  totalSanitized := 0
  totalViolations := 0
  poolsInitialized := true

/-- `mapping` is the address `mmap` returned, if it succeeded; `table` says whether the
allocator delivered the block table. -/
def initPools (mapping : Option ℕ) (table : Bool) (blockCount blockSize : ℕ) :
    Zig.Outcome InitError Globals := do
  let totalSize ← Zig.mul blockCount blockSize
  match mapping with
  | none => .err .mmapFailed
  | some backing =>
    -- the kernel refuses an empty mapping with `EINVAL`, which `std.posix.mmap` excludes
    if totalSize = 0 then .trap .reachedUnreachable
    else if !table then .err .outOfMemory
    else .ok (initialGlobals backing blockCount blockSize)

theorem initPools_eq_ok {mapping : Option ℕ} {table : Bool} {blockCount blockSize : ℕ}
    {s : Globals} (h : initPools mapping table blockCount blockSize = .ok s) :
    ∃ backing, s = initialGlobals backing blockCount blockSize ∧ 0 < blockCount ∧ 0 < blockSize ∧
      blockCount * blockSize < Zig.usizeEnd := by
  obtain ⟨total, htotal, h⟩ := Zig.Outcome.bind_eq_ok.mp h
  obtain ⟨hlt, rfl⟩ := Zig.mul_eq_ok.mp htotal
  cases mapping with
  | none => cases h
  | some backing =>
    dsimp only at h
    split_ifs at h with hzero htable
    cases h
    obtain ⟨hc, hs⟩ := Nat.mul_ne_zero_iff.mp hzero
    exact ⟨backing, rfl, Nat.pos_of_ne_zero hc, Nat.pos_of_ne_zero hs, hlt⟩

namespace Globals

def setBlock (s : Globals) (b : BlockId) (k : ArenaBlock) : Globals :=
  { s with blocks := update s.blocks b k }

def setFlags (s : Globals) (b : BlockId) (f : BlockFlags) : Globals :=
  s.setBlock b { s.blocks b with flags := f }

/-- The fields a block gets when it retires into quarantine. -/
def retire (s : Globals) (b : BlockId) (gen : ℕ) : Globals :=
  s.setBlock b { s.blocks b with
    flags := { (s.blocks b).flags with quarantined := true }, retiredGen := gen }

/-- The exchange of a pop and its counter update. -/
def unlink (s : Globals) (p : PoolId) (b : BlockId) : Globals :=
  { s with pool := update s.pool p ⟨(s.blocks b).poolNext, Zig.wrappingSub (s.pool p).count 1⟩ }

/-- The pop of `CommonPool` and `L2Pool`. Alone on the machine it needs one round: the
exchange finds the head that was loaded. -/
def popHead (s : Globals) (p : PoolId) (f : BlockFlags) : Option (BlockId × Globals) :=
  if !s.poolsInitialized then none
  else match (s.pool p).head with
    | none => none
    | some b => some (b, (s.unlink p b).setFlags b f)

/-- The store and the exchange of a push, and its counter update. -/
def link (s : Globals) (p : PoolId) (b : BlockId) : Globals :=
  { s with
    blocks := update s.blocks b { s.blocks b with poolNext := (s.pool p).head }
    pool := update s.pool p ⟨some b, Zig.wrappingAdd (s.pool p).count 1⟩ }

/-- `avx2ZeroBlock`: `@memset(ptr[0..len], 0)`. -/
def avx2ZeroBlock (s : Globals) (ptr len : ℕ) : Globals :=
  { s with mem := fun a => if ptr ≤ a ∧ a < ptr + len then 0 else s.mem a }

/-- Bytes written from `ptr` on. -/
def store (s : Globals) (ptr : ℕ) (bytes : List UInt8) : Globals :=
  { s with mem := fun a => if ptr ≤ a then (bytes[a - ptr]?).getD (s.mem a) else s.mem a }

/-- A block update changes no field that the new block shares with the old one. -/
theorem update_field {α : Type} (f : ArenaBlock → α) {blocks : BlockId → ArenaBlock} {b : BlockId}
    {k : ArenaBlock} (h : f k = f (blocks b)) (x : BlockId) :
    f (update blocks b k x) = f (blocks x) := by
  by_cases hx : x = b
  · rw [hx, update_self, h]
  · rw [update_of_ne hx]

/-! No operation moves or resizes a block, and only `retire` dates one. -/

@[simp] theorem memory_setFlags (s : Globals) (b x : BlockId) (f : BlockFlags) :
    ((s.setFlags b f).blocks x).memory = (s.blocks x).memory :=
  update_field ArenaBlock.memory (by rfl) x

@[simp] theorem capacity_setFlags (s : Globals) (b x : BlockId) (f : BlockFlags) :
    ((s.setFlags b f).blocks x).capacity = (s.blocks x).capacity :=
  update_field ArenaBlock.capacity (by rfl) x

@[simp] theorem retiredGen_setFlags (s : Globals) (b x : BlockId) (f : BlockFlags) :
    ((s.setFlags b f).blocks x).retiredGen = (s.blocks x).retiredGen :=
  update_field ArenaBlock.retiredGen (by rfl) x

@[simp] theorem poolNext_setFlags (s : Globals) (b x : BlockId) (f : BlockFlags) :
    ((s.setFlags b f).blocks x).poolNext = (s.blocks x).poolNext :=
  update_field ArenaBlock.poolNext (by rfl) x

@[simp] theorem flags_setFlags_self (s : Globals) (b : BlockId) (f : BlockFlags) :
    ((s.setFlags b f).blocks b).flags = f := by
  simp [setFlags, setBlock]

@[simp] theorem memory_retire (s : Globals) (b x : BlockId) (gen : ℕ) :
    ((s.retire b gen).blocks x).memory = (s.blocks x).memory :=
  update_field ArenaBlock.memory (by rfl) x

@[simp] theorem capacity_retire (s : Globals) (b x : BlockId) (gen : ℕ) :
    ((s.retire b gen).blocks x).capacity = (s.blocks x).capacity :=
  update_field ArenaBlock.capacity (by rfl) x

@[simp] theorem poolNext_retire (s : Globals) (b x : BlockId) (gen : ℕ) :
    ((s.retire b gen).blocks x).poolNext = (s.blocks x).poolNext :=
  update_field ArenaBlock.poolNext (by rfl) x

@[simp] theorem retiredGen_retire_self (s : Globals) (b : BlockId) (gen : ℕ) :
    ((s.retire b gen).blocks b).retiredGen = gen := by
  simp [retire, setBlock]

theorem retiredGen_retire_of_ne (s : Globals) {b x : BlockId} (h : x ≠ b) (gen : ℕ) :
    ((s.retire b gen).blocks x).retiredGen = (s.blocks x).retiredGen := by
  simp [retire, setBlock, h]

@[simp] theorem memory_link (s : Globals) (p : PoolId) (b x : BlockId) :
    ((s.link p b).blocks x).memory = (s.blocks x).memory :=
  update_field ArenaBlock.memory (by rfl) x

@[simp] theorem capacity_link (s : Globals) (p : PoolId) (b x : BlockId) :
    ((s.link p b).blocks x).capacity = (s.blocks x).capacity :=
  update_field ArenaBlock.capacity (by rfl) x

@[simp] theorem retiredGen_link (s : Globals) (p : PoolId) (b x : BlockId) :
    ((s.link p b).blocks x).retiredGen = (s.blocks x).retiredGen :=
  update_field ArenaBlock.retiredGen (by rfl) x

@[simp] theorem blocks_unlink (s : Globals) (p : PoolId) (b : BlockId) :
    (s.unlink p b).blocks = s.blocks := rfl

@[simp] theorem blocks_avx2ZeroBlock (s : Globals) (ptr len : ℕ) :
    (s.avx2ZeroBlock ptr len).blocks = s.blocks := rfl

@[simp] theorem blocks_store (s : Globals) (ptr : ℕ) (bytes : List UInt8) :
    (s.store ptr bytes).blocks = s.blocks := rfl

@[simp] theorem mem_setFlags (s : Globals) (b : BlockId) (f : BlockFlags) :
    (s.setFlags b f).mem = s.mem := rfl

@[simp] theorem mem_retire (s : Globals) (b : BlockId) (gen : ℕ) :
    (s.retire b gen).mem = s.mem := rfl

@[simp] theorem mem_unlink (s : Globals) (p : PoolId) (b : BlockId) :
    (s.unlink p b).mem = s.mem := rfl

@[simp] theorem mem_link (s : Globals) (p : PoolId) (b : BlockId) : (s.link p b).mem = s.mem := rfl

@[simp] theorem pool_setFlags (s : Globals) (b : BlockId) (f : BlockFlags) :
    (s.setFlags b f).pool = s.pool := rfl

@[simp] theorem pool_retire (s : Globals) (b : BlockId) (gen : ℕ) :
    (s.retire b gen).pool = s.pool := rfl

@[simp] theorem pool_avx2ZeroBlock (s : Globals) (ptr len : ℕ) :
    (s.avx2ZeroBlock ptr len).pool = s.pool := rfl

@[simp] theorem pool_store (s : Globals) (ptr : ℕ) (bytes : List UInt8) :
    (s.store ptr bytes).pool = s.pool := rfl

/-- The free-list pointers of the process. -/
def links (s : Globals) : Chain.Links PoolId BlockId where
  head p := (s.pool p).head
  next b := (s.blocks b).poolNext

@[simp] theorem links_setFlags (s : Globals) (b : BlockId) (f : BlockFlags) :
    (s.setFlags b f).links = s.links := by
  simp only [links, pool_setFlags, poolNext_setFlags]

@[simp] theorem links_retire (s : Globals) (b : BlockId) (gen : ℕ) :
    (s.retire b gen).links = s.links := by
  simp only [links, pool_retire, poolNext_retire]

@[simp] theorem links_avx2ZeroBlock (s : Globals) (ptr len : ℕ) :
    (s.avx2ZeroBlock ptr len).links = s.links := rfl

@[simp] theorem links_store (s : Globals) (ptr : ℕ) (bytes : List UInt8) :
    (s.store ptr bytes).links = s.links := rfl

@[simp] theorem links_unlink (s : Globals) (p : PoolId) (b : BlockId) :
    (s.unlink p b).links = s.links.pop p b := by
  have hhead : ∀ q, ((s.unlink p b).pool q).head =
      update (fun q => (s.pool q).head) p (s.blocks b).poolNext q := by
    intro q
    by_cases h : q = p
    · subst q; simp [unlink]
    · simp [unlink, h]
  simp only [links, Chain.Links.pop, Chain.Links.setHead, hhead, blocks_unlink]

@[simp] theorem links_link (s : Globals) (p : PoolId) (b : BlockId) :
    (s.link p b).links = s.links.push p b := by
  have hhead : ∀ q, ((s.link p b).pool q).head =
      update (fun q => (s.pool q).head) p (some b) q := by
    intro q
    by_cases h : q = p
    · subst q; simp [link]
    · simp [link, h]
  have hnext : ∀ x, ((s.link p b).blocks x).poolNext =
      update (fun x => (s.blocks x).poolNext) b (s.pool p).head x := by
    intro x
    by_cases h : x = b
    · subst x; simp [link]
    · simp [link, h]
  simp only [links, Chain.Links.push, Chain.Links.setHead, Chain.Links.setNext, hhead, hnext]

theorem popHead_eq_none_iff {s : Globals} (hinit : s.poolsInitialized = true) (p : PoolId)
    (f : BlockFlags) : s.popHead p f = none ↔ (s.pool p).head = none := by
  unfold popHead
  cases hhead : (s.pool p).head <;> simp [hinit]

end Globals

def CommonPool.pop (s : Globals) : Option (BlockId × Globals) := s.popHead .common {}

def CommonPool.push (s : Globals) (b : BlockId) : Globals := s.link .common b

def QuarantinePool.push (s : Globals) (b : BlockId) (retiredGen : ℕ) : Globals :=
  (s.retire b retiredGen).link .quarantine b

/-- `head.?.retired_gen + 1` is checked arithmetic: it traps at the last generation. -/
def QuarantinePool.popSafe {ε : Type} (s : Globals) (currentGen : ℕ) :
    Zig.Outcome ε (Option (BlockId × Globals)) :=
  match (s.pool .quarantine).head with
  | none => .ok none
  | some b => do
    let next ← Zig.add (s.blocks b).retiredGen 1
    pure (if currentGen ≤ next then none else some (b, s.unlink .quarantine b))

def L2Pool.pop (s : Globals) : Option (BlockId × Globals) := s.popHead .l2 { zeroed := true }

def L2Pool.push (s : Globals) (b : BlockId) : Globals :=
  (s.setFlags b { zeroed := true }).link .l2 b

def incrementGeneration (s : Globals) : Globals :=
  { s with currentGeneration := Zig.wrappingAdd s.currentGeneration 1 }

def currentGeneration (s : Globals) : ℕ := s.currentGeneration

def getStats (s : Globals) : PoolStats where
  commonFree := (s.pool .common).count
  quarantinePending := (s.pool .quarantine).count
  l2Free := (s.pool .l2).count
  totalSanitized := s.totalSanitized
  totalViolations := s.totalViolations

/-- One block from quarantine to the `L2` pool; `false` when none is due. -/
def sanitizeOne {ε : Type} (s : Globals) (currentGen : ℕ) : Zig.Outcome ε (Bool × Globals) := do
  match ← QuarantinePool.popSafe s currentGen with
  | none => pure (false, s)
  | some (b, s) =>
    let s := s.avx2ZeroBlock (s.blocks b).memory (s.blocks b).capacity
    let s := L2Pool.push (s.setFlags b { zeroed := true, quarantined := false }) b
    pure (true, { s with totalSanitized := Zig.wrappingAdd s.totalSanitized 1 })

end LingNet.Gqap
