import LingNet.Gqap.Pools

/-! Arenas: a block taken from the pools, bump allocation inside it, and the two ways to
end an arena. The comptime tier of `Arena(tier)` is a field here. -/
namespace LingNet.Gqap

inductive ArenaError where
  | poolExhausted
  | outOfMemory
  deriving DecidableEq, Repr

structure Arena where
  tier : SecurityTier
  block : BlockId
  generation : ℕ
  offset : ℕ
  deriving DecidableEq, Repr

/-- Size and alignment of a Zig type: the alignment is a power of two and divides the size. -/
structure ElemType where
  size : ℕ
  align : ℕ
  align_pow : ∃ k, align = 2 ^ k
  align_dvd : align ∣ size

theorem ElemType.align_pos (T : ElemType) : 0 < T.align := by
  obtain ⟨k, hk⟩ := T.align_pow
  rw [hk]
  exact Nat.two_pow_pos k

/-- The type `u8`. -/
def ElemType.u8 : ElemType := ⟨1, 1, ⟨0, rfl⟩, dvd_rfl⟩

/-- A slice that `alloc` returned, as the addresses of its bytes. -/
structure Slice where
  ptr : ℕ
  len : ℕ
  deriving DecidableEq, Repr

namespace Arena

/-- An untrusted arena asks the `L2` pool, then the common pool, then the quarantine. -/
def init (tier : SecurityTier) (s : Globals) : Zig.Outcome ArenaError (Arena × Globals) :=
  let gen := s.currentGeneration
  match tier with
  | .trusted =>
    match CommonPool.pop s with
    | none => .err .poolExhausted
    | some (b, s) => .ok (⟨.trusted, b, gen, 0⟩, s)
  | .untrusted =>
    match L2Pool.pop s with
    | some (b, s) => .ok (⟨.untrusted, b, gen, 0⟩, s)
    | none =>
      match CommonPool.pop s with
      | some (b, s) =>
        .ok (⟨.untrusted, b, gen, 0⟩, s.setFlags b { (s.blocks b).flags with dirty := true })
      | none => do
        match ← QuarantinePool.popSafe s gen with
        | none => .err .poolExhausted
        | some (b, s) =>
          .ok (⟨.untrusted, b, gen, 0⟩, s.setFlags b { zeroed := true, quarantined := false })

/-- `if (comptime tier == .untrusted) self.block.flags.dirty = true`. -/
def markDirty (a : Arena) (s : Globals) : Globals :=
  match a.tier with
  | .trusted => s
  | .untrusted => s.setFlags a.block { (s.blocks a.block).flags with dirty := true }

/-- Bump allocation of `count` values of type `T`. -/
def alloc (a : Arena) (T : ElemType) (count : ℕ) (s : Globals) :
    Zig.Outcome ArenaError (Slice × Arena × Globals) := do
  let size ← Zig.mul T.size count
  let alignedSize ← Zig.alignForward size T.align
  let stop ← Zig.add a.offset alignedSize
  if (s.blocks a.block).capacity < stop then .err .outOfMemory
  else
    let ptr := (s.blocks a.block).memory + a.offset
    -- `@alignCast`
    if ptr % T.align ≠ 0 then .trap .incorrectAlignment
    else pure (⟨ptr, size⟩, { a with offset := stop }, a.markDirty s)

def deinit (a : Arena) (s : Globals) : Globals :=
  let retiredGen := s.currentGeneration
  match a.tier with
  | .trusted => CommonPool.push s a.block
  | .untrusted => QuarantinePool.push s a.block retiredGen

/-- Only the trusted branch clears the block; the untrusted one just sets the flag. -/
def deinitAndZero (a : Arena) (s : Globals) : Globals :=
  match a.tier with
  | .trusted =>
    let s := s.avx2ZeroBlock (s.blocks a.block).memory (s.blocks a.block).capacity
    CommonPool.push s a.block
  | .untrusted =>
    let s := s.setFlags a.block { (s.blocks a.block).flags with zeroed := true }
    L2Pool.push s a.block

@[simp] theorem links_markDirty (a : Arena) (s : Globals) : (a.markDirty s).links = s.links := by
  cases ht : a.tier <;> simp [markDirty, ht]

@[simp] theorem pool_markDirty (a : Arena) (s : Globals) : (a.markDirty s).pool = s.pool := by
  cases ht : a.tier <;> simp [markDirty, ht]

@[simp] theorem mem_markDirty (a : Arena) (s : Globals) : (a.markDirty s).mem = s.mem := by
  cases ht : a.tier <;> simp [markDirty, ht]

@[simp] theorem memory_markDirty (a : Arena) (s : Globals) (b : BlockId) :
    ((a.markDirty s).blocks b).memory = (s.blocks b).memory := by
  cases ht : a.tier <;> simp [markDirty, ht]

@[simp] theorem capacity_markDirty (a : Arena) (s : Globals) (b : BlockId) :
    ((a.markDirty s).blocks b).capacity = (s.blocks b).capacity := by
  cases ht : a.tier <;> simp [markDirty, ht]

@[simp] theorem retiredGen_markDirty (a : Arena) (s : Globals) (b : BlockId) :
    ((a.markDirty s).blocks b).retiredGen = (s.blocks b).retiredGen := by
  cases ht : a.tier <;> simp [markDirty, ht]

@[simp] theorem currentGeneration_markDirty (a : Arena) (s : Globals) :
    (a.markDirty s).currentGeneration = s.currentGeneration := by
  cases ht : a.tier <;> simp [markDirty, ht, Globals.setFlags, Globals.setBlock]

@[simp] theorem poolsInitialized_markDirty (a : Arena) (s : Globals) :
    (a.markDirty s).poolsInitialized = s.poolsInitialized := by
  cases ht : a.tier <;> simp [markDirty, ht, Globals.setFlags, Globals.setBlock]

/-- A successful `alloc` hands out the bytes right behind the previous offset. -/
theorem alloc_eq_ok {a a' : Arena} {T : ElemType} {count : ℕ} {s s' : Globals} {sl : Slice}
    (h : a.alloc T count s = .ok (sl, a', s')) :
    sl.ptr = (s.blocks a.block).memory + a.offset ∧ a.offset + sl.len ≤ a'.offset ∧
      a'.offset ≤ (s.blocks a.block).capacity ∧ a' = { a with offset := a'.offset } ∧
      s' = a.markDirty s := by
  unfold alloc at h
  obtain ⟨size, _, h⟩ := Zig.Outcome.bind_eq_ok.mp h
  obtain ⟨aligned, haligned, h⟩ := Zig.Outcome.bind_eq_ok.mp h
  obtain ⟨stop, hstop, h⟩ := Zig.Outcome.bind_eq_ok.mp h
  have hle := Zig.le_of_alignForward T.align_pos haligned
  obtain ⟨_, rfl⟩ := Zig.add_eq_ok.mp hstop
  dsimp only at h
  split_ifs at h with hcap halign
  cases h
  exact ⟨rfl, Nat.add_le_add_left hle _, Nat.le_of_not_lt hcap, rfl, rfl⟩

/-- A new arena starts at the front of its block. -/
theorem offset_of_init {tier : SecurityTier} {s s' : Globals} {a : Arena}
    (h : init tier s = .ok (a, s')) : a.offset = 0 := by
  unfold init at h
  cases tier with
  | trusted =>
    dsimp only at h
    split at h <;> cases h
    rfl
  | untrusted =>
    dsimp only at h
    split at h
    · cases h
      rfl
    split at h
    · cases h
      rfl
    obtain ⟨r, _, h⟩ := Zig.Outcome.bind_eq_ok.mp h
    cases r <;> cases h
    rfl

/-- A byte needs no padding. -/
theorem alloc_u8 (a : Arena) {count : ℕ} (h : a.offset + count < Zig.usizeEnd) (s : Globals) :
    a.alloc .u8 count s =
      if (s.blocks a.block).capacity < a.offset + count then .err .outOfMemory
      else .ok (⟨(s.blocks a.block).memory + a.offset, count⟩,
        { a with offset := a.offset + count }, a.markDirty s) := by
  have hmul : (Zig.mul 1 count : Zig.Outcome ArenaError ℕ) = .ok count := by
    rw [Zig.mul_eq_ok]
    omega
  have hadd : (Zig.add count 0 : Zig.Outcome ArenaError ℕ) = .ok count := by
    rw [Zig.add_eq_ok]
    omega
  have halign : (Zig.alignForward count 1 : Zig.Outcome ArenaError ℕ) = .ok count := by
    unfold Zig.alignForward
    rw [hadd]
    simp
  have hstop : (Zig.add a.offset count : Zig.Outcome ArenaError ℕ) = .ok (a.offset + count) := by
    rw [Zig.add_eq_ok]
    omega
  unfold alloc
  simp only [ElemType.u8, hmul, halign, hstop, Zig.Outcome.ok_bind, Nat.mod_one]
  rfl

end Arena
end LingNet.Gqap
