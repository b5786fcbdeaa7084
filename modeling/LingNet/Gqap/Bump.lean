import LingNet.Gqap.Arena
import LingNet.Lib.Run
import LingNet.Lib.Tiling
import LingNet.Zig.Proc

/-! Bump allocation over any sequence of calls on one arena: the slices tile the front of its block.
A call is a procedure here, so that what an error leaves behind can be told. -/
namespace LingNet.Gqap

/-- `alloc`, statement by statement. -/
def Arena.allocProc (T : ElemType) (count : ℕ) : Zig.Proc (Arena × Globals) ArenaError Slice := do
  let size ← .lift (Zig.mul T.size count)
  let alignedSize ← .lift (Zig.alignForward size T.align)
  let self ← .get
  let stop ← .lift (Zig.add self.1.offset alignedSize)
  if (self.2.blocks self.1.block).capacity < stop then .fail .outOfMemory
  else
    let ptr := (self.2.blocks self.1.block).memory + self.1.offset
    if ptr % T.align ≠ 0 then .lift (.trap .incorrectAlignment)
    else
      .modify fun self => ({ self.1 with offset := stop }, self.2)
      .modify fun self => (self.1, self.1.markDirty self.2)
      pure ⟨ptr, size⟩

/-- The arithmetic of a call stays within `usize`. -/
def Arena.InRange (a : Arena) (T : ElemType) (count : ℕ) : Prop :=
  T.size * count < Zig.usizeEnd ∧ T.size * count + (T.align - 1) < Zig.usizeEnd ∧
    a.offset + T.size * count < Zig.usizeEnd

instance (a : Arena) (T : ElemType) (count : ℕ) : Decidable (a.InRange T count) := by
  unfold Arena.InRange
  infer_instance

/-- The size of whole elements is aligned already. -/
theorem alignForward_size {ε : Type} (T : ElemType) (count : ℕ) :
    (Zig.alignForward (T.size * count) T.align : Zig.Outcome ε ℕ) =
      if T.size * count + (T.align - 1) < Zig.usizeEnd then .ok (T.size * count)
      else .trap .integerOverflow := by
  have hpos := T.align_pos
  obtain ⟨k, hk⟩ := Dvd.dvd.mul_right T.align_dvd count
  have hround : (T.size * count + (T.align - 1)) / T.align * T.align = T.size * count := by
    have hpad : (T.align - 1) / T.align = 0 := Nat.div_eq_of_lt (by omega)
    rw [hk, Nat.mul_add_div hpos, hpad, Nat.add_zero, Nat.mul_comm]
  unfold Zig.alignForward Zig.add
  split_ifs
  · simp [hround]
  · rfl

/-- A checked operation either gives its value or stops the call. -/
theorem Arena.lift_bind {β : Type} {c : Prop} [Decidable c] (n : ℕ)
    (f : ℕ → Zig.Proc (Arena × Globals) ArenaError β) (σ : Arena × Globals) :
    (Zig.Proc.lift (if c then .ok n else .trap .integerOverflow) >>= f) σ =
      if c then f n σ else (.trap .integerOverflow, σ) := by
  split_ifs <;> rfl

/-- Everything a call can do. -/
theorem Arena.allocProc_eq (T : ElemType) (count : ℕ) (a : Arena) (s : Globals) :
    Arena.allocProc T count (a, s) =
      if ¬ a.InRange T count then (.trap .integerOverflow, a, s)
      else if (s.blocks a.block).capacity < a.offset + T.size * count then
        (.err .outOfMemory, a, s)
      else if ((s.blocks a.block).memory + a.offset) % T.align ≠ 0 then
        (.trap .incorrectAlignment, a, s)
      else (.ok ⟨(s.blocks a.block).memory + a.offset, T.size * count⟩,
        { a with offset := a.offset + T.size * count }, a.markDirty s) := by
  unfold allocProc Zig.mul
  rw [lift_bind, alignForward_size, lift_bind]
  unfold InRange
  by_cases hmul : T.size * count < Zig.usizeEnd
  · by_cases halign : T.size * count + (T.align - 1) < Zig.usizeEnd
    · by_cases hstop : a.offset + T.size * count < Zig.usizeEnd
      · rw [if_pos hmul, if_pos halign, if_neg (not_not_intro ⟨hmul, halign, hstop⟩),
          Zig.Proc.bind_of_ok (Zig.Proc.get_run (a, s)), Zig.add, lift_bind, if_pos hstop]
        dsimp only
        split_ifs <;> rfl
      · rw [if_pos hmul, if_pos halign, if_pos fun h => hstop h.2.2,
          Zig.Proc.bind_of_ok (Zig.Proc.get_run (a, s)), Zig.add, lift_bind, if_neg hstop]
    · simp [hmul, halign]
  · simp [hmul]

/-- `alloc` is this call without the state that an error or a trap leaves behind. -/
theorem Arena.alloc_eq (T : ElemType) (count : ℕ) (a : Arena) (s : Globals) :
    a.alloc T count s =
      match Arena.allocProc T count (a, s) with
      | (.ok sl, a, s) => .ok (sl, a, s)
      | (.err e, _) => .err e
      | (.trap f, _) => .trap f := by
  rw [allocProc_eq]
  unfold alloc Zig.mul InRange
  by_cases hmul : T.size * count < Zig.usizeEnd
  · by_cases halign : T.size * count + (T.align - 1) < Zig.usizeEnd
    · rw [if_pos hmul, Zig.Outcome.ok_bind, alignForward_size, if_pos halign,
        Zig.Outcome.ok_bind, Zig.add]
      by_cases hstop : a.offset + T.size * count < Zig.usizeEnd
      · rw [if_pos hstop, if_neg (not_not_intro ⟨hmul, halign, hstop⟩)]
        dsimp only [Zig.Outcome.ok_bind]
        split_ifs <;> rfl
      · rw [if_neg hstop, if_pos fun h => hstop h.2.2]
        rfl
    · rw [if_pos hmul, Zig.Outcome.ok_bind, alignForward_size, if_neg halign,
        if_pos fun h => halign h.2.1]
      rfl
  · rw [if_neg hmul, if_pos fun h => hmul h.1]
    rfl

/-- An arena in use, with the slices it has handed out, the latest first. -/
structure Bump where
  arena : Arena
  globals : Globals
  slices : List Slice

/-- A call asks for a number of values of a type. A trap leaves no next state. -/
def Bump.step (β : Bump) (call : ElemType × ℕ) : Option Bump :=
  match Arena.allocProc call.1 call.2 (β.arena, β.globals) with
  | (.ok sl, a, s) => some ⟨a, s, sl :: β.slices⟩
  | (.err _, a, s) => some ⟨a, s, β.slices⟩
  | (.trap _, _) => none

/-- The addresses of the bytes of a slice. -/
def Slice.bytes (sl : Slice) : Finset ℕ := Finset.Ico sl.ptr (sl.ptr + sl.len)

/-- What a step does: a refused call nothing, a granted one a bump. -/
theorem Bump.step_cases {β β' : Bump} {call : ElemType × ℕ} (h : β.step call = some β') :
    β' = β ∨
      β.arena.offset + call.1.size * call.2 ≤ (β.globals.blocks β.arena.block).capacity ∧
        β' = ⟨{ β.arena with offset := β.arena.offset + call.1.size * call.2 },
          β.arena.markDirty β.globals,
          ⟨(β.globals.blocks β.arena.block).memory + β.arena.offset, call.1.size * call.2⟩ ::
            β.slices⟩ := by
  unfold Bump.step at h
  rw [Arena.allocProc_eq] at h
  by_cases hrange : β.arena.InRange call.1 call.2
  · rw [if_neg (not_not_intro hrange)] at h
    split_ifs at h with hfull halign
    · left
      simpa using h.symm
    · right
      constructor
      · omega
      · simpa using h.symm
  · rw [if_pos hrange] at h
    cases h

/-- The slices tile the block from its front up to the offset. -/
structure Bump.Tiled (k : ArenaBlock) (β : Bump) : Prop where
  memory_eq : (β.globals.blocks β.arena.block).memory = k.memory
  capacity_eq : (β.globals.blocks β.arena.block).capacity = k.capacity
  tiles : Tiling.Tiles Slice.ptr Slice.len k.memory β.slices (k.memory + β.arena.offset)
  offset_le : β.arena.offset ≤ k.capacity

theorem Bump.Tiled.step {k : ArenaBlock} {β β' : Bump} {call : ElemType × ℕ} (t : Tiled k β)
    (h : β.step call = some β') : Tiled k β' := by
  rcases step_cases h with rfl | ⟨hfits, rfl⟩
  · exact t
  · constructor
    · simp [t.memory_eq]
    · simp [t.capacity_eq]
    · have hcons := t.tiles.cons (x := ⟨k.memory + β.arena.offset, call.1.size * call.2⟩) rfl
      rw [t.memory_eq, ← Nat.add_assoc]
      exact hcons
    · rw [← t.capacity_eq]
      exact hfits

theorem Bump.tiled_of_init {tier : SecurityTier} {s s₀ : Globals} {a : Arena}
    (hinit : Arena.init tier s = .ok (a, s₀)) : Tiled (s₀.blocks a.block) ⟨a, s₀, []⟩ where
  memory_eq := rfl
  capacity_eq := rfl
  tiles := by
    rw [Arena.offset_of_init hinit]
    rfl
  offset_le := by
    rw [Arena.offset_of_init hinit]
    exact Nat.zero_le _

/-- The type `u64`. -/
def ElemType.u64 : ElemType := ⟨8, 8, ⟨3, rfl⟩, dvd_rfl⟩

/-- An arena in the first of two blocks of 64 bytes. -/
def freshArena : Arena := ⟨.trusted, 0, 1, 0⟩

def freshGlobals : Globals := ((initialGlobals 4096 2 64).unlink .common 0).setFlags 0 {}

/-- A call ends in a slice that is aligned for the type, or in `OutOfMemory`. -/
def Bump.Answers (β : Bump) (call : ElemType × ℕ) : Prop :=
  match (Arena.allocProc call.1 call.2 (β.arena, β.globals)).1 with
  | .ok sl => call.1.align ∣ sl.ptr
  | .err e => e = .outOfMemory
  | .trap _ => False

/-- The arithmetic of a call stays in range and, if there is room, the offset is aligned for the
type. -/
def Bump.Admits (β : Bump) (call : ElemType × ℕ) : Prop :=
  β.arena.InRange call.1 call.2 ∧
    (β.arena.offset + call.1.size * call.2 ≤ (β.globals.blocks β.arena.block).capacity →
      call.1.align ∣ β.arena.offset)

theorem ElemType.align_dvd_of_le {T : ElemType} (h : T.align ≤ 64) : T.align ∣ 64 := by
  obtain ⟨k, hk⟩ := T.align_pow
  have hle : k ≤ 6 := by
    apply (Nat.pow_le_pow_iff_right (by decide : 1 < 2)).mp
    rw [← hk]
    exact h
  rw [hk]
  exact Nat.pow_dvd_pow 2 hle

theorem Bump.answers_iff {k : ArenaBlock} {β : Bump} {call : ElemType × ℕ} (t : Tiled k β)
    (hbase : 64 ∣ k.memory) (halign : call.1.align ≤ 64) : β.Answers call ↔ β.Admits call := by
  have hdvd : call.1.align ∣ k.memory := (ElemType.align_dvd_of_le halign).trans hbase
  unfold Answers Admits
  rw [Arena.allocProc_eq, t.memory_eq]
  by_cases hrange : β.arena.InRange call.1 call.2
  · rw [if_neg (not_not_intro hrange), and_iff_right hrange]
    split_ifs with hfull hmisaligned
    · have hroom : ¬ β.arena.offset + call.1.size * call.2 ≤
          (β.globals.blocks β.arena.block).capacity := by omega
      simp [hroom]
    · have hptr : ¬ call.1.align ∣ β.arena.offset := by
        intro hoffset
        exact hmisaligned (Nat.mod_eq_zero_of_dvd (Nat.dvd_add hdvd hoffset))
      simp [hptr, Nat.not_lt.mp hfull]
    · have hptr : call.1.align ∣ k.memory + β.arena.offset := Nat.dvd_of_mod_eq_zero (by
        simpa using hmisaligned)
      have hoffset : call.1.align ∣ β.arena.offset := (Nat.dvd_add_right hdvd).mp hptr
      simp [hptr, hoffset]
  · rw [if_pos hrange]
    simp [hrange]

/-- Every call of a sequence is answered exactly where every one is admitted. -/
theorem alloc_answers_iff {tier : SecurityTier} {s s₀ : Globals} {a : Arena}
    (hinit : Arena.init tier s = .ok (a, s₀)) (hbase : 64 ∣ (s₀.blocks a.block).memory)
    {calls : List (ElemType × ℕ)} (halign : ∀ call ∈ calls, call.1.align ≤ 64) :
    Run.AllSteps Bump.step Bump.Answers ⟨a, s₀, []⟩ calls ↔
      Run.AllSteps Bump.step Bump.Admits ⟨a, s₀, []⟩ calls := by
  apply Run.allSteps_congr_on (I := Bump.Tiled (s₀.blocks a.block))
    (R := fun call => call.1.align ≤ 64)
  · intro β call t hle
    exact Bump.answers_iff t hbase hle
  · intro β call β' t _ _ h
    exact t.step h
  · exact Bump.tiled_of_init hinit
  · exact halign

theorem fresh_answers_iff :
    Run.AllSteps Bump.step Bump.Answers ⟨freshArena, freshGlobals, []⟩
        [(.u64, 1), (.u8, 1)] ↔
      Run.AllSteps Bump.step Bump.Admits ⟨freshArena, freshGlobals, []⟩
        [(.u64, 1), (.u8, 1)] := by
  have hinit : Arena.init .trusted (initialGlobals 4096 2 64) = .ok (freshArena, freshGlobals) := rfl
  exact alloc_answers_iff hinit (by decide) (by decide)

/-- A word behind one byte is not aligned. -/
theorem word_behind_byte_traps :
    ¬ Run.AllSteps Bump.step Bump.Answers ⟨freshArena, freshGlobals, []⟩
      [(.u8, 1), (.u64, 1)] := by
  intro hall
  exact (hall.2 ⟨{ freshArena with offset := 1 }, freshGlobals, [⟨4096, 1⟩]⟩ rfl).1

end LingNet.Gqap
