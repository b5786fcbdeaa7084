import LingNet.Gqap.Tiers

/-! What the pools do with memory contents. Control never depends on a byte: a step overwrites
some addresses and leaves the others alone. An address is exposed while it may hold a byte
that a trusted arena chose. -/
namespace LingNet.Gqap
open Function

def Globals.withMem (s : Globals) (m : ℕ → UInt8) : Globals := { s with mem := m }

def System.withMem (σ : System) (m : ℕ → UInt8) : System :=
  { σ with globals := σ.globals.withMem m }

/-- The memory `m` with the bytes of `w` stored in it. -/
def patch (w : ℕ → Option UInt8) (m : ℕ → UInt8) : ℕ → UInt8 := fun a => (w a).getD (m a)

/-- The bytes that a step stores. -/
def stores (σ : System) : Op → ℕ → Option UInt8
  | .write _ i k offset bytes => fun a =>
    match (σ.live[i]?).bind fun h => h.slices[k]? with
    | none => none
    | some sl => if sl.ptr + offset ≤ a then bytes[a - (sl.ptr + offset)]? else none
  | .deinitAndZero i => fun a =>
    match σ.live[i]? with
    | none => none
    | some h =>
      if h.arena.tier = .trusted ∧ (σ.globals.blocks h.arena.block).memory ≤ a ∧
          a < (σ.globals.blocks h.arena.block).memory + (σ.globals.blocks h.arena.block).capacity
      then some 0 else none
  | .sanitizeOne currentGen => fun a =>
    match (QuarantinePool.popSafe σ.globals currentGen : Zig.Outcome ArenaError _) with
    | .ok (some (b, s)) =>
      if (s.blocks b).memory ≤ a ∧ a < (s.blocks b).memory + (s.blocks b).capacity then some 0
      else none
    | _ => none
  | _ => fun _ => none

@[simp] theorem Globals.mem_withMem (s : Globals) (m : ℕ → UInt8) : (s.withMem m).mem = m := rfl

@[simp] theorem Globals.blocks_withMem (s : Globals) (m : ℕ → UInt8) :
    (s.withMem m).blocks = s.blocks := rfl

@[simp] theorem System.withMem_self (σ : System) : σ.withMem σ.globals.mem = σ := rfl

@[simp] theorem System.live_withMem (σ : System) (m : ℕ → UInt8) : (σ.withMem m).live = σ.live := rfl

theorem popHead_withMem (s : Globals) (m : ℕ → UInt8) (p : PoolId) (f : BlockFlags) :
    (s.withMem m).popHead p f = (s.popHead p f).map fun r => (r.1, r.2.withMem m) := by
  cases hinit : s.poolsInitialized <;> cases hhead : (s.pool p).head <;>
    simp [Globals.popHead, Globals.withMem, hinit, hhead, Globals.unlink, Globals.setFlags,
      Globals.setBlock]

theorem popSafe_withMem {ε : Type} (s : Globals) (m : ℕ → UInt8) (gen : ℕ) :
    (QuarantinePool.popSafe (s.withMem m) gen : Zig.Outcome ε _) =
      QuarantinePool.popSafe s gen >>= fun r => pure (r.map fun r => (r.1, r.2.withMem m)) := by
  cases hhead : (s.pool .quarantine).head with
  | none => simp [QuarantinePool.popSafe, Globals.withMem, hhead]
  | some b =>
    by_cases hfit : (s.blocks b).retiredGen + 1 < Zig.usizeEnd
    · by_cases hdue : gen ≤ (s.blocks b).retiredGen + 1
      · simp [QuarantinePool.popSafe, Globals.withMem, hhead, Zig.add, hfit, hdue]
      · simp [QuarantinePool.popSafe, Globals.withMem, hhead, Zig.add, hfit, hdue, Globals.unlink]
    · simp [QuarantinePool.popSafe, Globals.withMem, hhead, Zig.add, hfit]

theorem init_withMem (tier : SecurityTier) (s : Globals) (m : ℕ → UInt8) :
    Arena.init tier (s.withMem m) =
      Arena.init tier s >>= fun r => pure (r.1, r.2.withMem m) := by
  have hgen : (s.withMem m).currentGeneration = s.currentGeneration := rfl
  cases tier with
  | trusted =>
    simp only [Arena.init, CommonPool.pop, popHead_withMem, hgen]
    cases s.popHead .common {} <;> rfl
  | untrusted =>
    simp only [Arena.init, L2Pool.pop, CommonPool.pop, popHead_withMem, popSafe_withMem, hgen]
    cases s.popHead .l2 { zeroed := true } with
    | some r => rfl
    | none =>
      cases s.popHead .common {} with
      | some r => rfl
      | none =>
        cases (QuarantinePool.popSafe s s.currentGeneration : Zig.Outcome ArenaError _) with
        | ok r => cases r <;> rfl
        | err e => rfl
        | trap f => rfl

theorem markDirty_withMem (a : Arena) (s : Globals) (m : ℕ → UInt8) :
    a.markDirty (s.withMem m) = (a.markDirty s).withMem m := by
  unfold Arena.markDirty
  cases a.tier <;> rfl

theorem alloc_withMem (a : Arena) (T : ElemType) (count : ℕ) (s : Globals) (m : ℕ → UInt8) :
    a.alloc T count (s.withMem m) =
      a.alloc T count s >>= fun r => pure (r.1, r.2.1, r.2.2.withMem m) := by
  unfold Arena.alloc
  simp only [Globals.blocks_withMem, markDirty_withMem]
  cases (Zig.mul T.size count : Zig.Outcome ArenaError ℕ) with
  | err e => rfl
  | trap f => rfl
  | ok size =>
    simp only [Zig.Outcome.ok_bind]
    cases (Zig.alignForward size T.align : Zig.Outcome ArenaError ℕ) with
    | err e => rfl
    | trap f => rfl
    | ok aligned =>
      simp only [Zig.Outcome.ok_bind]
      cases (Zig.add a.offset aligned : Zig.Outcome ArenaError ℕ) with
      | err e => rfl
      | trap f => rfl
      | ok stop =>
        simp only [Zig.Outcome.ok_bind]
        split_ifs <;> rfl

theorem store_withMem (s : Globals) (m : ℕ → UInt8) (ptr : ℕ) (bytes : List UInt8) :
    (s.withMem m).store ptr bytes = (s.store ptr bytes).withMem
      (patch (fun a => if ptr ≤ a then bytes[a - ptr]? else none) m) := by
  unfold Globals.store Globals.withMem patch
  congr 1
  funext a
  dsimp only
  split_ifs <;> rfl

theorem avx2ZeroBlock_withMem (s : Globals) (m : ℕ → UInt8) (ptr len : ℕ) :
    (s.withMem m).avx2ZeroBlock ptr len = (s.avx2ZeroBlock ptr len).withMem
      (patch (fun a => if ptr ≤ a ∧ a < ptr + len then some 0 else none) m) := by
  unfold Globals.avx2ZeroBlock Globals.withMem patch
  congr 1
  funext a
  dsimp only
  split_ifs <;> rfl

/-- A step takes the same branches whatever the memory holds, and stores the same bytes. -/
theorem step_withMem (σ : System) (m : ℕ → UInt8) (op : Op) :
    step (σ.withMem m) op = (step σ op).map fun τ => τ.withMem (patch (stores σ op) m) := by
  cases op with
  | init tier =>
    simp only [step, System.withMem, init_withMem]
    cases Arena.init tier σ.globals <;> rfl
  | alloc i T count =>
    simp only [step, System.withMem]
    cases σ.live[i]? with
    | none => rfl
    | some h =>
      simp only [alloc_withMem]
      cases h.arena.alloc T count σ.globals <;> rfl
  | write tier i k offset bytes =>
    cases hi : σ.live[i]? with
    | none => simp only [step, System.withMem, hi, Option.map_none]
    | some h =>
      cases hk : h.slices[k]? with
      | none => simp only [step, System.withMem, hi, hk, Option.map_none]
      | some sl =>
        simp only [step, System.withMem, stores, hi, hk, Option.bind_some, store_withMem]
        split_ifs <;> rfl
  | deinit i =>
    simp only [step, System.withMem, Arena.deinit]
    cases σ.live[i]? with
    | none => rfl
    | some h =>
      dsimp only
      cases h.arena.tier <;> rfl
  | deinitAndZero i =>
    cases hi : σ.live[i]? with
    | none => simp only [step, System.withMem, hi, Option.map_none]
    | some h =>
      simp only [step, System.withMem, hi, stores, Arena.deinitAndZero]
      cases ht : h.arena.tier with
      | trusted =>
        simp only [Globals.blocks_withMem, avx2ZeroBlock_withMem, true_and]
        rfl
      | untrusted => rfl
  | incrementGeneration => rfl
  | sanitizeOne currentGen =>
    simp only [step, System.withMem, sanitizeOne, popSafe_withMem, stores]
    cases (QuarantinePool.popSafe σ.globals currentGen : Zig.Outcome ArenaError _) with
    | err e => rfl
    | trap f => rfl
    | ok r =>
      cases r with
      | none => rfl
      | some r =>
        obtain ⟨b, s⟩ := r
        simp only [Zig.Outcome.ok_bind, Zig.Outcome.pure_eq, Option.map_some,
          Globals.blocks_withMem, avx2ZeroBlock_withMem]
        rfl

/-- What a step leaves in memory. -/
theorem step_mem {σ τ : System} {op : Op} (h : step σ op = some τ) :
    τ.globals.mem = patch (stores σ op) σ.globals.mem := by
  have hcommute := step_withMem σ σ.globals.mem op
  rw [System.withMem_self, h] at hcommute
  exact congrArg (fun τ => τ.globals.mem) (Option.some.inj hcommute)

/-- A write stores into its part of the slice only. -/
theorem stores_write {σ : System} {tier : SecurityTier} {i k offset : ℕ} {bytes : List UInt8}
    {h : Handle} {sl : Slice} {a : ℕ} (hi : σ.live[i]? = some h) (hk : h.slices[k]? = some sl)
    (ha : stores σ (.write tier i k offset bytes) a ≠ none) :
    sl.ptr + offset ≤ a ∧ a < sl.ptr + offset + bytes.length := by
  by_contra hout
  apply ha
  simp only [stores, hi, hk, Option.bind_some]
  split_ifs with hle
  · exact List.getElem?_eq_none (by omega)
  · rfl

end LingNet.Gqap
