import LingNet.Gqap.Tiers

/-! When the `zeroed` flag tells the truth. Four paths set it; two of them, the untrusted
`deinitAndZero` and the quarantine fallback of `Arena.init`, clear nothing. -/
namespace LingNet.Gqap
open Function

/-- All bytes of the block are zero. -/
def Zeroed (s : Globals) (b : BlockId) : Prop :=
  ∀ a, (s.blocks b).memory ≤ a → a < (s.blocks b).memory + (s.blocks b).capacity → s.mem a = 0

/-- After the step every block of the `L2` pool is zero, and so is the block that an
untrusted `init` just returned with the flag set. -/
def ZeroedHonest (σ : System) (op : Op) : Prop :=
  ∀ σ', step σ op = some σ' →
    (∀ b, Chain.Reaches (fun b => (σ'.globals.blocks b).poolNext) (σ'.globals.pool .l2).head b →
      Zeroed σ'.globals b) ∧
    (op = .init .untrusted → ∀ h, σ'.live = h :: σ.live →
      (σ'.globals.blocks h.arena.block).flags.zeroed = true → Zeroed σ'.globals h.arena.block)

/-- Before the step: a block that is about to be called zero without being cleared is zero. -/
def ZeroingBacked (σ : System) : Op → Prop
  | .init .untrusted => ∀ b, (σ.globals.pool .l2).head = none →
      (σ.globals.pool .common).head = none → (σ.globals.pool .quarantine).head = some b →
      (σ.globals.blocks b).retiredGen + 1 < σ.globals.currentGeneration → Zeroed σ.globals b
  | .deinitAndZero i => ∀ h, σ.live[i]? = some h → h.arena.tier = .untrusted →
      Zeroed σ.globals h.arena.block
  | _ => True

theorem Zeroed.congr {s s' : Globals} {b : BlockId} (hz : Zeroed s b)
    (hmemory : (s'.blocks b).memory = (s.blocks b).memory)
    (hcapacity : (s'.blocks b).capacity = (s.blocks b).capacity)
    (hmem : ∀ a, s.mem a = 0 → s'.mem a = 0) : Zeroed s' b := by
  intro a hlo hhi
  rw [hmemory] at hlo hhi
  rw [hcapacity] at hhi
  exact hmem a (hz a hlo hhi)

theorem zeroed_avx2ZeroBlock (s : Globals) (b : BlockId) :
    Zeroed (s.avx2ZeroBlock (s.blocks b).memory (s.blocks b).capacity) b := by
  intro a hlo hhi
  exact if_pos ⟨hlo, hhi⟩

theorem avx2ZeroBlock_zero (s : Globals) (ptr len : ℕ) {a : ℕ} (h : s.mem a = 0) :
    (s.avx2ZeroBlock ptr len).mem a = 0 := by
  change (if ptr ≤ a ∧ a < ptr + len then (0 : UInt8) else s.mem a) = 0
  split_ifs
  · rfl
  · exact h

theorem store_of_outside (s : Globals) {ptr a : ℕ} {bytes : List UInt8}
    (h : a < ptr ∨ ptr + bytes.length ≤ a) : (s.store ptr bytes).mem a = s.mem a := by
  change (if ptr ≤ a then (bytes[a - ptr]?).getD (s.mem a) else s.mem a) = s.mem a
  split_ifs with hle
  · have hnone : bytes[a - ptr]? = none := List.getElem?_eq_none (by omega)
    rw [hnone, Option.getD_none]
  · rfl

/-- Blocks do not overlap. -/
theorem block_of_address {backing blockSize a : ℕ} {b b' : BlockId}
    (hlo : backing + b * blockSize ≤ a) (hhi : a < backing + b * blockSize + blockSize)
    (hlo' : backing + b' * blockSize ≤ a) (hhi' : a < backing + b' * blockSize + blockSize) :
    b = b' := by
  by_contra hne
  rcases Nat.lt_or_gt_of_ne hne with hlt | hlt
  · have hmul := Nat.mul_le_mul_right blockSize (Nat.succ_le_of_lt hlt)
    rw [Nat.succ_mul] at hmul
    omega
  · have hmul := Nat.mul_le_mul_right blockSize (Nat.succ_le_of_lt hlt)
    rw [Nat.succ_mul] at hmul
    omega

/-- A write through a slice of a live arena misses every block the arena does not hold. -/
theorem Wf.store_outside {backing blockCount blockSize : ℕ} {σ : System} {c : Holdings}
    (w : Wf backing blockCount blockSize σ c) {h : Handle} (hh : h ∈ σ.live) {sl : Slice}
    (hsl : sl ∈ h.slices) {offset : ℕ} {bytes : List UInt8}
    (hfit : offset + bytes.length ≤ sl.len) {b : BlockId} (hb : b ≠ h.arena.block) {a : ℕ}
    (hlo : (σ.globals.blocks b).memory ≤ a)
    (hhi : a < (σ.globals.blocks b).memory + (σ.globals.blocks b).capacity) :
    (σ.globals.store (sl.ptr + offset) bytes).mem a = σ.globals.mem a := by
  apply store_of_outside
  by_contra hin
  obtain ⟨hptr, hend⟩ := w.slices h hh sl hsl
  rw [w.memory] at hlo hhi
  rw [w.capacity] at hhi
  exact hb (block_of_address hlo hhi (by omega) (by omega))

/-- The invariant: every block of the `L2` pool is zero. -/
def L2Zeroed (σ : System) (c : Holdings) : Prop := ∀ b ∈ c.stack .l2, Zeroed σ.globals b

theorem Transition.l2Zeroed {backing blockCount blockSize : ℕ} {σ σ' : System} {c c' : Holdings}
    {op : Op} (w : Wf backing blockCount blockSize σ c) (hz : L2Zeroed σ c)
    (hbacked : ZeroingBacked σ op) (t : Transition σ c op σ' c') : L2Zeroed σ' c' := by
  -- on a block that stays in the pool, only the bytes matter
  have hkeep : ∀ b ∈ c.stack .l2, (∀ a, σ.globals.mem a = 0 → σ'.globals.mem a = 0) →
      Zeroed σ'.globals b := fun b hb hmem =>
    (hz b hb).congr (t.geometry b).1 (t.geometry b).2 hmem
  intro b hb
  cases t with
  | initTrusted | initFromCommon | initFromQuarantine =>
    exact hkeep b (by simpa using hb) fun a ha => ha
  | initFromL2 hp =>
    refine hkeep b ?_ fun a ha => ha
    rw [hp]
    exact List.mem_cons_of_mem _ (by simpa using hb)
  | alloc hi ha =>
    obtain ⟨_, _, _, _, rfl⟩ := Arena.alloc_eq_ok ha
    exact hkeep b hb fun a ha => by simpa using ha
  | @write i k offset bytes h sl hi hk hfit =>
    have hh := List.mem_of_getElem? hi
    have hne : b ≠ h.arena.block := by
      rintro rfl
      exact Custody.State.not_mem_stack_of_held w.nodup (mem_held w.held hh) .l2 hb
    intro a hlo hhi
    change (σ.globals.store (sl.ptr + offset) bytes).mem a = 0
    rw [w.store_outside hh (List.mem_of_getElem? hk) hfit hne hlo hhi]
    exact hz b hb a hlo hhi
  | deinitTrusted | deinitUntrusted =>
    exact hkeep b (by simpa using hb) fun a ha => ha
  | zeroTrusted =>
    exact hkeep b (by simpa using hb) fun a ha => avx2ZeroBlock_zero _ _ _ ha
  | @zeroUntrusted i h hi ht =>
    have hb' : b = h.arena.block ∨ b ∈ c.stack .l2 := by simpa using hb
    rcases hb' with rfl | hb'
    · have hblock := hbacked h hi ht
      exact hblock.congr (by simp) (by simp) fun a ha => ha
    · exact hkeep b hb' fun a ha => ha
  | @sanitize gen b' l hp hfit hdue =>
    have hb' : b = b' ∨ b ∈ c.stack .l2 := by simpa using hb
    rcases hb' with rfl | hb'
    · have hclear := zeroed_avx2ZeroBlock (σ.globals.unlink .quarantine b) b
      exact hclear.congr (by simp) (by simp) fun a ha => ha
    · exact hkeep b hb' fun a ha => avx2ZeroBlock_zero _ _ _ ha
  | _ => exact hkeep b hb fun a ha => ha

/-- The block an untrusted `init` returns with the flag set is zero. -/
theorem Transition.init_zeroed {σ σ' : System} {c c' : Holdings} (hr : σ.globals.links.Represents
    c.stack) (hz : L2Zeroed σ c) (hbacked : ZeroingBacked σ (.init .untrusted))
    (t : Transition σ c (.init .untrusted) σ' c') {h : Handle} (hlive : σ'.live = h :: σ.live)
    (hflag : (σ'.globals.blocks h.arena.block).flags.zeroed = true) :
    Zeroed σ'.globals h.arena.block := by
  cases t with
  | initExhausted =>
    have hlen := congrArg List.length hlive
    rw [List.length_cons] at hlen
    omega
  | @initFromL2 b l hp =>
    obtain ⟨rfl, _⟩ := List.cons.inj hlive
    have hb := hz b (by rw [hp]; exact List.mem_cons_self)
    exact hb.congr (by simp) (by simp) fun a ha => ha
  | initFromCommon hl2 hp =>
    obtain ⟨rfl, _⟩ := List.cons.inj hlive
    simp at hflag
  | @initFromQuarantine b l hl2 hcommon hp hfit hdue =>
    obtain ⟨rfl, _⟩ := List.cons.inj hlive
    have hhead : (σ.globals.pool .quarantine).head = some b := by
      have hq := hr .quarantine
      rw [hp] at hq
      exact hq.1
    have hb := hbacked b (hr.head_eq_none.mpr hl2) (hr.head_eq_none.mpr hcommon) hhead hdue
    exact hb.congr (by simp) (by simp) fun a ha => ha

theorem step_initFromQuarantine {σ : System} (hinit : σ.globals.poolsInitialized = true) {b : BlockId}
    (hl2 : (σ.globals.pool .l2).head = none) (hcommon : (σ.globals.pool .common).head = none)
    (hq : (σ.globals.pool .quarantine).head = some b)
    (hfit : (σ.globals.blocks b).retiredGen + 1 < Zig.usizeEnd)
    (hdue : (σ.globals.blocks b).retiredGen + 1 < σ.globals.currentGeneration) :
    step σ (.init .untrusted) = some
      ⟨(σ.globals.unlink .quarantine b).setFlags b { zeroed := true, quarantined := false },
        ⟨⟨.untrusted, b, σ.globals.currentGeneration, 0⟩, []⟩ :: σ.live⟩ := by
  simp [step, Arena.init, L2Pool.pop, CommonPool.pop, Globals.popHead, QuarantinePool.popSafe,
    hinit, hl2, hcommon, hq, Zig.add, hfit, Nat.not_le.mpr hdue]

/-- Exactly the unbacked flags lie. -/
theorem zeroedHonest_iff_backed {backing blockCount blockSize : ℕ} {σ : System} {c : Holdings}
    (w : Wf backing blockCount blockSize σ c) (hz : L2Zeroed σ c) (op : Op) :
    ZeroedHonest σ op ↔ ZeroingBacked σ op := by
  constructor
  · intro hhonest
    cases op with
    | init tier =>
      cases tier with
      | trusted => trivial
      | untrusted =>
        intro b hl2 hcommon hq hdue
        have hfit := hdue.trans w.generation
        have hstep := step_initFromQuarantine w.initialized hl2 hcommon hq hfit hdue
        have hblock := (hhonest _ hstep).2 rfl _ rfl (by simp)
        exact hblock.congr (by simp) (by simp) fun a ha => ha
    | deinitAndZero i =>
      intro h hi ht
      have hstep : step σ (.deinitAndZero i) =
          some ⟨h.arena.deinitAndZero σ.globals, σ.live.eraseIdx i⟩ := by
        simp only [step, hi]
      have hdeinit : h.arena.deinitAndZero σ.globals = ((σ.globals.setFlags h.arena.block
          { (σ.globals.blocks h.arena.block).flags with zeroed := true }).setFlags h.arena.block
          { zeroed := true }).link .l2 h.arena.block := by
        simp only [Arena.deinitAndZero, ht, L2Pool.push]
      rw [hdeinit] at hstep
      have hblock := (hhonest _ hstep).1 h.arena.block
        ⟨h.arena.block, by simp [Globals.link], .refl⟩
      exact hblock.congr (by simp) (by simp) fun a ha => ha
    | _ => trivial
  · intro hbacked σ' hstep
    obtain ⟨c', t, w'⟩ := w.step hstep
    refine ⟨fun b hb => ?_, ?_⟩
    · exact t.l2Zeroed w hz hbacked b ((w'.represents .l2).mem_iff.mpr hb)
    · rintro rfl h hlive hflag
      exact t.init_zeroed w.represents hz hbacked hlive hflag

/-- In every run the `zeroed` flag is honest at every step if and only if no step sets it on
a block with a non-zero byte. -/
theorem zeroed_flag_truth {mapping : Option ℕ} {table : Bool} {blockCount blockSize : ℕ}
    {s : Globals} (hs : initPools mapping table blockCount blockSize = .ok s) (ops : List Op) :
    Run.AllSteps step ZeroedHonest (booted s) ops ↔
      Run.AllSteps step ZeroingBacked (booted s) ops := by
  obtain ⟨backing, w⟩ := booted_wf hs
  refine Run.allSteps_congr
    (I := fun σ => ∃ c, Wf backing blockCount blockSize σ c ∧ L2Zeroed σ c)
    (fun σ op ⟨c, w, hz⟩ => zeroedHonest_iff_backed w hz op) ?_
    ⟨_, w, fun b hb => by cases hb⟩
  rintro σ op σ' ⟨c, w, hz⟩ hbacked hstep
  obtain ⟨c', t, w'⟩ := w.step hstep
  exact ⟨c', w', t.l2Zeroed w hz hbacked⟩

theorem zeroed_flag_truth_sanitized :
    Run.AllSteps step ZeroedHonest (booted (initialGlobals 4096 1 64))
        [.init .untrusted, .alloc 0 .u8 1, .write .untrusted 0 0 0 [7], .deinit 0,
          .incrementGeneration, .incrementGeneration, .sanitizeOne 3, .init .untrusted] ↔
      Run.AllSteps step ZeroingBacked (booted (initialGlobals 4096 1 64))
        [.init .untrusted, .alloc 0 .u8 1, .write .untrusted 0 0 0 [7], .deinit 0,
          .incrementGeneration, .incrementGeneration, .sanitizeOne 3, .init .untrusted] := by
  have hs : initPools (some 4096) true 1 64 = .ok (initialGlobals 4096 1 64) := rfl
  exact zeroed_flag_truth hs _

/-- A byte written by an untrusted skill survives both the synchronous zeroing of its arena
and the quarantine fallback, with the flag set. -/
theorem zeroed_flag_lies :
    (∃ σ, run (booted (initialGlobals 4096 1 64))
        [.init .untrusted, .alloc 0 .u8 1, .write .untrusted 0 0 0 [7], .deinitAndZero 0] = some σ ∧
      (σ.globals.pool .l2).head = some 0 ∧ (σ.globals.blocks 0).flags.zeroed = true ∧
      ¬ Zeroed σ.globals 0) ∧
    ∃ σ h, run (booted (initialGlobals 4096 1 64))
        [.init .untrusted, .alloc 0 .u8 1, .write .untrusted 0 0 0 [7], .deinit 0,
          .incrementGeneration, .incrementGeneration, .init .untrusted] = some σ ∧
      σ.live = [h] ∧ h.arena.block = 0 ∧ (σ.globals.blocks 0).flags.zeroed = true ∧
      ¬ Zeroed σ.globals 0 := by
  refine ⟨⟨_, rfl, rfl, rfl, fun hz => ?_⟩, ⟨_, _, rfl, rfl, rfl, rfl, fun hz => ?_⟩⟩
  · have hbyte := hz 4096 (by decide) (by decide)
    exact absurd hbyte (by decide)
  · have hbyte := hz 4096 (by decide) (by decide)
    exact absurd hbyte (by decide)

end LingNet.Gqap
