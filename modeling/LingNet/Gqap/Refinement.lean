import LingNet.Gqap.System

/-! The pools refine a custody model: each client action is one of the transitions below,
which say what happens to the process and to the stacks the free lists represent. -/
namespace LingNet.Gqap
open Function

abbrev Holdings := Custody.State PoolId SecurityTier BlockId

/-- Which pool feeds which tier, where a tier hands its blocks back to, and the
sanitizer's transfer. -/
def tierPolicy : Custody.Policy PoolId SecurityTier where
  serves p t := p = .common ∨ t = .untrusted
  returns t p := (t = .trusted ↔ p = .common)
  transfers p q := p = .quarantine ∧ q = .l2

def System.heldBlocks (σ : System) : List (SecurityTier × BlockId) :=
  σ.live.map fun h => (h.arena.tier, h.arena.block)

/-- Everything a client action can do, with the pools seen as stacks. -/
inductive Transition (σ : System) (c : Holdings) : Op → System → Holdings → Prop where
  | initExhausted (tier : SecurityTier) : Transition σ c (.init tier) σ c
  | initTrusted {b : BlockId} {l : List BlockId} (hp : c.stack .common = b :: l) :
      Transition σ c (.init .trusted)
        ⟨(σ.globals.unlink .common b).setFlags b {},
          ⟨⟨.trusted, b, σ.globals.currentGeneration, 0⟩, []⟩ :: σ.live⟩
        ⟨update c.stack .common l, (.trusted, b) :: c.held⟩
  | initFromL2 {b : BlockId} {l : List BlockId} (hp : c.stack .l2 = b :: l) :
      Transition σ c (.init .untrusted)
        ⟨(σ.globals.unlink .l2 b).setFlags b { zeroed := true },
          ⟨⟨.untrusted, b, σ.globals.currentGeneration, 0⟩, []⟩ :: σ.live⟩
        ⟨update c.stack .l2 l, (.untrusted, b) :: c.held⟩
  | initFromCommon {b : BlockId} {l : List BlockId} (hl2 : c.stack .l2 = [])
      (hp : c.stack .common = b :: l) :
      Transition σ c (.init .untrusted)
        ⟨((σ.globals.unlink .common b).setFlags b {}).setFlags b { dirty := true },
          ⟨⟨.untrusted, b, σ.globals.currentGeneration, 0⟩, []⟩ :: σ.live⟩
        ⟨update c.stack .common l, (.untrusted, b) :: c.held⟩
  | initFromQuarantine {b : BlockId} {l : List BlockId} (hl2 : c.stack .l2 = [])
      (hcommon : c.stack .common = []) (hp : c.stack .quarantine = b :: l)
      (hfit : (σ.globals.blocks b).retiredGen + 1 < Zig.usizeEnd)
      (hdue : (σ.globals.blocks b).retiredGen + 1 < σ.globals.currentGeneration) :
      Transition σ c (.init .untrusted)
        ⟨(σ.globals.unlink .quarantine b).setFlags b { zeroed := true, quarantined := false },
          ⟨⟨.untrusted, b, σ.globals.currentGeneration, 0⟩, []⟩ :: σ.live⟩
        ⟨update c.stack .quarantine l, (.untrusted, b) :: c.held⟩
  | allocFull (i : ℕ) (T : ElemType) (count : ℕ) : Transition σ c (.alloc i T count) σ c
  | alloc {i : ℕ} {T : ElemType} {count : ℕ} {h : Handle} {sl : Slice} {a : Arena} {s : Globals}
      (hi : σ.live[i]? = some h) (ha : h.arena.alloc T count σ.globals = .ok (sl, a, s)) :
      Transition σ c (.alloc i T count) ⟨s, σ.live.set i ⟨a, sl :: h.slices⟩⟩ c
  | write {i k offset : ℕ} {bytes : List UInt8} {h : Handle} {sl : Slice}
      (hi : σ.live[i]? = some h) (hk : h.slices[k]? = some sl)
      (hfit : offset + bytes.length ≤ sl.len) :
      Transition σ c (.write h.arena.tier i k offset bytes)
        { σ with globals := σ.globals.store (sl.ptr + offset) bytes } c
  | deinitTrusted {i : ℕ} {h : Handle} (hi : σ.live[i]? = some h)
      (ht : h.arena.tier = .trusted) :
      Transition σ c (.deinit i)
        ⟨σ.globals.link .common h.arena.block, σ.live.eraseIdx i⟩
        ⟨update c.stack .common (h.arena.block :: c.stack .common), c.held.eraseIdx i⟩
  | deinitUntrusted {i : ℕ} {h : Handle} (hi : σ.live[i]? = some h)
      (ht : h.arena.tier = .untrusted) :
      Transition σ c (.deinit i)
        ⟨(σ.globals.retire h.arena.block σ.globals.currentGeneration).link .quarantine
          h.arena.block, σ.live.eraseIdx i⟩
        ⟨update c.stack .quarantine (h.arena.block :: c.stack .quarantine), c.held.eraseIdx i⟩
  | zeroTrusted {i : ℕ} {h : Handle} (hi : σ.live[i]? = some h) (ht : h.arena.tier = .trusted) :
      Transition σ c (.deinitAndZero i)
        ⟨(σ.globals.avx2ZeroBlock (σ.globals.blocks h.arena.block).memory
          (σ.globals.blocks h.arena.block).capacity).link .common h.arena.block,
          σ.live.eraseIdx i⟩
        ⟨update c.stack .common (h.arena.block :: c.stack .common), c.held.eraseIdx i⟩
  | zeroUntrusted {i : ℕ} {h : Handle} (hi : σ.live[i]? = some h)
      (ht : h.arena.tier = .untrusted) :
      Transition σ c (.deinitAndZero i)
        ⟨((σ.globals.setFlags h.arena.block
          { (σ.globals.blocks h.arena.block).flags with zeroed := true }).setFlags h.arena.block
          { zeroed := true }).link .l2 h.arena.block, σ.live.eraseIdx i⟩
        ⟨update c.stack .l2 (h.arena.block :: c.stack .l2), c.held.eraseIdx i⟩
  | increment : Transition σ c .incrementGeneration
      { σ with globals := Gqap.incrementGeneration σ.globals } c
  | sanitizeIdle {currentGen : ℕ}
      (hidle : (QuarantinePool.popSafe σ.globals currentGen : Zig.Outcome ArenaError _) = .ok none) :
      Transition σ c (.sanitizeOne currentGen) σ c
  | sanitize {currentGen : ℕ} {b : BlockId} {l : List BlockId} (hp : c.stack .quarantine = b :: l)
      (hfit : (σ.globals.blocks b).retiredGen + 1 < Zig.usizeEnd)
      (hdue : (σ.globals.blocks b).retiredGen + 1 < currentGen) :
      Transition σ c (.sanitizeOne currentGen)
        ⟨{ (((((σ.globals.unlink .quarantine b).avx2ZeroBlock (σ.globals.blocks b).memory
            (σ.globals.blocks b).capacity).setFlags b
            { zeroed := true, quarantined := false }).setFlags b { zeroed := true }).link .l2 b) with
            totalSanitized := Zig.wrappingAdd σ.globals.totalSanitized 1 }, σ.live⟩
        ⟨update (update c.stack .quarantine l) .l2 (b :: c.stack .l2), c.held⟩

theorem popHead_eq {s : Globals} {st : PoolId → List BlockId} (hinit : s.poolsInitialized = true)
    (hr : s.links.Represents st) (p : PoolId) (f : BlockFlags) :
    (s.popHead p f = none ∧ st p = []) ∨
      ∃ b l, st p = b :: l ∧ s.popHead p f = some (b, (s.unlink p b).setFlags b f) := by
  cases hhead : (s.pool p).head with
  | none => exact .inl ⟨(Globals.popHead_eq_none_iff hinit p f).mpr hhead, hr.head_eq_none.mp hhead⟩
  | some b =>
    obtain ⟨l, hl⟩ := hr.head_eq_some (p := p) hhead
    exact .inr ⟨b, l, hl, by simp [Globals.popHead, hinit, hhead]⟩

/-- `popSafe` gives up, traps, or takes the head of a block that is due. -/
theorem popSafe_eq {ε : Type} {s : Globals} {st : PoolId → List BlockId}
    (hr : s.links.Represents st) (gen : ℕ) :
    (QuarantinePool.popSafe s gen : Zig.Outcome ε _) = .ok none ∨
      (QuarantinePool.popSafe s gen : Zig.Outcome ε _) = .trap .integerOverflow ∨
      ∃ b l, st .quarantine = b :: l ∧ (s.blocks b).retiredGen + 1 < Zig.usizeEnd ∧
        (s.blocks b).retiredGen + 1 < gen ∧
        (QuarantinePool.popSafe s gen : Zig.Outcome ε _) =
          .ok (some (b, s.unlink .quarantine b)) := by
  cases hhead : (s.pool .quarantine).head with
  | none => exact .inl (by simp [QuarantinePool.popSafe, hhead])
  | some b =>
    obtain ⟨l, hl⟩ := hr.head_eq_some (p := .quarantine) hhead
    by_cases hfit : (s.blocks b).retiredGen + 1 < Zig.usizeEnd
    · by_cases hdue : gen ≤ (s.blocks b).retiredGen + 1
      · exact .inl (by simp [QuarantinePool.popSafe, hhead, Zig.add, hfit, hdue])
      · refine .inr (.inr ⟨b, l, hl, hfit, by omega, ?_⟩)
        simp [QuarantinePool.popSafe, hhead, Zig.add, hfit, hdue]
    · exact .inr (.inl (by simp [QuarantinePool.popSafe, hhead, Zig.add, hfit]))

/-! Inversion: a step that is possible is one of the transitions. -/

section Inversion

variable {σ σ' : System} {c : Holdings} {i : ℕ}

theorem transition_of_initTrusted (hinit : σ.globals.poolsInitialized = true)
    (hr : σ.globals.links.Represents c.stack) (h : step σ (.init .trusted) = some σ') :
    ∃ c', Transition σ c (.init .trusted) σ' c' := by
  rcases popHead_eq hinit hr .common {} with ⟨hpop, _⟩ | ⟨b, l, hl, hpop⟩
  · simp only [step, Arena.init, CommonPool.pop, hpop] at h
    cases h
    exact ⟨c, .initExhausted .trusted⟩
  · simp only [step, Arena.init, CommonPool.pop, hpop] at h
    cases h
    exact ⟨_, .initTrusted hl⟩

/-- The pools are asked in order: the `L2` pool, the common pool, the quarantine. -/
theorem transition_of_initUntrusted (hinit : σ.globals.poolsInitialized = true)
    (hr : σ.globals.links.Represents c.stack) (h : step σ (.init .untrusted) = some σ') :
    ∃ c', Transition σ c (.init .untrusted) σ' c' := by
  rcases popHead_eq hinit hr .l2 { zeroed := true } with ⟨hpop, hl2⟩ | ⟨b, l, hl, hpop⟩
  swap
  · simp only [step, Arena.init, L2Pool.pop, hpop] at h
    cases h
    exact ⟨_, .initFromL2 hl⟩
  rcases popHead_eq hinit hr .common {} with ⟨hpopc, hcommon⟩ | ⟨b, l, hl, hpopc⟩
  swap
  · simp only [step, Arena.init, L2Pool.pop, CommonPool.pop, hpop, hpopc,
      Globals.flags_setFlags_self] at h
    cases h
    exact ⟨_, .initFromCommon hl2 hl⟩
  rcases popSafe_eq (ε := ArenaError) hr σ.globals.currentGeneration with
    hq | hq | ⟨b, l, hl, hfit, hdue, hq⟩
  · simp only [step, Arena.init, L2Pool.pop, CommonPool.pop, hpop, hpopc, hq,
      Zig.Outcome.ok_bind] at h
    cases h
    exact ⟨c, .initExhausted .untrusted⟩
  · simp [step, Arena.init, L2Pool.pop, CommonPool.pop, hpop, hpopc, hq] at h
  · simp only [step, Arena.init, L2Pool.pop, CommonPool.pop, hpop, hpopc, hq,
      Zig.Outcome.ok_bind] at h
    cases h
    exact ⟨_, .initFromQuarantine hl2 hcommon hl hfit hdue⟩

theorem transition_of_alloc {T : ElemType} {count : ℕ}
    (h : step σ (.alloc i T count) = some σ') : ∃ c', Transition σ c (.alloc i T count) σ' c' := by
  cases hi : σ.live[i]? with
  | none => simp [step, hi] at h
  | some hd =>
    cases ha : hd.arena.alloc T count σ.globals with
    | ok r =>
      simp only [step, hi, ha] at h
      cases h
      exact ⟨c, .alloc hi ha⟩
    | err e =>
      simp only [step, hi, ha] at h
      cases h
      exact ⟨c, .allocFull i T count⟩
    | trap f => simp [step, hi, ha] at h

theorem transition_of_write {tier : SecurityTier} {k offset : ℕ} {bytes : List UInt8}
    (h : step σ (.write tier i k offset bytes) = some σ') :
    ∃ c', Transition σ c (.write tier i k offset bytes) σ' c' := by
  cases hi : σ.live[i]? with
  | none => simp [step, hi] at h
  | some hd =>
    cases hk : hd.slices[k]? with
    | none => simp [step, hi, hk] at h
    | some sl =>
      simp only [step, hi, hk] at h
      split_ifs at h with hfit
      cases h
      obtain ⟨rfl, hfit⟩ := hfit
      exact ⟨c, .write hi hk hfit⟩

theorem transition_of_deinit (h : step σ (.deinit i) = some σ') :
    ∃ c', Transition σ c (.deinit i) σ' c' := by
  cases hi : σ.live[i]? with
  | none => simp [step, hi] at h
  | some hd =>
    cases ht : hd.arena.tier with
    | trusted =>
      simp only [step, hi, Arena.deinit, ht] at h
      cases h
      exact ⟨_, .deinitTrusted hi ht⟩
    | untrusted =>
      simp only [step, hi, Arena.deinit, ht] at h
      cases h
      exact ⟨_, .deinitUntrusted hi ht⟩

theorem transition_of_deinitAndZero (h : step σ (.deinitAndZero i) = some σ') :
    ∃ c', Transition σ c (.deinitAndZero i) σ' c' := by
  cases hi : σ.live[i]? with
  | none => simp [step, hi] at h
  | some hd =>
    cases ht : hd.arena.tier with
    | trusted =>
      simp only [step, hi, Arena.deinitAndZero, ht] at h
      cases h
      exact ⟨_, .zeroTrusted hi ht⟩
    | untrusted =>
      simp only [step, hi, Arena.deinitAndZero, ht] at h
      cases h
      exact ⟨_, .zeroUntrusted hi ht⟩

theorem transition_of_sanitizeOne {currentGen : ℕ} (hr : σ.globals.links.Represents c.stack)
    (h : step σ (.sanitizeOne currentGen) = some σ') :
    ∃ c', Transition σ c (.sanitizeOne currentGen) σ' c' := by
  rcases popSafe_eq (ε := ArenaError) hr currentGen with
    hq | hq | ⟨b, l, hl, hfit, hdue, hq⟩
  · simp only [step, sanitizeOne, hq, Zig.Outcome.ok_bind, Zig.Outcome.pure_eq] at h
    cases h
    exact ⟨c, .sanitizeIdle hq⟩
  · simp [step, sanitizeOne, hq] at h
  · simp only [step, sanitizeOne, hq, Zig.Outcome.ok_bind, Zig.Outcome.pure_eq] at h
    cases h
    exact ⟨_, .sanitize hl hfit hdue⟩

theorem transition_of_step {op : Op} (hinit : σ.globals.poolsInitialized = true)
    (hr : σ.globals.links.Represents c.stack) (h : step σ op = some σ') :
    ∃ c', Transition σ c op σ' c' := by
  cases op with
  | init tier =>
    cases tier with
    | trusted => exact transition_of_initTrusted hinit hr h
    | untrusted => exact transition_of_initUntrusted hinit hr h
  | alloc i T count => exact transition_of_alloc h
  | write tier i k offset bytes => exact transition_of_write h
  | deinit i => exact transition_of_deinit h
  | deinitAndZero i => exact transition_of_deinitAndZero h
  | incrementGeneration =>
    cases h
    exact ⟨c, .increment⟩
  | sanitizeOne currentGen => exact transition_of_sanitizeOne hr h

end Inversion

end LingNet.Gqap
