import LingNet.Lib.Amortized
import LingNet.Gqap.Conservation

/-! What `getStats` tells. The figures add up to all blocks, and what is free or held in the trusted
tier is what there was at first, less one block for each untrusted arena that was served from the
common pool. -/
namespace LingNet.Gqap
open Function

/-- The untrusted arenas that take a block of the trusted tier away. -/
def crosses (σ : System) : Op → ℕ
  | .init .untrusted =>
    if (σ.globals.pool .l2).head = none ∧ (σ.globals.pool .common).head ≠ none then 1 else 0
  | _ => 0

/-- The rounds of the sanitizer that find a block. -/
def sanitizes (σ : System) : Op → ℕ
  | .sanitizeOne currentGen =>
    match (sanitizeOne σ.globals currentGen : Zig.Outcome ArenaError _) with
    | .ok (true, _) => 1
    | _ => 0
  | _ => 0

def isTrusted (h : Handle) : Bool := h.arena.tier = .trusted

/-- The blocks that are free for trusted arenas or held by them. -/
def trustedCapacity (σ : System) : ℕ := (getStats σ.globals).commonFree + σ.live.countP isTrusted

theorem countP_eraseIdx {α : Type*} {p : α → Bool} {l : List α} {i : ℕ} {a : α}
    (h : l[i]? = some a) : (l.eraseIdx i).countP p + (if p a then 1 else 0) = l.countP p := by
  rw [(Custody.perm_cons_eraseIdx h).countP_eq, List.countP_cons]

theorem countP_isTrusted (σ : System) :
    σ.live.countP isTrusted = σ.heldBlocks.countP (·.1 = .trusted) := by
  unfold System.heldBlocks
  rw [List.countP_map]
  rfl

section Steps

variable {backing blockCount blockSize : ℕ} {σ σ' : System} {c c' : Holdings} {op : Op}

theorem Wf.commonFree (w : Wf backing blockCount blockSize σ c) :
    (getStats σ.globals).commonFree = (c.stack .common).length := w.counts .common

theorem crosses_eq (w : Wf backing blockCount blockSize σ c) :
    crosses σ (.init .untrusted) = if c.stack .l2 = [] ∧ c.stack .common ≠ [] then 1 else 0 := by
  have hl2 : (σ.globals.pool .l2).head = none ↔ c.stack .l2 = [] :=
    w.represents.head_eq_none
  have hcommon : (σ.globals.pool .common).head = none ↔ c.stack .common = [] :=
    w.represents.head_eq_none
  simp only [crosses, hl2, ne_eq, hcommon]

/-- A refusal comes with the common pool empty. -/
theorem common_of_refused (w : Wf backing blockCount blockSize σ c)
    (h : step σ (.init .untrusted) = some σ) : c.stack .l2 = [] → c.stack .common = [] := by
  intro hl2
  rcases popHead_eq w.initialized w.represents .common {} with ⟨-, hnil⟩ | ⟨b, l, -, hpop⟩
  · exact hnil
  · -- a block that is free is given out, and the list of live arenas grows
    rcases popHead_eq w.initialized w.represents .l2 { zeroed := true } with ⟨hpop₂, -⟩ | h₂
    · simp only [step, Arena.init, L2Pool.pop, CommonPool.pop, hpop₂, hpop, Option.some.injEq] at h
      have hlen := congrArg (fun τ : System => τ.live.length) h
      simp at hlen
    · obtain ⟨b', l', hl', -⟩ := h₂
      rw [hl2] at hl'
      cases hl'

theorem step_trustedCapacity (w : Wf backing blockCount blockSize σ c)
    (h : step σ op = some σ') : crosses σ op + trustedCapacity σ' = trustedCapacity σ := by
  obtain ⟨c', t, w'⟩ := w.step h
  unfold trustedCapacity
  rw [w.commonFree, w'.commonFree]
  cases t with
  | initExhausted tier =>
    cases tier with
    | trusted => simp [crosses]
    | untrusted =>
      rw [crosses_eq w, if_neg fun hboth => hboth.2 (common_of_refused w h hboth.1), Nat.zero_add]
  | initTrusted hp =>
    simp [crosses, hp, isTrusted]
    omega
  | initFromL2 hp => simp [crosses_eq w, hp, isTrusted]
  | initFromCommon hl2 hp =>
    simp [crosses_eq w, hl2, hp, isTrusted]
    omega
  | initFromQuarantine hl2 hcommon hp => simp [crosses_eq w, hcommon, isTrusted]
  | alloc =>
    have hheld := w'.held.symm.trans w.held
    rw [countP_isTrusted, countP_isTrusted, hheld]
    simp [crosses]
  | @deinitTrusted i hd hi ht =>
    have herase := countP_eraseIdx (p := isTrusted) hi
    simp only [isTrusted, ht, decide_true, if_true] at herase
    simp only [crosses, update_self, List.length_cons]
    omega
  | @deinitUntrusted i hd hi ht =>
    have herase := countP_eraseIdx (p := isTrusted) hi
    simp [isTrusted, ht] at herase
    simp [crosses, herase]
  | @zeroTrusted i hd hi ht =>
    have herase := countP_eraseIdx (p := isTrusted) hi
    simp only [isTrusted, ht, decide_true, if_true] at herase
    simp only [crosses, update_self, List.length_cons]
    omega
  | @zeroUntrusted i hd hi ht =>
    have herase := countP_eraseIdx (p := isTrusted) hi
    simp [isTrusted, ht] at herase
    simp [crosses, herase]
  | _ => simp [crosses]

theorem step_sanitized (h : step σ op = some σ')
    (w : Wf backing blockCount blockSize σ c) : (getStats σ'.globals).totalSanitized =
      ((getStats σ.globals).totalSanitized + sanitizes σ op) % Zig.usizeEnd ∨
      (sanitizes σ op = 0 ∧
        (getStats σ'.globals).totalSanitized = (getStats σ.globals).totalSanitized) := by
  obtain ⟨c', t, -⟩ := w.step h
  cases t with
  | @sanitize gen b l hp hfit hdue =>
    left
    have hone : sanitizes σ (.sanitizeOne gen) = 1 := by
      have hlinked := w.represents .quarantine
      rw [hp] at hlinked
      have hhead : (σ.globals.pool .quarantine).head = some b := hlinked.1
      have hnot : ¬ gen ≤ (σ.globals.blocks b).retiredGen + 1 := Nat.not_le.mpr hdue
      simp [sanitizes, sanitizeOne, QuarantinePool.popSafe, hhead, Zig.add, hfit, hnot]
    rw [hone]
    rfl
  | sanitizeIdle hidle =>
    right
    exact ⟨by simp [sanitizes, sanitizeOne, hidle], rfl⟩
  | alloc hi ha =>
    right
    obtain ⟨_, _, _, _, rfl⟩ := Arena.alloc_eq_ok ha
    refine ⟨rfl, ?_⟩
    unfold getStats Arena.markDirty
    split <;> rfl
  | _ =>
    right
    exact ⟨by simp [sanitizes], rfl⟩

theorem sanitized_of_run (ops : List Op) {τ : System} (w : Wf backing blockCount blockSize σ c)
    (hfit : (getStats σ.globals).totalSanitized < Zig.usizeEnd) (hr : run σ ops = some τ) :
    (getStats τ.globals).totalSanitized =
      ((getStats σ.globals).totalSanitized + Run.total step sanitizes σ ops) % Zig.usizeEnd := by
  induction ops generalizing σ c with
  | nil =>
    cases hr
    exact (Nat.mod_eq_of_lt hfit).symm
  | cons op ops ih =>
    obtain ⟨σ', hstep, hr⟩ := Run.run_cons_eq_some.mp hr
    obtain ⟨c', -, w'⟩ := w.step hstep
    rw [Run.total_cons_of_step hstep]
    rcases step_sanitized hstep w with hone | ⟨hzero, hsame⟩
    · have hfit' : (getStats σ'.globals).totalSanitized < Zig.usizeEnd := by
        rw [hone]
        exact Nat.mod_lt _ (by decide)
      rw [ih w' hfit' hr, hone, Nat.mod_add_mod, Nat.add_assoc]
    · have hfit' : (getStats σ'.globals).totalSanitized < Zig.usizeEnd := by
        rw [hsame]
        exact hfit
      rw [ih w' hfit' hr, hsame, hzero, Nat.zero_add]

/-- The figures of the pools and the live arenas are all blocks. -/
theorem Wf.stats_sum (w : Wf backing blockCount blockSize σ c) :
    (getStats σ.globals).commonFree + (getStats σ.globals).quarantinePending +
      (getStats σ.globals).l2Free + σ.live.length = blockCount := by
  have hcard := w.card_total
  have hheld : c.held.length = σ.live.length := by
    rw [w.held]
    simp [System.heldBlocks]
  simp only [Custody.State.total, sum_pools, Multiset.card_add, Multiset.coe_card,
    List.length_map] at hcard
  have hcommon := w.counts .common
  have hquarantine := w.counts .quarantine
  have hl2 := w.counts .l2
  simp only [getStats]
  omega

end Steps

/-- After any run the figures of `getStats` and the live arenas add up to all blocks; the trusted
tier has lost exactly one block for each untrusted arena served from the common pool, and nothing
gives one back; and the sanitized blocks have been counted, as far as the counter goes. -/
theorem stats_ledger {mapping : Option ℕ} {table : Bool} {blockCount blockSize : ℕ} {s : Globals}
    (hs : initPools mapping table blockCount blockSize = .ok s) {ops : List Op} {σ : System}
    (hr : run (booted s) ops = some σ) :
    (getStats σ.globals).commonFree + (getStats σ.globals).quarantinePending +
        (getStats σ.globals).l2Free + σ.live.length = blockCount ∧
      Run.total step crosses (booted s) ops + trustedCapacity σ = blockCount ∧
      (getStats σ.globals).totalSanitized =
        Run.total step sanitizes (booted s) ops % Zig.usizeEnd := by
  obtain ⟨backing, w₀⟩ := booted_wf hs
  obtain ⟨_, rfl, -⟩ := initPools_eq_ok hs
  obtain ⟨c, w⟩ : ∃ c, Wf backing blockCount blockSize σ c :=
    Run.invariant_of_run (I := fun σ => ∃ c, Wf backing blockCount blockSize σ c)
      (fun _ _ _ ⟨_, w⟩ hstep => (w.step hstep).imp fun _ h => h.2) ⟨_, w₀⟩ hr
  have hcapacity : Run.total step crosses (booted _) ops + trustedCapacity σ = blockCount :=
    Run.total_add_eq (I := fun σ => ∃ c, Wf backing blockCount blockSize σ c) trustedCapacity
      (fun _ _ _ ⟨_, w⟩ hstep => (w.step hstep).imp fun _ h => h.2)
      (fun _ _ _ ⟨_, w⟩ hstep => step_trustedCapacity w hstep) ⟨_, w₀⟩ hr
  have hsanitized := sanitized_of_run ops w₀ (show 0 < Zig.usizeEnd by decide) hr
  refine ⟨w.stats_sum, hcapacity, ?_⟩
  rw [hsanitized]
  exact congrArg (· % Zig.usizeEnd) (Nat.zero_add _)

theorem stats_ledger_crossing :
    ∃ σ, run (booted (initialGlobals 4096 3 64)) [.init .untrusted, .init .trusted, .deinit 1,
        .incrementGeneration, .incrementGeneration, .sanitizeOne 3, .init .untrusted] = some σ ∧
      Run.total step crosses (booted (initialGlobals 4096 3 64)) [.init .untrusted,
        .init .trusted, .deinit 1, .incrementGeneration, .incrementGeneration, .sanitizeOne 3,
        .init .untrusted] = 1 ∧
      trustedCapacity σ = 2 ∧
      (getStats σ.globals).commonFree + (getStats σ.globals).quarantinePending +
        (getStats σ.globals).l2Free + σ.live.length = 3 := by
  have hs : initPools (some 4096) true 3 64 = .ok (initialGlobals 4096 3 64) := rfl
  have hr : run (booted (initialGlobals 4096 3 64)) [.init .untrusted, .init .trusted, .deinit 1,
    .incrementGeneration, .incrementGeneration, .sanitizeOne 3, .init .untrusted] = some _ := rfl
  exact ⟨_, hr, rfl, rfl, (stats_ledger hs hr).1⟩

end LingNet.Gqap
