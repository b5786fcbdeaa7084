import LingNet.Gqap.Tiers

/-! The grace period of quarantine: a retired block waits for two generation changes. The
generation is a wrapping 64-bit counter, so the bound is on its increments. -/
namespace LingNet.Gqap
open Function

def Op.isIncrement : Op → Bool
  | .incrementGeneration => true
  | _ => false

def increments (ops : List Op) : ℕ := ops.countP Op.isIncrement

theorem increments_cons (op : Op) (ops : List Op) :
    increments (op :: ops) = (if op.isIncrement then 1 else 0) + increments ops := by
  unfold increments
  rw [List.countP_cons, Nat.add_comm]

/-- The sanitizer is called with the current generation. -/
def SanitizesNow (σ : System) : Op → Prop
  | .sanitizeOne currentGen => currentGen = currentGeneration σ.globals
  | _ => True

theorem Transition.generation_eq {σ σ' : System} {c c' : Holdings} {op : Op}
    (hgen : σ.globals.currentGeneration < Zig.usizeEnd) (t : Transition σ c op σ' c') :
    σ'.globals.currentGeneration =
      (σ.globals.currentGeneration + if op.isIncrement then 1 else 0) % Zig.usizeEnd := by
  cases t with
  | alloc hi ha =>
    obtain ⟨_, _, _, _, rfl⟩ := Arena.alloc_eq_ok ha
    simpa [Op.isIncrement] using (Nat.mod_eq_of_lt hgen).symm
  | increment => rfl
  | _ => exact (Nat.mod_eq_of_lt hgen).symm

/-- The generation counts the increments of a run, modulo the width of the counter. -/
theorem generation_of_run {backing blockCount blockSize : ℕ} (ops : List Op) {σ τ : System}
    {c : Holdings} (w : Wf backing blockCount blockSize σ c) (hr : run σ ops = some τ) :
    τ.globals.currentGeneration =
      (σ.globals.currentGeneration + increments ops) % Zig.usizeEnd := by
  induction ops generalizing σ c with
  | nil =>
    cases hr
    exact (Nat.mod_eq_of_lt w.generation).symm
  | cons op ops ih =>
    obtain ⟨σ', hstep, hr⟩ := Run.run_cons_eq_some.mp hr
    obtain ⟨c', t, w'⟩ := w.step hstep
    rw [ih w' hr, t.generation_eq w.generation, Nat.mod_add_mod, increments_cons, Nat.add_assoc]

/-- Retired at `g`, with `k` generation changes since, a block sits in quarantine. -/
structure Waiting (σ : System) (c : Holdings) (b : BlockId) (g k : ℕ) : Prop where
  quarantined : b ∈ c.stack .quarantine
  retired : (σ.globals.blocks b).retiredGen = g
  generation : σ.globals.currentGeneration = (g + k) % Zig.usizeEnd

/-- Before the second generation change `popSafe` never takes the block. -/
theorem Waiting.not_due {σ : System} {c : Holdings} {b : BlockId} {g k : ℕ}
    (hw : Waiting σ c b g k) (hk : k < 2) :
    ¬ ((σ.globals.blocks b).retiredGen + 1 < Zig.usizeEnd ∧
      (σ.globals.blocks b).retiredGen + 1 < σ.globals.currentGeneration) := by
  rintro ⟨hfit, hdue⟩
  rw [hw.retired] at hfit hdue
  have hgen : σ.globals.currentGeneration = g + k := by
    rw [hw.generation, Nat.mod_eq_of_lt (by omega)]
  omega

theorem Waiting.transition {backing blockCount blockSize : ℕ} {σ σ' : System} {c c' : Holdings}
    {op : Op} {b : BlockId} {g k : ℕ} (w : Wf backing blockCount blockSize σ c)
    (hw : Waiting σ c b g k) (hk : k < 2) (hnow : SanitizesNow σ op)
    (t : Transition σ c op σ' c') :
    Waiting σ' c' b g (k + if op.isIncrement then 1 else 0) := by
  have hnotdue := hw.not_due hk
  have hheld : ∀ {i : ℕ} {h : Handle}, σ.live[i]? = some h → b ≠ h.arena.block := by
    rintro i h hi rfl
    have hmem := mem_held w.held (List.mem_of_getElem? hi)
    exact Custody.State.not_mem_stack_of_held w.nodup hmem .quarantine hw.quarantined
  obtain ⟨hq, hr, hgen⟩ := hw
  cases t with
  | @initFromQuarantine b' l hl2 hcommon hp hfit hdue =>
    have hne : b ≠ b' := by
      rintro rfl
      exact hnotdue ⟨hfit, hdue⟩
    rw [hp] at hq
    refine ⟨?_, by simpa using hr, hgen⟩
    simpa using (List.mem_cons.mp hq).resolve_left hne
  | @sanitize gen b' l hp hfit hdue =>
    have hne : b ≠ b' := by
      rintro rfl
      rw [show gen = σ.globals.currentGeneration from hnow] at hdue
      exact hnotdue ⟨hfit, hdue⟩
    rw [hp] at hq
    refine ⟨?_, by simpa using hr, hgen⟩
    simpa using (List.mem_cons.mp hq).resolve_left hne
  | alloc hi ha =>
    obtain ⟨_, _, _, _, rfl⟩ := Arena.alloc_eq_ok ha
    exact ⟨hq, by simpa using hr, by simpa [Op.isIncrement] using hgen⟩
  | deinitUntrusted hi =>
    refine ⟨by simp [hq], ?_, hgen⟩
    rw [Globals.retiredGen_link, Globals.retiredGen_retire_of_ne _ (hheld hi)]
    exact hr
  | increment =>
    refine ⟨hq, hr, ?_⟩
    change (σ.globals.currentGeneration + 1) % Zig.usizeEnd = _
    rw [hgen, Nat.mod_add_mod, Nat.add_assoc]
    rfl
  | _ => exact ⟨by simpa using hq, by simpa using hr, hgen⟩

/-- The run rule: until the second generation change the block is in quarantine. -/
theorem Waiting.run {backing blockCount blockSize : ℕ} {b : BlockId} {g : ℕ} (ops : List Op)
    {σ τ : System} {c : Holdings} {k : ℕ} (w : Wf backing blockCount blockSize σ c)
    (hw : Waiting σ c b g k) (hk : k + increments ops < 2)
    (hnow : Run.AllSteps step SanitizesNow σ ops) (hr : run σ ops = some τ) :
    ∃ c', Wf backing blockCount blockSize τ c' ∧ b ∈ c'.stack .quarantine := by
  induction ops generalizing σ c k with
  | nil =>
    cases hr
    exact ⟨c, w, hw.quarantined⟩
  | cons op ops ih =>
    obtain ⟨σ', hstep, hr⟩ := Run.run_cons_eq_some.mp hr
    obtain ⟨c', t, w'⟩ := w.step hstep
    rw [increments_cons, ← Nat.add_assoc] at hk
    have hk₀ : k < 2 := by omega
    exact ih w' (hw.transition w hk₀ hnow.1 t) hk (hnow.2 σ' hstep) hr

/-- The deinit of an untrusted arena starts the wait. -/
theorem Transition.waiting {σ ρ : System} {c c' : Holdings} {i : ℕ} {h : Handle}
    (hi : σ.live[i]? = some h) (ht : h.arena.tier = .untrusted)
    (hgen : σ.globals.currentGeneration < Zig.usizeEnd)
    (t : Transition σ c (.deinit i) ρ c') :
    Waiting ρ c' h.arena.block σ.globals.currentGeneration 0 := by
  cases t with
  | deinitTrusted hi' ht' =>
    obtain rfl := Option.some.inj (hi.symm.trans hi')
    rw [ht] at ht'
    cases ht'
  | deinitUntrusted hi' _ =>
    obtain rfl := Option.some.inj (hi.symm.trans hi')
    exact ⟨by simp, by simp, (Nat.mod_eq_of_lt hgen).symm⟩

/-- After an untrusted arena is ended by `deinit`, its block is neither in the `L2` pool nor
in any arena before the second generation change; unless the counter has wrapped, not in any
state of a generation below the second next one. -/
theorem grace_period {mapping : Option ℕ} {table : Bool} {blockCount blockSize : ℕ} {s : Globals}
    (hs : initPools mapping table blockCount blockSize = .ok s) {past future : List Op}
    {σ ρ τ : System} (hpast : run (booted s) past = some σ) {i : ℕ} {h : Handle}
    (hi : σ.live[i]? = some h) (ht : h.arena.tier = .untrusted)
    (hend : step σ (.deinit i) = some ρ) (hfuture : run ρ future = some τ)
    (hnow : Run.AllSteps step SanitizesNow ρ future)
    (hgrace : increments future < 2 ∨
      σ.globals.currentGeneration + increments future < Zig.usizeEnd ∧
        τ.globals.currentGeneration < σ.globals.currentGeneration + 2) :
    ¬ Chain.Reaches (fun b => (τ.globals.blocks b).poolNext) (τ.globals.pool .l2).head
        h.arena.block ∧
      ∀ h' ∈ τ.live, h'.arena.block ≠ h.arena.block := by
  obtain ⟨backing, c, w⟩ := wf_of_run hs hpast
  obtain ⟨c₀, t, w₀⟩ := w.step hend
  have hw := t.waiting hi ht w.generation
  have hk : 0 + increments future < 2 := by
    rcases hgrace with hlt | ⟨hfit, hlt⟩
    · omega
    · have hρ : ρ.globals.currentGeneration = σ.globals.currentGeneration := by
        rw [t.generation_eq w.generation]
        exact Nat.mod_eq_of_lt w.generation
      have hτ := generation_of_run future w₀ hfuture
      rw [hρ, Nat.mod_eq_of_lt hfit] at hτ
      omega
  obtain ⟨c', w', hq⟩ := hw.run future w₀ hk hnow hfuture
  have hplace : c'.At h.arena.block (.pool .quarantine) := hq
  constructor
  · intro hreach
    have hl2 : c'.At h.arena.block (.pool .l2) := (w'.represents .l2).mem_iff.mpr hreach
    cases Custody.State.At.unique w'.nodup hplace hl2
  · intro h' hh' hblock
    have hheld := mem_held w'.held hh'
    rw [hblock] at hheld
    cases Custody.State.At.unique w'.nodup hplace hheld

theorem grace_period_one_increment :
    ∃ σ ρ τ, run (booted (initialGlobals 4096 1 64)) [.init .untrusted] = some σ ∧
      step σ (.deinit 0) = some ρ ∧
      run ρ [.incrementGeneration, .sanitizeOne 2, .init .untrusted] = some τ ∧
      ¬ Chain.Reaches (fun b => (τ.globals.blocks b).poolNext) (τ.globals.pool .l2).head 0 ∧
      ∀ h' ∈ τ.live, h'.arena.block ≠ 0 := by
  have hs : initPools (some 4096) true 1 64 = .ok (initialGlobals 4096 1 64) := rfl
  refine ⟨_, _, _, rfl, rfl, rfl, ?_⟩
  have hpast : run (booted (initialGlobals 4096 1 64)) [.init .untrusted] = some _ := rfl
  refine grace_period hs hpast (i := 0) rfl rfl rfl
    (show run _ [.incrementGeneration, .sanitizeOne 2, .init .untrusted] = some _ from rfl)
    ⟨trivial, fun σ hσ => ?_⟩ (.inl (by decide))
  cases hσ
  exact ⟨rfl, fun _ _ => ⟨trivial, fun _ _ => trivial⟩⟩

theorem run_replicate_increment (n : ℕ) (σ : System)
    (hgen : σ.globals.currentGeneration < Zig.usizeEnd) :
    ∃ τ, run σ (List.replicate n .incrementGeneration) = some τ ∧ τ.live = σ.live ∧
      τ.globals.currentGeneration = (σ.globals.currentGeneration + n) % Zig.usizeEnd := by
  induction n generalizing σ with
  | zero => exact ⟨σ, rfl, rfl, (Nat.mod_eq_of_lt hgen).symm⟩
  | succ n ih =>
    obtain ⟨τ, hr, hlive, hτ⟩ := ih { σ with globals := incrementGeneration σ.globals }
      (Nat.mod_lt _ (by decide))
    refine ⟨τ, hr, hlive, ?_⟩
    rw [hτ]
    change ((σ.globals.currentGeneration + 1) % Zig.usizeEnd + n) % Zig.usizeEnd = _
    rw [Nat.mod_add_mod, Nat.add_assoc, Nat.add_comm 1 n]

/-- Without the bound on the increments the counter wraps: retired at generation 1, the block
is held again by an arena in a state of generation 1. -/
theorem grace_period_wraps :
    ∃ σ ρ τ, run (booted (initialGlobals 4096 1 64)) [.init .untrusted] = some σ ∧
      σ.live = [⟨⟨.untrusted, 0, 1, 0⟩, []⟩] ∧ σ.globals.currentGeneration = 1 ∧
      step σ (.deinit 0) = some ρ ∧
      run ρ ([.incrementGeneration, .incrementGeneration, .init .untrusted] ++
        List.replicate (Zig.usizeEnd - 2) .incrementGeneration) = some τ ∧
      Run.AllSteps step SanitizesNow ρ
        ([.incrementGeneration, .incrementGeneration, .init .untrusted] ++
          List.replicate (Zig.usizeEnd - 2) .incrementGeneration) ∧
      τ.globals.currentGeneration < 1 + 2 ∧ ∃ h ∈ τ.live, h.arena.block = 0 := by
  obtain ⟨σ, ρ, σ₃, hσ, hlive, hgen, hρ, hσ₃, hlive₃, hgen₃⟩ : ∃ σ ρ σ₃,
      run (booted (initialGlobals 4096 1 64)) [.init .untrusted] = some σ ∧
      σ.live = [⟨⟨.untrusted, 0, 1, 0⟩, []⟩] ∧ σ.globals.currentGeneration = 1 ∧
      step σ (.deinit 0) = some ρ ∧
      run ρ [.incrementGeneration, .incrementGeneration, .init .untrusted] = some σ₃ ∧
      σ₃.live = [⟨⟨.untrusted, 0, 3, 0⟩, []⟩] ∧ σ₃.globals.currentGeneration = 3 :=
    ⟨_, _, _, rfl, rfl, rfl, rfl, rfl, rfl, rfl⟩
  obtain ⟨τ, hr, hliveτ, hτ⟩ := run_replicate_increment (Zig.usizeEnd - 2) σ₃
    (by rw [hgen₃]; decide)
  refine ⟨σ, ρ, τ, hσ, hlive, hgen, hρ, (Run.run_append_of_run hσ₃ _).trans hr, ?_, ?_, ?_⟩
  · apply Run.allSteps_of_forall
    intro op hop _
    rcases List.mem_append.mp hop with hop | hop
    · simp only [List.mem_cons, List.not_mem_nil, or_false] at hop
      rcases hop with rfl | rfl | rfl <;> trivial
    · rw [List.eq_of_mem_replicate hop]
      trivial
  · rw [hτ, hgen₃]
    decide
  · exact ⟨⟨⟨.untrusted, 0, 3, 0⟩, []⟩, by rw [hliveτ, hlive₃]; exact List.mem_singleton_self _, rfl⟩

end LingNet.Gqap
