import LingNet.Gqap.Conservation

/-! When the pools answer that there is nothing to give although a quarantined block is due. Only
the top of the quarantine is ever looked at. -/
namespace LingNet.Gqap

/-- A quarantined block has waited long enough at generation `gen`. -/
def SomeDue (s : Globals) (gen : ℕ) : Prop :=
  ∃ b, Chain.Reaches (fun b => (s.blocks b).poolNext) (s.pool .quarantine).head b ∧
    (s.blocks b).retiredGen + 1 < gen

/-- The block on top of the quarantine has not. -/
def TopWaits (s : Globals) (gen : ℕ) : Prop :=
  ∃ b, (s.pool .quarantine).head = some b ∧ (s.blocks b).retiredGen + 1 < Zig.usizeEnd ∧
    gen ≤ (s.blocks b).retiredGen + 1

/-- The pools that an untrusted arena asks first have nothing to give. -/
def PoolsEmpty (s : Globals) : Prop :=
  (s.pool .l2).head = none ∧ (s.pool .common).head = none

theorem not_someDue_of_empty {s : Globals} (h : (s.pool .quarantine).head = none) (gen : ℕ) :
    ¬ SomeDue s gen := by
  rintro ⟨b, ⟨a, ha, _⟩, _⟩
  rw [h] at ha
  cases ha

/-- The pop gives up on an empty quarantine and on a top block that waits. -/
theorem popSafe_eq_none_iff {ε : Type} {s : Globals} {gen : ℕ} :
    (QuarantinePool.popSafe s gen : Zig.Outcome ε _) = .ok none ↔
      (s.pool .quarantine).head = none ∨ TopWaits s gen := by
  unfold QuarantinePool.popSafe TopWaits
  cases hhead : (s.pool .quarantine).head with
  | none => simp
  | some b =>
    unfold Zig.add
    by_cases hfit : (s.blocks b).retiredGen + 1 < Zig.usizeEnd
    · by_cases hdue : gen ≤ (s.blocks b).retiredGen + 1
      · simp [hfit, hdue]
      · simp [hfit, hdue]
    · simp [hfit]

theorem popSafe_ne_err {ε : Type} {s : Globals} {gen : ℕ} {e : ε} :
    QuarantinePool.popSafe s gen ≠ .err e := by
  unfold QuarantinePool.popSafe Zig.add
  cases (s.pool .quarantine).head with
  | none => simp
  | some b =>
    dsimp only
    split_ifs <;> simp

theorem popSafe_prompt_iff {ε : Type} {s : Globals} {gen : ℕ} :
    ((QuarantinePool.popSafe s gen : Zig.Outcome ε _) = .ok none → ¬ SomeDue s gen) ↔
      ¬ (TopWaits s gen ∧ SomeDue s gen) := by
  rw [popSafe_eq_none_iff]
  constructor
  · intro h hboth
    exact h (.inr hboth.1) hboth.2
  · rintro h (hempty | hwaits) hdue
    · exact not_someDue_of_empty hempty gen hdue
    · exact h ⟨hwaits, hdue⟩

/-- An untrusted arena is refused when all three places have refused. -/
theorem init_untrusted_eq_err_iff {s : Globals} (hinit : s.poolsInitialized = true) :
    Arena.init .untrusted s = .err .poolExhausted ↔
      PoolsEmpty s ∧
        (QuarantinePool.popSafe s s.currentGeneration : Zig.Outcome ArenaError _) = .ok none := by
  unfold PoolsEmpty
  rw [← Globals.popHead_eq_none_iff hinit .l2 { zeroed := true },
    ← Globals.popHead_eq_none_iff hinit .common {}]
  unfold Arena.init L2Pool.pop CommonPool.pop
  dsimp only
  cases s.popHead .l2 { zeroed := true } with
  | some r => simp
  | none =>
    cases s.popHead .common {} with
    | some r => simp
    | none =>
      cases hpop : (QuarantinePool.popSafe s s.currentGeneration : Zig.Outcome ArenaError _) with
      | ok r => cases r <;> simp
      | err e => exact absurd hpop popSafe_ne_err
      | trap f => simp

theorem sanitizeOne_eq_false_iff {ε : Type} {s : Globals} {gen : ℕ} :
    (∃ s', (sanitizeOne s gen : Zig.Outcome ε _) = .ok (false, s')) ↔
      (QuarantinePool.popSafe s gen : Zig.Outcome ε _) = .ok none := by
  unfold sanitizeOne
  cases (QuarantinePool.popSafe s gen : Zig.Outcome ε _) with
  | ok r => cases r <;> simp
  | err e => simp
  | trap f => simp

/-- An answer that there is nothing to give is right. -/
def AnswersTruly (σ : System) : Op → Prop
  | .init .untrusted =>
    Arena.init .untrusted σ.globals = .err .poolExhausted →
      PoolsEmpty σ.globals ∧ ¬ SomeDue σ.globals σ.globals.currentGeneration
  | .sanitizeOne gen =>
    (∃ s', (sanitizeOne σ.globals gen : Zig.Outcome ArenaError _) = .ok (false, s')) →
      ¬ SomeDue σ.globals gen
  | _ => True

/-- No due block lies below one that waits, where the quarantine is looked at. -/
def Uncovered (σ : System) : Op → Prop
  | .init .untrusted =>
    PoolsEmpty σ.globals →
      ¬ (TopWaits σ.globals σ.globals.currentGeneration ∧
        SomeDue σ.globals σ.globals.currentGeneration)
  | .sanitizeOne gen => ¬ (TopWaits σ.globals gen ∧ SomeDue σ.globals gen)
  | _ => True

theorem answersTruly_iff {σ : System} (hinit : σ.globals.poolsInitialized = true) (op : Op) :
    AnswersTruly σ op ↔ Uncovered σ op := by
  cases op with
  | init tier =>
    cases tier with
    | trusted => exact Iff.rfl
    | untrusted =>
      unfold AnswersTruly Uncovered
      rw [init_untrusted_eq_err_iff hinit, ← popSafe_prompt_iff (ε := ArenaError)]
      constructor
      · intro h hempty hpop
        exact (h ⟨hempty, hpop⟩).2
      · intro h hboth
        exact ⟨hboth.1, h hboth.1 hboth.2⟩
  | sanitizeOne gen =>
    dsimp only [AnswersTruly, Uncovered]
    rw [sanitizeOne_eq_false_iff, popSafe_prompt_iff]
  | alloc | write | deinit | deinitAndZero | incrementGeneration => exact Iff.rfl

/-- Over whole runs from the start: every refusal is right exactly where no due block is covered
when one is asked for. -/
theorem refusals_true_iff {mapping : Option ℕ} {table : Bool} {blockCount blockSize : ℕ}
    {s : Globals} (hs : initPools mapping table blockCount blockSize = .ok s) (ops : List Op) :
    Run.AllSteps step AnswersTruly (booted s) ops ↔
      Run.AllSteps step Uncovered (booted s) ops := by
  obtain ⟨backing, w⟩ := booted_wf hs
  apply Run.allSteps_congr (I := fun σ => ∃ c, Wf backing blockCount blockSize σ c)
  · rintro σ op ⟨c, w⟩
    exact answersTruly_iff w.initialized op
  · rintro σ op σ' ⟨c, w⟩ _ h
    obtain ⟨c', _, w'⟩ := w.step h
    exact ⟨c', w'⟩
  · exact ⟨_, w⟩

theorem refusals_true_iff_reuse :
    Run.AllSteps step AnswersTruly (booted (initialGlobals 4096 1 64))
        [.init .untrusted, .init .untrusted, .deinit 0, .sanitizeOne 1] ↔
      Run.AllSteps step Uncovered (booted (initialGlobals 4096 1 64))
        [.init .untrusted, .init .untrusted, .deinit 0, .sanitizeOne 1] := by
  have hs : initPools (some 4096) true 1 64 = .ok (initialGlobals 4096 1 64) := rfl
  exact refusals_true_iff hs _

/-- Block 0 was retired at generation 1 and block 1, above it, at generation 3: at generation 3 an
untrusted arena is refused although block 0 is due. -/
theorem covered_block_refused :
    ¬ Run.AllSteps step AnswersTruly (booted (initialGlobals 4096 2 64))
      [.init .untrusted, .init .untrusted, .deinit 1, .incrementGeneration, .incrementGeneration,
        .deinit 0, .init .untrusted] := by
  intro hall
  have hlast : AnswersTruly _ (.init .untrusted) := (Run.allSteps_iff.mp hall)
    [.init .untrusted, .init .untrusted, .deinit 1, .incrementGeneration, .incrementGeneration,
      .deinit 0] (.init .untrusted) [] _ rfl rfl
  apply (hlast rfl).2
  refine ⟨0, ⟨1, rfl, ?_⟩, by decide⟩
  exact Relation.ReflTransGen.single rfl

end LingNet.Gqap
