import LingNet.Gqap.Grace
import LingNet.Gqap.Isolation

/-! The batches of `sanitizerThreadLoop`. Blocks retire on top of older ones, so a batch finds
either nothing due or everything: then the quarantine drains, a batch at a time, and every block
that leaves it is zero. -/
namespace LingNet.Gqap
open Function

/-- `while (processed < config.batch_size)` -/
def sanitizeBatch {ε : Type} (currentGen : ℕ) :
    ℕ → Globals → Zig.Outcome ε (ℕ × Globals)
  | 0, s => .ok (0, s)
  | room + 1, s => do
    match ← sanitizeOne s currentGen with
    | (false, s) => pure (0, s)
    | (true, s) =>
      let (processed, s) ← sanitizeBatch currentGen room s
      pure (processed + 1, s)

/-- The first `n` rounds of `while (true)`; a round that processes nothing sleeps. -/
def sanitizerRounds {ε : Type} (batchSize : ℕ) : ℕ → Globals → Zig.Outcome ε Globals
  | 0, s => .ok s
  | n + 1, s => do
    let (_, s) ← sanitizeBatch (currentGeneration s) batchSize s
    sanitizerRounds batchSize n s

/-- The first `n` turns of the loop of `sanitizerThreadFn`, which reads the generation anew for
every block. -/
def sanitizerThreadFn {ε : Type} : ℕ → Globals → Zig.Outcome ε Globals
  | 0, s => .ok s
  | n + 1, s => do
    let (_, s) ← sanitizeOne s (currentGeneration s)
    sanitizerThreadFn n s

/-- The loop of the boot code is the one of the pool layer with batches of one block. -/
theorem sanitizerThreadFn_eq {ε : Type} (n : ℕ) (s : Globals) :
    (sanitizerThreadFn n s : Zig.Outcome ε Globals) = sanitizerRounds 1 n s := by
  induction n generalizing s with
  | zero => rfl
  | succ n ih =>
    have hbatch : (sanitizeBatch (currentGeneration s) 1 s : Zig.Outcome ε _) =
        (sanitizeOne s (currentGeneration s)).bind fun r =>
          .ok (if r.1 then 1 else 0, r.2) := by
      cases hone : (sanitizeOne s (currentGeneration s) : Zig.Outcome ε _) with
      | ok r =>
        obtain ⟨done, s₁⟩ := r
        cases done <;> simp [sanitizeBatch, hone, Zig.Outcome.bind]
      | err e => simp [sanitizeBatch, hone, Zig.Outcome.bind]
      | trap => simp [sanitizeBatch, hone, Zig.Outcome.bind]
    unfold sanitizerThreadFn sanitizerRounds
    rw [hbatch]
    cases (sanitizeOne s (currentGeneration s) : Zig.Outcome ε _) with
    | ok r => exact ih r.2
    | err e => rfl
    | trap => rfl

/-- The blocks in quarantine from the youngest to the oldest. -/
structure Aged (σ : System) (c : Holdings) : Prop where
  sorted : (c.stack .quarantine).Pairwise fun b b' =>
    (σ.globals.blocks b').retiredGen ≤ (σ.globals.blocks b).retiredGen
  past : ∀ b ∈ c.stack .quarantine, (σ.globals.blocks b).retiredGen ≤ σ.globals.currentGeneration

section Aging

variable {backing blockCount blockSize : ℕ} {σ σ' : System} {c c' : Holdings} {op : Op}

theorem Aged.congr (h : Aged σ c) (hq : (c'.stack .quarantine).Sublist (c.stack .quarantine))
    (hdate : ∀ b, (σ'.globals.blocks b).retiredGen = (σ.globals.blocks b).retiredGen)
    (hgen : σ.globals.currentGeneration ≤ σ'.globals.currentGeneration) : Aged σ' c' where
  sorted := by
    simp only [hdate]
    exact h.sorted.sublist hq
  past b hb := by
    rw [hdate]
    exact (h.past b (hq.subset hb)).trans hgen

end Aging

section Batches

variable {ε : Type} {backing blockCount blockSize : ℕ} {σ : System} {c : Holdings}

/-- What the sanitizer makes of the blocks that it moves, and what it leaves alone: the other pool,
the other counters, the other blocks and all bytes beside those that it clears. -/
structure Sanitized (s : Globals) (moved : List BlockId) (s' : Globals) : Prop where
  generation : s'.currentGeneration = s.currentGeneration
  violations : s'.totalViolations = s.totalViolations
  sanitized : s'.totalSanitized = (Zig.wrappingAdd · 1)^[moved.length] s.totalSanitized
  common : s'.pool .common = s.pool .common
  blocks : ∀ b, b ∉ moved → s'.blocks b = s.blocks b
  dates : ∀ b, (s'.blocks b).retiredGen = (s.blocks b).retiredGen
  inBlock : ∀ b a, InBlock s' b a ↔ InBlock s b a
  flags : ∀ b ∈ moved, (s'.blocks b).flags = { zeroed := true }
  zeroed : ∀ b ∈ moved, Zeroed s' b
  bytes : ∀ a, (∀ b ∈ moved, ¬ InBlock s b a) → s'.mem a = s.mem a

theorem Sanitized.refl (s : Globals) : Sanitized s [] s where
  generation := rfl
  violations := rfl
  sanitized := rfl
  common := rfl
  blocks _ _ := rfl
  dates _ := rfl
  inBlock _ _ := Iff.rfl
  flags _ h := absurd h List.not_mem_nil
  zeroed _ h := absurd h List.not_mem_nil
  bytes _ _ := rfl

/-- A zero byte stays zero. -/
theorem Sanitized.zero {s s' : Globals} {moved : List BlockId} (h : Sanitized s moved s') {a : ℕ}
    (ha : s.mem a = 0) : s'.mem a = 0 := by
  by_cases hin : ∃ b ∈ moved, InBlock s b a
  · obtain ⟨b, hb, hin⟩ := hin
    obtain ⟨hlow, hhigh⟩ := (h.inBlock b a).mpr hin
    exact h.zeroed b hb a hlow hhigh
  · rw [h.bytes a fun b hb hin' => hin ⟨b, hb, hin'⟩, ha]

theorem Sanitized.trans {s s' s'' : Globals} {moved moved' : List BlockId}
    (h : Sanitized s moved s') (h' : Sanitized s' moved' s'') :
    Sanitized s (moved ++ moved') s'' where
  generation := h'.generation.trans h.generation
  violations := h'.violations.trans h.violations
  sanitized := by
    rw [h'.sanitized, h.sanitized, List.length_append, Nat.add_comm, Function.iterate_add_apply]
  common := h'.common.trans h.common
  blocks b hb := by
    rw [h'.blocks b fun hlast => hb (List.mem_append_right _ hlast),
      h.blocks b fun hfirst => hb (List.mem_append_left _ hfirst)]
  dates b := (h'.dates b).trans (h.dates b)
  inBlock b a := (h'.inBlock b a).trans (h.inBlock b a)
  flags b hb := by
    by_cases hlast : b ∈ moved'
    · exact h'.flags b hlast
    · rw [h'.blocks b hlast]
      exact h.flags b ((List.mem_append.mp hb).resolve_right hlast)
  zeroed b hb := by
    by_cases hlast : b ∈ moved'
    · exact h'.zeroed b hlast
    · intro a hlow hhigh
      rw [h'.blocks b hlast] at hlow hhigh
      exact h'.zero (h.zeroed b ((List.mem_append.mp hb).resolve_right hlast) a hlow hhigh)
  bytes a ha := by
    rw [h'.bytes a fun b hb hin => ha b (List.mem_append_right _ hb) ((h.inBlock b a).mp hin),
      h.bytes a fun b hb => ha b (List.mem_append_left _ hb)]

end Batches

end LingNet.Gqap
