import Mathlib.Data.List.Basic
import Mathlib.Logic.Relation

/-! Runs of a partial step function over a list of inputs, and the rules by which
facts about one step become facts about a whole run. A step that is `none` ends the
run: no later state exists. -/
namespace Run

variable {σ ι : Type*}

/-- The state after the inputs, when every one of their steps is possible. -/
def run (step : σ → ι → Option σ) : σ → List ι → Option σ
  | s, [] => some s
  | s, i :: l => (step s i).bind fun s' => run step s' l

/-- `P` holds of the state and the input of every step the inputs make. -/
def AllSteps (step : σ → ι → Option σ) (P : σ → ι → Prop) : σ → List ι → Prop
  | _, [] => True
  | s, i :: l => P s i ∧ ∀ s', step s i = some s' → AllSteps step P s' l

theorem run_cons (step : σ → ι → Option σ) (s : σ) (i : ι) (l : List ι) :
    run step s (i :: l) = (step s i).bind fun s' => run step s' l := rfl

theorem run_cons_of_step {step : σ → ι → Option σ} {s s' : σ} {i : ι} (h : step s i = some s')
    (l : List ι) : run step s (i :: l) = run step s' l := by
  rw [run_cons, h]
  rfl

theorem run_cons_eq_some {step : σ → ι → Option σ} {s t : σ} {i : ι} {l : List ι} :
    run step s (i :: l) = some t ↔ ∃ s', step s i = some s' ∧ run step s' l = some t := by
  rw [run_cons, Option.bind_eq_some_iff]

@[simp] theorem run_singleton (step : σ → ι → Option σ) (s : σ) (i : ι) :
    run step s [i] = step s i := by
  rw [run_cons]
  cases step s i <;> rfl

theorem run_append (step : σ → ι → Option σ) (s : σ) (l m : List ι) :
    run step s (l ++ m) = (run step s l).bind fun s' => run step s' m := by
  induction l generalizing s with
  | nil => rfl
  | cons i l ih =>
    rw [List.cons_append, run_cons, run_cons, Option.bind_assoc]
    congr 1
    funext s'
    exact ih s'

theorem run_append_eq_some {step : σ → ι → Option σ} {s t : σ} {l m : List ι} :
    run step s (l ++ m) = some t ↔ ∃ s', run step s l = some s' ∧ run step s' m = some t := by
  rw [run_append, Option.bind_eq_some_iff]

theorem run_snoc_eq_some {step : σ → ι → Option σ} {s t : σ} {l : List ι} {i : ι} :
    run step s (l ++ [i]) = some t ↔ ∃ s', run step s l = some s' ∧ step s' i = some t := by
  simp only [run_append_eq_some, run_singleton]

theorem run_append_of_run {step : σ → ι → Option σ} {s t : σ} {l : List ι}
    (h : run step s l = some t) (m : List ι) : run step s (l ++ m) = run step t m := by
  rw [run_append, h]
  rfl

theorem allSteps_cons {step : σ → ι → Option σ} {P : σ → ι → Prop} {s : σ} {i : ι} {l : List ι} :
    AllSteps step P s (i :: l) ↔
      P s i ∧ ∀ s', step s i = some s' → AllSteps step P s' l := Iff.rfl

theorem AllSteps.imp {step : σ → ι → Option σ} {P Q : σ → ι → Prop} (h : ∀ s i, P s i → Q s i)
    {s : σ} {l : List ι} (hP : AllSteps step P s l) : AllSteps step Q s l := by
  induction l generalizing s with
  | nil => trivial
  | cons i l ih => exact ⟨h s i hP.1, fun s' hs => ih (hP.2 s' hs)⟩

/-- Runs on given inputs can be checked. -/
instance decidableAllSteps {step : σ → ι → Option σ} {P : σ → ι → Prop}
    [∀ s i, Decidable (P s i)] : ∀ s l, Decidable (AllSteps step P s l)
  | _, [] => .isTrue trivial
  | s, i :: l =>
    match h : step s i with
    | none => decidable_of_iff (P s i)
        ⟨fun hP => ⟨hP, fun _ hs => nomatch h.symm.trans hs⟩, fun hall => hall.1⟩
    | some s' =>
      have : Decidable (AllSteps step P s' l) := decidableAllSteps s' l
      decidable_of_iff (P s i ∧ AllSteps step P s' l)
        ⟨fun hP => ⟨hP.1, fun _ hs => Option.some.inj (h.symm.trans hs) ▸ hP.2⟩,
          fun hall => ⟨hall.1, hall.2 s' h⟩⟩

theorem allSteps_of_step {step : σ → ι → Option σ} {P : σ → ι → Prop} {s s' : σ} {i : ι}
    {l : List ι} (hP : P s i) (h : step s i = some s') (hl : AllSteps step P s' l) :
    AllSteps step P s (i :: l) := by
  refine allSteps_cons.mpr ⟨hP, fun t ht => ?_⟩
  rw [h] at ht
  cases ht
  exact hl

/-- The steps of a run are the inputs at which its prefixes arrive. -/
theorem allSteps_iff {step : σ → ι → Option σ} {P : σ → ι → Prop} {s : σ} {l : List ι} :
    AllSteps step P s l ↔
      ∀ m i r s', l = m ++ i :: r → run step s m = some s' → P s' i := by
  induction l generalizing s with
  | nil =>
    constructor
    · intro _ m i r s' h
      simp at h
    · intro _
      trivial
  | cons j l ih =>
    rw [allSteps_cons]
    constructor
    · rintro ⟨hP, hl⟩ m i r s' h hr
      cases m with
      | nil =>
        obtain ⟨rfl, rfl⟩ := List.cons.inj h
        cases hr
        exact hP
      | cons k m =>
        obtain ⟨rfl, hm⟩ := List.cons.inj h
        obtain ⟨s₁, h₁, hr⟩ := run_cons_eq_some.mp hr
        exact ih.mp (hl s₁ h₁) m i r s' hm hr
    · intro h
      refine ⟨h [] j l s rfl rfl, fun s' hs => ih.mpr fun m i r t hl hr => ?_⟩
      exact h (j :: m) i r t (by rw [hl, List.cons_append])
        ((run_cons_of_step hs m).trans hr)

theorem allSteps_of_forall {step : σ → ι → Option σ} {P : σ → ι → Prop} {s : σ} {l : List ι}
    (h : ∀ i ∈ l, ∀ s, P s i) : AllSteps step P s l := by
  induction l generalizing s with
  | nil => trivial
  | cons i l ih =>
    obtain ⟨hi, hl⟩ := List.forall_mem_cons.mp h
    exact ⟨hi s, fun s' _ => ih hl⟩

/-- The run rule: an invariant kept by every step that meets the side condition `P`
holds at the end of every run whose steps all meet it. -/
theorem invariant_of_step {step : σ → ι → Option σ} {P : σ → ι → Prop} {I : σ → Prop}
    (hstep : ∀ s i s', I s → P s i → step s i = some s' → I s') {s t : σ} {l : List ι}
    (hs : I s) (hP : AllSteps step P s l) (hr : run step s l = some t) : I t := by
  induction l generalizing s with
  | nil => exact Option.some.inj hr ▸ hs
  | cons i l ih =>
    obtain ⟨s', h, hr⟩ := run_cons_eq_some.mp hr
    exact ih (hstep s i s' hs hP.1 h) (hP.2 s' h) hr

/-- The unconditional run rule. -/
theorem invariant_of_run {step : σ → ι → Option σ} {I : σ → Prop}
    (hstep : ∀ s i s', I s → step s i = some s' → I s') {s t : σ} {l : List ι}
    (hs : I s) (hr : run step s l = some t) : I t := by
  refine invariant_of_step (P := fun _ _ => True) (fun s i s' h _ => hstep s i s' h) hs ?_ hr
  rw [allSteps_iff]
  exact fun _ _ _ _ _ _ => trivial

/-- Two step properties that agree wherever an invariant holds, and that each keep it,
agree on whole runs whose steps meet `R`. -/
theorem allSteps_congr_of_allSteps {step : σ → ι → Option σ} {P Q R : σ → ι → Prop} {I : σ → Prop}
    (hiff : ∀ s i, I s → R s i → (P s i ↔ Q s i))
    (hstep : ∀ s i s', I s → R s i → Q s i → step s i = some s' → I s') {s : σ} {l : List ι}
    (hs : I s) (hR : AllSteps step R s l) : AllSteps step P s l ↔ AllSteps step Q s l := by
  induction l generalizing s with
  | nil => exact Iff.rfl
  | cons i l ih =>
    obtain ⟨hi, hl⟩ := hR
    rw [allSteps_cons, allSteps_cons, hiff s i hs hi]
    refine and_congr_right fun hQ => forall_congr' fun s' => forall_congr' fun h => ?_
    exact ih (hstep s i s' hs hi hQ h) (hl s' h)

/-- The same for inputs that meet `R`. -/
theorem allSteps_congr_on {step : σ → ι → Option σ} {P Q : σ → ι → Prop} {I : σ → Prop}
    {R : ι → Prop} (hiff : ∀ s i, I s → R i → (P s i ↔ Q s i))
    (hstep : ∀ s i s', I s → R i → Q s i → step s i = some s' → I s') {s : σ} {l : List ι}
    (hs : I s) (hR : ∀ i ∈ l, R i) : AllSteps step P s l ↔ AllSteps step Q s l :=
  allSteps_congr_of_allSteps (R := fun _ i => R i) hiff hstep hs
    (allSteps_of_forall fun i hi _ => hR i hi)

/-- The same for inputs of any kind. -/
theorem allSteps_congr {step : σ → ι → Option σ} {P Q : σ → ι → Prop} {I : σ → Prop}
    (hiff : ∀ s i, I s → (P s i ↔ Q s i))
    (hstep : ∀ s i s', I s → Q s i → step s i = some s' → I s') {s : σ} {l : List ι}
    (hs : I s) : AllSteps step P s l ↔ AllSteps step Q s l :=
  allSteps_congr_on (R := fun _ => True) (fun s i hI _ => hiff s i hI)
    (fun s i s' hI _ => hstep s i s' hI) hs fun _ _ => trivial

/-- A view that every step respects is respected by every run. -/
theorem map_run {τ : Type*} {step : σ → ι → Option σ} {step' : τ → ι → Option τ} {I : σ → Prop}
    (view : σ → τ) (hview : ∀ s i, I s → (step s i).map view = step' (view s) i)
    (hstep : ∀ s i s', I s → step s i = some s' → I s') {s : σ} {l : List ι} (hs : I s) :
    (run step s l).map view = run step' (view s) l := by
  induction l generalizing s with
  | nil => rfl
  | cons i l ih =>
    rw [run_cons, run_cons, ← hview s i hs]
    cases hi : step s i with
    | none => rfl
    | some s' => exact ih (hstep s i s' hs hi)

end Run
