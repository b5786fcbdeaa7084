import LingNet.Lib.Run
import Mathlib.Algebra.BigOperators.Group.Finset.Basic
import Mathlib.Algebra.Order.BigOperators.Group.Finset
import Mathlib.Algebra.Ring.Nat

/-! Costs summed along a run, and the potential method: what every single step pays for out of
its credit and the potential it releases, a whole run pays for out of the credits. -/
namespace Run

variable {σ ι : Type*}

/-- The sum of a cost of steps over the steps the inputs make. -/
def total (step : σ → ι → Option σ) (cost : σ → ι → ℕ) : σ → List ι → ℕ
  | _, [] => 0
  | s, i :: l => cost s i + (step s i).elim 0 fun s' => total step cost s' l

variable {step : σ → ι → Option σ} {cost credit : σ → ι → ℕ} {s s' t : σ} {l : List ι}

@[simp] theorem total_nil (s : σ) : total step cost s [] = 0 := rfl

theorem total_cons_of_step {i : ι} (h : step s i = some s') (l : List ι) :
    total step cost s (i :: l) = cost s i + total step cost s' l := by
  simp only [total, h, Option.elim_some]

/-- A cost that reads the input only is a count over the inputs. -/
theorem total_of_run (c : ι → ℕ) (h : run step s l = some t) :
    total step (fun _ i => c i) s l = (l.map c).sum := by
  induction l generalizing s with
  | nil => rfl
  | cons i l ih =>
    obtain ⟨s₁, h₁, h⟩ := run_cons_eq_some.mp h
    rw [total_cons_of_step h₁, ih h, List.map_cons, List.sum_cons]

theorem total_const_mul (n : ℕ) (h : run step s l = some t) :
    total step (fun s i => n * cost s i) s l = n * total step cost s l := by
  induction l generalizing s with
  | nil => simp
  | cons i l ih =>
    obtain ⟨s₁, h₁, h⟩ := run_cons_eq_some.mp h
    rw [total_cons_of_step h₁, total_cons_of_step h₁, ih h, Nat.mul_add]

theorem total_add (h : run step s l = some t) :
    total step (fun s i => cost s i + credit s i) s l =
      total step cost s l + total step credit s l := by
  induction l generalizing s with
  | nil => simp
  | cons i l ih =>
    obtain ⟨s₁, h₁, h⟩ := run_cons_eq_some.mp h
    rw [total_cons_of_step h₁, total_cons_of_step h₁, total_cons_of_step h₁, ih h]
    omega

/-- The potential method. -/
theorem total_add_le {I : σ → Prop} {R : ι → Prop} (Φ : σ → ℕ)
    (hinv : ∀ s i s', I s → R i → step s i = some s' → I s')
    (hstep : ∀ s i s', I s → R i → step s i = some s' → cost s i + Φ s' ≤ credit s i + Φ s)
    (hs : I s) (hR : ∀ i ∈ l, R i) (hr : run step s l = some t) :
    total step cost s l + Φ t ≤ total step credit s l + Φ s := by
  induction l generalizing s with
  | nil =>
    cases hr
    simp
  | cons i l ih =>
    obtain ⟨s₁, h₁, hr⟩ := run_cons_eq_some.mp hr
    obtain ⟨hi, hl⟩ := List.forall_mem_cons.mp hR
    have hpaid := hstep s i s₁ hs hi h₁
    have hrest := ih (hinv s i s₁ hs hi h₁) hl hr
    rw [total_cons_of_step h₁, total_cons_of_step h₁]
    omega

/-- What every step takes out of the potential, a run takes out of it in all. -/
theorem total_add_eq {I : σ → Prop} (Φ : σ → ℕ) (hinv : ∀ s i s', I s → step s i = some s' → I s')
    (hstep : ∀ s i s', I s → step s i = some s' → cost s i + Φ s' = Φ s) (hs : I s)
    (hr : run step s l = some t) : total step cost s l + Φ t = Φ s := by
  induction l generalizing s with
  | nil =>
    cases hr
    simp
  | cons i l ih =>
    obtain ⟨s₁, h₁, hr⟩ := run_cons_eq_some.mp hr
    have hpaid := hstep s i s₁ hs h₁
    have hrest := ih (hinv s i s₁ hs h₁) hr
    rw [total_cons_of_step h₁]
    omega

/-- The same without an invariant. -/
theorem total_add_le_of_step {R : ι → Prop} (Φ : σ → ℕ)
    (hstep : ∀ s i s', R i → step s i = some s' → cost s i + Φ s' ≤ credit s i + Φ s)
    (hR : ∀ i ∈ l, R i) (hr : run step s l = some t) :
    total step cost s l + Φ t ≤ total step credit s l + Φ s :=
  total_add_le (I := fun _ => True) Φ (fun _ _ _ _ _ _ => trivial)
    (fun s i s' _ => hstep s i s') trivial hR hr

section Components

variable {κ : Type*} [DecidableEq κ] {T : Finset κ} {k : κ} {f g : κ → ℕ}

/-- A sum in which one component changes. -/
theorem sum_add_of_eq_off (hk : k ∈ T) (h : ∀ j ∈ T, j ≠ k → g j = f j) :
    ∑ j ∈ T, g j + f k = ∑ j ∈ T, f j + g k := by
  have hrest : ∑ j ∈ T.erase k, g j = ∑ j ∈ T.erase k, f j :=
    Finset.sum_congr rfl fun j hj =>
      h j (Finset.mem_of_mem_erase hj) (Finset.ne_of_mem_erase hj)
  rw [← Finset.add_sum_erase T g hk, ← Finset.add_sum_erase T f hk, hrest]
  omega

/-- A sum in which one component changes and each of the others grows by at most one. -/
theorem sum_add_le_of_le_off (hk : k ∈ T) (h : ∀ j ∈ T, j ≠ k → g j ≤ 1 + f j) :
    ∑ j ∈ T, g j + f k ≤ ∑ j ∈ T, f j + g k + (T.card - 1) := by
  have hrest : ∑ j ∈ T.erase k, g j ≤ ∑ j ∈ T.erase k, (1 + f j) :=
    Finset.sum_le_sum fun j hj =>
      h j (Finset.mem_of_mem_erase hj) (Finset.ne_of_mem_erase hj)
  rw [Finset.sum_add_distrib, ← Finset.card_eq_sum_ones, Finset.card_erase_of_mem hk] at hrest
  rw [← Finset.add_sum_erase T g hk, ← Finset.add_sum_erase T f hk]
  omega

end Components

end Run
