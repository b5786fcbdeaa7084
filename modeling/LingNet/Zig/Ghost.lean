import LingNet.Zig.Proc

/-! Calls on a state with a ghost part, which records what the calls do and which none of them
reads. -/
namespace Zig

variable {σ γ ε α α' β β' : Type}

def Outcome.map (f : α → β) : Outcome ε α → Outcome ε β
  | .ok a => .ok (f a)
  | .err e => .err e
  | .trap t => .trap t

/-- The call has stopped the process. -/
def Outcome.stops : Outcome ε α → Bool
  | .ok _ => false
  | .err _ => false
  | .trap _ => true

@[simp] theorem Outcome.stops_map (f : α → β) (x : Outcome ε α) : (x.map f).stops = x.stops := by
  cases x <;> rfl

namespace Proc

/-- A call that does nothing to the ghost part. -/
def real (x : Proc σ ε α) : Proc (σ × γ) ε α := fun s => ((x s.1).1, (x s.1).2, s.2)

/-- A change of the ghost part. -/
def ghost (f : γ → γ) : Proc (σ × γ) ε Unit := modify fun s => (s.1, f s.2)

theorem real_of_eq {x : Proc σ ε α} {s : σ × γ} {r : Outcome ε α} {s' : σ} (h : x s.1 = (r, s')) :
    real x s = (r, (s', s.2)) := by
  unfold real
  rw [h]

theorem real_lift_bind_of_ok {x : Outcome ε α} {a : α} (h : x = .ok a)
    (f : α → Proc (σ × γ) ε β) (s : σ × γ) : (real (lift x) >>= f) s = f a s :=
  bind_of_ok (by rw [h]; rfl) f

theorem real_lift_bind_of_trap {x : Outcome ε α} {t : Fault} (h : x = .trap t)
    (f : α → Proc (σ × γ) ε β) (s : σ × γ) : (real (lift x) >>= f) s = (.trap t, s) :=
  bind_of_trap (by rw [h]; rfl) f

/-- Without the ghost parts, `x` does what `y` does. -/
def Forgets (view : α → β) (x : Proc (σ × γ) ε α) (y : Proc σ ε β) : Prop :=
  ∀ s, y s.1 = ((x s).1.map view, (x s).2.1)

theorem forgets_real (x : Proc σ ε α) : Forgets id (real x : Proc (σ × γ) ε α) x := by
  intro s
  unfold real
  rcases x s.1 with ⟨_ | _ | _, s'⟩ <;> rfl

theorem forgets_pure (view : α → β) (a : α) :
    Forgets view (pure a : Proc (σ × γ) ε α) (pure (view a)) := fun _ => rfl

theorem forgets_fail (view : α → β) (e : ε) :
    Forgets view (fail e : Proc (σ × γ) ε α) (fail e) := fun _ => rfl

theorem forgets_get : Forgets Prod.fst (get : Proc (σ × γ) ε (σ × γ)) get := fun _ => rfl

theorem Forgets.bind {view : α → β} {view' : α' → β'} {x : Proc (σ × γ) ε α} {y : Proc σ ε β}
    {f : α → Proc (σ × γ) ε α'} {g : β → Proc σ ε β'} (h : Forgets view x y)
    (hf : ∀ a, Forgets view' (f a) (g (view a))) : Forgets view' (x >>= f) (y >>= g) := by
  intro s
  have hs := h s
  rcases hx : x s with ⟨a | e | t, s'⟩
  · rw [hx] at hs
    rw [bind_of_ok hx, bind_of_ok hs]
    exact hf a s'
  · rw [hx] at hs
    rw [bind_of_err hx, bind_of_err hs]
    rfl
  · rw [hx] at hs
    rw [bind_of_trap hx, bind_of_trap hs]
    rfl

/-- A change of the ghost part may come first. -/
theorem Forgets.after_ghost {view : α → β} {x : Proc (σ × γ) ε α} {y : Proc σ ε β}
    (h : Forgets view x y) (g : γ → γ) : Forgets view (ghost g >>= fun _ => x) y :=
  fun s => h (s.1, g s.2)

theorem Forgets.catching {ε' : Type} {view : α → β} {x : Proc (σ × γ) ε α} {y : Proc σ ε β}
    (h : Forgets view x y) (f : ε → ε') : Forgets view (x.catching f) (y.catching f) := by
  intro s
  have hs := h s
  unfold Proc.catching
  rcases hx : x s with ⟨a | e | t, s'⟩ <;> rw [hx] at hs <;> rw [hs] <;> rfl

/-- What follows a call may change the ghost part and return. -/
theorem Forgets.and_then {view : α → β} {view' : α' → β} {x : Proc (σ × γ) ε α} {y : Proc σ ε β}
    {f : α → Proc (σ × γ) ε α'} (h : Forgets view x y)
    (hf : ∀ a s, ∃ b c, f a s = (.ok b, (s.1, c)) ∧ view' b = view a) :
    Forgets view' (x >>= f) y := by
  intro s
  have hs := h s
  rcases hx : x s with ⟨a | e | t, s'⟩
  · rw [hx] at hs
    obtain ⟨b, c, hrun, hview⟩ := hf a s'
    rw [bind_of_ok hx, hrun, hs]
    simp only [Outcome.map, hview]
  · rw [hx] at hs
    rw [bind_of_err hx, hs]
    rfl
  · rw [hx] at hs
    rw [bind_of_trap hx, hs]
    rfl

end Proc
end Zig
