import LingNet.Zig.Heap

/-! Triples for calls: what holds when a call returns, with a value or with an error. Nothing is
said about a trap, which stops the process. -/
namespace Zig.Proc

variable {σ ε α β : Type} {Q Q' : α → σ → Prop} {E E' : σ → Prop} {s : σ}

/-- From the state, a value comes with `Q` and an error with `E`. -/
def Meets (x : Proc σ ε α) (Q : α → σ → Prop) (E : σ → Prop) (s : σ) : Prop :=
  match x s with
  | (.ok a, s') => Q a s'
  | (.err _, s') => E s'
  | (.trap _, _) => True

theorem Meets.ok {x : Proc σ ε α} {a : α} {s' : σ} (h : x.Meets Q E s) (hx : x s = (.ok a, s')) :
    Q a s' := by
  unfold Meets at h
  rw [hx] at h
  exact h

theorem Meets.err {x : Proc σ ε α} {e : ε} {s' : σ} (h : x.Meets Q E s)
    (hx : x s = (.err e, s')) : E s' := by
  unfold Meets at h
  rw [hx] at h
  exact h

theorem meets_of_ok {x : Proc σ ε α} {a : α} {s' : σ} (hx : x s = (.ok a, s')) (h : Q a s') :
    x.Meets Q E s := by
  unfold Meets
  rw [hx]
  exact h

theorem meets_of_err {x : Proc σ ε α} {e : ε} {s' : σ} (hx : x s = (.err e, s')) (h : E s') :
    x.Meets Q E s := by
  unfold Meets
  rw [hx]
  exact h

theorem meets_of_trap {x : Proc σ ε α} {t : Fault} {s' : σ} (hx : x s = (.trap t, s')) :
    x.Meets Q E s := by
  unfold Meets
  rw [hx]
  trivial

theorem meets_pure {a : α} (h : Q a s) : (pure a : Proc σ ε α).Meets Q E s := h

theorem meets_fail {e : ε} (h : E s) : (fail e : Proc σ ε α).Meets Q E s := h

theorem meets_modify {f : σ → σ} {Q : Unit → σ → Prop} (h : Q () (f s)) :
    (modify f : Proc σ ε Unit).Meets Q E s := h

/-- The rule of sequence. -/
theorem Meets.bind {x : Proc σ ε α} {f : α → Proc σ ε β} {R : β → σ → Prop}
    (hx : x.Meets Q E s) (hf : ∀ a s', Q a s' → (f a).Meets R E s') : (x >>= f).Meets R E s := by
  unfold Meets at hx
  rcases h : x s with ⟨a | e | t, s'⟩
  · rw [h] at hx
    have hrest := hf a s' hx
    unfold Meets at hrest ⊢
    rw [bind_of_ok h]
    exact hrest
  · rw [h] at hx
    unfold Meets
    rw [bind_of_err h]
    exact hx
  · unfold Meets
    rw [bind_of_trap h]
    trivial

theorem meets_get_bind {f : σ → Proc σ ε β} {R : β → σ → Prop} (h : (f s).Meets R E s) :
    (get >>= f).Meets R E s := h

/-- The rule of consequence. -/
theorem Meets.mono {x : Proc σ ε α} (h : x.Meets Q E s) (hQ : ∀ a s', Q a s' → Q' a s')
    (hE : ∀ s', E s' → E' s') : x.Meets Q' E' s := by
  unfold Meets at h ⊢
  rcases hx : x s with ⟨a | e | t, s'⟩
  · rw [hx] at h
    exact hQ a s' h
  · rw [hx] at h
    exact hE s' h
  · trivial

theorem meets_errdefer {cleanup : σ → σ} {x : Proc σ ε α}
    (h : x.Meets Q (fun s' => E (cleanup s')) s) : (x.errdefer cleanup).Meets Q E s := by
  unfold Meets at h
  rcases hx : x s with ⟨a | e | t, s'⟩
  · rw [hx] at h
    unfold Meets
    rw [errdefer_of_ok hx]
    exact h
  · rw [hx] at h
    unfold Meets
    rw [errdefer_of_err hx]
    exact h
  · unfold Meets
    rw [errdefer_of_trap hx]
    trivial

end Zig.Proc
