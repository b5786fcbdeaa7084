import LingNet.Zig.Ghost
import LingNet.Zig.Heap

/-! Who holds which descriptor, as a ghost part beside the state of a process. -/
namespace Zig

/-- What each owner has opened and not closed, and the calls of `close` on a descriptor that their
caller did not hold. -/
structure Descriptors (ι : Type) where
  held : List (ι × ℕ) := []
  wild : List (ι × ℕ) := []

namespace Descriptors

variable {ι : Type}

/-- The answer of a system call that opens a descriptor. Larger answers are error codes. -/
def opened (owner : ι) (answer : ℕ) (d : Descriptors ι) : Descriptors ι :=
  if answer < 2 ^ 31 then { d with held := (owner, answer) :: d.held } else d

@[simp] theorem wild_opened (owner : ι) (answer : ℕ) (d : Descriptors ι) :
    (d.opened owner answer).wild = d.wild := by
  unfold opened
  split_ifs <;> rfl

theorem opened_of_le (owner : ι) {answer : ℕ} (h : 2 ^ 31 ≤ answer) (d : Descriptors ι) :
    d.opened owner answer = d := if_neg (Nat.not_lt.mpr h)

variable [DecidableEq ι]

def closed (owner : ι) (fd : ℕ) (d : Descriptors ι) : Descriptors ι :=
  if (owner, fd) ∈ d.held then { d with held := d.held.erase (owner, fd) }
  else { d with wild := (owner, fd) :: d.wild }

/-- A descriptor is closed unless it is negative. -/
def closedFd (owner : ι) (fd : ℤ) (d : Descriptors ι) : Descriptors ι :=
  if 0 ≤ fd then d.closed owner fd.toNat else d

theorem closed_opened (owner : ι) {answer : ℕ} (h : answer < 2 ^ 31) (d : Descriptors ι) :
    (d.opened owner answer).closed owner answer = d := by
  unfold opened closed
  rw [if_pos h]
  simp

theorem closedFd_of_neg {fd : ℤ} (h : fd < 0) (owner : ι) (d : Descriptors ι) :
    d.closedFd owner fd = d := if_neg (Int.not_le.mpr h)

/-- Who holds nothing closes what is not his. -/
theorem closedFd_of_held_nil {d : Descriptors ι} (h : d.held = []) {fd : ℤ} (hfd : 0 ≤ fd)
    (owner : ι) :
    d.closedFd owner fd = { d with wild := (owner, fd.toNat) :: d.wild } := by
  unfold closedFd closed
  simp [h, hfd]

theorem held_closedFd {d : Descriptors ι} (h : d.held = []) (owner : ι) (fd : ℤ) :
    (d.closedFd owner fd).held = [] := by
  by_cases hfd : 0 ≤ fd
  · rw [closedFd_of_held_nil h hfd]
    exact h
  · rw [closedFd_of_neg (Int.not_le.mp hfd)]
    exact h

theorem length_wild_closedFd (d : Descriptors ι) (owner : ι) (fd : ℤ) :
    d.wild.length ≤ (d.closedFd owner fd).wild.length := by
  unfold closedFd closed
  split_ifs <;> simp

end Descriptors

namespace Proc

variable {σ ι ε α β : Type}

/-- A call that closes only what its caller holds, and holds nothing more when it returns. -/
def Tidy (x : Proc (σ × Descriptors ι) ε α) : Prop :=
  ∀ s, (x s).2.2.wild = s.2.wild ∧ ((x s).1.stops = false → (x s).2.2 = s.2)

theorem tidy_real (x : Proc σ ε α) : Tidy (real x : Proc (σ × Descriptors ι) ε α) :=
  fun _ => ⟨rfl, fun _ => rfl⟩

theorem tidy_pure (a : α) : Tidy (pure a : Proc (σ × Descriptors ι) ε α) :=
  fun _ => ⟨rfl, fun _ => rfl⟩

theorem tidy_fail (e : ε) : Tidy (fail e : Proc (σ × Descriptors ι) ε α) :=
  fun _ => ⟨rfl, fun _ => rfl⟩

theorem Tidy.bind {x : Proc (σ × Descriptors ι) ε α} {f : α → Proc (σ × Descriptors ι) ε β}
    (hx : Tidy x) (hf : ∀ a, Tidy (f a)) : Tidy (x >>= f) := by
  intro s
  have hs := hx s
  rcases h : x s with ⟨a | e | t, s'⟩
  · rw [h] at hs
    have hheld := hs.2 rfl
    have hnext := hf a s'
    rw [bind_of_ok h]
    rw [hheld] at hnext
    exact hnext
  · rw [h] at hs
    rw [bind_of_err h]
    exact ⟨hs.1, fun _ => hs.2 rfl⟩
  · rw [h] at hs
    rw [bind_of_trap h]
    exact ⟨hs.1, nofun⟩

theorem Tidy.catching {ε' : Type} {x : Proc (σ × Descriptors ι) ε α} (hx : Tidy x) (f : ε → ε') :
    Tidy (x.catching f) := by
  intro s
  have hs := hx s
  unfold Proc.catching
  rcases h : x s with ⟨a | e | t, s'⟩ <;> rw [h] at hs <;> exact hs

/-- A descriptor that is opened before a tidy call and closed behind it. -/
theorem Tidy.defer [DecidableEq ι] {x : Proc (σ × Descriptors ι) ε α} (hx : Tidy x) (owner : ι)
    {fd : ℕ} (hfd : fd < 2 ^ 31) (close : σ → σ) :
    Tidy (ghost (Descriptors.opened owner fd) >>= fun _ =>
      Proc.defer (fun s => (close s.1, s.2.closed owner fd)) x) := by
  intro s
  have hghost : (ghost (Descriptors.opened owner fd) s :
      Outcome ε Unit × (σ × Descriptors ι)) = (.ok (), (s.1, s.2.opened owner fd)) := rfl
  have hs := hx (s.1, s.2.opened owner fd)
  have hclosed := Descriptors.closed_opened owner hfd s.2
  rw [bind_of_ok hghost]
  unfold Proc.defer
  rcases h : x (s.1, s.2.opened owner fd) with ⟨a | e | t, s'⟩
  · rw [h] at hs
    have hheld : s'.2 = s.2.opened owner fd := hs.2 rfl
    simp [hheld, hclosed, Outcome.stops]
  · rw [h] at hs
    have hheld : s'.2 = s.2.opened owner fd := hs.2 rfl
    simp [hheld, hclosed, Outcome.stops]
  · rw [h] at hs
    have hwild : s'.2.wild = (s.2.opened owner fd).wild := hs.1
    simp [hwild, Outcome.stops]

theorem Forgets.defer {γ : Type} {view : α → β} {x : Proc (σ × γ) ε α} {y : Proc σ ε β}
    (h : Forgets view x y) {f : σ × γ → σ × γ} {g : σ → σ} (hf : ∀ s, (f s).1 = g s.1) :
    Forgets view (x.defer f) (y.defer g) := by
  intro s
  have hs := h s
  unfold Proc.defer
  rcases hx : x s with ⟨a | e | t, s'⟩
  · rw [hx] at hs
    rw [hs]
    simp [Outcome.map, hf]
  · rw [hx] at hs
    rw [hs]
    simp [Outcome.map, hf]
  · rw [hx] at hs
    rw [hs]
    rfl

end Proc
end Zig
