import LingNet.Zig.Outcome
import Mathlib.Data.Vector.Basic

/-! Calls that change a state. A call that returns an error keeps the changes it made before,
and so does one that traps; only an `errdefer` of the caller can take them back. -/
namespace Zig

/-- A call on a state of `σ` that may return an error of `ε`. -/
def Proc (σ ε α : Type) : Type := σ → Outcome ε α × σ

namespace Proc

variable {σ ε α β : Type}

def bind (x : Proc σ ε α) (f : α → Proc σ ε β) : Proc σ ε β := fun s =>
  match x s with
  | (.ok a, s) => f a s
  | (.err e, s) => (.err e, s)
  | (.trap t, s) => (.trap t, s)

instance : Monad (Proc σ ε) where
  pure a := fun s => (.ok a, s)
  bind := Proc.bind

/-- A computation that leaves the state alone. -/
def lift (x : Outcome ε α) : Proc σ ε α := fun s => (x, s)

def fail (e : ε) : Proc σ ε α := lift (.err e)

def get : Proc σ ε σ := fun s => (.ok s, s)

def modify (f : σ → σ) : Proc σ ε Unit := fun s => (.ok (), f s)

/-- `try` of a call with other errors. -/
def catching {ε' : Type} (f : ε → ε') (x : Proc σ ε α) : Proc σ ε' α := fun s =>
  match x s with
  | (.ok a, s) => (.ok a, s)
  | (.err e, s) => (.err (f e), s)
  | (.trap t, s) => (.trap t, s)

/-- What a run returns. -/
def result (x : Proc σ ε α) (s : σ) : Outcome ε α := (x s).1

/-- What a run leaves behind. -/
def final (x : Proc σ ε α) (s : σ) : σ := (x s).2

@[simp] theorem pure_run (a : α) (s : σ) : (pure a : Proc σ ε α) s = (.ok a, s) := rfl

@[simp] theorem get_run (s : σ) : (get : Proc σ ε σ) s = (.ok s, s) := rfl

@[simp] theorem modify_run (f : σ → σ) (s : σ) :
    (modify f : Proc σ ε Unit) s = (.ok (), f s) := rfl

/-! One step of a run: the first call returns, fails or traps. -/

theorem bind_of_ok {x : Proc σ ε α} {s s' : σ} {a : α} (h : x s = (.ok a, s'))
    (f : α → Proc σ ε β) : (x >>= f) s = f a s' := by
  change Proc.bind x f s = _
  unfold Proc.bind
  rw [h]

theorem bind_of_err {x : Proc σ ε α} {s s' : σ} {e : ε} (h : x s = (.err e, s'))
    (f : α → Proc σ ε β) : (x >>= f) s = (.err e, s') := by
  change Proc.bind x f s = _
  unfold Proc.bind
  rw [h]

theorem bind_of_trap {x : Proc σ ε α} {s s' : σ} {t : Fault} (h : x s = (.trap t, s'))
    (f : α → Proc σ ε β) : (x >>= f) s = (.trap t, s') := by
  change Proc.bind x f s = _
  unfold Proc.bind
  rw [h]

theorem bind_eq_ok {x : Proc σ ε α} {f : α → Proc σ ε β} {s s' : σ} {b : β} :
    (x >>= f) s = (.ok b, s') ↔ ∃ a t, x s = (.ok a, t) ∧ f a t = (.ok b, s') := by
  constructor
  · intro h
    rcases hx : x s with ⟨a | e | t, s₁⟩
    · rw [bind_of_ok hx] at h
      exact ⟨a, s₁, rfl, h⟩
    · rw [bind_of_err hx] at h
      cases h
    · rw [bind_of_trap hx] at h
      cases h
  · rintro ⟨a, t, hx, hf⟩
    rw [bind_of_ok hx]
    exact hf

theorem lift_eq_ok {x : Outcome ε α} {s s' : σ} {a : α} :
    (lift x : Proc σ ε α) s = (.ok a, s') ↔ x = .ok a ∧ s' = s := by
  unfold lift
  rw [Prod.mk.injEq, @eq_comm _ s]

/-- A computation that leaves the state alone passes its value, its error or its trap on. -/
theorem lift_bind_cases {x : Outcome ε α} {f : α → Proc σ ε β} {s s' : σ} {r : Outcome ε β}
    (h : (lift x >>= f) s = (r, s')) :
    (∃ a, x = .ok a ∧ f a s = (r, s')) ∨ (∃ e, x = .err e ∧ r = .err e ∧ s' = s) ∨
      ∃ t, x = .trap t ∧ r = .trap t := by
  cases x with
  | ok a =>
    rw [bind_of_ok (show lift (.ok a) s = (.ok a, s) from rfl)] at h
    exact .inl ⟨a, rfl, h⟩
  | err e =>
    rw [bind_of_err (show lift (.err e) s = (.err e, s) from rfl)] at h
    cases h
    exact .inr (.inl ⟨e, rfl, rfl, rfl⟩)
  | trap t =>
    rw [bind_of_trap (show lift (.trap t) s = (.trap t, s) from rfl)] at h
    cases h
    exact .inr (.inr ⟨t, rfl, rfl⟩)

/-- `if (c) return error.e;` -/
theorem fail_ite_cases {c : Prop} [Decidable c] {e : ε} {x : Proc σ ε α} {s s' : σ}
    {r : Outcome ε α} (h : (if c then fail e else x) s = (r, s')) :
    (r = .err e ∧ s' = s) ∨ ¬ c ∧ x s = (r, s') := by
  by_cases hc : c
  · rw [if_pos hc] at h
    cases h
    exact .inl ⟨rfl, rfl⟩
  · rw [if_neg hc] at h
    exact .inr ⟨hc, h⟩

theorem lift_bind_of_ok {x : Outcome ε α} {a : α} (h : x = .ok a) (f : α → Proc σ ε β) (s : σ) :
    (lift x >>= f) s = f a s := bind_of_ok (by rw [h]; rfl) f

/-- Errors and traps of the first call aside, a run of `x >>= f` is one of `f`. -/
theorem bind_keeps {γ : Type} {x : Proc σ ε α} {f : α → Proc σ ε β} (view : σ → γ)
    (hx : ∀ s, view (x.final s) = view s) (hf : ∀ a s, view ((f a).final s) = view s) (s : σ) :
    view ((x >>= f).final s) = view s := by
  have hs := hx s
  unfold final at hs ⊢
  rcases h : x s with ⟨_ | _ | _, s'⟩
  · rw [h] at hs
    rw [bind_of_ok h]
    exact (hf _ s').trans hs
  · rw [h] at hs
    rw [bind_of_err h]
    exact hs
  · rw [h] at hs
    rw [bind_of_trap h]
    exact hs

/-- A run ends in a state of `I`, and a value that it returns meets `Q`. -/
def Ensures (I : σ → Prop) (Q : α → Prop) (x : Proc σ ε α) (s : σ) : Prop :=
  I (x.final s) ∧ ∀ a, x.result s = .ok a → Q a

theorem ensures_of_final {I : σ → Prop} {x : Proc σ ε α} {s : σ} (h : I (x.final s)) :
    Ensures I (fun _ => True) x s := ⟨h, fun _ _ => trivial⟩

/-- The rule of consequence and the rule of sequence. -/
theorem Ensures.bind_of_imp {I J : σ → Prop} {Q : α → Prop} {Q' : β → Prop} {x : Proc σ ε α}
    {f : α → Proc σ ε β} {s : σ} (hx : Ensures J Q x s) (hJ : ∀ s, J s → I s)
    (hf : ∀ a s', Q a → J s' → Ensures I Q' (f a) s') : Ensures I Q' (x >>= f) s := by
  unfold Ensures final result at *
  rcases h : x s with ⟨a | e | t, s'⟩
  · rw [h] at hx
    rw [bind_of_ok h]
    exact hf a s' (hx.2 a rfl) hx.1
  · rw [h] at hx
    rw [bind_of_err h]
    exact ⟨hJ s' hx.1, nofun⟩
  · rw [h] at hx
    rw [bind_of_trap h]
    exact ⟨hJ s' hx.1, nofun⟩

theorem Ensures.bind {I : σ → Prop} {Q : α → Prop} {Q' : β → Prop} {x : Proc σ ε α}
    {f : α → Proc σ ε β} {s : σ} (hx : Ensures I Q x s)
    (hf : ∀ a s', Q a → I s' → Ensures I Q' (f a) s') : Ensures I Q' (x >>= f) s :=
  hx.bind_of_imp (fun _ h => h) hf

theorem Ensures.catching {I : σ → Prop} {Q : α → Prop} {ε' : Type} {x : Proc σ ε α} {s : σ}
    (hx : Ensures I Q x s) (f : ε → ε') : Ensures I Q (x.catching f) s := by
  unfold Ensures final result Proc.catching at *
  rcases h : x s with ⟨a | e | t, s'⟩
  · rw [h] at hx
    exact ⟨hx.1, fun a ha => hx.2 a (by cases ha; rfl)⟩
  · rw [h] at hx
    exact ⟨hx.1, nofun⟩
  · rw [h] at hx
    exact ⟨hx.1, nofun⟩

end Proc

/-- The bytes of a `[]const u8`. -/
@[ext]
structure Bytes where
  val : List UInt8
  length_lt : val.length < usizeEnd

namespace Bytes

variable {ε : Type}

/-- `bytes[lo..hi]` with bounds known at compile time, which is an array. -/
def slice (bytes : Bytes) (lo hi : ℕ) : Outcome ε (List.Vector UInt8 (hi - lo)) :=
  if h : lo ≤ hi ∧ hi ≤ bytes.val.length then
    .ok ⟨(bytes.val.drop lo).take (hi - lo), by simp; omega⟩
  else .trap .outOfBounds

/-- `bytes[lo..]` -/
def sliceFrom (bytes : Bytes) (lo : ℕ) : Outcome ε Bytes :=
  if lo ≤ bytes.val.length then
    .ok ⟨bytes.val.drop lo, by have := bytes.length_lt; simp; omega⟩
  else .trap .outOfBounds

theorem slice_eq_ok {bytes : Bytes} {lo hi : ℕ} {v : List.Vector UInt8 (hi - lo)} :
    (bytes.slice lo hi : Outcome ε _) = .ok v ↔
      (lo ≤ hi ∧ hi ≤ bytes.val.length) ∧ v.toList = (bytes.val.drop lo).take (hi - lo) := by
  unfold slice
  split_ifs with h
  · constructor
    · intro hv
      cases hv
      exact ⟨h, rfl⟩
    · intro hv
      exact congrArg Outcome.ok (List.Vector.toList_injective hv.2.symm)
  · constructor
    · intro hv
      cases hv
    · intro hv
      exact absurd hv.1 h

theorem slice_of_lt {bytes : Bytes} {lo hi : ℕ} (h : bytes.val.length < hi) :
    (bytes.slice lo hi : Outcome ε _) = .trap .outOfBounds := by
  unfold slice
  rw [dif_neg (by omega)]

theorem sliceFrom_eq_ok {bytes b : Bytes} {lo : ℕ} :
    (bytes.sliceFrom lo : Outcome ε Bytes) = .ok b ↔
      lo ≤ bytes.val.length ∧ b.val = bytes.val.drop lo := by
  unfold sliceFrom
  split_ifs with h
  · rw [Outcome.ok.injEq, eq_comm, Bytes.ext_iff]
    exact (and_iff_right h).symm
  · simp only [h, false_and]

end Bytes
end Zig
