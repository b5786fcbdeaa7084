import Mathlib.Logic.Function.Basic
import LingNet.Lib.Run

/-! Calls under spin locks. A call waits for its lock by trying to take it, runs its body one atomic
step at a time and gives the lock back; the threads and the rest of the process take their steps in
any order. An outline says what is true of the shared state while a lock is free and at each point
of a body; the rule is that then it is true at all times. -/
namespace SpinLock
open Function

/-- A step of a body that gives no further point is the last one before `unlock`; a body that has
no step has trapped. -/
structure Program (κ σ ι π ε : Type*) where
  lock : ι → κ
  enter : ι → π
  body : π → σ → Option (σ × Option π)
  outside : ε → σ → σ

inductive Point (ι π : Type*) where
  | idle
  | spinning (i : ι)
  | inside (i : ι) (p : π)
  | leaving (i : ι)

structure Machine (θ κ σ ι π : Type*) where
  shared : σ
  owner : κ → Option θ
  point : θ → Point ι π

inductive Event (θ ι ε : Type*) where
  | start (t : θ) (i : ι)
  | advance (t : θ)
  | outside (e : ε)

variable {θ κ σ ι π ε : Type*}

/-- All locks free, all threads idle. -/
def Machine.init (s : σ) : Machine θ κ σ ι π where
  shared := s
  owner _ := none
  point _ := .idle

namespace Program

variable [DecidableEq θ] [DecidableEq κ] (P : Program κ σ ι π ε)

/-- `if (lock.tryLock())`, a step of the body, or `lock.unlock()`. -/
def advance (m : Machine θ κ σ ι π) (t : θ) : Option (Machine θ κ σ ι π) :=
  match m.point t with
  | .idle => none
  | .spinning i =>
    match m.owner (P.lock i) with
    | some _ => some m
    | none => some { m with
        owner := update m.owner (P.lock i) (some t)
        point := update m.point t (.inside i (P.enter i)) }
  | .inside i p =>
    match P.body p m.shared with
    | none => none
    | some (s, none) => some { m with shared := s, point := update m.point t (.leaving i) }
    | some (s, some p') => some { m with shared := s, point := update m.point t (.inside i p') }
  | .leaving i => some { m with
      owner := update m.owner (P.lock i) none
      point := update m.point t .idle }

def step (m : Machine θ κ σ ι π) : Event θ ι ε → Option (Machine θ κ σ ι π)
  | .start t i =>
    match m.point t with
    | .idle => some { m with point := update m.point t (.spinning i) }
    | _ => none
  | .advance t => P.advance m t
  | .outside e => some { m with shared := P.outside e m.shared }

/-- The lock that a thread has. -/
def held : Point ι π → Option κ
  | .idle | .spinning _ => none
  | .inside i _ | .leaving i => some (P.lock i)

/-- What one step does to the machine. -/
inductive Change (m : Machine θ κ σ ι π) : Machine θ κ σ ι π → Prop where
  | spin (t : θ) (i : ι) (hpoint : m.point t = .idle) :
      Change m { m with point := update m.point t (.spinning i) }
  | wait : Change m m
  | take (t : θ) (i : ι) (hpoint : m.point t = .spinning i) (hfree : m.owner (P.lock i) = none) :
      Change m { m with
        owner := update m.owner (P.lock i) (some t)
        point := update m.point t (.inside i (P.enter i)) }
  | go (t : θ) (i : ι) (p p' : π) (s : σ) (hpoint : m.point t = .inside i p)
      (hbody : P.body p m.shared = some (s, some p')) :
      Change m { m with shared := s, point := update m.point t (.inside i p') }
  | finish (t : θ) (i : ι) (p : π) (s : σ) (hpoint : m.point t = .inside i p)
      (hbody : P.body p m.shared = some (s, none)) :
      Change m { m with shared := s, point := update m.point t (.leaving i) }
  | unlock (t : θ) (i : ι) (hpoint : m.point t = .leaving i) :
      Change m { m with
        owner := update m.owner (P.lock i) none
        point := update m.point t .idle }
  | outside (e : ε) : Change m { m with shared := P.outside e m.shared }

variable {P} {m m' : Machine θ κ σ ι π}

theorem change_of_advance {t : θ} (h : P.advance m t = some m') : P.Change m m' := by
  unfold advance at h
  cases hpoint : m.point t with
  | idle => simp [hpoint] at h
  | spinning i =>
    cases howner : m.owner (P.lock i) with
    | some u =>
      simp only [hpoint, howner, Option.some.injEq] at h
      subst h
      exact .wait
    | none =>
      simp only [hpoint, howner, Option.some.injEq] at h
      subst h
      exact .take t i hpoint howner
  | inside i p =>
    cases hbody : P.body p m.shared with
    | none => simp [hpoint, hbody] at h
    | some r =>
      obtain ⟨s, next⟩ := r
      cases next with
      | none =>
        simp only [hpoint, hbody, Option.some.injEq] at h
        subst h
        exact .finish t i p s hpoint hbody
      | some p' =>
        simp only [hpoint, hbody, Option.some.injEq] at h
        subst h
        exact .go t i p p' s hpoint hbody
  | leaving i =>
    simp only [hpoint, Option.some.injEq] at h
    subst h
    exact .unlock t i hpoint

/-- A lock is owned by the thread that is between taking it and giving it back. -/
def Exclusive (P : Program κ σ ι π ε) (m : Machine θ κ σ ι π) : Prop :=
  ∀ t k, P.held (m.point t) = some k ↔ m.owner k = some t

omit [DecidableEq κ] in
/-- A step that takes or gives no lock. -/
theorem Exclusive.of_held {t : θ} {point : Point ι π} {s : σ} (h : P.Exclusive m)
    (hheld : P.held point = P.held (m.point t)) :
    P.Exclusive { m with shared := s, point := update m.point t point } := by
  intro u k
  by_cases hu : u = t
  · subst hu
    simp only [update_self, hheld]
    exact h u k
  · simp only [update_of_ne hu]
    exact h u k

theorem Exclusive.change (h : P.Exclusive m) (hc : P.Change m m') : P.Exclusive m' := by
  cases hc with
  | wait => exact h
  | outside e => exact h
  | spin t i hpoint => exact h.of_held (by rw [hpoint]; rfl)
  | go t i p p' s hpoint hbody => exact h.of_held (by rw [hpoint]; rfl)
  | finish t i p s hpoint hbody => exact h.of_held (by rw [hpoint]; rfl)
  | take t i hpoint hfree =>
    have hnone : ∀ k, m.owner k ≠ some t := fun k hk => by
      have := (h t k).mpr hk
      simp [hpoint, held] at this
    intro u k
    by_cases hu : u = t <;> by_cases hk : k = P.lock i
    · simp [hu, hk, held]
    · simp [hu, Ne.symm hk, update_of_ne hk, hnone k, held]
    · have hne : t ≠ u := Ne.symm hu
      simp [hu, hk, h u, hfree, hne]
    · simp [hu, update_of_ne hk, h u k]
  | unlock t i hpoint =>
    have howner : m.owner (P.lock i) = some t := (h t _).mp (by rw [hpoint]; rfl)
    intro u k
    by_cases hu : u = t <;> by_cases hk : k = P.lock i
    · simp [hu, hk, held]
    · have hnone : m.owner k ≠ some t := fun ho => by
        have := (h t k).mpr ho
        simp only [hpoint, held, Option.some.injEq] at this
        exact hk this.symm
      simp [hu, update_of_ne hk, hnone, held]
    · have hnot : P.held (m.point u) ≠ some (P.lock i) := fun hh => by
        have := (h u _).mp hh
        rw [howner, Option.some.injEq] at this
        exact hu this.symm
      simp [hu, hk, hnot]
    · simp [hu, update_of_ne hk, h u k]

omit [DecidableEq θ] [DecidableEq κ] in
/-- Mutual exclusion. -/
theorem Exclusive.eq_of_held {t u : θ} {k : κ} (h : P.Exclusive m)
    (ht : P.held (m.point t) = some k) (hu : P.held (m.point u) = some k) : t = u := by
  have howner := (h t k).mp ht
  rw [(h u k).mp hu, Option.some.injEq] at howner
  exact howner.symm

end Program

/-- What is true of the shared state while a lock is free, and at each point of a body; a body keeps
what the holders of other locks rely on, and so does the rest of the process. -/
structure Outline (P : Program κ σ ι π ε) where
  free : κ → σ → Prop
  inside : ι → π → σ → Prop
  enter : ∀ i s, free (P.lock i) s → inside i (P.enter i) s
  go : ∀ i p s s' p', inside i p s → P.body p s = some (s', some p') → inside i p' s'
  finish : ∀ i p s s', inside i p s → P.body p s = some (s', none) → free (P.lock i) s'
  free_body : ∀ k i p s r, k ≠ P.lock i → free k s → inside i p s → P.body p s = some r → free k r.1
  inside_body : ∀ j q i p s r, P.lock j ≠ P.lock i → inside j q s → inside i p s →
    P.body p s = some r → inside j q r.1
  free_outside : ∀ k e s, free k s → free k (P.outside e s)
  inside_outside : ∀ j q e s, inside j q s → inside j q (P.outside e s)

namespace Outline

variable {P : Program κ σ ι π ε} (O : Outline P)

/-- What a thread knows where it stands. -/
def Knows (s : σ) : Point ι π → Prop
  | .idle | .spinning _ => True
  | .inside i p => O.inside i p s
  | .leaving i => O.free (P.lock i) s

/-- The outline is true of a machine. -/
structure Valid [DecidableEq θ] [DecidableEq κ] (m : Machine θ κ σ ι π) : Prop where
  exclusive : P.Exclusive m
  free : ∀ k, m.owner k = none → O.free k m.shared
  knows : ∀ t, O.Knows m.shared (m.point t)

variable [DecidableEq θ] [DecidableEq κ] {O} {m m' : Machine θ κ σ ι π}

omit [DecidableEq κ] in
/-- What a thread without the lock of a body knows survives a step of the body. -/
theorem Knows.body {i : ι} {p : π} {s : σ} {r : σ × Option π} {x : Point ι π}
    (h : O.Knows s x) (hother : P.held x ≠ some (P.lock i)) (hat : O.inside i p s)
    (hbody : P.body p s = some r) : O.Knows r.1 x := by
  cases x with
  | idle | spinning => trivial
  | inside j q => exact O.inside_body j q i p s r (fun he => hother (congrArg some he)) h hat hbody
  | leaving j => exact O.free_body _ i p s r (fun he => hother (congrArg some he)) h hat hbody

/-- A step of a body, before its thread moves on to `x`. -/
theorem Valid.body {t : θ} {i : ι} {p : π} {r : σ × Option π} {x : Point ι π} (h : O.Valid m)
    (hpoint : m.point t = .inside i p) (hbody : P.body p m.shared = some r)
    (hheld : P.held x = some (P.lock i)) (hx : O.Knows r.1 x) :
    O.Valid { m with shared := r.1, point := update m.point t x } := by
  have hat : O.inside i p m.shared := by
    have := h.knows t
    rwa [hpoint] at this
  have hmine : P.held (m.point t) = some (P.lock i) := by rw [hpoint]; rfl
  refine ⟨h.exclusive.of_held (hheld.trans hmine.symm), fun k hk => ?_, fun u => ?_⟩
  · have hne : k ≠ P.lock i := by
      rintro rfl
      have howner := (h.exclusive t _).mp hmine
      exact absurd (howner.symm.trans hk) (Option.some_ne_none t)
    exact O.free_body k i p m.shared r hne (h.free k hk) hat hbody
  · by_cases hu : u = t
    · subst hu
      simpa only [update_self] using hx
    · have hother : P.held (m.point u) ≠ some (P.lock i) := fun hh =>
        hu (h.exclusive.eq_of_held hh hmine)
      simpa only [update_of_ne hu] using (h.knows u).body hother hat hbody

/-- The step lemma. -/
theorem Valid.change (h : O.Valid m) (hc : P.Change m m') : O.Valid m' := by
  have hexclusive := h.exclusive.change hc
  cases hc with
  | wait => exact h
  | spin t i hpoint =>
    refine ⟨hexclusive, h.free, fun u => ?_⟩
    by_cases hu : u = t
    · subst hu
      simp only [update_self, Knows]
    · simpa only [update_of_ne hu] using h.knows u
  | take t i hpoint hfree =>
    refine ⟨hexclusive, fun k hk => ?_, fun u => ?_⟩
    · by_cases hne : k = P.lock i
      · subst hne
        simp at hk
      · exact h.free k (by simpa only [update_of_ne hne] using hk)
    · by_cases hu : u = t
      · subst hu
        simpa only [update_self, Knows] using O.enter i m.shared (h.free _ hfree)
      · simpa only [update_of_ne hu] using h.knows u
  | go t i p p' s hpoint hbody =>
    have hat : O.inside i p m.shared := by
      have := h.knows t
      rwa [hpoint] at this
    exact h.body (r := (s, some p')) hpoint hbody rfl (O.go i p _ s p' hat hbody)
  | finish t i p s hpoint hbody =>
    have hat : O.inside i p m.shared := by
      have := h.knows t
      rwa [hpoint] at this
    exact h.body (r := (s, none)) hpoint hbody rfl (O.finish i p _ s hat hbody)
  | unlock t i hpoint =>
    have hknows := h.knows t
    rw [hpoint] at hknows
    refine ⟨hexclusive, fun k hk => ?_, fun u => ?_⟩
    · by_cases hne : k = P.lock i
      · rw [hne]
        exact hknows
      · exact h.free k (by simpa only [update_of_ne hne] using hk)
    · by_cases hu : u = t
      · subst hu
        simp only [update_self, Knows]
      · simpa only [update_of_ne hu] using h.knows u
  | outside e =>
    refine ⟨hexclusive, fun k hk => O.free_outside k e _ (h.free k hk), fun u => ?_⟩
    have hknows := h.knows u
    show O.Knows (P.outside e m.shared) (m.point u)
    cases hx : m.point u with
    | idle | spinning => trivial
    | inside j q =>
      rw [hx] at hknows
      exact O.inside_outside j q e _ hknows
    | leaving j =>
      rw [hx] at hknows
      exact O.free_outside _ e _ hknows

end Outline
end SpinLock
