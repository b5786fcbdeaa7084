import LingNet.Lib.Run

/-! Coroutines: computations that perform actions and go on with the replies. They run alone, or
many of them take turns over a shared state. -/

/-- A coroutine returns a value, or performs an action and resumes with the reply to it. -/
inductive Coroutine (A : Type) (R : A → Type) (α : Type) where
  | done (a : α)
  | act (a : A) (resume : R a → Coroutine A R α)

namespace Coroutine

variable {A : Type} {R : A → Type} {α β S E G : Type}

def bind : Coroutine A R α → (α → Coroutine A R β) → Coroutine A R β
  | .done a, f => f a
  | .act a k, f => .act a fun r => (k r).bind f

instance : Monad (Coroutine A R) where
  pure := .done
  bind := bind

def perform (a : A) : Coroutine A R (R a) := .act a .done

@[simp] theorem perform_bind (a : A) (f : R a → Coroutine A R β) : (perform a >>= f) = .act a f := rfl

@[simp] theorem bind_done (x : Coroutine A R α) : (x >>= Coroutine.done) = x := by
  induction x with
  | done a => rfl
  | act a k ih => exact congrArg (Coroutine.act a) (funext ih)

def IsDone (t : Coroutine A R α) : Prop := ∃ a, t = .done a

/-- What a coroutine returned. -/
def result? : Coroutine A R α → Option α
  | .done a => some a
  | .act _ _ => none

/-- What becomes of the state `S` at an action, and the reply, which may depend on what the
environment `E` has to say. -/
abbrev Handler (S A : Type) (R : A → Type) (E : Type) := S → (a : A) → E → R a × S

/-- A coroutine on its own: the environment answers the actions in turn. -/
def run (h : Handler S A R E) : Coroutine A R α → (ℕ → E) → S → α × S
  | .done a, _, s => (a, s)
  | .act a k, env, s =>
    run h (k (h s a (env 0)).1) (fun n => env (n + 1)) (h s a (env 0)).2

@[simp] theorem run_done (h : Handler S A R E) (a : α) (env : ℕ → E) (s : S) :
    (Coroutine.done a : Coroutine A R α).run h env s = (a, s) := rfl

theorem run_act (h : Handler S A R E) (a : A) (k : R a → Coroutine A R α) (env : ℕ → E) (s : S) :
    (Coroutine.act a k).run h env s =
      (k (h s a (env 0)).1).run h (fun n => env (n + 1)) (h s a (env 0)).2 := rfl

/-- The parts of a coroutine run one by one; the second finds the environment where the first has
left it. -/
theorem exists_run_bind (h : Handler S A R E) (x : Coroutine A R β) (f : β → Coroutine A R α)
    (env : ℕ → E) (s : S) : ∃ env', (x >>= f).run h env s =
      (f (x.run h env s).1).run h env' (x.run h env s).2 := by
  induction x generalizing env s with
  | done b => exact ⟨env, rfl⟩
  | act a k ih => exact ih _ (fun n => env (n + 1)) _

/-- In an environment that always answers the same, the parts of a coroutine run one by one. -/
theorem run_bind_const (h : Handler S A R E) (x : Coroutine A R β) (f : β → Coroutine A R α) (e : E)
    (s : S) : (x >>= f).run h (fun _ => e) s =
      (f (x.run h (fun _ => e) s).1).run h (fun _ => e) (x.run h (fun _ => e) s).2 := by
  induction x generalizing s with
  | done b => rfl
  | act a k ih => exact ih _ _

/-- Every action that a coroutine can come to meets `N` with how it resumes. -/
def Always (N : (a : A) → (R a → Coroutine A R α) → Prop) : Coroutine A R α → Prop
  | .done _ => True
  | .act a k => N a k ∧ ∀ r, (k r).Always N

theorem Always.bind {N : (a : A) → (R a → Coroutine A R α) → Prop} {x : Coroutine A R β}
    {f : β → Coroutine A R α} (hx : x.Always fun a k => N a fun r => k r >>= f)
    (hf : ∀ b, (f b).Always N) : (x >>= f).Always N := by
  induction x with
  | done b => exact hf b
  | act a k ih => exact ⟨hx.1, fun r => ih r (hx.2 r)⟩

/-! What holds along a coroutine, for all replies that are allowed. A ghost `g` follows the
actions. -/

section Along

variable {next : G → (a : A) → R a → G} {Allowed Allowed' : G → (a : A) → R a → Prop}
  {P Q : G → α → Prop} {env : ℕ → E}

/-- Wherever allowed replies lead, the value returned meets `P`. -/
def Along (next : G → (a : A) → R a → G) (Allowed : G → (a : A) → R a → Prop)
    (P : G → α → Prop) : G → Coroutine A R α → Prop
  | g, .done a => P g a
  | g, .act a k => ∀ r, Allowed g a r → Along next Allowed P (next g a r) (k r)

theorem Along.mono (hP : ∀ g a, P g a → Q g a) (hA : ∀ g a r, Allowed' g a r → Allowed g a r)
    {t : Coroutine A R α} {g : G} (h : t.Along next Allowed P g) : t.Along next Allowed' Q g := by
  induction t generalizing g with
  | done a => exact hP g a h
  | act a k ih => exact fun r hr => ih r (h r (hA g a r hr))

theorem Along.perform {a : A} {f : R a → Coroutine A R α} {g : G}
    (h : ∀ r, Allowed g a r → (f r).Along next Allowed P (next g a r)) :
    (Coroutine.perform a >>= f).Along next Allowed P g := h

theorem Along.bind {x : Coroutine A R β} {f : β → Coroutine A R α} {g : G}
    (h : x.Along next Allowed (fun g b => (f b).Along next Allowed P g) g) :
    (x >>= f).Along next Allowed P g := by
  induction x generalizing g with
  | done b => exact h
  | act a k ih => exact fun r hr => ih r (h r hr)

/-- What holds along a coroutine holds of its run, if the environment gives allowed replies only. -/
theorem Along.run {h : Handler S A R E} (henv : ∀ (n : ℕ) g a s, Allowed g a (h s a (env n)).1)
    {t : Coroutine A R α} {g : G} (ht : t.Along next Allowed P g) (s : S) :
    ∃ g', P g' (t.run h env s).1 := by
  induction t generalizing g env s with
  | done a => exact ⟨g, ht⟩
  | act a k ih => exact ih _ (fun n => henv (n + 1)) (ht _ (henv 0 g a s)) _

end Along

/-! Two coroutines that cannot be told apart by what they return and leave, whatever the environment
says to each. -/

section Alike

variable {h : Handler S A R E} {rel : α → α → Prop} {rel' : β → β → Prop}

/-- From every state, what they return is related and the state that they leave is the same. -/
def Alike (h : Handler S A R E) (rel : α → α → Prop) (x y : Coroutine A R α) : Prop :=
  ∀ env env' s, rel (x.run h env s).1 (y.run h env' s).1 ∧ (x.run h env s).2 = (y.run h env' s).2

theorem Alike.done {a b : α} (hab : rel a b) : Alike h rel (.done a) (.done b) :=
  fun _ _ _ => ⟨hab, rfl⟩

/-- Actions with the same effect and replies. -/
theorem Alike.act {a b : A} {k : R a → Coroutine A R α} {l : R b → Coroutine A R α}
    (hstate : ∀ s e e', (h s a e).2 = (h s b e').2)
    (hresume : ∀ s e e', Alike h rel (k (h s a e).1) (l (h s b e').1)) :
    Alike h rel (.act a k) (.act b l) := by
  intro env env' s
  rw [run_act, run_act, ← hstate s (env 0) (env' 0)]
  exact hresume s (env 0) (env' 0) _ _ _

/-- An action without effect that the first does not perform. -/
theorem Alike.act_right {b : A} {x : Coroutine A R α} {l : R b → Coroutine A R α}
    (hstate : ∀ s e, (h s b e).2 = s) (hresume : ∀ r, Alike h rel x (l r)) :
    Alike h rel x (.act b l) := by
  intro env env' s
  rw [run_act, hstate]
  exact hresume _ _ _ _

theorem Alike.bind {x y : Coroutine A R α} {f g : α → Coroutine A R β} (hxy : Alike h rel x y)
    (hfg : ∀ a b, rel a b → Alike h rel' (f a) (g b)) : Alike h rel' (x >>= f) (y >>= g) := by
  intro env env' s
  obtain ⟨hvalue, hstate⟩ := hxy env env' s
  obtain ⟨later, hx⟩ := exists_run_bind h x f env s
  obtain ⟨later', hy⟩ := exists_run_bind h y g env' s
  rw [hx, hy, ← hstate]
  exact hfg _ _ hvalue later later' _

/-- A coroutine that is alike with another one does not depend on the environment. -/
theorem Alike.refl_left {x y : Coroutine A R α} (hxy : Alike h Eq x y) : Alike h Eq x x := by
  intro env env' s
  obtain ⟨hvalue, hstate⟩ := hxy env env s
  obtain ⟨hvalue', hstate'⟩ := hxy env' env s
  exact ⟨hvalue.trans hvalue'.symm, hstate.trans hstate'.symm⟩

end Alike

/-! Coroutines that take turns. -/

section Pool

variable {h : Handler S A R E}

/-- Coroutine `i` performs its next action. -/
def advance (h : Handler S A R E) (p : S × List (Coroutine A R α)) (i : ℕ × E) :
    Option (S × List (Coroutine A R α)) :=
  match p.2[i.1]? with
  | some (.act a k) => some ((h p.1 a i.2).2, p.2.set i.1 (k (h p.1 a i.2).1))
  | _ => none

theorem advance_eq_some {p p' : S × List (Coroutine A R α)} {i : ℕ × E} :
    advance h p i = some p' ↔ ∃ a k, p.2[i.1]? = some (.act a k) ∧
      p' = ((h p.1 a i.2).2, p.2.set i.1 (k (h p.1 a i.2).1)) := by
  unfold advance
  cases hi : p.2[i.1]? with
  | none => simp
  | some t =>
    cases t with
    | done b => simp
    | act a k =>
      simp only [Option.some.injEq]
      constructor
      · intro heq
        exact ⟨a, k, rfl, heq.symm⟩
      · rintro ⟨a', k', heq, rfl⟩
        cases heq
        rfl

theorem length_advance {p p' : S × List (Coroutine A R α)} {i : ℕ × E} (hi : advance h p i = some p') :
    p'.2.length = p.2.length := by
  obtain ⟨a, k, -, rfl⟩ := advance_eq_some.mp hi
  exact List.length_set

theorem Always.advance {N : (a : A) → (R a → Coroutine A R α) → Prop}
    {handler : Handler S A R E} {p p' : S × List (Coroutine A R α)} {i : ℕ × E}
    (h : ∀ t ∈ p.2, t.Always N)
    (hi : advance handler p i = some p') : ∀ t ∈ p'.2, t.Always N := by
  obtain ⟨a, k, hget, rfl⟩ := advance_eq_some.mp hi
  intro t ht
  rcases List.mem_or_eq_of_mem_set ht with ht | rfl
  · exact h t ht
  · exact (h _ (List.mem_of_getElem? hget)).2 _

/-- The turns of one coroutine, until it returns, leave the others where they are. -/
theorem exists_finish_one (t : Coroutine A R α) (env : ℕ → E) (s : S) (tasks : List (Coroutine A R α))
    {i : ℕ} (hi : tasks[i]? = some t) :
    ∃ turns, Run.run (advance h) (s, tasks) turns =
      some ((t.run h env s).2, tasks.set i (.done (t.run h env s).1)) := by
  induction t generalizing env s tasks with
  | done a =>
    obtain ⟨hlt, hget⟩ := List.getElem?_eq_some_iff.mp hi
    refine ⟨[], ?_⟩
    rw [run_done, ← hget, List.set_getElem_self]
    rfl
  | act a k ih =>
    obtain ⟨hlt, hget⟩ := List.getElem?_eq_some_iff.mp hi
    have hstep : advance h (s, tasks) (i, env 0) =
        some ((h s a (env 0)).2, tasks.set i (k (h s a (env 0)).1)) :=
      advance_eq_some.mpr ⟨a, k, hi, rfl⟩
    have hi' : (tasks.set i (k (h s a (env 0)).1))[i]? = some (k (h s a (env 0)).1) :=
      List.getElem?_set_self hlt
    obtain ⟨turns, hturns⟩ := ih (h s a (env 0)).1 (fun n => env (n + 1)) (h s a (env 0)).2 _ hi'
    refine ⟨(i, env 0) :: turns, ?_⟩
    rw [Run.run_cons_of_step hstep, hturns, List.set_set, run_act]

/-- All coroutines of a pool can return. -/
theorem exists_finish (e : E) (s : S) (tasks : List (Coroutine A R α)) :
    ∃ turns p, Run.run (advance h) (s, tasks) turns = some p ∧ p.2.length = tasks.length ∧
      ∀ t ∈ p.2, t.IsDone := by
  have hprefix : ∀ n ≤ tasks.length, ∃ turns p, Run.run (advance h) (s, tasks) turns = some p ∧
      p.2.length = tasks.length ∧ ∀ i < n, ∀ t, p.2[i]? = some t → t.IsDone := by
    intro n hn
    induction n with
    | zero => exact ⟨[], (s, tasks), rfl, rfl, fun i hi => absurd hi (Nat.not_lt_zero i)⟩
    | succ n ih =>
      obtain ⟨turns, p, hrun, hlength, hdone⟩ := ih (Nat.le_of_succ_le hn)
      have hlt : n < p.2.length := by omega
      obtain ⟨more, hmore⟩ :=
        exists_finish_one (h := h) p.2[n] (fun _ => e) p.1 p.2 (List.getElem?_eq_getElem hlt)
      refine ⟨turns ++ more, _, (Run.run_append_of_run hrun more).trans hmore, ?_, ?_⟩
      · rw [List.length_set, hlength]
      · intro i hi t ht
        rcases Nat.lt_succ_iff_lt_or_eq.mp hi with hlt' | rfl
        · rw [List.getElem?_set_ne (Nat.ne_of_gt hlt')] at ht
          exact hdone i hlt' t ht
        · rw [List.getElem?_set_self hlt] at ht
          exact ⟨_, (Option.some.inj ht).symm⟩
  obtain ⟨turns, p, hrun, hlength, hdone⟩ := hprefix tasks.length (Nat.le_refl _)
  refine ⟨turns, p, hrun, hlength, fun t ht => ?_⟩
  obtain ⟨i, hi, rfl⟩ := List.getElem_of_mem ht
  exact hdone i (hlength ▸ hi) _ (List.getElem?_eq_getElem hi)

end Pool
end Coroutine
