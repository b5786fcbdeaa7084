import LingNet.Lib.Amortized
import LingNet.Lib.Coroutine
import Mathlib.Algebra.BigOperators.Group.List.Basic
import Mathlib.Algebra.Ring.Nat
import Mathlib.Tactic.Ring

/-! Coroutines on credit. A tariff says what an action earns and what it costs. A coroutine that
never runs into debt, whatever is replied, keeps a whole service out of debt, in which coroutines
arrive, take turns over a shared state and are cancelled. -/
namespace Coroutine

/-- What an action earns and costs, with the reply to it. -/
structure Tariff (A : Type) (R : A → Type) where
  earn : (a : A) → R a → ℕ
  cost : (a : A) → R a → ℕ

variable {A : Type} {R : A → Type} {α β S E : Type} {π : Tariff A R}

/-- The coroutine pays for every action, and what it returns meets `P` with what is left. -/
def Pays (π : Tariff A R) (P : ℕ → α → Prop) : ℕ → Coroutine A R α → Prop
  | credit, .done a => P credit a
  | credit, .act a k => ∀ r, π.cost a r ≤ credit + π.earn a r ∧
      Pays π P (credit + π.earn a r - π.cost a r) (k r)

/-- The credit suffices. -/
def Solvent (π : Tariff A R) (credit : ℕ) (t : Coroutine A R α) : Prop :=
  t.Pays π (fun _ _ => True) credit

section Pays

variable {P Q : ℕ → α → Prop} {credit : ℕ}

theorem Pays.mono (hPQ : ∀ c a, P c a → Q c a) {t : Coroutine A R α} (h : t.Pays π P credit) :
    t.Pays π Q credit := by
  induction t generalizing credit with
  | done a => exact hPQ credit a h
  | act a k ih => exact fun r => ⟨(h r).1, ih r (h r).2⟩

theorem Pays.bind {x : Coroutine A R β} {f : β → Coroutine A R α}
    (h : x.Pays π (fun c b => (f b).Pays π P c) credit) : (x >>= f).Pays π P credit := by
  induction x generalizing credit with
  | done b => exact h
  | act a k ih => exact fun r => ⟨(h r).1, ih r (h r).2⟩

/-- An action that earns nothing. -/
theorem Pays.perform {a : A} {f : R a → Coroutine A R α} {price : ℕ} (hearn : ∀ r, π.earn a r = 0)
    (hcost : ∀ r, π.cost a r = price) (hle : price ≤ credit)
    (h : ∀ r, (f r).Pays π P (credit - price)) :
    (Coroutine.perform a >>= f).Pays π P credit := by
  intro r
  rw [hearn, hcost, Nat.add_zero]
  exact ⟨hle, h r⟩

/-- An action that is free. -/
theorem Pays.free {a : A} {f : R a → Coroutine A R α} (hearn : ∀ r, π.earn a r = 0)
    (hcost : ∀ r, π.cost a r = 0) (h : ∀ r, (f r).Pays π P credit) :
    (Coroutine.perform a >>= f).Pays π P credit :=
  Pays.perform hearn hcost (Nat.zero_le credit) h

end Pays

/-! Coroutines that share their credit. -/

/-- The credit can be divided among the coroutines. -/
def Funded (π : Tariff A R) (credit : ℕ) (tasks : List (Coroutine A R α)) : Prop :=
  ∃ accounts : List (ℕ × Coroutine A R α), accounts.map Prod.snd = tasks ∧
    (accounts.map Prod.fst).sum = credit ∧ ∀ account ∈ accounts, account.2.Solvent π account.1

namespace Funded

variable {credit credit' : ℕ} {tasks tasks' : List (Coroutine A R α)}

theorem nil : Funded π 0 ([] : List (Coroutine A R α)) := ⟨[], rfl, rfl, nofun⟩

theorem append (h : Funded π credit tasks) (h' : Funded π credit' tasks') :
    Funded π (credit + credit') (tasks ++ tasks') := by
  obtain ⟨accounts, rfl, rfl, hsolvent⟩ := h
  obtain ⟨accounts', rfl, rfl, hsolvent'⟩ := h'
  refine ⟨accounts ++ accounts', List.map_append, ?_, ?_⟩
  · rw [List.map_append, List.sum_append]
  · intro account haccount
    rcases List.mem_append.mp haccount with hmem | hmem
    · exact hsolvent account hmem
    · exact hsolvent' account hmem

theorem of_forall (h : ∀ t ∈ tasks, t.Solvent π credit) :
    Funded π (credit * tasks.length) tasks := by
  refine ⟨tasks.map fun t => (credit, t), ?_, ?_, ?_⟩
  · rw [List.map_map]
    exact List.map_id tasks
  · rw [List.map_map]
    induction tasks with
    | nil => rfl
    | cons t tasks ih =>
      rw [List.map_cons, List.sum_cons, ih fun u hu => h u (List.mem_cons_of_mem t hu)]
      simp only [Function.comp_apply, List.length_cons]
      ring
  · intro account haccount
    obtain ⟨t, ht, rfl⟩ := List.mem_map.mp haccount
    exact h t ht

/-- One coroutine and its share of the credit. -/
theorem split {i : ℕ} {t : Coroutine A R α} (h : Funded π credit tasks)
    (ht : tasks[i]? = some t) : ∃ share rest, t.Solvent π share ∧ share + rest = credit ∧
      ∀ share' t', t'.Solvent π share' → Funded π (share' + rest) (tasks.set i t') := by
  obtain ⟨accounts, rfl, rfl, hsolvent⟩ := h
  rw [List.getElem?_map] at ht
  obtain ⟨account, haccount, rfl⟩ := Option.map_eq_some_iff.mp ht
  obtain ⟨hlt, hget⟩ := List.getElem?_eq_some_iff.mp haccount
  have hparts : accounts = accounts.take i ++ account :: accounts.drop (i + 1) := by
    rw [← hget, List.getElem_cons_drop, List.take_append_drop]
  refine ⟨account.1, ((accounts.take i).map Prod.fst).sum +
    ((accounts.drop (i + 1)).map Prod.fst).sum,
    hsolvent account (List.mem_of_getElem? haccount), ?_, fun share' t' ht' => ?_⟩
  · conv_rhs => rw [hparts, List.map_append, List.map_cons, List.sum_append, List.sum_cons]
    omega
  · refine ⟨accounts.set i (share', t'), List.map_set, ?_, ?_⟩
    · rw [List.set_eq_take_append_cons_drop, if_pos hlt, List.map_append, List.map_cons,
        List.sum_append, List.sum_cons]
      omega
    · intro account' haccount'
      rcases List.mem_or_eq_of_mem_set haccount' with hmem | rfl
      · exact hsolvent account' hmem
      · exact ht'

/-- A coroutine that ends leaves its credit behind. -/
theorem finish {i : ℕ} (a : α) (h : Funded π credit tasks) (hi : i < tasks.length) :
    Funded π credit (tasks.set i (.done a)) := by
  obtain ⟨share, rest, -, rfl, hset⟩ := h.split (List.getElem?_eq_getElem hi)
  exact hset share (.done a) trivial

end Funded

/-- What a turn comes to, by the action that is performed and the reply. -/
def fee (f : (a : A) → R a → ℕ) (h : Handler S A R E) (p : S × List (Coroutine A R α))
    (i : ℕ × E) : ℕ :=
  match p.2[i.1]? with
  | some (.act a _) => f a (h p.1 a i.2).1
  | _ => 0

theorem fee_of_act {f : (a : A) → R a → ℕ} {h : Handler S A R E} {p : S × List (Coroutine A R α)}
    {i : ℕ × E} {a : A} {k : R a → Coroutine A R α} (hi : p.2[i.1]? = some (.act a k)) :
    fee f h p i = f a (h p.1 a i.2).1 := by
  unfold fee
  rw [hi]

theorem Funded.advance {h : Handler S A R E} {p p' : S × List (Coroutine A R α)} {i : ℕ × E}
    {credit : ℕ} (hp : Funded π credit p.2) (hi : Coroutine.advance h p i = some p') :
    ∃ credit', Funded π credit' p'.2 ∧
      fee π.cost h p i + credit' = credit + fee π.earn h p i := by
  obtain ⟨a, k, hget, rfl⟩ := advance_eq_some.mp hi
  obtain ⟨share, rest, hsolvent, rfl, hset⟩ := hp.split hget
  obtain ⟨hle, hrest⟩ := hsolvent (h p.1 a i.2).1
  refine ⟨_, hset _ _ hrest, ?_⟩
  rw [fee_of_act hget, fee_of_act hget]
  omega

/-! A service. -/

/-- Coroutines take turns over a shared state. Requests change it and start coroutines. -/
structure Service (S A : Type) (R : A → Type) (E α Q : Type) where
  handler : Handler S A R E
  arrive : S → Q → S × List (Coroutine A R α)
  cancelled : α

namespace Service

variable {Q : Type}

inductive Event (E Q : Type) where
  | request (q : Q)
  | turn (i : ℕ) (e : E)
  | cancel (i : ℕ)

variable (V : Service S A R E α Q)

def step (p : S × List (Coroutine A R α)) : Event E Q → Option (S × List (Coroutine A R α))
  | .request q => some ((V.arrive p.1 q).1, p.2 ++ (V.arrive p.1 q).2)
  | .turn i e => advance V.handler p (i, e)
  | .cancel i =>
    match p.2[i]? with
    | some (.act _ _) => some (p.1, p.2.set i (.done V.cancelled))
    | _ => none

theorem step_cancel_eq_some {V : Service S A R E α Q} {p p' : S × List (Coroutine A R α)} {i : ℕ}
    (h : V.step p (.cancel i) = some p') :
    i < p.2.length ∧ p' = (p.1, p.2.set i (.done V.cancelled)) := by
  simp only [step] at h
  split at h
  · next a k hget =>
    obtain ⟨hlt, -⟩ := List.getElem?_eq_some_iff.mp hget
    exact ⟨hlt, (Option.some.inj h).symm⟩
  · cases h

/-- What an event comes to, by the action that is performed. -/
def charges (f : (a : A) → R a → ℕ) (p : S × List (Coroutine A R α)) : Event E Q → ℕ
  | .turn i e => fee f V.handler p (i, e)
  | _ => 0

/-- The coroutines that an event starts. -/
def arrivals (p : S × List (Coroutine A R α)) : Event E Q → ℕ
  | .request q => (V.arrive p.1 q).2.length
  | _ => 0

variable {V} {I : S → Prop} {p p' : S × List (Coroutine A R α)} {f g : (a : A) → R a → ℕ}

theorem charges_add (event : Event E Q) :
    V.charges (fun a r => f a r + g a r) p event = V.charges f p event + V.charges g p event := by
  cases event with
  | turn i e =>
    simp only [charges, fee]
    split <;> rfl
  | _ => rfl

theorem charges_const_mul (n : ℕ) (event : Event E Q) :
    V.charges (fun a r => n * f a r) p event = n * V.charges f p event := by
  cases event with
  | turn i e =>
    simp only [charges, fee]
    split <;> rfl
  | _ => rfl

theorem state_step {event : Event E Q} (hturn : ∀ s a e, I s → I (V.handler s a e).2)
    (harrive : ∀ s q, I s → I (V.arrive s q).1) (hp : I p.1) (h : V.step p event = some p') :
    I p'.1 := by
  cases event with
  | request q =>
    cases h
    exact harrive _ _ hp
  | turn i e =>
    obtain ⟨a, k, -, rfl⟩ := advance_eq_some.mp h
    exact hturn _ _ _ hp
  | cancel i =>
    obtain ⟨-, rfl⟩ := step_cancel_eq_some h
    exact hp

theorem funded_step {event : Event E Q} {share credit : ℕ}
    (hsolvent : ∀ q, ∀ t ∈ (V.arrive p.1 q).2, t.Solvent π share) (hp : Funded π credit p.2)
    (h : V.step p event = some p') : ∃ credit', Funded π credit' p'.2 ∧
      V.charges π.cost p event + credit' =
        credit + V.charges π.earn p event + share * V.arrivals p event := by
  cases event with
  | request q =>
    cases h
    refine ⟨_, hp.append (.of_forall (hsolvent q)), ?_⟩
    simp only [charges, arrivals]
    omega
  | turn i e =>
    obtain ⟨credit', hfunded, hbalance⟩ := hp.advance h
    refine ⟨credit', hfunded, ?_⟩
    simp only [charges, arrivals]
    omega
  | cancel i =>
    obtain ⟨hlt, rfl⟩ := step_cancel_eq_some h
    refine ⟨credit, hp.finish _ hlt, ?_⟩
    simp only [charges, arrivals]
    omega

/-- Over a run, what is paid and left is what was there, was earned and came with the arrivals. -/
theorem balance {share credit : ℕ} (hturn : ∀ s a e, I s → I (V.handler s a e).2)
    (harrive : ∀ s q, I s → I (V.arrive s q).1)
    (hsolvent : ∀ s q, I s → ∀ t ∈ (V.arrive s q).2, t.Solvent π share)
    {events : List (Event E Q)} (hI : I p.1) (hp : Funded π credit p.2)
    (hr : Run.run V.step p events = some p') : ∃ credit', Funded π credit' p'.2 ∧
      Run.total V.step (V.charges π.cost) p events + credit' =
        credit + Run.total V.step (V.charges π.earn) p events +
          share * Run.total V.step V.arrivals p events := by
  induction events generalizing p credit with
  | nil =>
    cases hr
    exact ⟨credit, hp, by simp⟩
  | cons event events ih =>
    obtain ⟨p₁, h₁, hr⟩ := Run.run_cons_eq_some.mp hr
    obtain ⟨credit₁, hfunded, hbalance⟩ := funded_step (fun q => hsolvent p.1 q hI) hp h₁
    obtain ⟨credit', hfunded', hbalance'⟩ := ih (state_step hturn harrive hI h₁) hfunded hr
    refine ⟨credit', hfunded', ?_⟩
    rw [Run.total_cons_of_step h₁, Run.total_cons_of_step h₁, Run.total_cons_of_step h₁, Nat.mul_add]
    omega

/-- The same as a bound. -/
theorem charges_le {share : ℕ} (hturn : ∀ s a e, I s → I (V.handler s a e).2)
    (harrive : ∀ s q, I s → I (V.arrive s q).1)
    (hsolvent : ∀ s q, I s → ∀ t ∈ (V.arrive s q).2, t.Solvent π share) {s : S}
    {events : List (Event E Q)} (hI : I s) (hr : Run.run V.step (s, []) events = some p') :
    Run.total V.step (V.charges π.cost) (s, []) events ≤
      Run.total V.step (V.charges π.earn) (s, []) events +
        share * Run.total V.step V.arrivals (s, []) events := by
  obtain ⟨credit', -, hbalance⟩ := balance hturn harrive hsolvent hI .nil hr
  omega

end Service
end Coroutine
