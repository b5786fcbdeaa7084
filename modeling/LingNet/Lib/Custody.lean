import Mathlib.Algebra.BigOperators.Group.Finset.Basic
import Mathlib.Algebra.Order.BigOperators.Group.Finset
import Mathlib.Algebra.Order.Group.Multiset
import Mathlib.Data.Fintype.Basic
import Mathlib.Tactic.Abel

/-! Custody of resources that circulate between pools and holders. A policy says which
pool may serve which kind of holder, which pool a holder may hand back to, and between
which pools a resource may be moved. Whatever the policy, nothing is lost or duplicated;
and a resource inside a set of places that the policy never leaves stays inside it. -/
namespace Custody
open Function

variable {P T B : Type*}

structure Policy (P T : Type*) where
  serves : P → T → Prop
  returns : T → P → Prop
  transfers : P → P → Prop

/-- The pools as stacks and the resources in the hands of holders. -/
structure State (P T B : Type*) where
  stack : P → List B
  held : List (T × B)

inductive Place (P T : Type*) where
  | pool (p : P)
  | holder (t : T)

def State.At (c : State P T B) (b : B) : Place P T → Prop
  | .pool p => b ∈ c.stack p
  | .holder t => (t, b) ∈ c.held

/-- All resources, with multiplicity. -/
def State.total [Fintype P] (c : State P T B) : Multiset B :=
  ∑ p, (c.stack p : Multiset B) + (c.held.map Prod.snd : Multiset B)

section Disjoint
variable [Fintype P]

theorem State.At.mem_total {c : State P T B} {b : B} {x : Place P T} (h : c.At b x) :
    b ∈ c.total := by
  cases x with
  | pool p =>
    exact Multiset.mem_add.mpr (.inl (Multiset.mem_sum.mpr ⟨p, Finset.mem_univ p, h⟩))
  | holder t => exact Multiset.mem_add.mpr (.inr (List.mem_map.mpr ⟨(t, b), h, rfl⟩))

/-! When no resource occurs twice, the places are pairwise disjoint. -/

theorem State.not_mem_stack_of_held {c : State P T B} (hc : c.total.Nodup) {t : T} {b : B}
    (hb : (t, b) ∈ c.held) (p : P) : b ∉ c.stack p := by
  intro hp
  obtain ⟨_, _, hdisj⟩ := Multiset.nodup_add.mp hc
  refine Multiset.disjoint_left.mp hdisj (Multiset.mem_sum.mpr ⟨p, Finset.mem_univ p, hp⟩) ?_
  exact Multiset.mem_coe.mpr (List.mem_map.mpr ⟨(t, b), hb, rfl⟩)

theorem State.not_mem_stack_of_ne {c : State P T B} (hc : c.total.Nodup) {p q : P} (hpq : p ≠ q)
    {b : B} (hb : b ∈ c.stack p) : b ∉ c.stack q := by
  classical
  intro hq
  obtain ⟨hsum, _, _⟩ := Multiset.nodup_add.mp hc
  rw [← Finset.add_sum_erase _ _ (Finset.mem_univ p)] at hsum
  obtain ⟨_, _, hdisj⟩ := Multiset.nodup_add.mp hsum
  refine Multiset.disjoint_left.mp hdisj hb (Multiset.mem_sum.mpr ⟨q, ?_, hq⟩)
  exact Finset.mem_erase.mpr ⟨hpq.symm, Finset.mem_univ q⟩

theorem State.held_nodup {c : State P T B} (hc : c.total.Nodup) :
    (c.held.map Prod.snd).Nodup :=
  (Multiset.nodup_add.mp hc).2.1

/-- A resource has one place. -/
theorem State.At.unique {c : State P T B} (hc : c.total.Nodup) {b : B} {x y : Place P T}
    (hx : c.At b x) (hy : c.At b y) : x = y := by
  cases x with
  | pool p =>
    cases y with
    | pool q =>
      by_contra hpq
      exact State.not_mem_stack_of_ne hc (fun h => hpq (congrArg Place.pool h)) hx hy
    | holder t => exact absurd hx (State.not_mem_stack_of_held hc hy p)
  | holder t =>
    cases y with
    | pool q => exact absurd hy (State.not_mem_stack_of_held hc hx q)
    | holder t' =>
      have hpair := List.inj_on_of_nodup_map (State.held_nodup hc) hx hy rfl
      rw [(Prod.mk.inj hpair).1]

theorem State.length_stack_le {c : State P T B} (p : P) : (c.stack p).length ≤ c.total.card := by
  have hp : (c.stack p : Multiset B) ≤ ∑ q, (c.stack q : Multiset B) :=
    Finset.single_le_sum (f := fun q => (c.stack q : Multiset B))
      (fun q _ => Multiset.zero_le _) (Finset.mem_univ p)
  have htotal : (c.stack p : Multiset B) ≤ c.total := hp.trans (Multiset.le_add_right _ _)
  exact Multiset.card_le_card htotal

end Disjoint

variable [DecidableEq P]

/-- The transitions a policy allows. -/
inductive Move (pol : Policy P T) (c : State P T B) : State P T B → Prop where
  | stay : Move pol c c
  | take {p : P} {t : T} {b : B} {l : List B} (hp : c.stack p = b :: l) (ht : pol.serves p t) :
      Move pol c ⟨update c.stack p l, (t, b) :: c.held⟩
  | give {i : ℕ} {t : T} {b : B} {p : P} (hi : c.held[i]? = some (t, b)) (hp : pol.returns t p) :
      Move pol c ⟨update c.stack p (b :: c.stack p), c.held.eraseIdx i⟩
  | transfer {p q : P} {b : B} {l : List B} (hp : c.stack p = b :: l) (hq : pol.transfers p q)
      (hpq : p ≠ q) :
      Move pol c ⟨update (update c.stack p l) q (b :: c.stack q), c.held⟩

/-- A set of places that the policy never leaves. -/
structure Policy.Closed (pol : Policy P T) (U : Place P T → Prop) : Prop where
  serves : ∀ p t, U (.pool p) → pol.serves p t → U (.holder t)
  returns : ∀ t p, U (.holder t) → pol.returns t p → U (.pool p)
  transfers : ∀ p q, U (.pool p) → pol.transfers p q → U (.pool q)

theorem perm_cons_eraseP {α : Type*} {p : α → Bool} {l : List α} {a : α}
    (h : l.find? p = some a) : l.Perm (a :: l.eraseP p) := by
  induction l with
  | nil => cases h
  | cons b l ih =>
    by_cases hb : p b = true
    · rw [List.find?_cons_of_pos hb] at h
      cases h
      rw [List.eraseP_cons_of_pos hb]
    · rw [List.find?_cons_of_neg hb] at h
      rw [List.eraseP_cons_of_neg hb]
      exact ((ih h).cons b).trans (List.Perm.swap a b _)

theorem perm_cons_eraseIdx {α : Type*} {l : List α} {i : ℕ} {a : α} (h : l[i]? = some a) :
    l.Perm (a :: l.eraseIdx i) := by
  obtain ⟨hi, rfl⟩ := List.getElem?_eq_some_iff.mp h
  exact (List.getElem_cons_eraseIdx_perm hi).symm

section Total
variable [Fintype P]

theorem sum_update_stack (st : P → List B) (p : P) (l : List B) :
    ∑ q, (update st p l q : Multiset B) + (st p : Multiset B) =
      ∑ q, (st q : Multiset B) + (l : Multiset B) := by
  have hne : ∀ q ∈ Finset.univ.erase p, (update st p l q : Multiset B) = (st q : Multiset B) :=
    fun q hq => by rw [update_of_ne (Finset.ne_of_mem_erase hq)]
  rw [← Finset.add_sum_erase _ _ (Finset.mem_univ p),
    ← Finset.add_sum_erase _ (fun q => (st q : Multiset B)) (Finset.mem_univ p),
    Finset.sum_congr rfl hne, update_self]
  abel

theorem sum_pop {st : P → List B} {p : P} {b : B} {l : List B} (hp : st p = b :: l) :
    b ::ₘ ∑ q, (update st p l q : Multiset B) = ∑ q, (st q : Multiset B) := by
  have h := sum_update_stack st p l
  rw [hp, ← Multiset.cons_coe, Multiset.add_cons, ← Multiset.cons_add] at h
  exact add_right_cancel h

theorem sum_push (st : P → List B) (p : P) (b : B) :
    ∑ q, (update st p (b :: st p) q : Multiset B) = b ::ₘ ∑ q, (st q : Multiset B) := by
  have h := sum_update_stack st p (b :: st p)
  rw [← Multiset.cons_coe, Multiset.add_cons, ← Multiset.cons_add] at h
  exact add_right_cancel h

/-- Dropping resources from a stack keeps the total free of duplicates. -/
theorem State.nodup_of_sublist {c : State P T B} (hc : c.total.Nodup) {p : P} {l : List B}
    (hl : l.Sublist (c.stack p)) : (State.mk (update c.stack p l) c.held).total.Nodup := by
  have hle : (l : Multiset B) ≤ (c.stack p : Multiset B) := hl.subperm
  have hsum := sum_update_stack c.stack p l
  have htotal : (State.mk (update c.stack p l) c.held).total ≤ c.total := by
    unfold State.total
    apply add_le_add_left
    have hadd : ∑ q, (update c.stack p l q : Multiset B) + (c.stack p : Multiset B) ≤
        ∑ q, (c.stack q : Multiset B) + (c.stack p : Multiset B) := by
      rw [hsum]
      exact add_le_add_right hle _
    exact le_of_add_le_add_right hadd
  exact Multiset.nodup_of_le htotal hc

/-- Conservation: a move changes where a resource is and nothing else. -/
theorem Move.total_eq {pol : Policy P T} {c c' : State P T B} (h : Move pol c c') :
    c'.total = c.total := by
  cases h with
  | stay => rfl
  | @take p t b l hp ht =>
    unfold State.total
    rw [← sum_pop hp, List.map_cons, ← Multiset.cons_coe, Multiset.add_cons, Multiset.cons_add]
  | @give i t b p hi hp =>
    have hheld : (c.held.map Prod.snd : Multiset B) =
        b ::ₘ ((c.held.eraseIdx i).map Prod.snd : Multiset B) :=
      Multiset.coe_eq_coe.mpr ((perm_cons_eraseIdx hi).map Prod.snd)
    unfold State.total
    rw [sum_push, hheld, Multiset.add_cons, Multiset.cons_add]
  | @transfer p q b l hp hq hpq =>
    unfold State.total
    have hstack : c.stack q = update c.stack p l q := by rw [update_of_ne hpq.symm]
    rw [hstack, sum_push, sum_pop hp]

theorem Move.nodup {pol : Policy P T} {c c' : State P T B} (h : Move pol c c')
    (hc : c.total.Nodup) : c'.total.Nodup := by
  rw [h.total_eq]
  exact hc

end Total

/-- A resource inside a closed set of places is still inside it after any move. -/
theorem Move.mem_closed {pol : Policy P T} {U : Place P T → Prop} (hU : pol.Closed U)
    {c c' : State P T B} (h : Move pol c c') {b : B} {x : Place P T} (hx : U x)
    (hb : c.At b x) : ∃ y, U y ∧ c'.At b y := by
  cases h with
  | stay => exact ⟨x, hx, hb⟩
  | @take p t a l hp ht =>
    cases x with
    | holder s => exact ⟨.holder s, hx, List.mem_cons_of_mem _ hb⟩
    | pool q =>
      by_cases hq : q = p
      · subst q
        have hb' : b ∈ c.stack p := hb
        rw [hp] at hb'
        rcases List.mem_cons.mp hb' with rfl | hb'
        · exact ⟨.holder t, hU.serves p t hx ht, List.mem_cons_self⟩
        · exact ⟨.pool p, hx, by simpa [State.At] using hb'⟩
      · exact ⟨.pool q, hx, by simpa [State.At, hq] using hb⟩
  | @give i t a p hi hp =>
    cases x with
    | pool q =>
      refine ⟨.pool q, hx, ?_⟩
      by_cases hq : q = p
      · subst q
        simpa [State.At] using Or.inr hb
      · simpa [State.At, hq] using hb
    | holder s =>
      have hb' := (perm_cons_eraseIdx hi).mem_iff.mp hb
      rcases List.mem_cons.mp hb' with heq | hb'
      · obtain ⟨rfl, rfl⟩ := Prod.mk.inj heq
        exact ⟨.pool p, hU.returns s p hx hp, by simp [State.At]⟩
      · exact ⟨.holder s, hx, hb'⟩
  | @transfer p q a l hp hq hpq =>
    cases x with
    | holder s => exact ⟨.holder s, hx, hb⟩
    | pool r =>
      have hr : b ∈ c.stack r := hb
      by_cases hrq : r = q
      · subst r
        exact ⟨.pool q, hx, by simpa [State.At] using Or.inr hr⟩
      · by_cases hrp : r = p
        · subst r
          rw [hp] at hr
          rcases List.mem_cons.mp hr with rfl | hr
          · exact ⟨.pool q, hU.transfers p q hx hq, by simp [State.At]⟩
          · exact ⟨.pool p, hx, by simpa [State.At, hrq] using hr⟩
        · exact ⟨.pool r, hx, by simpa [State.At, hrq, hrp] using hr⟩

/-! A label on every resource that fits the place it is at. -/

section Labels

variable {β : Type*} {agrees : Place P T → β → Prop} {f f' : B → β} {c c' : State P T B}

def State.Labelled (agrees : Place P T → β → Prop) (c : State P T B) (f : B → β) : Prop :=
  ∀ b x, c.At b x → agrees x (f b)

omit [DecidableEq P] in
/-- When one resource changes place, only its label has to change. -/
theorem State.Labelled.relocate [Fintype P] (h : c.Labelled agrees f) (hc' : c'.total.Nodup) {b : B}
    {x : Place P T} (hb : c'.At b x) (hx : agrees x (f' b))
    (hother : ∀ a y, a ≠ b → c'.At a y → c.At a y)
    (hf : ∀ a y, a ≠ b → c'.At a y → f' a = f a) : c'.Labelled agrees f' := by
  intro a y hay
  by_cases hab : a = b
  · subst hab
    rw [State.At.unique hc' hay hb]
    exact hx
  · rw [hf a y hab hay]
    exact h a y (hother a y hab hay)

theorem State.At.of_take {p : P} {t : T} {a b : B} {l : List B} {x : Place P T}
    (hp : c.stack p = b :: l) (hab : a ≠ b)
    (h : (State.mk (update c.stack p l) ((t, b) :: c.held)).At a x) : c.At a x := by
  cases x with
  | pool q =>
    by_cases hq : q = p
    · subst q
      have hmem : a ∈ l := by simpa [State.At] using h
      change a ∈ c.stack p
      rw [hp]
      exact List.mem_cons_of_mem b hmem
    · simpa [State.At, hq] using h
  | holder s =>
    rcases List.mem_cons.mp h with heq | hmem
    · exact absurd (Prod.mk.inj heq).2 hab
    · exact hmem

theorem State.At.of_give {i : ℕ} {p : P} {a b : B} {x : Place P T} (hab : a ≠ b)
    (h : (State.mk (update c.stack p (b :: c.stack p)) (c.held.eraseIdx i)).At a x) :
    c.At a x := by
  cases x with
  | pool q =>
    by_cases hq : q = p
    · subst q
      simpa [State.At, hab] using h
    · simpa [State.At, hq] using h
  | holder s => exact List.mem_of_mem_eraseIdx h

theorem State.At.of_transfer {p q : P} {a b : B} {l : List B} {x : Place P T}
    (hp : c.stack p = b :: l) (hab : a ≠ b)
    (h : (State.mk (update (update c.stack p l) q (b :: c.stack q)) c.held).At a x) :
    c.At a x := by
  cases x with
  | pool r =>
    by_cases hrq : r = q
    · subst r
      simpa [State.At, hab] using h
    · by_cases hrp : r = p
      · subst r
        have hmem : a ∈ l := by simpa [State.At, hrq] using h
        change a ∈ c.stack p
        rw [hp]
        exact List.mem_cons_of_mem b hmem
      · simpa [State.At, hrq, hrp] using h
  | holder s => exact h

end Labels
end Custody
