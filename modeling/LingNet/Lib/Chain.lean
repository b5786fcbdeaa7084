import Mathlib.Data.List.Nodup
import Mathlib.Logic.Function.Basic
import Mathlib.Logic.Relation

/-! Intrusive singly linked stacks: several head pointers over one `next` field. A stack is
well linked when a traversal from its head reaches null; the traversal is then unique and
visits no node twice. -/
namespace Chain
open Function

variable {P B : Type*}

/-- The traversal from `h` visits exactly the nodes of the list and then reaches null. -/
def Linked (next : B → Option B) : Option B → List B → Prop
  | h, [] => h = none
  | h, b :: l => h = some b ∧ Linked next (next b) l

/-- Some number of `next` steps leads from `h` to `b`. -/
def Reaches (next : B → Option B) (h : Option B) (b : B) : Prop :=
  ∃ a, h = some a ∧ Relation.ReflTransGen (fun x y => next x = some y) a b

@[simp] theorem linked_nil {next : B → Option B} {h : Option B} :
    Linked next h [] ↔ h = none := Iff.rfl

@[simp] theorem linked_cons {next : B → Option B} {h : Option B} {b : B} {l : List B} :
    Linked next h (b :: l) ↔ h = some b ∧ Linked next (next b) l := Iff.rfl

theorem Linked.unique {next : B → Option B} {h : Option B} {l m : List B}
    (hl : Linked next h l) (hm : Linked next h m) : l = m := by
  induction l generalizing h m with
  | nil =>
    cases m with
    | nil => rfl
    | cons b m => cases hl.symm.trans hm.1
  | cons a l ih =>
    cases m with
    | nil => cases hm.symm.trans hl.1
    | cons b m =>
      obtain rfl : a = b := Option.some.inj (hl.1.symm.trans hm.1)
      rw [ih hl.2 hm.2]

theorem Linked.head_eq_some {next : B → Option B} {b : B} {l : List B}
    (hl : Linked next (some b) l) : ∃ m, l = b :: m ∧ Linked next (next b) m := by
  cases l with
  | nil => cases hl
  | cons a m =>
    obtain ⟨h, hm⟩ := hl
    cases h
    exact ⟨m, rfl, hm⟩

theorem Linked.suffix {next : B → Option B} {h : Option B} {l m : List B} {b : B}
    (hl : Linked next h (l ++ b :: m)) : Linked next (some b) (b :: m) := by
  induction l generalizing h with
  | nil => exact ⟨rfl, hl.2⟩
  | cons a l ih => exact ih hl.2

/-- A node met twice would make the traversal endless. -/
theorem Linked.nodup {next : B → Option B} {h : Option B} {l : List B}
    (hl : Linked next h l) : l.Nodup := by
  induction l generalizing h with
  | nil => exact List.nodup_nil
  | cons b l ih =>
    refine List.nodup_cons.mpr ⟨fun hb => ?_, ih hl.2⟩
    obtain ⟨x, y, rfl⟩ := List.append_of_mem hb
    have hfst : Linked next (some b) (b :: (x ++ b :: y)) := ⟨rfl, hl.2⟩
    have hsnd : Linked next (some b) (b :: y) := Linked.suffix hl.2
    have hlen := congrArg List.length (hfst.unique hsnd)
    simp only [List.length_cons, List.length_append] at hlen
    omega

theorem Linked.mem_iff {next : B → Option B} {h : Option B} {l : List B} {b : B}
    (hl : Linked next h l) : b ∈ l ↔ Reaches next h b := by
  constructor
  · intro hb
    induction l generalizing h with
    | nil => cases hb
    | cons a l ih =>
      refine ⟨a, hl.1, ?_⟩
      rcases List.mem_cons.mp hb with rfl | hb
      · exact .refl
      · obtain ⟨c, hc, hcb⟩ := ih hl.2 hb
        exact .head hc hcb
  · rintro ⟨a, rfl, hab⟩
    induction hab using Relation.ReflTransGen.head_induction_on generalizing l with
    | refl =>
      obtain ⟨m, rfl, _⟩ := hl.head_eq_some
      exact List.mem_cons_self
    | head hac _ ih =>
      obtain ⟨m, rfl, hm⟩ := hl.head_eq_some
      exact List.mem_cons_of_mem _ (ih (hac ▸ hm))

/-- What a traversal reaches, it visits on a tail of its list. -/
theorem Linked.exists_sublist {next : B → Option B} {h v : Option B} {l : List B}
    (hl : Linked next h l) (hv : ∀ b, v = some b → Reaches next h b) :
    ∃ m, Linked next v m ∧ m.Sublist l := by
  cases v with
  | none => exact ⟨[], rfl, List.nil_sublist l⟩
  | some b =>
    have hb : b ∈ l := hl.mem_iff.mpr (hv b rfl)
    obtain ⟨x, y, rfl⟩ := List.append_of_mem hb
    exact ⟨b :: y, hl.suffix, List.sublist_append_right x (b :: y)⟩

theorem linked_update [DecidableEq B] {next : B → Option B} {h v : Option B} {l : List B} {b : B}
    (hb : b ∉ l) : Linked (update next b v) h l ↔ Linked next h l := by
  induction l generalizing h with
  | nil => exact Iff.rfl
  | cons a l ih =>
    obtain ⟨hab, hl⟩ := List.ne_and_not_mem_of_not_mem_cons hb
    rw [linked_cons, linked_cons, update_of_ne (Ne.symm hab), ih hl]

/-- Head pointers of the stacks `P` over the `next` field of the nodes `B`. -/
structure Links (P B : Type*) where
  head : P → Option B
  next : B → Option B

namespace Links

/-- The lists `st` are the stacks the pointers describe. -/
def Represents (k : Links P B) (st : P → List B) : Prop :=
  ∀ p, Linked k.next (k.head p) (st p)

theorem Represents.head_eq_none {k : Links P B} {st : P → List B} (h : k.Represents st) {p : P} :
    k.head p = none ↔ st p = [] := by
  have hp := h p
  cases hs : st p with
  | nil => rw [hs] at hp; simpa using hp
  | cons b l => rw [hs] at hp; simp [hp.1]

theorem Represents.head_of_cons {k : Links P B} {st : P → List B} (h : k.Represents st) {p : P}
    {b : B} {l : List B} (hp : st p = b :: l) : k.head p = some b := by
  have hlinked := h p
  rw [hp] at hlinked
  exact hlinked.1

theorem Represents.head_eq_some {k : Links P B} {st : P → List B} (h : k.Represents st) {p : P}
    {b : B} (hb : k.head p = some b) : ∃ l, st p = b :: l := by
  have hp := h p
  rw [hb] at hp
  obtain ⟨l, hl, _⟩ := hp.head_eq_some
  exact ⟨l, hl⟩

def setHead [DecidableEq P] (k : Links P B) (p : P) (h : Option B) : Links P B :=
  { k with head := update k.head p h }

def setNext [DecidableEq B] (k : Links P B) (b : B) (n : Option B) : Links P B :=
  { k with next := update k.next b n }

/-- The successful exchange of a pop: the head becomes its own successor. -/
def pop [DecidableEq P] (k : Links P B) (p : P) (b : B) : Links P B := k.setHead p (k.next b)

/-- The store and the successful exchange of a push. -/
def push [DecidableEq P] [DecidableEq B] (k : Links P B) (p : P) (b : B) : Links P B :=
  (k.setNext b (k.head p)).setHead p (some b)

theorem Represents.setNext [DecidableEq B] {k : Links P B} {st : P → List B}
    (h : k.Represents st) {b : B} (hb : ∀ p, b ∉ st p) (n : Option B) :
    (k.setNext b n).Represents st :=
  fun p => (linked_update (hb p)).mpr (h p)

theorem Represents.setHead [DecidableEq P] {k : Links P B} {st : P → List B}
    (h : k.Represents st) {p : P} {v : Option B} {l : List B} (hl : Linked k.next v l) :
    (k.setHead p v).Represents (update st p l) := by
  intro q
  by_cases hq : q = p
  · subst q
    simpa [Links.setHead] using hl
  · simpa [Links.setHead, hq] using h q

theorem Represents.pop [DecidableEq P] {k : Links P B} {st : P → List B} (h : k.Represents st)
    {p : P} {b : B} {l : List B} (hp : st p = b :: l) :
    (k.pop p b).Represents (update st p l) := by
  have hb := h p
  rw [hp] at hb
  exact h.setHead hb.2

theorem Represents.push [DecidableEq P] [DecidableEq B] {k : Links P B} {st : P → List B}
    (h : k.Represents st) (p : P) {b : B} (hb : ∀ q, b ∉ st q) :
    (k.push p b).Represents (update st p (b :: st p)) := by
  refine (h.setNext hb (k.head p)).setHead ⟨rfl, ?_⟩
  rw [show (k.setNext b (k.head p)).next b = k.head p from update_self ..]
  exact (linked_update (hb p)).mpr (h p)

end Links
end Chain
