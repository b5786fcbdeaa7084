import Mathlib.Data.List.MinMax
import Mathlib.Data.Nat.Basic

/-! Priority queues by their interface: the elements, in some order, and a `pop` that takes a
minimal one. -/

/-- The operations on the elements of a queue whose order is `compare`. -/
structure PriorityQueue (α : Type*) (compare : α → α → Ordering) where
  push : List α → α → List α
  pop : List α → Option (α × List α)
  push_perm : ∀ l a, (push l a).Perm (a :: l)
  pop_nil : pop [] = none
  pop_min : ∀ l, l ≠ [] → ∃ a r, pop l = some (a, r) ∧ l.Perm (a :: r) ∧
    ∀ b ∈ l, compare b a ≠ .lt

namespace PriorityQueue

variable {α : Type*} {compare : α → α → Ordering} (queue : PriorityQueue α compare)

theorem mem_push {l : List α} {a b : α} : b ∈ queue.push l a ↔ b = a ∨ b ∈ l := by
  rw [(queue.push_perm l a).mem_iff, List.mem_cons]

/-- The queue that searches its elements for the smallest key. -/
def ofKey [DecidableEq α] (key : α → ℕ) :
    PriorityQueue α fun a b => Ord.compare (key a) (key b) where
  push l a := a :: l
  pop l := (l.argmin key).map fun a => (a, l.erase a)
  push_perm _ _ := .rfl
  pop_nil := rfl
  pop_min l hne := by
    have hsome : l.argmin key ≠ none := fun hnone => hne (List.argmin_eq_none.mp hnone)
    obtain ⟨a, ha⟩ := Option.ne_none_iff_exists'.mp hsome
    have hmin : a ∈ l.argmin key := ha
    refine ⟨a, l.erase a, by rw [ha]; rfl, List.perm_cons_erase (List.argmin_mem hmin), ?_⟩
    intro b hb hlt
    have hle := List.le_of_mem_argmin hb hmin
    rw [Nat.compare_eq_lt] at hlt
    omega

end PriorityQueue
