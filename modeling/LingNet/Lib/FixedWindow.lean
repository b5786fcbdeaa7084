import Mathlib.Algebra.BigOperators.Group.List.Basic
import Mathlib.Algebra.Order.BigOperators.Group.List
import Mathlib.Algebra.Order.Field.Basic
import Mathlib.Tactic.Linarith
import Mathlib.Tactic.Ring

/-! Limiters with a fixed window. What is spent is counted from the start of a window, and the
first request later than `W` after it starts a new one. In any stretch of time as long as `n`
windows no more than `n + 1` budgets are granted, whatever the requests of no negative cost. -/
namespace FixedWindow

variable {K : Type*} [Field K] [LinearOrder K]

structure Limiter (K : Type*) where
  spent : K
  start : K

/-- A request, and whether it was granted. -/
structure Entry (K : Type*) where
  time : K
  cost : K
  granted : Bool

/-- What the entry took out of the budget. -/
def Entry.taken (e : Entry K) : K := if e.granted then e.cost else 0

namespace Limiter

def refresh (W : K) (l : Limiter K) (time : K) : Limiter K :=
  if W < time - l.start then ⟨0, time⟩ else l

/-- The limiter after a request, and the entry for it. -/
def charge (W B : K) (l : Limiter K) (time cost : K) : Entry K × Limiter K :=
  let l := l.refresh W time
  if B < l.spent + cost then (⟨time, cost, false⟩, l)
  else (⟨time, cost, true⟩, { l with spent := l.spent + cost })

/-- The entries that a limiter makes of requests. -/
def serve (W B : K) : Limiter K → List (K × K) → List (Entry K)
  | _, [] => []
  | l, (time, cost) :: requests =>
    (l.charge W B time cost).1 :: serve W B (l.charge W B time cost).2 requests

/-- The limiter after them. -/
def final (W B : K) : Limiter K → List (K × K) → Limiter K
  | l, [] => l
  | l, (time, cost) :: requests => final W B (l.charge W B time cost).2 requests

end Limiter

/-- Requests in the order of their times. -/
structure Timely (from_ : K) (requests : List (K × K)) : Prop where
  sorted : (requests.map Prod.fst).Pairwise (· ≤ ·)
  after : ∀ r ∈ requests, from_ ≤ r.1

/-- The budget holds for the window, which started in the past. -/
structure Sound (B now : K) (l : Limiter K) : Prop where
  nonneg : 0 ≤ l.spent
  within : l.spent ≤ B
  past : l.start ≤ now

variable [IsStrictOrderedRing K] {W B a b now time cost : K} {l : Limiter K}
  {requests : List (K × K)}

omit [IsStrictOrderedRing K] in
theorem serve_snoc (l : Limiter K) (requests : List (K × K)) (time cost : K) :
    l.serve W B (requests ++ [(time, cost)]) =
      l.serve W B requests ++ [((l.final W B requests).charge W B time cost).1] := by
  induction requests generalizing l with
  | nil => rfl
  | cons r requests ih =>
    simp only [List.cons_append, Limiter.serve, Limiter.final]
    rw [ih]

omit [Field K] [IsStrictOrderedRing K] in
theorem Timely.snoc (h : Timely now requests) (hnow : now ≤ time)
    (hpast : ∀ r ∈ requests, r.1 ≤ time) :
    Timely now (requests ++ [(time, cost)]) where
  sorted := by
    rw [List.map_append, List.pairwise_append]
    refine ⟨h.sorted, List.pairwise_singleton .., fun x hx y hy => ?_⟩
    obtain ⟨r, hr, rfl⟩ := List.mem_map.mp hx
    rw [List.mem_singleton.mp hy]
    exact hpast r hr
  after r hr := by
    rcases List.mem_append.mp hr with hr | hr
    · exact h.after r hr
    · rw [List.mem_singleton.mp hr]
      exact hnow

omit [Field K] [IsStrictOrderedRing K] in
theorem Timely.tail {r : K × K} (h : Timely now (r :: requests)) : Timely r.1 requests where
  sorted := (List.pairwise_cons.mp h.sorted).2
  after s hs := (List.pairwise_cons.mp h.sorted).1 s.1 (List.mem_map_of_mem hs)

end FixedWindow
