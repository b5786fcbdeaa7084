import LingNet.Zig.Proc

/-! An allocator that keeps its history, and `defer`. -/
namespace Zig

variable {σ ε α β : Type}

namespace Proc

/-- `defer`: the cleanup runs when the block returns a value or an error. A trap stops the
process before it. -/
def defer (cleanup : σ → σ) (x : Proc σ ε α) : Proc σ ε α := fun s =>
  match x s with
  | (.ok a, s) => (.ok a, cleanup s)
  | (.err e, s) => (.err e, cleanup s)
  | (.trap t, s) => (.trap t, s)

/-- `errdefer`: the cleanup runs when the block returns an error. -/
def errdefer (cleanup : σ → σ) (x : Proc σ ε α) : Proc σ ε α := fun s =>
  match x s with
  | (.ok a, s) => (.ok a, s)
  | (.err e, s) => (.err e, cleanup s)
  | (.trap t, s) => (.trap t, s)

theorem errdefer_of_ok {cleanup : σ → σ} {x : Proc σ ε α} {s s' : σ} {a : α}
    (h : x s = (.ok a, s')) : x.errdefer cleanup s = (.ok a, s') := by
  unfold errdefer
  rw [h]

theorem errdefer_of_err {cleanup : σ → σ} {x : Proc σ ε α} {s s' : σ} {e : ε}
    (h : x s = (.err e, s')) : x.errdefer cleanup s = (.err e, cleanup s') := by
  unfold errdefer
  rw [h]

theorem errdefer_of_trap {cleanup : σ → σ} {x : Proc σ ε α} {s s' : σ} {t : Fault}
    (h : x s = (.trap t, s')) : x.errdefer cleanup s = (.trap t, s') := by
  unfold errdefer
  rw [h]

theorem defer_of_ok {cleanup : σ → σ} {x : Proc σ ε α} {s s' : σ} {a : α}
    (h : x s = (.ok a, s')) : x.defer cleanup s = (.ok a, cleanup s') := by
  unfold defer
  rw [h]

theorem defer_of_err {cleanup : σ → σ} {x : Proc σ ε α} {s s' : σ} {e : ε}
    (h : x s = (.err e, s')) : x.defer cleanup s = (.err e, cleanup s') := by
  unfold defer
  rw [h]

theorem defer_of_trap {cleanup : σ → σ} {x : Proc σ ε α} {s s' : σ} {t : Fault}
    (h : x s = (.trap t, s')) : x.defer cleanup s = (.trap t, s') := by
  unfold defer
  rw [h]

theorem Ensures.errdefer {I : σ → Prop} {Q : α → Prop} {cleanup : σ → σ} {x : Proc σ ε α} {s : σ}
    (hx : Ensures I Q x s) (hI : ∀ s, I s → I (cleanup s)) :
    Ensures I Q (x.errdefer cleanup) s := by
  unfold Ensures final result at *
  rcases h : x s with ⟨a | e | t, s'⟩
  · rw [h] at hx
    rw [errdefer_of_ok h]
    exact hx
  · rw [h] at hx
    rw [errdefer_of_err h]
    exact ⟨hI s' hx.1, nofun⟩
  · rw [h] at hx
    rw [errdefer_of_trap h]
    exact hx

theorem Ensures.defer {I : σ → Prop} {Q : α → Prop} {cleanup : σ → σ} {x : Proc σ ε α} {s : σ}
    (hx : Ensures I Q x s) (hI : ∀ s, I s → I (cleanup s)) : Ensures I Q (x.defer cleanup) s := by
  unfold Ensures final result Proc.defer at *
  rcases h : x s with ⟨a | e | t, s'⟩
  · rw [h] at hx
    exact ⟨hI s' hx.1, hx.2⟩
  · rw [h] at hx
    exact ⟨hI s' hx.1, nofun⟩
  · rw [h] at hx
    exact ⟨hx.1, nofun⟩

@[simp] theorem result_defer (cleanup : σ → σ) (x : Proc σ ε α) (s : σ) :
    (x.defer cleanup).result s = x.result s := by
  unfold defer result
  rcases h : x s with ⟨_ | _ | _, _⟩ <;> simp only [h]

@[simp] theorem result_lift (x : Outcome ε α) (s : σ) : (lift x : Proc σ ε α).result s = x := rfl

@[simp] theorem result_pure (a : α) (s : σ) : (pure a : Proc σ ε α).result s = .ok a := rfl

theorem result_bind_eq_ok {x : Proc σ ε α} {f : α → Proc σ ε β} {s : σ} {b : β} :
    (x >>= f).result s = .ok b ↔
      ∃ a, x.result s = .ok a ∧ (f a).result (x.final s) = .ok b := by
  unfold result final
  rcases h : x s with ⟨a | e | t, s'⟩
  · rw [bind_of_ok h]
    simp
  · rw [bind_of_err h]
    simp
  · rw [bind_of_trap h]
    simp

/-- A computation that leaves the state alone passes its value on. -/
theorem result_lift_bind_eq_ok {x : Outcome ε α} {f : α → Proc σ ε β} {s : σ} {b : β} :
    (lift x >>= f).result s = .ok b ↔ ∃ a, x = .ok a ∧ (f a).result s = .ok b := result_bind_eq_ok

end Proc

/-- A block of memory, named by the request that it answered. -/
abbrev Region := ℕ

/-- An allocator of which request number `k` fails when `fails k` holds. `handed` and `freed` list
the regions it handed out and the regions given back, oldest first. -/
structure Allocator where
  fails : ℕ → Bool
  requests : ℕ := 0
  handed : List Region := []
  freed : List Region := []

namespace Allocator

/-- A request for memory, which must not be of size zero. -/
def alloc (outOfMemory : ε) : Proc Allocator ε Region := fun a =>
  if a.fails a.requests then (.err outOfMemory, { a with requests := a.requests + 1 })
  else (.ok a.requests,
    { a with requests := a.requests + 1, handed := a.handed ++ [a.requests] })

def free (r : Region) (a : Allocator) : Allocator := { a with freed := a.freed ++ [r] }

/-- The allocator after a request that it answered. -/
def served (a : Allocator) : Allocator :=
  { a with requests := a.requests + 1, handed := a.handed ++ [a.requests] }

/-- The allocator after a request that failed. -/
def refused (a : Allocator) : Allocator := { a with requests := a.requests + 1 }

variable {a : Allocator} {e : ε}

theorem alloc_of_fails (h : a.fails a.requests = true) : alloc e a = (.err e, a.refused) := by
  unfold alloc
  rw [if_pos h]
  rfl

theorem alloc_of_serves (h : a.fails a.requests = false) :
    alloc e a = (.ok a.requests, a.served) := by
  unfold alloc
  rw [h, if_neg Bool.false_ne_true]
  rfl

/-- Every region that was handed out was given back or is owned, once; and no other was. -/
def Settled (a : Allocator) (owned : List Region) : Prop :=
  ∀ r, (a.freed ++ owned).count r = if r ∈ a.handed then 1 else 0

theorem settled_of_perm {owned : List Region} (hnodup : a.handed.Nodup)
    (hperm : (a.freed ++ owned).Perm a.handed) : a.Settled owned := by
  intro r
  rw [hperm.count_eq, hnodup.count]

/-- Every region that was handed out was given back or is one of `owned`, and not both. -/
structure Accounts (a : Allocator) (owned : List Region) : Prop where
  old : ∀ r ∈ a.handed, r < a.requests
  nodup : a.handed.Nodup
  perm : (a.freed ++ owned).Perm a.handed

section Accounts

variable {owned owned' : List Region} {r : Region}

theorem Accounts.of_perm (h : a.Accounts owned) (hperm : owned.Perm owned') :
    a.Accounts owned' :=
  ⟨h.old, h.nodup, (hperm.symm.append_left a.freed).trans h.perm⟩

theorem Accounts.refused (h : a.Accounts owned) : a.refused.Accounts owned :=
  ⟨fun r hr => Nat.lt_succ_of_lt (h.old r hr), h.nodup, h.perm⟩

theorem Accounts.served (h : a.Accounts owned) : a.served.Accounts (a.requests :: owned) := by
  have hfresh : a.requests ∉ a.handed := fun hmem => Nat.lt_irrefl _ (h.old _ hmem)
  have hlast : (a.requests :: a.handed).Perm (a.handed ++ [a.requests]) :=
    (List.perm_append_singleton _ _).symm
  refine ⟨?_, ?_, ?_⟩
  · intro r hr
    rcases List.mem_append.mp hr with hr | hr
    · exact Nat.lt_succ_of_lt (h.old r hr)
    · obtain rfl := List.mem_singleton.mp hr
      exact Nat.lt_succ_self _
  · exact hlast.nodup_iff.mp (List.nodup_cons.mpr ⟨hfresh, h.nodup⟩)
  · have hmiddle : (a.freed ++ a.requests :: owned).Perm (a.requests :: (a.freed ++ owned)) :=
      List.perm_middle
    exact (hmiddle.trans (h.perm.cons _)).trans hlast

theorem Accounts.free (h : a.Accounts (r :: owned)) : (a.free r).Accounts owned := by
  have hperm := h.perm
  refine ⟨h.old, h.nodup, ?_⟩
  change (a.freed ++ [r] ++ owned).Perm a.handed
  simpa using hperm

theorem Accounts.count (h : a.Accounts owned) (r : Region) :
    a.freed.count r + owned.count r = if r ∈ a.handed then 1 else 0 := by
  rw [← List.count_append, h.perm.count_eq, h.nodup.count]

/-- Nothing is left with the owner exactly when everything went back. -/
theorem Accounts.settled_iff (h : a.Accounts owned) : a.Settled [] ↔ owned = [] := by
  constructor
  · intro hsettled
    rw [List.eq_nil_iff_forall_not_mem]
    intro r hr
    have hpos := List.count_pos_iff.mpr hr
    have hcount := h.count r
    have hfreed := hsettled r
    rw [List.append_nil] at hfreed
    omega
  · rintro rfl
    exact settled_of_perm h.nodup h.perm

theorem accounts_of_unused (hhanded : a.handed = []) (hfreed : a.freed = []) : a.Accounts [] := by
  refine ⟨?_, ?_, ?_⟩
  · rw [hhanded]
    exact fun r hr => absurd hr List.not_mem_nil
  · rw [hhanded]
    exact List.nodup_nil
  · rw [hhanded, hfreed]
    exact List.Perm.nil

end Accounts

end Allocator
end Zig
