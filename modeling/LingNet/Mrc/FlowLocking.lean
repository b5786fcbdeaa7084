import LingNet.Lib.SpinLock
import LingNet.Mrc.Flow
import Mathlib.Algebra.BigOperators.Group.Finset.Basic
import Mathlib.Algebra.Group.Int.Defs

/-! The flow table under concurrency. Each bucket has a lock of its own, the counter has none: a
change of the counter is a load and a store, and a second change may come between them. -/
namespace LingNet.Mrc
open Function Zig

/-- What a call of `insert` or `lookup` found in its bucket, or did to it. -/
inductive Effect where
  | insert (idx : ℕ) (flow : FlowRef)
  | full (idx : ℕ)
  | miss (idx : ℕ)
  | hit (idx : ℕ) (flow : FlowRef)
  | expire (idx : ℕ) (flow : FlowRef)
  deriving DecidableEq, Repr

/-- The table as its users see it: at most one flow in a bucket, until it expires. -/
def Effect.step (view : ℕ → Option FlowRef) : Effect → Option (ℕ → Option FlowRef)
  | .insert idx flow => if view idx = none then some (update view idx (some flow)) else none
  | .full idx => if (view idx).isSome then some view else none
  | .miss idx => if view idx = none then some view else none
  | .hit idx flow => if view idx = some flow then some view else none
  | .expire idx flow => if view idx = some flow then some (update view idx none) else none

namespace FlowLocking

/-- A call, with the hash that it has read. -/
inductive Request where
  | insert (flow : FlowRef) (id : UInt64)
  | lookup (hash : UInt64) (nowNs : UInt64)

def Request.hash : Request → UInt64
  | .insert _ id => id
  | .lookup hash _ => hash

/-- The step that a call under the lock takes next. -/
inductive Step where
  /-- `if (bucket.flow != null) return error.BucketFull` -/
  | insertCheck (flow : FlowRef)
  /-- `bucket.flow = flow` -/
  | insertStore (flow : FlowRef)
  /-- The load of `self.count += 1`. -/
  | loadIncr (flow : FlowRef)
  /-- Its store. -/
  | storeIncr (flow : FlowRef) (count : ℕ)
  /-- `if (bucket.flow) |flow|` -/
  | lookupCheck (nowNs : UInt64)
  /-- `if (flow.isExpired(now_ns))` -/
  | expiry (flow : FlowRef) (nowNs : UInt64)
  /-- `flow.state = .expired` -/
  | mark (flow : FlowRef)
  /-- The load of `self.count -= 1`. -/
  | loadDecr (flow : FlowRef)
  /-- Its store. -/
  | storeDecr (flow : FlowRef) (count : ℕ)
  /-- `bucket.flow = null` -/
  | clear (flow : FlowRef)

structure Point where
  idx : ℕ
  step : Step

/-- The table and its flows; what the calls did, in order; for each bucket, whether it is in use
and not yet, or no longer, counted; and the sum, over the stores of the counter, of the value
loaded before minus the value found. No step reads the last three. -/
structure Shared where
  memory : FlowMemory
  effects : List Effect
  uncounted : ℕ → ℤ
  drift : ℤ

def Shared.log (s : Shared) (e : Effect) : Shared := { s with effects := s.effects ++ [e] }

/-- `bucket.flow = flow` -/
def Shared.setFlow (s : Shared) (idx : ℕ) (flow : Option FlowRef) (uncounted : ℤ) : Shared where
  memory := { s.memory with
    table := s.memory.table.setFlow idx flow s.memory.table.count }
  effects := s.effects
  uncounted := update s.uncounted idx uncounted
  drift := s.drift

/-- `self.count = count` after `loaded` was read. -/
def Shared.setCount (s : Shared) (idx loaded count : ℕ) (uncounted : ℤ) : Shared where
  memory := { s.memory with table := { s.memory.table with count := count } }
  effects := s.effects
  uncounted := update s.uncounted idx uncounted
  drift := s.drift + (loaded - s.memory.table.count)

def body (p : Point) (s : Shared) : Option (Shared × Option Point) :=
  let idx := p.idx
  let table := s.memory.table
  match p.step with
  | .insertCheck flow =>
    match table.buckets[idx]? with
    | none => none
    | some ⟨some _, _⟩ => some (s.log (.full idx), none)
    | some ⟨none, _⟩ => some (s, some ⟨idx, .insertStore flow⟩)
  | .insertStore flow =>
    some ((s.setFlow idx (some flow) 1).log (.insert idx flow), some ⟨idx, .loadIncr flow⟩)
  | .loadIncr flow => some (s, some ⟨idx, .storeIncr flow table.count⟩)
  | .storeIncr _ count =>
    if count + 1 < usizeEnd then some (s.setCount idx count (count + 1) 0, none) else none
  | .lookupCheck nowNs =>
    match table.buckets[idx]? with
    | none => none
    | some ⟨none, _⟩ => some (s.log (.miss idx), none)
    | some ⟨some flow, _⟩ => some (s, some ⟨idx, .expiry flow nowNs⟩)
  | .expiry flow nowNs =>
    match (s.memory.flows flow).isExpired nowNs with
    | .trap _ => none
    | .ok true => some (s, some ⟨idx, .mark flow⟩)
    | .ok false => some (s.log (.hit idx flow), none)
  | .mark flow =>
    let flows := update s.memory.flows flow { s.memory.flows flow with state := .expired }
    some ({ s with memory := { s.memory with flows := flows } }, some ⟨idx, .loadDecr flow⟩)
  | .loadDecr flow => some (s, some ⟨idx, .storeDecr flow table.count⟩)
  | .storeDecr flow count =>
    if count = 0 then none
    else some (s.setCount idx count (count - 1) 1, some ⟨idx, .clear flow⟩)
  | .clear flow => some ((s.setFlow idx none 0).log (.expire idx flow), none)

def Request.enter (capacity : ℕ) (request : Request) : Point :=
  ⟨request.hash.toNat % capacity, match request with
    | .insert flow _ => .insertCheck flow
    | .lookup _ nowNs => .lookupCheck nowNs⟩

/-- The owners of the flows, and `classify` when it has a flow, write to them at any time. -/
def program (capacity : ℕ) : SpinLock.Program ℕ Shared Request Point (FlowRef → MrcFlow) where
  lock request := request.hash.toNat % capacity
  enter := Request.enter capacity
  body := body
  outside flows s := { s with memory := { s.memory with flows := flows } }

def Shared.init (buckets : FlowBuffer) (flows : FlowRef → MrcFlow) : Shared where
  memory := ⟨.init buckets, flows⟩
  effects := []
  uncounted _ := 0
  drift := 0

/-- The counter is what the buckets in use come to, but for the changes under way and for the
changes that were lost or made twice. -/
def Counted (s : Shared) : Prop :=
  (s.memory.table.count : ℤ) + ∑ k ∈ Finset.range s.memory.table.capacity, s.uncounted k =
    s.memory.table.occupied + s.drift

/-- The effects are those of a table that has this in the bucket. -/
def Shows (s : Shared) (idx : ℕ) : Prop :=
  ∃ view, Run.run Effect.step (fun _ => none) s.effects = some view ∧
    s.memory.table.flowAt idx = view idx

/-- What a call knows of its bucket. -/
def Step.Expects (s : Shared) (idx : ℕ) : Step → Prop
  | .insertCheck _ | .lookupCheck _ => s.uncounted idx = 0
  | .insertStore _ => s.uncounted idx = 0 ∧ idx < s.memory.table.capacity ∧
    s.memory.table.flowAt idx = none
  | .loadIncr flow | .storeIncr flow _ | .clear flow =>
    s.uncounted idx = 1 ∧ s.memory.table.flowAt idx = some flow
  | .expiry flow _ | .mark flow | .loadDecr flow | .storeDecr flow _ =>
    s.uncounted idx = 0 ∧ s.memory.table.flowAt idx = some flow

/-- A step of a body in bucket `idx`. -/
structure Moved (idx : ℕ) (s s' : Shared) : Prop where
  capacity : s'.memory.table.capacity = s.memory.table.capacity
  counted : Counted s'
  shows_self : Shows s' idx
  shows_off : ∀ k, k ≠ idx → Shows s k → Shows s' k
  flowAt_off : ∀ k, k ≠ idx → s'.memory.table.flowAt k = s.memory.table.flowAt k
  uncounted_off : ∀ k, k ≠ idx → s'.uncounted k = s.uncounted k

section Steps

variable {s s' : Shared} {idx : ℕ}

theorem Shows.of_effects (h : Shows s idx) (heffects : s'.effects = s.effects)
    (hflow : s'.memory.table.flowAt idx = s.memory.table.flowAt idx) : Shows s' idx := by
  obtain ⟨view, hrun, hview⟩ := h
  rw [← heffects] at hrun
  exact ⟨view, hrun, hflow.trans hview⟩

/-- An effect on its own bucket. -/
theorem Shows.log {e : Effect} {g : (ℕ → Option FlowRef) → ℕ → Option FlowRef}
    (h : Shows s idx) (heffects : s'.effects = s.effects ++ [e])
    (hstep : ∀ view, view idx = s.memory.table.flowAt idx → e.step view = some (g view))
    (hself : ∀ view, view idx = s.memory.table.flowAt idx →
      s'.memory.table.flowAt idx = g view idx) : Shows s' idx := by
  obtain ⟨view, hrun, hview⟩ := h
  refine ⟨g view, ?_, hself view hview.symm⟩
  rw [heffects]
  exact Run.run_snoc_eq_some.mpr ⟨view, hrun, hstep view hview.symm⟩

end Steps

/-- What holds of a bucket at all times. -/
structure Kept (capacity idx : ℕ) (s : Shared) : Prop where
  capacity : s.memory.table.capacity = capacity
  counted : Counted s
  shows : Shows s idx

section Kept

variable {s s' : Shared} {capacity idx k : ℕ}

theorem Kept.self (h : Kept capacity idx s) (hm : Moved idx s s') : Kept capacity idx s' :=
  ⟨hm.capacity.trans h.capacity, hm.counted, hm.shows_self⟩

theorem Kept.off (h : Kept capacity k s) (hm : Moved idx s s') (hk : k ≠ idx) :
    Kept capacity k s' :=
  ⟨hm.capacity.trans h.capacity, hm.counted, hm.shows_off k hk h.shows⟩

theorem Kept.flows (h : Kept capacity idx s) (flows : FlowRef → MrcFlow) :
    Kept capacity idx { s with memory := { s.memory with flows := flows } } :=
  ⟨h.capacity, h.counted, h.shows.of_effects rfl rfl⟩

/-- What a call knows is about its own bucket. -/
theorem Step.Expects.of_eq {step : Step} (h : step.Expects s k)
    (hcapacity : s'.memory.table.capacity = s.memory.table.capacity)
    (hflow : s'.memory.table.flowAt k = s.memory.table.flowAt k)
    (huncounted : s'.uncounted k = s.uncounted k) : step.Expects s' k := by
  cases step <;> simpa only [Step.Expects, hcapacity, hflow, huncounted] using h

end Kept

theorem Step.Expects.uncounted {step : Step} {s : Shared} {idx : ℕ} (h : step.Expects s idx) :
    s.uncounted idx = 0 ∨ s.uncounted idx = 1 := by
  cases step with
  | insertCheck | lookupCheck => exact .inl h
  | loadIncr | storeIncr | clear => exact .inr h.1
  | _ => exact .inl h.1

end FlowLocking
end LingNet.Mrc
