import LingNet.Lib.Run
import LingNet.Mrc.Cam
import LingNet.Zig.Outcome

/-! The flow table of the data plane: one bucket for each hash modulo the capacity, with a
pointer to a flow that the caller owns. -/
namespace LingNet.Mrc
open Zig

def MrcPacket.flowHash (pkt : MrcPacket) : UInt64 :=
  let h := pkt.srcIp.toUInt64 <<< 32 ||| pkt.dstIp.toUInt64
  let h := h ^^^ (pkt.srcPort.toUInt64 <<< 16 ||| pkt.dstPort.toUInt64)
  let h := h ^^^ pkt.protocol.toUInt64
  let h := h ^^^ h >>> 33
  let h := h * 0xff51afd7ed558ccd
  h ^^^ h >>> 33

inductive FlowState where
  | new
  | established
  | closing
  | expired
  deriving DecidableEq, Repr

structure MrcFlow where
  id : UInt64
  packet : MrcPacket
  action : MrcAction
  hitCount : UInt64 := 0
  lastSeenNs : UInt64
  timeoutNs : UInt64
  state : FlowState := .new
  deriving DecidableEq, Repr

/-- The age is a checked subtraction: a time before the last packet traps. -/
def MrcFlow.isExpired (flow : MrcFlow) (nowNs : UInt64) : Outcome Empty Bool :=
  if nowNs < flow.lastSeenNs then .trap .integerOverflow
  else .ok (decide (flow.timeoutNs < nowNs - flow.lastSeenNs))

theorem MrcFlow.isExpired_eq_trap {flow : MrcFlow} {nowNs : UInt64} {f : Fault} :
    flow.isExpired nowNs = .trap f ↔ f = .integerOverflow ∧ nowNs < flow.lastSeenNs := by
  unfold MrcFlow.isExpired
  split_ifs with h <;> simp [h, eq_comm]

theorem MrcFlow.isExpired_eq_false {flow : MrcFlow} {nowNs : UInt64} :
    flow.isExpired nowNs = .ok false ↔
      flow.lastSeenNs ≤ nowNs ∧ nowNs - flow.lastSeenNs ≤ flow.timeoutNs := by
  unfold MrcFlow.isExpired
  split_ifs with h
  · simp [UInt64.not_le.mpr h]
  · simp [UInt64.not_lt.mp h]

/-- The address of a flow. -/
abbrev FlowRef := ℕ

structure FlowBucket where
  flow : Option FlowRef := none
  locked : Bool := false
  deriving DecidableEq, Repr

/-- The caller's slice of buckets, with whatever its memory held. -/
structure FlowBuffer where
  val : List FlowBucket
  length_lt : val.length < usizeEnd

structure MrcFlowTable where
  buckets : List FlowBucket
  count : ℕ
  capacity : ℕ
  capacity_eq : capacity = buckets.length
  capacity_lt : capacity < usizeEnd

namespace MrcFlowTable

def init (buckets : FlowBuffer) : MrcFlowTable where
  buckets := buckets.val
  count := 0
  capacity := buckets.val.length
  capacity_eq := rfl
  capacity_lt := buckets.length_lt

/-- `hash % self.capacity` -/
def index (t : MrcFlowTable) (hash : UInt64) : ℕ := hash.toNat % t.capacity

/-- The flow a bucket points at. -/
def flowAt (t : MrcFlowTable) (idx : ℕ) : Option FlowRef :=
  t.buckets[idx]?.bind FlowBucket.flow

/-- The writes `bucket.flow = flow` and `self.count = count`. -/
def setFlow (t : MrcFlowTable) (idx : ℕ) (flow : Option FlowRef) (count : ℕ) : MrcFlowTable :=
  { t with
    buckets := t.buckets.modify idx fun b => { b with flow := flow }
    count := count
    capacity_eq := by rw [List.length_modify, t.capacity_eq] }

/-- The number of buckets in use. -/
def occupied (t : MrcFlowTable) : ℕ := t.buckets.countP fun b => b.flow.isSome

end MrcFlowTable

inductive FlowError where
  | bucketFull
  deriving DecidableEq, Repr

/-- A table and the flows that its pointers lead to. -/
structure FlowMemory where
  table : MrcFlowTable
  flows : FlowRef → MrcFlow

namespace FlowMemory

/-- The branch of `lookup` on a flow that timed out. -/
def expire (m : FlowMemory) (idx : ℕ) (flow : FlowRef) :
    Outcome Empty (Option FlowRef) × FlowMemory :=
  let m := { m with
    flows := Function.update m.flows flow { m.flows flow with state := .expired } }
  if m.table.count = 0 then (.trap .integerOverflow, m)
  else (.ok none, { m with table := m.table.setFlow idx none (m.table.count - 1) })

/-- `none` when the call spins on a lock that is never released. -/
def lookup (m : FlowMemory) (pkt : MrcPacket) (nowNs : UInt64) :
    Option (Outcome Empty (Option FlowRef) × FlowMemory) :=
  if m.table.capacity = 0 then some (.trap .divisionByZero, m)
  else
    let idx := m.table.index pkt.flowHash
    match m.table.buckets[idx]? with
    | none => some (.trap .outOfBounds, m)
    | some ⟨_, true⟩ => none
    | some ⟨none, false⟩ => some (.ok none, m)
    | some ⟨some flow, false⟩ =>
      match (m.flows flow).isExpired nowNs with
      | .trap f => some (.trap f, m)
      | .ok true => some (m.expire idx flow)
      | .ok false => some (.ok (some flow), m)

/-- `none` when the call spins on a lock that is never released. -/
def insert (m : FlowMemory) (flow : FlowRef) : Option (Outcome FlowError Unit × FlowMemory) :=
  if m.table.capacity = 0 then some (.trap .divisionByZero, m)
  else
    let idx := m.table.index (m.flows flow).id
    match m.table.buckets[idx]? with
    | none => some (.trap .outOfBounds, m)
    | some ⟨_, true⟩ => none
    | some ⟨some _, false⟩ => some (.err .bucketFull, m)
    | some ⟨none, false⟩ =>
      if m.table.count + 1 < usizeEnd then
        some (.ok (), { m with table := m.table.setFlow idx (some flow) (m.table.count + 1) })
      else
        some (.trap .integerOverflow,
          { m with table := m.table.setFlow idx (some flow) m.table.count })

/-- The memory after a lookup that dropped the flow of a bucket. -/
def dropped (m : FlowMemory) (idx : ℕ) (flow : FlowRef) : FlowMemory where
  table := m.table.setFlow idx none (m.table.count - 1)
  flows := Function.update m.flows flow { m.flows flow with state := .expired }

/-- The memory after an insertion that succeeded. -/
def stored (m : FlowMemory) (idx : ℕ) (flow : FlowRef) : FlowMemory where
  table := m.table.setFlow idx (some flow) (m.table.count + 1)
  flows := m.flows

end FlowMemory

namespace MrcFlowTable

theorem index_lt (t : MrcFlowTable) (h : t.capacity ≠ 0) (hash : UInt64) :
    t.index hash < t.buckets.length := by
  rw [← t.capacity_eq]
  exact Nat.mod_lt _ (Nat.pos_of_ne_zero h)

theorem occupied_le (t : MrcFlowTable) : t.occupied ≤ t.capacity :=
  t.capacity_eq ▸ List.countP_le_length

@[simp] theorem index_setFlow (t : MrcFlowTable) (idx : ℕ) (flow : Option FlowRef) (count : ℕ)
    (hash : UInt64) : (t.setFlow idx flow count).index hash = t.index hash := rfl

theorem buckets_setFlow (t : MrcFlowTable) (idx : ℕ) (flow : Option FlowRef) (count : ℕ) :
    (t.setFlow idx flow count).buckets = t.buckets.modify idx fun b => { b with flow := flow } :=
  rfl

theorem getElem?_setFlow_self {t : MrcFlowTable} {idx : ℕ} {b : FlowBucket}
    (h : t.buckets[idx]? = some b) (flow : Option FlowRef) (count : ℕ) :
    (t.setFlow idx flow count).buckets[idx]? = some { b with flow := flow } := by
  simp [setFlow, h]

theorem getElem?_setFlow_ne (t : MrcFlowTable) {idx i : ℕ} (h : i ≠ idx) (flow : Option FlowRef)
    (count : ℕ) : (t.setFlow idx flow count).buckets[i]? = t.buckets[i]? := by
  simp [setFlow, Ne.symm h]

theorem flowAt_setFlow_self {t : MrcFlowTable} {idx : ℕ} {b : FlowBucket}
    (h : t.buckets[idx]? = some b) (flow : Option FlowRef) (count : ℕ) :
    (t.setFlow idx flow count).flowAt idx = flow := by
  unfold flowAt
  rw [getElem?_setFlow_self h, Option.bind_some]

theorem flowAt_setFlow_ne (t : MrcFlowTable) {idx i : ℕ} (h : i ≠ idx) (flow : Option FlowRef)
    (count : ℕ) : (t.setFlow idx flow count).flowAt i = t.flowAt i := by
  unfold flowAt
  rw [getElem?_setFlow_ne t h]

theorem flowAt_of_getElem? {t : MrcFlowTable} {idx : ℕ} {b : FlowBucket}
    (h : t.buckets[idx]? = some b) : t.flowAt idx = b.flow := by
  unfold flowAt
  rw [h, Option.bind_some]

/-- What replacing the pointer of one bucket does to the number in use. -/
theorem occupied_setFlow {t : MrcFlowTable} {idx : ℕ} {b : FlowBucket}
    (h : t.buckets[idx]? = some b) (flow : Option FlowRef) (count : ℕ) :
    (t.setFlow idx flow count).occupied + b.flow.isSome.toNat =
      t.occupied + flow.isSome.toNat := by
  obtain ⟨hlt, hb⟩ := List.getElem?_eq_some_iff.mp h
  have hsplit : t.buckets = t.buckets.take idx ++ b :: t.buckets.drop (idx + 1) := by
    rw [← hb, List.getElem_cons_drop, List.take_append_drop]
  have hset : (t.setFlow idx flow count).buckets =
      t.buckets.take idx ++ { b with flow := flow } :: t.buckets.drop (idx + 1) := by
    rw [buckets_setFlow, List.modify_eq_take_cons_drop hlt, hb]
  unfold occupied
  rw [hset]
  conv_rhs => rw [hsplit]
  rw [List.countP_append, List.countP_append, List.countP_cons, List.countP_cons]
  cases b.flow <;> cases flow <;> simp <;> omega

end MrcFlowTable

namespace FlowMemory

variable {m m' : FlowMemory} {pkt : MrcPacket} {nowNs : UInt64} {flow : FlowRef}

/-- A hash has a bucket unless the table has none. -/
theorem exists_bucket (h : m.table.capacity ≠ 0) (hash : UInt64) :
    ∃ b, m.table.buckets[m.table.index hash]? = some b :=
  ⟨_, List.getElem?_eq_getElem (m.table.index_lt h hash)⟩

theorem capacity_ne_zero {i : ℕ} {b : FlowBucket} (h : m.table.buckets[i]? = some b) :
    m.table.capacity ≠ 0 := by
  have hlt := (List.getElem?_eq_some_iff.mp h).1
  have hcap := m.table.capacity_eq
  omega

/-- `lookup` by the bucket of the hash. -/
theorem lookup_of_bucket {b : FlowBucket}
    (h : m.table.buckets[m.table.index pkt.flowHash]? = some b) :
    m.lookup pkt nowNs =
      match b with
      | ⟨_, true⟩ => none
      | ⟨none, false⟩ => some (.ok none, m)
      | ⟨some flow, false⟩ =>
        match (m.flows flow).isExpired nowNs with
        | .trap f => some (.trap f, m)
        | .ok true => some (m.expire (m.table.index pkt.flowHash) flow)
        | .ok false => some (.ok (some flow), m) := by
  unfold lookup
  rw [if_neg (capacity_ne_zero h)]
  simp only [h]
  rcases b with ⟨_ | _, _ | _⟩ <;> rfl

/-- `insert` by the bucket of the flow's id. -/
theorem insert_of_bucket {b : FlowBucket}
    (h : m.table.buckets[m.table.index (m.flows flow).id]? = some b) :
    m.insert flow =
      match b with
      | ⟨_, true⟩ => none
      | ⟨some _, false⟩ => some (.err .bucketFull, m)
      | ⟨none, false⟩ =>
        if m.table.count + 1 < usizeEnd then
          some (.ok (), m.stored (m.table.index (m.flows flow).id) flow)
        else
          let idx := m.table.index (m.flows flow).id
          some (.trap .integerOverflow,
            { m with table := m.table.setFlow idx (some flow) m.table.count }) := by
  unfold insert
  rw [if_neg (capacity_ne_zero h)]
  simp only [h]
  rcases b with ⟨_ | _, _ | _⟩ <;> rfl

theorem expire_eq {idx : ℕ} {r : Option FlowRef}
    (h : m.expire idx flow = (.ok r, m')) :
    r = none ∧ m.table.count ≠ 0 ∧ m' = m.dropped idx flow := by
  unfold expire at h
  simp only at h
  split_ifs at h with hcount
  · cases h
  · cases h
    exact ⟨rfl, hcount, rfl⟩

/-- What a lookup that returns has done. -/
theorem lookup_eq_ok {r : Option FlowRef} (h : m.lookup pkt nowNs = some (.ok r, m')) :
    (m.table.buckets[m.table.index pkt.flowHash]? = some ⟨none, false⟩ ∧ r = none ∧ m' = m) ∨
      ∃ flow, m.table.buckets[m.table.index pkt.flowHash]? = some ⟨some flow, false⟩ ∧
        ((m.flows flow).isExpired nowNs = .ok false ∧ r = some flow ∧ m' = m ∨
          (m.flows flow).isExpired nowNs = .ok true ∧ r = none ∧ m.table.count ≠ 0 ∧
            m' = m.dropped (m.table.index pkt.flowHash) flow) := by
  by_cases hcap : m.table.capacity = 0
  · unfold lookup at h
    rw [if_pos hcap] at h
    cases h
  · obtain ⟨b, hb⟩ := exists_bucket hcap pkt.flowHash
    rw [lookup_of_bucket hb] at h
    match b, hb, h with
    | ⟨none, false⟩, hb, h =>
      cases h
      exact .inl ⟨hb, rfl, rfl⟩
    | ⟨some flow, false⟩, hb, h =>
      refine .inr ⟨flow, hb, ?_⟩
      simp only at h
      split at h
      · cases h
      · next hexp =>
        obtain ⟨hr, hcount, hm⟩ := expire_eq (Option.some.inj h)
        exact .inr ⟨hexp, hr, hcount, hm⟩
      · next hexp =>
        cases h
        exact .inl ⟨hexp, rfl, rfl⟩

theorem lookup_of_live (h : m.table.buckets[m.table.index pkt.flowHash]? = some ⟨some flow, false⟩)
    (hlive : (m.flows flow).isExpired nowNs = .ok false) :
    m.lookup pkt nowNs = some (.ok (some flow), m) := by
  rw [lookup_of_bucket h]
  simp only [hlive]

/-- A lookup traps on a table without buckets, on a time before the flow's last packet and
on a counter that does not count the bucket. -/
theorem lookup_eq_trap {f : Fault} (h : m.lookup pkt nowNs = some (.trap f, m')) :
    m.table.capacity = 0 ∨
      ∃ flow, m.table.flowAt (m.table.index pkt.flowHash) = some flow ∧
        (nowNs < (m.flows flow).lastSeenNs ∨ m.table.count = 0) := by
  by_cases hcap : m.table.capacity = 0
  · exact .inl hcap
  · obtain ⟨b, hb⟩ := exists_bucket hcap pkt.flowHash
    rw [lookup_of_bucket hb] at h
    match b, hb, h with
    | ⟨some flow, false⟩, hb, h =>
      refine .inr ⟨flow, MrcFlowTable.flowAt_of_getElem? hb, ?_⟩
      simp only at h
      split at h
      · next hexp => exact .inl (MrcFlow.isExpired_eq_trap.mp hexp).2
      · unfold expire at h
        simp only at h
        split_ifs at h with hcount
        · exact .inr hcount
        · cases h
      · cases h

theorem insert_eq_ok (h : m.insert flow = some (.ok (), m')) :
    m.table.buckets[m.table.index (m.flows flow).id]? = some ⟨none, false⟩ ∧
      m' = m.stored (m.table.index (m.flows flow).id) flow := by
  by_cases hcap : m.table.capacity = 0
  · unfold insert at h
    rw [if_pos hcap] at h
    cases h
  · obtain ⟨b, hb⟩ := exists_bucket hcap (m.flows flow).id
    rw [insert_of_bucket hb] at h
    match b, hb, h with
    | ⟨some _, false⟩, _, h => cases h
    | ⟨none, false⟩, hb, h =>
      simp only at h
      split_ifs at h
      · cases h
        exact ⟨hb, rfl⟩
      · cases h

theorem insert_eq_err {e : FlowError} (h : m.insert flow = some (.err e, m')) : m' = m := by
  by_cases hcap : m.table.capacity = 0
  · unfold insert at h
    rw [if_pos hcap] at h
    cases h
  · obtain ⟨b, hb⟩ := exists_bucket hcap (m.flows flow).id
    rw [insert_of_bucket hb] at h
    match b, hb, h with
    | ⟨some _, false⟩, _, h =>
      cases h
      rfl
    | ⟨none, false⟩, hb, h =>
      simp only at h
      split_ifs at h <;> cases h

/-- An insertion traps on a table without buckets, and on a counter at its end. -/
theorem insert_eq_trap {f : Fault} (h : m.insert flow = some (.trap f, m')) :
    m.table.capacity = 0 ∨
      m.table.buckets[m.table.index (m.flows flow).id]? = some ⟨none, false⟩ ∧
        usizeEnd ≤ m.table.count + 1 := by
  by_cases hcap : m.table.capacity = 0
  · exact .inl hcap
  · obtain ⟨b, hb⟩ := exists_bucket hcap (m.flows flow).id
    rw [insert_of_bucket hb] at h
    match b, hb, h with
    | ⟨some _, false⟩, _, h => cases h
    | ⟨none, false⟩, hb, h =>
      simp only at h
      split_ifs at h with hcount
      · cases h
      · exact .inr ⟨hb, Nat.le_of_not_lt hcount⟩

end FlowMemory
end LingNet.Mrc
