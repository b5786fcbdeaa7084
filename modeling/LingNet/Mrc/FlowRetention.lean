import LingNet.Mrc.FlowRuns

/-! A flow table over empty buckets: its counter counts the buckets in use, every flow sits in
the bucket of its id, and a flow stays until a lookup of its bucket finds it timed out. -/
namespace LingNet.Mrc.FlowRun
open Zig

/-- The invariant of a table whose buckets were empty at `init`. -/
structure Booked (s : FlowRun) : Prop where
  count : s.memory.table.count = s.memory.table.occupied
  placed : ∀ i r, s.flowAt i = some r → s.index (s.flow r).id = i

theorem Booked.init {buckets : FlowBuffer} (hnull : ∀ b ∈ buckets.val, b.flow = none)
    (flows : FlowRef → MrcFlow) : Booked (init buckets flows) where
  count := by
    symm
    refine List.countP_eq_zero.mpr ?_
    intro b hb
    simp [hnull b hb]
  placed i r h := by
    obtain ⟨b, hb, hr⟩ := Option.bind_eq_some_iff.mp h
    rw [hnull b (List.mem_of_getElem? hb)] at hr
    cases hr

theorem Booked.step {s s' : FlowRun} {op : FlowOp} (hbook : Booked s)
    (h : s.step op = some s') : Booked s' := by
  constructor
  · rcases step_cases h with rfl | ⟨flow, rfl, hb, rfl⟩ |
      ⟨pkt, nowNs, flow, rfl, hb, _, hcount, rfl⟩
    · exact hbook.count
    · have hocc := MrcFlowTable.occupied_setFlow hb (some flow) (s.memory.table.count + 1)
      have hold := hbook.count
      change s.memory.table.count + 1 = _
      simp only [FlowMemory.stored, Option.isSome] at hocc ⊢
      simp only [Bool.toNat_false, Bool.toNat_true] at hocc
      omega
    · have hocc := MrcFlowTable.occupied_setFlow hb none (s.memory.table.count - 1)
      have hold := hbook.count
      change s.memory.table.count - 1 = _
      simp only [FlowMemory.dropped, Option.isSome] at hocc ⊢
      simp only [Bool.toNat_false, Bool.toNat_true] at hocc
      omega
  · intro i r hi
    obtain ⟨state, hr⟩ := flow_step h r
    rw [index_step h, hr]
    rcases flowAt_step h hi with hold | ⟨hidx, _⟩
    · exact hbook.placed i r hold
    · exact hidx

theorem Booked.run {buckets : FlowBuffer} (hnull : ∀ b ∈ buckets.val, b.flow = none)
    {flows : FlowRef → MrcFlow} {ops : List FlowOp} {s : FlowRun}
    (hr : Run.run FlowRun.step (FlowRun.init buckets flows) ops = some s) : Booked s :=
  Run.invariant_of_run (fun _ _ _ hbook h => hbook.step h) (Booked.init hnull flows) hr

/-- A bucket in use is counted. -/
theorem Booked.count_ne_zero {s : FlowRun} (hbook : Booked s) {i : ℕ} {r : FlowRef}
    (h : s.flowAt i = some r) : s.memory.table.count ≠ 0 := by
  obtain ⟨b, hb, hr⟩ := Option.bind_eq_some_iff.mp h
  have hpos : 0 < s.memory.table.occupied :=
    List.countP_pos_iff.mpr ⟨b, List.mem_of_getElem? hb, by rw [hr]; rfl⟩
  rw [hbook.count]
  exact Nat.ne_of_gt hpos

/-- An empty bucket leaves room in the counter. -/
theorem Booked.count_lt {s : FlowRun} (hbook : Booked s) {i : ℕ} {locked : Bool}
    (h : s.memory.table.buckets[i]? = some ⟨none, locked⟩) :
    s.memory.table.count + 1 < usizeEnd := by
  have hocc := MrcFlowTable.occupied_setFlow h (some 0) 0
  have hle := (s.memory.table.setFlow i (some 0) 0).occupied_le
  have hlt := (s.memory.table.setFlow i (some 0) 0).capacity_lt
  have hold := hbook.count
  simp only [Option.isSome, Bool.toNat_false, Bool.toNat_true] at hocc
  omega

/-- No call traps on the counter: a lookup traps on a table without buckets and on a time
before the flow's last packet. -/
theorem Booked.lookup_eq_trap {s : FlowRun} (hbook : Booked s) {pkt : MrcPacket} {nowNs : UInt64}
    {f : Fault} {m : FlowMemory} (h : s.memory.lookup pkt nowNs = some (.trap f, m)) :
    s.memory.table.capacity = 0 ∨
      ∃ r, s.flowAt (s.index pkt.flowHash) = some r ∧ nowNs < (s.flow r).lastSeenNs := by
  rcases FlowMemory.lookup_eq_trap h with hcap | ⟨r, hr, hlast | hcount⟩
  · exact .inl hcap
  · exact .inr ⟨r, hr, hlast⟩
  · exact absurd hcount (hbook.count_ne_zero hr)

theorem Booked.insert_eq_trap {s : FlowRun} (hbook : Booked s) {r : FlowRef} {f : Fault}
    {m : FlowMemory} (h : s.memory.insert r = some (.trap f, m)) :
    s.memory.table.capacity = 0 := by
  rcases FlowMemory.insert_eq_trap h with hcap | ⟨hb, hcount⟩
  · exact hcap
  · have hlt := hbook.count_lt hb
    omega

/-! Retention. -/

/-- A lookup of the flow's bucket finds the flow timed out. -/
def FindsExpired (r : FlowRef) (s : FlowRun) : FlowOp → Prop
  | .insert _ => False
  | .lookup pkt nowNs => s.flowAt (s.index pkt.flowHash) = some r ∧
      (s.flow r).isExpired nowNs = .ok true

/-- The flow sits in a bucket that nobody has locked. -/
def Resident (r : FlowRef) (idx : ℕ) (s : FlowRun) : Prop :=
  s.memory.table.buckets[idx]? = some ⟨some r, false⟩

theorem resident_of_insert {s s' : FlowRun} {r : FlowRef} {m : FlowMemory}
    (hins : s.memory.insert r = some (.ok (), m)) (h : s.step (.insert r) = some s') :
    Resident r (s.index (s.flow r).id) s' := by
  obtain ⟨hb, hm⟩ := FlowMemory.insert_eq_ok hins
  simp only [step, hins] at h
  cases h
  unfold Resident
  rw [hm]
  exact MrcFlowTable.getElem?_setFlow_self hb _ _

theorem Resident.step {s s' : FlowRun} {op : FlowOp} {r : FlowRef} {idx : ℕ}
    (hres : Resident r idx s) (hkeep : ¬ FindsExpired r s op) (h : s.step op = some s') :
    Resident r idx s' := by
  unfold Resident at hres ⊢
  rcases step_cases h with rfl | ⟨flow, rfl, hb, rfl⟩ | ⟨pkt, nowNs, flow, rfl, hb, hexp, _, rfl⟩
  · exact hres
  · have hne : idx ≠ s.memory.table.index (s.memory.flows flow).id := by
      rintro rfl
      rw [hres] at hb
      cases hb
    exact (MrcFlowTable.getElem?_setFlow_ne _ hne _ _).trans hres
  · have hne : idx ≠ s.memory.table.index pkt.flowHash := by
      rintro rfl
      rw [hres] at hb
      cases hb
      exact hkeep ⟨MrcFlowTable.flowAt_of_getElem? hres, hexp⟩
    exact (MrcFlowTable.getElem?_setFlow_ne _ hne _ _).trans hres

theorem Resident.run {s s' : FlowRun} {ops : List FlowOp} {r : FlowRef} {idx : ℕ}
    (hres : Resident r idx s)
    (hkeep : Run.AllSteps FlowRun.step (fun s op => ¬ FindsExpired r s op) s ops)
    (hr : Run.run FlowRun.step s ops = some s') : Resident r idx s' :=
  Run.invariant_of_step (fun _ _ _ hres hkeep h => hres.step hkeep h) hres hkeep hr

theorem index_run {s s' : FlowRun} {ops : List FlowOp} (hr : Run.run step s ops = some s') :
    s'.index = s.index :=
  Run.invariant_of_run (I := fun t => t.index = s.index)
    (fun _ _ _ heq h => (index_step h).trans heq) rfl hr

/-- The flow that was inserted answers every lookup of its 5-tuple in time, until a lookup of its
bucket finds it timed out. -/
def Retained (s : FlowRun) : Prop :=
  ∀ r m s' ops t nowNs, s.memory.insert r = some (.ok (), m) → s.step (.insert r) = some s' →
    (s.flow r).id = (s.flow r).packet.flowHash → Run.run step s' ops = some t →
    Run.AllSteps step (fun u op => ¬ FindsExpired r u op) s' ops →
    (t.flow r).lastSeenNs ≤ nowNs → nowNs - (t.flow r).lastSeenNs ≤ (t.flow r).timeoutNs →
    t.memory.lookup (s.flow r).packet nowNs = some (.ok (some r), t.memory)

theorem retained (s : FlowRun) : Retained s := by
  intro r m s' ops t nowNs hins hstep hkey hrun hkeep hlast htime
  have hres := (resident_of_insert hins hstep).run hkeep hrun
  have hidx : t.index = s.index := (index_run hrun).trans (index_step hstep)
  refine FlowMemory.lookup_of_live ?_ (MrcFlow.isExpired_eq_false.mpr ⟨hlast, htime⟩)
  have hbucket := hres
  rw [hkey, ← hidx] at hbucket
  exact hbucket

/-- Over empty buckets, after any calls: the counter counts the buckets in use, every flow
sits in the bucket of its id, a failed insertion changes nothing, no call traps on the
counter, and flows are retained. -/
theorem bookkeeping_and_retention (buckets : FlowBuffer)
    (hnull : ∀ b ∈ buckets.val, b.flow = none) (flows : FlowRef → MrcFlow) (ops : List FlowOp)
    (s : FlowRun) (hr : Run.run step (init buckets flows) ops = some s) :
    s.memory.table.count = s.memory.table.occupied ∧
      (∀ i r, s.flowAt i = some r → i = (s.flow r).id.toNat % s.memory.table.capacity) ∧
      (∀ r e m, s.memory.insert r = some (.err e, m) → m = s.memory) ∧
      (∀ r f m, s.memory.insert r = some (.trap f, m) → s.memory.table.capacity = 0) ∧
      (∀ pkt nowNs f m, s.memory.lookup pkt nowNs = some (.trap f, m) →
        s.memory.table.capacity = 0 ∨
          ∃ r, s.flowAt (s.index pkt.flowHash) = some r ∧ nowNs < (s.flow r).lastSeenNs) ∧
      Retained s := by
  have hbook := Booked.run hnull hr
  refine ⟨hbook.count, ?_, ?_, ?_, ?_, retained s⟩
  · intro i r hi
    exact (hbook.placed i r hi).symm
  · intro r e m h
    exact FlowMemory.insert_eq_err h
  · intro r f m h
    exact hbook.insert_eq_trap h
  · intro pkt nowNs f m h
    exact hbook.lookup_eq_trap h

/-- A lookup before the timeout finds the connection. -/
theorem tcpFlow_retained :
    ((init (oneBucket none) fun _ => tcpFlow).memory.stored 0 0).lookup tcpFlow.packet 900 =
      some (.ok (some 0), (init (oneBucket none) fun _ => tcpFlow).memory.stored 0 0) := by
  have hnull : ∀ b ∈ (oneBucket none).val, b.flow = none := by
    intro b hb
    rw [List.mem_singleton.mp hb]
  obtain ⟨_, _, _, _, _, hret⟩ :=
    bookkeeping_and_retention (oneBucket none) hnull (fun _ => tcpFlow) [] _ rfl
  exact hret 0 _ _ [] _ 900 rfl step_insert_tcpFlow rfl rfl trivial (by decide) (by decide)

end LingNet.Mrc.FlowRun
