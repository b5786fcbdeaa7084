import LingNet.Mrc.Engine
import LingNet.Mrc.FlowRuns

/-! Times that come in any order. -/
namespace LingNet.Mrc
open Zig

/-- A flow is over its timeout exactly if it was not seen for longer. -/
theorem MrcFlow.isExpired_eq_true {flow : MrcFlow} {nowNs : UInt64} :
    flow.isExpired nowNs = .ok true ↔
      flow.lastSeenNs.toNat + flow.timeoutNs.toNat < nowNs.toNat := by
  unfold MrcFlow.isExpired
  split_ifs with hlate
  · have hlt := UInt64.lt_iff_toNat_lt.mp hlate
    simp only [false_iff]
    omega
  · have hle := UInt64.not_lt.mp hlate
    have hsub := UInt64.toNat_sub_of_le _ _ hle
    have hlenat := UInt64.le_iff_toNat_le.mp hle
    simp only [Outcome.ok.injEq, decide_eq_true_eq, UInt64.lt_iff_toNat_lt, hsub]
    omega

inductive EngineOp where
  | insert (flow : FlowRef)
  | classify (pkt : MrcPacket) (nowNs : UInt64)

namespace FlowMemory

variable {m m' : FlowMemory} {pkt : MrcPacket} {nowNs : UInt64} {flow : FlowRef}

/-- The call finds a bucket, and a time that its flow was not seen after; and a flow that timed out
is counted. -/
def InTime (m : FlowMemory) (pkt : MrcPacket) (nowNs : UInt64) : Prop :=
  m.table.capacity ≠ 0 ∧
    ∀ flow, m.table.buckets[m.table.index pkt.flowHash]? = some ⟨some flow, false⟩ →
      (m.flows flow).lastSeenNs ≤ nowNs ∧
        ((m.flows flow).timeoutNs < nowNs - (m.flows flow).lastSeenNs → m.table.count ≠ 0)

/-- There is a bucket, and the counter has room for one that is empty. -/
def HasRoom (m : FlowMemory) (flow : FlowRef) : Prop :=
  m.table.capacity ≠ 0 ∧
    (m.table.buckets[m.table.index (m.flows flow).id]? = some ⟨none, false⟩ →
      m.table.count + 1 < usizeEnd)

theorem lookup_of_expired {idx : ℕ} (hidx : idx = m.table.index pkt.flowHash)
    (hb : m.table.buckets[idx]? = some ⟨some flow, false⟩)
    (hexp : (m.flows flow).isExpired nowNs = .ok true) :
    m.lookup pkt nowNs = some (m.expire idx flow) := by
  subst hidx
  rw [lookup_of_bucket hb]
  simp only [hexp]

/-- A lookup does not trap exactly if it is in time. -/
theorem lookup_no_trap_iff :
    (∀ f m', m.lookup pkt nowNs ≠ some (.trap f, m')) ↔ m.InTime pkt nowNs := by
  constructor
  · intro hno
    have hcap : m.table.capacity ≠ 0 := by
      intro hzero
      exact hno .divisionByZero m (if_pos hzero)
    refine ⟨hcap, fun flow hb => ?_⟩
    have hlast : (m.flows flow).lastSeenNs ≤ nowNs := by
      by_contra hlate
      have htrap : (m.flows flow).isExpired nowNs = .trap .integerOverflow :=
        if_pos (UInt64.not_le.mp hlate)
      apply hno .integerOverflow m
      rw [lookup_of_bucket hb]
      simp only [htrap]
    refine ⟨hlast, fun htime hcount => ?_⟩
    have hexp : (m.flows flow).isExpired nowNs = .ok true := by
      unfold MrcFlow.isExpired
      rw [if_neg (UInt64.not_lt.mpr hlast), decide_eq_true htime]
    apply hno .integerOverflow
    rw [lookup_of_expired rfl hb hexp]
    unfold expire
    exact congrArg some (if_pos hcount)
  · rintro ⟨hcap, htime⟩ f m' htrap
    obtain ⟨b, hb⟩ := exists_bucket hcap pkt.flowHash
    rw [lookup_of_bucket hb] at htrap
    match b, hb, htrap with
    | ⟨none, false⟩, _, htrap => cases htrap
    | ⟨some flow, false⟩, hb, htrap =>
      obtain ⟨hlast, hcount⟩ := htime flow hb
      by_cases hexp : (m.flows flow).timeoutNs < nowNs - (m.flows flow).lastSeenNs
      · have hexpired : (m.flows flow).isExpired nowNs = .ok true := by
          unfold MrcFlow.isExpired
          rw [if_neg (UInt64.not_lt.mpr hlast), decide_eq_true hexp]
        simp only [hexpired] at htrap
        unfold expire at htrap
        simp only [hcount hexp, if_false] at htrap
        cases htrap
      · have hlive : (m.flows flow).isExpired nowNs = .ok false :=
          MrcFlow.isExpired_eq_false.mpr ⟨hlast, UInt64.not_lt.mp hexp⟩
        simp only [hlive] at htrap
        cases htrap

theorem insert_no_trap_iff :
    (∀ f m', m.insert flow ≠ some (.trap f, m')) ↔ m.HasRoom flow := by
  constructor
  · intro hno
    have hcap : m.table.capacity ≠ 0 := by
      intro hzero
      exact hno .divisionByZero m (if_pos hzero)
    refine ⟨hcap, fun hb => ?_⟩
    by_contra hcount
    apply hno .integerOverflow
    rw [insert_of_bucket hb]
    exact if_neg hcount
  · rintro ⟨hcap, hroom⟩ f m' htrap
    rcases insert_eq_trap htrap with hzero | ⟨hb, hcount⟩
    · exact hcap hzero
    · have hlt := hroom hb
      omega

end FlowMemory

/-- What stopped the process, if a call did. -/
def faultOf {ε α : Type} : Outcome ε α → Option Fault
  | .ok _ => none
  | .err _ => none
  | .trap f => some f

namespace MrcEngine

/-- `none` when the call spins on a lock that is never released. -/
def call (e : MrcEngine) : EngineOp → Option (Option Fault × MrcEngine)
  | .insert flow =>
    match e.insert flow with
    | some (r, e) => some (faultOf r, e)
    | none => none
  | .classify pkt nowNs =>
    match e.classify pkt nowNs with
    | some (r, e) => some (faultOf r, e)
    | none => none

/-- A call that traps or never returns ends the run. -/
def step (e : MrcEngine) (op : EngineOp) : Option MrcEngine :=
  match e.call op with
  | some (none, e) => some e
  | _ => none

/-- The call does not trap, and a flow that it takes out of its bucket was not seen for longer than
its timeout. -/
structure Robust (e : MrcEngine) (op : EngineOp) : Prop where
  no_trap : ∀ f e', e.call op ≠ some (some f, e')
  expired : ∀ e' idx flow, e.step op = some e' → e.flows.table.flowAt idx = some flow →
    e'.flows.table.flowAt idx ≠ some flow → ∃ pkt nowNs, op = .classify pkt nowNs ∧
      (e.flows.flows flow).lastSeenNs.toNat + (e.flows.flows flow).timeoutNs.toNat < nowNs.toNat

/-- The times are in order where they meet: at the flow that a packet without a rule comes to. -/
def Ordered (e : MrcEngine) : EngineOp → Prop
  | .insert flow => e.flows.HasRoom flow
  | .classify pkt nowNs => e.cam.lookup pkt = none → e.flows.InTime pkt nowNs

section Calls

variable {e e' : MrcEngine} {pkt : MrcPacket} {nowNs : UInt64} {flow : FlowRef}

theorem call_insert {r : Outcome FlowError Unit} {flows : FlowMemory}
    (h : e.flows.insert flow = some (r, flows)) :
    e.call (.insert flow) = some (faultOf r, { e with flows := flows }) := by
  simp only [call, insert, h]

theorem call_insert_spins (h : e.flows.insert flow = none) : e.call (.insert flow) = none := by
  simp only [call, insert, h]

theorem call_classify {r : Outcome Empty MrcAction} (h : e.classify pkt nowNs = some (r, e')) :
    e.call (.classify pkt nowNs) = some (faultOf r, e') := by
  simp only [call, h]

theorem call_classify_spins (h : e.classify pkt nowNs = none) :
    e.call (.classify pkt nowNs) = none := by
  simp only [call, h]

theorem insert_call_no_trap_iff :
    (∀ f e', e.call (.insert flow) ≠ some (some f, e')) ↔ e.flows.HasRoom flow := by
  rw [← FlowMemory.insert_no_trap_iff]
  constructor
  · intro hno f flows htrap
    exact hno f _ (call_insert htrap)
  · intro hno f e' htrap
    rcases hinsert : e.flows.insert flow with _ | ⟨r | r | f', flows⟩
    · rw [call_insert_spins hinsert] at htrap
      cases htrap
    · rw [call_insert hinsert] at htrap
      cases htrap
    · rw [call_insert hinsert] at htrap
      cases htrap
    · exact hno f' flows hinsert

/-- Without a rule for the packet, the call does what the lookup of the flow does. -/
theorem call_of_no_rule (hcam : e.cam.lookup pkt = none) (nowNs : UInt64) :
    (e.flows.lookup pkt nowNs = none ∧ e.call (.classify pkt nowNs) = none) ∨
      (∃ flow flows e', e.flows.lookup pkt nowNs = some (.ok (some flow), flows) ∧
        e.call (.classify pkt nowNs) = some (none, e') ∧ e'.flows = flows.touch flow nowNs) ∨
      (∃ flows e', e.flows.lookup pkt nowNs = some (.ok none, flows) ∧
        e.call (.classify pkt nowNs) = some (none, e') ∧ e'.flows = flows) ∨
      ∃ f flows e', e.flows.lookup pkt nowNs = some (.trap f, flows) ∧
        e.call (.classify pkt nowNs) = some (some f, e') := by
  have hclassify := classify_of_no_rule hcam nowNs
  rcases hlook : e.flows.lookup pkt nowNs with _ | ⟨(_ | flow) | r | f, flows⟩
  · rw [hlook] at hclassify
    exact .inl ⟨rfl, call_classify_spins hclassify⟩
  · rw [hlook] at hclassify
    exact .inr (.inr (.inl ⟨flows, _, rfl, call_classify hclassify, flows_dispatch _ _ _⟩))
  · rw [hlook] at hclassify
    exact .inr (.inl ⟨flow, flows, _, rfl, call_classify hclassify, flows_dispatch _ _ _⟩)
  · cases r
  · rw [hlook] at hclassify
    exact .inr (.inr (.inr ⟨f, flows, _, rfl, call_classify hclassify⟩))

theorem call_of_rule {i : ℕ} (hcam : e.cam.lookup pkt = some i) (nowNs : UInt64) :
    ∃ e', e.call (.classify pkt nowNs) = some (none, e') ∧ e'.flows = e.flows := by
  obtain ⟨entry, hentry⟩ := exists_entry hcam
  exact ⟨_, call_classify (classify_of_cam hcam hentry nowNs), flows_dispatch _ _ _⟩

theorem classify_call_no_trap_iff :
    (∀ f e', e.call (.classify pkt nowNs) ≠ some (some f, e')) ↔
      (e.cam.lookup pkt = none → e.flows.InTime pkt nowNs) := by
  cases hcam : e.cam.lookup pkt with
  | some i =>
    obtain ⟨e', hcall, -⟩ := call_of_rule hcam nowNs
    refine iff_of_true (fun f e'' htrap => ?_) nofun
    rw [hcall] at htrap
    cases htrap
  | none =>
    rw [← FlowMemory.lookup_no_trap_iff]
    rcases call_of_no_rule hcam nowNs with
      ⟨hlook, hcall⟩ | ⟨flow, flows, e', hlook, hcall, -⟩ | ⟨flows, e', hlook, hcall, -⟩ |
        ⟨f, flows, e', hlook, hcall⟩
    · simp [hlook, hcall]
    · simp [hlook, hcall]
    · simp [hlook, hcall]
    · exact iff_of_false (fun hno => hno f e' hcall) fun hno => hno rfl f flows hlook

/-- A flow that leaves its bucket timed out. -/
theorem expired_of_gone {m m' : FlowMemory} {r : Option FlowRef} {idx : ℕ}
    (h : m.lookup pkt nowNs = some (.ok r, m')) (hat : m.table.flowAt idx = some flow)
    (hgone : m'.table.flowAt idx ≠ some flow) :
    (m.flows flow).lastSeenNs.toNat + (m.flows flow).timeoutNs.toNat < nowNs.toNat := by
  rcases FlowMemory.lookup_eq_ok h with
    ⟨-, -, rfl⟩ | ⟨gone, hb, ⟨-, -, rfl⟩ | ⟨hexp, -, -, rfl⟩⟩
  · exact absurd hat hgone
  · exact absurd hat hgone
  · by_cases hidx : idx = m.table.index pkt.flowHash
    · subst hidx
      rw [MrcFlowTable.flowAt_of_getElem? hb] at hat
      obtain rfl : gone = flow := Option.some.inj hat
      exact MrcFlow.isExpired_eq_true.mp hexp
    · exact absurd ((MrcFlowTable.flowAt_setFlow_ne _ hidx _ _).trans hat) hgone

/-- An insertion leaves every flow where it was. -/
theorem kept_of_insert {new : FlowRef} (h : e.step (.insert new) = some e') {idx : ℕ}
    (hat : e.flows.table.flowAt idx = some flow) : e'.flows.table.flowAt idx = some flow := by
  rcases hinsert : e.flows.insert new with _ | ⟨r | r | f, flows⟩
  · simp only [step, call_insert_spins hinsert] at h
    cases h
  · simp only [step, call_insert hinsert, faultOf] at h
    cases h
    obtain ⟨hb, rfl⟩ := FlowMemory.insert_eq_ok hinsert
    have hne : idx ≠ e.flows.table.index (e.flows.flows new).id := by
      rintro rfl
      rw [MrcFlowTable.flowAt_of_getElem? hb] at hat
      cases hat
    exact (MrcFlowTable.flowAt_setFlow_ne _ hne _ _).trans hat
  · simp only [step, call_insert hinsert, faultOf] at h
    cases h
    rw [FlowMemory.insert_eq_err hinsert]
    exact hat
  · simp only [step, call_insert hinsert, faultOf] at h
    cases h

theorem expired_of_classify {pkt : MrcPacket} {nowNs : UInt64}
    (h : e.step (.classify pkt nowNs) = some e') {idx : ℕ}
    (hat : e.flows.table.flowAt idx = some flow)
    (hgone : e'.flows.table.flowAt idx ≠ some flow) :
    (e.flows.flows flow).lastSeenNs.toNat + (e.flows.flows flow).timeoutNs.toNat <
      nowNs.toNat := by
  cases hcam : e.cam.lookup pkt with
  | some i =>
    obtain ⟨e'', hcall, hflows⟩ := call_of_rule hcam nowNs
    simp only [step, hcall] at h
    cases h
    rw [hflows] at hgone
    exact absurd hat hgone
  | none =>
    rcases call_of_no_rule hcam nowNs with
      ⟨-, hcall⟩ | ⟨touched, flows, e'', hlook, hcall, hflows⟩ |
        ⟨flows, e'', hlook, hcall, hflows⟩ | ⟨f, flows, e'', -, hcall⟩
    · simp only [step, hcall] at h
      cases h
    · simp only [step, hcall] at h
      cases h
      rw [hflows] at hgone
      exact expired_of_gone hlook hat hgone
    · simp only [step, hcall] at h
      cases h
      rw [hflows] at hgone
      exact expired_of_gone hlook hat hgone
    · simp only [step, hcall] at h
      cases h

/-- Flows leave the table by timing out only, in any call that comes to an end. -/
theorem expired_of_step {op : EngineOp} (h : e.step op = some e') {idx : ℕ}
    (hat : e.flows.table.flowAt idx = some flow)
    (hgone : e'.flows.table.flowAt idx ≠ some flow) : ∃ pkt nowNs, op = .classify pkt nowNs ∧
      (e.flows.flows flow).lastSeenNs.toNat + (e.flows.flows flow).timeoutNs.toNat <
        nowNs.toNat := by
  cases op with
  | insert new => exact absurd (kept_of_insert h hat) hgone
  | classify pkt nowNs => exact ⟨pkt, nowNs, rfl, expired_of_classify h hat hgone⟩

theorem robust_iff (e : MrcEngine) (op : EngineOp) : e.Robust op ↔ e.Ordered op := by
  have hexpired : ∀ e' idx flow, e.step op = some e' → e.flows.table.flowAt idx = some flow →
      e'.flows.table.flowAt idx ≠ some flow → ∃ pkt nowNs, op = .classify pkt nowNs ∧
        (e.flows.flows flow).lastSeenNs.toNat + (e.flows.flows flow).timeoutNs.toNat <
          nowNs.toNat := by
    intro e' idx flow h hat hgone
    exact expired_of_step h hat hgone
  cases op with
  | insert flow =>
    exact ⟨fun h => insert_call_no_trap_iff.mp h.no_trap,
      fun h => ⟨insert_call_no_trap_iff.mpr h, hexpired⟩⟩
  | classify pkt nowNs =>
    exact ⟨fun h => classify_call_no_trap_iff.mp h.no_trap,
      fun h => ⟨classify_call_no_trap_iff.mpr h, hexpired⟩⟩

end Calls

/-- From every engine and over every sequence of calls, with times in any order, no call traps and
flows leave by timing out only, exactly if the times are in order where they meet. -/
theorem robust_iff_ordered (e : MrcEngine) (ops : List EngineOp) :
    Run.AllSteps step Robust e ops ↔ Run.AllSteps step Ordered e ops := by
  apply Run.allSteps_congr (I := fun _ => True) _ _ trivial
  · intro e op _
    exact robust_iff e op
  · intros
    trivial

/-- No rules, and one bucket for one flow. -/
def tcpEngine : MrcEngine where
  cam := .init []
  flows := (FlowRun.init (FlowRun.oneBucket none) fun _ => FlowRun.tcpFlow).memory
  defaultAction := .forward
  stats := {}
  ioHandler := false
  dispatched := []

/-- Two packets of a connection that arrive out of order stop the engine. -/
theorem late_packet_traps :
    ¬ Run.AllSteps step Robust tcpEngine
      [.insert 0, .classify FlowRun.tcpFlow.packet 100, .classify FlowRun.tcpFlow.packet 50] := by
  intro h
  have hclassified := h.2 _ rfl
  have hlate := (hclassified.2 _ rfl).1
  exact hlate.no_trap .integerOverflow _ rfl

end MrcEngine

end LingNet.Mrc
