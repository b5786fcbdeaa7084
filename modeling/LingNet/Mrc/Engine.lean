import LingNet.Mrc.Flow

/-! The classifier of the data plane: the rules of the CAM first, then the flows, then a default.
What the I/O handler does is no code of the engine; that it is called is recorded. -/
namespace LingNet.Mrc
open Zig

structure MrcStats where
  packetsClassified : UInt64 := 0
  camHits : UInt64 := 0
  flowHits : UInt64 := 0
  drops : UInt64 := 0
  deriving DecidableEq, Repr

/-- `ioHandler` says whether there is a handler, and `dispatched` what it was called with. -/
structure MrcEngine where
  cam : MrcCamTable
  flows : FlowMemory
  defaultAction : MrcAction
  stats : MrcStats
  ioHandler : Bool
  dispatched : List (MrcAction × MrcPacket)

/-- `entry.hit_count.fetchAdd(1)`, which wraps. -/
def MrcCamTable.hit (t : MrcCamTable) (i : ℕ) : MrcCamTable :=
  { t with
    entries := t.entries.modify i fun e => { e with hitCount := wrappingAdd e.hitCount 1 }
    capacity_eq := by rw [List.length_modify, t.capacity_eq] }

def MrcFlow.touch (flow : MrcFlow) (nowNs : UInt64) : MrcFlow :=
  { flow with
    lastSeenNs := nowNs
    hitCount := flow.hitCount + 1
    state := if flow.state = .new then .established else flow.state }

/-- The call of `touch` on the flow behind a pointer. -/
def FlowMemory.touch (m : FlowMemory) (flow : FlowRef) (nowNs : UInt64) : FlowMemory :=
  { m with flows := Function.update m.flows flow ((m.flows flow).touch nowNs) }

@[simp] theorem FlowMemory.action_touch (m : FlowMemory) (flow r : FlowRef) (nowNs : UInt64) :
    ((m.touch flow nowNs).flows r).action = (m.flows r).action := by
  unfold FlowMemory.touch
  by_cases hr : r = flow
  · subst hr
    simp [MrcFlow.touch]
  · simp [hr]

/-- A flow gains one hit by each call of `touch` on it. -/
theorem FlowMemory.hitCount_touch (m : FlowMemory) (flow r : FlowRef) (nowNs : UInt64) :
    ((m.touch flow nowNs).flows r).hitCount =
      (m.flows r).hitCount + if flow = r then 1 else 0 := by
  unfold FlowMemory.touch
  by_cases hr : r = flow
  · subst hr
    simp [MrcFlow.touch]
  · simp [hr, Ne.symm hr]

theorem FlowMemory.eq_of_lookup_live {m m' : FlowMemory} {pkt : MrcPacket} {nowNs : UInt64}
    {flow : FlowRef} (h : m.lookup pkt nowNs = some (.ok (some flow), m')) : m' = m := by
  rcases FlowMemory.lookup_eq_ok h with ⟨-, -, rfl⟩ | ⟨_, -, ⟨-, -, rfl⟩ | ⟨-, hr, -⟩⟩
  · rfl
  · rfl
  · cases hr

namespace MrcEngine

/-- `self.stats.packets_classified.fetchAdd(1)`; counters wrap. -/
def received (e : MrcEngine) : MrcEngine :=
  { e with stats := { e.stats with packetsClassified := e.stats.packetsClassified + 1 } }

/-- The branch of a rule that matches. -/
def countCam (e : MrcEngine) (i : ℕ) : MrcEngine :=
  { e with cam := e.cam.hit i, stats := { e.stats with camHits := e.stats.camHits + 1 } }

/-- The branch of a flow. -/
def countFlow (e : MrcEngine) (flow : FlowRef) (nowNs : UInt64) : MrcEngine :=
  { e with
    flows := e.flows.touch flow nowNs
    stats := { e.stats with flowHits := e.stats.flowHits + 1 } }

/-- `handler(&self.io_ctx, action, pkt)` -/
def dispatch (e : MrcEngine) (action : MrcAction) (pkt : MrcPacket) : MrcEngine :=
  if e.ioHandler then { e with dispatched := e.dispatched ++ [(action, pkt)] } else e

/-- `none` when the call spins on a lock that is never released. -/
def classify (e : MrcEngine) (pkt : MrcPacket) (nowNs : UInt64) :
    Option (Outcome Empty MrcAction × MrcEngine) :=
  let e := e.received
  match e.cam.lookup pkt with
  | some i =>
    match e.cam.entries[i]? with
    | some entry => some (.ok entry.action, (e.countCam i).dispatch entry.action pkt)
    | none => some (.trap .outOfBounds, e)
  | none =>
    match e.flows.lookup pkt nowNs with
    | some (.ok (some flow), flows) =>
      let e := { e with flows := flows }.countFlow flow nowNs
      let action := (e.flows.flows flow).action
      some (.ok action, e.dispatch action pkt)
    | some (.ok none, flows) =>
      some (.ok e.defaultAction, { e with flows := flows }.dispatch e.defaultAction pkt)
    | some (.trap f, flows) => some (.trap f, { e with flows := flows })
    | none => none

/-- `self.flows.insert(flow)` -/
def insert (e : MrcEngine) (flow : FlowRef) : Option (Outcome FlowError Unit × MrcEngine) :=
  match e.flows.insert flow with
  | some (r, flows) => some (r, { e with flows := flows })
  | none => none

section Dispatch

variable (e : MrcEngine) (action : MrcAction) (pkt : MrcPacket)

@[simp] theorem cam_dispatch : (e.dispatch action pkt).cam = e.cam := by
  unfold dispatch
  split_ifs <;> rfl

@[simp] theorem flows_dispatch : (e.dispatch action pkt).flows = e.flows := by
  unfold dispatch
  split_ifs <;> rfl

@[simp] theorem stats_dispatch : (e.dispatch action pkt).stats = e.stats := by
  unfold dispatch
  split_ifs <;> rfl

@[simp] theorem defaultAction_dispatch :
    (e.dispatch action pkt).defaultAction = e.defaultAction := by
  unfold dispatch
  split_ifs <;> rfl

end Dispatch

section Classify

variable {e : MrcEngine} {pkt : MrcPacket} {nowNs : UInt64}

/-- A rule that matches is in the table. -/
theorem exists_entry {t : MrcCamTable} {i : ℕ} (h : t.lookup pkt = some i) :
    ∃ entry, t.entries[i]? = some entry := by
  obtain ⟨hlt, -, -⟩ := List.findIdx?_eq_some_iff_getElem.mp h
  have hle := List.length_take_le' t.count t.entries
  exact ⟨_, List.getElem?_eq_getElem (by omega)⟩

theorem classify_of_cam {i : ℕ} {entry : MrcCamEntry} (hcam : e.cam.lookup pkt = some i)
    (hentry : e.cam.entries[i]? = some entry) (nowNs : UInt64) : e.classify pkt nowNs =
      some (.ok entry.action, (e.received.countCam i).dispatch entry.action pkt) := by
  have hcam' : e.received.cam.lookup pkt = some i := hcam
  have hentry' : e.received.cam.entries[i]? = some entry := hentry
  unfold classify
  simp only [hcam', hentry']

/-- Without a rule, the flows decide. -/
theorem classify_of_no_rule (hcam : e.cam.lookup pkt = none) (nowNs : UInt64) :
    e.classify pkt nowNs =
      match e.flows.lookup pkt nowNs with
      | some (.ok (some flow), flows) =>
        let e := { e.received with flows := flows }.countFlow flow nowNs
        let action := (e.flows.flows flow).action
        some (.ok action, e.dispatch action pkt)
      | some (.ok none, flows) =>
        some (.ok e.defaultAction, { e.received with flows := flows }.dispatch e.defaultAction pkt)
      | some (.trap f, flows) => some (.trap f, { e.received with flows := flows })
      | none => none := by
  have hcam' : e.received.cam.lookup pkt = none := hcam
  unfold classify
  simp only [hcam']
  rfl

/-- The three branches of a call that returns. -/
theorem classify_eq_ok {e' : MrcEngine} {action : MrcAction}
    (h : e.classify pkt nowNs = some (.ok action, e')) :
    (∃ i entry, e.cam.lookup pkt = some i ∧ e.cam.entries[i]? = some entry ∧
        action = entry.action ∧ e' = (e.received.countCam i).dispatch action pkt) ∨
      e.cam.lookup pkt = none ∧
        ((∃ flow, e.flows.lookup pkt nowNs = some (.ok (some flow), e.flows) ∧
            action = (e.flows.flows flow).action ∧
            e' = (e.received.countFlow flow nowNs).dispatch action pkt) ∨
          ∃ flows, e.flows.lookup pkt nowNs = some (.ok none, flows) ∧ action = e.defaultAction ∧
            e' = { e.received with flows := flows }.dispatch action pkt) := by
  cases hcam : e.cam.lookup pkt with
  | some i =>
    obtain ⟨entry, hentry⟩ := exists_entry hcam
    rw [classify_of_cam hcam hentry] at h
    cases h
    exact .inl ⟨i, entry, rfl, hentry, rfl, rfl⟩
  | none =>
    rw [classify_of_no_rule hcam] at h
    refine .inr ⟨rfl, ?_⟩
    rcases hlook : e.flows.lookup pkt nowNs with _ | ⟨(_ | flow) | r | f, flows⟩
    · rw [hlook] at h
      cases h
    · rw [hlook] at h
      cases h
      exact .inr ⟨flows, rfl, rfl, rfl⟩
    · rw [hlook] at h
      cases h
      obtain rfl : flows = e.flows := FlowMemory.eq_of_lookup_live hlook
      have htouched : ((e.flows.touch flow nowNs).flows flow).action =
          (e.flows.flows flow).action := FlowMemory.action_touch ..
      exact .inl ⟨flow, rfl, htouched, rfl⟩
    · cases r
    · rw [hlook] at h
      cases h

end Classify

end MrcEngine
end LingNet.Mrc
