import LingNet.Mrc.Flow

/-! Runs of the flow table: which flows a lookup can return, and how long a flow stays. -/
namespace LingNet.Mrc
open Zig

/-- A flow table with the flows inserted since `init`. -/
structure FlowRun where
  memory : FlowMemory
  inserted : List FlowRef

inductive FlowOp where
  | insert (flow : FlowRef)
  | lookup (pkt : MrcPacket) (nowNs : UInt64)

namespace FlowRun

def init (buckets : FlowBuffer) (flows : FlowRef → MrcFlow) : FlowRun :=
  ⟨⟨.init buckets, flows⟩, []⟩

/-- A call that traps or never returns ends the run. -/
def step (s : FlowRun) : FlowOp → Option FlowRun
  | .insert flow =>
    match s.memory.insert flow with
    | some (.ok (), m) => some ⟨m, flow :: s.inserted⟩
    | some (.err _, m) => some ⟨m, s.inserted⟩
    | _ => none
  | .lookup pkt nowNs =>
    match s.memory.lookup pkt nowNs with
    | some (.ok _, m) => some ⟨m, s.inserted⟩
    | _ => none

/-- What one call that returns can do. -/
theorem step_cases {s s' : FlowRun} {op : FlowOp} (h : s.step op = some s') :
    s' = s ∨
      (∃ flow, op = .insert flow ∧
        s.memory.table.buckets[s.memory.table.index (s.memory.flows flow).id]? =
          some ⟨none, false⟩ ∧
        s' = ⟨s.memory.stored (s.memory.table.index (s.memory.flows flow).id) flow,
          flow :: s.inserted⟩) ∨
      ∃ pkt nowNs flow, op = .lookup pkt nowNs ∧
        s.memory.table.buckets[s.memory.table.index pkt.flowHash]? = some ⟨some flow, false⟩ ∧
        (s.memory.flows flow).isExpired nowNs = .ok true ∧ s.memory.table.count ≠ 0 ∧
        s' = ⟨s.memory.dropped (s.memory.table.index pkt.flowHash) flow, s.inserted⟩ := by
  cases op with
  | insert flow =>
    simp only [step] at h
    split at h
    · next hins =>
      cases h
      obtain ⟨hb, hm⟩ := FlowMemory.insert_eq_ok hins
      exact .inr (.inl ⟨flow, rfl, hb, congrArg (FlowRun.mk · _) hm⟩)
    · next hins =>
      cases h
      exact .inl (congrArg (FlowRun.mk · _) (FlowMemory.insert_eq_err hins))
    · cases h
  | lookup pkt nowNs =>
    simp only [step] at h
    split at h
    · next hlook =>
      cases h
      rcases FlowMemory.lookup_eq_ok hlook with
        ⟨_, _, hm⟩ | ⟨flow, hb, ⟨_, _, hm⟩ | ⟨hexp, _, hcount, hm⟩⟩
      · exact .inl (congrArg (FlowRun.mk · _) hm)
      · exact .inl (congrArg (FlowRun.mk · _) hm)
      · exact .inr (.inr ⟨pkt, nowNs, flow, rfl, hb, hexp, hcount, congrArg (FlowRun.mk · _) hm⟩)
    · cases h

/-- The index of the bucket that a hash leads to. -/
def index (s : FlowRun) (hash : UInt64) : ℕ := s.memory.table.index hash

/-- The flow of a bucket. -/
def flowAt (s : FlowRun) (idx : ℕ) : Option FlowRef := s.memory.table.flowAt idx

def flow (s : FlowRun) (r : FlowRef) : MrcFlow := s.memory.flows r

/-- The calls change the state of a flow and nothing else of it. -/
theorem flow_step {s s' : FlowRun} {op : FlowOp} (h : s.step op = some s') (r : FlowRef) :
    ∃ state, s'.flow r = { s.flow r with state := state } := by
  rcases step_cases h with rfl | ⟨flow, rfl, _, rfl⟩ | ⟨pkt, nowNs, flow, rfl, _, _, _, rfl⟩
  · exact ⟨_, rfl⟩
  · exact ⟨_, rfl⟩
  · by_cases hr : r = flow
    · subst hr
      exact ⟨.expired, Function.update_self ..⟩
    · exact ⟨_, Function.update_of_ne hr ..⟩

theorem index_step {s s' : FlowRun} {op : FlowOp} (h : s.step op = some s') :
    s'.index = s.index := by
  funext hash
  rcases step_cases h with rfl | ⟨flow, rfl, _, rfl⟩ | ⟨pkt, nowNs, flow, rfl, _, _, _, rfl⟩
  · rfl
  · exact MrcFlowTable.index_setFlow ..
  · exact MrcFlowTable.index_setFlow ..

/-- A pointer comes into a bucket by the insertion of a flow whose id leads to it. -/
theorem flowAt_step {s s' : FlowRun} {op : FlowOp} (h : s.step op = some s') {i : ℕ} {r : FlowRef}
    (hi : s'.flowAt i = some r) :
    s.flowAt i = some r ∨ s.index (s.flow r).id = i ∧ s'.inserted = r :: s.inserted := by
  rcases step_cases h with rfl | ⟨flow, rfl, hb, rfl⟩ | ⟨pkt, nowNs, flow, rfl, hb, _, _, rfl⟩
  · exact .inl hi
  · by_cases hidx : i = s.index (s.flow flow).id
    · subst hidx
      have hat := MrcFlowTable.flowAt_setFlow_self hb (some flow) (s.memory.table.count + 1)
      have hr : flow = r := Option.some.inj (hat.symm.trans hi)
      exact .inr ⟨hr ▸ rfl, hr ▸ rfl⟩
    · exact .inl ((MrcFlowTable.flowAt_setFlow_ne _ hidx _ _).symm.trans hi)
  · by_cases hidx : i = s.index pkt.flowHash
    · subst hidx
      cases (MrcFlowTable.flowAt_setFlow_self hb _ _).symm.trans hi
    · exact .inl ((MrcFlowTable.flowAt_setFlow_ne _ hidx _ _).symm.trans hi)

theorem inserted_step {s s' : FlowRun} {op : FlowOp} (h : s.step op = some s') :
    s'.inserted = s.inserted ∨
      ∃ flow, op = .insert flow ∧ s.flowAt (s.index (s.flow flow).id) = none ∧
        s'.inserted = flow :: s.inserted := by
  rcases step_cases h with rfl | ⟨flow, rfl, hb, rfl⟩ | ⟨pkt, nowNs, flow, rfl, _, _, _, rfl⟩
  · exact .inl rfl
  · exact .inr ⟨flow, rfl, MrcFlowTable.flowAt_of_getElem? hb, rfl⟩
  · exact .inl rfl

/-! What a lookup may return. -/

/-- A lookup returns a flow inserted since `init` whose packet has the 5-tuple looked up. -/
def Sound (s : FlowRun) : FlowOp → Prop
  | .insert _ => True
  | .lookup pkt nowNs => ∀ r m, s.memory.lookup pkt nowNs = some (.ok (some r), m) →
      r ∈ s.inserted ∧ (s.flow r).packet = pkt

/-- No flow inserted since `init` leads to the bucket. -/
def Untouched (s : FlowRun) (idx : ℕ) : Prop := ∀ r ∈ s.inserted, s.index (s.flow r).id ≠ idx

/-- Two 5-tuples that differ and share a bucket. -/
def Aliases (s : FlowRun) (a b : MrcPacket) : Prop :=
  a ≠ b ∧ s.index a.flowHash = s.index b.flowHash

/-- The bucket of a packet that is looked up holds, unlocked and not timed out, neither a pointer
that the caller's memory had there nor a flow of an aliasing packet. -/
def Undisturbed (s : FlowRun) : FlowOp → Prop
  | .insert _ => True
  | .lookup pkt nowNs => ∀ r,
      s.memory.table.buckets[s.index pkt.flowHash]? = some ⟨some r, false⟩ →
      (s.flow r).isExpired nowNs = .ok false →
      ¬ s.Untouched (s.index pkt.flowHash) ∧ ¬ s.Aliases (s.flow r).packet pkt

/-- The id of an inserted flow is the hash of its packet. -/
def Keyed (flows : FlowRef → MrcFlow) : FlowOp → Prop
  | .insert r => (flows r).id = (flows r).packet.flowHash
  | .lookup _ _ => True

/-- The invariant of every table: a pointer in a bucket that some inserted flow leads to is
such a flow. -/
structure Inv (flows : FlowRef → MrcFlow) (s : FlowRun) : Prop where
  id_eq : ∀ r, (s.flow r).id = (flows r).id
  packet_eq : ∀ r, (s.flow r).packet = (flows r).packet
  keyed : ∀ r ∈ s.inserted, (flows r).id = (flows r).packet.flowHash
  placed : ∀ i r, s.flowAt i = some r →
    s.Untouched i ∨ r ∈ s.inserted ∧ s.index (s.flow r).id = i

theorem Inv.init (buckets : FlowBuffer) (flows : FlowRef → MrcFlow) :
    Inv flows (init buckets flows) where
  id_eq _ := rfl
  packet_eq _ := rfl
  keyed _ h := by cases h
  placed _ _ _ := .inl fun _ h => by cases h

theorem Inv.step {flows : FlowRef → MrcFlow} {s s' : FlowRun} {op : FlowOp} (hinv : Inv flows s)
    (hop : Keyed flows op) (h : s.step op = some s') : Inv flows s' := by
  have hid : ∀ r, (s'.flow r).id = (s.flow r).id := by
    intro r
    obtain ⟨_, hr⟩ := flow_step h r
    rw [hr]
  have hpacket : ∀ r, (s'.flow r).packet = (s.flow r).packet := by
    intro r
    obtain ⟨_, hr⟩ := flow_step h r
    rw [hr]
  have hindex := index_step h
  constructor
  · exact fun r => (hid r).trans (hinv.id_eq r)
  · exact fun r => (hpacket r).trans (hinv.packet_eq r)
  · intro r hr
    rcases inserted_step h with hins | ⟨flow, rfl, _, hins⟩
    · exact hinv.keyed r (hins ▸ hr)
    · rw [hins, List.mem_cons] at hr
      rcases hr with rfl | hr
      · exact hop
      · exact hinv.keyed r hr
  · intro i r hi
    rw [hindex, hid]
    rcases flowAt_step h hi with hold | ⟨hr, hins⟩
    · -- a pointer that was there before: an insertion went elsewhere, as its bucket was empty
      rcases hinv.placed i r hold with hun | ⟨hmem, hr⟩
      · rcases inserted_step h with hins | ⟨flow, _, hempty, hins⟩
        · left
          intro x hx
          rw [hindex, hid]
          exact hun x (hins ▸ hx)
        · left
          intro x hx
          rw [hindex, hid]
          rw [hins, List.mem_cons] at hx
          rcases hx with rfl | hx
          · rintro rfl
            rw [hempty] at hold
            cases hold
          · exact hun x hx
      · right
        constructor
        · rcases inserted_step h with hins | ⟨_, _, _, hins⟩
          · exact hins ▸ hmem
          · exact hins ▸ List.mem_cons_of_mem _ hmem
        · exact hr
    · exact .inr ⟨hins ▸ List.mem_cons_self, hr⟩

/-- One lookup is sound exactly when nothing disturbs it. -/
theorem sound_iff {flows : FlowRef → MrcFlow} {s : FlowRun} (hinv : Inv flows s) (op : FlowOp) :
    s.Sound op ↔ s.Undisturbed op := by
  cases op with
  | insert r => exact Iff.rfl
  | lookup pkt nowNs =>
    constructor
    · intro hsound r hb hlive
      obtain ⟨hmem, hpkt⟩ := hsound r s.memory (FlowMemory.lookup_of_live hb hlive)
      have hid : (s.flow r).id = pkt.flowHash := by
        rw [hinv.id_eq, hinv.keyed r hmem, ← hinv.packet_eq, hpkt]
      exact ⟨fun hun => hun r hmem (by rw [hid]), fun halias => halias.1 hpkt⟩
    · intro hfree r m hlook
      rcases FlowMemory.lookup_eq_ok hlook with
        ⟨_, hr, _⟩ | ⟨flow, hb, ⟨hlive, hr, _⟩ | ⟨_, hr, _⟩⟩
      · cases hr
      · cases hr
        obtain ⟨huntouched, halias⟩ := hfree r hb hlive
        have hat : s.flowAt (s.index pkt.flowHash) = some r := MrcFlowTable.flowAt_of_getElem? hb
        obtain ⟨hmem, hidx⟩ := (hinv.placed _ r hat).resolve_left huntouched
        have hhash : (s.flow r).id = (s.flow r).packet.flowHash := by
          rw [hinv.id_eq, hinv.keyed r hmem, hinv.packet_eq]
        refine ⟨hmem, by_contra fun hne => halias ⟨hne, ?_⟩⟩
        rw [← hhash]
        exact hidx
      · cases hr

/-- A run of a table over any buffer returns only flows that were inserted and have the
5-tuple looked up exactly when no lookup of it is disturbed. -/
theorem allSteps_sound_iff (buckets : FlowBuffer) (flows : FlowRef → MrcFlow) (ops : List FlowOp)
    (hkeyed : ∀ op ∈ ops, Keyed flows op) :
    Run.AllSteps step Sound (init buckets flows) ops ↔
      Run.AllSteps step Undisturbed (init buckets flows) ops :=
  Run.allSteps_congr_on (I := Inv flows) (R := Keyed flows) (fun _ op hinv _ => sound_iff hinv op)
    (fun _ _ _ hinv hop _ h => hinv.step hop h) (Inv.init buckets flows) hkeyed

/-- A connection over TCP. -/
def tcpFlow : MrcFlow where
  id := MrcPacket.flowHash { dstIp := 0x0A000001, protocol := 6 }
  packet := { dstIp := 0x0A000001, protocol := 6 }
  action := .forward
  lastSeenNs := 0
  timeoutNs := 1000

/-- A packet of another connection, over UDP to another host, with the hash of `tcpFlow`. -/
def udpPacket : MrcPacket := { dstIp := 0x0A000016, protocol := 17 }

/-- One bucket, empty or with a pointer that the caller's memory had there. -/
def oneBucket (flow : Option FlowRef) : FlowBuffer where
  val := [⟨flow, false⟩]
  length_lt := by
    rw [List.length_singleton]
    decide

theorem step_insert_tcpFlow :
    (init (oneBucket none) fun _ => tcpFlow).step (.insert 0) =
      some ⟨(init (oneBucket none) fun _ => tcpFlow).memory.stored 0 0, [0]⟩ := by
  rfl

theorem allSteps_sound_tcpFlow :
    Run.AllSteps step Sound (init (oneBucket none) fun _ => tcpFlow)
      [.insert 0, .lookup tcpFlow.packet 0] := by
  refine (allSteps_sound_iff _ _ _ ?_).mpr ?_
  · intro op hop
    simp only [List.mem_cons, List.not_mem_nil, or_false] at hop
    rcases hop with rfl | rfl
    · rfl
    · trivial
  · refine Run.allSteps_of_step trivial step_insert_tcpFlow ?_
    refine ⟨?_, fun _ _ => trivial⟩
    intro r _ _
    exact ⟨fun hun => hun 0 List.mem_cons_self rfl, fun halias => halias.1 rfl⟩

/-- The packet of one connection finds the flow of another, and a pointer that nobody
inserted is returned. -/
theorem lookup_unsound :
    (∀ op ∈ [FlowOp.insert 0, FlowOp.lookup udpPacket 0], Keyed (fun _ => tcpFlow) op) ∧
      ¬ Run.AllSteps step Sound (init (oneBucket none) fun _ => tcpFlow)
        [.insert 0, .lookup udpPacket 0] ∧
      ¬ Run.AllSteps step Sound (init (oneBucket (some 0)) fun _ => tcpFlow)
        [.lookup tcpFlow.packet 0] := by
  refine ⟨?_, ?_, ?_⟩
  · intro op hop
    simp only [List.mem_cons, List.not_mem_nil, or_false] at hop
    rcases hop with rfl | rfl
    · rfl
    · trivial
  · intro h
    have hsound := (h.2 _ step_insert_tcpFlow).1 0 _ (FlowMemory.lookup_of_live rfl rfl)
    exact absurd hsound.2 (by decide)
  · intro h
    have hsound := h.1 0 _ (FlowMemory.lookup_of_live rfl rfl)
    cases hsound.1

end FlowRun
end LingNet.Mrc
