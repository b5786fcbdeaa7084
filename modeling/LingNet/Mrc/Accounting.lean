import LingNet.Mrc.Expiry
import Mathlib.Data.Nat.ModEq

/-! What decides the action of a packet, and the counters that say so. -/
namespace LingNet.Mrc
open Zig

inductive Decider where
  | cam (i : ℕ)
  | flow (flow : FlowRef)
  | default
  deriving DecidableEq, Repr

/-- The flow of the packet's bucket, unless it timed out. -/
def FlowMemory.live (m : FlowMemory) (pkt : MrcPacket) (nowNs : UInt64) : Option FlowRef :=
  (m.table.flowAt (m.table.index pkt.flowHash)).filter fun flow =>
    nowNs.toNat ≤ (m.flows flow).lastSeenNs.toNat + (m.flows flow).timeoutNs.toNat

/-- The counters after a packet that `d` decided. -/
def MrcStats.count (stats : MrcStats) : Decider → MrcStats
  | .cam _ => { stats with
      packetsClassified := stats.packetsClassified + 1
      camHits := stats.camHits + 1 }
  | .flow _ => { stats with
      packetsClassified := stats.packetsClassified + 1
      flowHits := stats.flowHits + 1 }
  | .default => { stats with packetsClassified := stats.packetsClassified + 1 }

/-- The packet's bucket is unlocked, and a flow that timed out there is counted. -/
structure FlowMemory.Ready (m : FlowMemory) (pkt : MrcPacket) (nowNs : UInt64) : Prop where
  unlocked : ∃ flow, m.table.buckets[m.table.index pkt.flowHash]? = some ⟨flow, false⟩
  counted : ∀ flow, m.table.buckets[m.table.index pkt.flowHash]? = some ⟨some flow, false⟩ →
    (m.flows flow).lastSeenNs.toNat + (m.flows flow).timeoutNs.toNat < nowNs.toNat →
      m.table.count ≠ 0

namespace MrcEngine

/-- The first rule that matches, else the live flow, else the default. -/
def decider (e : MrcEngine) (pkt : MrcPacket) (nowNs : UInt64) : Decider :=
  match e.cam.lookup pkt with
  | some i => .cam i
  | none =>
    match e.flows.live pkt nowNs with
    | some flow => .flow flow
    | none => .default

def actionOf (e : MrcEngine) : Decider → Option MrcAction
  | .cam i => e.cam.entries[i]?.map MrcCamEntry.action
  | .flow flow => some (e.flows.flows flow).action
  | .default => some e.defaultAction

/-- A packet and its time. -/
abbrev Call := MrcPacket × UInt64

/-- A call that returned. -/
structure Returned where
  before : MrcEngine
  call : Call
  action : MrcAction
  after : MrcEngine

def Returned.decider (r : Returned) : Decider := r.before.decider r.call.1 r.call.2

/-- An engine and the calls that returned so far. -/
structure Session where
  engine : MrcEngine
  trail : List Returned

/-- A call that traps or never returns ends the run. -/
def Session.step (s : Session) (call : Call) : Option Session :=
  match s.engine.classify call.1 call.2 with
  | some (.ok action, e) => some ⟨e, ⟨s.engine, call, action, e⟩ :: s.trail⟩
  | _ => none

/-- The number of calls that the decider decided. -/
def Session.decided (s : Session) (d : Decider) : ℕ := s.trail.countP fun r => r.decider = d

/-- The calls since the engine `e` got what decided them, and the counters grew by their numbers.
Counters are 64 bits wide and wrap. -/
structure Balances (e : MrcEngine) (s : Session) : Prop where
  action : ∀ r ∈ s.trail, r.before.actionOf r.decider = some r.action
  untouched : ∀ r ∈ s.trail, ∀ i, r.decider = .cam i → r.after.flows = r.before.flows
  packets : s.engine.stats.packetsClassified =
    e.stats.packetsClassified + .ofNat s.trail.length
  branches : s.engine.stats.packetsClassified - e.stats.packetsClassified =
    (s.engine.stats.camHits - e.stats.camHits) + (s.engine.stats.flowHits - e.stats.flowHits) +
      .ofNat (s.decided .default)
  drops : s.engine.stats.drops =
    e.stats.drops + .ofNat (s.trail.countP fun r => r.action = .drop)
  cam : ∀ i entry, e.cam.entries[i]? = some entry →
    ∃ entry', s.engine.cam.entries[i]? = some entry' ∧
      entry'.hitCount ≡ entry.hitCount + s.decided (.cam i) [MOD usizeEnd]
  flow : ∀ flow, (s.engine.flows.flows flow).hitCount =
    (e.flows.flows flow).hitCount + .ofNat (s.decided (.flow flow))

/-- The call returns, and the counters balance then. -/
def Accounts (e : MrcEngine) (s : Session) (call : Call) : Prop :=
  ∃ s', s.step call = some s' ∧ Balances e s'

/-- The time is not before the last packet of any flow in the table. -/
def Timely (s : Session) (call : Call) : Prop :=
  ∀ idx flow, s.engine.flows.table.flowAt idx = some flow →
    (s.engine.flows.flows flow).lastSeenNs ≤ call.2

/-- The flow table answers if it is asked, and what decides the packet does not drop it. -/
def Passes (s : Session) (call : Call) : Prop :=
  (s.engine.cam.lookup call.1 = none → s.engine.flows.Ready call.1 call.2) ∧
    s.engine.actionOf (s.engine.decider call.1 call.2) ≠ some .drop

end MrcEngine

namespace FlowMemory

variable {m m' : FlowMemory} {pkt : MrcPacket} {nowNs : UInt64} {flow : FlowRef}

theorem live_of_bucket {flow : Option FlowRef} {locked : Bool}
    (hb : m.table.buckets[m.table.index pkt.flowHash]? = some ⟨flow, locked⟩) :
    m.live pkt nowNs = flow.filter fun flow =>
      nowNs.toNat ≤ (m.flows flow).lastSeenNs.toNat + (m.flows flow).timeoutNs.toNat := by
  unfold live
  rw [MrcFlowTable.flowAt_of_getElem? hb]

/-- The flow that a lookup returns is the live one. -/
theorem live_of_lookup {r : Option FlowRef} (h : m.lookup pkt nowNs = some (.ok r, m')) :
    m.live pkt nowNs = r := by
  rcases lookup_eq_ok h with ⟨hb, rfl, -⟩ | ⟨flow, hb, ⟨hexp, rfl, -⟩ | ⟨hexp, rfl, -, -⟩⟩
  · rw [live_of_bucket hb, Option.filter_none]
  · have hnot : ¬ (m.flows flow).isExpired nowNs = .ok true := by
      rw [hexp]
      simp
    rw [MrcFlow.isExpired_eq_true] at hnot
    rw [live_of_bucket hb]
    simp only [Option.filter_some, decide_eq_true_eq]
    rw [if_pos (by omega)]
  · have hlate := MrcFlow.isExpired_eq_true.mp hexp
    rw [live_of_bucket hb]
    simp only [Option.filter_some, decide_eq_true_eq]
    rw [if_neg (by omega)]

/-- A lookup hits no flow. -/
theorem hitCount_lookup {r : Option FlowRef} (h : m.lookup pkt nowNs = some (.ok r, m'))
    (flow : FlowRef) : (m'.flows flow).hitCount = (m.flows flow).hitCount := by
  rcases lookup_eq_ok h with ⟨-, -, rfl⟩ | ⟨gone, -, ⟨-, -, rfl⟩ | ⟨-, -, -, rfl⟩⟩
  · rfl
  · rfl
  · by_cases hflow : flow = gone
    · subst hflow
      simp [dropped]
    · simp [dropped, hflow]

/-- A lookup that finds only flows of its past returns exactly if the table is ready. -/
theorem returns_iff_ready
    (hpast : ∀ flow, m.table.flowAt (m.table.index pkt.flowHash) = some flow →
      (m.flows flow).lastSeenNs ≤ nowNs) :
    (∃ r m', m.lookup pkt nowNs = some (.ok r, m')) ↔ m.Ready pkt nowNs := by
  constructor
  · rintro ⟨r, m', hlook⟩
    constructor
    · rcases lookup_eq_ok hlook with ⟨hb, -, -⟩ | ⟨flow, hb, -⟩
      · exact ⟨none, hb⟩
      · exact ⟨some flow, hb⟩
    · intro flow hb hexp
      rcases lookup_eq_ok hlook with ⟨hb', -, -⟩ | ⟨flow', hb', ⟨hlive, -, -⟩ | ⟨-, -, hcount, -⟩⟩
      · rw [hb] at hb'
        cases hb'
      · rw [hb] at hb'
        cases hb'
        rw [MrcFlow.isExpired_eq_true.mpr hexp] at hlive
        cases hlive
      · exact hcount
  · rintro ⟨⟨found, hb⟩, hcounted⟩
    have hintime : m.InTime pkt nowNs := by
      refine ⟨capacity_ne_zero hb, fun flow hflow => ?_⟩
      have hlast := hpast flow (MrcFlowTable.flowAt_of_getElem? hflow)
      refine ⟨hlast, fun htime => hcounted flow hflow ?_⟩
      apply MrcFlow.isExpired_eq_true.mp
      unfold MrcFlow.isExpired
      rw [if_neg (UInt64.not_lt.mpr hlast), decide_eq_true htime]
    have hno := lookup_no_trap_iff.mpr hintime
    rcases hlook : m.lookup pkt nowNs with _ | ⟨r | r | f, m'⟩
    · rw [lookup_of_bucket hb] at hlook
      cases found with
      | none => cases hlook
      | some flow =>
        simp only at hlook
        split at hlook <;> cases hlook
    · exact ⟨r, m', rfl⟩
    · cases r
    · exact absurd hlook (hno f m')

end FlowMemory

/-- Counting a packet is counting it once, for one of the deciders. -/
theorem MrcStats.branches_count (stats : MrcStats) (d : Decider) :
    (stats.count d).packetsClassified - stats.packetsClassified =
      ((stats.count d).camHits - stats.camHits) + ((stats.count d).flowHits - stats.flowHits) +
        if d = .default then 1 else 0 := by
  cases d with
  | cam i =>
    simp only [count]
    grind
  | flow flow =>
    simp only [count]
    grind
  | default =>
    simp only [count]
    grind

@[simp] theorem MrcStats.packets_count (stats : MrcStats) (d : Decider) :
    (stats.count d).packetsClassified = stats.packetsClassified + 1 := by
  cases d <;> rfl

@[simp] theorem MrcStats.drops_count (stats : MrcStats) (d : Decider) :
    (stats.count d).drops = stats.drops := by
  cases d <;> rfl

namespace MrcEngine

/-- What a call that returns does to the engine, by what decided it. -/
structure Effect (e e' : MrcEngine) (d : Decider) (action : MrcAction) : Prop where
  action : e.actionOf d = some action
  untouched : ∀ i, d = .cam i → e'.flows = e.flows
  stats : e'.stats = e.stats.count d
  cam : ∀ i entry, e.cam.entries[i]? = some entry →
    ∃ entry', e'.cam.entries[i]? = some entry' ∧
      entry'.hitCount ≡ entry.hitCount + (if d = .cam i then 1 else 0) [MOD usizeEnd]
  flow : ∀ flow, (e'.flows.flows flow).hitCount =
    (e.flows.flows flow).hitCount + if d = .flow flow then 1 else 0

variable {e e' : MrcEngine} {pkt : MrcPacket} {nowNs : UInt64} {action : MrcAction}

/-- A table whose rules are as they were. -/
theorem cam_unchanged {d : Decider} (hd : ∀ i, d ≠ .cam i) {i : ℕ} {entry : MrcCamEntry}
    (hentry : e.cam.entries[i]? = some entry) :
    ∃ entry', e.cam.entries[i]? = some entry' ∧
      entry'.hitCount ≡ entry.hitCount + (if d = .cam i then 1 else 0) [MOD usizeEnd] := by
  refine ⟨entry, hentry, ?_⟩
  rw [if_neg (hd i)]
  rfl

/-- The hit of one rule. -/
theorem cam_hit (t : MrcCamTable) (j : ℕ) {i : ℕ} {entry : MrcCamEntry}
    (hentry : t.entries[i]? = some entry) :
    ∃ entry', (t.hit j).entries[i]? = some entry' ∧
      entry'.hitCount ≡ entry.hitCount + (if Decider.cam j = .cam i then 1 else 0)
        [MOD usizeEnd] := by
  have hget : (t.hit j).entries[i]? =
      (fun e => if j = i then { e with hitCount := wrappingAdd e.hitCount 1 } else e) <$>
        t.entries[i]? := List.getElem?_modify ..
  rw [hentry] at hget
  refine ⟨_, hget, ?_⟩
  by_cases hij : j = i
  · subst hij
    simp only [if_true]
    exact Nat.mod_modEq _ _
  · simp only [Decider.cam.injEq, hij, if_false]
    rfl

theorem decider_of_rule {i : ℕ} (h : e.cam.lookup pkt = some i) :
    e.decider pkt nowNs = .cam i := by
  unfold decider
  rw [h]

/-- Without a rule, the lookup of the flow says what decides. -/
theorem decider_of_lookup {r : Option FlowRef} {flows : FlowMemory}
    (hcam : e.cam.lookup pkt = none) (h : e.flows.lookup pkt nowNs = some (.ok r, flows)) :
    e.decider pkt nowNs = r.elim .default .flow := by
  unfold decider
  rw [hcam, FlowMemory.live_of_lookup h]
  cases r <;> rfl

theorem effect_of_classify (h : e.classify pkt nowNs = some (.ok action, e')) :
    Effect e e' (e.decider pkt nowNs) action := by
  rcases classify_eq_ok h with
    ⟨i, entry, hcam, hentry, rfl, rfl⟩ |
      ⟨hcam, ⟨flow, hlook, rfl, rfl⟩ | ⟨flows, hlook, rfl, rfl⟩⟩
  · rw [decider_of_rule hcam]
    constructor
    · simp [actionOf, hentry]
    · intro _ _
      exact flows_dispatch _ _ _
    · rw [stats_dispatch]
      rfl
    · intro j entry' hentry'
      rw [cam_dispatch]
      exact cam_hit e.cam i hentry'
    · intro flow
      rw [flows_dispatch]
      simp [countCam, received]
  · rw [decider_of_lookup hcam hlook]
    constructor
    · rfl
    · intro _ hd
      cases hd
    · rw [stats_dispatch]
      rfl
    · intro j entry' hentry'
      rw [cam_dispatch]
      exact cam_unchanged (fun _ => Decider.noConfusion) hentry'
    · intro r
      rw [flows_dispatch]
      simp only [Option.elim_some, Decider.flow.injEq]
      exact FlowMemory.hitCount_touch ..
  · rw [decider_of_lookup hcam hlook]
    constructor
    · rfl
    · intro _ hd
      cases hd
    · rw [stats_dispatch]
      rfl
    · intro j entry' hentry'
      rw [cam_dispatch]
      exact cam_unchanged (fun _ => Decider.noConfusion) hentry'
    · intro r
      rw [flows_dispatch]
      simpa using FlowMemory.hitCount_lookup hlook r

theorem step_eq_some {s s' : Session} {call : Call} (h : s.step call = some s') :
    ∃ action, s.engine.classify call.1 call.2 = some (.ok action, s'.engine) ∧
      s'.trail = ⟨s.engine, call, action, s'.engine⟩ :: s.trail := by
  unfold Session.step at h
  split at h
  · next action e' hclassify =>
    cases h
    exact ⟨action, hclassify, rfl⟩
  · cases h

theorem step_of_classify {s : Session} {call : Call}
    (h : s.engine.classify call.1 call.2 = some (.ok action, e')) :
    s.step call = some ⟨e', ⟨s.engine, call, action, e'⟩ :: s.trail⟩ := by
  unfold Session.step
  rw [h]

theorem Balances.init (e : MrcEngine) : Balances e ⟨e, []⟩ where
  action _ h := by cases h
  untouched _ h := by cases h
  packets := by simp
  branches := by simp [Session.decided]
  drops := by simp
  cam i entry h := ⟨entry, h, by rfl⟩
  flow := by simp [Session.decided]

/-- What decided the last call is counted once more. -/
theorem decided_cons (e' : MrcEngine) (r : Returned) (trail : List Returned) (d : Decider) :
    (Session.mk e' (r :: trail)).decided d =
      (Session.mk e' trail).decided d + if r.decider = d then 1 else 0 := by
  unfold Session.decided
  simp [List.countP_cons]

theorem ofNat_ite (p : Prop) [Decidable p] :
    UInt64.ofNat (if p then 1 else 0) = if p then 1 else 0 := by
  split_ifs <;> rfl

/-- A call keeps the balance exactly if it is not one that drops its packet. -/
theorem balances_step_iff {start : MrcEngine} {s s' : Session} {call : Call}
    (hbal : Balances start s) (h : s.step call = some s') :
    Balances start s' ↔
      s.engine.actionOf (s.engine.decider call.1 call.2) ≠ some .drop := by
  obtain ⟨action, hclassify, htrail⟩ := step_eq_some h
  have heffect := effect_of_classify hclassify
  have hdrops : s'.engine.stats.drops = s.engine.stats.drops := by
    rw [heffect.stats, MrcStats.drops_count]
  rw [heffect.action]
  constructor
  · intro hbal' hdrop
    cases hdrop
    have hgrown := hbal'.drops
    rw [hdrops, hbal.drops, htrail] at hgrown
    simp only [List.countP_cons, decide_true, if_true, UInt64.ofNat_add] at hgrown
    grind
  · intro hdrop
    obtain ⟨e', trail⟩ := s'
    obtain rfl : trail = ⟨s.engine, call, action, e'⟩ :: s.trail := htrail
    have hstats : e'.stats = s.engine.stats.count (s.engine.decider call.1 call.2) :=
      heffect.stats
    constructor
    · exact List.forall_mem_cons.mpr ⟨heffect.action, hbal.action⟩
    · exact List.forall_mem_cons.mpr ⟨heffect.untouched, hbal.untouched⟩
    · have hpackets := hbal.packets
      rw [hstats, MrcStats.packets_count, List.length_cons, UInt64.ofNat_add]
      grind
    · have hbranches := hbal.branches
      have hcount := MrcStats.branches_count s.engine.stats (s.engine.decider call.1 call.2)
      rw [decided_cons, UInt64.ofNat_add, ofNat_ite]
      rw [← hstats] at hcount
      change _ = _ + (UInt64.ofNat (s.decided .default) +
        if s.engine.decider call.1 call.2 = .default then 1 else 0)
      grind
    · rw [hdrops, hbal.drops]
      have hne : action ≠ .drop := fun h => hdrop (congrArg some h)
      simp [hne]
    · intro i entry hentry
      obtain ⟨entry₁, hentry₁, hcount₁⟩ := hbal.cam i entry hentry
      obtain ⟨entry₂, hentry₂, hcount₂⟩ := heffect.cam i entry₁ hentry₁
      refine ⟨entry₂, hentry₂, hcount₂.trans ?_⟩
      rw [decided_cons, ← Nat.add_assoc]
      exact Nat.ModEq.add_right _ hcount₁
    · intro flow
      have hflow := hbal.flow flow
      have hhit := heffect.flow flow
      rw [decided_cons, UInt64.ofNat_add, ofNat_ite, ← UInt64.add_assoc]
      rw [hhit, hflow]
      rfl

/-- The flow table returns to a call in time exactly if it is ready. -/
theorem returns_iff {s : Session} {call : Call} (htimely : Timely s call) :
    (∃ s', s.step call = some s') ↔
      (s.engine.cam.lookup call.1 = none → s.engine.flows.Ready call.1 call.2) := by
  have hready : (∃ r flows, s.engine.flows.lookup call.1 call.2 = some (.ok r, flows)) ↔
      s.engine.flows.Ready call.1 call.2 := FlowMemory.returns_iff_ready (htimely _)
  constructor
  · rintro ⟨s', hstep⟩ hcam
    obtain ⟨action, hclassify, -⟩ := step_eq_some hstep
    apply hready.mp
    rcases classify_eq_ok hclassify with
      ⟨i, -, hrule, -⟩ | ⟨-, ⟨flow, hlook, -⟩ | ⟨flows, hlook, -⟩⟩
    · rw [hcam] at hrule
      cases hrule
    · exact ⟨some flow, _, hlook⟩
    · exact ⟨none, _, hlook⟩
  · intro hno
    cases hcam : s.engine.cam.lookup call.1 with
    | some i =>
      obtain ⟨entry, hentry⟩ := exists_entry hcam
      exact ⟨_, step_of_classify (classify_of_cam hcam hentry call.2)⟩
    | none =>
      obtain ⟨r, flows, hlook⟩ := hready.mpr (hno hcam)
      have hclassify := classify_of_no_rule hcam call.2
      rw [hlook] at hclassify
      cases r with
      | none => exact ⟨_, step_of_classify hclassify⟩
      | some flow => exact ⟨_, step_of_classify hclassify⟩

theorem accounts_iff {start : MrcEngine} {s : Session} {call : Call} (hbal : Balances start s)
    (htimely : Timely s call) : Accounts start s call ↔ Passes s call := by
  constructor
  · rintro ⟨s', hstep, hbal'⟩
    constructor
    · exact (returns_iff htimely).mp ⟨s', hstep⟩
    · exact (balances_step_iff hbal hstep).mp hbal'
  · rintro ⟨hready, hdrop⟩
    obtain ⟨s', hstep⟩ := (returns_iff htimely).mpr hready
    exact ⟨s', hstep, (balances_step_iff hbal hstep).mpr hdrop⟩

/-- From every engine, and over every sequence of calls with times not before the last packet of a
flow: each call gets the action of what decides it and the counters agree with the branches taken,
exactly if the flow table answers whenever it is asked and no packet is dropped. -/
theorem allSteps_accounts_iff (e : MrcEngine) (calls : List Call)
    (htimely : Run.AllSteps Session.step Timely ⟨e, []⟩ calls) :
    Run.AllSteps Session.step (Accounts e) ⟨e, []⟩ calls ↔
      Run.AllSteps Session.step Passes ⟨e, []⟩ calls := by
  refine Run.allSteps_congr_of_allSteps (I := Balances e) ?_ ?_ (Balances.init e) htimely
  · intro s call hbal hcall
    exact accounts_iff hbal hcall
  · intro s call s' hbal _ hpasses hstep
    exact (balances_step_iff hbal hstep).mpr hpasses.2

/-- No rules, and a bucket with a flow. -/
def flowEngine : MrcEngine :=
  { tcpEngine with
    flows := (FlowRun.init (FlowRun.oneBucket (some 0)) fun _ => FlowRun.tcpFlow).memory }

theorem allSteps_accounts_flowEngine :
    Run.AllSteps Session.step (Accounts flowEngine) ⟨flowEngine, []⟩
      [(FlowRun.tcpFlow.packet, 5)] := by
  apply (allSteps_accounts_iff flowEngine _ ?_).mpr
  · refine ⟨⟨fun _ => ⟨⟨some 0, rfl⟩, ?_⟩, by decide⟩, fun _ _ => trivial⟩
    intro flow hflow hexp
    cases hflow
    exact absurd hexp (by decide)
  · refine ⟨?_, fun _ _ => trivial⟩
    intro idx flow hflow
    exact UInt64.zero_le

/-- A packet that the default drops is not counted as dropped. -/
theorem drop_not_counted :
    Run.AllSteps Session.step Timely ⟨{ tcpEngine with defaultAction := .drop }, []⟩
        [(FlowRun.tcpFlow.packet, 0)] ∧
      ¬ Run.AllSteps Session.step (Accounts { tcpEngine with defaultAction := .drop })
        ⟨{ tcpEngine with defaultAction := .drop }, []⟩ [(FlowRun.tcpFlow.packet, 0)] := by
  constructor
  · refine ⟨?_, fun _ _ => trivial⟩
    intro idx flow hflow
    exact UInt64.zero_le
  · intro h
    obtain ⟨s', hstep, hbal⟩ := h.1
    cases hstep
    have hdrops := hbal.drops
    cases hdrops

end MrcEngine
end LingNet.Mrc
