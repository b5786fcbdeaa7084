import LingNet.Lib.Run
import LingNet.Mrc.Cam

/-! Runs of the table against rules kept in the order they were added. A removal puts the
last entry in the place of the removed one, so table order and order of addition part. -/
namespace LingNet.Mrc
open Priority

/-- An entry with the number of the `add` that brought it. -/
structure Rule where
  stamp : ℕ
  entry : MrcCamEntry
  deriving DecidableEq, Repr

/-- A table with its history: `slots` are its rules in table order, `rules` the same in the
order they were added, and `added` counts the successful `add` calls. -/
structure Cam where
  table : MrcCamTable
  slots : List Rule
  rules : List Rule
  added : ℕ

inductive CamOp where
  | add (entry : MrcCamEntry)
  | remove (idx : ℕ)

def Cam.init (buffer : List MrcCamEntry) : Cam := ⟨.init buffer, [], [], 0⟩

def Cam.step (c : Cam) : CamOp → Option Cam
  | .add entry =>
    match c.table.add entry with
    | .error _ => some c
    | .ok t =>
      some ⟨t, c.slots ++ [⟨c.added, entry⟩], c.rules ++ [⟨c.added, entry⟩], c.added + 1⟩
  | .remove idx =>
    match c.slots[idx]? with
    | none => some { c with table := c.table.remove idx }
    | some r => some ⟨c.table.remove idx, swapRemove c.slots idx, c.rules.erase r, c.added⟩

/-- The rule whose entry `lookup` points at. -/
def Cam.result (c : Cam) (pkt : MrcPacket) : Option Rule :=
  (c.table.lookup pkt).bind fun i => c.slots[i]?

/-- The entry that a removal moves overlaps none of those it moves ahead of. -/
def RemoveKeepsOrder (c : Cam) : CamOp → Prop
  | .add _ => True
  | .remove idx => ∀ j e last, idx < j → j + 1 < c.table.count → c.table.entries[j]? = some e →
      c.table.entries[c.table.count - 1]? = some last → ¬ Overlap last e

/-- The invariant of every history. -/
structure CamInv (c : Cam) : Prop where
  active : c.table.active = c.slots.map Rule.entry
  perm : c.slots.Perm c.rules
  sorted : c.rules.Pairwise fun r r' => r.stamp < r'.stamp
  bound : ∀ r ∈ c.rules, r.stamp < c.added

theorem CamInv.nodup {c : Cam} (h : CamInv c) : c.slots.Nodup := by
  refine h.perm.nodup_iff.mpr (h.sorted.imp fun hlt heq => ?_)
  rw [heq] at hlt
  exact Nat.lt_irrefl _ hlt

theorem CamInv.length_slots {c : Cam} (h : CamInv c) : c.slots.length = c.table.count := by
  rw [← c.table.length_active, h.active, List.length_map]

theorem CamInv.getElem?_entries {c : Cam} (h : CamInv c) {i : ℕ} {r : Rule}
    (hr : c.slots[i]? = some r) : c.table.entries[i]? = some r.entry := by
  have hlt := (List.getElem?_eq_some_iff.mp hr).1
  rw [h.length_slots] at hlt
  rw [← MrcCamTable.getElem?_active hlt, h.active, List.getElem?_map, hr]
  rfl

theorem CamInv.init (buffer : List MrcCamEntry) : CamInv (Cam.init buffer) where
  active := rfl
  perm := List.Perm.refl _
  sorted := List.Pairwise.nil
  bound _ h := by cases h

theorem CamInv.step {c c' : Cam} {op : CamOp} (h : CamInv c) (hstep : c.step op = some c') :
    CamInv c' := by
  cases op with
  | add entry =>
    cases hadd : c.table.add entry with
    | error e =>
      simp only [Cam.step, hadd] at hstep
      cases hstep
      exact h
    | ok t =>
      simp only [Cam.step, hadd] at hstep
      cases hstep
      exact {
        active := by simp [MrcCamTable.active_add hadd, h.active]
        perm := h.perm.append_right _
        sorted := List.pairwise_append.mpr ⟨h.sorted, List.pairwise_singleton _ _,
          fun r hr r' hr' => List.mem_singleton.mp hr' ▸ h.bound r hr⟩
        bound := fun r hr => by
          rcases List.mem_append.mp hr with hr | hr
          · exact Nat.lt_succ_of_lt (h.bound r hr)
          · rw [List.mem_singleton.mp hr]
            exact Nat.lt_succ_self _ }
  | remove idx =>
    have hactive : (c.table.remove idx).active = (swapRemove c.slots idx).map Rule.entry := by
      rw [MrcCamTable.active_remove, h.active, map_swapRemove]
    cases hidx : c.slots[idx]? with
    | none =>
      simp only [Cam.step, hidx] at hstep
      cases hstep
      rw [swapRemove_of_le (List.getElem?_eq_none_iff.mp hidx)] at hactive
      exact { h with active := hactive }
    | some r =>
      simp only [Cam.step, hidx] at hstep
      cases hstep
      have hsub : (c.rules.erase r).Sublist c.rules := List.erase_sublist
      exact {
        active := hactive
        perm := by
          have hperm := (perm_swapRemove hidx).symm.trans h.perm
          simpa using hperm.erase r
        sorted := h.sorted.sublist hsub
        bound := fun r' hr' => h.bound r' (hsub.subset hr') }

/-- The table order is a priority: of two overlapping rules the older one stands first. -/
def Prioritized (c : Cam) : Prop :=
  Ranked (fun r r' => Overlap r.entry r'.entry) Rule.stamp c.slots

theorem Prioritized.step {c c' : Cam} {op : CamOp} (hinv : CamInv c) (h : Prioritized c)
    (hkeep : RemoveKeepsOrder c op) (hstep : c.step op = some c') : Prioritized c' := by
  cases op with
  | add entry =>
    cases hadd : c.table.add entry with
    | error e =>
      simp only [Cam.step, hadd] at hstep
      cases hstep
      exact h
    | ok t =>
      simp only [Cam.step, hadd] at hstep
      cases hstep
      exact h.concat fun r hr => hinv.bound r (hinv.perm.mem_iff.mp hr)
  | remove idx =>
    cases hidx : c.slots[idx]? with
    | none =>
      simp only [Cam.step, hidx] at hstep
      cases hstep
      exact h
    | some r =>
      simp only [Cam.step, hidx] at hstep
      cases hstep
      refine h.swapRemove fun j r' last hj hlt hr' hlast => ?_
      rw [hinv.length_slots] at hlt hlast
      exact hkeep j r'.entry last.entry hj hlt (hinv.getElem?_entries hr')
        (hinv.getElem?_entries hlast)

/-- `lookup` finds the first matching rule in table order. -/
theorem CamInv.lookup_eq {c : Cam} (h : CamInv c) (pkt : MrcPacket) :
    c.table.lookup pkt = c.slots.findIdx? fun r => r.entry.hits pkt := by
  unfold MrcCamTable.lookup
  rw [← MrcCamTable.active, h.active, List.findIdx?_map]
  rfl

theorem CamInv.result_eq {c : Cam} (h : CamInv c) (pkt : MrcPacket) :
    c.result pkt = c.slots.find? fun r => r.entry.hits pkt := by
  unfold Cam.result
  rw [h.lookup_eq, List.find?_eq_bind_findIdx?_getElem?]

theorem CamInv.run {buffer : List MrcCamEntry} {ops : List CamOp} {c : Cam}
    (hr : Run.run Cam.step (Cam.init buffer) ops = some c) : CamInv c :=
  Run.invariant_of_run (fun _ _ _ h hstep => h.step hstep) (CamInv.init buffer) hr

theorem Prioritized.run {buffer : List MrcCamEntry} {ops : List CamOp} {c : Cam}
    (hr : Run.run Cam.step (Cam.init buffer) ops = some c)
    (hkeep : Run.AllSteps Cam.step RemoveKeepsOrder (Cam.init buffer) ops) : Prioritized c := by
  have hinv : CamInv c ∧ Prioritized c := by
    refine Run.invariant_of_step (I := fun c => CamInv c ∧ Prioritized c) ?_
      ⟨CamInv.init buffer, List.Pairwise.nil⟩ hkeep hr
    rintro c op c' ⟨hinv, hprio⟩ hkeep hstep
    exact ⟨hinv.step hstep, hprio.step hinv hkeep hstep⟩
  exact hinv.2

/-- Rules in the order of addition are a priority list as they stand. -/
theorem CamInv.rules_ranked {c : Cam} (h : CamInv c) :
    Ranked (fun r r' => Overlap r.entry r'.entry) Rule.stamp c.rules := by
  refine List.Pairwise.imp ?_ h.sorted
  intro r r' hlt _
  exact hlt

/-- In every run `lookup` finds a rule that matches whenever one does. While every removal
kept the order, it is the oldest one; and a removal changes the result, where that was
another rule, exactly by moving a matching last entry in front of it. -/
theorem cam_rule_semantics {buffer : List MrcCamEntry} {ops : List CamOp} {c : Cam}
    (hr : Run.run Cam.step (Cam.init buffer) ops = some c) (pkt : MrcPacket) :
    (c.table.lookup pkt = none ↔ ∀ r ∈ c.rules, ¬ r.entry.hits pkt) ∧
    (∀ i, c.table.lookup pkt = some i → ∃ r ∈ c.rules, c.result pkt = some r ∧
      c.table.entries[i]? = some r.entry ∧ r.entry.hits pkt) ∧
    (Run.AllSteps Cam.step RemoveKeepsOrder (Cam.init buffer) ops →
      c.result pkt = c.rules.find? fun r => r.entry.hits pkt) ∧
    ∀ idx r m c', c.slots[idx]? = some r → c.result pkt = some m → m ≠ r →
      c.step (.remove idx) = some c' → (c'.result pkt ≠ some m ↔
        ∃ j last, idx < j ∧ j + 1 < c.table.count ∧ c.slots[j]? = some m ∧
          c.table.entries[c.table.count - 1]? = some last ∧ last.hits pkt) := by
  have hinv := CamInv.run hr
  refine ⟨?_, ?_, ?_, ?_⟩
  · rw [hinv.lookup_eq, List.findIdx?_eq_none_iff]
    constructor
    · intro h r hmem hhit
      have hmiss := h r (hinv.perm.mem_iff.mpr hmem)
      rw [hhit] at hmiss
      cases hmiss
    · intro h r hmem
      exact Bool.eq_false_iff.mpr (h r (hinv.perm.mem_iff.mp hmem))
  · intro i hi
    have hfound := hi
    rw [hinv.lookup_eq, List.findIdx?_eq_some_iff_getElem] at hfound
    obtain ⟨hlt, hhit, _⟩ := hfound
    have hget : c.slots[i]? = some c.slots[i] := List.getElem?_eq_getElem hlt
    refine ⟨c.slots[i], hinv.perm.mem_iff.mp (List.getElem_mem hlt), ?_,
      hinv.getElem?_entries hget, hhit⟩
    rw [Cam.result, hi]
    exact hget
  · intro hkeep
    rw [hinv.result_eq]
    exact (Prioritized.run hr hkeep).find?_eq_of_perm hinv.rules_ranked hinv.perm
      fun r r' h h' => ⟨pkt, h, h'⟩
  · intro idx r m c' hidx hm hne hstep
    have hinv' := hinv.step hstep
    rw [hinv.result_eq] at hm
    simp only [Cam.step, hidx] at hstep
    cases hstep
    rw [hinv'.result_eq, find?_swapRemove_ne hinv.nodup hidx hm hne, hinv.length_slots]
    constructor
    · rintro ⟨j, last, hj, hlt, hget, hlast, hhit⟩
      exact ⟨j, last.entry, hj, hlt, hget, hinv.getElem?_entries hlast, hhit⟩
    · rintro ⟨j, last, hj, hlt, hget, hlast, hhit⟩
      have hcount : c.table.count - 1 < c.slots.length := by
        rw [hinv.length_slots]
        omega
      have hslot := List.getElem?_eq_getElem hcount
      obtain rfl := Option.some.inj ((hinv.getElem?_entries hslot).symm.trans hlast)
      exact ⟨j, _, hj, hlt, hget, hslot, hhit⟩

/-- A rule for one destination port, or for every one. -/
def portRule (dstPort : UInt16) (destination : UInt32) : MrcCamEntry where
  key := { dstPort }
  action := .forward
  destination
  flags := {}
  hitCount := 0

/-- The `https` rule may overtake the `http` rule. -/
theorem cam_rule_semantics_disjoint_ports :
    ∃ c, Run.run Cam.step (Cam.init (List.replicate 4 (portRule 0 0)))
        [.add (portRule 22 1), .add (portRule 80 2), .add (portRule 443 3), .remove 0] = some c ∧
      c.result { dstPort := 80 } = c.rules.find? fun r => r.entry.hits { dstPort := 80 } := by
  refine ⟨_, rfl, ?_⟩
  have hr : Run.run Cam.step (Cam.init (List.replicate 4 (portRule 0 0)))
    [.add (portRule 22 1), .add (portRule 80 2), .add (portRule 443 3), .remove 0] = some _ := rfl
  refine (cam_rule_semantics hr { dstPort := 80 }).2.2.1 ⟨trivial, ?_⟩
  rintro _ ⟨⟩
  refine ⟨trivial, ?_⟩
  rintro _ ⟨⟩
  refine ⟨trivial, ?_⟩
  rintro _ ⟨⟩
  refine ⟨?_, fun _ _ => trivial⟩
  intro j e last hj hlt he hlast
  have hlt : j + 1 < 3 := hlt
  obtain rfl : j = 1 := by omega
  obtain rfl := Option.some.inj he
  obtain rfl := Option.some.inj hlast
  rw [overlap_iff]
  decide

/-- Three rules, the last two of which match everything: removing the first one, which does
not match, puts the third in front of the second. -/
theorem cam_remove_reorders :
    ∃ c c', Run.run Cam.step (Cam.init (List.replicate 4 (portRule 0 0)))
        [.add (portRule 22 1), .add (portRule 0 2), .add (portRule 0 3)] = some c ∧
      c.step (.remove 0) = some c' ∧
      c.result { dstPort := 80 } = some ⟨1, portRule 0 2⟩ ∧
      c'.result { dstPort := 80 } = some ⟨2, portRule 0 3⟩ ∧
      c'.rules = [⟨1, portRule 0 2⟩, ⟨2, portRule 0 3⟩] ∧
      (portRule 0 2).hits { dstPort := 80 } :=
  ⟨_, _, rfl, rfl, rfl, rfl, rfl, rfl⟩

end LingNet.Mrc
