import LingNet.Lib.Priority
import Mathlib.Data.Nat.Basic

/-! The content-addressable memory of the data plane: rules with wildcards in a linear table. -/
namespace LingNet.Mrc

inductive MrcAction where
  | forward
  | drop
  | redirect
  | mirror
  | quarantine
  deriving DecidableEq, Repr

/-- The 5-tuple of a packet. -/
structure MrcPacket where
  srcIp : UInt32 := 0
  dstIp : UInt32 := 0
  protocol : UInt8 := 0
  srcPort : UInt16 := 0
  dstPort : UInt16 := 0
  deriving DecidableEq, Repr

structure CamKey where
  srcIp : UInt32 := 0
  dstIp : UInt32 := 0
  srcPort : UInt16 := 0
  dstPort : UInt16 := 0
  protocol : UInt8 := 0
  deriving DecidableEq, Repr

structure CamFlags where
  enabled : Bool := true
  sticky : Bool := false
  audit : Bool := false
  deriving DecidableEq, Repr

structure MrcCamEntry where
  key : CamKey
  action : MrcAction
  destination : UInt32
  flags : CamFlags
  hitCount : ℕ
  deriving DecidableEq, Repr

/-- The body of the loop of `lookup`: a key field that is zero matches everything. -/
def MrcCamEntry.hits (e : MrcCamEntry) (pkt : MrcPacket) : Bool :=
  if !e.flags.enabled then false
  else if e.key.srcIp ≠ 0 ∧ e.key.srcIp ≠ pkt.srcIp then false
  else if e.key.dstIp ≠ 0 ∧ e.key.dstIp ≠ pkt.dstIp then false
  else if e.key.srcPort ≠ 0 ∧ e.key.srcPort ≠ pkt.srcPort then false
  else if e.key.dstPort ≠ 0 ∧ e.key.dstPort ≠ pkt.dstPort then false
  else if e.key.protocol ≠ 0 ∧ e.key.protocol ≠ pkt.protocol then false
  else true

theorem MrcCamEntry.hits_iff {e : MrcCamEntry} {pkt : MrcPacket} :
    e.hits pkt ↔ e.flags.enabled ∧ (e.key.srcIp = 0 ∨ e.key.srcIp = pkt.srcIp) ∧
      (e.key.dstIp = 0 ∨ e.key.dstIp = pkt.dstIp) ∧
      (e.key.srcPort = 0 ∨ e.key.srcPort = pkt.srcPort) ∧
      (e.key.dstPort = 0 ∨ e.key.dstPort = pkt.dstPort) ∧
      (e.key.protocol = 0 ∨ e.key.protocol = pkt.protocol) := by
  simp [MrcCamEntry.hits, or_iff_not_imp_left]

/-- Some packet hits both entries. -/
def Overlap (e e' : MrcCamEntry) : Prop := ∃ pkt, e.hits pkt ∧ e'.hits pkt

/-- Two fields that agree, or a wildcard, have a common value. -/
theorem exists_common_iff {α : Type} {zero a b : α} [DecidableEq α] :
    (∃ v, (a = zero ∨ a = v) ∧ (b = zero ∨ b = v)) ↔ a = zero ∨ b = zero ∨ a = b := by
  constructor
  · rintro ⟨v, ha, hb⟩
    rcases ha with ha | rfl
    · exact .inl ha
    · exact .inr (hb.imp id Eq.symm)
  · rintro (ha | hb | rfl)
    · exact ⟨b, .inl ha, .inr rfl⟩
    · exact ⟨a, .inr rfl, .inl hb⟩
    · exact ⟨a, .inr rfl, .inr rfl⟩

theorem overlap_iff {e e' : MrcCamEntry} : Overlap e e' ↔
    e.flags.enabled ∧ e'.flags.enabled ∧
      (e.key.srcIp = 0 ∨ e'.key.srcIp = 0 ∨ e.key.srcIp = e'.key.srcIp) ∧
      (e.key.dstIp = 0 ∨ e'.key.dstIp = 0 ∨ e.key.dstIp = e'.key.dstIp) ∧
      (e.key.srcPort = 0 ∨ e'.key.srcPort = 0 ∨ e.key.srcPort = e'.key.srcPort) ∧
      (e.key.dstPort = 0 ∨ e'.key.dstPort = 0 ∨ e.key.dstPort = e'.key.dstPort) ∧
      (e.key.protocol = 0 ∨ e'.key.protocol = 0 ∨ e.key.protocol = e'.key.protocol) := by
  simp only [← exists_common_iff]
  constructor
  · rintro ⟨pkt, h, h'⟩
    obtain ⟨hen, hsi, hdi, hsp, hdp, hpr⟩ := MrcCamEntry.hits_iff.mp h
    obtain ⟨hen', hsi', hdi', hsp', hdp', hpr'⟩ := MrcCamEntry.hits_iff.mp h'
    exact ⟨hen, hen', ⟨_, hsi, hsi'⟩, ⟨_, hdi, hdi'⟩, ⟨_, hsp, hsp'⟩, ⟨_, hdp, hdp'⟩, ⟨_, hpr, hpr'⟩⟩
  · rintro ⟨hen, hen', ⟨si, hsi, hsi'⟩, ⟨di, hdi, hdi'⟩, ⟨sp, hsp, hsp'⟩, ⟨dp, hdp, hdp'⟩,
      ⟨pr, hpr, hpr'⟩⟩
    refine ⟨⟨si, di, pr, sp, dp⟩, ?_, ?_⟩
    · exact MrcCamEntry.hits_iff.mpr ⟨hen, hsi, hdi, hsp, hdp, hpr⟩
    · exact MrcCamEntry.hits_iff.mpr ⟨hen', hsi', hdi', hsp', hdp', hpr'⟩

inductive CamError where
  | camFull
  deriving DecidableEq, Repr

/-- The caller's buffer, of which the first `count` entries are rules. -/
structure MrcCamTable where
  entries : List MrcCamEntry
  count : ℕ
  capacity : ℕ
  capacity_eq : capacity = entries.length
  count_le : count ≤ capacity

namespace MrcCamTable

def init (buffer : List MrcCamEntry) : MrcCamTable where
  entries := buffer
  count := 0
  capacity := buffer.length
  capacity_eq := rfl
  count_le := Nat.zero_le _

def add (t : MrcCamTable) (entry : MrcCamEntry) : Except CamError MrcCamTable :=
  if h : t.capacity ≤ t.count then .error .camFull
  else .ok { t with
    entries := t.entries.set t.count entry
    count := t.count + 1
    capacity_eq := by rw [List.length_set, t.capacity_eq]
    count_le := Nat.lt_of_not_le h }

/-- The pointer that `lookup` returns, as an index into the entries. -/
def lookup (t : MrcCamTable) (pkt : MrcPacket) : Option ℕ :=
  (t.entries.take t.count).findIdx? fun e => e.hits pkt

def remove (t : MrcCamTable) (idx : ℕ) : MrcCamTable :=
  if h : t.count ≤ idx then t
  else
    have hlast : t.count - 1 < t.entries.length := by
      have hcount := t.count_le
      have hcapacity := t.capacity_eq
      omega
    { t with
      entries := t.entries.set idx (t.entries.get ⟨t.count - 1, hlast⟩)
      count := t.count - 1
      capacity_eq := by rw [List.length_set, t.capacity_eq]
      count_le := (Nat.sub_le _ _).trans t.count_le }

/-- The rules of a table, in table order. -/
def active (t : MrcCamTable) : List MrcCamEntry := t.entries.take t.count

theorem length_active (t : MrcCamTable) : t.active.length = t.count :=
  List.length_take_of_le (t.capacity_eq ▸ t.count_le)

theorem getElem?_active {t : MrcCamTable} {i : ℕ} (hi : i < t.count) :
    t.active[i]? = t.entries[i]? := List.getElem?_take_of_lt hi

theorem active_add {t t' : MrcCamTable} {entry : MrcCamEntry} (h : t.add entry = .ok t') :
    t'.active = t.active ++ [entry] := by
  unfold add at h
  split_ifs at h with hfull
  cases h
  have hlt : t.count < t.entries.length := t.capacity_eq ▸ Nat.lt_of_not_le hfull
  simp only [active]
  rw [List.take_add_one, List.getElem?_set_self hlt, List.take_set_of_le (Nat.le_refl _)]
  rfl

theorem active_remove (t : MrcCamTable) (idx : ℕ) :
    (t.remove idx).active = Priority.swapRemove t.active idx := by
  unfold remove
  split_ifs with h
  · rw [Priority.swapRemove_of_le (t.length_active.trans_le h)]
  · have hcount : 0 < t.count := by omega
    have hlen := t.length_active
    have hlast : t.active.getLast? = some (t.entries.get ⟨t.count - 1, by
        have hcount := t.count_le
        have hcapacity := t.capacity_eq
        omega⟩) := by
      rw [List.getLast?_eq_getElem?, hlen, getElem?_active (by omega), List.get_eq_getElem,
        List.getElem?_eq_getElem]
    unfold Priority.swapRemove
    rw [hlast]
    dsimp only
    rw [if_pos (by omega), List.dropLast_eq_take, List.length_set, hlen]
    simp only [active]
    rw [List.take_set, List.take_set, List.take_take, Nat.min_eq_left (Nat.sub_le _ _)]

end MrcCamTable
end LingNet.Mrc
