import LingNet.EbpfLoader.Invoke
import Mathlib.Data.Vector.Basic

/-! The embedded programs over sequences of events: when their maps hold, for each pid, the number
of its events. -/
namespace LingNet.EbpfLoader
open Ebpf ByteMem

/-- An event with `n` bytes of context. -/
structure Traced (n : ℕ) where
  pidTgid : BitVec 64
  ctx : List.Vector Byte n

namespace Traced

variable {n : ℕ}

def event (e : Traced n) : Event where
  pidTgid := e.pidTgid
  ctx := e.ctx.toList

/-- `bpf_get_current_pid_tgid() >> 32` -/
def pid (e : Traced n) : BitVec 32 := (e.pidTgid >>> 32).setWidth 32

end Traced

/-- `struct trace_event_raw_sys_enter` -/
abbrev SysEnter := Traced 64

/-- `struct pt_regs` -/
abbrev SysClone := Traced 168

/-- `di`, the first argument. -/
def SysClone.flags (e : SysClone) : List Byte := (e.ctx.toList.drop 112).take 8

theorem SysClone.slice_flags (e : SysClone) : slice e.event.ctx 112 8 = some e.flags := by
  have hlength : e.event.ctx.length = 168 := e.ctx.toList_length
  unfold slice
  rw [if_pos (by rw [hlength]; omega)]
  rfl

/-- A new map of `createMap(.hash, 4, 8, 1024, name)`. -/
def newMap : HashMap where
  keySize := 4
  valueSize := 8
  maxEntries := 1024
  entries := ∅

theorem notMem_newMap (key : List Byte) : key ∉ newMap.entries := AList.notMem_empty key

def createMap (maps : Maps) (fd : BitVec 32) : Maps := Function.update maps fd (some newMap)

def pidKey (pid : BitVec 32) : List Byte := bytesOf 4 pid.toNat

/-- The run ends in no fault, and the map has each pid with the number of its events and no
other key. -/
def Counts (fd : BitVec 32) (pids : List (BitVec 32)) (result : Except Fault Maps) : Prop :=
  ∃ maps m, result = .ok maps ∧ maps fd = some m ∧
    (∀ pid ∈ pids, ∃ value, m.entries.lookup (pidKey pid) = some value ∧
      valueOf value = pids.count pid) ∧
    ∀ key ∈ m.entries, ∃ pid ∈ pids, key = pidKey pid

section Runs

variable (maps : Maps) (fd : BitVec 32)

theorem invokeAll_cons {prog : List (BitVec 64)} {e : Event} {events : List Event} {maps : Maps} :
    invokeAll prog (e :: events) maps =
      (invoke prog e maps >>= fun r => invokeAll prog events r.2) := rfl

/-! Both programs look the key 0 up, which a new map lacks. -/

/-- The first event stops `runtime_monitor`. -/
theorem invokeAll_prog1 (e : Event) (events : List Event) :
    invokeAll (prog1Insns fd) (e :: events) (createMap maps fd) =
      .error (.uninitialisedRegister 2) := by
  have hmap : createMap maps fd fd = some newMap := Function.update_self ..
  rw [invokeAll_cons, prog1_missing hmap rfl (notMem_newMap zeroKey)]
  rfl

/-- The map of `arena_audit`, which has the key 1 or nothing. -/
def auditMap : Option (List Byte) → HashMap
  | none => newMap
  | some value => { newMap with entries := AList.singleton (bytesOf 4 1) value }

theorem mem_auditMap {value : List Byte} {key : List Byte} :
    key ∈ (auditMap (some value)).entries ↔ key = bytesOf 4 1 := List.mem_singleton

theorem auditMap_sizes (value : Option (List Byte)) :
    (auditMap value).keySize = 4 ∧ (auditMap value).valueSize = 8 := by
  cases value with
  | none => exact ⟨rfl, rfl⟩
  | some value => exact ⟨rfl, rfl⟩

theorem auditMap_update (old : Option (List Byte)) (value : List Byte) :
    (auditMap old).update (bytesOf 4 1) value 0 = (auditMap (some value), 0) := by
  unfold HashMap.update
  rw [if_neg (by decide)]
  cases old with
  | none =>
    have hmissing : bytesOf 4 1 ∉ (auditMap none).entries := notMem_newMap _
    rw [if_neg hmissing, if_neg (by decide), if_neg (by decide)]
    rfl
  | some old =>
    rw [if_pos (mem_auditMap.mpr rfl), if_neg (by decide)]
    unfold auditMap
    simp only [AList.insert_singleton_eq]

theorem zeroKey_notMem_auditMap (value : Option (List Byte)) :
    zeroKey ∉ (auditMap value).entries := by
  cases value with
  | none => exact notMem_newMap zeroKey
  | some value =>
    intro hmem
    exact absurd (mem_auditMap.mp hmem) (by decide)

/-- Each event overwrites the one entry. -/
theorem invoke_prog2_audit (e : SysClone) (old : Option (List Byte)) :
    invoke (prog2Insns fd) e.event (Function.update maps fd (some (auditMap old))) =
      .ok (.scalar 0, Function.update maps fd (some (auditMap (some (auditValue e.flags))))) := by
  have hmap : Function.update maps fd (some (auditMap old)) fd = some (auditMap old) :=
    Function.update_self ..
  obtain ⟨hkey, hsize⟩ := auditMap_sizes old
  have hinvoke := prog2_missing (SysClone.slice_flags e) hmap hkey hsize (zeroKey_notMem_auditMap old)
  rw [hinvoke, auditMap_update, Function.update_idem]

/-- The value that the last event has written, if there was one. -/
def lastValue (clones : List SysClone) : Option (List Byte) :=
  clones.getLast?.map fun e => auditValue e.flags

theorem invokeAll_prog2 (clones : List SysClone) (old : Option (List Byte)) :
    invokeAll (prog2Insns fd) (clones.map Traced.event)
        (Function.update maps fd (some (auditMap old))) =
      .ok (Function.update maps fd (some (auditMap ((lastValue clones).or old)))) := by
  induction clones generalizing old with
  | nil => rfl
  | cons e clones ih =>
    rw [List.map_cons, invokeAll_cons, invoke_prog2_audit]
    refine (ih _).trans ?_
    unfold lastValue
    rw [List.getLast?_cons]
    cases clones.getLast? with
    | none => rfl
    | some last => rfl

/-- `runtime_monitor` counts no event at all. -/
theorem counts_prog1_iff (events : List SysEnter) :
    Counts fd (events.map Traced.pid)
      (invokeAll (prog1Insns fd) (events.map Traced.event) (createMap maps fd)) ↔ events = [] := by
  constructor
  · intro hcounts
    obtain ⟨maps', m, hrun, _⟩ := hcounts
    cases events with
    | nil => rfl
    | cons e events =>
      rw [List.map_cons, invokeAll_prog1] at hrun
      cases hrun
  · intro hempty
    subst hempty
    refine ⟨createMap maps fd, newMap, rfl, Function.update_self .., ?_, ?_⟩
    · exact List.forall_mem_nil _
    · intro key hkey
      exact absurd hkey (notMem_newMap key)

theorem valueOf_auditValue (flags : List Byte) :
    valueOf (auditValue flags) = 2 ^ 32 * (valueOf flags % 2 ^ 32) := by
  unfold auditValue
  rw [valueOf_append, valueOf_bytesOf]
  have hzero : valueOf zeroKey = 0 := by decide
  rw [hzero, Nat.zero_add]
  rfl

theorem pidKey_one : pidKey 1 = bytesOf 4 1 := rfl

theorem pidKey_injective {p q : BitVec 32} (h : pidKey p = pidKey q) : p = q :=
  BitVec.eq_of_toNat_eq (bytesOf_injective p.isLt q.isLt h)

/-- One entry for the key 1 counts the events when all of them are of the pid 1. -/
theorem counts_auditMap_iff {pids : List (BitVec 32)} (hpids : pids ≠ []) (value : List Byte) :
    Counts fd pids (.ok (Function.update maps fd (some (auditMap (some value))))) ↔
      (∀ pid ∈ pids, pid = 1) ∧ pids.length = valueOf value := by
  have hlookup : (auditMap (some value)).entries.lookup (pidKey 1) = some value := by
    have hentries : (auditMap (some value)).entries = AList.insert (bytesOf 4 1) value ∅ :=
      (AList.insert_empty _ _).symm
    rw [pidKey_one, hentries]
    exact AList.lookup_insert _
  constructor
  · intro hcounts
    obtain ⟨maps', m, hrun, hm, hcount, _⟩ := hcounts
    cases hrun
    rw [Function.update_self] at hm
    cases hm
    have hone : ∀ pid ∈ pids, pid = 1 := by
      intro pid hpid
      obtain ⟨v, hv, _⟩ := hcount pid hpid
      have hmem : pidKey pid ∈ (auditMap (some value)).entries :=
        AList.lookup_isSome.mp (Option.isSome_of_eq_some hv)
      exact pidKey_injective ((mem_auditMap.mp hmem).trans pidKey_one.symm)
    refine ⟨hone, ?_⟩
    obtain ⟨pid, hpid⟩ := List.exists_mem_of_ne_nil pids hpids
    cases hone pid hpid
    obtain ⟨v, hv, hvalue⟩ := hcount 1 hpid
    cases hlookup.symm.trans hv
    rw [hvalue, List.count_eq_length.mpr fun p hp => (hone p hp).symm]
  · intro hones
    obtain ⟨hone, hlength⟩ := hones
    refine ⟨_, auditMap (some value), rfl, Function.update_self .., ?_, ?_⟩
    · intro pid hpid
      cases hone pid hpid
      refine ⟨value, hlookup, ?_⟩
      rw [← hlength, List.count_eq_length.mpr fun p hp => (hone p hp).symm]
    · intro key hkey
      obtain ⟨pid, hpid⟩ := List.exists_mem_of_ne_nil pids hpids
      cases hone pid hpid
      exact ⟨1, hpid, mem_auditMap.mp hkey⟩

/-- `arena_audit` counts its events when there is none, or when all of them are of the pid 1 and
the low half of the last flags, times `2 ^ 32`, is their number. -/
theorem counts_prog2_iff (clones : List SysClone) :
    Counts fd (clones.map Traced.pid)
        (invokeAll (prog2Insns fd) (clones.map Traced.event) (createMap maps fd)) ↔
      clones = [] ∨ ∃ last, clones.getLast? = some last ∧ (∀ e ∈ clones, e.pid = 1) ∧
        clones.length = 2 ^ 32 * (valueOf (SysClone.flags last) % 2 ^ 32) := by
  have hrun := invokeAll_prog2 maps fd clones none
  rw [Option.or_none] at hrun
  change invokeAll _ _ (createMap maps fd) = _ at hrun
  rw [hrun]
  unfold lastValue
  cases hlast : clones.getLast? with
  | none =>
    rw [List.getLast?_eq_none_iff] at hlast
    subst hlast
    refine iff_of_true ?_ (.inl rfl)
    refine ⟨createMap maps fd, newMap, rfl, Function.update_self .., List.forall_mem_nil _, ?_⟩
    intro key hkey
    exact absurd hkey (notMem_newMap key)
  | some last =>
    have hne : clones ≠ [] := by
      intro hempty
      subst hempty
      cases hlast
    have hpids : clones.map Traced.pid ≠ [] := by
      rwa [ne_eq, List.map_eq_nil_iff]
    rw [Option.map_some, counts_auditMap_iff maps fd hpids, valueOf_auditValue, List.length_map,
      List.forall_mem_map, or_iff_right hne]
    constructor
    · intro hcond
      exact ⟨last, rfl, hcond⟩
    · intro hcond
      obtain ⟨last', heq, hcond⟩ := hcond
      cases heq
      exact hcond

/-- When the embedded programs count the events of each pid. -/
theorem embedded_counts_iff (events : List SysEnter) (clones : List SysClone) :
    (Counts fd (events.map Traced.pid)
        (invokeAll (prog1Insns fd) (events.map Traced.event) (createMap maps fd)) ↔
      events = []) ∧
    (Counts fd (clones.map Traced.pid)
        (invokeAll (prog2Insns fd) (clones.map Traced.event) (createMap maps fd)) ↔
      clones = [] ∨ ∃ last, clones.getLast? = some last ∧ (∀ e ∈ clones, e.pid = 1) ∧
        clones.length = 2 ^ 32 * (valueOf (SysClone.flags last) % 2 ^ 32)) := by
  constructor
  · exact counts_prog1_iff maps fd events
  · exact counts_prog2_iff maps fd clones

end Runs

/-- An event of the process 42 with nothing but zeros in its context. -/
def plainEvent (n : ℕ) : Traced n where
  pidTgid := 42 <<< 32
  ctx := List.Vector.replicate n 0

/-- Neither program counts one event. -/
theorem one_event_not_counted :
    ¬ Counts 3 [42]
        (invokeAll (prog1Insns 3) [(plainEvent 64).event] (createMap (fun _ => none) 3)) ∧
      ¬ Counts 4 [42]
        (invokeAll (prog2Insns 4) [(plainEvent 168).event] (createMap (fun _ => none) 4)) := by
  constructor
  · intro hcounts
    have hempty := (counts_prog1_iff (fun _ => none) 3 [plainEvent 64]).mp hcounts
    cases hempty
  · intro hcounts
    rcases (counts_prog2_iff (fun _ => none) 4 [plainEvent 168]).mp hcounts with
      hempty | ⟨last, _, hone, _⟩
    · cases hempty
    · exact absurd (hone _ (List.mem_singleton_self _)) (by decide)

end LingNet.EbpfLoader
