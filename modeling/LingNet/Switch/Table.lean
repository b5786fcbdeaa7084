import LingNet.Gqap.Arena
import LingNet.Zig.Proc
import Mathlib.Data.Finset.Card
import Mathlib.Data.List.AList

/-! The three-tier route table: an array that is scanned in order, and two hash maps that keep
the latest entry of an intent. -/
namespace LingNet.Switch
open Zig

inductive RouteTier where
  | l0
  | l1
  | l2
  deriving DecidableEq, Repr

/-- `handler` is the address of the function. -/
structure RouteEntry where
  intentId : UInt32
  tier : RouteTier
  handler : ℕ
  arena : Option Gqap.Arena := none
  deriving DecidableEq, Repr

structure SwitchConfig where
  l0Slots : ℕ := 64
  deriving DecidableEq, Repr

inductive SwitchError where
  | tableFull
  | outOfMemory
  deriving DecidableEq, Repr

/-- `l0Routes` is the whole allocated array: what is behind `l0Count` was never written. -/
structure SwitchTable where
  config : SwitchConfig
  l0Routes : List RouteEntry
  l0Count : ℕ
  l1Map : AList fun _ : UInt32 => RouteEntry
  l2Map : AList fun _ : UInt32 => RouteEntry
  l0Count_le : l0Count ≤ l0Routes.length

structure Stats where
  l0Count : ℕ
  l1Count : ℕ
  l2Count : ℕ
  deriving DecidableEq, Repr

namespace SwitchTable

/-- `undef` is what the memory of the array holds. -/
def init (config : SwitchConfig) (undef : ℕ → RouteEntry) : SwitchTable where
  config := config
  l0Routes := (List.range config.l0Slots).map undef
  l0Count := 0
  l1Map := ∅
  l2Map := ∅
  l0Count_le := Nat.zero_le _

def registerL0 (intentId : UInt32) (handler : ℕ) : Proc SwitchTable SwitchError Unit := fun self =>
  if h : self.l0Routes.length ≤ self.l0Count then (.err .tableFull, self)
  else
    let entry := { intentId, tier := .l0, handler, arena := none }
    (.ok (), { self with
      l0Routes := self.l0Routes.set self.l0Count entry
      l0Count := self.l0Count + 1
      l0Count_le := by rw [List.length_set]; exact Nat.lt_of_not_le h })

/-- `mem` says whether `put` finds the memory it needs. -/
def registerL1 (mem : Bool) (intentId : UInt32) (handler : ℕ) :
    Proc SwitchTable SwitchError Unit := fun self =>
  if mem then
    let entry := { intentId, tier := .l1, handler, arena := none }
    (.ok (), { self with l1Map := self.l1Map.insert intentId entry })
  else (.err .outOfMemory, self)

def registerL2 (mem : Bool) (intentId : UInt32) (handler : ℕ) :
    Proc SwitchTable SwitchError Unit := fun self =>
  if mem then
    let entry := { intentId, tier := .l2, handler, arena := none }
    (.ok (), { self with l2Map := self.l2Map.insert intentId entry })
  else (.err .outOfMemory, self)

/-- The entry that the returned pointer points to. -/
def lookup (self : SwitchTable) (intentId : UInt32) : Option RouteEntry :=
  match (self.l0Routes.take self.l0Count).find? fun e => e.intentId = intentId with
  | some entry => some entry
  | none =>
    match self.l1Map.lookup intentId with
    | some entry => some entry
    | none => self.l2Map.lookup intentId

def stats (self : SwitchTable) : Stats where
  l0Count := self.l0Count
  l1Count := self.l1Map.keys.length
  l2Count := self.l2Map.keys.length

end SwitchTable

/-- One call of the three register functions. -/
inductive Registration where
  | l0 (intentId : UInt32) (handler : ℕ)
  | l1 (mem : Bool) (intentId : UInt32) (handler : ℕ)
  | l2 (mem : Bool) (intentId : UInt32) (handler : ℕ)
  deriving DecidableEq, Repr

namespace Registration

def register : Registration → Proc SwitchTable SwitchError Unit
  | l0 intentId handler => SwitchTable.registerL0 intentId handler
  | l1 mem intentId handler => SwitchTable.registerL1 mem intentId handler
  | l2 mem intentId handler => SwitchTable.registerL2 mem intentId handler

/-- The entry that the call asks for. -/
def entry : Registration → RouteEntry
  | l0 intentId handler => { intentId, tier := .l0, handler }
  | l1 _ intentId handler => { intentId, tier := .l1, handler }
  | l2 _ intentId handler => { intentId, tier := .l2, handler }

/-- A call finds room: for `L0` a slot of those that are left, for the other tiers memory. -/
def HasRoom (slots : ℕ) : Registration → Prop
  | l0 _ _ => 0 < slots
  | l1 mem _ _ => mem = true
  | l2 mem _ _ => mem = true

instance (slots : ℕ) : DecidablePred (HasRoom slots)
  | l0 _ _ => inferInstanceAs (Decidable (0 < slots))
  | l1 mem _ _ => inferInstanceAs (Decidable (mem = true))
  | l2 mem _ _ => inferInstanceAs (Decidable (mem = true))

/-- The slots that the call takes. -/
def takes : Registration → ℕ
  | l0 _ _ => 1
  | _ => 0

/-- What the call answers without room. -/
def refusal : Registration → SwitchError
  | l0 _ _ => .tableFull
  | _ => .outOfMemory

end Registration

/-- The table after the calls. -/
def registerAll (table : SwitchTable) (calls : List Registration) : SwitchTable :=
  calls.foldl (fun table r => r.register.final table) table

/-- The entries of the calls that find room, oldest first, when so many slots are left. -/
def accepted : ℕ → List Registration → List RouteEntry
  | _, [] => []
  | slots, r :: calls =>
    if r.HasRoom slots then r.entry :: accepted (slots - r.takes) calls else accepted slots calls

theorem exists_of_mem_accepted {slots : ℕ} {calls : List Registration} {e : RouteEntry}
    (h : e ∈ accepted slots calls) : ∃ r ∈ calls, r.entry = e := by
  induction calls generalizing slots with
  | nil => cases h
  | cons r calls ih =>
    rw [accepted] at h
    split_ifs at h
    · rcases List.mem_cons.mp h with rfl | h
      · exact ⟨r, List.mem_cons_self, rfl⟩
      · obtain ⟨r', hr', he⟩ := ih h
        exact ⟨r', List.mem_cons_of_mem r hr', he⟩
    · obtain ⟨r', hr', he⟩ := ih h
      exact ⟨r', List.mem_cons_of_mem r hr', he⟩

/-! What the table stands for: the log of its entries. -/

/-- The entries of a tier, oldest first. -/
def ofTier (tier : RouteTier) (log : List RouteEntry) : List RouteEntry :=
  log.filter fun e => e.tier = tier

def oldest (tier : RouteTier) (log : List RouteEntry) (intentId : UInt32) : Option RouteEntry :=
  (ofTier tier log).find? fun e => e.intentId = intentId

def latest (tier : RouteTier) (log : List RouteEntry) (intentId : UInt32) : Option RouteEntry :=
  (ofTier tier log).reverse.find? fun e => e.intentId = intentId

/-- The oldest `L0` entry, else the latest `L1` entry, else the latest `L2` entry. -/
def resolve (log : List RouteEntry) (intentId : UInt32) : Option RouteEntry :=
  ((oldest .l0 log intentId).or (latest .l1 log intentId)).or (latest .l2 log intentId)

def distinctIds (tier : RouteTier) (log : List RouteEntry) : ℕ :=
  ((ofTier tier log).map RouteEntry.intentId).toFinset.card

section Log

variable {tier : RouteTier} {log : List RouteEntry} {e : RouteEntry} {intentId : UInt32}

theorem ofTier_append_of_eq (h : e.tier = tier) : ofTier tier (log ++ [e]) = ofTier tier log ++ [e] := by
  simp [ofTier, h]

theorem ofTier_append_of_ne (h : e.tier ≠ tier) : ofTier tier (log ++ [e]) = ofTier tier log := by
  simp [ofTier, h]

theorem latest_append_of_eq (h : e.tier = tier) (intentId : UInt32) :
    latest tier (log ++ [e]) intentId =
      if intentId = e.intentId then some e else latest tier log intentId := by
  unfold latest
  rw [ofTier_append_of_eq h, List.reverse_concat, List.find?_cons]
  by_cases hid : intentId = e.intentId
  · simp [hid]
  · simp [hid, Ne.symm hid]

theorem mem_of_resolve (h : resolve log intentId = some e) :
    e ∈ log ∧ e.intentId = intentId := by
  have hfind : ∀ {tier : RouteTier} {l : List RouteEntry}, (∀ x ∈ l, x ∈ ofTier tier log) →
      l.find? (fun e => e.intentId = intentId) = some e → e ∈ log ∧ e.intentId = intentId := by
    intro tier l hl hsome
    have hmem := hl e (List.mem_of_find?_eq_some hsome)
    have hid := List.find?_some hsome
    exact ⟨List.mem_of_mem_filter hmem, of_decide_eq_true hid⟩
  rcases Option.or_eq_some_iff.mp h with h | ⟨_, h⟩
  · rcases Option.or_eq_some_iff.mp h with h | ⟨_, h⟩
    · exact hfind (fun _ => id) h
    · exact hfind (fun _ => List.mem_reverse.mp) h
  · exact hfind (fun _ => List.mem_reverse.mp) h

end Log

/-! The table and its log. -/

structure Mirrors (table : SwitchTable) (log : List RouteEntry) : Prop where
  l0 : table.l0Routes.take table.l0Count = ofTier .l0 log
  l1 : ∀ intentId, table.l1Map.lookup intentId = latest .l1 log intentId
  l2 : ∀ intentId, table.l2Map.lookup intentId = latest .l2 log intentId

section Simulation

variable {table : SwitchTable} {log : List RouteEntry}

theorem Mirrors.init (config : SwitchConfig) (undef : ℕ → RouteEntry) :
    Mirrors (.init config undef) [] :=
  ⟨List.take_zero, fun _ => rfl, fun _ => rfl⟩

theorem Mirrors.lookup_eq (h : Mirrors table log) (intentId : UInt32) :
    table.lookup intentId = resolve log intentId := by
  unfold SwitchTable.lookup resolve oldest
  rw [h.l0, h.l1, h.l2]
  cases (ofTier .l0 log).find? fun e => e.intentId = intentId with
  | some entry => rfl
  | none =>
    cases latest .l1 log intentId with
    | some entry => rfl
    | none => rfl

theorem insert_latest {tier : RouteTier} {m : AList fun _ : UInt32 => RouteEntry} {e : RouteEntry}
    (he : e.tier = tier) (h : ∀ intentId, m.lookup intentId = latest tier log intentId)
    (intentId : UInt32) :
    (m.insert e.intentId e).lookup intentId = latest tier (log ++ [e]) intentId := by
  rw [latest_append_of_eq he]
  split_ifs with hid
  · rw [hid, AList.lookup_insert]
  · rw [AList.lookup_insert_ne hid, h]

theorem latest_of_ne {tier : RouteTier} {m : AList fun _ : UInt32 => RouteEntry} {e : RouteEntry}
    (he : e.tier ≠ tier) (h : ∀ intentId, m.lookup intentId = latest tier log intentId)
    (intentId : UInt32) : m.lookup intentId = latest tier (log ++ [e]) intentId := by
  unfold latest
  rw [ofTier_append_of_ne he]
  exact h intentId

theorem take_succ_set {α : Type} {l : List α} {n : ℕ} (h : n < l.length) (a : α) :
    (l.set n a).take (n + 1) = l.take n ++ [a] := by
  have hset : n < (l.set n a).length := by
    rw [List.length_set]
    exact h
  rw [List.take_succ_eq_append_getElem hset, List.getElem_set_self, List.take_set_of_le le_rfl]

/-- The slots of the array that are left. -/
def SwitchTable.left (table : SwitchTable) : ℕ := table.l0Routes.length - table.l0Count

/-- A call succeeds and adds its entry where it finds room, and elsewhere it is refused and changes
nothing. -/
theorem Mirrors.register (h : Mirrors table log) (r : Registration) :
    (r.HasRoom table.left ∧ r.register.result table = .ok () ∧
        Mirrors (r.register.final table) (log ++ [r.entry]) ∧
        (r.register.final table).left = table.left - r.takes) ∨
      (¬ r.HasRoom table.left ∧ r.register.result table = .err r.refusal ∧
        r.register.final table = table) := by
  cases r with
  | l0 intentId handler =>
    by_cases hfull : table.l0Routes.length ≤ table.l0Count
    · have hrun : SwitchTable.registerL0 intentId handler table = (.err .tableFull, table) :=
        dif_pos hfull
      have hroom : ¬ (Registration.l0 intentId handler).HasRoom table.left := by
        simp [Registration.HasRoom, SwitchTable.left, hfull]
      exact .inr ⟨hroom, congrArg Prod.fst hrun, congrArg Prod.snd hrun⟩
    · have hrun : SwitchTable.registerL0 intentId handler table = (.ok (), { table with
          l0Routes := table.l0Routes.set table.l0Count { intentId, tier := .l0, handler }
          l0Count := table.l0Count + 1
          l0Count_le := by rw [List.length_set]; exact Nat.lt_of_not_le hfull }) := dif_neg hfull
      have hroom : (Registration.l0 intentId handler).HasRoom table.left := by
        simp only [Registration.HasRoom, SwitchTable.left]
        omega
      refine .inl ⟨hroom, congrArg Prod.fst hrun, ?_⟩
      have hfinal := congrArg Prod.snd hrun
      change (Registration.l0 intentId handler).register.final table = _ at hfinal
      rw [hfinal]
      refine ⟨⟨?_, latest_of_ne (by simp [Registration.entry]) h.l1,
        latest_of_ne (by simp [Registration.entry]) h.l2⟩, ?_⟩
      · have hentry : (Registration.l0 intentId handler).entry.tier = .l0 := rfl
        rw [ofTier_append_of_eq hentry, ← h.l0]
        exact take_succ_set (Nat.lt_of_not_le hfull) _
      · simp only [SwitchTable.left, Registration.takes, List.length_set]
        omega
  | l1 mem intentId handler =>
    cases mem with
    | false => exact .inr ⟨Bool.false_ne_true, rfl, rfl⟩
    | true =>
      refine .inl ⟨rfl, rfl, ⟨?_, ?_, latest_of_ne (by simp [Registration.entry]) h.l2⟩, rfl⟩
      · rw [ofTier_append_of_ne (by simp [Registration.entry])]
        exact h.l0
      · exact insert_latest (e := (Registration.l1 true intentId handler).entry) rfl h.l1
  | l2 mem intentId handler =>
    cases mem with
    | false => exact .inr ⟨Bool.false_ne_true, rfl, rfl⟩
    | true =>
      refine .inl ⟨rfl, rfl, ⟨?_, latest_of_ne (by simp [Registration.entry]) h.l1, ?_⟩, rfl⟩
      · rw [ofTier_append_of_ne (by simp [Registration.entry])]
        exact h.l0
      · exact insert_latest (e := (Registration.l2 true intentId handler).entry) rfl h.l2

/-- The run: the table mirrors the entries that were accepted. -/
theorem Mirrors.registerAll (h : Mirrors table log) (calls : List Registration) :
    Mirrors (registerAll table calls) (log ++ accepted table.left calls) := by
  induction calls generalizing table log with
  | nil =>
    rw [accepted, List.append_nil]
    exact h
  | cons r calls ih =>
    change Mirrors (Switch.registerAll (r.register.final table) calls) _
    rcases h.register r with ⟨hroom, -, hnext, hleft⟩ | ⟨hroom, -, hsame⟩
    · rw [accepted, if_pos hroom, List.append_cons, ← hleft]
      exact ih hnext
    · rw [accepted, if_neg hroom, hsame]
      exact ih h

theorem length_l0Routes_register (table : SwitchTable) (r : Registration) :
    (r.register.final table).l0Routes.length = table.l0Routes.length := by
  cases r with
  | l0 intentId handler =>
    change (SwitchTable.registerL0 intentId handler table).2.l0Routes.length = _
    unfold SwitchTable.registerL0
    split_ifs
    · rfl
    · exact List.length_set
  | l1 mem intentId handler => cases mem <;> rfl
  | l2 mem intentId handler => cases mem <;> rfl

theorem length_l0Routes_registerAll (table : SwitchTable) (calls : List Registration) :
    (registerAll table calls).l0Routes.length = table.l0Routes.length := by
  induction calls generalizing table with
  | nil => rfl
  | cons r calls ih => exact (ih (r.register.final table)).trans (length_l0Routes_register table r)

theorem Mirrors.l0Count_eq (h : Mirrors table log) :
    table.l0Count = (ofTier .l0 log).length := by
  rw [← h.l0, List.length_take_of_le table.l0Count_le]

/-- A map of the latest entries has one key for each id. -/
theorem length_keys {tier : RouteTier} {m : AList fun _ : UInt32 => RouteEntry}
    (h : ∀ intentId, m.lookup intentId = latest tier log intentId) :
    m.keys.length = distinctIds tier log := by
  unfold distinctIds
  rw [← List.toFinset_card_of_nodup m.keys_nodup]
  congr 1
  ext intentId
  rw [List.mem_toFinset, List.mem_toFinset, ← AList.mem_keys, ← AList.lookup_isSome, h, latest,
    List.find?_isSome]
  simp

end Simulation

/-- After any calls on a new table: the next call succeeds exactly if it finds room, which for `L0`
is one of the slots; a lookup is what the entries of the calls that found room say, with the id
asked for and a tier under which it was registered; a refused call changes no lookup; and the
statistics count the accepted entries of `L0` and the ids of `L1` and `L2`. -/
theorem lookup_registerAll (config : SwitchConfig) (undef : ℕ → RouteEntry)
    (calls : List Registration) :
    (∀ r : Registration, r.register.result (registerAll (.init config undef) calls) =
      if r.HasRoom (config.l0Slots - (ofTier .l0 (accepted config.l0Slots calls)).length) then
        .ok () else .err r.refusal) ∧
    (∀ intentId, (registerAll (.init config undef) calls).lookup intentId =
      resolve (accepted config.l0Slots calls) intentId) ∧
    (∀ intentId e, (registerAll (.init config undef) calls).lookup intentId = some e →
      e.intentId = intentId ∧ ∃ r ∈ calls, r.entry = e) ∧
    (∀ (r : Registration) (e : SwitchError),
      r.register.result (registerAll (.init config undef) calls) = .err e → ∀ intentId,
      (r.register.final (registerAll (.init config undef) calls)).lookup intentId =
        (registerAll (.init config undef) calls).lookup intentId) ∧
    (registerAll (.init config undef) calls).stats =
      ⟨(ofTier .l0 (accepted config.l0Slots calls)).length,
        distinctIds .l1 (accepted config.l0Slots calls),
        distinctIds .l2 (accepted config.l0Slots calls)⟩ := by
  have hslots : (SwitchTable.init config undef).left = config.l0Slots := by
    simp [SwitchTable.left, SwitchTable.init]
  have hmirrors := (Mirrors.init config undef).registerAll calls
  rw [List.nil_append, hslots] at hmirrors
  have hleft : (registerAll (.init config undef) calls).left =
      config.l0Slots - (ofTier .l0 (accepted config.l0Slots calls)).length := by
    rw [SwitchTable.left, length_l0Routes_registerAll, hmirrors.l0Count_eq]
    simp [SwitchTable.init]
  refine ⟨fun r => ?_, hmirrors.lookup_eq, ?_, ?_, ?_⟩
  · rw [← hleft]
    rcases hmirrors.register r with ⟨hroom, hok, -, -⟩ | ⟨hroom, herr, -⟩
    · rw [if_pos hroom, hok]
    · rw [if_neg hroom, herr]
  · intro intentId e he
    rw [hmirrors.lookup_eq] at he
    obtain ⟨hmem, hid⟩ := mem_of_resolve he
    exact ⟨hid, exists_of_mem_accepted hmem⟩
  · intro r e herr intentId
    rcases hmirrors.register r with ⟨-, hok, -, -⟩ | ⟨-, -, hsame⟩
    · cases hok.symm.trans herr
    · rw [hsame]
  · unfold SwitchTable.stats
    rw [hmirrors.l0Count_eq, length_keys hmirrors.l1, length_keys hmirrors.l2]

end LingNet.Switch
