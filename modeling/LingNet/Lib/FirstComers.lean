import LingNet.Lib.BoundedMap
import Mathlib.Data.List.Perm.Lattice

/-! A bounded map that never shrinks has room for the first keys that come, and keeps the last
value that is written to each of them. -/
namespace BoundedMap

variable {ι K V : Type*} [DecidableEq K]

/-- The keys in the order in which they come first. -/
def firstComers (keys : List K) : List K :=
  keys.foldl (fun seen k => if k ∈ seen then seen else seen ++ [k]) []

@[simp] theorem firstComers_concat (keys : List K) (k : K) :
    firstComers (keys ++ [k]) =
      if k ∈ firstComers keys then firstComers keys else firstComers keys ++ [k] := by
  unfold firstComers
  rw [List.foldl_append]
  rfl

theorem nodup_firstComers (keys : List K) : (firstComers keys).Nodup := by
  induction keys using List.reverseRecOn with
  | nil => exact List.nodup_nil
  | append_singleton keys k ih =>
    rw [firstComers_concat]
    split_ifs with hmem
    · exact ih
    · exact List.nodup_append.mpr ⟨ih, List.nodup_singleton k, by
        intro a ha b hb
        rw [List.mem_singleton.mp hb]
        exact fun heq => hmem (heq ▸ ha)⟩

section Update

variable {m : BoundedMap K V} {k : K}

/-- The number of keys behind an insertion. -/
theorem length_keys_insert (m : BoundedMap K V) (k : K) (v : V) :
    (m.entries.insert k v).keys.length =
      if (m.lookup k).isSome then m.entries.keys.length else m.entries.keys.length + 1 := by
  rw [AList.keys_insert, List.length_cons]
  split_ifs with hk
  · have hmem : k ∈ m.entries.keys := AList.mem_keys.mp (AList.lookup_isSome.mp hk)
    have hpos := List.length_pos_of_mem hmem
    rw [List.length_erase_of_mem hmem]
    omega
  · have hmem : k ∉ m.entries.keys := fun hmem =>
      hk (AList.lookup_isSome.mpr (AList.mem_keys.mpr hmem))
    rw [List.erase_of_not_mem hmem]

/-- A key that is there is written; a new one is brought in if there is room. -/
theorem lookup_update_self (m : BoundedMap K V) (k : K) (v : V) :
    (m.update k v).lookup k =
      if (m.lookup k).isSome ∨ m.entries.keys.length < m.maxEntries then some v else none := by
  have hlength := length_keys_insert m k v
  have hle := m.size_le
  unfold update
  split_ifs with hroom hwritten hwritten
  · exact AList.lookup_insert _
  · rw [hlength] at hroom
    exfalso
    rw [not_or] at hwritten
    rw [if_neg hwritten.1] at hroom
    omega
  · rw [hlength] at hroom
    exfalso
    split_ifs at hroom with hk
    · omega
    · rcases hwritten with h | h
      · exact hk h
      · omega
  · rw [not_or] at hwritten
    exact Option.not_isSome_iff_eq_none.mp hwritten.1

end Update

/-- What events write to a map: an event may bring its key in, or write to a key that is there. -/
structure Writer (ι K V : Type*) where
  key : ι → K
  brings : ι → Bool
  value : ι → Option V
  value_of_brings : ∀ e, brings e = true → (value e).isSome = true

namespace Writer

variable (w : Writer ι K V)

def write (m : BoundedMap K V) (e : ι) : BoundedMap K V :=
  match w.value e with
  | none => m
  | some v => if w.brings e || (m.lookup (w.key e)).isSome then m.update (w.key e) v else m

/-- The keys that the events bring, in order. -/
def arrived (events : List ι) : List K := firstComers ((events.filter w.brings).map w.key)

/-- The last value that the events have for a key. -/
def latest (events : List ι) (k : K) : Option V :=
  events.foldl (fun last e => if w.key e = k then (w.value e).or last else last) none

theorem latest_concat (events : List ι) (e : ι) (k : K) :
    w.latest (events ++ [e]) k =
      if w.key e = k then (w.value e).or (w.latest events k) else w.latest events k := by
  simp [latest]

theorem arrived_concat (events : List ι) (e : ι) :
    w.arrived (events ++ [e]) =
      if w.brings e = true ∧ w.key e ∉ w.arrived events then w.arrived events ++ [w.key e]
      else w.arrived events := by
  unfold arrived
  rw [List.filter_append, List.map_append]
  by_cases hbrings : w.brings e = true
  · rw [List.filter_singleton, hbrings]
    by_cases hmem : w.key e ∈ firstComers ((events.filter w.brings).map w.key) <;> simp [hmem]
  · simp [hbrings]

/-- The map has the first `n` keys, each with its last value. -/
structure Holds (n : ℕ) (events : List ι) (m : BoundedMap K V) : Prop where
  maxEntries : m.maxEntries = n
  isSome : ∀ k, (m.lookup k).isSome = true ↔ k ∈ (w.arrived events).take n
  latest : ∀ k, (m.lookup k).isSome = true → m.lookup k = w.latest events k

variable {w} {n : ℕ} {events : List ι} {m : BoundedMap K V}

theorem Holds.lookup (h : w.Holds n events m) (k : K) :
    m.lookup k = if k ∈ (w.arrived events).take n then w.latest events k else none := by
  by_cases hk : (m.lookup k).isSome = true
  · rw [if_pos ((h.isSome k).mp hk)]
    exact h.latest k hk
  · rw [if_neg (mt (h.isSome k).mpr hk)]
    exact Option.not_isSome_iff_eq_none.mp hk

/-- There is room while fewer keys have come. -/
theorem Holds.room (h : w.Holds n events m) :
    m.entries.keys.length = min n (w.arrived events).length := by
  have hperm : m.entries.keys.Perm ((w.arrived events).take n) := by
    refine (List.perm_ext_iff_of_nodup m.entries.keys_nodup
      ((nodup_firstComers _).sublist (List.take_sublist _ _))).mpr fun k => ?_
    exact AList.mem_keys.symm.trans (AList.lookup_isSome.symm.trans (h.isSome k))
  rw [hperm.length_eq, List.length_take]

theorem holds_empty (w : Writer ι K V) (n : ℕ) : w.Holds n [] (empty n) where
  maxEntries := rfl
  isSome k := by simp [arrived, firstComers]
  latest k h := by simp at h

omit [DecidableEq K] in
/-- Another key that comes leaves the first ones as they are. -/
theorem mem_take_concat {l : List K} {k k' : K} (hne : k' ≠ k) :
    k' ∈ (l ++ [k]).take n ↔ k' ∈ l.take n := by
  rw [List.take_append]
  constructor
  · intro h
    rcases List.mem_append.mp h with h | h
    · exact h
    · exact absurd (List.mem_singleton.mp (List.mem_of_mem_take h)) hne
  · exact List.mem_append_left _

omit [DecidableEq K] in
/-- A key that comes now is among the first ones if there is room. -/
theorem mem_take_concat_self {l : List K} {k : K} (h : k ∉ l) :
    k ∈ (l ++ [k]).take n ↔ l.length < n := by
  rw [List.take_append]
  constructor
  · intro hmem
    rcases List.mem_append.mp hmem with hmem | hmem
    · exact absurd (List.mem_of_mem_take hmem) h
    · have hpos := List.length_pos_of_mem hmem
      rw [List.length_take] at hpos
      omega
  · intro hlt
    have hroom : n - l.length = (n - l.length - 1) + 1 := by omega
    rw [hroom]
    exact List.mem_append_right _ List.mem_cons_self

omit [DecidableEq K] in
theorem length_lt_of_mem {l : List K} {k : K} (hmem : k ∈ l) (h : k ∉ l.take n) :
    n < l.length := by
  by_contra hle
  rw [List.take_of_length_le (by omega)] at h
  exact h hmem

/-- An event leaves the other keys alone. -/
theorem lookup_write_of_ne {e : ι} {k : K} (h : k ≠ w.key e) (m : BoundedMap K V) :
    (w.write m e).lookup k = m.lookup k := by
  unfold write
  split
  · rfl
  · split_ifs
    · exact lookup_update_of_ne m h _
    · rfl

theorem mem_take_arrived_of_ne {e : ι} {k : K} (h : k ≠ w.key e) :
    k ∈ (w.arrived (events ++ [e])).take n ↔ k ∈ (w.arrived events).take n := by
  rw [arrived_concat]
  split_ifs
  · exact mem_take_concat h
  · rfl

/-- A key is there behind an event of its own if it was there, or if the event brings it in while
there is room. -/
theorem mem_take_arrived_self (w : Writer ι K V) (events : List ι) (e : ι) :
    w.key e ∈ (w.arrived (events ++ [e])).take n ↔
      w.key e ∈ (w.arrived events).take n ∨
        w.brings e = true ∧ (w.arrived events).length < n := by
  rw [arrived_concat]
  by_cases hmem : w.key e ∈ w.arrived events
  · rw [if_neg fun h => h.2 hmem]
    refine ⟨.inl, fun h => ?_⟩
    rcases h with h | ⟨-, hlt⟩
    · exact h
    · by_contra hnot
      have hgt := length_lt_of_mem hmem hnot
      omega
  · by_cases hbrings : w.brings e = true
    · rw [if_pos ⟨hbrings, hmem⟩, mem_take_concat_self hmem]
      have hnot : w.key e ∉ (w.arrived events).take n := fun h => hmem (List.mem_of_mem_take h)
      simp [hbrings, hnot]
    · rw [if_neg fun h => hbrings h.1]
      simp [hbrings]

/-- What an event makes of its own key. -/
theorem Holds.lookup_write_self (h : w.Holds n events m) (e : ι) :
    (w.write m e).lookup (w.key e) =
      if w.key e ∈ (w.arrived (events ++ [e])).take n then
        (w.value e).or (m.lookup (w.key e)) else none := by
  have hiff := mem_take_arrived_self (n := n) w events e
  rw [← h.isSome] at hiff
  unfold Writer.write
  cases hvalue : w.value e with
  | none =>
    have hbrings : ¬ w.brings e = true := by
      intro hbrings
      have hsome := w.value_of_brings e hbrings
      rw [hvalue] at hsome
      cases hsome
    dsimp only
    rw [Option.none_or]
    by_cases hk : (m.lookup (w.key e)).isSome = true
    · rw [if_pos (hiff.mpr (.inl hk))]
    · have hmem : w.key e ∉ (w.arrived (events ++ [e])).take n := by
        rw [hiff]
        simp [hk, hbrings]
      rw [if_neg hmem]
      exact Option.not_isSome_iff_eq_none.mp hk
  | some v =>
    dsimp only
    rw [Option.some_or]
    by_cases hk : (m.lookup (w.key e)).isSome = true
    · rw [if_pos (hiff.mpr (.inl hk)), if_pos (by simp [hk]), lookup_update_self, if_pos (.inl hk)]
    · by_cases hbrings : w.brings e = true
      · have hlength : m.entries.keys.length < m.maxEntries ↔ (w.arrived events).length < n := by
          rw [h.room, h.maxEntries]
          omega
        have hroom : ((m.lookup (w.key e)).isSome = true ∨
            m.entries.keys.length < m.maxEntries) ↔
              w.key e ∈ (w.arrived (events ++ [e])).take n := by
          rw [hiff, hlength]
          simp [hk, hbrings]
        rw [if_pos (by simp [hbrings]), lookup_update_self]
        simp only [hroom]
      · have hmem : w.key e ∉ (w.arrived (events ++ [e])).take n := by
          rw [hiff]
          simp [hk, hbrings]
        rw [if_neg hmem, if_neg (by simp [hk, hbrings])]
        exact Option.not_isSome_iff_eq_none.mp hk

theorem maxEntries_write (m : BoundedMap K V) (e : ι) :
    (w.write m e).maxEntries = m.maxEntries := by
  unfold write
  split
  · rfl
  · split_ifs
    · exact maxEntries_update m _ _
    · rfl

theorem Holds.write (h : w.Holds n events m) (e : ι) :
    w.Holds n (events ++ [e]) (w.write m e) := by
  refine ⟨(maxEntries_write m e).trans h.maxEntries, fun k => ?_, fun k hsome => ?_⟩
  · by_cases hne : k = w.key e
    · rw [hne, h.lookup_write_self]
      split_ifs with hmem
      · have hor : ((w.value e).or (m.lookup (w.key e))).isSome = true := by
          rcases (mem_take_arrived_self w events e).mp hmem with hold | ⟨hbrings, -⟩
          · have hk := (h.isSome _).mpr hold
            cases w.value e <;> simp [hk]
          · have hvalue := w.value_of_brings e hbrings
            cases hv : w.value e with
            | none =>
              rw [hv] at hvalue
              cases hvalue
            | some v => rfl
        simp [hor, hmem]
      · simp [hmem]
    · rw [lookup_write_of_ne hne, h.isSome, mem_take_arrived_of_ne hne]
  · by_cases hne : k = w.key e
    · rw [hne, h.lookup_write_self] at hsome ⊢
      split_ifs at hsome with hmem
      · rw [if_pos hmem, latest_concat, if_pos rfl]
        cases hvalue : w.value e with
        | none =>
          rw [hvalue, Option.none_or] at hsome
          exact h.latest _ hsome
        | some v => rfl
      · cases hsome
    · rw [lookup_write_of_ne hne] at hsome ⊢
      rw [latest_concat, if_neg fun heq => hne heq.symm]
      exact h.latest k hsome

end Writer
end BoundedMap
