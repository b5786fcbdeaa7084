import Mathlib.Data.List.AList
import Mathlib.Data.Finset.Card

/-! Maps of bounded size, such as the hash maps of an eBPF program: an update of a new key is
refused when the map is full. -/

/-- A finite map with at most `maxEntries` keys. -/
structure BoundedMap (K V : Type*) where
  maxEntries : ℕ
  entries : AList fun _ : K => V
  size_le : entries.keys.length ≤ maxEntries

namespace BoundedMap

variable {K V : Type*} [DecidableEq K]

def empty (maxEntries : ℕ) : BoundedMap K V := ⟨maxEntries, ∅, Nat.zero_le _⟩

def lookup (m : BoundedMap K V) (k : K) : Option V := m.entries.lookup k

/-- Nothing changes when the key is new and the map is full. -/
def update (m : BoundedMap K V) (k : K) (v : V) : BoundedMap K V :=
  if h : (m.entries.insert k v).keys.length ≤ m.maxEntries then
    { m with entries := m.entries.insert k v, size_le := h }
  else m

@[simp] theorem lookup_empty (n : ℕ) (k : K) : (empty n : BoundedMap K V).lookup k = none :=
  AList.lookup_empty k

/-- All keys of the map are among `S`, and the map has room for all of `S`. -/
def Within (m : BoundedMap K V) (S : Finset K) : Prop :=
  (∀ k, (m.lookup k).isSome → k ∈ S) ∧ S.card ≤ m.maxEntries

theorem within_empty {n : ℕ} {S : Finset K} (h : S.card ≤ n) :
    (empty n : BoundedMap K V).Within S := by
  refine ⟨fun k hk => ?_, h⟩
  rw [lookup_empty] at hk
  cases hk

section Update

variable {m : BoundedMap K V} {S : Finset K} {k : K}

/-- A key among `S` always finds room. -/
theorem Within.entries_update (h : m.Within S) (hk : k ∈ S) (v : V) :
    (m.update k v).entries = m.entries.insert k v := by
  have hroom : (m.entries.insert k v).keys.length ≤ m.maxEntries := by
    rw [← List.toFinset_card_of_nodup (AList.keys_nodup _)]
    refine (Finset.card_le_card fun x hx => ?_).trans h.2
    rcases (AList.mem_insert m.entries).mp (AList.mem_keys.mpr (List.mem_toFinset.mp hx)) with
      rfl | hmem
    · exact hk
    · exact h.1 x (AList.lookup_isSome.mpr hmem)
  unfold update
  rw [dif_pos hroom]

theorem Within.lookup_update_self (h : m.Within S) (hk : k ∈ S) (v : V) :
    (m.update k v).lookup k = some v := by
  unfold lookup
  rw [h.entries_update hk, AList.lookup_insert]

/-- An update, refused or not, leaves the other keys alone. -/
theorem lookup_update_of_ne (m : BoundedMap K V) {k x : K} (h : x ≠ k) (v : V) :
    (m.update k v).lookup x = m.lookup x := by
  unfold update lookup
  split_ifs
  · exact AList.lookup_insert_ne h
  · rfl

theorem maxEntries_update (m : BoundedMap K V) (k : K) (v : V) :
    (m.update k v).maxEntries = m.maxEntries := by
  unfold update
  split_ifs <;> rfl

theorem Within.update (h : m.Within S) (hk : k ∈ S) (v : V) : (m.update k v).Within S := by
  refine ⟨fun x hx => ?_, by rw [maxEntries_update]; exact h.2⟩
  by_cases hxk : x = k
  · rw [hxk]
    exact hk
  · rw [lookup_update_of_ne m hxk] at hx
    exact h.1 x hx

end Update
end BoundedMap
