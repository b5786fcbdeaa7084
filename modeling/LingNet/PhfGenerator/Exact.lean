import LingNet.PhfGenerator.Generate
import Mathlib.Data.List.Nodup

/-! Which lists of keys a table answers exactly. The empty marker is a key like any other. -/
namespace LingNet.PhfGenerator
open Zig

/-- The key with the bits of the empty marker. -/
def markerKey : UInt32 := 0xFFFFFFFF

/-- A lookup finds the keys of the list, and no two of them at the same place. -/
structure Exact (keys : List UInt32) (phf : Phf) : Prop where
  finds : ∀ key, ∃ r, phf.lookup key = .ok r ∧ (r.isSome ↔ key ∈ keys)
  distinct : ∀ key ∈ keys, ∀ key' ∈ keys, key ≠ key' → phf.lookup key ≠ phf.lookup key'

/-- The bucket of a key. -/
def index (m : ℕ) (seed key : UInt32) : ℕ := (hashU32 key seed).toNat % m

section Place

variable {p : UInt32 → ℕ} {placed keys : List UInt32} {key : UInt32} {buckets : Buckets}

/-- The key that was put last into a bucket. -/
def lastIn (p : UInt32 → ℕ) (l : List UInt32) (h : ℕ) : Option UInt32 :=
  l.reverse.find? fun key => p key = h

/-- Two keys share a bucket only where the first of them is the marker. -/
def Separated (p : UInt32 → ℕ) (keys : List UInt32) : Prop :=
  keys.Pairwise fun a b => p a = p b → a = markerKey

/-- The buckets of the keys are inside the array, up to the first key that collides. -/
def Inside (p : UInt32 → ℕ) (placed : List UInt32) : List UInt32 → Prop
  | [] => True
  | key :: keys => p key < 256 ∧
    (Separated p (placed ++ [key]) → Inside p (placed ++ [key]) keys)

theorem inside_cons : Inside p placed (key :: keys) ↔ p key < 256 ∧
    (Separated p (placed ++ [key]) → Inside p (placed ++ [key]) keys) := Iff.rfl

/-- The array after the keys were put into it. -/
def Holds (p : UInt32 → ℕ) (keys : List UInt32) (buckets : Buckets) : Prop :=
  ∀ h : Fin 256, buckets h = ((lastIn p keys h).map UInt32.toInt32).getD (-1)

theorem toInt32_eq_marker_iff : key.toInt32 = -1 ↔ key = markerKey := by
  constructor
  · intro h
    have hbits := congrArg Int32.toUInt32 h
    rw [UInt32.toUInt32_toInt32] at hbits
    exact hbits
  · rintro rfl
    rfl

theorem lastIn_append_singleton (p : UInt32 → ℕ) (l : List UInt32) (key : UInt32) (h : ℕ) :
    lastIn p (l ++ [key]) h = if p key = h then some key else lastIn p l h := by
  unfold lastIn
  rw [List.reverse_append, List.reverse_singleton, List.singleton_append, List.find?_cons]
  by_cases hkey : p key = h
  · simp [hkey]
  · simp [hkey]

theorem lastIn_eq_some_iff {l : List UInt32} {h : ℕ} : lastIn p l h = some key ↔
    p key = h ∧ ∃ s r, l = s ++ key :: r ∧ ∀ k ∈ r, p k ≠ h := by
  unfold lastIn
  rw [List.find?_eq_some_iff_append]
  simp only [decide_eq_true_eq, Bool.not_eq_true', decide_eq_false_iff_not]
  refine and_congr_right fun _ => ?_
  constructor
  · rintro ⟨as, bs, hl, has⟩
    refine ⟨bs.reverse, as.reverse, ?_, fun k hk => has k (List.mem_reverse.mp hk)⟩
    rw [← List.reverse_inj, hl]
    simp
  · rintro ⟨s, r, rfl, hr⟩
    exact ⟨r.reverse, s.reverse, by simp, fun k hk => hr k (List.mem_reverse.mp hk)⟩

theorem lastIn_eq_none_iff {l : List UInt32} {h : ℕ} :
    lastIn p l h = none ↔ ∀ k ∈ l, p k ≠ h := by
  unfold lastIn
  simp [List.find?_eq_none]

theorem separated_append_singleton : Separated p (placed ++ [key]) ↔
    Separated p placed ∧ ∀ k ∈ placed, p k = p key → k = markerKey := by
  unfold Separated
  rw [List.pairwise_append]
  simp

/-- A bucket looks empty exactly if putting the key there keeps the keys separated. -/
theorem empty_iff (hholds : Holds p placed buckets) (hsep : Separated p placed)
    (hlt : p key < 256) :
    buckets ⟨p key, hlt⟩ = -1 ↔ Separated p (placed ++ [key]) := by
  rw [hholds, separated_append_singleton, and_iff_right hsep]
  cases hlast : lastIn p placed (p key) with
  | none =>
    have hnone := lastIn_eq_none_iff.mp hlast
    simp only [Option.map_none, Option.getD_none, true_iff]
    exact fun k hk heq => absurd heq (hnone k hk)
  | some last =>
    obtain ⟨hplast, s, r, rfl, hr⟩ := lastIn_eq_some_iff.mp hlast
    simp only [Option.map_some, Option.getD_some, toInt32_eq_marker_iff]
    constructor
    · rintro rfl k hk heq
      rcases List.mem_append.mp hk with hs | hrest
      · -- an earlier key in the bucket shares it with the marker
        have hpair := (List.pairwise_append.mp hsep).2.2 k hs markerKey List.mem_cons_self
        exact hpair (heq.trans hplast.symm)
      · rcases List.mem_cons.mp hrest with rfl | hlater
        · rfl
        · exact absurd heq (hr k hlater)
    · intro hall
      exact hall last (by simp) hplast

theorem Holds.put (hholds : Holds p placed buckets) (hlt : p key < 256) :
    Holds p (placed ++ [key]) (Function.update buckets ⟨p key, hlt⟩ key.toInt32) := by
  intro h
  rw [lastIn_append_singleton]
  by_cases heq : p key = h
  · have hh : h = ⟨p key, hlt⟩ := Fin.ext heq.symm
    rw [if_pos heq, hh, Function.update_self]
    rfl
  · have hh : h ≠ ⟨p key, hlt⟩ := fun hh => heq (congrArg Fin.val hh).symm
    rw [if_neg heq, Function.update_of_ne hh]
    exact hholds h

theorem holds_nil (p : UInt32 → ℕ) : Holds p [] fun _ => -1 := fun _ => rfl

end Place

section Search

variable {m : ℕ} {seed : UInt32} {placed keys : List UInt32} {buckets : Buckets}

theorem slot_of_lt (hm : m < 2 ^ 32) (seed key : UInt32) :
    slot m seed key = .ok (index m seed key) := by
  unfold slot
  rw [intCast_of_lt hm]
  rfl

/-- The loop over the keys, for the keys that are left. -/
theorem placeKeys_cases (hm : m < 2 ^ 32) (hholds : Holds (index m seed) placed buckets)
    (hsep : Separated (index m seed) placed) :
    (¬ Inside (index m seed) placed keys ∧
        placeKeys m seed keys buckets = .trap .outOfBounds) ∨
      Inside (index m seed) placed keys ∧
        (¬ Separated (index m seed) (placed ++ keys) ∧
            placeKeys m seed keys buckets = .ok none ∨
          Separated (index m seed) (placed ++ keys) ∧
            ∃ buckets', placeKeys m seed keys buckets = .ok (some buckets') ∧
              Holds (index m seed) (placed ++ keys) buckets') := by
  induction keys generalizing placed buckets with
  | nil =>
    rw [List.append_nil]
    exact .inr ⟨trivial, .inr ⟨hsep, buckets, rfl, hholds⟩⟩
  | cons key keys ih =>
    unfold placeKeys
    rw [slot_of_lt hm, Outcome.ok_bind]
    by_cases hlt : index m seed key < 256
    · rw [dif_pos hlt]
      have hempty := empty_iff hholds hsep hlt
      by_cases hfree : buckets ⟨index m seed key, hlt⟩ = -1
      · rw [if_neg (not_not.mpr hfree)]
        have hsep' := hempty.mp hfree
        have hinside : Inside (index m seed) placed (key :: keys) ↔
            Inside (index m seed) (placed ++ [key]) keys := by
          rw [inside_cons, and_iff_right hlt, forall_prop_of_true hsep']
        have happend : placed ++ key :: keys = placed ++ [key] ++ keys := by simp
        rw [hinside, happend]
        exact ih (hholds.put hlt) hsep'
      · rw [if_pos hfree]
        have hcollides : ¬ Separated (index m seed) (placed ++ [key]) :=
          fun h => hfree (hempty.mpr h)
        refine .inr ⟨⟨hlt, fun h => absurd h hcollides⟩, .inl ⟨fun hall => ?_, rfl⟩⟩
        apply hcollides
        have happend : placed ++ key :: keys = placed ++ [key] ++ keys := by simp
        rw [happend] at hall
        exact (List.pairwise_append.mp hall).1
    · rw [dif_neg hlt]
      exact .inl ⟨fun h => hlt h.1, rfl⟩

/-- The seed is tried without leaving the array, and two keys collide. -/
def Loses (m : ℕ) (keys : List UInt32) (seed : UInt32) : Prop :=
  Inside (index m seed) [] keys ∧ ¬ Separated (index m seed) keys

/-- The first seed that separates the keys, when the search comes to it. -/
structure Wins (m : ℕ) (keys : List UInt32) (seed : UInt32) : Prop where
  positive : 1 ≤ seed
  tried : seed.toNat < maxSeed keys.length
  inside : Inside (index m seed) [] keys
  separated : Separated (index m seed) keys
  first : ∀ s < seed, 1 ≤ s → Loses m keys s

theorem Wins.not_loses (h : Wins m keys seed) : ¬ Loses m keys seed := fun hloses =>
  hloses.2 h.separated

/-- Only the first seed that does not lose can win. -/
theorem Wins.eq_of_not_loses {s : UInt32} (h : Wins m keys s) (hpos : 1 ≤ seed)
    (hprev : ∀ s < seed, 1 ≤ s → Loses m keys s) (hseed : ¬ Loses m keys seed) : s = seed := by
  rcases Nat.lt_trichotomy s.toNat seed.toNat with hlt | heq | hlt
  · exact absurd (hprev s (UInt32.lt_iff_toNat_lt.mpr hlt) h.positive) h.not_loses
  · exact UInt32.toNat_inj.mp heq
  · exact absurd (h.first seed (UInt32.lt_iff_toNat_lt.mpr hlt) hpos) hseed

/-- The search stops at the first seed that does not lose. -/
theorem searchSeed_cases (hm : m < 2 ^ 32) {left : ℕ}
    (hleft : seed.toNat + left = maxSeed keys.length) (hpos : 1 ≤ seed)
    (hprev : ∀ s < seed, 1 ≤ s → Loses m keys s) :
    (searchSeed m keys left seed = .trap .outOfBounds ∧ (∀ s, ¬ Wins m keys s) ∧
        ∃ s, 1 ≤ s ∧ s.toNat < maxSeed keys.length ∧ ¬ Loses m keys s) ∨
      (∃ s buckets, searchSeed m keys left seed = .ok (some (s, buckets)) ∧ Wins m keys s ∧
        Holds (index m s) keys buckets) ∨
      searchSeed m keys left seed = .ok none ∧
        ∀ s, 1 ≤ s → s.toNat < maxSeed keys.length → Loses m keys s := by
  induction left generalizing seed with
  | zero =>
    refine .inr (.inr ⟨rfl, fun s hs htried => hprev s ?_ hs⟩)
    exact UInt32.lt_iff_toNat_lt.mpr (by omega)
  | succ left ih =>
    unfold searchSeed
    have hempty : Holds (index m seed) [] fun _ => -1 := holds_nil (index m seed)
    rcases placeKeys_cases hm hempty List.Pairwise.nil with
      ⟨hout, hrun⟩ | ⟨hinside, ⟨hcollide, hrun⟩ | ⟨hsep, buckets, hrun, hholds⟩⟩
    · have hloses : ¬ Loses m keys seed := fun h => hout h.1
      rw [hrun]
      refine .inl ⟨rfl, fun s hwins => ?_, seed, hpos, by omega, hloses⟩
      rw [hwins.eq_of_not_loses hpos hprev hloses] at hwins
      exact hout hwins.inside
    · rw [hrun, Outcome.ok_bind]
      have hmax : maxSeed keys.length ≤ 10000 := by
        unfold maxSeed
        split_ifs <;> omega
      have hnext : (seed + 1).toNat = seed.toNat + 1 := by
        rw [UInt32.toNat_add]
        change (seed.toNat + 1) % 2 ^ 32 = _
        omega
      refine ih (by omega) (UInt32.le_iff_toNat_le.mpr ?_) fun s hs hs' => ?_
      · change 1 ≤ (seed + 1).toNat
        omega
      · rcases Nat.lt_or_ge s.toNat seed.toNat with hlt | hge
        · exact hprev s (UInt32.lt_iff_toNat_lt.mpr hlt) hs'
        · have hnat := UInt32.lt_iff_toNat_lt.mp hs
          obtain rfl : s = seed := UInt32.toNat_inj.mp (by omega)
          exact ⟨hinside, hcollide⟩
    · rw [hrun, Outcome.ok_bind]
      exact .inr (.inl ⟨seed, buckets, rfl, ⟨hpos, by omega, hinside, hsep, hprev⟩, hholds⟩)

end Search

section Lookup

variable {phf : Phf} {keys : List UInt32} {key : UInt32} {m : ℕ} {seed : UInt32} {buckets : Buckets}

/-- A lookup that finds a bucket finds its key in it. -/
theorem key_of_lookup {i : ℕ} (h : phf.lookup key = .ok (some i)) :
    ∃ hlt : i < 256, (phf.buckets ⟨i, hlt⟩).toUInt32 = key := by
  unfold Phf.lookup at h
  split_ifs at h with hseed
  · obtain ⟨j, hj, rfl⟩ := Option.map_eq_some_iff.mp (Outcome.ok.inj h)
    have hat := List.find?_some hj
    exact ⟨j.isLt, of_decide_eq_true hat⟩
  · obtain ⟨b, -, h⟩ := Outcome.bind_eq_ok.mp h
    split_ifs at h with hlt hkey
    · cases h
      exact ⟨hlt, hkey⟩
    · cases h
    · cases h

/-- Keys that are found are found at places of their own. -/
theorem exact_iff_finds : Exact keys phf ↔
    ∀ key, ∃ r, phf.lookup key = .ok r ∧ (r.isSome ↔ key ∈ keys) := by
  refine ⟨Exact.finds, fun hfinds => ⟨hfinds, fun key hkey key' hkey' hne heq => hne ?_⟩⟩
  obtain ⟨r, hr, hsome⟩ := hfinds key
  obtain ⟨i, rfl⟩ := Option.isSome_iff_exists.mp (hsome.mpr hkey)
  obtain ⟨hlt, hat⟩ := key_of_lookup hr
  obtain ⟨hlt', hat'⟩ := key_of_lookup (heq.symm.trans hr)
  exact hat.symm.trans hat'

/-- A table with a seed answers a key by its bucket. -/
theorem lookup_of_seed (hm : m < 2 ^ 32) (hm' : m ≠ 0) (hseed : seed ≠ 0)
    (hholds : Holds (index m seed) keys buckets) (key : UInt32) :
    ∃ r, Phf.lookup ⟨seed, m, buckets⟩ key = .ok r ∧
      (r.isSome ↔ index m seed key < 256 ∧
        (lastIn (index m seed) keys (index m seed key)).getD markerKey = key) := by
  unfold Phf.lookup
  rw [if_neg (by simp [hseed, hm']), slot_of_lt hm, Outcome.ok_bind]
  by_cases hlt : index m seed key < 256
  · have hcontent : (buckets ⟨index m seed key, hlt⟩).toUInt32 =
        (lastIn (index m seed) keys (index m seed key)).getD markerKey := by
      rw [hholds]
      cases lastIn (index m seed) keys (index m seed key) with
      | none => rfl
      | some k => exact UInt32.toUInt32_toInt32 k
    rw [dif_pos hlt]
    simp only [hcontent]
    by_cases hkey : (lastIn (index m seed) keys (index m seed key)).getD markerKey = key
    · rw [if_pos hkey]
      exact ⟨_, rfl, by simp [hlt, hkey]⟩
    · rw [if_neg hkey]
      exact ⟨_, rfl, by simp [hkey]⟩
  · rw [dif_neg hlt]
    exact ⟨_, rfl, by simp [hlt]⟩

/-- The marker is found exactly if it is in the list: it is the last key of its bucket, or another
key hides the empty bucket, or its bucket is outside the array. -/
def AnswersMarker (p : UInt32 → ℕ) (keys : List UInt32) : Prop :=
  (∃ s r, keys = s ++ markerKey :: r ∧ ∀ key ∈ r, p key ≠ p markerKey) ∨
    markerKey ∉ keys ∧ (256 ≤ p markerKey ∨ ∃ key ∈ keys, p key = p markerKey)

end Lookup

section Answers

variable {p : UInt32 → ℕ} {placed keys : List UInt32} {key : UInt32}

theorem lt_of_inside (hinside : Inside p placed keys) (hsep : Separated p (placed ++ keys)) :
    ∀ key ∈ keys, p key < 256 := by
  induction keys generalizing placed with
  | nil => exact List.forall_mem_nil _
  | cons key keys ih =>
    have happend : placed ++ key :: keys = placed ++ [key] ++ keys := by simp
    rw [happend] at hsep
    obtain ⟨hlt, hrest⟩ := inside_cons.mp hinside
    exact List.forall_mem_cons.mpr ⟨hlt, ih (hrest (List.pairwise_append.mp hsep).1) hsep⟩

theorem inside_of_forall (hlt : ∀ key ∈ keys, p key < 256) : Inside p placed keys := by
  induction keys generalizing placed with
  | nil => trivial
  | cons key keys ih =>
    obtain ⟨hkey, hrest⟩ := List.forall_mem_cons.mp hlt
    exact inside_cons.mpr ⟨hkey, fun _ => ih hrest⟩

theorem mem_of_lastIn {h : ℕ} (hlast : lastIn p keys h = some key) : key ∈ keys := by
  obtain ⟨-, s, r, rfl, -⟩ := lastIn_eq_some_iff.mp hlast
  simp

/-- Every key but the marker is found exactly if it is in the list. -/
theorem found_iff_mem (hsep : Separated p keys) (hlt : ∀ key ∈ keys, p key < 256)
    (hkey : key ≠ markerKey) :
    (p key < 256 ∧ (lastIn p keys (p key)).getD markerKey = key) ↔ key ∈ keys := by
  constructor
  · rintro ⟨-, hfound⟩
    cases hlast : lastIn p keys (p key) with
    | none =>
      rw [hlast] at hfound
      exact absurd hfound.symm hkey
    | some last =>
      rw [hlast] at hfound
      cases hfound
      exact mem_of_lastIn hlast
  · intro hmem
    obtain ⟨s, r, rfl⟩ := List.append_of_mem hmem
    have hlast : lastIn p (s ++ key :: r) (p key) = some key := by
      refine lastIn_eq_some_iff.mpr ⟨rfl, s, r, rfl, fun k hk heq => hkey ?_⟩
      have htail := (List.pairwise_append.mp hsep).2.1
      exact (List.pairwise_cons.mp htail).1 k hk heq.symm
    rw [hlast]
    exact ⟨hlt key hmem, rfl⟩

theorem marker_found_iff (hlt : ∀ key ∈ keys, p key < 256) :
    ((p markerKey < 256 ∧ (lastIn p keys (p markerKey)).getD markerKey = markerKey) ↔
      markerKey ∈ keys) ↔ AnswersMarker p keys := by
  unfold AnswersMarker
  by_cases hmem : markerKey ∈ keys
  · simp only [hmem, not_true_eq_false, false_and, or_false, iff_true]
    constructor
    · rintro ⟨-, hfound⟩
      cases hlast : lastIn p keys (p markerKey) with
      | none => exact absurd rfl (lastIn_eq_none_iff.mp hlast markerKey hmem)
      | some last =>
        rw [hlast] at hfound
        cases hfound
        exact (lastIn_eq_some_iff.mp hlast).2
    · intro hsplit
      rw [lastIn_eq_some_iff.mpr ⟨rfl, hsplit⟩]
      exact ⟨hlt markerKey hmem, rfl⟩
  · have hnot : ¬ ∃ s r, keys = s ++ markerKey :: r ∧ ∀ key ∈ r, p key ≠ p markerKey := by
      rintro ⟨s, r, rfl, -⟩
      exact hmem (by simp)
    simp only [hmem, hnot, not_false_eq_true, true_and, false_or, iff_false, not_and_or, not_lt]
    refine or_congr_right ?_
    cases hlast : lastIn p keys (p markerKey) with
    | none =>
      have hempty := lastIn_eq_none_iff.mp hlast
      simpa using hempty
    | some last =>
      have hlastmem := mem_of_lastIn hlast
      have hne : last ≠ markerKey := fun heq => hmem (heq ▸ hlastmem)
      simpa [hne] using ⟨last, hlastmem, (lastIn_eq_some_iff.mp hlast).1⟩

/-- A table with a seed that separates the keys is exact exactly if it is right about the marker. -/
theorem exact_of_seed_iff {m : ℕ} (hm : m < 2 ^ 32) (hm' : m ≠ 0) {seed : UInt32} (hseed : seed ≠ 0)
    {buckets : Buckets} (hholds : Holds (index m seed) keys buckets)
    (hinside : Inside (index m seed) [] keys) (hsep : Separated (index m seed) keys) :
    Exact keys ⟨seed, m, buckets⟩ ↔ AnswersMarker (index m seed) keys := by
  have hlt := lt_of_inside hinside hsep
  have hlookup := lookup_of_seed hm hm' hseed hholds
  rw [exact_iff_finds, ← marker_found_iff hlt]
  constructor
  · intro hfinds
    obtain ⟨r, hr, hmem⟩ := hfinds markerKey
    obtain ⟨r', hr', hfound⟩ := hlookup markerKey
    rw [hr] at hr'
    cases hr'
    rw [← hfound, hmem]
  · intro hmarker key
    obtain ⟨r, hr, hfound⟩ := hlookup key
    refine ⟨r, hr, ?_⟩
    rw [hfound]
    by_cases hkey : key = markerKey
    · subst hkey
      exact hmarker
    · exact found_iff_mem hsep hlt hkey

/-- The table without a seed finds what its first 256 places hold. -/
theorem lookup_of_order (keys : List UInt32) (m : ℕ) (key : UInt32) : ∃ r,
    Phf.lookup ⟨0, m, fun i => (keys[i]?.map UInt32.toInt32).getD (-1)⟩ key = .ok r ∧
      (r.isSome ↔ ∃ i < 256, keys[i]?.getD markerKey = key) := by
  have hcontent : ∀ i : ℕ, ((keys[i]?.map UInt32.toInt32).getD (-1)).toUInt32 =
      keys[i]?.getD markerKey := by
    intro i
    cases keys[i]? with
    | none => rfl
    | some k => exact UInt32.toUInt32_toInt32 k
  unfold Phf.lookup
  rw [if_pos (.inl rfl)]
  refine ⟨_, rfl, ?_⟩
  rw [Option.isSome_map, List.find?_isSome]
  constructor
  · rintro ⟨i, -, hi⟩
    exact ⟨i, i.isLt, (hcontent i).symm.trans (of_decide_eq_true hi)⟩
  · rintro ⟨i, hlt, hi⟩
    exact ⟨⟨i, hlt⟩, List.mem_finRange _, decide_eq_true ((hcontent i).trans hi)⟩

/-- The first 256 places hold the keys and no other, where an empty one holds the marker, exactly
if the keys fit into them, and the marker is one of them or no place is empty. -/
theorem places_iff (hnodup : keys.Nodup) :
    (∀ key, (∃ i < 256, keys[i]?.getD markerKey = key) ↔ key ∈ keys) ↔
      keys.length ≤ 256 ∧ (markerKey ∈ keys ∨ keys.length = 256) := by
  constructor
  · intro hmem
    have hfits : keys.length ≤ 256 := by
      by_contra hlong
      have hlast : 256 < keys.length := by omega
      obtain ⟨i, hi, heq⟩ := (hmem keys[256]).mpr (List.getElem_mem hlast)
      have hin : i < keys.length := by omega
      rw [List.getElem?_eq_getElem hin] at heq
      have hsame := (hnodup.getElem_inj_iff).mp heq
      omega
    refine ⟨hfits, ?_⟩
    by_cases hfull : keys.length = 256
    · exact .inr hfull
    · refine .inl ((hmem markerKey).mp ⟨keys.length, by omega, ?_⟩)
      rw [List.getElem?_eq_none (Nat.le_refl _)]
      rfl
  · rintro ⟨hfits, hmarker⟩ key
    constructor
    · rintro ⟨i, hi, rfl⟩
      by_cases hin : i < keys.length
      · rw [List.getElem?_eq_getElem hin]
        exact List.getElem_mem hin
      · rw [List.getElem?_eq_none (by omega)]
        have hshort : keys.length ≠ 256 := by omega
        exact hmarker.resolve_right hshort
    · intro hkey
      obtain ⟨i, hin, rfl⟩ := List.getElem_of_mem hkey
      refine ⟨i, by omega, ?_⟩
      rw [List.getElem?_eq_getElem hin]
      rfl

theorem exact_of_order_iff (hnodup : keys.Nodup) (m : ℕ) :
    Exact keys ⟨0, m, fun i => (keys[i]?.map UInt32.toInt32).getD (-1)⟩ ↔
      keys.length ≤ 256 ∧ (markerKey ∈ keys ∨ keys.length = 256) := by
  rw [exact_iff_finds, ← places_iff hnodup]
  constructor
  · intro hfinds key
    obtain ⟨r, hr, hsome⟩ := hfinds key
    obtain ⟨r', hr', hfound⟩ := lookup_of_order keys m key
    rw [hr] at hr'
    cases hr'
    rw [← hfound, hsome]
  · intro hmem key
    obtain ⟨r, hr, hfound⟩ := lookup_of_order keys m key
    exact ⟨r, hr, hfound.trans (hmem key)⟩

end Answers

/-! The table of a list. -/

/-- The number of buckets for `n` keys. -/
def width (n : ℕ) : ℕ :=
  if n = 0 then 1 else if n ≤ 5 then n * 4 else if n ≤ 10 then n * 3 else n * 2

variable {keys : List UInt32}

theorem bucketCountOf_of_lt {n : ℕ} (h : n < 2 ^ 31) : bucketCountOf n = .ok (width n) := by
  unfold bucketCountOf width mul usizeEnd
  split_ifs <;> first | rfl | omega

theorem width_pos (n : ℕ) : width n ≠ 0 := by
  unfold width
  split_ifs <;> omega

theorem width_lt {n : ℕ} (h : n < 2 ^ 31) : width n < 2 ^ 32 := by
  unfold width
  split_ifs <;> omega

/-- A list that is too long for its number of buckets to be cast has no table. -/
theorem generate_too_long (h : ¬ keys.length < 2 ^ 31) (phf : Phf) : generate keys ≠ .ok phf := by
  intro hok
  obtain ⟨m, hm, hsearch⟩ := Outcome.bind_eq_ok.mp hok
  obtain ⟨found, hfound, -⟩ := Outcome.bind_eq_ok.mp hsearch
  have hlong : 2 ^ 32 ≤ m := by
    unfold bucketCountOf at hm
    rw [if_neg (by omega), if_neg (by omega), if_neg (by omega), mul_eq_ok] at hm
    omega
  have htries : maxSeed keys.length - 1 = 998 + 1 := by
    unfold maxSeed
    rw [if_neg (by omega)]
  rw [htries] at hfound
  unfold searchSeed at hfound
  obtain ⟨placed, hplaced, -⟩ := Outcome.bind_eq_ok.mp hfound
  cases keys with
  | nil => simp at h
  | cons key keys =>
    unfold placeKeys at hplaced
    obtain ⟨b, hb, -⟩ := Outcome.bind_eq_ok.mp hplaced
    obtain ⟨cast, hcast, -⟩ := Outcome.bind_eq_ok.mp hb
    unfold intCast at hcast
    rw [if_neg (by omega)] at hcast
    cases hcast

/-- What `generate` returns for a list that is not too long. -/
theorem generate_cases (h : keys.length < 2 ^ 31) :
    (generate keys = .trap .outOfBounds ∧ (∀ s, ¬ Wins (width keys.length) keys s) ∧
        ∃ s, 1 ≤ s ∧ s.toNat < maxSeed keys.length ∧ ¬ Loses (width keys.length) keys s) ∨
      (∃ s buckets, generate keys = .ok ⟨s, width keys.length, buckets⟩ ∧
        Wins (width keys.length) keys s ∧ Holds (index (width keys.length) s) keys buckets) ∨
      generate keys = .ok ⟨0, width keys.length,
          fun i => (keys[i]?.map UInt32.toInt32).getD (-1)⟩ ∧
        ∀ s, 1 ≤ s → s.toNat < maxSeed keys.length → Loses (width keys.length) keys s := by
  have hpos : 1 ≤ maxSeed keys.length := by
    unfold maxSeed
    split_ifs <;> omega
  have hleft : (1 : UInt32).toNat + (maxSeed keys.length - 1) = maxSeed keys.length := by
    change 1 + _ = _
    omega
  unfold generate
  simp only [bucketCountOf_of_lt h, Outcome.ok_bind]
  have hprev : ∀ s < 1, 1 ≤ s → Loses (width keys.length) keys s := fun s hs hs' =>
    absurd (UInt32.le_iff_toNat_le.mp hs') (Nat.not_le.mpr (UInt32.lt_iff_toNat_lt.mp hs))
  rcases searchSeed_cases (width_lt h) hleft (UInt32.le_refl 1) hprev with
    ⟨hrun, hno⟩ | ⟨s, buckets, hrun, hwins, hholds⟩ | ⟨hrun, hall⟩
  · rw [hrun]
    exact .inl ⟨rfl, hno⟩
  · rw [hrun]
    exact .inr (.inl ⟨s, buckets, rfl, hwins, hholds⟩)
  · rw [hrun]
    exact .inr (.inr ⟨rfl, hall⟩)

/-- The list has a table that answers it exactly. -/
def Served (keys : List UInt32) : Prop := ∃ phf, generate keys = .ok phf ∧ Exact keys phf

/-- A seed separates the keys and the table is right about the marker; or no seed does, and the
keys fit into the array in their order. -/
def Servable (keys : List UInt32) : Prop :=
  keys.length < 2 ^ 31 ∧
    ((∃ seed, Wins (width keys.length) keys seed ∧
        AnswersMarker (index (width keys.length) seed) keys) ∨
      (∀ seed, 1 ≤ seed → seed.toNat < maxSeed keys.length →
          Loses (width keys.length) keys seed) ∧
        keys.length ≤ 256 ∧ (markerKey ∈ keys ∨ keys.length = 256))

/-- Every list of distinct keys, of any length, has an exact table exactly if it is servable. -/
theorem served_iff (keys : List UInt32) (hnodup : keys.Nodup) : Served keys ↔ Servable keys := by
  by_cases hlt : keys.length < 2 ^ 31
  swap
  · refine iff_of_false ?_ fun h => hlt h.1
    rintro ⟨phf, hgenerate, -⟩
    exact generate_too_long hlt phf hgenerate
  unfold Served Servable
  rw [and_iff_right hlt]
  rcases generate_cases hlt with
    ⟨hrun, hno, s, hs, htried, hloses⟩ | ⟨s, buckets, hrun, hwins, hholds⟩ | ⟨hrun, hall⟩
  · -- some seed leaves the array
    refine iff_of_false ?_ ?_
    · rintro ⟨phf, hgenerate, -⟩
      rw [hrun] at hgenerate
      cases hgenerate
    · rintro (⟨seed, hwins, -⟩ | ⟨hall, -⟩)
      · exact hno seed hwins
      · exact hloses (hall s hs htried)
  · have hseed : s ≠ 0 := by
      rintro rfl
      exact absurd hwins.positive (by decide)
    have hexact := exact_of_seed_iff (width_lt hlt) (width_pos _) hseed hholds hwins.inside
      hwins.separated
    constructor
    · rintro ⟨phf, hgenerate, hphf⟩
      rw [hrun] at hgenerate
      cases hgenerate
      exact .inl ⟨s, hwins, hexact.mp hphf⟩
    · rintro (⟨seed, hwins', hmarker⟩ | ⟨hall, -⟩)
      · obtain rfl := hwins'.eq_of_not_loses hwins.positive hwins.first hwins.not_loses
        exact ⟨_, hrun, hexact.mpr hmarker⟩
      · exact absurd (hall s hwins.positive hwins.tried) hwins.not_loses
  · have hexact := exact_of_order_iff hnodup (width keys.length)
    constructor
    · rintro ⟨phf, hgenerate, hphf⟩
      rw [hrun] at hgenerate
      cases hgenerate
      exact .inr ⟨hall, hexact.mp hphf⟩
    · rintro (⟨seed, hwins, -⟩ | ⟨-, hfits⟩)
      · exact absurd (hall seed hwins.positive hwins.tried) hwins.not_loses
      · exact ⟨_, hrun, hexact.mpr hfits⟩

/-- Five routes whose table is right about the marker. -/
theorem served_routes : Served [13, 7932, 15851, 23770, 31689] := by
  apply (served_iff _ (by decide)).mpr
  refine ⟨by decide, .inl ⟨1, ?_, .inr ⟨by decide, .inr (by decide)⟩⟩⟩
  constructor
  · exact UInt32.le_refl 1
  · decide
  · have hwidth : width 5 < 256 := by decide
    have hpos : 0 < width 5 := by decide
    exact inside_of_forall fun key _ => (Nat.mod_lt _ hpos).trans hwidth
  · unfold Separated
    decide
  · intro s hs hs'
    exact absurd (UInt32.le_iff_toNat_le.mp hs') (Nat.not_le.mpr (UInt32.lt_iff_toNat_lt.mp hs))

/-- One key too many for an array of 256 slots: the first key goes to bucket 257 of 258. -/
def manyKeys : List UInt32 := 1164 :: (List.range 128).map UInt32.ofNat

theorem nodup_manyKeys : manyKeys.Nodup := by
  unfold manyKeys
  rw [List.nodup_cons]
  constructor
  · decide
  · refine List.Nodup.map_on ?_ List.nodup_range
    intro i hi j hj heq
    have hi' := List.mem_range.mp hi
    have hj' := List.mem_range.mp hj
    have hnat := congrArg UInt32.toNat heq
    rw [UInt32.toNat_ofNat', UInt32.toNat_ofNat'] at hnat
    omega

/-- The routes of the test have a table that finds a key which is none of them, and many keys have
no table. -/
theorem marker_found :
    ([2001, 3002, 5003, 7004, 11005] : List UInt32).Nodup ∧
      ¬ Served [2001, 3002, 5003, 7004, 11005] ∧ manyKeys.Nodup ∧ ¬ Served manyKeys := by
  refine ⟨by decide, ?_, nodup_manyKeys, ?_⟩
  · rintro ⟨phf, hgenerate, hexact⟩
    have hlookup : (generate [2001, 3002, 5003, 7004, 11005] >>= fun phf =>
        phf.lookup markerKey) = .ok (some 17) := by
      decide +kernel
    rw [hgenerate, Outcome.ok_bind] at hlookup
    obtain ⟨r, hr, hmem⟩ := hexact.finds markerKey
    rw [hlookup] at hr
    cases hr
    exact absurd (hmem.mp rfl) (by decide)
  · rintro ⟨phf, hgenerate, -⟩
    have hout : (generate manyKeys).isOkAnd (fun _ => true) = false := by
      decide +kernel
    rw [hgenerate] at hout
    cases hout

end LingNet.PhfGenerator
