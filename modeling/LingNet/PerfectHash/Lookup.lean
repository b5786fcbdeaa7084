import LingNet.Lib.Displace
import LingNet.PerfectHash.Build

/-! What a map that was built answers: every key of the list finds its own value, and no key at
all is turned away. -/
namespace LingNet.PerfectHash
open Zig

variable {K V ε : Type} [IntKey K] {numBuckets tableSize : ℕ}

/-! The loops over keys that can be cast compute what the pure hashes say. -/

theorem hash1_of_castable {key : K} (h : Castable key) (hpos : 0 < numBuckets) :
    (hash1 hpos key : Outcome ε _) = .ok (bucketOf hpos (word key)) := by
  unfold hash1 castKey
  rw [if_pos h]
  rfl

theorem hash2_of_castable {key : K} (h : Castable key) (hpos : 0 < tableSize) (seed : Seed) :
    (hash2 hpos key seed : Outcome ε _) = .ok (slotOf hpos seed (word key)) := by
  unfold hash2 castKey
  rw [if_pos h]
  rfl

theorem castable_of_hash1 {hpos : 0 < numBuckets} {key : K} {b : Fin numBuckets}
    (h : (hash1 hpos key : Outcome ε _) = .ok b) : Castable key := by
  by_contra hno
  unfold hash1 castKey at h
  rw [if_neg hno] at h
  cases h

theorem foldlM_countBuckets_eq_ok {hpos : 0 < numBuckets} {items : List (BucketItem K V)}
    {start counts : Fin numBuckets → ℕ}
    (h : items.foldlM (fun counts item => do
      let b ← hash1 hpos item.key
      pure (Function.update counts b (counts b + 1))) start = (.ok counts : Outcome ε _)) :
    (∀ item ∈ items, Castable item.key) ∧
      ∀ b, counts b = start b + items.countP fun item => bucketOf hpos (word item.key) = b := by
  induction items generalizing start with
  | nil =>
    cases h
    exact ⟨List.forall_mem_nil _, fun b => rfl⟩
  | cons item items ih =>
    rw [List.foldlM_cons] at h
    obtain ⟨start', hitem, hrest⟩ := Outcome.bind_eq_ok.mp h
    obtain ⟨b, hb, hupdate⟩ := Outcome.bind_eq_ok.mp hitem
    have hcast := castable_of_hash1 hb
    rw [hash1_of_castable hcast] at hb
    cases hb
    cases hupdate
    obtain ⟨hall, hcounts⟩ := ih hrest
    constructor
    · exact List.forall_mem_cons.mpr ⟨hcast, hall⟩
    · intro b
      rw [hcounts b, List.countP_cons]
      by_cases hb : bucketOf hpos (word item.key) = b
      · subst hb
        simp only [Function.update_self, decide_true, if_true]
        omega
      · rw [Function.update_of_ne (Ne.symm hb)]
        simp [hb]

/-- The first loop counts the items of each bucket, and traps unless every key can be cast. -/
theorem countBuckets_eq_ok {hpos : 0 < numBuckets} {items : List (BucketItem K V)}
    {counts : Fin numBuckets → ℕ} (h : (countBuckets hpos items : Outcome ε _) = .ok counts) :
    (∀ item ∈ items, Castable item.key) ∧
      ∀ b, counts b = items.countP fun item => bucketOf hpos (word item.key) = b := by
  obtain ⟨hcast, hcounts⟩ := foldlM_countBuckets_eq_ok h
  exact ⟨hcast, fun b => (hcounts b).trans (Nat.zero_add _)⟩

theorem bucketKeys_of_castable {items : List (BucketItem K V)}
    (hcast : ∀ item ∈ items, Castable item.key) (hpos : 0 < numBuckets) (b : Fin numBuckets) :
    (bucketKeys hpos b items : Outcome ε _) =
      .ok ((items.map BucketItem.key).filter fun key => bucketOf hpos (word key) = b) := by
  induction items with
  | nil => rfl
  | cons item items ih =>
    obtain ⟨hitem, hrest⟩ := List.forall_mem_cons.mp hcast
    unfold bucketKeys
    rw [hash1_of_castable hitem, ih hrest, Outcome.ok_bind, Outcome.ok_bind, Outcome.pure_eq,
      List.map_cons]
    by_cases hb : bucketOf hpos (word item.key) = b
    · rw [if_pos hb, List.filter_cons_of_pos (p := fun key => bucketOf hpos (word key) = b)
        (decide_eq_true hb)]
    · rw [if_neg hb, List.filter_cons_of_neg (p := fun key => bucketOf hpos (word key) = b)
        fun h => hb (of_decide_eq_true h)]

theorem clashes_of_castable {keys : List K} (hcast : ∀ key ∈ keys, Castable key)
    (hpos : 0 < tableSize) (seed : Seed) (slot : Fin tableSize) :
    ∃ clash, (clashes hpos seed slot keys : Outcome ε _) = .ok clash ∧
      (clash = false ↔ ∀ key ∈ keys, slot ≠ slotOf hpos seed (word key)) := by
  induction keys with
  | nil => exact ⟨false, rfl, by simp⟩
  | cons key keys ih =>
    obtain ⟨hkey, hrest⟩ := List.forall_mem_cons.mp hcast
    unfold clashes
    rw [hash2_of_castable hkey, Outcome.ok_bind]
    by_cases hslot : slot = slotOf hpos seed (word key)
    · rw [if_pos hslot]
      exact ⟨true, rfl, by simp [hslot]⟩
    · obtain ⟨clash, hclash, hfree⟩ := ih hrest
      rw [if_neg hslot]
      exact ⟨clash, hclash, by rw [hfree, List.forall_mem_cons, and_iff_right hslot]⟩

open Displace in
/-- The nested loops accept the seeds that send the keys to slots of their own. -/
theorem seedFits_of_castable {keys : List K} (hcast : ∀ key ∈ keys, Castable key)
    (hpos : 0 < tableSize) (used : Fin tableSize → Bool) (seed : Seed) :
    ∃ ok, (seedFits hpos used seed keys : Outcome ε _) = .ok ok ∧
      (ok = true ↔ Fits (fun key => slotOf hpos seed (word key)) used keys) := by
  induction keys with
  | nil => exact ⟨true, rfl, by simp [Fits.nil]⟩
  | cons key keys ih =>
    obtain ⟨hkey, hrest⟩ := List.forall_mem_cons.mp hcast
    obtain ⟨clash, hclash, hfree⟩ :=
      clashes_of_castable (ε := ε) hrest hpos seed (slotOf hpos seed (word key))
    obtain ⟨ok, hok, hfits⟩ := ih hrest
    unfold seedFits
    rw [hash2_of_castable hkey, Outcome.ok_bind, hclash, Outcome.ok_bind, hok, fits_cons, ← hfree,
      ← hfits]
    cases hused : used (slotOf hpos seed (word key)) with
    | true => exact ⟨false, rfl, by simp⟩
    | false =>
      cases clash with
      | true => exact ⟨false, rfl, by simp⟩
      | false => exact ⟨ok, rfl, by simp⟩

open Displace in
theorem fits_of_seedFits {keys : List K} (hcast : ∀ key ∈ keys, Castable key)
    {hpos : 0 < tableSize} {used : Fin tableSize → Bool} {seed : Seed}
    (h : (seedFits hpos used seed keys : Outcome ε _) = .ok true) :
    Fits (fun key => slotOf hpos seed (word key)) used keys := by
  obtain ⟨ok, hok, hfits⟩ := seedFits_of_castable (ε := ε) hcast hpos used seed
  rw [h] at hok
  cases hok
  exact hfits.mp rfl

theorem seedFits_of_findSeed {hpos : 0 < tableSize} {used : Fin tableSize → Bool} {keys : List K}
    {left : ℕ} {seedTry seed : Seed}
    (h : (findSeed hpos used keys left seedTry : Outcome ε _) = .ok (some seed)) :
    (seedFits hpos used seed keys : Outcome ε _) = .ok true := by
  induction left generalizing seedTry with
  | zero => cases h
  | succ left ih =>
    unfold findSeed at h
    obtain ⟨ok, hok, h⟩ := Outcome.bind_eq_ok.mp h
    cases ok with
    | false => exact ih h
    | true =>
      cases h
      exact hok

theorem markSlots_of_castable {keys : List K} (hcast : ∀ key ∈ keys, Castable key)
    (hpos : 0 < tableSize) (seed : Seed) (used : Fin tableSize → Bool) :
    (markSlots hpos seed used keys : Outcome ε _) =
      .ok (Displace.mark (fun key => slotOf hpos seed (word key)) used keys) := by
  unfold markSlots
  induction keys generalizing used with
  | nil => rfl
  | cons key keys ih =>
    obtain ⟨hkey, hrest⟩ := List.forall_mem_cons.mp hcast
    rw [List.foldlM_cons, hash2_of_castable hkey, Outcome.ok_bind, Outcome.pure_eq,
      Outcome.ok_bind, Displace.mark_cons]
    exact ih hrest _

theorem fill_of_castable {items : List (BucketItem K V)}
    (hcast : ∀ item ∈ items, Castable item.key) (hb : 0 < numBuckets) (ht : 0 < tableSize)
    (seeds : Fin numBuckets → Seed) (entries : Fin tableSize → V) :
    (fill hb ht seeds items entries : Outcome ε _) =
      .ok (items.foldl (fun entries item => Function.update entries
        (slotOf ht (seeds (bucketOf hb (word item.key))) (word item.key)) item.value) entries) := by
  unfold fill
  induction items generalizing entries with
  | nil => rfl
  | cons item items ih =>
    obtain ⟨hitem, hrest⟩ := List.forall_mem_cons.mp hcast
    rw [List.foldlM_cons, hash1_of_castable hitem, Outcome.ok_bind, hash2_of_castable hitem,
      Outcome.ok_bind, Outcome.pure_eq, Outcome.ok_bind, List.foldl_cons]
    exact ih hrest _

/-! The loop over the buckets keeps every placed key in a slot of its own. -/

section Placement
open Displace

variable {items : List (BucketItem K V)} {hb : 0 < numBuckets} {ht : 0 < tableSize}
  {owned : List Region}

/-- The keys of the list are placed but for the buckets outside `done`. -/
def KeysPlaced (hb : 0 < numBuckets) (ht : 0 < tableSize) (items : List (BucketItem K V))
    (done : List (Fin numBuckets)) (seeds : Fin numBuckets → Seed)
    (used : Fin tableSize → Bool) : Prop :=
  Placed (fun key => bucketOf hb (word key)) (fun seed key => slotOf ht seed (word key))
    (items.map BucketItem.key) done seeds used

theorem castable_keys (hcast : ∀ item ∈ items, Castable item.key) :
    ∀ key ∈ items.map BucketItem.key, Castable key := by
  intro key hkey
  obtain ⟨item, hitem, rfl⟩ := List.mem_map.mp hkey
  exact hcast item hitem

theorem placeBucket_eq_ok (hcast : ∀ item ∈ items, Castable item.key)
    {used : Fin tableSize → Bool} {b : Fin numBuckets} {placed : Seed × (Fin tableSize → Bool)}
    {a : Allocator} (h : (placeBucket hb ht items owned used b).result a = .ok placed) :
    ∃ keys, keys = (items.map BucketItem.key).filter (fun key => bucketOf hb (word key) = b) ∧
      Fits (fun key => slotOf ht placed.1 (word key)) used keys ∧
      placed.2 = mark (fun key => slotOf ht placed.1 (word key)) used keys := by
  unfold placeBucket at h
  obtain ⟨_, _, h⟩ := Proc.result_bind_eq_ok.mp h
  rw [Proc.result_defer] at h
  obtain ⟨keys, hkeys, h⟩ := Proc.result_lift_bind_eq_ok.mp h
  obtain ⟨found, hfound, h⟩ := Proc.result_lift_bind_eq_ok.mp h
  rw [bucketKeys_of_castable hcast] at hkeys
  cases hkeys
  have hin : ∀ key ∈ (items.map BucketItem.key).filter fun key => bucketOf hb (word key) = b,
      Castable key := fun key hkey => castable_keys hcast key (List.mem_of_mem_filter hkey)
  cases found with
  | none =>
    obtain ⟨_, _, h⟩ := Proc.result_bind_eq_ok.mp h
    cases h
  | some seed =>
    obtain ⟨used', hused, h⟩ := Proc.result_lift_bind_eq_ok.mp h
    rw [markSlots_of_castable hin] at hused
    cases hused
    cases h
    exact ⟨_, rfl, fits_of_seedFits hin (seedFits_of_findSeed hfound), rfl⟩

/-- One turn of the loop places one bucket. -/
theorem KeysPlaced.placeBucket (hcast : ∀ item ∈ items, Castable item.key)
    {done : List (Fin numBuckets)} {seeds : Fin numBuckets → Seed} {used : Fin tableSize → Bool}
    (hplaced : KeysPlaced hb ht items done seeds used) {b : Fin numBuckets} (hnew : b ∉ done)
    {placed : Seed × (Fin tableSize → Bool)} {a : Allocator}
    (h : (placeBucket hb ht items owned used b).result a = .ok placed) :
    KeysPlaced hb ht items (b :: done) (Function.update seeds b placed.1) placed.2 := by
  obtain ⟨keys, hkeys, hfits, hused⟩ := placeBucket_eq_ok hcast h
  subst hkeys
  rw [hused]
  exact Placed.place hplaced hnew hfits

/-- The whole loop places every bucket of the order. -/
theorem KeysPlaced.placeBuckets (hcast : ∀ item ∈ items, Castable item.key)
    {counts : Fin numBuckets → ℕ}
    (hcounts : ∀ b, counts b = items.countP fun item => bucketOf hb (word item.key) = b)
    {order done : List (Fin numBuckets)} (hnodup : order.Nodup) (hdisjoint : order.Disjoint done)
    {seeds seeds' : Fin numBuckets → Seed} {used : Fin tableSize → Bool}
    (hplaced : KeysPlaced hb ht items done seeds used) {a : Allocator}
    (h : (placeBuckets hb ht items owned counts order seeds used).result a = .ok seeds') :
    ∃ done' used', KeysPlaced hb ht items done' seeds' used' ∧ order ⊆ done' ∧ done ⊆ done' := by
  induction order generalizing done seeds used a with
  | nil =>
    cases h
    exact ⟨done, used, hplaced, List.nil_subset _, List.Subset.refl _⟩
  | cons b order ih =>
    obtain ⟨hb_order, hnodup⟩ := List.nodup_cons.mp hnodup
    obtain ⟨hb_done, hdisjoint⟩ := List.disjoint_cons_left.mp hdisjoint
    have hdisjoint' : order.Disjoint (b :: done) :=
      List.disjoint_cons_right.mpr ⟨hb_order, hdisjoint⟩
    unfold PerfectHash.placeBuckets at h
    split_ifs at h with hsize
    · have hempty : ∀ key ∈ items.map BucketItem.key, bucketOf hb (word key) ≠ b := by
        intro key hkey heq
        obtain ⟨item, hitem, rfl⟩ := List.mem_map.mp hkey
        rw [hcounts b, List.countP_eq_zero] at hsize
        exact hsize item hitem (decide_eq_true heq)
      obtain ⟨done', used', hdone', horder, hsub⟩ :=
        ih hnodup hdisjoint' (Placed.skip hplaced hb_done hempty 0) h
      obtain ⟨hb', hsub'⟩ := List.cons_subset.mp hsub
      exact ⟨done', used', hdone', List.cons_subset.mpr ⟨hb', horder⟩, hsub'⟩
    · obtain ⟨placed, hplace, h⟩ := Proc.result_bind_eq_ok.mp h
      obtain ⟨done', used', hdone', horder, hsub⟩ :=
        ih hnodup hdisjoint' (hplaced.placeBucket hcast hb_done hplace) h
      obtain ⟨hb', hsub'⟩ := List.cons_subset.mp hsub
      exact ⟨done', used', hdone', List.cons_subset.mpr ⟨hb', horder⟩, hsub'⟩

end Placement

/-! The map that was built. -/

variable {undef : ℕ → V} {items : List (BucketItem K V)} {a : Allocator} {map : PerfectHashMap K V}

/-- The order of the buckets leaves none out. -/
theorem mem_map_sortBuckets {n : ℕ} (counts : Fin n → ℕ) (b : Fin n) :
    b ∈ (List.finRange n).map (sortBuckets counts) := by
  refine List.mem_map.mpr ⟨(sortBuckets counts).symm b, List.mem_finRange _, ?_⟩
  exact Equiv.apply_symm_apply _ b

/-- What a build that returns a map has computed. -/
theorem build_eq_ok (h : (build undef items).result a = .ok map) :
    (items = [] ∧ map.numKeys = 0) ∨
      ∃ (hb : 0 < (items.length + 3) / 4)
        (ht : 0 < items.length + (items.length + 3) / 4) (owned : List Region) (a' : Allocator)
        (counts : Fin ((items.length + 3) / 4) → ℕ) (seeds : Fin ((items.length + 3) / 4) → Seed)
        (entries : Fin (items.length + (items.length + 3) / 4) → V)
        (regions : Option (Region × Region)),
        items.length ≠ 0 ∧ (countBuckets hb items : Outcome BuildError _) = .ok counts ∧
          (placeBuckets hb ht items owned counts ((List.finRange _).map (sortBuckets counts))
            (fun _ => 0) fun _ => false).result a' = .ok seeds ∧
          (fill hb ht seeds items fun i => undef i : Outcome BuildError _) = .ok entries ∧
          map = ⟨_, _, entries, seeds, items.length, regions, fun _ => ht, fun _ => hb⟩ := by
  unfold build at h
  simp only at h
  split_ifs at h with hn
  · cases h
    exact .inl ⟨List.length_eq_zero_iff.mp hn, rfl⟩
  · right
    obtain ⟨_, _, h⟩ := Proc.result_bind_eq_ok.mp h
    obtain ⟨_, _, h⟩ := Proc.result_bind_eq_ok.mp h
    obtain ⟨_, _, h⟩ := Proc.result_bind_eq_ok.mp h
    rw [Proc.result_defer] at h
    obtain ⟨counts, hcounts, h⟩ := Proc.result_lift_bind_eq_ok.mp h
    obtain ⟨_, _, h⟩ := Proc.result_bind_eq_ok.mp h
    rw [Proc.result_defer] at h
    obtain ⟨_, _, h⟩ := Proc.result_bind_eq_ok.mp h
    rw [Proc.result_defer] at h
    obtain ⟨seeds, hseeds, h⟩ := Proc.result_bind_eq_ok.mp h
    obtain ⟨entries, hentries, h⟩ := Proc.result_lift_bind_eq_ok.mp h
    cases h
    exact ⟨_, _, _, _, counts, seeds, entries, _, hn, hcounts, hseeds, hentries, rfl⟩

theorem numKeys_of_build (h : (build undef items).result a = .ok map) :
    map.numKeys = items.length := by
  rcases build_eq_ok h with ⟨rfl, hnum⟩ | ⟨_, _, _, _, _, _, _, _, _, _, _, _, rfl⟩
  · exact hnum
  · rfl

/-- The slot of every key of the list holds the key's value. -/
theorem slot_of_build (h : (build undef items).result a = .ok map) {item : BucketItem K V}
    (hitem : item ∈ items) :
    ∃ (hkeys : map.numKeys ≠ 0) (slot : Fin map.numEntries),
      map.slot hkeys item.key = .ok slot ∧ map.entries slot = item.value := by
  rcases build_eq_ok h with
    ⟨rfl, _⟩ | ⟨hb, ht, _, _, counts, seeds, _, _, hn, hcounts, hseeds, hentries, rfl⟩
  · cases hitem
  · obtain ⟨hcast, hcounts⟩ := countBuckets_eq_ok hcounts
    rw [fill_of_castable hcast] at hentries
    cases hentries
    have hnodup := (List.nodup_finRange ((items.length + 3) / 4)).map (sortBuckets counts).injective
    obtain ⟨done, used, hplaced, horder, _⟩ := KeysPlaced.placeBuckets hcast hcounts hnodup
      (List.disjoint_nil_right _) (Displace.Placed.init _ _ _) hseeds
    have hdone : ∀ b, b ∈ done := fun b => horder (mem_map_sortBuckets counts b)
    have hdistinct := List.pairwise_map.mp (hplaced.pairwise hdone)
    refine ⟨hn, _, ?_, Displace.foldl_update_of_pairwise hdistinct hitem _⟩
    have hkey := hcast item hitem
    unfold PerfectHashMap.slot
    rw [hash1_of_castable hkey, Outcome.ok_bind, hash2_of_castable hkey]
    rfl

/-! A list whose map answers a foreign key with the value of another key. -/

def fourKeys : List (BucketItem UInt32 UInt32) :=
  [⟨100, 1000⟩, ⟨200, 2000⟩, ⟨300, 3000⟩, ⟨400, 4000⟩]

theorem build_fourKeys :
    ∃ map, (build (fun _ => 0) fourKeys).result ⟨fun _ => false, 0, [], []⟩ = .ok map ∧
      map.get 999 = .ok (some 4000) := by
  have hrun : ((build (fun _ => 0) fourKeys).result ⟨fun _ => false, 0, [], []⟩).isOkAnd
      (fun map => map.get 999 = .ok (some 4000)) = true := by
    decide +kernel
  obtain ⟨map, hmap, hget⟩ := Outcome.exists_of_isOkAnd hrun
  exact ⟨map, hmap, of_decide_eq_true hget⟩

/-- Every key of the list is found with its own value. -/
theorem get_of_mem (h : (build undef items).result a = .ok map) (item : BucketItem K V)
    (hitem : item ∈ items) :
    map.get item.key = .ok (some item.value) ∧
      ∃ slot, map.getPtr item.key = .ok (some slot) ∧ map.entries slot = item.value := by
  obtain ⟨hkeys, slot, hslot, hvalue⟩ := slot_of_build h hitem
  unfold PerfectHashMap.get PerfectHashMap.getPtr
  rw [dif_neg hkeys, dif_neg hkeys, hslot]
  constructor
  · rw [Outcome.ok_bind, hvalue, Outcome.pure_eq]
  · exact ⟨slot, rfl, hvalue⟩

theorem get_fourKeys :
    ∃ map, (build (fun _ => 0) fourKeys).result ⟨fun _ => false, 0, [], []⟩ = .ok map ∧
      map.get 300 = .ok (some 3000) := by
  obtain ⟨map, hmap, _⟩ := build_fourKeys
  exact ⟨map, hmap, (get_of_mem hmap ⟨300, 3000⟩ (by decide)).1⟩

/-- A map with keys never answers that a key is absent. -/
theorem get_ne_none (hkeys : map.numKeys ≠ 0) (key : K) :
    map.get key ≠ .ok none ∧ map.getPtr key ≠ .ok none := by
  unfold PerfectHashMap.get PerfectHashMap.getPtr
  rw [dif_neg hkeys, dif_neg hkeys]
  constructor
  · intro h
    obtain ⟨_, _, h⟩ := Outcome.bind_eq_ok.mp h
    cases h
  · intro h
    obtain ⟨_, _, h⟩ := Outcome.bind_eq_ok.mp h
    cases h

/-- The map turns away every key outside the list exactly when the list is empty or leaves
out no key of its type. -/
theorem rejects_iff (h : (build undef items).result a = .ok map) :
    (∀ key, key ∉ items.map BucketItem.key → map.get key = .ok none ∧ map.getPtr key = .ok none) ↔
      items = [] ∨ ∀ key, key ∈ items.map BucketItem.key := by
  have hnum := numKeys_of_build h
  constructor
  · intro hreject
    by_cases hn : map.numKeys = 0
    · exact .inl (List.length_eq_zero_iff.mp (hnum.symm.trans hn))
    · right
      intro key
      by_contra hkey
      exact (get_ne_none hn key).1 (hreject key hkey).1
  · intro hcond key hkey
    rcases hcond with rfl | hall
    · have hn : map.numKeys = 0 := hnum
      unfold PerfectHashMap.get PerfectHashMap.getPtr
      rw [dif_pos hn, dif_pos hn]
      exact ⟨rfl, rfl⟩
    · exact absurd (hall key) hkey

theorem rejects_empty :
    ∃ map : PerfectHashMap UInt32 UInt32,
      (build (fun _ => 0) []).result ⟨fun _ => false, 0, [], []⟩ = .ok map ∧
        map.get 1 = .ok none := by
  have hbuild : ∃ map : PerfectHashMap UInt32 UInt32,
      (build (fun _ => 0) []).result ⟨fun _ => false, 0, [], []⟩ = .ok map := ⟨_, rfl⟩
  obtain ⟨map, hmap⟩ := hbuild
  exact ⟨map, hmap, ((rejects_iff hmap).mpr (.inl rfl) 1 List.not_mem_nil).1⟩

/-- A key that is not in the list is answered with the value of another key. -/
theorem foreign_key_answered :
    (fourKeys.map BucketItem.key).Nodup ∧ 999 ∉ fourKeys.map BucketItem.key ∧
      ∃ map, (build (fun _ => 0) fourKeys).result ⟨fun _ => false, 0, [], []⟩ = .ok map ∧
        map.get 999 = .ok (some 4000) := by
  exact ⟨by decide, by decide, build_fourKeys⟩

end LingNet.PerfectHash
