import LingNet.PerfectHash.Lookup

/-! What a build does with its memory: the regions of the map and those of the build itself. -/
namespace LingNet.PerfectHash
open Zig Displace

variable {K V ε : Type} [IntKey K] {numBuckets tableSize : ℕ}

/-- A slice of length zero has no region, and `free` does nothing with it. -/
def PerfectHashMap.deinit (map : PerfectHashMap K V) (a : Allocator) : Allocator :=
  match map.regions with
  | some (entries, seeds) => (a.free entries).free seeds
  | none => a

/-- The regions behind the slices of a map. -/
def PerfectHashMap.owned (map : PerfectHashMap K V) : List Region :=
  match map.regions with
  | some (entries, seeds) => [entries, seeds]
  | none => []

/-! The search for a seed. -/

/-- The first seed that fits, if the search comes to one. -/
structure FirstFit (p : Seed → Prop) (seed : Seed) : Prop where
  tried : seed.toNat < 1000000
  fits : p seed
  first : ∀ s < seed, ¬ p s

theorem FirstFit.unique {p : Seed → Prop} {seed seed' : Seed} (h : FirstFit p seed)
    (h' : FirstFit p seed') : seed = seed' := by
  rcases Nat.lt_trichotomy seed.toNat seed'.toNat with hlt | heq | hlt
  · exact absurd h.fits (h'.first seed (UInt32.lt_iff_toNat_lt.mpr hlt))
  · exact UInt32.toNat_inj.mp heq
  · exact absurd h'.fits (h.first seed' (UInt32.lt_iff_toNat_lt.mpr hlt))

theorem findSeed_from {keys : List K} (hcast : ∀ key ∈ keys, Castable key)
    (hpos : 0 < tableSize) (used : Fin tableSize → Bool) {left : ℕ} {seedTry : Seed}
    (hleft : seedTry.toNat + left = 1000000)
    (hprev : ∀ s < seedTry, ¬ Fits (fun key => slotOf hpos s (word key)) used keys) :
    (∃ seed, (findSeed hpos used keys left seedTry : Outcome ε _) = .ok (some seed) ∧
        FirstFit (fun s => Fits (fun key => slotOf hpos s (word key)) used keys) seed) ∨
      (findSeed hpos used keys left seedTry : Outcome ε _) = .ok none ∧
        ∀ seed, ¬ FirstFit (fun s => Fits (fun key => slotOf hpos s (word key)) used keys) seed := by
  induction left generalizing seedTry with
  | zero =>
    refine .inr ⟨rfl, fun seed hfirst => hprev seed ?_ hfirst.fits⟩
    have htried := hfirst.tried
    exact UInt32.lt_iff_toNat_lt.mpr (by omega)
  | succ left ih =>
    obtain ⟨ok, hok, hfits⟩ := seedFits_of_castable (ε := ε) hcast hpos used seedTry
    unfold findSeed
    rw [hok, Outcome.ok_bind]
    cases ok with
    | true => exact .inl ⟨seedTry, rfl, by omega, hfits.mp rfl, hprev⟩
    | false =>
      have hnext : (seedTry + 1).toNat = seedTry.toNat + 1 := by
        rw [UInt32.toNat_add]
        change (seedTry.toNat + 1) % 2 ^ 32 = _
        omega
      refine ih (by omega) fun s hs => ?_
      rcases Nat.lt_or_ge s.toNat seedTry.toNat with hlt | hge
      · exact hprev s (UInt32.lt_iff_toNat_lt.mpr hlt)
      · have hnat := UInt32.lt_iff_toNat_lt.mp hs
        obtain rfl : s = seedTry := UInt32.toNat_inj.mp (by omega)
        exact fun h => Bool.false_ne_true (hfits.mpr h)

/-- The search returns the first seed that fits, or nothing. -/
theorem findSeed_of_castable {keys : List K} (hcast : ∀ key ∈ keys, Castable key)
    (hpos : 0 < tableSize) (used : Fin tableSize → Bool) :
    (∃ seed, (findSeed hpos used keys 1000000 0 : Outcome ε _) = .ok (some seed) ∧
        FirstFit (fun s => Fits (fun key => slotOf hpos s (word key)) used keys) seed) ∨
      (findSeed hpos used keys 1000000 0 : Outcome ε _) = .ok none ∧
        ∀ seed, ¬ FirstFit (fun s => Fits (fun key => slotOf hpos s (word key)) used keys) seed :=
  findSeed_from hcast hpos used rfl fun _ hs => absurd hs UInt32.not_lt_zero

/-! The loop over the buckets. -/

/-- The keys of a bucket. -/
def keysOf (hb : 0 < numBuckets) (items : List (BucketItem K V)) (b : Fin numBuckets) : List K :=
  (items.map BucketItem.key).filter fun key => bucketOf hb (word key) = b

/-- `bucket_counts` -/
def sizes (hb : 0 < numBuckets) (items : List (BucketItem K V)) (b : Fin numBuckets) : ℕ :=
  items.countP fun item => bucketOf hb (word item.key) = b

/-- The buckets in the order in which they are placed, large ones first. -/
def placeOrder (hb : 0 < numBuckets) (items : List (BucketItem K V)) : List (Fin numBuckets) :=
  (List.finRange numBuckets).map (sortBuckets (sizes hb items))

/-- Each bucket in turn finds a seed that sends its keys to free slots. -/
def Seedable (hb : 0 < numBuckets) (ht : 0 < tableSize) (items : List (BucketItem K V)) :
    List (Fin numBuckets) → (Fin tableSize → Bool) → Prop
  | [], _ => True
  | b :: order, used => ∃ seed,
    FirstFit (fun s => Fits (fun key => slotOf ht s (word key)) used (keysOf hb items b)) seed ∧
      Seedable hb ht items order
        (mark (fun key => slotOf ht seed (word key)) used (keysOf hb items b))

section Loop

variable {items : List (BucketItem K V)} {hb : 0 < numBuckets} {ht : 0 < tableSize}
  {owned : List Region} {b : Fin numBuckets} {order : List (Fin numBuckets)}
  {used : Fin tableSize → Bool}

theorem keysOf_eq_nil (h : sizes hb items b = 0) : keysOf hb items b = [] := by
  unfold sizes at h
  rw [List.countP_eq_zero] at h
  unfold keysOf
  rw [List.filter_eq_nil_iff]
  intro key hkey
  obtain ⟨item, hitem, rfl⟩ := List.mem_map.mp hkey
  exact h item hitem

theorem seedable_cons : Seedable hb ht items (b :: order) used ↔ ∃ seed,
    FirstFit (fun s => Fits (fun key => slotOf ht s (word key)) used (keysOf hb items b)) seed ∧
      Seedable hb ht items order
        (mark (fun key => slotOf ht seed (word key)) used (keysOf hb items b)) := Iff.rfl

/-- An empty bucket takes the first seed and no slot. -/
theorem seedable_cons_of_empty (h : sizes hb items b = 0) :
    Seedable hb ht items (b :: order) used ↔ Seedable hb ht items order used := by
  rw [seedable_cons, keysOf_eq_nil h]
  constructor
  · rintro ⟨seed, -, hrest⟩
    exact hrest
  · intro hrest
    refine ⟨0, ⟨by decide, Fits.nil _ _, fun _ hs => absurd hs UInt32.not_lt_zero⟩, ?_⟩
    exact hrest

theorem seedable_cons_of_fit {seed : Seed}
    (h : FirstFit (fun s => Fits (fun key => slotOf ht s (word key)) used (keysOf hb items b)) seed) :
    Seedable hb ht items (b :: order) used ↔ Seedable hb ht items order
      (mark (fun key => slotOf ht seed (word key)) used (keysOf hb items b)) := by
  constructor
  · rintro ⟨seed', hfirst, hrest⟩
    rw [h.unique hfirst]
    exact hrest
  · exact fun hrest => ⟨seed, h, hrest⟩

/-- No seed sends two items of the same key to different slots. -/
theorem not_seedable_of_repeated {key : K} (hkey : [key, key].Sublist (keysOf hb items b))
    (hb' : b ∈ order) : ¬ Seedable hb ht items order used := by
  induction order generalizing used with
  | nil => cases hb'
  | cons b' order ih =>
    rintro ⟨seed, hfirst, hrest⟩
    rcases List.mem_cons.mp hb' with rfl | hmem
    · have hdistinct := hfirst.fits.distinct.sublist hkey
      simp at hdistinct
    · exact ih hmem hrest

theorem foldl_free (owned : List Region) (a : Allocator) :
    owned.foldl (fun a r => a.free r) a = { a with freed := a.freed ++ owned } := by
  induction owned generalizing a with
  | nil => simp
  | cons r owned ih =>
    rw [List.foldl_cons, ih]
    simp [Allocator.free]

/-- One turn of the loop: the keys get a region, which is given back in any case. -/
theorem placeBucket_run (hcast : ∀ item ∈ items, Castable item.key) (hb : 0 < numBuckets)
    (ht : 0 < tableSize) (owned : List Region) (b : Fin numBuckets) (used : Fin tableSize → Bool)
    (a : Allocator) :
    (a.fails a.requests = true ∧
        placeBucket hb ht items owned used b a = (.err .outOfMemory, a.refused)) ∨
      a.fails a.requests = false ∧
        ((∃ seed, FirstFit (fun s => Fits (fun key => slotOf ht s (word key)) used
              (keysOf hb items b)) seed ∧
            placeBucket hb ht items owned used b a =
              (.ok (seed, mark (fun key => slotOf ht seed (word key)) used (keysOf hb items b)),
                a.served.free a.requests)) ∨
          (∀ seed, ¬ FirstFit (fun s => Fits (fun key => slotOf ht s (word key)) used
              (keysOf hb items b)) seed) ∧
            placeBucket hb ht items owned used b a =
              (.err .chdFailed, { a.served with freed := a.freed ++ owned ++ [a.requests] })) := by
  cases hfails : a.fails a.requests with
  | true =>
    refine .inl ⟨rfl, ?_⟩
    unfold placeBucket
    exact Proc.bind_of_err (Allocator.alloc_of_fails hfails) _
  | false =>
    refine .inr ⟨rfl, ?_⟩
    have hin : ∀ key ∈ keysOf hb items b, Castable key := fun key hkey =>
      castable_keys hcast key (List.mem_of_mem_filter hkey)
    have hkeys : (bucketKeys hb b items : Outcome BuildError _) = .ok (keysOf hb items b) :=
      bucketKeys_of_castable hcast hb b
    unfold placeBucket
    rw [Proc.bind_of_ok (Allocator.alloc_of_serves hfails)]
    rcases findSeed_of_castable (ε := BuildError) hin ht used with
      ⟨seed, hfound, hfirst⟩ | ⟨hfound, hnone⟩
    · refine .inl ⟨seed, hfirst, Proc.defer_of_ok ?_⟩
      rw [Proc.lift_bind_of_ok hkeys, Proc.lift_bind_of_ok hfound]
      exact Proc.lift_bind_of_ok (markSlots_of_castable hin ht seed used) _ _
    · refine .inr ⟨hnone, ?_⟩
      have hfreed : { a.served with freed := a.freed ++ owned ++ [a.requests] } =
          Allocator.free a.requests { a.served with freed := a.freed ++ owned } := rfl
      rw [hfreed]
      refine Proc.defer_of_err ?_
      rw [Proc.lift_bind_of_ok hkeys, Proc.lift_bind_of_ok hfound]
      simp only
      rw [Proc.bind_of_ok (Proc.modify_run _ _), foldl_free]
      rfl

/-- The allocator after `k` regions, each handed out and given back before the next. -/
def borrowed (a : Allocator) (k : ℕ) : Allocator :=
  { a with
    requests := a.requests + k
    handed := a.handed ++ List.range' a.requests k
    freed := a.freed ++ List.range' a.requests k }

theorem borrowed_succ (a : Allocator) (k : ℕ) :
    borrowed a (k + 1) = borrowed (a.served.free a.requests) k := by
  unfold borrowed Allocator.free Allocator.served
  have hsum : a.requests + 1 + k = a.requests + (k + 1) := by omega
  rw [List.range'_succ]
  simp only [List.append_assoc, List.singleton_append, hsum]

theorem requests_served_free (a : Allocator) (r : Region) (k : ℕ) :
    (a.served.free r).requests + k = a.requests + (k + 1) := by
  show a.requests + 1 + k = _
  omega

/-- A request that is answered and `n` more that are. -/
theorem serves_succ {a : Allocator} {r : Region} {n : ℕ} (hserves : a.fails a.requests = false)
    (hall : ∀ k < n, a.fails ((a.served.free r).requests + k) = false) :
    ∀ k < n + 1, a.fails (a.requests + k) = false := by
  intro k hk
  cases k with
  | zero => exact hserves
  | succ k =>
    have hrest := hall k (by omega)
    rwa [requests_served_free] at hrest

/-- The number of requests of the loop. -/
def requestsOf (hb : 0 < numBuckets) (items : List (BucketItem K V))
    (order : List (Fin numBuckets)) : ℕ := order.countP fun b => sizes hb items b ≠ 0

theorem requestsOf_of_empty (h : sizes hb items b = 0) :
    requestsOf hb items (b :: order) = requestsOf hb items order := by
  unfold requestsOf
  rw [List.countP_cons_of_neg]
  simp [h]

theorem requestsOf_of_ne (h : sizes hb items b ≠ 0) :
    requestsOf hb items (b :: order) = requestsOf hb items order + 1 := by
  unfold requestsOf
  rw [List.countP_cons_of_pos]
  simp [h]

/-- The whole loop, from any allocator. A bucket without a seed frees what the caller gave to
the loop. -/
theorem placeBuckets_run (hcast : ∀ item ∈ items, Castable item.key) (hb : 0 < numBuckets)
    (ht : 0 < tableSize) (owned : List Region) (order : List (Fin numBuckets))
    (seeds : Fin numBuckets → Seed) (used : Fin tableSize → Bool) (a : Allocator) :
    ((∀ k < requestsOf hb items order, a.fails (a.requests + k) = false) ∧
        Seedable hb ht items order used ∧
          ∃ seeds', placeBuckets hb ht items owned (sizes hb items) order seeds used a =
            (.ok seeds', borrowed a (requestsOf hb items order))) ∨
      (∃ k < requestsOf hb items order, a.fails (a.requests + k) = true ∧
        placeBuckets hb ht items owned (sizes hb items) order seeds used a =
          (.err .outOfMemory, (borrowed a k).refused)) ∨
      ¬ Seedable hb ht items order used ∧
        ∃ k, placeBuckets hb ht items owned (sizes hb items) order seeds used a =
          (.err .chdFailed, { (borrowed a k).served with
            freed := (borrowed a k).freed ++ owned ++ [a.requests + k] }) := by
  induction order generalizing seeds used a with
  | nil => exact .inl ⟨nofun, trivial, seeds, by simp [placeBuckets, requestsOf, borrowed]⟩
  | cons b order ih =>
    unfold placeBuckets
    by_cases hsize : sizes hb items b = 0
    · rw [if_pos hsize, requestsOf_of_empty hsize, seedable_cons_of_empty hsize]
      exact ih _ _ a
    · rw [if_neg hsize, requestsOf_of_ne hsize]
      rcases placeBucket_run hcast hb ht owned b used a with
        ⟨hfails, hrun⟩ | ⟨hserves, ⟨seed, hfirst, hrun⟩ | ⟨hnone, hrun⟩⟩
      · right
        left
        refine ⟨0, Nat.succ_pos _, hfails, ?_⟩
        rw [Proc.bind_of_err hrun]
        simp [borrowed]
      · rw [Proc.bind_of_ok hrun, seedable_cons_of_fit hfirst]
        rcases ih (Function.update seeds b seed)
          (mark (fun key => slotOf ht seed (word key)) used (keysOf hb items b))
          (a.served.free a.requests) with
          ⟨hall, hseedable, seeds', hrest⟩ | ⟨k, hk, hfails, hrest⟩ | ⟨hno, k, hrest⟩
        · left
          refine ⟨serves_succ hserves hall, hseedable, seeds', ?_⟩
          rw [borrowed_succ]
          exact hrest
        · right
          left
          rw [requests_served_free] at hfails
          refine ⟨k + 1, by omega, hfails, ?_⟩
          rw [borrowed_succ]
          exact hrest
        · right
          right
          refine ⟨hno, k + 1, ?_⟩
          rw [borrowed_succ, ← requests_served_free a a.requests]
          exact hrest
      · right
        right
        refine ⟨?_, 0, ?_⟩
        · rintro ⟨seed, hfirst, -⟩
          exact hnone seed hfirst
        · rw [Proc.bind_of_err hrun]
          simp [borrowed, Allocator.served]

end Loop

/-! The exits of a build. -/

theorem foldlM_countBuckets_cases (hpos : 0 < numBuckets) (items : List (BucketItem K V))
    (start : Fin numBuckets → ℕ) :
    (∃ counts, items.foldlM (fun counts item => do
        let b ← hash1 hpos item.key
        pure (Function.update counts b (counts b + 1))) start = (.ok counts : Outcome ε _)) ∨
      (∃ item ∈ items, ¬ Castable item.key) ∧ items.foldlM (fun counts item => do
        let b ← hash1 hpos item.key
        pure (Function.update counts b (counts b + 1))) start =
          (.trap .integerCast : Outcome ε _) := by
  induction items generalizing start with
  | nil => exact .inl ⟨start, rfl⟩
  | cons item items ih =>
    rw [List.foldlM_cons]
    by_cases hcast : Castable item.key
    · rw [hash1_of_castable hcast, Outcome.ok_bind, Outcome.pure_eq, Outcome.ok_bind]
      rcases ih (Function.update start (bucketOf hpos (word item.key))
        (start (bucketOf hpos (word item.key)) + 1)) with hok | ⟨⟨bad, hmem, hbad⟩, htrap⟩
      · exact .inl hok
      · exact .inr ⟨⟨bad, List.mem_cons_of_mem _ hmem, hbad⟩, htrap⟩
    · refine .inr ⟨⟨item, List.mem_cons_self, hcast⟩, ?_⟩
      unfold hash1 castKey
      rw [if_neg hcast]
      rfl

theorem countBuckets_cases (hpos : 0 < numBuckets) (items : List (BucketItem K V)) :
    ((∀ item ∈ items, Castable item.key) ∧
        (countBuckets hpos items : Outcome ε _) = .ok (sizes hpos items)) ∨
      (∃ item ∈ items, ¬ Castable item.key) ∧
        (countBuckets hpos items : Outcome ε _) = .trap .integerCast := by
  rcases foldlM_countBuckets_cases (ε := ε) hpos items fun _ => 0 with ⟨counts, hok⟩ | htrap
  · obtain ⟨hcast, hcounts⟩ := countBuckets_eq_ok hok
    obtain rfl : counts = sizes hpos items := funext hcounts
    exact .inl ⟨hcast, hok⟩
  · exact .inr htrap

variable {undef : ℕ → V} {items : List (BucketItem K V)} {fails : ℕ → Bool}

/-- Each request of the build is answered, and each bucket finds a seed. -/
def Completes (fails : ℕ → Bool) (items : List (BucketItem K V)) : Prop :=
  ∃ (hb : 0 < (items.length + 3) / 4) (ht : 0 < items.length + (items.length + 3) / 4),
    (∀ k < 5 + requestsOf hb items (placeOrder hb items), fails k = false) ∧
      Seedable hb ht items (placeOrder hb items) fun _ => false

/-- The allocator after `k` requests, all of them answered. -/
def answered (fails : ℕ → Bool) : ℕ → Allocator
  | 0 => ⟨fails, 0, [], []⟩
  | k + 1 => (answered fails k).served

@[simp] theorem fails_answered (k : ℕ) : (answered fails k).fails = fails := by
  induction k with
  | zero => rfl
  | succ k ih => exact ih

@[simp] theorem requests_answered (k : ℕ) : (answered fails k).requests = k := by
  induction k with
  | zero => rfl
  | succ k ih => exact congrArg Nat.succ ih

@[simp] theorem handed_answered (k : ℕ) : (answered fails k).handed = List.range k := by
  induction k with
  | zero => rfl
  | succ k ih =>
    change (answered fails k).handed ++ [(answered fails k).requests] = _
    rw [ih, requests_answered, List.range_succ]

@[simp] theorem freed_answered (k : ℕ) : (answered fails k).freed = [] := by
  induction k with
  | zero => rfl
  | succ k ih => exact ih

theorem alloc_answered {e : ε} {k : ℕ} (h : fails k = false) :
    Allocator.alloc e (answered fails k) = (.ok k, answered fails (k + 1)) := by
  rw [Allocator.alloc_of_serves (by simpa using h), requests_answered]
  rfl

theorem alloc_refused {e : ε} {k : ℕ} (h : fails k = true) :
    Allocator.alloc e (answered fails k) = (.err e, (answered fails k).refused) :=
  Allocator.alloc_of_fails (by simpa using h)

theorem countBuckets_of_castable (hb : 0 < numBuckets) (hcast : ∀ item ∈ items, Castable item.key) :
    (countBuckets hb items : Outcome ε _) = .ok (sizes hb items) := by
  rcases countBuckets_cases (ε := ε) hb items with ⟨-, hok⟩ | ⟨⟨item, hitem, hbad⟩, -⟩
  · exact hok
  · exact absurd (hcast item hitem) hbad

section Exits

variable (hitems : items ≠ [])
include hitems

/-- The first request fails, and there is nothing to give back. -/
theorem build_of_first_refused (h0 : fails 0 = true) :
    build undef items (answered fails 0) = (.err .outOfMemory, (answered fails 0).refused) := by
  have hn : items.length ≠ 0 := fun h => hitems (List.length_eq_zero_iff.mp h)
  unfold build
  simp only
  rw [dif_neg hn]
  exact Proc.bind_of_err (alloc_refused h0) _

/-- A later request before the loop fails: what was deferred runs, and the entries are lost. -/
theorem build_of_refused {k : ℕ} (hk : k < 5) (hpos : 0 < k) (hserves : ∀ j < k, fails j = false)
    (hfails : fails k = true) (hcast : 2 < k → ∀ item ∈ items, Castable item.key) :
    ∃ a, build undef items (answered fails 0) = (.err .outOfMemory, a) ∧ 0 ∈ a.handed ∧
      0 ∉ a.freed := by
  have hn : items.length ≠ 0 := fun h => hitems (List.length_eq_zero_iff.mp h)
  have hb : 0 < (items.length + 3) / 4 := by omega
  have hcounts (h : 2 < k) : (countBuckets hb items : Outcome BuildError _) = _ :=
    countBuckets_of_castable hb (hcast h)
  unfold build
  simp only
  rw [dif_neg hn, Proc.bind_of_ok (alloc_answered (hserves 0 hpos))]
  rcases (show k = 1 ∨ k = 2 ∨ k = 3 ∨ k = 4 by omega) with rfl | rfl | rfl | rfl
  · exact ⟨_, Proc.bind_of_err (alloc_refused hfails) _, by simp [Allocator.refused]⟩
  · rw [Proc.bind_of_ok (alloc_answered (hserves 1 (by omega)))]
    exact ⟨_, Proc.bind_of_err (alloc_refused hfails) _, by simp [Allocator.refused]⟩
  · rw [Proc.bind_of_ok (alloc_answered (hserves 1 (by omega))),
      Proc.bind_of_ok (alloc_answered (hserves 2 (by omega)))]
    refine ⟨(answered fails 3).refused.free 2, Proc.defer_of_err ?_, ?_⟩
    · rw [Proc.lift_bind_of_ok (hcounts (by omega))]
      exact Proc.bind_of_err (alloc_refused hfails) _
    · simp [Allocator.refused, Allocator.free]
  · rw [Proc.bind_of_ok (alloc_answered (hserves 1 (by omega))),
      Proc.bind_of_ok (alloc_answered (hserves 2 (by omega)))]
    refine ⟨((answered fails 4).refused.free 3).free 2, Proc.defer_of_err ?_, ?_⟩
    · rw [Proc.lift_bind_of_ok (hcounts (by omega)),
        Proc.bind_of_ok (alloc_answered (hserves 3 (by omega)))]
      exact Proc.defer_of_err (Proc.bind_of_err (alloc_refused hfails) _)
    · simp [Allocator.refused, Allocator.free]

/-- A key that cannot be cast stops the process at the first loop. -/
theorem build_traps (hserves : ∀ k < 3, fails k = false)
    (hcast : ∃ item ∈ items, ¬ Castable item.key) :
    ∃ a, build undef items (answered fails 0) = (.trap .integerCast, a) := by
  have hn : items.length ≠ 0 := fun h => hitems (List.length_eq_zero_iff.mp h)
  have hb : 0 < (items.length + 3) / 4 := by omega
  rcases countBuckets_cases (ε := BuildError) hb items with ⟨hall, -⟩ | ⟨-, htrap⟩
  · obtain ⟨item, hitem, hbad⟩ := hcast
    exact absurd (hall item hitem) hbad
  · refine ⟨answered fails 3, ?_⟩
    unfold build
    simp only
    rw [dif_neg hn, Proc.bind_of_ok (alloc_answered (hserves 0 (by omega))),
      Proc.bind_of_ok (alloc_answered (hserves 1 (by omega))),
      Proc.bind_of_ok (alloc_answered (hserves 2 (by omega)))]
    refine Proc.defer_of_trap (Proc.bind_of_trap ?_ _)
    rw [htrap]
    rfl

/-- Past the five requests, what the loop over the buckets does decides, and three deferred frees
run after it. -/
theorem build_of_loop (undef : ℕ → V) (hserves : ∀ k < 5, fails k = false)
    (hcast : ∀ item ∈ items, Castable item.key) (hb : 0 < (items.length + 3) / 4)
    (ht : 0 < items.length + (items.length + 3) / 4) {a : Allocator}
    {r : Outcome BuildError (Fin ((items.length + 3) / 4) → Seed)}
    (hrun : placeBuckets hb ht items [4, 3, 1, 0] (sizes hb items) (placeOrder hb items)
      (fun _ => 0) (fun _ => false) (answered fails 5) = (r, a)) :
    (∀ seeds, r = .ok seeds → ∃ map, build undef items (answered fails 0) =
        (.ok map, ((a.free 4).free 3).free 2) ∧ map.owned = [0, 1]) ∧
      ∀ e, r = .err e →
        build undef items (answered fails 0) = (.err e, ((a.free 4).free 3).free 2) := by
  have hn : items.length ≠ 0 := fun h => hitems (List.length_eq_zero_iff.mp h)
  have hcounts : (countBuckets hb items : Outcome BuildError _) = _ :=
    countBuckets_of_castable hb hcast
  unfold build
  simp only
  rw [dif_neg hn, Proc.bind_of_ok (alloc_answered (hserves 0 (by omega))),
    Proc.bind_of_ok (alloc_answered (hserves 1 (by omega))),
    Proc.bind_of_ok (alloc_answered (hserves 2 (by omega)))]
  constructor
  · rintro seeds rfl
    obtain ⟨entries, hfill⟩ : ∃ entries, (fill hb ht seeds items fun i => undef i :
        Outcome BuildError _) = .ok entries := ⟨_, fill_of_castable hcast hb ht seeds _⟩
    refine ⟨⟨_, _, entries, seeds, items.length, some (0, 1), fun _ => ht, fun _ => hb⟩,
      Proc.defer_of_ok ?_, ?_⟩
    · rw [Proc.lift_bind_of_ok hcounts, Proc.bind_of_ok (alloc_answered (hserves 3 (by omega)))]
      refine Proc.defer_of_ok ?_
      rw [Proc.bind_of_ok (alloc_answered (hserves 4 (by omega)))]
      refine Proc.defer_of_ok ((Proc.bind_of_ok hrun _).trans ?_)
      exact Proc.lift_bind_of_ok hfill _ _
    · rfl
  · rintro e rfl
    refine Proc.defer_of_err ?_
    rw [Proc.lift_bind_of_ok hcounts, Proc.bind_of_ok (alloc_answered (hserves 3 (by omega)))]
    refine Proc.defer_of_err ?_
    rw [Proc.bind_of_ok (alloc_answered (hserves 4 (by omega)))]
    exact Proc.defer_of_err (Proc.bind_of_err hrun _)

end Exits

/-- On every exit each region is freed once or is owned by the map, and `deinit` frees what the map
owns. A trap is no exit. -/
def Releases (undef : ℕ → V) (items : List (BucketItem K V)) (fails : ℕ → Bool) : Prop :=
  match build undef items (answered fails 0) with
  | (.ok map, a) =>
    a.Settled map.owned ∧ (map.deinit a).freed = a.freed ++ map.owned ∧ (map.deinit a).Settled []
  | (.err _, a) => a.Settled []
  | (.trap _, _) => True

theorem releases_of_ok {map : PerfectHashMap K V} {a : Allocator}
    (hrun : build undef items (answered fails 0) = (.ok map, a)) (hsettled : a.Settled map.owned) :
    Releases undef items fails := by
  unfold Releases
  rw [hrun]
  have hdeinit : map.deinit a = { a with freed := a.freed ++ map.owned } := by
    unfold PerfectHashMap.deinit PerfectHashMap.owned
    cases map.regions with
    | none => simp
    | some regions => simp [Allocator.free]
  simp only
  rw [hdeinit]
  refine ⟨hsettled, rfl, fun r => ?_⟩
  rw [List.append_nil]
  exact hsettled r

theorem not_releases_of_err {e : BuildError} {a : Allocator} {r : Region}
    (hrun : build undef items (answered fails 0) = (.err e, a)) (hr : r ∈ a.handed)
    (hcount : a.freed.count r ≠ 1) : ¬ Releases undef items fails := by
  unfold Releases
  rw [hrun]
  intro h
  have hr' := h r
  rw [if_pos hr, List.append_nil] at hr'
  exact hcount hr'

/-- A request that fails after the first loses the entries. -/
theorem not_releases_of_refused (hitems : items ≠ []) (h0 : fails 0 = false) {n : ℕ} (hn : n ≤ 5)
    (hrefused : ∃ k, k < n ∧ fails k = true)
    (hcast : 3 < n → ∀ item ∈ items, Castable item.key) : ¬ Releases undef items fails := by
  obtain ⟨hlt, hfails⟩ := Nat.find_spec hrefused
  have hserves : ∀ j < Nat.find hrefused, fails j = false := by
    intro j hj
    by_contra htrue
    exact Nat.find_min hrefused hj ⟨by omega, by simpa using htrue⟩
  have hpos : 0 < Nat.find hrefused := by
    refine Nat.pos_of_ne_zero fun hzero => ?_
    rw [hzero, h0] at hfails
    cases hfails
  obtain ⟨a, hrun, hhanded, hlost⟩ := build_of_refused hitems (by omega) hpos
    hserves hfails fun h => hcast (by omega)
  apply not_releases_of_err hrun hhanded
  rw [List.count_eq_zero_of_not_mem hlost]
  decide

/-- There is nothing to build; or the first request fails; or a key stops the process; or nothing
fails. -/
def Undisturbed (items : List (BucketItem K V)) (fails : ℕ → Bool) : Prop :=
  items = [] ∨ fails 0 = true ∨
    ((∀ k < 3, fails k = false) ∧ ∃ item ∈ items, ¬ Castable item.key) ∨ Completes fails items

theorem releases_of_completes (hitems : items ≠ []) (hcast : ∀ item ∈ items, Castable item.key)
    (hcomplete : Completes fails items) : Releases undef items fails := by
  obtain ⟨hb, ht, hserves, hseedable⟩ := hcomplete
  have hloop := placeBuckets_run hcast hb ht [4, 3, 1, 0] (placeOrder hb items) (fun _ => 0)
    (fun _ => false) (answered fails 5)
  rcases hloop with ⟨-, -, seeds, hrun⟩ | ⟨k, hk, hfails, -⟩ | ⟨hno, -⟩
  · obtain ⟨map, hbuild, howned⟩ :=
      (build_of_loop hitems undef (fun k hk => hserves k (by omega)) hcast hb ht hrun).1 seeds rfl
    apply releases_of_ok hbuild
    have hhanded : List.range 5 ++ List.range' 5 (requestsOf hb items (placeOrder hb items)) =
        List.range (5 + requestsOf hb items (placeOrder hb items)) := by
      rw [List.range_eq_range', List.range_eq_range']
      exact List.range'_append_1
    apply Allocator.settled_of_perm
    · simp only [borrowed, Allocator.free, handed_answered, requests_answered, hhanded]
      exact List.nodup_range
    · simp only [borrowed, Allocator.free, handed_answered, requests_answered, freed_answered,
        howned, List.nil_append, List.append_assoc]
      exact List.perm_append_comm.trans (List.Perm.append_right _ (by decide))
  · rw [requests_answered, fails_answered] at hfails
    have hserved := hserves (5 + k) (by omega)
    rw [hfails] at hserved
    cases hserved
  · exact absurd hseedable hno

theorem not_releases_of_loop (hitems : items ≠ []) (hserves : ∀ k < 5, fails k = false)
    (hcast : ∀ item ∈ items, Castable item.key) (hincomplete : ¬ Completes fails items) :
    ¬ Releases undef items fails := by
  have hn : items.length ≠ 0 := fun h => hitems (List.length_eq_zero_iff.mp h)
  have hb : 0 < (items.length + 3) / 4 := by omega
  have ht : 0 < items.length + (items.length + 3) / 4 := by omega
  have hloop := placeBuckets_run hcast hb ht [4, 3, 1, 0] (placeOrder hb items) (fun _ => 0)
    (fun _ => false) (answered fails 5)
  rcases hloop with ⟨hall, hseedable, -⟩ | ⟨k, hk, hfails, hrun⟩ | ⟨hno, k, hrun⟩
  · refine absurd ⟨hb, ht, fun k hk => ?_, hseedable⟩ hincomplete
    rcases Nat.lt_or_ge k 5 with hlt | hge
    · exact hserves k hlt
    · obtain ⟨j, rfl⟩ := Nat.exists_eq_add_of_le hge
      have hserved := hall j (by omega)
      rw [requests_answered, fails_answered] at hserved
      exact hserved
  · -- the entries are lost
    have hbuild := (build_of_loop hitems undef hserves hcast hb ht hrun).2 _ rfl
    apply not_releases_of_err (r := 0) hbuild
    · simp [borrowed, Allocator.free, Allocator.refused]
    · have hlost : ∀ j < k, ¬ 0 = 5 + j := fun j _ => by omega
      simpa [borrowed, Allocator.free, Allocator.refused] using hlost
  · -- the slots are freed by the loop and by what was deferred
    have hbuild := (build_of_loop hitems undef hserves hcast hb ht hrun).2 _ rfl
    apply not_releases_of_err (r := 4) hbuild
    · simp [borrowed, Allocator.free, Allocator.served]
    · have hfirst : ¬ ∃ j < k, 4 = 5 + j := by
        rintro ⟨j, -, h⟩
        omega
      simp [borrowed, Allocator.free, Allocator.served, List.count_cons, hfirst]

theorem releases_nil (undef : ℕ → V) (fails : ℕ → Bool) :
    Releases undef ([] : List (BucketItem K V)) fails := by
  obtain ⟨map, hbuild, howned⟩ : ∃ map : PerfectHashMap K V,
      build undef [] (answered fails 0) = (.ok map, answered fails 0) ∧ map.owned = [] :=
    ⟨_, rfl, rfl⟩
  refine releases_of_ok hbuild fun r => ?_
  simp [howned]

/-- A build releases its memory exactly if it is undisturbed: for every list of items and every set
of requests that fail. -/
theorem releases_iff (undef : ℕ → V) (items : List (BucketItem K V)) (fails : ℕ → Bool) :
    Releases undef items fails ↔ Undisturbed items fails := by
  by_cases hitems : items = []
  · subst hitems
    exact iff_of_true (releases_nil undef fails) (.inl rfl)
  cases h0 : fails 0 with
  | true =>
    refine iff_of_true ?_ (.inr (.inl h0))
    unfold Releases
    rw [build_of_first_refused hitems h0]
    intro r
    simp [Allocator.refused]
  | false =>
    by_cases hserves : ∀ k < 3, fails k = false
    · by_cases hcast : ∀ item ∈ items, Castable item.key
      · by_cases hcomplete : Completes fails items
        · exact iff_of_true (releases_of_completes hitems hcast hcomplete)
            (.inr (.inr (.inr hcomplete)))
        · refine iff_of_false ?_ ?_
          · by_cases hfive : ∀ k < 5, fails k = false
            · exact not_releases_of_loop hitems hfive hcast hcomplete
            · refine not_releases_of_refused hitems h0 (Nat.le_refl 5) ?_ fun _ => hcast
              simpa using hfive
          · rintro (hnil | hfirst | ⟨-, item, hitem, hbad⟩ | hcomplete')
            · exact hitems hnil
            · rw [h0] at hfirst
              cases hfirst
            · exact hbad (hcast item hitem)
            · exact hcomplete hcomplete'
      · have hbad : ∃ item ∈ items, ¬ Castable item.key := by simpa using hcast
        obtain ⟨a, hrun⟩ := build_traps hitems hserves hbad
        refine iff_of_true ?_ (.inr (.inr (.inl ⟨hserves, hbad⟩)))
        unfold Releases
        rw [hrun]
        trivial
    · refine iff_of_false ?_ ?_
      · refine not_releases_of_refused hitems h0 (show 3 ≤ 5 by decide) ?_ fun h => absurd h (by omega)
        simpa using hserves
      · rintro (hnil | hfirst | ⟨hserves', -⟩ | ⟨_, _, hall, -⟩)
        · exact hitems hnil
        · rw [h0] at hfirst
          cases hfirst
        · exact hserves hserves'
        · exact hserves fun k hk => hall k (by omega)

/-- A list with a repeated key, and memory enough, ends with slots that are freed twice. -/
theorem not_releases_of_repeated (hserves : ∀ k < 5, fails k = false)
    (hcast : ∀ item ∈ items, Castable item.key) (hrepeated : ¬ (items.map BucketItem.key).Nodup) :
    ¬ Releases undef items fails := by
  have hitems : items ≠ [] := by
    rintro rfl
    exact hrepeated List.nodup_nil
  refine not_releases_of_loop hitems hserves hcast ?_
  rintro ⟨hb, ht, -, hseedable⟩
  rw [List.nodup_iff_sublist] at hrepeated
  obtain ⟨key, hkey⟩ := not_forall_not.mp hrepeated
  have hbucket : [key, key].Sublist (keysOf hb items (bucketOf hb (word key))) := by
    have hsub := hkey.filter
      fun k => decide (bucketOf hb (word k) = bucketOf hb (word key))
    simpa [keysOf] using hsub
  exact not_seedable_of_repeated hbucket (mem_map_sortBuckets (sizes hb items) _) hseedable

/-- The entries are lost when the request for the seeds fails, and a repeated key frees regions
twice. -/
theorem build_spoils :
    ¬ Releases (fun _ => 0) ([⟨100, 1000⟩] : List (BucketItem UInt32 UInt32)) (fun k => k = 1) ∧
      ¬ Releases (fun _ => 0) ([⟨1, 10⟩, ⟨1, 20⟩] : List (BucketItem UInt32 UInt32))
        fun _ => false := by
  constructor
  · intro h
    have hlost := h 0
    revert hlost
    decide
  · exact not_releases_of_repeated (fun _ _ => rfl) (by decide) (by decide)

end LingNet.PerfectHash
