import LingNet.Zig.Heap
import Mathlib.Data.List.FinRange
import Mathlib.Logic.Equiv.Basic

/-! The routing table: a perfect hash map built once by compress, hash and displace. Arrays of a
fixed length are functions on `Fin`, and a hash modulo a length is an index. -/
namespace LingNet.PerfectHash
open Zig

/-- An integer type as the key type `K`. -/
class IntKey (K : Type) where
  toInt : K → ℤ

instance : IntKey UInt32 := ⟨fun k => k.toNat⟩

abbrev Seed := UInt32

structure BucketItem (K V : Type) where
  key : K
  value : V
  deriving DecidableEq, Repr

/-- The slices of the map with the regions behind them; the map of an empty list has none. -/
structure PerfectHashMap (K V : Type) where
  numEntries : ℕ
  numSeeds : ℕ
  entries : Fin numEntries → V
  seeds : Fin numSeeds → Seed
  numKeys : ℕ
  regions : Option (Region × Region)
  entries_pos : numKeys ≠ 0 → 0 < numEntries
  seeds_pos : numKeys ≠ 0 → 0 < numSeeds

inductive BuildError where
  | outOfMemory
  | chdFailed
  deriving DecidableEq, Repr

variable {K V ε : Type} [IntKey K] {numBuckets tableSize : ℕ}

/-- The keys that `@intCast` to `u64` accepts. -/
def Castable (key : K) : Prop := 0 ≤ IntKey.toInt key ∧ IntKey.toInt key < 2 ^ 64

instance (key : K) : Decidable (Castable key) := inferInstanceAs (Decidable (_ ∧ _))

/-- The 64 bits of a key. -/
def word (key : K) : UInt64 := UInt64.ofInt (IntKey.toInt key)

def castKey (key : K) : Outcome ε UInt64 :=
  if Castable key then .ok (word key) else .trap .integerCast

/-- The bucket of a key's bits. -/
def bucketOf (hpos : 0 < numBuckets) (k : UInt64) : Fin numBuckets :=
  let h := (k * 0x9E3779B97F4A7C15) >>> 32
  ⟨h.toNat % numBuckets, Nat.mod_lt _ hpos⟩

/-- The slot that a seed gives to a key's bits. -/
def slotOf (hpos : 0 < tableSize) (seed : Seed) (k : UInt64) : Fin tableSize :=
  let mixed := k ^^^ (seed.toUInt64 <<< 32 ||| seed.toUInt64)
  let h := (mixed * 0x517CC1B727220A95) >>> 32
  ⟨h.toNat % tableSize, Nat.mod_lt _ hpos⟩

def hash1 (hpos : 0 < numBuckets) (key : K) : Outcome ε (Fin numBuckets) := do
  let k ← castKey key
  pure (bucketOf hpos k)

def hash2 (hpos : 0 < tableSize) (key : K) (seed : Seed) : Outcome ε (Fin tableSize) := do
  let k ← castKey key
  pure (slotOf hpos seed k)

/-! Compress. -/

/-- `bucket_counts` after the loop over the items. -/
def countBuckets (hpos : 0 < numBuckets) (items : List (BucketItem K V)) :
    Outcome ε (Fin numBuckets → ℕ) :=
  items.foldlM (fun counts item => do
    let b ← hash1 hpos item.key
    pure (Function.update counts b (counts b + 1))) fun _ => 0

/-! Hash. -/

/-- `max_idx` after the inner loop of the selection sort. -/
def maxIdx (counts : Fin numBuckets → ℕ) (order : Equiv.Perm (Fin numBuckets))
    (i : Fin numBuckets) : Fin numBuckets :=
  ((List.finRange numBuckets).filter fun j => i < j).foldl
    (fun m j => if counts (order m) < counts (order j) then j else m) i

/-- `bucket_order` after the selection sort. The array starts as the identity and changes by swaps
alone, so it is a permutation. -/
def sortBuckets (counts : Fin numBuckets → ℕ) : Equiv.Perm (Fin numBuckets) :=
  (List.finRange numBuckets).foldl
    (fun order i => (Equiv.swap i (maxIdx counts order i)).trans order) (Equiv.refl _)

/-- `bucket_keys`, the keys of one bucket in the order of the items. -/
def bucketKeys (hpos : 0 < numBuckets) (b : Fin numBuckets) :
    List (BucketItem K V) → Outcome ε (List K)
  | [] => pure []
  | item :: items => do
    let i ← hash1 hpos item.key
    let keys ← bucketKeys hpos b items
    pure (if i = b then item.key :: keys else keys)

/-- One of the keys goes to the slot. -/
def clashes (hpos : 0 < tableSize) (seed : Seed) (slot : Fin tableSize) :
    List K → Outcome ε Bool
  | [] => pure false
  | key :: keys => do
    let slotJ ← hash2 hpos key seed
    if slot = slotJ then pure true else clashes hpos seed slot keys

/-- `ok` for one seed. -/
def seedFits (hpos : 0 < tableSize) (used : Fin tableSize → Bool) (seed : Seed) :
    List K → Outcome ε Bool
  | [] => pure true
  | key :: keys => do
    let slotI ← hash2 hpos key seed
    if used slotI then pure false
    else
      let clash ← clashes hpos seed slotI keys
      if clash then pure false else seedFits hpos used seed keys

/-- The search for a seed, with the number of seeds left to try. -/
def findSeed (hpos : 0 < tableSize) (used : Fin tableSize → Bool) (keys : List K) :
    ℕ → Seed → Outcome ε (Option Seed)
  | 0, _ => pure none
  | left + 1, seedTry => do
    let ok ← seedFits hpos used seedTry keys
    if ok then pure (some seedTry) else findSeed hpos used keys left (seedTry + 1)

def markSlots (hpos : 0 < tableSize) (seed : Seed) (used : Fin tableSize → Bool)
    (keys : List K) : Outcome ε (Fin tableSize → Bool) :=
  keys.foldlM (fun used key => do
    let slot ← hash2 hpos key seed
    pure (Function.update used slot true)) used

/-- One turn of the loop over the buckets. When no seed is found, it frees what the caller
gave it in `owned` before it returns, and the deferred frees run all the same. -/
def placeBucket (hb : 0 < numBuckets) (ht : 0 < tableSize) (items : List (BucketItem K V))
    (owned : List Region) (used : Fin tableSize → Bool) (b : Fin numBuckets) :
    Proc Allocator BuildError (Seed × (Fin tableSize → Bool)) := do
  let keysRegion ← Allocator.alloc .outOfMemory
  Proc.defer (Allocator.free keysRegion) do
    let keys ← Proc.lift (bucketKeys hb b items)
    let found ← Proc.lift (findSeed ht used keys 1000000 0)
    match found with
    | none => do
      Proc.modify fun a => owned.foldl (fun a r => a.free r) a
      Proc.fail .chdFailed
    | some seed => do
      let used ← Proc.lift (markSlots ht seed used keys)
      pure (seed, used)

/-- The loop over the buckets. -/
def placeBuckets (hb : 0 < numBuckets) (ht : 0 < tableSize) (items : List (BucketItem K V))
    (owned : List Region) (counts : Fin numBuckets → ℕ) :
    List (Fin numBuckets) → (Fin numBuckets → Seed) → (Fin tableSize → Bool) →
      Proc Allocator BuildError (Fin numBuckets → Seed)
  | [], seeds, _ => pure seeds
  | b :: order, seeds, used =>
    if counts b = 0 then
      placeBuckets hb ht items owned counts order (Function.update seeds b 0) used
    else do
      let placed ← placeBucket hb ht items owned used b
      placeBuckets hb ht items owned counts order (Function.update seeds b placed.1) placed.2

/-! Displace. -/

def fill (hb : 0 < numBuckets) (ht : 0 < tableSize) (seeds : Fin numBuckets → Seed)
    (items : List (BucketItem K V)) (entries : Fin tableSize → V) :
    Outcome ε (Fin tableSize → V) :=
  items.foldlM (fun entries item => do
    let b ← hash1 hb item.key
    let slot ← hash2 ht item.key (seeds b)
    pure (Function.update entries slot item.value)) entries

/-- `undef` is what the new entries hold before they are written. -/
def build (undef : ℕ → V) (items : List (BucketItem K V)) :
    Proc Allocator BuildError (PerfectHashMap K V) :=
  let n := items.length
  if hn : n = 0 then
    pure ⟨0, 0, nofun, nofun, 0, none, fun h => absurd rfl h, fun h => absurd rfl h⟩
  else do
    let numBuckets := (n + 3) / 4
    have hb : 0 < numBuckets := by omega
    have ht : 0 < n + numBuckets := by omega
    let entriesRegion ← Allocator.alloc .outOfMemory
    let seedsRegion ← Allocator.alloc .outOfMemory
    let countsRegion ← Allocator.alloc .outOfMemory
    Proc.defer (Allocator.free countsRegion) do
      let counts ← Proc.lift (countBuckets hb items)
      let orderRegion ← Allocator.alloc .outOfMemory
      Proc.defer (Allocator.free orderRegion) do
        let order := sortBuckets counts
        let usedRegion ← Allocator.alloc .outOfMemory
        Proc.defer (Allocator.free usedRegion) do
          let seeds ← placeBuckets hb ht items
            [usedRegion, orderRegion, seedsRegion, entriesRegion] counts
            ((List.finRange numBuckets).map order) (fun _ => 0) (fun _ => false)
          let entries ← Proc.lift (fill hb ht seeds items fun i => undef i)
          pure ⟨n + numBuckets, numBuckets, entries, seeds, n,
            some (entriesRegion, seedsRegion), fun _ => ht, fun _ => hb⟩

/-! Lookup. -/

/-- The slot that both lookups go to. -/
def PerfectHashMap.slot (map : PerfectHashMap K V) (hkeys : map.numKeys ≠ 0) (key : K) :
    Outcome Empty (Fin map.numEntries) := do
  let b ← hash1 (map.seeds_pos hkeys) key
  hash2 (map.entries_pos hkeys) key (map.seeds b)

def PerfectHashMap.get (map : PerfectHashMap K V) (key : K) : Outcome Empty (Option V) :=
  if hkeys : map.numKeys = 0 then pure none
  else do
    let slot ← map.slot hkeys key
    pure (some (map.entries slot))

/-- The pointer is an index into the entries. -/
def PerfectHashMap.getPtr (map : PerfectHashMap K V) (key : K) :
    Outcome Empty (Option (Fin map.numEntries)) :=
  if hkeys : map.numKeys = 0 then pure none
  else do
    let slot ← map.slot hkeys key
    pure (some slot)

end LingNet.PerfectHash
