import LingNet.Zig.Outcome
import Mathlib.Data.List.FinRange

/-! The perfect hash of the compile-time routing tables: a seed that gives the keys slots of their
own, or a table that is searched from its start. -/
namespace LingNet.PhfGenerator
open Zig

/-- The array of the table. A slot is empty if it holds `-1`. -/
abbrev Buckets := Fin 256 → Int32

structure Phf where
  seed : UInt32
  bucketCount : ℕ
  buckets : Buckets

/-- The loop of `hashU32`, with the number of bytes left. -/
def hashLoop : ℕ → UInt32 → UInt32 → UInt32
  | 0, h, _ => h
  | left + 1, h, k => hashLoop left ((h ^^^ (k &&& 0xFF)) * 16777619) (k >>> 8)

def hashU32 (key seed : UInt32) : UInt32 := hashLoop 4 seed key

/-- `hashU32(key, seed) % @as(u32, @intCast(m))` -/
def slot (m : ℕ) (seed key : UInt32) : Outcome Empty ℕ := do
  let m ← intCast 32 m
  pure ((hashU32 key seed).toNat % m)

/-- The loop over the keys for one seed; `none` when two of them collide. -/
def placeKeys (m : ℕ) (seed : UInt32) :
    List UInt32 → Buckets → Outcome Empty (Option Buckets)
  | [], buckets => pure (some buckets)
  | key :: keys, buckets => do
    let h ← slot m seed key
    if hlt : h < 256 then
      if buckets ⟨h, hlt⟩ ≠ -1 then pure none
      else placeKeys m seed keys (Function.update buckets ⟨h, hlt⟩ key.toInt32)
    else .trap .outOfBounds

/-- The loop over the seeds, with the number of seeds left to try. -/
def searchSeed (m : ℕ) (keys : List UInt32) :
    ℕ → UInt32 → Outcome Empty (Option (UInt32 × Buckets))
  | 0, _ => pure none
  | left + 1, seed => do
    match ← placeKeys m seed keys fun _ => -1 with
    | some buckets => pure (some (seed, buckets))
    | none => searchSeed m keys left (seed + 1)

/-- `m` -/
def bucketCountOf (n : ℕ) : Outcome Empty ℕ :=
  if n = 0 then pure 1
  else if n ≤ 5 then mul n 4
  else if n ≤ 10 then mul n 3
  else mul n 2

def maxSeed (n : ℕ) : ℕ := if n ≤ 10 then 10000 else 1000

def generate (keys : List UInt32) : Outcome Empty Phf := do
  let n := keys.length
  let m ← bucketCountOf n
  match ← searchSeed m keys (maxSeed n - 1) 1 with
  | some (seed, buckets) => pure ⟨seed, m, buckets⟩
  -- the first 256 keys in their order
  | none => pure ⟨0, m, fun i => (keys[i]?.map UInt32.toInt32).getD (-1)⟩

def Phf.lookup (phf : Phf) (key : UInt32) : Outcome Empty (Option ℕ) :=
  if phf.seed = 0 ∨ phf.bucketCount = 0 then
    pure (((List.finRange 256).find? fun i => (phf.buckets i).toUInt32 = key).map Fin.val)
  else do
    let h ← slot phf.bucketCount phf.seed key
    if hlt : h < 256 then
      if (phf.buckets ⟨h, hlt⟩).toUInt32 = key then pure (some h) else pure none
    else pure none

end LingNet.PhfGenerator
