import Mathlib.Data.List.TakeDrop

/-! A byte stream that is read through a file descriptor: a read hands over at most what is asked
for, often less, and may fail. -/
namespace ByteStream

/-- What the kernel does at one read: it has so many bytes ready, at least one unless the stream
is over, or it reports an error number. -/
inductive Reply where
  | ready (n : ℕ)
  | error (errno : ℕ)
  deriving DecidableEq, Repr

/-- The bytes that were not read yet, and the replies to the reads by their number. -/
structure Source where
  incoming : List UInt8
  replies : ℕ → Reply
  reads : ℕ := 0

namespace Source

/-- The stream as the kernel splits it: read number `k` finds `ready k` bytes. -/
def split (incoming : List UInt8) (ready : ℕ → ℕ) : Source where
  incoming := incoming
  replies k := .ready (ready k)

/-- How many bytes a read of `count` bytes gets when `n` are ready. -/
def handed (count n : ℕ) : ℕ := min count (max n 1)

/-- A read of `count` bytes. -/
def read (count : ℕ) (s : Source) : Except ℕ (List UInt8) × Source :=
  match s.replies s.reads with
  | .ready n => (.ok (s.incoming.take (handed count n)),
      { s with incoming := s.incoming.drop (handed count n), reads := s.reads + 1 })
  | .error errno => (.error errno, { s with reads := s.reads + 1 })

section Ready

variable {s : Source} {n count : ℕ}

theorem handed_le (count n : ℕ) : handed count n ≤ count := Nat.min_le_left _ _

theorem handed_of_le (h : count ≤ n) : handed count n = count :=
  Nat.min_eq_left (Nat.le_trans h (Nat.le_max_left n 1))

theorem handed_one (n : ℕ) : handed 1 n = 1 := Nat.min_eq_left (Nat.le_max_right n 1)

theorem handed_pos (h : 0 < count) (n : ℕ) : 0 < handed count n :=
  Nat.lt_min.mpr ⟨h, Nat.lt_of_lt_of_le Nat.one_pos (Nat.le_max_right n 1)⟩

theorem handed_eq_self : handed count n = count ↔ count ≤ max n 1 := by
  unfold handed
  omega

theorem read_of_ready (h : s.replies s.reads = .ready n) (count : ℕ) :
    s.read count = (.ok (s.incoming.take (handed count n)),
      { s with incoming := s.incoming.drop (handed count n), reads := s.reads + 1 }) := by
  unfold read
  rw [h]

end Ready
end Source
end ByteStream
