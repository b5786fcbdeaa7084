import LingNet.Lib.Run
import LingNet.Lib.Tiling
import LingNet.Zig.Outcome

/-! The arenas of the V1 interface, over any sequence of calls and of writes of their caller into
the bytes that he holds. -/
namespace LingNet.V1
open Zig

inductive V1Error where
  | outOfMemory
  deriving DecidableEq, Repr

/-- Offsets are from the start of the buffer; the allocator beside it is never asked. -/
structure V1GqapArena where
  buf : ℕ → UInt8
  len : ℕ

structure V1Arena where
  size : ℕ
  offset : ℕ
  gqap : V1GqapArena

structure Region where
  start : ℕ
  len : ℕ
  deriving DecidableEq, Repr

/-- A page that the allocator delivers holds what it held before. -/
def V1GqapArena.init (page : Option (ℕ → UInt8)) : Outcome V1Error V1GqapArena :=
  match page with
  | some buf => .ok { buf := buf, len := 65536 }
  | none => .err .outOfMemory

/-- `object` says whether the allocator delivers the arena itself. -/
def createArena (object : Bool) (page : Option (ℕ → UInt8)) (size : ℕ) :
    Outcome V1Error V1Arena := do
  if object then
    let gqap ← V1GqapArena.init page
    pure { size := size, offset := 0, gqap := gqap }
  else .err .outOfMemory

namespace V1Arena

/-- The requested size is not looked at, only the length of the buffer. -/
def alloc (arena : V1Arena) (size : ℕ) : Outcome V1Error (Region × V1Arena) := do
  let stop ← add arena.offset size
  if arena.gqap.len < stop then .err .outOfMemory
  -- `buf[offset..]`
  else if arena.gqap.len < arena.offset then .trap .outOfBounds
  -- `[0..size]`
  else if arena.gqap.len - arena.offset < size then .trap .outOfBounds
  else
    let offset ← add arena.offset size
    pure (⟨arena.offset, size⟩, { arena with offset := offset })

/-- Bytes set to zero from the front on. -/
def clear (arena : V1Arena) (stop : ℕ) : V1Arena :=
  { arena with gqap := { arena.gqap with
      buf := fun i => if i < stop then 0 else arena.gqap.buf i } }

def reset (arena : V1Arena) : Outcome V1Error V1Arena :=
  if arena.gqap.len < arena.offset then .trap .outOfBounds
  else .ok { arena.clear arena.offset with offset := 0 }

def write (arena : V1Arena) (i : ℕ) (v : UInt8) : V1Arena :=
  { arena with gqap := { arena.gqap with
      buf := fun j => if j = i then v else arena.gqap.buf j } }

end V1Arena

def Region.bytes (r : Region) : Finset ℕ := Tiling.points Region.start Region.len r

/-- An arena in use: what was handed out since the last reset, the latest first, and what was
handed out at all. -/
structure Session where
  arena : V1Arena
  live : List Region
  given : List Region

def Session.start (arena : V1Arena) : Session := ⟨arena, [], []⟩

def Session.handed (s : Session) : ℕ := (s.live.map Region.len).sum

inductive Call where
  | alloc (size : ℕ)
  | reset
  | write (i : ℕ) (v : UInt8)
  deriving DecidableEq, Repr

/-- A trap leaves no next state. The caller writes where he holds a region. -/
def Session.step (s : Session) : Call → Option Session
  | .alloc size =>
    match s.arena.alloc size with
    | .ok (r, arena) => some ⟨arena, r :: s.live, r :: s.given⟩
    | .err _ => some s
    | .trap _ => none
  | .reset =>
    match s.arena.reset with
    | .ok arena => some ⟨arena, [], s.given⟩
    | .err _ => some s
    | .trap _ => none
  | .write i v =>
    if ∃ r ∈ s.live, i ∈ r.bytes then some { s with arena := s.arena.write i v } else none

def Session.Keeps (s : Session) : Call → Prop
  | .alloc size =>
    (∀ fault, s.arena.alloc size ≠ .trap fault) ∧
      ((∃ r, s.arena.alloc size = .ok r) ↔ size + s.handed ≤ s.arena.size) ∧
        ∀ r arena, s.arena.alloc size = .ok (r, arena) →
          r.len = size ∧ ∀ q ∈ s.live, Disjoint r.bytes q.bytes
  | .reset => ∃ arena, s.arena.reset = .ok arena ∧
      ∀ r ∈ s.given, ∀ i ∈ r.bytes, arena.gqap.buf i = 0
  | .write _ _ => True

/-- A request does not come to the end of the address space, and it is refused by the buffer
exactly if it is beyond the size that was asked for. -/
def Session.Agrees (s : Session) : Call → Prop
  | .alloc size => s.handed + size < usizeEnd ∧
      (s.handed + size ≤ 65536 ↔ s.handed + size ≤ s.arena.size)
  | .reset => True
  | .write _ _ => True

instance (s : Session) : DecidablePred s.Agrees := fun call =>
  match call with
  | .alloc _ => inferInstanceAs (Decidable (_ ∧ (_ ↔ _)))
  | .reset => inferInstanceAs (Decidable True)
  | .write _ _ => inferInstanceAs (Decidable True)

/-- The regions tile the front of the buffer, and what was handed out before is zero behind them. -/
structure Session.Tiled (size : ℕ) (s : Session) : Prop where
  size_eq : s.arena.size = size
  len_eq : s.arena.gqap.len = 65536
  tiles : Tiling.Tiles Region.start Region.len 0 s.live s.arena.offset
  offset_le : s.arena.offset ≤ 65536
  cleared : ∀ r ∈ s.given, ∀ i ∈ r.bytes, s.arena.offset ≤ i → s.arena.gqap.buf i = 0

section Step

variable {s s' : Session} {size : ℕ}

theorem Region.mem_bytes {r : Region} {i : ℕ} :
    i ∈ r.bytes ↔ r.start ≤ i ∧ i < r.start + r.len := Finset.mem_Ico

theorem Session.Tiled.handed_eq (h : s.Tiled size) : s.handed = s.arena.offset := by
  have htop := h.tiles.top_eq_sum
  rw [Nat.zero_add] at htop
  exact htop.symm

theorem Session.Tiled.alloc_eq (h : s.Tiled size) (n : ℕ) : s.arena.alloc n =
    if usizeEnd ≤ s.arena.offset + n then .trap .integerOverflow
    else if 65536 < s.arena.offset + n then .err .outOfMemory
    else .ok (⟨s.arena.offset, n⟩, { s.arena with offset := s.arena.offset + n }) := by
  have hlen := h.len_eq
  have hoffset := h.offset_le
  unfold V1Arena.alloc
  by_cases hend : usizeEnd ≤ s.arena.offset + n
  · have hadd : (add s.arena.offset n : Outcome V1Error ℕ) = .trap .integerOverflow :=
      if_neg (Nat.not_lt.mpr hend)
    rw [hadd, if_pos hend]
    rfl
  · have hadd : (add s.arena.offset n : Outcome V1Error ℕ) = .ok (s.arena.offset + n) :=
      if_pos (Nat.lt_of_not_le hend)
    rw [hadd, if_neg hend, Outcome.ok_bind, hlen]
    split_ifs with hfull
    · rfl
    · omega
    · omega
    · rfl

theorem Session.Tiled.reset_eq (h : s.Tiled size) :
    s.arena.reset = .ok { s.arena.clear s.arena.offset with offset := 0 } := by
  have hlen := h.len_eq
  have hoffset := h.offset_le
  exact if_neg (by omega)

/-- The regions of one epoch and the zeros behind them stay. -/
theorem Session.Tiled.step (h : s.Tiled size) {call : Call} (hstep : s.step call = some s') :
    s'.Tiled size := by
  cases call with
  | alloc n =>
    unfold Session.step at hstep
    simp only [h.alloc_eq n] at hstep
    split_ifs at hstep with hend hroom
    · cases hstep
      exact h
    · cases hstep
      have htiles := h.tiles.cons (x := (⟨s.arena.offset, n⟩ : Region)) rfl
      refine ⟨h.size_eq, h.len_eq, htiles, Nat.le_of_not_lt hroom, ?_⟩
      intro r hr i hi hle
      rcases List.mem_cons.mp hr with rfl | hold
      · have hbytes := Region.mem_bytes.mp hi
        dsimp only at hbytes hle
        omega
      · exact h.cleared r hold i hi (Nat.le_trans (Nat.le_add_right _ _) hle)
  | reset =>
    unfold Session.step at hstep
    simp only [h.reset_eq] at hstep
    cases hstep
    refine ⟨h.size_eq, h.len_eq, rfl, Nat.zero_le _, fun r hr i hi _ => ?_⟩
    show (if i < s.arena.offset then 0 else s.arena.gqap.buf i) = 0
    split_ifs with hlt
    · rfl
    · exact h.cleared r hr i hi (Nat.le_of_not_lt hlt)
  | write i v =>
    unfold Session.step at hstep
    dsimp only at hstep
    split_ifs at hstep with hheld
    cases hstep
    obtain ⟨q, hq, hi⟩ := hheld
    have hbounds := (h.tiles.bounds hq).2
    have hbytes := Region.mem_bytes.mp hi
    refine ⟨h.size_eq, h.len_eq, h.tiles, h.offset_le, fun r hr j hj hle => ?_⟩
    have hne : j ≠ i := by
      have hoffset : s.arena.offset ≤ j := hle
      omega
    show (if j = i then v else s.arena.gqap.buf j) = 0
    rw [if_neg hne]
    exact h.cleared r hr j hj hle

theorem Session.Tiled.disjoint_next (h : s.Tiled size) (n : ℕ) {q : Region} (hq : q ∈ s.live) :
    Disjoint (Region.bytes ⟨s.arena.offset, n⟩) q.bytes := by
  have hbounds := (h.tiles.bounds hq).2
  rw [Finset.disjoint_left]
  intro i hi hj
  have hnew := Region.mem_bytes.mp hi
  have hold := Region.mem_bytes.mp hj
  dsimp only at hnew
  omega

theorem Session.Tiled.keeps_iff (h : s.Tiled size) (call : Call) :
    s.Keeps call ↔ s.Agrees call := by
  cases call with
  | alloc n =>
    have hhanded := h.handed_eq
    have halloc := h.alloc_eq n
    unfold Session.Keeps Session.Agrees
    dsimp only
    rw [hhanded, h.size_eq, Nat.add_comm n]
    by_cases hend : usizeEnd ≤ s.arena.offset + n
    · rw [if_pos hend] at halloc
      exact ⟨fun hkeeps => absurd halloc (hkeeps.1 _), fun hagrees => by omega⟩
    have hlt : s.arena.offset + n < usizeEnd := Nat.lt_of_not_le hend
    rw [if_neg hend] at halloc
    by_cases hroom : 65536 < s.arena.offset + n
    · rw [if_pos hroom] at halloc
      have hfails : ¬ ∃ r, s.arena.alloc n = .ok r := by
        rw [halloc]
        simp
      rw [iff_false_left hfails, iff_false_left (Nat.not_le.mpr hroom)]
      refine ⟨fun hkeeps => ⟨hlt, hkeeps.2.1⟩, fun hagrees => ⟨?_, hagrees.2, ?_⟩⟩
      · intro fault
        rw [halloc]
        simp
      · intro r arena hr
        exact absurd ⟨_, hr⟩ hfails
    · rw [if_neg hroom] at halloc
      have hserves : ∃ r, s.arena.alloc n = .ok r := ⟨_, halloc⟩
      rw [iff_true_left hserves, iff_true_left (Nat.not_lt.mp hroom)]
      refine ⟨fun hkeeps => ⟨hlt, hkeeps.2.1⟩, fun hagrees => ⟨?_, hagrees.2, ?_⟩⟩
      · intro fault
        rw [halloc]
        simp
      · intro r arena hr
        rw [halloc] at hr
        cases hr
        exact ⟨rfl, fun q hq => h.disjoint_next n hq⟩
  | reset =>
    refine iff_of_true ⟨_, h.reset_eq, fun r hr i hi => ?_⟩ trivial
    show (if i < s.arena.offset then 0 else s.arena.gqap.buf i) = 0
    split_ifs with hlt
    · rfl
    · exact h.cleared r hr i hi (Nat.le_of_not_lt hlt)
  | write i v => exact Iff.rfl

end Step

theorem tiled_of_createArena {page : ℕ → UInt8} {size : ℕ} {arena : V1Arena}
    (h : createArena true (some page) size = .ok arena) : (Session.start arena).Tiled size := by
  cases h
  exact {
    size_eq := rfl
    len_eq := rfl
    tiles := rfl
    offset_le := Nat.zero_le _
    cleared := fun r hr => absurd hr List.not_mem_nil }

/-- An arena of the interface is what V1 promised on just those sequences where no request is
between its size and the 64 KiB of its buffer, or overflows. -/
theorem keeps_iff_agrees {page : ℕ → UInt8} {size : ℕ} {arena : V1Arena}
    (h : createArena true (some page) size = .ok arena) (calls : List Call) :
    Run.AllSteps Session.step Session.Keeps (.start arena) calls ↔
      Run.AllSteps Session.step Session.Agrees (.start arena) calls :=
  Run.allSteps_congr (I := Session.Tiled size) (fun _ call ht => ht.keeps_iff call)
    (fun _ _ _ ht _ hstep => ht.step hstep) (tiled_of_createArena h)

def patterned (size : ℕ) : V1Arena := ⟨size, 0, ⟨fun _ => 0xaa, 65536⟩⟩

theorem keeps_iff_agrees_default :
    Run.AllSteps Session.step Session.Keeps (.start (patterned 65536))
      [.alloc 256, .write 3 1, .alloc 65281, .reset, .alloc 65536] := by
  have hcreate : createArena true (some fun _ => 0xaa) 65536 = .ok (patterned 65536) := rfl
  exact (keeps_iff_agrees hcreate _).mpr (by decide)

/-- The example of the migration guide: an arena of one MiB refuses 64 KiB and a byte. -/
theorem mebibyte_refused : createArena true (some fun _ => 0xaa) (1024 * 1024) =
      .ok (patterned (1024 * 1024)) ∧
    ¬ Run.AllSteps Session.step Session.Keeps (.start (patterned (1024 * 1024)))
      [.alloc 65537] := by
  have hcreate : createArena true (some fun _ => 0xaa) (1024 * 1024) =
      .ok (patterned (1024 * 1024)) := rfl
  refine ⟨hcreate, fun hkeeps => ?_⟩
  have halloc := (tiled_of_createArena hcreate).alloc_eq 65537
  have hserves := hkeeps.1.2.1.mpr (by decide)
  rw [halloc, if_neg (by decide), if_pos (by decide)] at hserves
  obtain ⟨r, hr⟩ := hserves
  cases hr

end LingNet.V1
