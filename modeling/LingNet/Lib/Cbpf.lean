import Mathlib.Data.List.Basic
import Mathlib.Tactic.Ring

/-! Classic BPF, as far as loads of words, equality jumps and returns. Jumps only go forward,
so fuel is no question, and a ladder of equality jumps is a membership test. -/
namespace Cbpf

/-- `struct sock_filter`. -/
structure Insn where
  code : UInt16
  jt : UInt8
  jf : UInt8
  k : UInt32
  deriving DecidableEq, Repr

/-- What one instruction does: go on, this many instructions further, or end the run. -/
inductive Effect where
  | next (skip : ℕ) (acc : UInt32)
  | ret (k : UInt32)
  | invalid

inductive Result where
  | ret (k : UInt32)
  /-- An unknown instruction, or a load outside the data. -/
  | invalid
  /-- The program counter left the program. -/
  | left
  | outOfFuel
  deriving DecidableEq, Repr

/-- `data` gives the words that `BPF_LD | BPF_W | BPF_ABS` can load. -/
def effect (data : UInt32 → Option UInt32) (acc : UInt32) (i : Insn) : Effect :=
  if i.code = 0x20 then
    match data i.k with
    | some w => .next 0 w
    | none => .invalid
  else if i.code = 0x15 then .next (if acc = i.k then i.jt.toNat else i.jf.toNat) acc
  else if i.code = 0x06 then .ret i.k
  else .invalid

def run (data : UInt32 → Option UInt32) (prog : List Insn) : ℕ → ℕ → UInt32 → Result
  | 0, _, _ => .outOfFuel
  | fuel + 1, pc, acc =>
    match prog[pc]? with
    | none => .left
    | some i =>
      match effect data acc i with
      | .next skip acc => run data prog fuel (pc + 1 + skip) acc
      | .ret k => .ret k
      | .invalid => .invalid

/-- The run from an instruction on, with as much fuel as forward jumps can use. -/
def runFrom (data : UInt32 → Option UInt32) (prog : List Insn) (pc : ℕ) (acc : UInt32) : Result :=
  run data prog (prog.length - pc + 1) pc acc

def exec (data : UInt32 → Option UInt32) (prog : List Insn) : Result := runFrom data prog 0 0

variable {data : UInt32 → Option UInt32} {prog : List Insn}

theorem run_succ {f pc : ℕ} {i : Insn} (acc : UInt32) (hi : prog[pc]? = some i) :
    run data prog (f + 1) pc acc =
      match effect data acc i with
      | .next skip acc => run data prog f (pc + 1 + skip) acc
      | .ret k => .ret k
      | .invalid => .invalid := by
  rw [run, hi]

/-- Any fuel that exceeds the instructions ahead gives the same result. -/
theorem run_eq_of_lt {f g pc : ℕ} {acc : UInt32} (hf : prog.length - pc < f)
    (hg : prog.length - pc < g) : run data prog f pc acc = run data prog g pc acc := by
  induction f generalizing g pc acc with
  | zero => omega
  | succ f ih =>
    obtain ⟨g, rfl⟩ := Nat.exists_eq_succ_of_ne_zero (Nat.ne_zero_of_lt hg)
    cases hi : prog[pc]? with
    | none => simp only [run, hi]
    | some i =>
      have hlt := (List.getElem?_eq_some_iff.mp hi).1
      cases he : effect data acc i with
      | next skip acc' =>
        simp only [run_succ _ hi, he]
        apply ih <;> omega
      | ret k => simp only [run_succ _ hi, he]
      | invalid => simp only [run_succ _ hi, he]

/-- One instruction of a run. -/
theorem runFrom_eq {pc : ℕ} {i : Insn} (acc : UInt32) (hi : prog[pc]? = some i) :
    runFrom data prog pc acc =
      match effect data acc i with
      | .next skip acc => runFrom data prog (pc + 1 + skip) acc
      | .ret k => .ret k
      | .invalid => .invalid := by
  have hlt := (List.getElem?_eq_some_iff.mp hi).1
  unfold runFrom
  rw [run_succ acc hi]
  cases effect data acc i with
  | next skip acc' =>
    dsimp only
    apply run_eq_of_lt <;> omega
  | ret k => rfl
  | invalid => rfl

theorem runFrom_ret {pc : ℕ} {i : Insn} (acc : UInt32) (hi : prog[pc]? = some i)
    (hcode : i.code = 0x06) : runFrom data prog pc acc = .ret i.k := by
  have heffect : effect data acc i = .ret i.k := by simp [effect, hcode]
  rw [runFrom_eq acc hi, heffect]

theorem runFrom_load {pc : ℕ} {i : Insn} {w : UInt32} (acc : UInt32) (hi : prog[pc]? = some i)
    (hcode : i.code = 0x20) (hw : data i.k = some w) :
    runFrom data prog pc acc = runFrom data prog (pc + 1) w := by
  have heffect : effect data acc i = .next 0 w := by simp [effect, hcode, hw]
  rw [runFrom_eq acc hi, heffect]

theorem runFrom_jeq {pc : ℕ} {i : Insn} (acc : UInt32) (hi : prog[pc]? = some i)
    (hcode : i.code = 0x15) : runFrom data prog pc acc =
      if acc = i.k then runFrom data prog (pc + 1 + i.jt.toNat) acc
      else runFrom data prog (pc + 1 + i.jf.toNat) acc := by
  have heffect : effect data acc i = .next (if acc = i.k then i.jt.toNat else i.jf.toNat) acc := by
    simp [effect, hcode]
  rw [runFrom_eq acc hi, heffect]
  split_ifs <;> rfl

/-- From `pc` on stand equality jumps with the given constants: each jumps to `hit` on
equality and to the next one otherwise, the last one to `miss`. -/
def Ladder (prog : List Insn) (hit miss : ℕ) : ℕ → List UInt32 → Prop
  | pc, [] => pc = miss
  | pc, k :: ks => ∃ i, prog[pc]? = some i ∧ i.code = 0x15 ∧ i.k = k ∧
      pc + 1 + i.jt.toNat = hit ∧ Ladder prog hit miss (pc + 1 + i.jf.toNat) ks

/-- A ladder decides membership in its constants. -/
theorem runFrom_ladder {hit miss pc : ℕ} {ks : List UInt32} (acc : UInt32)
    (h : Ladder prog hit miss pc ks) :
    runFrom data prog pc acc = runFrom data prog (if acc ∈ ks then hit else miss) acc := by
  induction ks generalizing pc with
  | nil =>
    obtain rfl : pc = miss := h
    rw [if_neg List.not_mem_nil]
  | cons k ks ih =>
    obtain ⟨i, hi, hcode, rfl, rfl, hrest⟩ := h
    rw [runFrom_jeq acc hi hcode, ih hrest]
    by_cases hk : acc = i.k
    · simp [hk]
    · simp [hk]

end Cbpf
