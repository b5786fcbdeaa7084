import LingNet.Lib.ByteMem
import Mathlib.Data.List.AList
import Mathlib.Logic.Function.Basic

/-! eBPF: decoding of instruction words, the registers with what they may point to, the stack, hash
maps and the helpers on them. Only some instructions are covered; jumps that the verifier of old
kernels accepts go forward, so a program is run with as much fuel as it has words. -/
namespace Ebpf
open ByteMem

/-! Instruction words. -/

/-- The fields of a word: `code`, `dst_reg`, `src_reg`, `off` and `imm`. -/
structure Fields where
  code : BitVec 8
  dst : BitVec 4
  src : BitVec 4
  off : BitVec 16
  imm : BitVec 32
  deriving DecidableEq, Repr

/-- The layout of `struct bpf_insn` in a little-endian word. -/
def fields (word : BitVec 64) : Fields where
  code := word.extractLsb' 0 8
  dst := word.extractLsb' 8 4
  src := word.extractLsb' 12 4
  off := word.extractLsb' 16 16
  imm := word.extractLsb' 32 32

abbrev Reg := Fin 11

instance instNeZeroEleven : NeZero 11 := ⟨by decide⟩

inductive AluOp where
  | add
  | rsh
  | mov
  deriving DecidableEq, Repr

inductive Operand where
  | reg (src : Reg)
  | imm (imm : BitVec 32)
  deriving DecidableEq, Repr

/-- Instructions; `size` is a number of bytes. -/
inductive Instr where
  | loadMap (dst : Reg) (fd : BitVec 32)
  | alu64 (op : AluOp) (dst : Reg) (src : Operand)
  | ldx (size : ℕ) (dst src : Reg) (off : BitVec 16)
  | st (size : ℕ) (dst : Reg) (off : BitVec 16) (imm : BitVec 32)
  | stx (size : ℕ) (dst src : Reg) (off : BitVec 16)
  | jeq (dst : Reg) (imm : BitVec 32) (off : BitVec 16)
  | call (helper : BitVec 32)
  | exit
  deriving DecidableEq, Repr

def reg (field : BitVec 4) : Option Reg :=
  if h : field.toNat < 11 then some ⟨field.toNat, h⟩ else none

/-- The frame pointer `r10` is read-only. -/
def writableReg (field : BitVec 4) : Option Reg :=
  if h : field.toNat < 10 then some ⟨field.toNat, by omega⟩ else none

def Fields.alu64 (f : Fields) (op : AluOp) (src : Option Operand) : Option Instr := do
  let dst ← writableReg f.dst
  let src ← src
  some (.alu64 op dst src)

def Fields.instr (f : Fields) : Option Instr :=
  match f.code with
  -- only `BPF_PSEUDO_MAP_FD`
  | 0x18 => if f.src = 1 then do some (.loadMap (← writableReg f.dst) f.imm) else none
  | 0x07 => f.alu64 .add (some (.imm f.imm))
  | 0x0f => f.alu64 .add ((reg f.src).map .reg)
  | 0x77 => f.alu64 .rsh (some (.imm f.imm))
  | 0x7f => f.alu64 .rsh ((reg f.src).map .reg)
  | 0xb7 => f.alu64 .mov (some (.imm f.imm))
  | 0xbf => f.alu64 .mov ((reg f.src).map .reg)
  | 0x61 => do some (.ldx 4 (← writableReg f.dst) (← reg f.src) f.off)
  | 0x79 => do some (.ldx 8 (← writableReg f.dst) (← reg f.src) f.off)
  | 0x62 => do some (.st 4 (← reg f.dst) f.off f.imm)
  | 0x7a => do some (.st 8 (← reg f.dst) f.off f.imm)
  | 0x63 => do some (.stx 4 (← reg f.dst) (← reg f.src) f.off)
  | 0x7b => do some (.stx 8 (← reg f.dst) (← reg f.src) f.off)
  | 0x15 => do some (.jeq (← reg f.dst) f.imm f.off)
  | 0x85 => some (.call f.imm)
  | 0x95 => some .exit
  | _ => none

def decode (word : BitVec 64) : Option Instr := (fields word).instr

/-! The state of a run. -/

/-- What a pointer points into: the stack frame, from its end down, the context, or the value of
a map's key. -/
inductive Region where
  | stack
  | ctx
  | value (fd : BitVec 32) (key : List Byte)
  deriving DecidableEq, Repr

inductive Val where
  | scalar (v : BitVec 64)
  | map (fd : BitVec 32)
  | ptr (region : Region) (off : ℤ)
  deriving DecidableEq, Repr

inductive Fault where
  | uninitialisedRegister (r : Reg)
  | uninitialisedMemory
  | badAddress
  | badOperand
  | badInstruction
  | outOfFuel
  deriving DecidableEq, Repr

/-- A map of type `BPF_MAP_TYPE_HASH`. -/
structure HashMap where
  keySize : ℕ
  valueSize : ℕ
  maxEntries : ℕ
  entries : AList fun _ : List Byte => List Byte

abbrev Maps := BitVec 32 → Option HashMap

/-- What one event gives the program. -/
structure Event where
  pidTgid : BitVec 64
  ctx : List Byte

structure State where
  pc : ℕ
  regs : Reg → Option Val
  stack : Mem
  maps : Maps

/-- At the start `r1` points to the context and `r10` to the end of the frame. -/
def State.start (maps : Maps) : State where
  pc := 0
  regs r := if r = 1 then some (.ptr .ctx 0) else if r = 10 then some (.ptr .stack 0) else none
  stack := Mem.empty
  maps := maps

namespace State

def get (s : State) (r : Reg) : Except Fault Val :=
  match s.regs r with
  | some v => .ok v
  | none => .error (.uninitialisedRegister r)

/-- Set a register and go on. -/
def set (s : State) (r : Reg) (v : Val) : State :=
  { s with pc := s.pc + 1, regs := Function.update s.regs r (some v) }

/-- The frame has 512 bytes. -/
def InFrame (off : ℤ) (n : ℕ) : Prop := -512 ≤ off ∧ off + n ≤ 0

instance (off : ℤ) (n : ℕ) : Decidable (InFrame off n) := inferInstanceAs (Decidable (_ ∧ _))

/-- The value of a key that a map holds. -/
def value (s : State) (fd : BitVec 32) (key : List Byte) : Except Fault (HashMap × List Byte) :=
  match s.maps fd with
  | some m => (m.entries.lookup key).elim (.error .badAddress) fun bytes => .ok (m, bytes)
  | none => .error .badAddress

def load (e : Event) (s : State) (base : Val) (off : ℤ) (n : ℕ) : Except Fault (List Byte) :=
  match base with
  | .ptr .stack i =>
    if InFrame (i + off) n then
      (s.stack.read (i + off) n).elim (.error .uninitialisedMemory) .ok
    else .error .badAddress
  | .ptr .ctx i => (slice e.ctx (i + off) n).elim (.error .badAddress) .ok
  | .ptr (.value fd key) i => do
    let (_, bytes) ← s.value fd key
    (slice bytes (i + off) n).elim (.error .badAddress) .ok
  | _ => .error .badOperand

/-- The context is read-only. -/
def store (s : State) (base : Val) (off : ℤ) (bytes : List Byte) : Except Fault State :=
  match base with
  | .ptr .stack i =>
    if InFrame (i + off) bytes.length then
      .ok { s with pc := s.pc + 1, stack := s.stack.write (i + off) bytes }
    else .error .badAddress
  | .ptr (.value fd key) i => do
    let (m, old) ← s.value fd key
    (splice old (i + off) bytes).elim (.error .badAddress) fun new =>
      .ok { s with
        pc := s.pc + 1
        maps := Function.update s.maps fd (some { m with entries := m.entries.insert key new }) }
  | _ => .error .badOperand

def jump (s : State) (off : ℤ) : Except Fault State :=
  let target := s.pc + 1 + off
  if 0 ≤ target then .ok { s with pc := target.toNat } else .error .badInstruction

end State

/-! Helpers. -/

/-- `bpf_map_update_elem` on a hash map: `BPF_ANY` is 0, `BPF_NOEXIST` 1 and `BPF_EXIST` 2, and
the results are `-EINVAL`, `-EEXIST`, `-ENOENT`, `-E2BIG` and 0. -/
def HashMap.update (m : HashMap) (key value : List Byte) (flags : BitVec 64) :
    HashMap × BitVec 64 :=
  if 2 < flags.toNat then (m, -22)
  else if key ∈ m.entries then
    if flags = 1 then (m, -17) else ({ m with entries := m.entries.insert key value }, 0)
  else if flags = 2 then (m, -2)
  else if m.maxEntries ≤ m.entries.entries.length then (m, -7)
  else ({ m with entries := m.entries.insert key value }, 0)

namespace State

/-- The map that `r1` names. -/
def mapArg (s : State) : Except Fault (BitVec 32 × HashMap) := do
  match ← s.get 1 with
  | .map fd => (s.maps fd).elim (.error .badOperand) fun m => .ok (fd, m)
  | _ => .error .badOperand

def mapLookup (e : Event) (s : State) : Except Fault (Val × Maps) := do
  let (fd, m) ← s.mapArg
  let key ← s.load e (← s.get 2) 0 m.keySize
  if key ∈ m.entries then .ok (.ptr (.value fd key) 0, s.maps) else .ok (.scalar 0, s.maps)

def mapUpdate (e : Event) (s : State) : Except Fault (Val × Maps) := do
  let (fd, m) ← s.mapArg
  let key ← s.load e (← s.get 2) 0 m.keySize
  let value ← s.load e (← s.get 3) 0 m.valueSize
  match ← s.get 4 with
  | .scalar flags =>
    let (m, r) := m.update key value flags
    .ok (.scalar r, Function.update s.maps fd (some m))
  | _ => .error .badOperand

def helper (e : Event) (s : State) (id : BitVec 32) : Except Fault (Val × Maps) :=
  match id with
  | 1 => s.mapLookup e
  | 2 => s.mapUpdate e
  | 14 => .ok (.scalar e.pidTgid, s.maps)
  | _ => .error .badInstruction

/-- A call leaves its result in `r0`, and `r1` to `r5` unreadable. -/
def afterCall (s : State) (r0 : Val) (maps : Maps) : State :=
  { s with
    pc := s.pc + 1
    regs := fun r => if r = 0 then some r0 else if r ≤ 5 then none else s.regs r
    maps := maps }

end State

/-! Execution. -/

/-- What `add` and `rsh` make of their operands. -/
def AluOp.eval : AluOp → Val → Val → Option Val
  | .add, .scalar a, .scalar b => some (.scalar (a + b))
  | .add, .ptr region off, .scalar b => some (.ptr region (off + b.toInt))
  | .add, .scalar a, .ptr region off => some (.ptr region (off + a.toInt))
  | .rsh, .scalar a, .scalar b => some (.scalar (a >>> (b.toNat % 64)))
  | .mov, _, b => some b
  | _, _, _ => none

def State.operand (s : State) : Operand → Except Fault Val
  | .reg src => s.get src
  | .imm imm => .ok (.scalar (imm.signExtend 64))

/-- What one instruction does: go on, or end the run with the value of `r0`. -/
inductive Effect where
  | next (s : State)
  | exit (r0 : Val)

def exec (e : Event) (s : State) : Instr → Except Fault Effect
  -- the second word of the pair is skipped
  | .loadMap dst fd => .ok (.next { s.set dst (.map fd) with pc := s.pc + 2 })
  | .alu64 .mov dst src => do .ok (.next (s.set dst (← s.operand src)))
  | .alu64 op dst src => do
    let a ← s.get dst
    let b ← s.operand src
    (op.eval a b).elim (.error .badOperand) fun v => .ok (.next (s.set dst v))
  | .ldx size dst src off => do
    let bytes ← s.load e (← s.get src) off.toInt size
    .ok (.next (s.set dst (.scalar (BitVec.ofNat 64 (valueOf bytes)))))
  | .st size dst off imm => do
    let s' ← s.store (← s.get dst) off.toInt (bytesOf size (imm.signExtend 64).toNat)
    .ok (.next s')
  | .stx size dst src off => do
    let base ← s.get dst
    match ← s.get src with
    | .scalar v => do .ok (.next (← s.store base off.toInt (bytesOf size v.toNat)))
    -- pointers are not spilled
    | _ => .error .badOperand
  | .jeq dst imm off => do
    match ← s.get dst with
    | .scalar v =>
      if v = imm.signExtend 64 then do .ok (.next (← s.jump off.toInt))
      else .ok (.next { s with pc := s.pc + 1 })
    -- a pointer is not null
    | _ => if imm = 0 then .ok (.next { s with pc := s.pc + 1 }) else .error .badOperand
  | .call id => do
    let (r0, maps) ← s.helper e id
    .ok (.next (s.afterCall r0 maps))
  | .exit => do .ok (.exit (← s.get 0))

/-- The run over decoded words. -/
def run (e : Event) (code : List (Option Instr)) : ℕ → State → Except Fault (Val × Maps)
  | 0, _ => .error .outOfFuel
  | fuel + 1, s =>
    match code[s.pc]?.join with
    | none => .error .badInstruction
    | some i =>
      match exec e s i with
      | .ok (.next s') => run e code fuel s'
      | .ok (.exit r0) => .ok (r0, s.maps)
      | .error f => .error f

/-- A run of a program on one event: the value it returns, and the maps it leaves. -/
def invoke (prog : List (BitVec 64)) (e : Event) (maps : Maps) : Except Fault (Val × Maps) :=
  run e (prog.map decode) prog.length (.start maps)

/-- The maps after a program was run on each event. -/
def invokeAll (prog : List (BitVec 64)) : List Event → Maps → Except Fault Maps
  | [], maps => .ok maps
  | e :: events, maps => do
    let (_, maps) ← invoke prog e maps
    invokeAll prog events maps

/-! One step of a run. -/

variable {e : Event} {code : List (Option Instr)} {s s' : State} {i : Instr} {fuel : ℕ}

theorem run_of_next (hfetch : code[s.pc]?.join = some i) (hexec : exec e s i = .ok (.next s')) :
    run e code (fuel + 1) s = run e code fuel s' := by
  rw [run, hfetch]
  simp only [hexec]

/-- `n` steps lead from one state to another. -/
inductive Reaches (e : Event) (code : List (Option Instr)) : State → ℕ → State → Prop
  | refl (s : State) : Reaches e code s 0 s
  | step {s s' s'' : State} {i : Instr} {n : ℕ} (hfetch : code[s.pc]?.join = some i)
      (hexec : exec e s i = .ok (.next s')) (h : Reaches e code s' n s'') :
      Reaches e code s (n + 1) s''

theorem run_of_reaches {n : ℕ} (fuel : ℕ) (h : Reaches e code s n s') :
    run e code (fuel + n) s = run e code fuel s' := by
  induction h with
  | refl s => rfl
  | step hfetch hexec _ ih => exact (run_of_next hfetch hexec).trans ih

theorem Reaches.snoc {n : ℕ} {t : State} (h : Reaches e code s n s')
    (hfetch : code[s'.pc]?.join = some i) (hexec : exec e s' i = .ok (.next t)) :
    Reaches e code s (n + 1) t := by
  induction h with
  | refl s => exact .step hfetch hexec (.refl t)
  | step hfetch' hexec' _ ih => exact .step hfetch' hexec' (ih hfetch hexec)

theorem run_of_exit {r0 : Val} (hfetch : code[s.pc]?.join = some i)
    (hexec : exec e s i = .ok (.exit r0)) : run e code (fuel + 1) s = .ok (r0, s.maps) := by
  rw [run, hfetch]
  simp only [hexec]

theorem run_of_error {f : Fault} (hfetch : code[s.pc]?.join = some i)
    (hexec : exec e s i = .error f) : run e code (fuel + 1) s = .error f := by
  rw [run, hfetch]
  simp only [hexec]

/-! Single instructions. -/

theorem State.get_of_some {r : Reg} {v : Val} (h : s.regs r = some v) : s.get r = .ok v := by
  unfold State.get
  rw [h]

theorem State.get_of_none {r : Reg} (h : s.regs r = none) :
    s.get r = .error (.uninitialisedRegister r) := by
  unfold State.get
  rw [h]

theorem State.load_stack {i : ℤ} {n : ℕ} {bytes : List Byte} (hframe : InFrame i n)
    (hread : s.stack.read i n = some bytes) : s.load e (.ptr .stack i) 0 n = .ok bytes := by
  unfold State.load
  simp only [add_zero]
  rw [if_pos hframe, hread]
  rfl

theorem State.mapArg_of_map {fd : BitVec 32} {m : HashMap} (hr1 : s.regs 1 = some (.map fd))
    (hm : s.maps fd = some m) : s.mapArg = .ok (fd, m) := by
  unfold State.mapArg
  rw [State.get_of_some hr1]
  change (s.maps fd).elim _ _ = _
  rw [hm]
  rfl

theorem exec_exit {v : Val} (hr0 : s.regs 0 = some v) : exec e s .exit = .ok (.exit v) := by
  change (s.get 0 >>= _) = _
  rw [State.get_of_some hr0]
  rfl

theorem exec_add_of_none {dst : Reg} {src : Operand} (hdst : s.regs dst = none) :
    exec e s (.alu64 .add dst src) = .error (.uninitialisedRegister dst) := by
  change (s.get dst >>= _) = _
  rw [State.get_of_none hdst]
  rfl

theorem exec_mov {dst src : Reg} {v : Val} (hsrc : s.regs src = some v) :
    exec e s (.alu64 .mov dst (.reg src)) = .ok (.next (s.set dst v)) := by
  change (s.get src >>= _) = _
  rw [State.get_of_some hsrc]
  rfl

theorem State.store_stack {i : ℤ} {bytes : List Byte} (hframe : InFrame i bytes.length) :
    s.store (.ptr .stack 0) i bytes =
      .ok { s with pc := s.pc + 1, stack := s.stack.write i bytes } := by
  unfold State.store
  simp only [zero_add]
  rw [if_pos hframe]

theorem exec_st_stack {n : ℕ} {dst : Reg} {off : BitVec 16} {imm : BitVec 32}
    (hdst : s.regs dst = some (.ptr .stack 0)) (hframe : State.InFrame off.toInt n) :
    exec e s (.st n dst off imm) = .ok (.next { s with
      pc := s.pc + 1
      stack := s.stack.write off.toInt (bytesOf n (imm.signExtend 64).toNat) }) := by
  change (s.get dst >>= _) = _
  rw [State.get_of_some hdst]
  change (s.store (.ptr .stack 0) off.toInt (bytesOf n (imm.signExtend 64).toNat) >>= _) = _
  rw [State.store_stack (by rwa [length_bytesOf])]
  rfl

theorem State.load_ctx {off : ℤ} {n : ℕ} {bytes : List Byte}
    (hbytes : slice e.ctx off n = some bytes) : s.load e (.ptr .ctx 0) off n = .ok bytes := by
  unfold State.load
  simp only [zero_add, hbytes]
  rfl

theorem exec_ldx_ctx {n : ℕ} {bytes : List Byte} {dst src : Reg} {off : BitVec 16}
    (hsrc : s.regs src = some (.ptr .ctx 0)) (hbytes : slice e.ctx off.toInt n = some bytes) :
    exec e s (.ldx n dst src off) =
      .ok (.next (s.set dst (.scalar (BitVec.ofNat 64 (valueOf bytes))))) := by
  change (s.get src >>= _) = _
  rw [State.get_of_some hsrc]
  change (s.load e (.ptr .ctx 0) off.toInt n >>= _) = _
  rw [State.load_ctx hbytes]
  rfl

/-- A lookup of a key on the stack. -/
theorem exec_mapLookup {fd : BitVec 32} {m : HashMap} {k : ℤ} {key : List Byte}
    (hr1 : s.regs 1 = some (.map fd)) (hm : s.maps fd = some m)
    (hr2 : s.regs 2 = some (.ptr .stack k)) (hframe : State.InFrame k m.keySize)
    (hkey : s.stack.read k m.keySize = some key) :
    exec e s (.call 1) = .ok (.next (s.afterCall
      (if key ∈ m.entries then .ptr (.value fd key) 0 else .scalar 0) s.maps)) := by
  have hlookup : s.mapLookup e =
      .ok (if key ∈ m.entries then .ptr (.value fd key) 0 else .scalar 0, s.maps) := by
    unfold State.mapLookup
    rw [State.mapArg_of_map hr1 hm, State.get_of_some hr2]
    change (s.load e (.ptr .stack k) 0 m.keySize >>= _) = _
    rw [State.load_stack hframe hkey]
    change (if key ∈ m.entries then _ else _) = _
    split_ifs
    · rfl
    · rfl
  change (s.mapLookup e >>= _) = _
  rw [hlookup]
  rfl

/-- An update with a key and a value on the stack. -/
theorem exec_mapUpdate {fd : BitVec 32} {m : HashMap} {k v : ℤ} {key value : List Byte}
    {flags : BitVec 64} (hr1 : s.regs 1 = some (.map fd)) (hm : s.maps fd = some m)
    (hr2 : s.regs 2 = some (.ptr .stack k)) (hkeyFrame : State.InFrame k m.keySize)
    (hkey : s.stack.read k m.keySize = some key) (hr3 : s.regs 3 = some (.ptr .stack v))
    (hvalueFrame : State.InFrame v m.valueSize) (hvalue : s.stack.read v m.valueSize = some value)
    (hr4 : s.regs 4 = some (.scalar flags)) :
    exec e s (.call 2) = .ok (.next (s.afterCall (.scalar (m.update key value flags).2)
      (Function.update s.maps fd (some (m.update key value flags).1)))) := by
  have hupdate : s.mapUpdate e = .ok (.scalar (m.update key value flags).2,
      Function.update s.maps fd (some (m.update key value flags).1)) := by
    unfold State.mapUpdate
    rw [State.mapArg_of_map hr1 hm, State.get_of_some hr2, State.get_of_some hr3,
      State.get_of_some hr4]
    change (s.load e (.ptr .stack k) 0 m.keySize >>= _) = _
    rw [State.load_stack hkeyFrame hkey]
    change (s.load e (.ptr .stack v) 0 m.valueSize >>= _) = _
    rw [State.load_stack hvalueFrame hvalue]
    rfl
  change (s.mapUpdate e >>= _) = _
  rw [hupdate]
  rfl

/-- `if (r == imm) goto` with the jump taken. -/
theorem exec_jeq_taken {dst : Reg} {v : BitVec 64} {imm : BitVec 32} {off : BitVec 16} {pc : ℕ}
    (hdst : s.regs dst = some (.scalar v)) (hv : v = imm.signExtend 64)
    (htarget : s.pc + 1 + off.toInt = pc) :
    exec e s (.jeq dst imm off) = .ok (.next { s with pc := pc }) := by
  change (s.get dst >>= _) = _
  rw [State.get_of_some hdst]
  change (if v = imm.signExtend 64 then _ else _) = _
  rw [if_pos hv]
  unfold State.jump
  simp only [htarget, if_pos (Int.natCast_nonneg pc), Int.toNat_natCast]
  rfl

end Ebpf
