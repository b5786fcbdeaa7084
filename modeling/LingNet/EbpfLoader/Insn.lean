import LingNet.Lib.Ebpf

/-! The instruction builders of the loader, and the two embedded programs that count events. -/
namespace LingNet.EbpfLoader
open Ebpf

/-! Encoding constants. -/

def bpfLd : BitVec 8 := 0x00
def bpfLdx : BitVec 8 := 0x01
def bpfSt : BitVec 8 := 0x02
def bpfStx : BitVec 8 := 0x03
def bpfAlu : BitVec 8 := 0x04
def bpfJmp : BitVec 8 := 0x05
def bpfAlu64 : BitVec 8 := 0x07

def bpfW : BitVec 8 := 0x00
def bpfDw : BitVec 8 := 0x18

def bpfK : BitVec 8 := 0x00
def bpfX : BitVec 8 := 0x08

def bpfImm : BitVec 8 := 0x00
def bpfMem : BitVec 8 := 0x60

def bpfAdd : BitVec 8 := 0x00
def bpfRsh : BitVec 8 := 0x70
def bpfMov : BitVec 8 := 0xb0
def bpfJeq : BitVec 8 := 0x10
def bpfCallOp : BitVec 8 := 0x80
def bpfExitOp : BitVec 8 := 0x90

def bpfReg0 : BitVec 8 := 0
def bpfReg1 : BitVec 8 := 1
def bpfReg2 : BitVec 8 := 2
def bpfReg3 : BitVec 8 := 3
def bpfReg4 : BitVec 8 := 4
def bpfReg10 : BitVec 8 := 10

def bpfPseudoMapFd : BitVec 8 := 1

def bpfFuncMapLookupElem : BitVec 32 := 1
def bpfFuncMapUpdateElem : BitVec 32 := 2
def bpfFuncGetCurrentPidTgid : BitVec 32 := 14

/-! Builders. -/

def bpfInsn (code dst src : BitVec 8) (off : BitVec 16) (imm : BitVec 32) : BitVec 64 :=
  code.setWidth 64 ||| (dst.setWidth 64 <<< 8) ||| (src.setWidth 64 <<< 12) |||
    (off.setWidth 64 <<< 16) ||| (imm.setWidth 64 <<< 32)

def bpfLdImm64 (dst : BitVec 8) (imm : BitVec 64) : List (BitVec 64) := [
  bpfInsn (bpfLd ||| bpfDw ||| bpfImm) dst 0 0 (imm.setWidth 32),
  bpfInsn 0 0 0 0 ((imm >>> 32).setWidth 32)]

def bpfLdMapFd (dst : BitVec 8) (mapFd : BitVec 32) : List (BitVec 64) := [
  bpfInsn (bpfLd ||| bpfDw ||| bpfImm) dst bpfPseudoMapFd 0 mapFd,
  bpfInsn 0 0 0 0 0]

def bpfAlu64K (op dst : BitVec 8) (imm : BitVec 32) : BitVec 64 :=
  bpfInsn (bpfAlu64 ||| op ||| bpfK) dst 0 0 imm

def bpfAlu64X (op dst src : BitVec 8) : BitVec 64 :=
  bpfInsn (bpfAlu64 ||| op ||| bpfX) dst src 0 0

def bpfJmpK (op dst : BitVec 8) (imm : BitVec 32) (off : BitVec 16) : BitVec 64 :=
  bpfInsn (bpfJmp ||| op ||| bpfK) dst 0 off imm

def bpfJmpX (op dst src : BitVec 8) (off : BitVec 16) : BitVec 64 :=
  bpfInsn (bpfJmp ||| op ||| bpfX) dst src off 0

def bpfStxMem (size dst src : BitVec 8) (off : BitVec 16) : BitVec 64 :=
  bpfInsn (bpfStx ||| bpfMem ||| size) dst src off 0

def bpfStMem (size dst : BitVec 8) (off : BitVec 16) (imm : BitVec 32) : BitVec 64 :=
  bpfInsn (bpfSt ||| bpfMem ||| size) dst 0 off imm

def bpfLdxMem (size dst src : BitVec 8) (off : BitVec 16) : BitVec 64 :=
  bpfInsn (bpfLdx ||| bpfMem ||| size) dst src off 0

def bpfCall (helper : BitVec 32) : BitVec 64 := bpfInsn (bpfJmp ||| bpfCallOp) 0 0 0 helper

def bpfExit : BitVec 64 := bpfInsn (bpfJmp ||| bpfExitOp) 0 0 0 0

def bpfMov64X (dst src : BitVec 8) : BitVec 64 := bpfAlu64X bpfMov dst src

def bpfMov32X (dst src : BitVec 8) : BitVec 64 :=
  bpfInsn (bpfAlu ||| bpfMov ||| bpfX) dst src 0 0

def bpfMov64K (dst : BitVec 8) (imm : BitVec 32) : BitVec 64 := bpfAlu64K bpfMov dst imm

def bpfMov32K (dst : BitVec 8) (imm : BitVec 32) : BitVec 64 :=
  bpfInsn (bpfAlu ||| bpfMov ||| bpfK) dst 0 0 imm

/-! Programs. -/

/-- `runtime_monitor`, on the tracepoint `sys_enter`. -/
def prog1Insns (mapFd1 : BitVec 32) : List (BitVec 64) := [
  bpfInsn (bpfLd ||| bpfDw ||| bpfImm) bpfReg1 bpfPseudoMapFd 0 mapFd1,
  bpfInsn 0 0 0 0 0,
  bpfCall bpfFuncGetCurrentPidTgid,
  bpfAlu64K bpfRsh bpfReg0 32,
  -- an immediate is stored, and not `r0`
  bpfStMem bpfW bpfReg10 (-4) 0,
  bpfMov64X bpfReg2 bpfReg10,
  bpfAlu64K bpfAdd bpfReg2 (-4),
  bpfInsn (bpfLd ||| bpfDw ||| bpfImm) bpfReg1 bpfPseudoMapFd 0 mapFd1,
  bpfInsn 0 0 0 0 0,
  bpfCall bpfFuncMapLookupElem,
  bpfJmpK bpfJeq bpfReg0 0 6,
  bpfLdxMem bpfDw bpfReg1 bpfReg0 0,
  bpfAlu64K bpfAdd bpfReg1 1,
  bpfStxMem bpfDw bpfReg0 bpfReg1 0,
  bpfExit,
  bpfStMem bpfDw bpfReg10 (-16) 1,
  bpfMov64X bpfReg2 bpfReg10,
  -- the jump lands here
  bpfAlu64K bpfAdd bpfReg2 (-16),
  bpfInsn (bpfLd ||| bpfDw ||| bpfImm) bpfReg1 bpfPseudoMapFd 0 mapFd1,
  bpfInsn 0 0 0 0 0,
  bpfMov64X bpfReg3 bpfReg10,
  bpfAlu64K bpfAdd bpfReg3 (-4),
  bpfMov64K bpfReg4 0,
  bpfCall bpfFuncMapUpdateElem,
  bpfExit]

/-- `arena_audit`, on the kprobe `__x64_sys_clone`. -/
def prog2Insns (mapFd2 : BitVec 32) : List (BitVec 64) := [
  bpfLdxMem bpfDw bpfReg1 bpfReg1 112,
  bpfStxMem bpfDw bpfReg10 bpfReg1 (-8),
  bpfCall bpfFuncGetCurrentPidTgid,
  bpfAlu64K bpfRsh bpfReg0 32,
  bpfStMem bpfW bpfReg10 (-12) 0,
  bpfMov64X bpfReg2 bpfReg10,
  bpfAlu64K bpfAdd bpfReg2 (-12),
  bpfInsn (bpfLd ||| bpfDw ||| bpfImm) bpfReg1 bpfPseudoMapFd 0 mapFd2,
  bpfInsn 0 0 0 0 0,
  bpfCall bpfFuncMapLookupElem,
  bpfJmpK bpfJeq bpfReg0 0 4,
  bpfLdxMem bpfDw bpfReg1 bpfReg0 0,
  bpfAlu64K bpfAdd bpfReg1 1,
  bpfStxMem bpfDw bpfReg0 bpfReg1 0,
  bpfExit,
  -- the key of the update is at `r2`, and its value at `r3`
  bpfStMem bpfDw bpfReg10 (-24) 1,
  bpfMov64X bpfReg2 bpfReg10,
  bpfAlu64K bpfAdd bpfReg2 (-24),
  bpfInsn (bpfLd ||| bpfDw ||| bpfImm) bpfReg1 bpfPseudoMapFd 0 mapFd2,
  bpfInsn 0 0 0 0 0,
  bpfMov64X bpfReg3 bpfReg10,
  bpfAlu64K bpfAdd bpfReg3 (-12),
  bpfMov64K bpfReg4 0,
  bpfCall bpfFuncMapUpdateElem,
  bpfExit]

/-! What the builders encode. -/

theorem getLsbD_of_lt_sixteen {b : BitVec 8} (h : b.toNat < 16) {i : ℕ} (hi : 4 ≤ i) :
    b.getLsbD i = false := by
  have hpow : 2 ^ 4 ≤ 2 ^ i := Nat.pow_le_pow_right (by omega) hi
  exact Nat.testBit_lt_two_pow (by omega)

section Fields

variable {code dst src : BitVec 8} (off : BitVec 16) (imm : BitVec 32)

/-- Each bit of a word is a bit of one field. -/
theorem getLsbD_bpfInsn (hdst : dst.toNat < 16) (hsrc : src.toNat < 16) {j : ℕ} (hj : j < 64) :
    (bpfInsn code dst src off imm).getLsbD j =
      if j < 8 then code.getLsbD j
      else if j < 12 then dst.getLsbD (j - 8)
      else if j < 16 then src.getLsbD (j - 12)
      else if j < 32 then off.getLsbD (j - 16)
      else imm.getLsbD (j - 32) := by
  have hcode' : 8 ≤ j → code.getLsbD j = false := BitVec.getLsbD_of_ge code j
  have hdst' : 12 ≤ j → dst.getLsbD (j - 8) = false := by
    intro h
    exact getLsbD_of_lt_sixteen hdst (by omega)
  have hsrc' : 16 ≤ j → src.getLsbD (j - 12) = false := by
    intro h
    exact getLsbD_of_lt_sixteen hsrc (by omega)
  have hoff' : 32 ≤ j → off.getLsbD (j - 16) = false := by
    intro h
    exact BitVec.getLsbD_of_ge _ _ (by omega)
  unfold bpfInsn
  simp only [BitVec.getLsbD_or, BitVec.getLsbD_shiftLeft, BitVec.getLsbD_setWidth]
  grind

theorem extractLsb'_eq_of_bits {w : BitVec 64} {n start : ℕ} {field : BitVec n}
    (h : ∀ i < n, w.getLsbD (start + i) = field.getLsbD i) : w.extractLsb' start n = field := by
  apply BitVec.eq_of_getLsbD_eq
  intro i hi
  rw [BitVec.getLsbD_extractLsb', h i hi, decide_eq_true hi, Bool.true_and]

/-- A word whose register numbers fit in four bits has the fields it was built from. -/
theorem fields_bpfInsn (hdst : dst.toNat < 16) (hsrc : src.toNat < 16) :
    fields (bpfInsn code dst src off imm) =
      { code := code, dst := dst.setWidth 4, src := src.setWidth 4, off := off, imm := imm } := by
  have hbit : ∀ j < 64, (bpfInsn code dst src off imm).getLsbD j = _ :=
    fun j hj => getLsbD_bpfInsn off imm hdst hsrc hj
  unfold fields
  congr 1
  · apply extractLsb'_eq_of_bits
    intro i hi
    rw [hbit _ (by omega), Nat.zero_add, if_pos hi]
  · apply extractLsb'_eq_of_bits
    intro i hi
    rw [hbit _ (by omega), BitVec.getLsbD_setWidth, if_neg (by omega), if_pos (by omega),
      Nat.add_sub_cancel_left, decide_eq_true hi, Bool.true_and]
  · apply extractLsb'_eq_of_bits
    intro i hi
    rw [hbit _ (by omega), BitVec.getLsbD_setWidth, if_neg (by omega), if_neg (by omega),
      if_pos (by omega), Nat.add_sub_cancel_left, decide_eq_true hi, Bool.true_and]
  · apply extractLsb'_eq_of_bits
    intro i hi
    rw [hbit _ (by omega), if_neg (by omega), if_neg (by omega), if_neg (by omega),
      if_pos (by omega), Nat.add_sub_cancel_left]
  · apply extractLsb'_eq_of_bits
    intro i hi
    rw [hbit _ (by omega), if_neg (by omega), if_neg (by omega), if_neg (by omega),
      if_neg (by omega), Nat.add_sub_cancel_left]

end Fields

theorem decode_loadMap (fd : BitVec 32) :
    decode (bpfInsn (bpfLd ||| bpfDw ||| bpfImm) bpfReg1 bpfPseudoMapFd 0 fd) =
      some (.loadMap 1 fd) := by
  unfold decode
  rw [fields_bpfInsn 0 fd (by decide) (by decide)]
  rfl

/-- The instructions of `runtime_monitor`; the second words of the pairs decode to none. -/
def prog1Code (mapFd1 : BitVec 32) : List (Option Instr) := [
  some (.loadMap 1 mapFd1),
  none,
  some (.call 14),
  some (.alu64 .rsh 0 (.imm 32)),
  some (.st 4 10 (-4) 0),
  some (.alu64 .mov 2 (.reg 10)),
  some (.alu64 .add 2 (.imm (-4))),
  some (.loadMap 1 mapFd1),
  none,
  some (.call 1),
  some (.jeq 0 0 6),
  some (.ldx 8 1 0 0),
  some (.alu64 .add 1 (.imm 1)),
  some (.stx 8 0 1 0),
  some .exit,
  some (.st 8 10 (-16) 1),
  some (.alu64 .mov 2 (.reg 10)),
  some (.alu64 .add 2 (.imm (-16))),
  some (.loadMap 1 mapFd1),
  none,
  some (.alu64 .mov 3 (.reg 10)),
  some (.alu64 .add 3 (.imm (-4))),
  some (.alu64 .mov 4 (.imm 0)),
  some (.call 2),
  some .exit]

/-- The instructions of `arena_audit`. -/
def prog2Code (mapFd2 : BitVec 32) : List (Option Instr) := [
  some (.ldx 8 1 1 112),
  some (.stx 8 10 1 (-8)),
  some (.call 14),
  some (.alu64 .rsh 0 (.imm 32)),
  some (.st 4 10 (-12) 0),
  some (.alu64 .mov 2 (.reg 10)),
  some (.alu64 .add 2 (.imm (-12))),
  some (.loadMap 1 mapFd2),
  none,
  some (.call 1),
  some (.jeq 0 0 4),
  some (.ldx 8 1 0 0),
  some (.alu64 .add 1 (.imm 1)),
  some (.stx 8 0 1 0),
  some .exit,
  some (.st 8 10 (-24) 1),
  some (.alu64 .mov 2 (.reg 10)),
  some (.alu64 .add 2 (.imm (-24))),
  some (.loadMap 1 mapFd2),
  none,
  some (.alu64 .mov 3 (.reg 10)),
  some (.alu64 .add 3 (.imm (-12))),
  some (.alu64 .mov 4 (.imm 0)),
  some (.call 2),
  some .exit]

theorem decode_prog1Insns (mapFd1 : BitVec 32) :
    (prog1Insns mapFd1).map decode = prog1Code mapFd1 := by
  unfold prog1Insns
  simp only [List.map_cons, List.map_nil, decode_loadMap]
  rfl

theorem decode_prog2Insns (mapFd2 : BitVec 32) :
    (prog2Insns mapFd2).map decode = prog2Code mapFd2 := by
  unfold prog2Insns
  simp only [List.map_cons, List.map_nil, decode_loadMap]
  rfl

end LingNet.EbpfLoader
