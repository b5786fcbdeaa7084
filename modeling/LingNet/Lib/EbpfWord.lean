import LingNet.Lib.Ebpf
import Mathlib.Data.List.Induction

/-! The bytes of a program on a little-endian machine: eight for each `struct bpf_insn`, two of
which make a load of a double word. -/
namespace Ebpf
open ByteMem

/-! Words and their fields. -/

/-- The word with these fields. -/
def Fields.word (f : Fields) : BitVec 64 := f.imm ++ f.off ++ f.src ++ f.dst ++ f.code

theorem toNat_append_eq_add {n m : ℕ} (x : BitVec n) (y : BitVec m) :
    (x ++ y).toNat = y.toNat + 2 ^ m * x.toNat := by
  rw [BitVec.toNat_append, ← Nat.shiftLeft_add_eq_or_of_lt y.isLt, Nat.shiftLeft_eq]
  ring

theorem Fields.toNat_word (f : Fields) :
    f.word.toNat = f.code.toNat + 2 ^ 8 * (f.dst.toNat + 2 ^ 4 * (f.src.toNat + 2 ^ 4 *
      (f.off.toNat + 2 ^ 16 * f.imm.toNat))) := by
  unfold Fields.word
  simp only [toNat_append_eq_add]

theorem toNat_extractLsb'_eq {w : BitVec 64} (start len : ℕ) :
    (w.extractLsb' start len).toNat = w.toNat / 2 ^ start % 2 ^ len := by
  rw [BitVec.extractLsb'_toNat, Nat.shiftRight_eq_div_pow]

theorem word_fields (w : BitVec 64) : (fields w).word = w := by
  apply BitVec.eq_of_toNat_eq
  have hw := w.isLt
  rw [Fields.toNat_word]
  simp only [fields, toNat_extractLsb'_eq]
  omega

theorem fields_word (f : Fields) : fields f.word = f := by
  have hcode := f.code.isLt
  have hdst := f.dst.isLt
  have hsrc := f.src.isLt
  have hoff := f.off.isLt
  have himm := f.imm.isLt
  have hword := f.toNat_word
  unfold fields
  congr 1 <;> apply BitVec.eq_of_toNat_eq <;> rw [toNat_extractLsb'_eq, hword] <;> omega

/-! Instructions as numbers. -/

/-- What the kernel reads from a `struct bpf_insn`: `off` and `imm` are signed. -/
structure Insn where
  code : ℕ
  dstReg : ℕ
  srcReg : ℕ
  off : ℤ
  imm : ℤ
  deriving DecidableEq, Repr

def Fields.insn (f : Fields) : Insn where
  code := f.code.toNat
  dstReg := f.dst.toNat
  srcReg := f.src.toNat
  off := f.off.toInt
  imm := f.imm.toInt

/-- The number in two's complement with these bytes, the least significant one first. -/
def signedOf (bytes : List Byte) : ℤ := Int.bmod (valueOf bytes) (256 ^ bytes.length)

theorem signedOf_eq_toInt {n : ℕ} {bytes : List Byte} {x : BitVec n}
    (hlen : 8 * bytes.length = n) (hvalue : valueOf bytes = x.toNat) : signedOf bytes = x.toInt := by
  have hpow : 256 ^ bytes.length = 2 ^ n := by
    rw [← hlen, pow_mul]
    rfl
  unfold signedOf
  rw [hvalue, hpow, BitVec.toInt_eq_toNat_bmod]

/-- The layout of `struct bpf_insn`: the register numbers are bit fields of one byte. -/
def insnOf (bytes : List Byte) : Insn where
  code := valueOf ((bytes.drop 0).take 1)
  dstReg := valueOf ((bytes.drop 1).take 1) % 16
  srcReg := valueOf ((bytes.drop 1).take 1) / 16
  off := signedOf ((bytes.drop 2).take 2)
  imm := signedOf ((bytes.drop 4).take 4)

def readInsns : List Byte → Option (List Insn)
  | [] => some []
  | b0 :: b1 :: b2 :: b3 :: b4 :: b5 :: b6 :: b7 :: bytes =>
    (readInsns bytes).map (insnOf [b0, b1, b2, b3, b4, b5, b6, b7] :: ·)
  | _ => none

/-- A word as it lies in memory. -/
def wordBytes (w : BitVec 64) : List Byte := bytesOf 8 w.toNat

theorem valueOf_wordBytes {w : BitVec 64} {a n : ℕ} (h : a + n ≤ 8) :
    valueOf (((wordBytes w).drop a).take n) = w.toNat / 256 ^ a % 256 ^ n := by
  unfold wordBytes
  rw [drop_take_bytesOf h, valueOf_bytesOf]

theorem signedOf_wordBytes {w : BitVec 64} {a n : ℕ} (h : a + n ≤ 8) :
    signedOf (((wordBytes w).drop a).take n) = (w.extractLsb' (8 * a) (8 * n)).toInt := by
  apply signedOf_eq_toInt
  · simp only [wordBytes, List.length_take, List.length_drop, length_bytesOf]
    omega
  · rw [valueOf_wordBytes h, toNat_extractLsb'_eq, pow_mul, pow_mul]
    norm_num

theorem insnOf_wordBytes (w : BitVec 64) : insnOf (wordBytes w) = (fields w).insn := by
  have hcode := valueOf_wordBytes (w := w) (show 0 + 1 ≤ 8 by omega)
  have hregs := valueOf_wordBytes (w := w) (show 1 + 1 ≤ 8 by omega)
  have hoff := signedOf_wordBytes (w := w) (show 2 + 2 ≤ 8 by omega)
  have himm := signedOf_wordBytes (w := w) (show 4 + 4 ≤ 8 by omega)
  unfold insnOf
  rw [hcode, hregs, hoff, himm]
  simp only [Fields.insn, fields, toNat_extractLsb'_eq, Insn.mk.injEq, and_true]
  omega

/-- The bytes of a word hold its fields. -/
theorem readInsns_wordBytes (w : BitVec 64) (bytes : List Byte) :
    readInsns (wordBytes w ++ bytes) = (readInsns bytes).map ((fields w).insn :: ·) := by
  have hread : readInsns (wordBytes w ++ bytes) =
      (readInsns bytes).map (insnOf (wordBytes w) :: ·) := rfl
  rw [hread, insnOf_wordBytes]

theorem readInsns_word (w : BitVec 64) : readInsns (wordBytes w) = some [(fields w).insn] := by
  have hread := readInsns_wordBytes w []
  rwa [List.append_nil] at hread

def programBytes (words : List (BitVec 64)) : List Byte := words.flatMap wordBytes

theorem readInsns_programBytes (words : List (BitVec 64)) :
    readInsns (programBytes words) = some (words.map fun w => (fields w).insn) := by
  induction words with
  | nil => rfl
  | cons w words ih =>
    unfold programBytes at ih ⊢
    rw [List.flatMap_cons, readInsns_wordBytes, ih, List.map_cons, Option.map_some]

/-! Operations. A load of a double word has two slots, and the second one has an immediate only. -/

inductive Op where
  | insn (insn : Insn)
  | ldImm64 (dst : ℕ) (v : BitVec 64)
  | ldMapFd (dst : ℕ) (fd : BitVec 32)
  deriving DecidableEq, Repr

/-- `(u64)(u32)lo | ((u64)(u32)hi) << 32` -/
def wideValue (lo hi : ℤ) : BitVec 64 :=
  (BitVec.ofInt 32 lo).setWidth 64 ||| (BitVec.ofInt 32 hi).setWidth 64 <<< 32

def wide (lo hi : Insn) : Option Op :=
  if lo.off = 0 ∧ hi.code = 0 ∧ hi.dstReg = 0 ∧ hi.srcReg = 0 ∧ hi.off = 0 then
    if lo.srcReg = 0 then some (.ldImm64 lo.dstReg (wideValue lo.imm hi.imm))
    -- `BPF_PSEUDO_MAP_FD`
    else if lo.srcReg = 1 ∧ hi.imm = 0 then some (.ldMapFd lo.dstReg (.ofInt 32 lo.imm))
    else none
  else none

def readOps : List Insn → Option (List Op)
  | [] => some []
  | [insn] => if insn.code = 0x18 then none else some [.insn insn]
  | lo :: hi :: insns =>
    if lo.code = 0x18 then (wide lo hi).bind fun op => (readOps insns).map (op :: ·)
    else (readOps (hi :: insns)).map (.insn lo :: ·)

/-- What the kernel makes of the bytes of a program. -/
def readProgram (bytes : List Byte) : Option (List Op) := (readInsns bytes).bind readOps

theorem readOps_insn {insn : Insn} (h : insn.code ≠ 0x18) (insns : List Insn) :
    readOps (insn :: insns) = (readOps insns).map (.insn insn :: ·) := by
  cases insns with
  | nil => simp [readOps, h]
  | cons hi insns => rw [readOps, if_neg h]

theorem readOps_wide {lo hi : Insn} {op : Op} (hcode : lo.code = 0x18) (hop : wide lo hi = some op)
    (insns : List Insn) : readOps (lo :: hi :: insns) = (readOps insns).map (op :: ·) := by
  rw [readOps, if_pos hcode, hop, Option.bind_some]

theorem wideValue_halves (v : BitVec 64) :
    wideValue (v.setWidth 32).toInt ((v >>> 32).setWidth 32).toInt = v := by
  unfold wideValue
  rw [BitVec.ofInt_toInt, BitVec.ofInt_toInt]
  apply BitVec.eq_of_getLsbD_eq
  intro i hi
  simp only [BitVec.getLsbD_or, BitVec.getLsbD_shiftLeft, BitVec.getLsbD_setWidth,
    BitVec.getLsbD_ushiftRight]
  grind

/-! Programs as sources; these are all that can be read. -/

inductive Source where
  | insn (f : Fields) (h : f.code ≠ 0x18)
  | ldImm64 (dst : BitVec 4) (v : BitVec 64)
  | ldMapFd (dst : BitVec 4) (fd : BitVec 32)

namespace Source

def op : Source → Op
  | insn f _ => .insn f.insn
  | ldImm64 dst v => .ldImm64 dst.toNat v
  | ldMapFd dst fd => .ldMapFd dst.toNat fd

def slots : Source → List Fields
  | insn f _ => [f]
  | ldImm64 dst v => [
      { code := 0x18, dst := dst, src := 0, off := 0, imm := v.setWidth 32 },
      { code := 0, dst := 0, src := 0, off := 0, imm := (v >>> 32).setWidth 32 }]
  | ldMapFd dst fd => [
      { code := 0x18, dst := dst, src := 1, off := 0, imm := fd },
      { code := 0, dst := 0, src := 0, off := 0, imm := 0 }]

def words (a : Source) : List (BitVec 64) := a.slots.map Fields.word

/-- One source is read as its operation. -/
theorem readOps_slots (a : Source) (insns : List Insn) :
    readOps (a.slots.map Fields.insn ++ insns) = (readOps insns).map (a.op :: ·) := by
  cases a with
  | insn f h =>
    have hcode : f.insn.code ≠ 0x18 := by
      intro hcode
      exact h (BitVec.eq_of_toNat_eq hcode)
    exact readOps_insn hcode insns
  | ldImm64 dst v =>
    apply readOps_wide rfl
    change some (Op.ldImm64 dst.toNat
      (wideValue (v.setWidth 32).toInt ((v >>> 32).setWidth 32).toInt)) = _
    rw [wideValue_halves]
    rfl
  | ldMapFd dst fd =>
    apply readOps_wide rfl
    simp [wide, Fields.insn, op]

theorem readOps_sources (sources : List Source) :
    readOps ((sources.flatMap slots).map Fields.insn) = some (sources.map op) := by
  induction sources with
  | nil => rfl
  | cons a sources ih =>
    rw [List.flatMap_cons, List.map_append, readOps_slots, ih, Option.map_some, List.map_cons]

theorem map_words_insn (a : Source) :
    (a.words.map fun w => (fields w).insn) = a.slots.map Fields.insn := by
  unfold words
  rw [List.map_map]
  apply List.map_congr_left
  intro f _
  simp only [Function.comp_apply, fields_word]

/-- A program is read as what it was made from. -/
theorem readProgram_sources (sources : List Source) :
    readProgram (programBytes (sources.flatMap words)) = some (sources.map op) := by
  have hslots : (sources.flatMap words).map (fun w => (fields w).insn) =
      (sources.flatMap slots).map Fields.insn := by
    simp only [List.map_flatMap, map_words_insn]
  unfold readProgram
  rw [readInsns_programBytes, Option.bind_some, hslots, readOps_sources]

end Source

end Ebpf
