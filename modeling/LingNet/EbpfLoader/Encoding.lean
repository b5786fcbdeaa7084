import LingNet.EbpfLoader.Insn
import LingNet.Lib.EbpfWord

/-! What the kernel reads from the words of the builders: all that they were built from. -/
namespace LingNet.EbpfLoader
open Ebpf

section Words

variable {code dst src : BitVec 8} (off : BitVec 16) (imm : BitVec 32)

theorem toNat_setWidth_four {r : BitVec 8} (h : r.toNat < 16) : (r.setWidth 4).toNat = r.toNat := by
  rw [BitVec.toNat_setWidth, Nat.mod_eq_of_lt h]

/-- The shifts put each field where the layout has it. -/
theorem bpfInsn_eq_word (hdst : dst.toNat < 16) (hsrc : src.toNat < 16) :
    bpfInsn code dst src off imm = Fields.word
      { code := code, dst := dst.setWidth 4, src := src.setWidth 4, off := off, imm := imm } := by
  rw [← fields_bpfInsn off imm hdst hsrc, word_fields]

theorem insn_bpfInsn (hdst : dst.toNat < 16) (hsrc : src.toNat < 16) :
    (fields (bpfInsn code dst src off imm)).insn =
      { code := code.toNat, dstReg := dst.toNat, srcReg := src.toNat, off := off.toInt,
        imm := imm.toInt } := by
  rw [fields_bpfInsn off imm hdst hsrc, Fields.insn, toNat_setWidth_four hdst,
    toNat_setWidth_four hsrc]

theorem eq_of_bpfInsn_eq {code' dst' src' : BitVec 8} {off off' : BitVec 16} {imm imm' : BitVec 32}
    (hdst : dst.toNat < 16) (hsrc : src.toNat < 16) (hdst' : dst'.toNat < 16)
    (hsrc' : src'.toNat < 16)
    (h : bpfInsn code dst src off imm = bpfInsn code' dst' src' off' imm') :
    code = code' ∧ dst = dst' ∧ src = src' ∧ off = off' ∧ imm = imm' := by
  have hinsn := congrArg (fun w => (fields w).insn) h
  simp only [insn_bpfInsn _ _ hdst hsrc, insn_bpfInsn _ _ hdst' hsrc', Insn.mk.injEq] at hinsn
  simpa only [BitVec.toNat_inj, BitVec.toInt_inj] using hinsn

end Words

abbrev Register := { r : BitVec 8 // r.toNat < 16 }

/-! Programs. -/

theorem bpfLdImm64_eq_words {dst : BitVec 8} (hdst : dst.toNat < 16) (v : BitVec 64) :
    bpfLdImm64 dst v = (Source.ldImm64 (dst.setWidth 4) v).words := by
  have hzero : (0 : BitVec 8).toNat < 16 := by decide
  unfold bpfLdImm64
  rw [bpfInsn_eq_word _ _ hdst hzero, bpfInsn_eq_word _ _ hzero hzero]
  rfl

theorem bpfLdMapFd_eq_words {dst : BitVec 8} (hdst : dst.toNat < 16) (mapFd : BitVec 32) :
    bpfLdMapFd dst mapFd = (Source.ldMapFd (dst.setWidth 4) mapFd).words := by
  have hzero : (0 : BitVec 8).toNat < 16 := by decide
  unfold bpfLdMapFd
  rw [bpfInsn_eq_word _ _ hdst (by decide), bpfInsn_eq_word _ _ hzero hzero]
  rfl

/-- Calls of the builders; `op` and `size` are any bytes. -/
inductive Call where
  | ldImm64 (dst : Register) (imm : BitVec 64)
  | ldMapFd (dst : Register) (mapFd : BitVec 32)
  | alu64K (op : BitVec 8) (dst : Register) (imm : BitVec 32)
  | alu64X (op : BitVec 8) (dst src : Register)
  | jmpK (op : BitVec 8) (dst : Register) (imm : BitVec 32) (off : BitVec 16)
  | jmpX (op : BitVec 8) (dst src : Register) (off : BitVec 16)
  | stxMem (size : BitVec 8) (dst src : Register) (off : BitVec 16)
  | stMem (size : BitVec 8) (dst : Register) (off : BitVec 16) (imm : BitVec 32)
  | ldxMem (size : BitVec 8) (dst src : Register) (off : BitVec 16)
  | call (helper : BitVec 32)
  | exit
  | mov64X (dst src : Register)
  | mov32X (dst src : Register)
  | mov64K (dst : Register) (imm : BitVec 32)
  | mov32K (dst : Register) (imm : BitVec 32)

namespace Call

def words : Call → List (BitVec 64)
  | ldImm64 dst imm => bpfLdImm64 dst imm
  | ldMapFd dst mapFd => bpfLdMapFd dst mapFd
  | alu64K op dst imm => [bpfAlu64K op dst imm]
  | alu64X op dst src => [bpfAlu64X op dst src]
  | jmpK op dst imm off => [bpfJmpK op dst imm off]
  | jmpX op dst src off => [bpfJmpX op dst src off]
  | stxMem size dst src off => [bpfStxMem size dst src off]
  | stMem size dst off imm => [bpfStMem size dst off imm]
  | ldxMem size dst src off => [bpfLdxMem size dst src off]
  | call helper => [bpfCall helper]
  | exit => [bpfExit]
  | mov64X dst src => [bpfMov64X dst src]
  | mov32X dst src => [bpfMov32X dst src]
  | mov64K dst imm => [bpfMov64K dst imm]
  | mov32K dst imm => [bpfMov32K dst imm]

/-- What a call asks for. -/
def op : Call → Op
  | ldImm64 dst imm => .ldImm64 dst.val.toNat imm
  | ldMapFd dst mapFd => .ldMapFd dst.val.toNat mapFd
  | alu64K op dst imm => .insn ⟨(bpfAlu64 ||| op ||| bpfK).toNat, dst.val.toNat, 0, 0, imm.toInt⟩
  | alu64X op dst src =>
    .insn ⟨(bpfAlu64 ||| op ||| bpfX).toNat, dst.val.toNat, src.val.toNat, 0, 0⟩
  | jmpK op dst imm off =>
    .insn ⟨(bpfJmp ||| op ||| bpfK).toNat, dst.val.toNat, 0, off.toInt, imm.toInt⟩
  | jmpX op dst src off =>
    .insn ⟨(bpfJmp ||| op ||| bpfX).toNat, dst.val.toNat, src.val.toNat, off.toInt, 0⟩
  | stxMem size dst src off =>
    .insn ⟨(bpfStx ||| bpfMem ||| size).toNat, dst.val.toNat, src.val.toNat, off.toInt, 0⟩
  | stMem size dst off imm =>
    .insn ⟨(bpfSt ||| bpfMem ||| size).toNat, dst.val.toNat, 0, off.toInt, imm.toInt⟩
  | ldxMem size dst src off =>
    .insn ⟨(bpfLdx ||| bpfMem ||| size).toNat, dst.val.toNat, src.val.toNat, off.toInt, 0⟩
  | call helper => .insn ⟨0x85, 0, 0, 0, helper.toInt⟩
  | exit => .insn ⟨0x95, 0, 0, 0, 0⟩
  | mov64X dst src => .insn ⟨0xbf, dst.val.toNat, src.val.toNat, 0, 0⟩
  | mov32X dst src => .insn ⟨0xbc, dst.val.toNat, src.val.toNat, 0, 0⟩
  | mov64K dst imm => .insn ⟨0xb7, dst.val.toNat, 0, 0, imm.toInt⟩
  | mov32K dst imm => .insn ⟨0xb4, dst.val.toNat, 0, 0, imm.toInt⟩

theorem ne_of_getLsbD {code : BitVec 8} (i : ℕ) (h : code.getLsbD i ≠ (0x18 : BitVec 8).getLsbD i) :
    code ≠ 0x18 := by
  intro heq
  exact h (congrArg (fun c => c.getLsbD i) heq)

theorem exists_source_insn {code dst src : BitVec 8} (off : BitVec 16) (imm : BitVec 32)
    (hcode : code ≠ 0x18) (hdst : dst.toNat < 16) (hsrc : src.toNat < 16) :
    ∃ a : Source, a.words = [bpfInsn code dst src off imm] ∧
      a.op = .insn ⟨code.toNat, dst.toNat, src.toNat, off.toInt, imm.toInt⟩ := by
  have hfields : fields (bpfInsn code dst src off imm) = _ := fields_bpfInsn off imm hdst hsrc
  refine ⟨.insn { code, dst := dst.setWidth 4, src := src.setWidth 4, off, imm } hcode, ?_, ?_⟩
  · rw [bpfInsn_eq_word off imm hdst hsrc]
    rfl
  · rw [Source.op, ← hfields, insn_bpfInsn off imm hdst hsrc]

/-- The class of an instruction keeps its opcode apart from that of a load of a double word. -/
theorem exists_source (c : Call) : ∃ a : Source, a.words = c.words ∧ a.op = c.op := by
  have hzero : (0 : BitVec 8).toNat < 16 := by decide
  cases c with
  | ldImm64 dst imm =>
    exact ⟨_, (bpfLdImm64_eq_words dst.property imm).symm,
      congrArg (Op.ldImm64 · imm) (toNat_setWidth_four dst.property)⟩
  | ldMapFd dst mapFd =>
    exact ⟨_, (bpfLdMapFd_eq_words dst.property mapFd).symm,
      congrArg (Op.ldMapFd · mapFd) (toNat_setWidth_four dst.property)⟩
  | alu64K op dst imm =>
    have hcode : bpfAlu64 ||| op ||| bpfK ≠ 0x18 := ne_of_getLsbD 0 (by simp [bpfAlu64])
    exact exists_source_insn 0 imm hcode dst.property hzero
  | alu64X op dst src =>
    have hcode : bpfAlu64 ||| op ||| bpfX ≠ 0x18 := ne_of_getLsbD 0 (by simp [bpfAlu64])
    exact exists_source_insn 0 0 hcode dst.property src.property
  | jmpK op dst imm off =>
    have hcode : bpfJmp ||| op ||| bpfK ≠ 0x18 := ne_of_getLsbD 0 (by simp [bpfJmp])
    exact exists_source_insn off imm hcode dst.property hzero
  | jmpX op dst src off =>
    have hcode : bpfJmp ||| op ||| bpfX ≠ 0x18 := ne_of_getLsbD 0 (by simp [bpfJmp])
    exact exists_source_insn off 0 hcode dst.property src.property
  | stxMem size dst src off =>
    have hcode : bpfStx ||| bpfMem ||| size ≠ 0x18 := ne_of_getLsbD 0 (by simp [bpfStx])
    exact exists_source_insn off 0 hcode dst.property src.property
  | stMem size dst off imm =>
    have hcode : bpfSt ||| bpfMem ||| size ≠ 0x18 := ne_of_getLsbD 1 (by simp [bpfSt])
    exact exists_source_insn off imm hcode dst.property hzero
  | ldxMem size dst src off =>
    have hcode : bpfLdx ||| bpfMem ||| size ≠ 0x18 := ne_of_getLsbD 0 (by simp [bpfLdx])
    exact exists_source_insn off 0 hcode dst.property src.property
  | call helper => exact exists_source_insn 0 helper (by decide) hzero hzero
  | exit => exact exists_source_insn 0 0 (by decide) hzero hzero
  | mov64X dst src => exact exists_source_insn 0 0 (by decide) dst.property src.property
  | mov32X dst src => exact exists_source_insn 0 0 (by decide) dst.property src.property
  | mov64K dst imm => exact exists_source_insn 0 imm (by decide) dst.property hzero
  | mov32K dst imm => exact exists_source_insn 0 imm (by decide) dst.property hzero

/-- The kernel reads a program as the calls that built it. -/
theorem readProgram_calls (calls : List Call) :
    readProgram (programBytes (calls.flatMap words)) = some (calls.map op) := by
  choose source hwords hop using exists_source
  have hread := Source.readProgram_sources (calls.map source)
  simp only [List.flatMap_map, List.map_map, Function.comp_def, hwords, hop] at hread
  exact hread

end Call

theorem readProgram_bpfLdImm64 {dst : BitVec 8} (hdst : dst.toNat < 16) (v : BitVec 64) :
    readProgram (programBytes (bpfLdImm64 dst v)) = some [.ldImm64 dst.toNat v] := by
  have hread := Call.readProgram_calls [.ldImm64 ⟨dst, hdst⟩ v]
  rwa [List.flatMap_singleton, List.map_singleton] at hread

/-- The encoding loses nothing, whatever the signs of `off`, `imm` and the halves of `v`. -/
theorem encoding_lossless (code dst src : BitVec 8) (off : BitVec 16) (imm : BitVec 32)
    (v : BitVec 64) (hdst : dst.toNat < 16) (hsrc : src.toNat < 16) :
    readInsns (wordBytes (bpfInsn code dst src off imm)) =
        some [{ code := code.toNat, dstReg := dst.toNat, srcReg := src.toNat, off := off.toInt,
                imm := imm.toInt }] ∧
      (∀ (code' dst' src' : BitVec 8) (off' : BitVec 16) (imm' : BitVec 32),
        dst'.toNat < 16 → src'.toNat < 16 →
          bpfInsn code dst src off imm = bpfInsn code' dst' src' off' imm' →
            code = code' ∧ dst = dst' ∧ src = src' ∧ off = off' ∧ imm = imm') ∧
      readProgram (programBytes (bpfLdImm64 dst v)) = some [.ldImm64 dst.toNat v] := by
  refine ⟨?_, ?_, readProgram_bpfLdImm64 hdst v⟩
  · rw [readInsns_word, insn_bpfInsn off imm hdst hsrc]
  · intro code' dst' src' off' imm' hdst' hsrc' h
    exact eq_of_bpfInsn_eq hdst hsrc hdst' hsrc' h

theorem encoding_lossless_negative :
    readInsns (wordBytes (bpfInsn 0x15 10 1 (-4) (-16))) = some [⟨0x15, 10, 1, -4, -16⟩] ∧
      readProgram (programBytes (bpfLdImm64 10 0xffffffff80000000)) =
        some [.ldImm64 10 0xffffffff80000000] := by
  have h := encoding_lossless 0x15 10 1 (-4) (-16) 0xffffffff80000000 (by decide +kernel)
    (by decide +kernel)
  exact ⟨h.1, h.2.2⟩

end LingNet.EbpfLoader
