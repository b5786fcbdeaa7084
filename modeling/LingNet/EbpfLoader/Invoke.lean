import LingNet.EbpfLoader.Insn

/-! What one event makes of the map that an embedded program uses. -/
namespace LingNet.EbpfLoader
open Ebpf ByteMem

/-- The key that both programs look up: the bytes of the stored immediate, and not of the pid. -/
def zeroKey : List Byte := bytesOf 4 0

section Event

variable {e : Event} {maps : Maps} {fd : BitVec 32} {m : HashMap}

/-- Both programs look up a key of four zero bytes on the stack and come to their jump. -/
theorem reaches_lookup {code : List (Option Instr)} {s₀ s : State} {n : ℕ} {k : ℤ}
    (hreach : Reaches e code s₀ n s) (hpc : s.pc = 9) (hfetch : code[9]?.join = some (.call 1))
    (hr1 : s.regs 1 = some (.map fd)) (hr2 : s.regs 2 = some (.ptr .stack k))
    (hm : s.maps fd = some m) (hkey : m.keySize = 4) (hframe : State.InFrame k 4)
    (hread : s.stack.read k 4 = some zeroKey) :
    ∃ t, Reaches e code s₀ (n + 1) t ∧ t.pc = 10 ∧
      t.regs 0 = some (if zeroKey ∈ m.entries then .ptr (.value fd zeroKey) 0 else .scalar 0) ∧
      t.regs 2 = none ∧ t.regs 10 = s.regs 10 ∧ t.maps = s.maps ∧ t.stack = s.stack := by
  rw [← hkey] at hframe hread
  have hcall := exec_mapLookup (e := e) hr1 hm hr2 hframe hread
  have hfetch' : code[s.pc]?.join = some (.call 1) := by
    rw [hpc]
    exact hfetch
  refine ⟨_, hreach.snoc hfetch' hcall, ?_, rfl, rfl, rfl, rfl, rfl⟩
  change s.pc + 1 = 10
  rw [hpc]

/-- `runtime_monitor` comes to its jump with the result of the lookup in `r0`. -/
theorem prog1_lookup (hm : maps fd = some m) (hkey : m.keySize = 4) :
    ∃ s, Reaches e (prog1Code fd) (.start maps) 8 s ∧ s.pc = 10 ∧
      s.regs 0 = some (if zeroKey ∈ m.entries then .ptr (.value fd zeroKey) 0 else .scalar 0) ∧
      s.regs 2 = none ∧ s.maps = maps := by
  have hprologue : ∃ s, Reaches e (prog1Code fd) (.start maps) 7 s ∧
      s.pc = 9 ∧ s.regs 1 = some (.map fd) ∧ s.regs 2 = some (.ptr .stack (-4)) ∧
      s.stack = Mem.empty.write (-4) zeroKey ∧ s.maps = maps := by
    refine ⟨_, .step rfl rfl <| .step rfl rfl <| .step rfl rfl <| .step rfl rfl <|
      .step rfl rfl <| .step rfl rfl <| .step rfl rfl <| .refl _, ?_⟩
    exact ⟨rfl, rfl, rfl, rfl, rfl⟩
  obtain ⟨s, hreach, hpc, hr1, hr2, hstack, hmaps⟩ := hprologue
  have hread : s.stack.read (-4) 4 = some zeroKey := by
    rw [hstack]
    exact Mem.read_write _ _ zeroKey
  obtain ⟨t, hreach', htpc, hr0, htr2, _, htmaps, _⟩ :=
    reaches_lookup hreach hpc rfl hr1 hr2 (hmaps ▸ hm) hkey (by decide) hread
  exact ⟨t, hreach', htpc, hr0, htr2, htmaps.trans hmaps⟩

theorem invoke_prog1 : invoke (prog1Insns fd) e maps = run e (prog1Code fd) 25 (.start maps) := by
  unfold invoke
  rw [decode_prog1Insns]
  rfl

theorem invoke_prog2 : invoke (prog2Insns fd) e maps = run e (prog2Code fd) 25 (.start maps) := by
  unfold invoke
  rw [decode_prog2Insns]
  rfl

/-- Without a counter the jump of `runtime_monitor` skips the word that sets `r2`. -/
theorem prog1_missing (hm : maps fd = some m) (hkey : m.keySize = 4)
    (hmissing : zeroKey ∉ m.entries) :
    invoke (prog1Insns fd) e maps = .error (.uninitialisedRegister 2) := by
  obtain ⟨s, hreach, hpc, hr0, hr2, _⟩ := prog1_lookup (e := e) hm hkey
  rw [if_neg hmissing] at hr0
  have hfetch : (prog1Code fd)[s.pc]?.join = some (.jeq 0 0 6) := by
    rw [hpc]
    rfl
  have hjump : exec e s (.jeq 0 0 6) = .ok (.next { s with pc := 17 }) := by
    refine exec_jeq_taken hr0 rfl ?_
    rw [hpc]
    rfl
  have hfault : exec e { s with pc := 17 } (.alu64 .add 2 (.imm (-16))) =
      .error (.uninitialisedRegister 2) := exec_add_of_none hr2
  rw [invoke_prog1]
  refine (run_of_reaches 17 hreach).trans ?_
  refine (run_of_next hfetch hjump).trans ?_
  exact run_of_error rfl hfault

/-- `arena_audit` comes to its jump with the flags and the stored immediate on the stack. -/
theorem prog2_lookup {flags : List Byte} (hflags : slice e.ctx 112 8 = some flags)
    (hm : maps fd = some m) (hkey : m.keySize = 4) :
    ∃ s, Reaches e (prog2Code fd) (.start maps) 9 s ∧ s.pc = 10 ∧
      s.regs 0 = some (if zeroKey ∈ m.entries then .ptr (.value fd zeroKey) 0 else .scalar 0) ∧
      s.regs 10 = some (.ptr .stack 0) ∧ s.maps = maps ∧
      s.stack = (Mem.empty.write (-8)
        (bytesOf 8 (BitVec.ofNat 64 (valueOf flags)).toNat)).write (-12) zeroKey := by
  have hload : exec e (.start maps) (.ldx 8 1 1 112) =
      .ok (.next ((State.start maps).set 1 (.scalar (BitVec.ofNat 64 (valueOf flags))))) :=
    exec_ldx_ctx rfl hflags
  have hprologue : ∃ s, Reaches e (prog2Code fd) (.start maps) 8 s ∧
      s.pc = 9 ∧ s.regs 1 = some (.map fd) ∧ s.regs 2 = some (.ptr .stack (-12)) ∧
      s.regs 10 = some (.ptr .stack 0) ∧ s.maps = maps ∧
      s.stack = (Mem.empty.write (-8)
        (bytesOf 8 (BitVec.ofNat 64 (valueOf flags)).toNat)).write (-12) zeroKey := by
    refine ⟨_, .step rfl hload <| .step rfl rfl <| .step rfl rfl <| .step rfl rfl <|
      .step rfl rfl <| .step rfl rfl <| .step rfl rfl <| .step rfl rfl <| .refl _, ?_⟩
    exact ⟨rfl, rfl, rfl, rfl, rfl, rfl⟩
  obtain ⟨s, hreach, hpc, hr1, hr2, hr10, hmaps, hstack⟩ := hprologue
  have hread : s.stack.read (-12) 4 = some zeroKey := by
    rw [hstack]
    exact Mem.read_write _ _ zeroKey
  obtain ⟨t, hreach', htpc, hr0, _, htr10, htmaps, htstack⟩ :=
    reaches_lookup hreach hpc rfl hr1 hr2 (hmaps ▸ hm) hkey (by decide) hread
  exact ⟨t, hreach', htpc, hr0, htr10.trans hr10, htmaps.trans hmaps, htstack.trans hstack⟩

/-- The value that `arena_audit` writes: the stored immediate, and the low half of the flags. -/
def auditValue (flags : List Byte) : List Byte := zeroKey ++ bytesOf 4 (valueOf flags)

theorem read_auditValue {flags : List Byte} (stack : Mem) (one : List Byte)
    (hone : one.length = 8) (hflags : valueOf flags < 256 ^ 8) :
    (((stack.write (-8) (bytesOf 8 (BitVec.ofNat 64 (valueOf flags)).toNat)).write (-12)
      zeroKey).write (-24) one).read (-12) 8 = some (auditValue flags) := by
  have hnat : (BitVec.ofNat 64 (valueOf flags)).toNat = valueOf flags :=
    Nat.mod_eq_of_lt hflags
  rw [hnat, Mem.read_write_of_disjoint (by rw [hone]; omega)]
  apply Mem.read_append (n := 4) (k := 4)
  · exact Mem.read_write _ _ zeroKey
  · rw [Mem.read_write_of_disjoint (.inr (le_refl (-8 : ℤ))), ← take_bytesOf (by omega : 4 ≤ 8)]
    exact Mem.read_write_take _ _ (by rw [length_bytesOf]; omega)

/-- From word 15 on, `arena_audit` updates the key 1, with the value that begins at its first
stored immediate. -/
theorem prog2_create {s : State} {flags : List Byte} {fuel : ℕ} (hpc : s.pc = 15)
    (hr10 : s.regs 10 = some (.ptr .stack 0)) (hm : s.maps fd = some m) (hkey : m.keySize = 4)
    (hsize : m.valueSize = 8) (hflags : valueOf flags < 256 ^ 8)
    (hstack : s.stack = (Mem.empty.write (-8)
      (bytesOf 8 (BitVec.ofNat 64 (valueOf flags)).toNat)).write (-12) zeroKey) :
    run e (prog2Code fd) (fuel + 9) s =
      .ok (.scalar (m.update (bytesOf 4 1) (auditValue flags) 0).2, Function.update s.maps fd
        (some (m.update (bytesOf 4 1) (auditValue flags) 0).1)) := by
  have harguments : ∃ t, Reaches e (prog2Code fd) s 7 t ∧ t.pc = 23 ∧
      t.regs 1 = some (.map fd) ∧ t.regs 2 = some (.ptr .stack (-24)) ∧
      t.regs 3 = some (.ptr .stack (-12)) ∧ t.regs 4 = some (.scalar 0) ∧ t.maps = s.maps ∧
      t.stack = s.stack.write (-24) (bytesOf 8 1) := by
    obtain ⟨pc, regs, stack, maps⟩ := s
    cases hpc
    refine ⟨_, .step rfl (exec_st_stack hr10 (by decide)) <| .step rfl (exec_mov hr10) <|
      .step rfl rfl <| .step rfl rfl <| .step rfl (exec_mov hr10) <| .step rfl rfl <|
      .step rfl rfl <| .refl _, ?_⟩
    exact ⟨rfl, rfl, rfl, rfl, rfl, rfl, rfl⟩
  obtain ⟨t, hreach, htpc, hr1, hr2, hr3, hr4, hmaps, htstack⟩ := harguments
  have hreadKey : t.stack.read (-24) m.keySize = some (bytesOf 4 1) := by
    rw [htstack, hkey, ← take_bytesOf (by omega : 4 ≤ 8)]
    exact Mem.read_write_take _ _ (by rw [length_bytesOf]; omega)
  have hreadValue : t.stack.read (-12) m.valueSize = some (auditValue flags) := by
    rw [htstack, hstack, hsize]
    exact read_auditValue _ _ (length_bytesOf 8 1) hflags
  have hkeyFrame : State.InFrame (-24) m.keySize := by
    rw [hkey]
    decide
  have hvalueFrame : State.InFrame (-12) m.valueSize := by
    rw [hsize]
    decide
  have hcall := exec_mapUpdate (e := e) hr1 (hmaps ▸ hm) hr2 hkeyFrame hreadKey hr3 hvalueFrame
    hreadValue hr4
  have hfetch : (prog2Code fd)[t.pc]?.join = some (.call 2) := by
    rw [htpc]
    rfl
  have hexit : (prog2Code fd)[t.pc + 1]?.join = some .exit := by
    rw [htpc]
    rfl
  refine (run_of_reaches (fuel + 2) hreach).trans ?_
  refine (run_of_next hfetch hcall).trans ?_
  rw [← hmaps]
  exact run_of_exit hexit (exec_exit rfl)

/-- Without a counter for the key 0, `arena_audit` updates the key 1. -/
theorem prog2_missing {flags : List Byte} (hflags : slice e.ctx 112 8 = some flags)
    (hm : maps fd = some m) (hkey : m.keySize = 4) (hsize : m.valueSize = 8)
    (hmissing : zeroKey ∉ m.entries) :
    invoke (prog2Insns fd) e maps =
      .ok (.scalar (m.update (bytesOf 4 1) (auditValue flags) 0).2, Function.update maps fd
        (some (m.update (bytesOf 4 1) (auditValue flags) 0).1)) := by
  obtain ⟨s, hreach, hpc, hr0, hr10, hmaps, hstack⟩ := prog2_lookup hflags hm hkey
  rw [if_neg hmissing] at hr0
  have hfetch : (prog2Code fd)[s.pc]?.join = some (.jeq 0 0 4) := by
    rw [hpc]
    rfl
  have hjump : exec e s (.jeq 0 0 4) = .ok (.next { s with pc := 15 }) := by
    refine exec_jeq_taken hr0 rfl ?_
    rw [hpc]
    rfl
  have hbound : valueOf flags < 256 ^ 8 := valueOf_lt_of_slice hflags
  rw [invoke_prog2]
  refine (run_of_reaches 16 hreach).trans ?_
  refine (run_of_next hfetch hjump).trans ?_
  rw [← hmaps]
  exact prog2_create rfl hr10 (hmaps ▸ hm) hkey hsize hbound hstack

end Event
end LingNet.EbpfLoader
