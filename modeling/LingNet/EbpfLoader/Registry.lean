import LingNet.EbpfLoader.Insn
import LingNet.Zig.Proc
import Mathlib.Logic.Function.Basic

/-! The registry of loaded programs and maps, and what the kernel hands out to it. -/
namespace LingNet.EbpfLoader
open Zig Function

inductive EbpfError where
  | invalidBytecode
  | mapCreationFailed
  | programLoadFailed
  | outOfMemory
  deriving DecidableEq, Repr

inductive MapType where
  | hash
  | array
  | progArray
  | perfEventArray
  deriving DecidableEq, Repr

/-- `@intFromEnum` -/
def MapType.toNat : MapType → ℕ
  | .hash => 1
  | .array => 2
  | .progArray => 3
  | .perfEventArray => 4

inductive ProgType where
  | kprobe
  | tracepoint
  | xdp
  | perfEvent
  | lsm
  deriving DecidableEq, Repr

def ProgType.toNat : ProgType → ℕ
  | .kprobe => 2
  | .tracepoint => 5
  | .xdp => 6
  | .perfEvent => 7
  | .lsm => 29

structure MapCreateAttr where
  mapType : ℕ
  keySize : ℕ
  valueSize : ℕ
  maxEntries : ℕ
  deriving DecidableEq, Repr

/-- The attributes behind their pointers; the buffer of the verifier's log is not among them. -/
structure ProgLoadAttr where
  progType : ℕ
  insnCnt : ℕ
  insns : List (BitVec 64)
  license : String
  logLevel : ℕ
  logSize : ℕ
  deriving DecidableEq, Repr

/-- A `bpf()` call. -/
inductive Command where
  | mapCreate (attr : MapCreateAttr)
  | progLoad (attr : ProgLoadAttr)
  deriving DecidableEq, Repr

inductive BpfCmd where
  | mapCreate
  | progLoad
  deriving DecidableEq, Repr

def Command.cmd : Command → BpfCmd
  | .mapCreate _ => .mapCreate
  | .progLoad _ => .progLoad

/-- The kernel's results from `-4095` to `-1`. -/
def Failed (result : UInt64) : Prop := 2 ^ 64 - 4095 ≤ result.toNat

instance : DecidablePred Failed := fun _ => inferInstanceAs (Decidable (_ ≤ _))

/-- What a descriptor stands for: a file, or what a `bpf()` call has returned it for. -/
inductive Object where
  | file
  | bpf (call : ℕ)
  deriving DecidableEq, Repr

/-- The `bpf()` calls with their results, the descriptors closed, and the open ones. -/
structure Kernel where
  commands : List (Command × UInt64) := []
  closed : List ℕ := []
  table : ℕ → Option Object := fun _ => none

namespace Kernel

def bpf (command : Command) (result : UInt64) (k : Kernel) : Kernel :=
  { k with
    commands := k.commands ++ [(command, result)]
    table := if Failed result then k.table
      else update k.table result.toNat (some (.bpf k.commands.length)) }

def openFile (result : UInt64) (k : Kernel) : Kernel :=
  { k with
    table := if Failed result then k.table else update k.table result.toNat (some .file) }

def close (fd : ℕ) (k : Kernel) : Kernel :=
  { k with closed := k.closed ++ [fd], table := update k.table fd none }

/-- The descriptors that calls have returned. -/
def returned (k : Kernel) : List ℕ :=
  k.commands.filterMap fun c => if Failed c.2 then none else some c.2.toNat

end Kernel

structure BpfProgram where
  fd : ℤ
  progType : ProgType
  name : String
  deriving DecidableEq, Repr

structure BpfMap where
  fd : ℤ
  mapType : MapType
  keySize : ℕ
  valueSize : ℕ
  maxEntries : ℕ
  deriving DecidableEq, Repr

/-- The check and the call of `detach` and of `BpfMap.close`. -/
def closeFd (fd : ℤ) (k : Kernel) : Kernel := if 0 ≤ fd then k.close fd.toNat else k

def BpfProgram.detach (prog : BpfProgram) (k : Kernel) : BpfProgram × Kernel :=
  (if 0 ≤ prog.fd then { prog with fd := -1 } else prog, closeFd prog.fd k)

def BpfMap.close (map : BpfMap) (k : Kernel) : BpfMap × Kernel :=
  (if 0 ≤ map.fd then { map with fd := -1 } else map, closeFd map.fd k)

/-- `StringHashMap` and `ArrayList`. -/
structure EbpfRegistry where
  maps : List (String × BpfMap) := []
  progs : List BpfProgram := []
  deriving DecidableEq, Repr

namespace EbpfRegistry

/-- `maps.put` replaces what the key is bound to. -/
def put (name : String) (map : BpfMap) (reg : EbpfRegistry) : EbpfRegistry :=
  { reg with maps := reg.maps.filter (fun entry => entry.1 ≠ name) ++ [(name, map)] }

def append (prog : BpfProgram) (reg : EbpfRegistry) : EbpfRegistry :=
  { reg with progs := reg.progs ++ [prog] }

def deinit (reg : EbpfRegistry) (k : Kernel) : Kernel :=
  let k := reg.progs.foldl (fun k prog => (prog.detach k).2) k
  reg.maps.foldl (fun k entry => (entry.2.close k).2) k

end EbpfRegistry

/-- What answers a `bpf()` call: its result, and whether the insertion that follows finds memory. -/
structure Answer where
  result : UInt64
  delivers : Bool
  deriving DecidableEq, Repr

structure Loader where
  kernel : Kernel := {}
  reg : EbpfRegistry := {}

/-- The calls are answered by their number. -/
def bpf (answers : ℕ → Answer) (command : Command) : Proc Loader EbpfError Answer := fun s =>
  let answer := answers s.kernel.commands.length
  (.ok answer, { s with kernel := s.kernel.bpf command answer.result })

/-- A call, its check, and the insertion of what it has returned. -/
def acquire {α : Type} (answers : ℕ → Answer) (command : Command) (failed : EbpfError)
    (make : ℤ → α) (insert : α → EbpfRegistry → EbpfRegistry) : Proc Loader EbpfError α := do
  let answer ← bpf answers command
  -- a `usize` is never below zero
  if answer.result.toNat < 0 then Proc.fail failed
  else
    let fd ← Proc.lift (intCast 31 answer.result.toNat)
    let item := make fd
    if answer.delivers then
      Proc.modify fun s => { s with reg := insert item s.reg }
      pure item
    else Proc.fail .outOfMemory

def EbpfRegistry.createMap (answers : ℕ → Answer) (mapType : MapType)
    (keySize valueSize maxEntries : ℕ) (name : String) : Proc Loader EbpfError BpfMap :=
  acquire answers
    (.mapCreate
      { mapType := mapType.toNat
        keySize := keySize
        valueSize := valueSize
        maxEntries := maxEntries })
    .mapCreationFailed
    (fun fd =>
      { fd := fd
        mapType := mapType
        keySize := keySize
        valueSize := valueSize
        maxEntries := maxEntries })
    (EbpfRegistry.put name)

def EbpfRegistry.loadProgramRaw (answers : ℕ → Answer) (insns : List (BitVec 64))
    (progType : ProgType) (name : String) : Proc Loader EbpfError BpfProgram := do
  if insns.length = 0 then Proc.fail .invalidBytecode
  else
    let insnCnt ← Proc.lift (intCast 32 insns.length)
    acquire answers
      (.progLoad
        { progType := progType.toNat
          insnCnt := insnCnt
          insns := insns
          license := "GPL"
          logLevel := 1
          logSize := 65536 })
      .programLoadFailed
      (fun fd => { fd := fd, progType := progType, name := name })
      EbpfRegistry.append

/-- `@as(u32, @intCast(map.fd))` -/
def mapFd (map : BpfMap) : Outcome EbpfError (BitVec 32) :=
  if 0 ≤ map.fd then .ok (.ofNat 32 map.fd.toNat) else .trap .integerCast

/-- `lsm_policy`, on `task_prctl`. -/
def prog3Insns : List (BitVec 64) := [
  bpfLdxMem bpfW bpfReg1 bpfReg1 8,
  bpfJmpK bpfJeq bpfReg1 26 2,
  bpfMov64K bpfReg0 0,
  bpfExit,
  bpfMov64K bpfReg0 (-1),
  bpfExit]

def EbpfRegistry.loadAllEmbedded (answers : ℕ → Answer) : Proc Loader EbpfError Unit := do
  let syscallCountMap ← createMap answers .hash 4 8 1024 "syscall_count"
  let cloneAuditMap ← createMap answers .hash 4 8 1024 "clone_audit"
  let mapFd1 ← Proc.lift (mapFd syscallCountMap)
  let _ ← loadProgramRaw answers (prog1Insns mapFd1) .tracepoint "runtime_monitor"
  let mapFd2 ← Proc.lift (mapFd cloneAuditMap)
  let _ ← loadProgramRaw answers (prog2Insns mapFd2) .kprobe "arena_audit"
  let _ ← loadProgramRaw answers prog3Insns .lsm "lsm_policy"
  pure ()

/-! What the registry holds, and what it closes. -/

def EbpfRegistry.fds (reg : EbpfRegistry) : List ℤ :=
  reg.progs.map BpfProgram.fd ++ reg.maps.map fun entry => entry.2.fd

def EbpfRegistry.names (reg : EbpfRegistry) : List String := reg.maps.map Prod.fst

section Close

variable {k : Kernel} {reg : EbpfRegistry}

theorem deinit_eq (reg : EbpfRegistry) (k : Kernel) :
    reg.deinit k = reg.fds.foldl (fun k fd => closeFd fd k) k := by
  unfold EbpfRegistry.deinit EbpfRegistry.fds
  rw [List.foldl_append, List.foldl_map, List.foldl_map]
  rfl

theorem closed_foldl (fds : List ℤ) (k : Kernel) :
    (fds.foldl (fun k fd => closeFd fd k) k).closed =
      k.closed ++ (fds.filter fun fd => 0 ≤ fd).map Int.toNat := by
  induction fds generalizing k with
  | nil =>
    show k.closed = _
    simp
  | cons fd fds ih =>
    rw [List.foldl_cons, ih]
    unfold closeFd
    split_ifs with hfd
    · simp [Kernel.close, hfd]
    · simp [hfd]

theorem table_foldl (fds : List ℤ) (k : Kernel) (n : ℕ) :
    (fds.foldl (fun k fd => closeFd fd k) k).table n =
      if (n : ℤ) ∈ fds then none else k.table n := by
  induction fds generalizing k with
  | nil => simp
  | cons fd fds ih =>
    rw [List.foldl_cons, ih]
    have hclose : (closeFd fd k).table n = if (n : ℤ) = fd then none else k.table n := by
      unfold closeFd
      by_cases hfd : 0 ≤ fd
      · rw [if_pos hfd]
        show update k.table fd.toNat none n = _
        rw [update_apply]
        have hsame : n = fd.toNat ↔ (n : ℤ) = fd := by omega
        simp only [hsame]
      · have hne : (n : ℤ) ≠ fd := by omega
        rw [if_neg hfd, if_neg hne]
    rw [hclose]
    by_cases hmem : (n : ℤ) ∈ fds
    · rw [if_pos hmem, if_pos (List.mem_cons_of_mem fd hmem)]
    · by_cases heq : (n : ℤ) = fd
      · rw [if_neg hmem, if_pos heq, if_pos (List.mem_cons.mpr (.inl heq))]
      · have hnot : (n : ℤ) ∉ fd :: fds := by
          rw [List.mem_cons, not_or]
          exact ⟨heq, hmem⟩
        rw [if_neg hmem, if_neg heq, if_neg hnot]

theorem commands_foldl (fds : List ℤ) (k : Kernel) :
    (fds.foldl (fun k fd => closeFd fd k) k).commands = k.commands := by
  induction fds generalizing k with
  | nil => rfl
  | cons fd fds ih =>
    rw [List.foldl_cons, ih]
    unfold closeFd
    split_ifs
    · rfl
    · rfl

theorem fds_append (prog : BpfProgram) (reg : EbpfRegistry) :
    (reg.append prog).fds.Perm (reg.fds ++ [prog.fd]) := by
  unfold EbpfRegistry.append EbpfRegistry.fds
  rw [List.map_append, List.append_assoc, List.append_assoc]
  exact List.perm_append_comm.append_left _

theorem put_of_fresh {name : String} (h : name ∉ reg.names) (map : BpfMap) :
    reg.put name map = { reg with maps := reg.maps ++ [(name, map)] } := by
  have hall : reg.maps.filter (fun entry => entry.1 ≠ name) = reg.maps := by
    rw [List.filter_eq_self]
    intro entry hentry
    rw [decide_eq_true_eq]
    rintro rfl
    exact h (List.mem_map_of_mem hentry)
  unfold EbpfRegistry.put
  rw [hall]

theorem fds_put {name : String} (h : name ∉ reg.names) (map : BpfMap) :
    (reg.put name map).fds = reg.fds ++ [map.fd] := by
  rw [put_of_fresh h]
  unfold EbpfRegistry.fds
  rw [List.map_append, List.append_assoc]
  rfl

end Close

end LingNet.EbpfLoader
