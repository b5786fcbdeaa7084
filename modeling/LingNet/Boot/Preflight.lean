import LingNet.EbpfLoader.Loading
import LingNet.Gqap.Pools
import LingNet.Zig.Heap
import LingNet.Zig.ParseInt
import Mathlib.Data.List.DropRight

/-! The startup sequence: kernel check, cgroup id, eBPF programs, huge pages, CPU isolation, arena
pools, sanitizer thread. The kernel's answers are given; the open descriptors are a ghost part. -/
namespace LingNet.Boot
open Zig EbpfLoader

inductive BootError where
  | unsupportedKernel
  | ebpf (e : EbpfError)
  | pools (e : Gqap.InitError)
  | spawn
  deriving DecidableEq, Repr

structure BootConfig where
  minKernelMajor : ℕ := 5
  minKernelMinor : ℕ := 10
  hugepagesMin : ℕ := 2048
  arenaBlockCount : ℕ := 10000
  arenaBlockSize : ℕ := 65536
  sanitizerCore : UInt8 := 6
  enableEbpf : Bool := true
  enableHugepages : Bool := true
  deriving DecidableEq, Repr

structure BootResult where
  kernelOk : Bool
  kernelVersion : List UInt8 := []
  ebpfLoaded : Bool
  ebpfLsmFd : ℤ := -1
  ebpfMonitorFd : ℤ := -1
  ebpfAuditFd : ℤ := -1
  hugepagesOk : Bool
  arenaPooled : Bool
  sanitizerStarted : Bool
  cgroupId : UInt64
  routeTableLoaded : Bool
  deriving DecidableEq, Repr

structure SanitizerThreadCtx where
  targetCpu : ℕ
  wakeIntervalMs : ℕ
  deriving DecidableEq, Repr

/-- What an `open` of a file returns, and the `read` behind it: a number, and the bytes that the
buffer then has. -/
structure File where
  openResult : UInt64
  readResult : UInt64
  content : ℕ → UInt8

structure Statx where
  ret : UInt64
  ino : UInt64
  deriving DecidableEq, Repr

/-- The answers of the kernel and of the allocator, and the hash of `std.hash.Wyhash`. -/
structure Env where
  version : File
  statx : Statx
  cgroup : File
  wyhash : List UInt8 → UInt64
  ebpf : ℕ → Answer
  hugepages : File
  isolated : UInt64
  mapping : Option ℕ
  table : Bool
  spawn : Bool

structure Process where
  kernel : Kernel := {}
  pools : Option Gqap.Globals := none
  threads : List SanitizerThreadCtx := []

/-- The bytes of `buf[0..n]`. -/
def File.bytes (file : File) : List UInt8 := (List.range file.readResult.toNat).map file.content

/-- `open`, with the descriptor closed at the end unless there is none. Only `~0` counts as
none; the casts of other errors stop the process. -/
def withFile {α : Type} (openResult : UInt64) (missing : α) (body : Proc Process BootError α) :
    Proc Process BootError α := do
  Proc.modify fun s => { s with kernel := s.kernel.openFile openResult }
  if openResult.toNat = 2 ^ 64 - 1 then pure missing
  else
    let fd ← Proc.lift (intCast 31 openResult.toNat)
    Proc.defer (fun s => { s with kernel := s.kernel.close fd }) body

structure KernelVersion where
  major : ℕ
  minor : ℕ
  patch : ℕ
  deriving DecidableEq, Repr

/-- `std.mem.indexOf` -/
def indexOf (haystack needle : List UInt8) : Option ℕ :=
  (List.range (haystack.length + 1)).find? fun i => needle.isPrefixOf (haystack.drop i)

/-- `Linux version ` -/
def versionPrefix : List UInt8 :=
  [76, 105, 110, 117, 120, 32, 118, 101, 114, 115, 105, 111, 110, 32]

/-- One of `. -+` and the newline. -/
def isVersionDelimiter (c : UInt8) : Bool := [46, 32, 45, 43, 10].contains c

def parseKernelVersion (buf : List UInt8) : Option KernelVersion := do
  let searchEnd := if buf.length < 256 then buf.length else 256
  let idx ← indexOf (buf.take searchEnd) versionPrefix
  let start := idx + versionPrefix.length
  let stop := if start + 32 < buf.length then start + 32 else buf.length
  let parts := ((buf.drop start).take (stop - start)).splitOnP isVersionDelimiter
  let major ← parts[0]? >>= parseInt 32
  let minor ← parts[1]? >>= parseInt 32
  -- `0`
  let patch := (parseInt 32 (parts[2]?.getD [48])).getD 0
  pure { major := major, minor := minor, patch := patch }

def BootConfig.accepts (config : BootConfig) (ver : KernelVersion) : Bool :=
  !(ver.major < config.minKernelMajor ||
    (ver.major == config.minKernelMajor && ver.minor < config.minKernelMinor))

/-- The check of what was read into 512 bytes. -/
def checkVersion (config : BootConfig) (file : File) : Outcome BootError Bool :=
  if file.readResult.toNat = 0 then .ok false
  -- `buf[n] = 0`
  else if 512 ≤ file.readResult.toNat then .trap .outOfBounds
  else .ok (((parseKernelVersion file.bytes).map config.accepts).getD false)

def checkKernelVersion (config : BootConfig) (env : Env) : Proc Process BootError Bool :=
  withFile env.version.openResult false (Proc.lift (checkVersion config env.version))

/-- The hash of the first line of what was read into 4096 bytes. -/
def hashLine (env : Env) : Outcome BootError UInt64 :=
  if env.cgroup.readResult.toNat = 0 then .ok 1
  else if 4096 < env.cgroup.readResult.toNat then .trap .outOfBounds
  else .ok (env.wyhash (env.cgroup.bytes.takeWhile (· ≠ 10)))

/-- It returns no error. -/
def getCurrentCgroupId (env : Env) : Proc Process BootError UInt64 :=
  if env.statx.ret = 0 ∧ env.statx.ino ≠ 0 then pure env.statx.ino
  else withFile env.cgroup.openResult 1 (Proc.lift (hashLine env))

/-- `std.mem.trim(u8, slice, "\n")` -/
def trimNewlines (slice : List UInt8) : List UInt8 :=
  (slice.dropWhile (· = 10)).rdropWhile (· = 10)

/-- The number in what was read into 32 bytes. -/
def checkCount (minCount : ℕ) (file : File) : Outcome BootError Bool :=
  if file.readResult.toNat = 0 then .ok false
  else if 32 < file.readResult.toNat then .trap .outOfBounds
  else .ok (((parseInt 64 (trimNewlines file.bytes)).map fun count =>
    decide (minCount ≤ count)).getD false)

/-- It returns no error. -/
def checkHugePages (minCount : ℕ) (env : Env) : Proc Process BootError Bool :=
  withFile env.hugepages.openResult false (Proc.lift (checkCount minCount env.hugepages))

def checkCpuIsolation (env : Env) : Proc Process BootError Unit :=
  withFile env.isolated () (pure ())

def initPools (env : Env) (config : BootConfig) : Proc Process BootError Unit := fun s =>
  match Gqap.initPools env.mapping env.table config.arenaBlockCount config.arenaBlockSize with
  | .ok pools => (.ok (), { s with pools := some pools })
  | .err e => (.err (.pools e), s)
  | .trap fault => (.trap fault, s)

def startSanitizerThread (config : BootConfig) (env : Env) : Proc Process BootError Bool :=
  if 64 ≤ config.sanitizerCore.toNat then pure false
  else if env.spawn then do
    Proc.modify fun s =>
      { s with threads := s.threads ++ [⟨config.sanitizerCore.toNat, 100⟩] }
    pure true
  else Proc.fail .spawn

/-- The registry is a local one, and its `deinit` runs on every return. -/
def loadEbpfPrograms (env : Env) : Proc Process BootError Bool := fun s =>
  let r := EbpfRegistry.loadAllEmbedded env.ebpf { kernel := s.kernel }
  let closed := { s with kernel := r.2.reg.deinit r.2.kernel }
  match r.1 with
  | .ok _ => (.ok true, closed)
  | .err e => (.err (.ebpf e), closed)
  | .trap fault => (.trap fault, { s with kernel := r.2.kernel })

/-- Boot preflight entry point. -/
def bootCheck (config : BootConfig) (env : Env) : Proc Process BootError BootResult := do
  let kernelOk ← checkKernelVersion config env
  if !kernelOk then Proc.fail .unsupportedKernel
  else
    let cgroupId ← getCurrentCgroupId env
    let ebpfLoaded ← (if config.enableEbpf then loadEbpfPrograms env else pure false)
    let hugepagesOk ←
      (if config.enableHugepages then checkHugePages config.hugepagesMin env else pure false)
    checkCpuIsolation env
    initPools env config
    let sanitizerStarted ← startSanitizerThread config env
    pure
      { kernelOk := kernelOk
        ebpfLoaded := ebpfLoaded
        hugepagesOk := hugepagesOk
        arenaPooled := true
        sanitizerStarted := sanitizerStarted
        cgroupId := cgroupId
        routeTableLoaded := true }

end LingNet.Boot
