import LingNet.Zig.Path
import Mathlib.Data.Int.Notation
import Mathlib.Tactic.SplitIfs

/-! The hook of the security module that decides on opened files. It sees the name of a file, and
the whitelist is meant for the directories above it. -/
namespace LingNet.Lsm
open Zig.Path

def MAX_PATH_LEN : ℕ := 256

def EPERM : ℤ := 1

/-- `path` is the string in the buffer of the event. -/
structure LsmPolicyEvent where
  pid : UInt32
  cgroupId : UInt64
  lsmHook : ℤ
  verdict : ℤ
  path : List UInt8
  deriving DecidableEq, Repr

/-- The keys of the two hash maps; only their presence is asked for. -/
structure Maps where
  pathWhitelist : List UInt64
  lingnetCgroup : List UInt64

/-- The task that opens a file. -/
structure Task where
  pidTgid : UInt64
  cgroupId : UInt64

def isLingnetCgroup (maps : Maps) (cgroupId : UInt64) : Bool := maps.lingnetCgroup.contains cgroupId

/-- A `char` of the hash is signed. -/
def signedChar (c : UInt8) : UInt64 := c.toInt8.toInt64.toUInt64

/-- The loop of `djb2_hash`, which ends at a zero byte. -/
def djb2Loop (hash : UInt64) : List UInt8 → UInt64
  | [] => hash
  | c :: str => if c = 0 then hash else djb2Loop (((hash <<< 5) + hash) + signedChar c) str

def djb2Hash (str : List UInt8) (len : ℕ) : UInt64 :=
  djb2Loop 5381 ((str.take len).take MAX_PATH_LEN)

example : djb2Hash [97, 98] 2 = 5863208 := by decide

/-- A name in a directory. -/
abbrev Component := { c : List UInt8 // c ≠ [] ∧ slash ∉ c ∧ 0 ∉ c ∧ c.length ≤ 255 }

/-- An opened file: where it is, and the name in its directory entry. The root of a file system
has no name of its own. -/
structure File where
  path : List Component
  dName : List UInt8
  dName_eq : dName = [slash] ∨ ∃ c ∈ path.getLast?, dName = c.val

/-- `bpf_probe_read_kernel_str` into the buffer of an event. -/
def probeReadStr (name : List UInt8) : List UInt8 :=
  (name.takeWhile (· ≠ 0)).take (MAX_PATH_LEN - 1)

/-- The verdict on a file, and the events that were put out. -/
def lsmFileOpen (maps : Maps) (task : Task) (file : File) : ℤ × List LsmPolicyEvent :=
  let cgroupId := task.cgroupId
  if !isLingnetCgroup maps cgroupId then (0, [])
  else
    let name := file.dName
    let hash := djb2Hash name name.length
    if maps.pathWhitelist.contains hash then (0, [])
    else
      let e : LsmPolicyEvent :=
        { pid := (task.pidTgid >>> 32).toUInt32
          cgroupId := cgroupId
          lsmHook := 1
          verdict := -EPERM
          path := probeReadStr name }
      (-EPERM, [e])

/-- The file lies in a directory or is it. -/
def File.Under (file : File) (dir : List UInt8) : Prop :=
  Absolute dir ∧ components dir <+: file.path.map Subtype.val

instance (file : File) (dir : List UInt8) : Decidable (file.Under dir) := by
  unfold File.Under
  infer_instance

/-- The map as its comment describes it. -/
def whitelistOf (prefixes : List (List UInt8)) : List UInt64 :=
  prefixes.map fun dir => djb2Hash dir dir.length

/-- The hook lets exactly the files in the allowed directories be opened and puts out one denial for
every other one; a task that is not monitored may open everything. -/
def EnforcesPrefixes (prefixes : List (List UInt8)) (maps : Maps) (task : Task) (file : File) :
    Prop :=
  let r := lsmFileOpen maps task file
  if isLingnetCgroup maps task.cgroupId then
    (r.1 = 0 ↔ ∃ dir ∈ prefixes, file.Under dir) ∧
      ((∃ dir ∈ prefixes, file.Under dir) → r.2 = []) ∧
      ((¬ ∃ dir ∈ prefixes, file.Under dir) → ∃ e, r.2 = [e] ∧ e.verdict = -EPERM)
  else r = (0, [])

section Verdict

variable {prefixes : List (List UInt8)} {maps : Maps} {task : Task} {file : File}

theorem lsmFileOpen_of_not_monitored (h : isLingnetCgroup maps task.cgroupId = false) :
    lsmFileOpen maps task file = (0, []) := by
  simp [lsmFileOpen, h]

theorem lsmFileOpen_of_mem (h : djb2Hash file.dName file.dName.length ∈ maps.pathWhitelist) :
    lsmFileOpen maps task file = (0, []) := by
  simp [lsmFileOpen, h]

theorem lsmFileOpen_of_notMem (hmonitored : isLingnetCgroup maps task.cgroupId = true)
    (h : djb2Hash file.dName file.dName.length ∉ maps.pathWhitelist) :
    ∃ e, lsmFileOpen maps task file = (-EPERM, [e]) ∧ e.verdict = -EPERM := by
  simp [lsmFileOpen, hmonitored, h]

/-- Without collisions the hash of a name is in the map just if the name is one of the prefixes. -/
theorem mem_whitelistOf_iff
    (hcollide : ∀ dir ∈ prefixes, djb2Hash file.dName file.dName.length =
      djb2Hash dir dir.length → file.dName = dir) :
    djb2Hash file.dName file.dName.length ∈ whitelistOf prefixes ↔ file.dName ∈ prefixes := by
  unfold whitelistOf
  rw [List.mem_map]
  constructor
  · rintro ⟨dir, hdir, hhash⟩
    rw [hcollide dir hdir hhash.symm]
    exact hdir
  · intro hname
    exact ⟨file.dName, hname, rfl⟩

/-- The hook enforces the prefixes on the files whose own name is one of them exactly where they
lie under one. -/
theorem enforces_prefixes_iff (hmap : maps.pathWhitelist = whitelistOf prefixes)
    (hcollide : ∀ dir ∈ prefixes, djb2Hash file.dName file.dName.length =
      djb2Hash dir dir.length → file.dName = dir) :
    EnforcesPrefixes prefixes maps task file ↔
      isLingnetCgroup maps task.cgroupId = false ∨
        (file.dName ∈ prefixes ↔ ∃ dir ∈ prefixes, file.Under dir) := by
  unfold EnforcesPrefixes
  rw [← mem_whitelistOf_iff hcollide, ← hmap]
  by_cases hmonitored : isLingnetCgroup maps task.cgroupId = true
  · rw [if_pos hmonitored]
    simp only [hmonitored, Bool.true_eq_false, false_or]
    by_cases hmem : djb2Hash file.dName file.dName.length ∈ maps.pathWhitelist
    · simp only [lsmFileOpen_of_mem hmem, hmem]
      simp
    · obtain ⟨e, hrun, hverdict⟩ := lsmFileOpen_of_notMem hmonitored hmem
      have hdenied : ¬ -EPERM = 0 := by decide
      simp [hrun, hmem, hverdict, hdenied]
  · have hfree := eq_false_of_ne_true hmonitored
    rw [if_neg hmonitored]
    simp [hfree, lsmFileOpen_of_not_monitored hfree]

end Verdict

/-- `/skills/` -/
def skillsDir : List UInt8 := [47, 115, 107, 105, 108, 108, 115, 47]

/-- Cgroup 7 is monitored, and `/skills/` is allowed. -/
def skillsMaps : Maps where
  pathWhitelist := whitelistOf [skillsDir]
  lingnetCgroup := [7]

def skillTask : Task := ⟨0x100000001, 7⟩

/-- `/skills/x` -/
def skillFile : File where
  path := [⟨[115, 107, 105, 108, 108, 115], by decide⟩, ⟨[120], by decide⟩]
  dName := [120]
  dName_eq := .inr ⟨⟨[120], by decide⟩, rfl, rfl⟩

theorem skillFile_enforced_iff :
    EnforcesPrefixes [skillsDir] skillsMaps skillTask skillFile ↔
      isLingnetCgroup skillsMaps skillTask.cgroupId = false ∨
        (skillFile.dName ∈ [skillsDir] ↔ ∃ dir ∈ [skillsDir], skillFile.Under dir) :=
  enforces_prefixes_iff rfl (by decide)

/-- The file lies in the allowed directory, no hash collides, and it is denied. -/
theorem skillFile_denied :
    (∀ dir ∈ [skillsDir], djb2Hash skillFile.dName skillFile.dName.length =
        djb2Hash dir dir.length → skillFile.dName = dir) ∧
      skillFile.Under skillsDir ∧ (lsmFileOpen skillsMaps skillTask skillFile).1 ≠ 0 ∧
      ¬ EnforcesPrefixes [skillsDir] skillsMaps skillTask skillFile := by
  have hunder : skillFile.Under skillsDir := by decide
  have hdenied : (lsmFileOpen skillsMaps skillTask skillFile).1 ≠ 0 := by decide
  refine ⟨by decide, hunder, hdenied, ?_⟩
  intro henforces
  apply hdenied
  exact henforces.1.mpr ⟨skillsDir, List.mem_singleton_self skillsDir, hunder⟩

end LingNet.Lsm
