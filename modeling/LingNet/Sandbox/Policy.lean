import Mathlib.Data.Int.Notation
import Mathlib.Data.Nat.Notation
import Mathlib.Tactic.SplitIfs

/-! The policy of a sandbox and the capability checks of an instance. -/
namespace LingNet.Sandbox

inductive SandboxError where
  | seccompInstallFailed
  | landlockNotSupported
  | permissionDenied
  | invalidPolicy
  deriving DecidableEq, Repr

inductive SandboxLevel where
  | none
  | seccomp
  | landlock
  | full
  deriving DecidableEq, Repr

/-- `@intFromEnum` -/
def SandboxLevel.toNat : SandboxLevel → ℕ
  | .none => 0
  | .seccomp => 1
  | .landlock => 2
  | .full => 3

inductive Capability where
  | fileRead
  | fileWrite
  | netConnect
  | netListen
  | spawnProcess
  | loadModule
  | systemInfo
  | signalSend
  deriving DecidableEq, Repr

structure SandboxPolicy where
  level : SandboxLevel := .full
  maxMemoryBytes : ℕ := 64 * 1024 * 1024
  maxFileHandles : ℕ := 16
  allowedPaths : List (List UInt8) := []
  deriving DecidableEq, Repr

def SandboxPolicy.validate (self : SandboxPolicy) : Except SandboxError Unit :=
  if self.maxMemoryBytes = 0 then .error .invalidPolicy
  else if 256 < self.maxFileHandles then .error .invalidPolicy
  else .ok ()

example : ({} : SandboxPolicy).validate.isOk = true := by decide

structure SandboxInstance where
  policy : SandboxPolicy
  seccompFd : ℤ := -1
  landlockFd : ℤ := -1
  deriving DecidableEq, Repr

namespace SandboxInstance

/-- Whether the access is a write makes no difference. -/
def checkPathAccess (self : SandboxInstance) (path : List UInt8) (_write : Bool) :
    Except SandboxError Unit :=
  if self.policy.allowedPaths.any fun allowed => allowed.isPrefixOf path then .ok ()
  else .error .permissionDenied

def checkCapability (self : SandboxInstance) (cap : Capability) (path : List UInt8) :
    Except SandboxError Unit :=
  match cap with
  | .fileRead =>
    if self.policy.level = .none then .ok ()
    else self.checkPathAccess path false
  | .fileWrite =>
    if self.policy.level.toNat < SandboxLevel.landlock.toNat then .ok ()
    else self.checkPathAccess path true
  | .netConnect | .netListen =>
    if self.policy.level.toNat < SandboxLevel.seccomp.toNat then .ok () else .ok ()
  | .spawnProcess =>
    if self.policy.level.toNat < SandboxLevel.seccomp.toNat then .error .permissionDenied
    else .ok ()
  | .loadModule | .signalSend => .error .permissionDenied
  | .systemInfo =>
    if self.policy.level.toNat < SandboxLevel.seccomp.toNat then .ok () else .ok ()

/-- A path is allowed when one of the allowed paths is how it starts. -/
def AllowsPath (self : SandboxInstance) (path : List UInt8) : Prop :=
  ∃ allowed ∈ self.policy.allowedPaths, allowed <+: path

theorem checkPathAccess_eq_ok_iff {self : SandboxInstance} {path : List UInt8} {write : Bool} :
    self.checkPathAccess path write = .ok () ↔ self.AllowsPath path := by
  unfold checkPathAccess AllowsPath
  split_ifs with h
  · simpa using h
  · simpa using h

/-- When a capability is granted. -/
def Grants (self : SandboxInstance) (cap : Capability) (path : List UInt8) : Prop :=
  self.checkCapability cap path = .ok ()

section Grants

variable {self : SandboxInstance} {path : List UInt8}

theorem grants_fileRead_iff :
    self.Grants .fileRead path ↔ self.policy.level = .none ∨ self.AllowsPath path := by
  unfold Grants checkCapability
  by_cases h : self.policy.level = .none
  · simp [h]
  · simp [h, checkPathAccess_eq_ok_iff]

theorem grants_fileWrite_iff :
    self.Grants .fileWrite path ↔
      self.policy.level.toNat < SandboxLevel.landlock.toNat ∨ self.AllowsPath path := by
  unfold Grants checkCapability
  by_cases h : self.policy.level.toNat < SandboxLevel.landlock.toNat
  · simp [h]
  · simp [h, checkPathAccess_eq_ok_iff]

theorem grants_spawnProcess_iff :
    self.Grants .spawnProcess path ↔ self.policy.level ≠ .none := by
  unfold Grants checkCapability
  cases self.policy.level <;> simp [SandboxLevel.toNat]

theorem grants_of_info {cap : Capability}
    (hcap : cap = .netConnect ∨ cap = .netListen ∨ cap = .systemInfo) : self.Grants cap path := by
  unfold Grants checkCapability
  rcases hcap with rfl | rfl | rfl <;> exact ite_self _

theorem not_grants_of_never {cap : Capability} (hcap : cap = .loadModule ∨ cap = .signalSend) :
    ¬ self.Grants cap path := by
  unfold Grants checkCapability
  rcases hcap with rfl | rfl <;> nofun

end Grants

/-- The same instance at another level. -/
def atLevel (self : SandboxInstance) (level : SandboxLevel) : SandboxInstance :=
  { self with policy := { self.policy with level := level } }

@[simp] theorem level_atLevel (self : SandboxInstance) (level : SandboxLevel) :
    (self.atLevel level).policy.level = level := rfl

@[simp] theorem allowsPath_atLevel {self : SandboxInstance} {level : SandboxLevel}
    {path : List UInt8} : (self.atLevel level).AllowsPath path ↔ self.AllowsPath path := Iff.rfl

/-- Only the right to spawn processes is granted at a stricter level and not at a weaker one. -/
theorem grants_antitone_iff (self : SandboxInstance) (cap : Capability) (path : List UInt8)
    (a b : SandboxLevel) :
    (a.toNat ≤ b.toNat → (self.atLevel b).Grants cap path → (self.atLevel a).Grants cap path) ↔
      ¬ (cap = .spawnProcess ∧ a = .none ∧ b ≠ .none) := by
  cases cap with
  | fileRead =>
    simp only [grants_fileRead_iff, level_atLevel, allowsPath_atLevel]
    cases a <;> cases b <;> simp [SandboxLevel.toNat]
  | fileWrite =>
    simp only [grants_fileWrite_iff, level_atLevel, allowsPath_atLevel]
    cases a <;> cases b <;> simp [SandboxLevel.toNat]
  | spawnProcess =>
    simp only [grants_spawnProcess_iff, level_atLevel]
    cases a <;> cases b <;> decide
  | netConnect => simp [grants_of_info]
  | netListen => simp [grants_of_info]
  | systemInfo => simp [grants_of_info]
  | loadModule => simp [not_grants_of_never]
  | signalSend => simp [not_grants_of_never]

/-- A path that may be written may be read, but for the level that checks reads only. -/
theorem grants_read_of_write_iff (self : SandboxInstance) (path : List UInt8)
    (level : SandboxLevel) :
    ((self.atLevel level).Grants .fileWrite path → (self.atLevel level).Grants .fileRead path) ↔
      (level = .seccomp → self.AllowsPath path) := by
  simp only [grants_fileWrite_iff, grants_fileRead_iff, level_atLevel, allowsPath_atLevel]
  cases level <;> simp [SandboxLevel.toNat]

/-- Stricter levels grant no more and writing needs reading, but for the two comparisons that point
another way. -/
theorem levels_order_iff (self : SandboxInstance) (cap : Capability) (path : List UInt8)
    (a b level : SandboxLevel) :
    ((a.toNat ≤ b.toNat → (self.atLevel b).checkCapability cap path = .ok () →
        (self.atLevel a).checkCapability cap path = .ok ()) ∧
      ((self.atLevel level).checkCapability .fileWrite path = .ok () →
        (self.atLevel level).checkCapability .fileRead path = .ok ())) ↔
      ¬ (cap = .spawnProcess ∧ a = .none ∧ b ≠ .none) ∧
        (level = .seccomp → ∃ allowed ∈ self.policy.allowedPaths, allowed <+: path) :=
  and_congr (grants_antitone_iff self cap path a b) (grants_read_of_write_iff self path level)

/-- An instance with the default policy, which allows no path. -/
def bare : SandboxInstance where
  policy := {}

/-- A full sandbox may spawn a process and an unconfined one may not; under seccomp a file may be
written that may not be read. -/
theorem levels_disordered :
    (bare.atLevel .full).checkCapability .spawnProcess [] = .ok () ∧
      (bare.atLevel .none).checkCapability .spawnProcess [] ≠ .ok () ∧
      (bare.atLevel .seccomp).checkCapability .fileWrite [47] = .ok () ∧
      (bare.atLevel .seccomp).checkCapability .fileRead [47] ≠ .ok () := by
  refine ⟨rfl, ?_, rfl, ?_⟩
  · exact nofun
  · exact nofun

end SandboxInstance
end LingNet.Sandbox
