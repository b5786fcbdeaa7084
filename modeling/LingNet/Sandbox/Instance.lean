import LingNet.L2.Unload
import LingNet.Sandbox.Policy

/-! Starting and ending a sandbox: the filter, the ruleset, and the marks that stand in the place of
descriptors. The process is the one of the `L2` loader. -/
namespace LingNet.Sandbox
open Zig

/-- The answers of the system calls, each a `usize`. That of `prctl` is only logged. -/
structure Syscalls where
  seccomp : ℕ
  rulesetFd : ℕ
  restrictSelf : ℕ

/-- `@as(isize, @bitCast(n))` -/
def toIsize (n : ℕ) : ℤ := if n < 2 ^ 63 then n else (n : ℤ) - usizeEnd

namespace SandboxInstance

/-- The mark of success is zero. -/
def installSeccompFilter (calls : Syscalls) : Proc L2.World SandboxError ℤ := do
  let filter := buildBpfFilter
  if calls.seccomp ≠ 0 then Proc.fail .seccompInstallFailed
  else
    Proc.modify fun w => { w with filters := filter :: w.filters }
    pure 0

/-- The ruleset is closed again before its mark is returned. -/
def installLandlockRules (calls : Syscalls) : Proc L2.World SandboxError ℤ := do
  if calls.rulesetFd = usizeEnd - 1 ∨ toIsize calls.rulesetFd = -38 then
    Proc.fail .landlockNotSupported
  else if toIsize calls.rulesetFd < 0 then Proc.fail .landlockNotSupported
  else
    let fd ← Proc.lift (intCast 31 calls.rulesetFd)
    Proc.modify fun w => { w with closed := fd :: w.closed }
    if calls.restrictSelf ≠ 0 then Proc.fail .landlockNotSupported
    else pure 0

/-- `try policy.validate()` -/
def validate (policy : SandboxPolicy) : Proc L2.World SandboxError Unit :=
  match policy.validate with
  | .ok () => pure ()
  | .error e => Proc.fail e

def init (calls : Syscalls) (policy : SandboxPolicy) :
    Proc L2.World SandboxError SandboxInstance := do
  validate policy
  let inst : SandboxInstance := { policy := policy }
  let inst ←
    if SandboxLevel.seccomp.toNat ≤ policy.level.toNat then do
      let fd ← installSeccompFilter calls
      pure { inst with seccompFd := fd }
    else pure inst
  if SandboxLevel.landlock.toNat ≤ policy.level.toNat then do
    let fd ← installLandlockRules calls
    pure { inst with landlockFd := fd }
  else pure inst

def deinit (self : SandboxInstance) (w : L2.World) : L2.World :=
  L2.closeFd self.landlockFd (L2.closeFd self.seccompFd w)

/-- What an instance carries: no mark at the lowest level, and one for the filter above it. -/
structure Marked (inst : SandboxInstance) : Prop where
  none : inst.policy.level = .none → inst.seccompFd = -1 ∧ inst.landlockFd = -1
  filter : inst.policy.level ≠ .none → inst.seccompFd = 0

end SandboxInstance
end LingNet.Sandbox
