import LingNet.Gqap.Arena
import LingNet.Sandbox.Seccomp
import LingNet.Zig.Proc

/-! The loader of the dynamic `L2` skills: signature, arena, seccomp filter and Landlock
rules of a skill that is loaded from memory. -/
namespace LingNet.L2
open Zig

abbrev PublicKey := List.Vector UInt8 32

abbrev Signature := List.Vector UInt8 64

inductive Ed25519Error where
  | noRealEd25519
  deriving DecidableEq, Repr

/-- The type of `ed25519.verify`. -/
abbrev Verify := Bytes → Signature → PublicKey → Except Ed25519Error Bool

/-- `verify` as it is shipped, without libsodium. -/
def verify : Verify := fun _ _ _ => .error .noRealEd25519

/-- The errors of `loadFromMemory`: its own, and those of the calls it tries. -/
inductive LoadError where
  | signatureVerificationFailed
  | outOfMemory
  | poolExhausted
  | seccompInitFailed
  deriving DecidableEq, Repr

def LoadError.ofArena : Gqap.ArenaError → LoadError
  | .poolExhausted => .poolExhausted
  | .outOfMemory => .outOfMemory

/-- `untrustedArena` is the heap box that the arena lives in. -/
structure L2SecurityContext where
  seccompFd : ℤ
  landlockFd : ℤ
  arenaAuditHandle : Option ℕ
  untrustedArena : ℕ
  deriving DecidableEq, Repr

def L2SecurityContext.init (arena : ℕ) : L2SecurityContext where
  seccompFd := -1
  landlockFd := -1
  arenaAuditHandle := none
  untrustedArena := arena

/-- `data` is a slice of the arena. -/
structure L2Skill where
  name : List UInt8
  data : Gqap.Slice
  signature : Signature
  publicKey : PublicKey
  hash : List.Vector UInt8 32
  security : L2SecurityContext
  loadedAt : ℤ
  deriving DecidableEq

structure L2SkillLoader where
  skills : List L2Skill
  trustedKey : PublicKey
  allowUnsafeFallback : Bool := false
  deriving DecidableEq

/-- The process around a loader: the pools, the heap boxes of the arenas (`none` while a box
is not initialised), the filters the kernel runs and the descriptors closed so far. -/
structure World where
  globals : Gqap.Globals
  arenas : List (Option Gqap.Arena)
  filters : List (List Cbpf.Insn)
  closed : List ℕ
  loader : L2SkillLoader

/-- What the code outside the loader answers during one call: `create`, `dupe` and `append`
say whether the allocator delivers, the system calls return a `usize`. -/
structure Env where
  verify : Verify
  wyhash : UInt64 → Bytes → UInt64
  create : Bool
  seccomp : ℕ
  landlockAbi : ℕ
  rulesetFd : ℕ
  restrictSelf : ℕ
  dupe : Bool
  append : Bool

/-- The bytes of a `u64` in memory. -/
def u64ToBytes (val : UInt64) : List.Vector UInt8 8 :=
  List.Vector.ofFn fun i => (val >>> (8 * UInt64.ofNat i)).toUInt8

namespace L2SkillLoader

/-- `self.allocator.create`: a fresh box. -/
def create (env : Env) : Proc World LoadError ℕ := fun w =>
  if env.create then (.ok w.arenas.length, { w with arenas := w.arenas ++ [none] })
  else (.err .outOfMemory, w)

/-- `arena.* = try gqap.Arena(.untrusted).init()` -/
def initArena (box : ℕ) : Proc World LoadError Gqap.Arena := fun w =>
  match Gqap.Arena.init .untrusted w.globals with
  | .ok (a, s) => (.ok a, { w with globals := s, arenas := w.arenas.set box (some a) })
  | .err e => (.err (.ofArena e), w)
  | .trap t => (.trap t, w)

/-- The result of `prctl(PR_SET_NO_NEW_PRIVS)`, which comes first, is discarded. -/
def initSeccomp (env : Env) (ctx : L2SecurityContext) : Proc World LoadError L2SecurityContext := do
  let filter := Sandbox.buildSeccompFilter
  if env.seccomp ≠ 0 then Proc.fail .seccompInitFailed
  else
    Proc.modify fun w => { w with filters := filter :: w.filters }
    pure { ctx with seccompFd := 0 }

/-- The three results are unsigned: none of the tests for a negative one succeeds, and the
error codes of `landlock_create_ruleset` reach the casts. -/
def initLandlock (env : Env) (ctx : L2SecurityContext) :
    Proc World LoadError L2SecurityContext := do
  if (env.landlockAbi : ℤ) = -38 then pure ctx
  else if (env.rulesetFd : ℤ) < 0 then pure ctx
  else
    let _ ← Proc.lift (intCast 32 env.rulesetFd)
    let fd ← Proc.lift (intCast 31 env.rulesetFd)
    Proc.modify fun w => { w with closed := fd :: w.closed }
    if (env.restrictSelf : ℤ) < 0 then pure ctx
    else pure { ctx with landlockFd := 0 }

def registerArenaAudit (_ctx : L2SecurityContext) : Proc World LoadError Unit := pure ()

/-- The copy of the payload in the arena, which no one else uses yet. -/
def copyPayload (box : ℕ) (arena : Gqap.Arena) (payload : Bytes) :
    Proc World LoadError Gqap.Slice := fun w =>
  match arena.alloc .u8 payload.val.length w.globals with
  | .ok (sl, a, s) => (.ok sl,
      { w with globals := s.store sl.ptr payload.val, arenas := w.arenas.set box (some a) })
  | .err e => (.err (.ofArena e), w)
  | .trap t => (.trap t, w)

/-- `self.allocator.dupe` -/
def dupe (env : Env) (name : List UInt8) : Proc World LoadError (List UInt8) :=
  if env.dupe then pure name else Proc.fail .outOfMemory

/-- Steps 2 to 8 of `loadFromMemory`, up to the finished skill. -/
def prepare (env : Env) (name : List UInt8) (signature : Signature) (publicKey : PublicKey)
    (payload : Bytes) : Proc World LoadError L2Skill := do
  let box ← create env
  let arena ← initArena box
  let security := L2SecurityContext.init box
  let security ← initSeccomp env security
  let security ← initLandlock env security
  registerArenaAudit security
  let hbytes := u64ToBytes (env.wyhash 0 payload)
  let hash : List.Vector UInt8 32 := hbytes ++ hbytes ++ hbytes ++ hbytes
  let payloadCopy ← copyPayload box arena payload
  let name ← dupe env name
  pure ⟨name, payloadCopy, signature, publicKey, hash, security, 0⟩

/-- `self.skills.append` -/
def append (env : Env) (skill : L2Skill) : Proc World LoadError Unit :=
  if env.append then
    Proc.modify fun w => { w with loader := { w.loader with skills := w.loader.skills ++ [skill] } }
  else Proc.fail .outOfMemory

/-- Any answer of `verify` passes but an error. -/
def checkSignature (env : Env) (payload : Bytes) (signature : Signature)
    (publicKey : PublicKey) : Proc World LoadError Unit := do
  let w ← Proc.get
  if !w.loader.allowUnsafeFallback then
    match env.verify payload signature publicKey with
    | .ok _ => pure ()
    | .error _ => Proc.fail .signatureVerificationFailed
  else pure ()

def loadFromMemory (env : Env) (name : List UInt8) (data : Bytes) : Proc World LoadError Unit := do
  let signature ← Proc.lift (data.slice 0 64)
  let publicKey ← Proc.lift (data.slice 64 96)
  let payload ← Proc.lift (data.sliceFrom 96)
  checkSignature env payload signature publicKey
  let skill ← prepare env name signature publicKey payload
  append env skill

end L2SkillLoader
end LingNet.L2
