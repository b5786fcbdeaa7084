import LingNet.L2.Confinement
import LingNet.L2.File
import LingNet.Zig.Descriptors

/-! The descriptors of the loader: its calls with a ledger of who has opened which. -/
namespace LingNet.L2
open Zig

/-- Who can hold a descriptor: a sandbox, the security context with an arena box, or the call that
reads a file. -/
inductive Party where
  | sandbox (n : ℕ)
  | context (box : ℕ)
  | file (n : ℕ)
  deriving DecidableEq, Repr

abbrev Ledgered := World × Descriptors Party

namespace Ledgered

variable {ε α : Type}

open L2SkillLoader in
/-- The ruleset is opened and closed by the context. -/
def initLandlock (env : Env) (ctx : L2SecurityContext) :
    Proc Ledgered LoadError L2SecurityContext := do
  if (env.landlockAbi : ℤ) = -38 then pure ctx
  else do
    Proc.ghost (Descriptors.opened (.context ctx.untrustedArena) env.rulesetFd)
    if (env.rulesetFd : ℤ) < 0 then pure ctx
    else do
      let _ ← Proc.real (Proc.lift (intCast 32 env.rulesetFd))
      let fd ← Proc.real (Proc.lift (intCast 31 env.rulesetFd))
      Proc.real (Proc.modify fun w => { w with closed := fd :: w.closed })
      Proc.ghost (Descriptors.closed (.context ctx.untrustedArena) fd)
      if (env.restrictSelf : ℤ) < 0 then pure ctx
      else pure { ctx with landlockFd := 0 }

open L2SkillLoader in
def prepare (env : Env) (name : List UInt8) (signature : Signature) (publicKey : PublicKey)
    (payload : Bytes) : Proc Ledgered LoadError L2Skill := do
  let box ← Proc.real (create env)
  let arena ← Proc.real (initArena box)
  let security := L2SecurityContext.init box
  let security ← Proc.real (initSeccomp env security)
  let security ← initLandlock env security
  Proc.real (registerArenaAudit security)
  let hbytes := u64ToBytes (env.wyhash 0 payload)
  let hash : List.Vector UInt8 32 := hbytes ++ hbytes ++ hbytes ++ hbytes
  let payloadCopy ← Proc.real (copyPayload box arena payload)
  let name ← Proc.real (dupe env name)
  pure ⟨name, payloadCopy, signature, publicKey, hash, security, 0⟩

def loadFromMemory (env : Env) (name : List UInt8) (data : Bytes) :
    Proc Ledgered LoadError Unit := do
  let signature ← Proc.real (Proc.lift (data.slice 0 64))
  let publicKey ← Proc.real (Proc.lift (data.slice 64 96))
  let payload ← Proc.real (Proc.lift (data.sliceFrom 96))
  Proc.real (L2SkillLoader.checkSignature env payload signature publicKey)
  let skill ← prepare env name signature publicKey payload
  Proc.real (L2SkillLoader.append env skill)

def loadFromOpenFile (env : Env) (calls : FileCalls) (path : List UInt8) :
    Proc Ledgered LoadFileError Unit :=
  match calls.getEndPos with
  | none => Proc.fail .file
  | some fileSize =>
    if fileSize < 96 then Proc.fail .dataTooShort
    else if !calls.alloc then Proc.fail .outOfMemory
    else match calls.readAll with
      | none => Proc.fail .file
      | some data =>
        if data.val.length ≠ fileSize then Proc.fail .readFailed
        else if !calls.dupe then Proc.fail .outOfMemory
        else (loadFromMemory env (Path.stem path) data).catching .load

/-- The file of the `n`-th call. -/
def loadFromFile (n : ℕ) (env : Env) (calls : FileCalls) (path : List UInt8) :
    Proc Ledgered LoadFileError Unit :=
  match calls.openFile with
  | none => Proc.fail .file
  | some fd => do
    Proc.ghost (Descriptors.opened (.file n) fd)
    (loadFromOpenFile env calls path).defer fun s =>
      (L2SkillLoader.closeFile fd s.1, s.2.closed (.file n) fd)

/-- `linux.close` of a field that is not negative. -/
def closeFd (owner : Party) (fd : ℤ) : Proc Ledgered ε Unit := do
  Proc.real (Proc.modify (L2.closeFd fd))
  Proc.ghost (Descriptors.closedFd owner fd)

def deinit (ctx : L2SecurityContext) : Proc Ledgered ε Unit := do
  closeFd (.context ctx.untrustedArena) ctx.seccompFd
  closeFd (.context ctx.untrustedArena) ctx.landlockFd

def unload (invalidFree : Option Fault) (name : List UInt8) : Proc Ledgered UnloadError Unit := do
  let s ← Proc.get
  match s.1.loader.skills.find? (·.name = name) with
  | none => Proc.fail .skillNotFound
  | some skill => do
    deinit skill.security
    Proc.real (freeData invalidFree skill.data)
    Proc.real (Proc.modify (L2SkillLoader.orderedRemove name))

/-! Without the ledger these are the calls of the loader. -/

section Forgets

theorem forgets_initLandlock (env : Env) (ctx : L2SecurityContext) :
    Proc.Forgets id (initLandlock env ctx) (L2SkillLoader.initLandlock env ctx) := by
  unfold initLandlock L2SkillLoader.initLandlock
  by_cases habi : (env.landlockAbi : ℤ) = -38
  · rw [if_pos habi, if_pos habi]
    exact Proc.forgets_pure id ctx
  · rw [if_neg habi, if_neg habi]
    apply Proc.Forgets.after_ghost
    by_cases hfd : (env.rulesetFd : ℤ) < 0
    · rw [if_pos hfd, if_pos hfd]
      exact Proc.forgets_pure id ctx
    · rw [if_neg hfd, if_neg hfd]
      apply (Proc.forgets_real (Proc.lift (intCast 32 env.rulesetFd))).bind
      intro _
      apply (Proc.forgets_real (Proc.lift (intCast 31 env.rulesetFd))).bind
      intro fd
      apply (Proc.forgets_real (Proc.modify _)).bind
      intro _
      apply Proc.Forgets.after_ghost
      by_cases hret : (env.restrictSelf : ℤ) < 0
      · rw [if_pos hret, if_pos hret]
        exact Proc.forgets_pure id ctx
      · rw [if_neg hret, if_neg hret]
        exact Proc.forgets_pure id _

theorem forgets_prepare (env : Env) (name : List UInt8) (signature : Signature)
    (publicKey : PublicKey) (payload : Bytes) :
    Proc.Forgets id (prepare env name signature publicKey payload)
      (L2SkillLoader.prepare env name signature publicKey payload) := by
  apply (Proc.forgets_real (L2SkillLoader.create env)).bind
  intro box
  apply (Proc.forgets_real (L2SkillLoader.initArena box)).bind
  intro arena
  apply (Proc.forgets_real (L2SkillLoader.initSeccomp env (.init box))).bind
  intro security
  apply (forgets_initLandlock env security).bind
  intro security
  apply (Proc.forgets_real (L2SkillLoader.registerArenaAudit security)).bind
  intro _
  apply (Proc.forgets_real (L2SkillLoader.copyPayload box arena payload)).bind
  intro payloadCopy
  apply (Proc.forgets_real (L2SkillLoader.dupe env name)).bind
  intro name
  exact Proc.forgets_pure id _

theorem forgets_loadFromMemory (env : Env) (name : List UInt8) (data : Bytes) :
    Proc.Forgets id (loadFromMemory env name data)
      (L2SkillLoader.loadFromMemory env name data) := by
  apply (Proc.forgets_real (Proc.lift (data.slice 0 64))).bind
  intro signature
  apply (Proc.forgets_real (Proc.lift (data.slice 64 96))).bind
  intro publicKey
  apply (Proc.forgets_real (Proc.lift (data.sliceFrom 96))).bind
  intro payload
  apply (Proc.forgets_real (L2SkillLoader.checkSignature env payload signature publicKey)).bind
  intro _
  apply (forgets_prepare env name signature publicKey payload).bind
  intro skill
  exact Proc.forgets_real (L2SkillLoader.append env skill)

theorem forgets_loadFromOpenFile (env : Env) (calls : FileCalls) (path : List UInt8) :
    Proc.Forgets id (loadFromOpenFile env calls path)
      (L2SkillLoader.loadFromOpenFile env calls path) := by
  unfold loadFromOpenFile L2SkillLoader.loadFromOpenFile
  cases calls.getEndPos with
  | none => exact Proc.forgets_fail id _
  | some fileSize =>
    cases calls.readAll with
    | none =>
      dsimp only
      split_ifs <;> exact Proc.forgets_fail id _
    | some data =>
      dsimp only
      split_ifs
      · exact Proc.forgets_fail id _
      · exact Proc.forgets_fail id _
      · exact Proc.forgets_fail id _
      · exact Proc.forgets_fail id _
      · exact (forgets_loadFromMemory env (Path.stem path) data).catching LoadFileError.load

theorem forgets_loadFromFile (n : ℕ) (env : Env) (calls : FileCalls) (path : List UInt8) :
    Proc.Forgets id (loadFromFile n env calls path)
      (L2SkillLoader.loadFromFile env calls path) := by
  unfold loadFromFile L2SkillLoader.loadFromFile
  cases calls.openFile with
  | none => exact Proc.forgets_fail id _
  | some fd =>
    apply Proc.Forgets.after_ghost
    exact (forgets_loadFromOpenFile env calls path).defer fun _ => rfl

theorem forgets_unload (invalidFree : Option Fault) (name : List UInt8) :
    Proc.Forgets id (unload invalidFree name) (L2SkillLoader.unload invalidFree name) := by
  apply Proc.forgets_get.bind
  intro s
  cases s.1.loader.skills.find? (·.name = name) with
  | none => exact Proc.forgets_fail id _
  | some skill =>
    have hdeinit : Proc.Forgets id (do
        deinit skill.security
        Proc.real (freeData invalidFree skill.data)) (skill.deinit invalidFree) :=
      fun s => Proc.forgets_real (freeData invalidFree skill.data)
        (skill.security.deinit s.1, _)
    exact hdeinit.bind fun _ =>
      Proc.forgets_real (Proc.modify (L2SkillLoader.orderedRemove name))

end Forgets

/-! A load closes what it opened. -/

section Tidy

theorem tidy_initLandlock (env : Env) (ctx : L2SecurityContext) : (initLandlock env ctx).Tidy := by
  intro s
  have habi : ¬ (env.landlockAbi : ℤ) = -38 := by omega
  have hfd : ¬ (env.rulesetFd : ℤ) < 0 := by omega
  have hret : ¬ (env.restrictSelf : ℤ) < 0 := by omega
  let opened := s.2.opened (.context ctx.untrustedArena) env.rulesetFd
  have hghost : (Proc.ghost (Descriptors.opened (.context ctx.untrustedArena) env.rulesetFd) s :
      Outcome LoadError Unit × Ledgered) = (.ok (), (s.1, opened)) := rfl
  have hwild : opened.wild = s.2.wild := Descriptors.wild_opened _ _ _
  unfold initLandlock
  rw [if_neg habi, Proc.bind_of_ok hghost, if_neg hfd]
  by_cases hwide : env.rulesetFd < 2 ^ 32
  · rw [Proc.real_lift_bind_of_ok (intCast_of_lt hwide)]
    by_cases hfits : env.rulesetFd < 2 ^ 31
    · have hclosed := Descriptors.closed_opened (.context ctx.untrustedArena) hfits s.2
      rw [Proc.real_lift_bind_of_ok (intCast_of_lt hfits), if_neg hret]
      change ((opened.closed _ _).wild = _ ∧ (_ → opened.closed _ _ = _))
      rw [hclosed]
      exact ⟨rfl, fun _ => rfl⟩
    · rw [Proc.real_lift_bind_of_trap (intCast_of_le (Nat.le_of_not_lt hfits))]
      exact ⟨hwild, nofun⟩
  · rw [Proc.real_lift_bind_of_trap (intCast_of_le (Nat.le_of_not_lt hwide))]
    exact ⟨hwild, nofun⟩

theorem tidy_prepare (env : Env) (name : List UInt8) (signature : Signature)
    (publicKey : PublicKey) (payload : Bytes) :
    (prepare env name signature publicKey payload).Tidy := by
  apply (Proc.tidy_real (L2SkillLoader.create env)).bind
  intro box
  apply (Proc.tidy_real (L2SkillLoader.initArena box)).bind
  intro arena
  apply (Proc.tidy_real (L2SkillLoader.initSeccomp env (.init box))).bind
  intro security
  apply (tidy_initLandlock env security).bind
  intro security
  apply (Proc.tidy_real (L2SkillLoader.registerArenaAudit security)).bind
  intro _
  apply (Proc.tidy_real (L2SkillLoader.copyPayload box arena payload)).bind
  intro payloadCopy
  apply (Proc.tidy_real (L2SkillLoader.dupe env name)).bind
  intro name
  exact Proc.tidy_pure _

theorem tidy_loadFromMemory (env : Env) (name : List UInt8) (data : Bytes) :
    (loadFromMemory env name data).Tidy := by
  apply (Proc.tidy_real (Proc.lift (data.slice 0 64))).bind
  intro signature
  apply (Proc.tidy_real (Proc.lift (data.slice 64 96))).bind
  intro publicKey
  apply (Proc.tidy_real (Proc.lift (data.sliceFrom 96))).bind
  intro payload
  apply (Proc.tidy_real (L2SkillLoader.checkSignature env payload signature publicKey)).bind
  intro _
  apply (tidy_prepare env name signature publicKey payload).bind
  intro skill
  exact Proc.tidy_real (L2SkillLoader.append env skill)

theorem tidy_loadFromOpenFile (env : Env) (calls : FileCalls) (path : List UInt8) :
    (loadFromOpenFile env calls path).Tidy := by
  unfold loadFromOpenFile
  cases calls.getEndPos with
  | none => exact Proc.tidy_fail _
  | some fileSize =>
    cases calls.readAll with
    | none =>
      dsimp only
      split_ifs <;> exact Proc.tidy_fail _
    | some data =>
      dsimp only
      split_ifs
      · exact Proc.tidy_fail _
      · exact Proc.tidy_fail _
      · exact Proc.tidy_fail _
      · exact Proc.tidy_fail _
      · exact (tidy_loadFromMemory env (Path.stem path) data).catching LoadFileError.load

theorem tidy_loadFromFile (n : ℕ) (env : Env) (calls : FileCalls) (path : List UInt8) :
    (loadFromFile n env calls path).Tidy := by
  unfold loadFromFile
  cases calls.openFile with
  | none => exact Proc.tidy_fail _
  | some fd =>
    exact (tidy_loadFromOpenFile env calls path).defer (.file n) fd.isLt (L2SkillLoader.closeFile fd)

/-- An unload closes the two fields of the skill that it finds. -/
theorem unload_ledger {invalidFree : Option Fault} {name : List UInt8} {s : Ledgered}
    {skill : L2Skill} (h : s.1.loader.skills.find? (·.name = name) = some skill) :
    (unload invalidFree name s).2.2.wild =
      ((s.2.closedFd (.context skill.security.untrustedArena) skill.security.seccompFd).closedFd
        (.context skill.security.untrustedArena) skill.security.landlockFd).wild := by
  have hrest : Proc.Tidy (do
      Proc.real (freeData invalidFree skill.data)
      Proc.real (Proc.modify (L2SkillLoader.orderedRemove name)) :
      Proc Ledgered UnloadError Unit) :=
    (Proc.tidy_real _).bind fun _ => Proc.tidy_real _
  unfold unload
  rw [Proc.bind_of_ok (Proc.get_run s), h]
  exact (hrest _).1

theorem unload_of_none (invalidFree : Option Fault) {name : List UInt8} {s : Ledgered}
    (h : s.1.loader.skills.find? (·.name = name) = none) :
    unload invalidFree name s = (.err .skillNotFound, s) := by
  unfold unload
  rw [Proc.bind_of_ok (Proc.get_run s), h]
  rfl

end Tidy

/-! Every skill in the list carries the mark of the filter and the mark of the ruleset. -/

/-- The marks are zeros, which the unloading takes for descriptors. -/
def Marked (w : World) : Prop := ∀ skill ∈ w.loader.skills, skill.security.landlockFd = 0

section Marks

variable {ε α : Type} {w : World}

theorem marked_of_keeps {x : Proc World ε α} (h : Marked w) (hx : (x.final w).loader = w.loader) :
    x.Ensures Marked (fun _ => True) w := by
  apply Proc.ensures_of_final
  unfold Marked
  rw [hx]
  exact h

theorem final_checkSignature (env : Env) (payload : Bytes) (signature : Signature)
    (publicKey : PublicKey) (w : World) :
    (L2SkillLoader.checkSignature env payload signature publicKey).final w = w := by
  unfold L2SkillLoader.checkSignature Proc.final
  rw [Proc.bind_of_ok (Proc.get_run w)]
  split_ifs
  · cases env.verify payload signature publicKey <;> rfl
  · rfl

theorem marked_prepare (env : Env) (name : List UInt8) (signature : Signature)
    (publicKey : PublicKey) (payload : Bytes) (h : Marked w) :
    (L2SkillLoader.prepare env name signature publicKey payload).Ensures Marked
      (fun skill => skill.security.landlockFd = 0) w := by
  constructor
  · exact (marked_of_keeps h
      (L2SkillLoader.loader_prepare env name signature publicKey payload w)).1
  · intro skill hskill
    exact (L2SkillLoader.sandboxed_of_prepare (Prod.ext hskill rfl)).landlockFd

theorem marked_append (env : Env) {skill : L2Skill} (hskill : skill.security.landlockFd = 0)
    (h : Marked w) : (L2SkillLoader.append env skill).Ensures Marked (fun _ => True) w := by
  by_cases happend : env.append = true
  · apply Proc.ensures_of_final
    unfold Proc.final
    rw [L2SkillLoader.append_run happend]
    intro other hother
    rcases List.mem_append.mp hother with hother | hother
    · exact h other hother
    · rw [List.mem_singleton.mp hother]
      exact hskill
  · apply marked_of_keeps h
    unfold Proc.final
    rw [L2SkillLoader.append_err happend]

theorem marked_loadFromMemory (env : Env) (name : List UInt8) (data : Bytes) (h : Marked w) :
    (L2SkillLoader.loadFromMemory env name data).Ensures Marked (fun _ => True) w := by
  unfold L2SkillLoader.loadFromMemory
  apply (marked_of_keeps h rfl).bind
  intro signature w _ h
  apply (marked_of_keeps h rfl).bind
  intro publicKey w _ h
  apply (marked_of_keeps h rfl).bind
  intro payload w _ h
  have hcheck := final_checkSignature env payload signature publicKey w
  apply (marked_of_keeps h (congrArg World.loader hcheck)).bind
  intro _ w _ h
  apply (marked_prepare env name signature publicKey payload h).bind
  intro skill w hskill h
  exact marked_append env hskill h

theorem marked_loadFromOpenFile (env : Env) (calls : FileCalls) (path : List UInt8)
    (h : Marked w) :
    (L2SkillLoader.loadFromOpenFile env calls path).Ensures Marked (fun _ => True) w := by
  unfold L2SkillLoader.loadFromOpenFile
  cases calls.getEndPos with
  | none => exact marked_of_keeps h rfl
  | some fileSize =>
    cases calls.readAll with
    | none =>
      dsimp only
      split_ifs <;> exact marked_of_keeps h rfl
    | some data =>
      dsimp only
      split_ifs
      · exact marked_of_keeps h rfl
      · exact marked_of_keeps h rfl
      · exact marked_of_keeps h rfl
      · exact marked_of_keeps h rfl
      · exact (marked_loadFromMemory env (Path.stem path) data h).catching LoadFileError.load

theorem marked_loadFromFile (env : Env) (calls : FileCalls) (path : List UInt8) (h : Marked w) :
    (L2SkillLoader.loadFromFile env calls path).Ensures Marked (fun _ => True) w := by
  unfold L2SkillLoader.loadFromFile
  cases calls.openFile with
  | none => exact marked_of_keeps h rfl
  | some fd => exact (marked_loadFromOpenFile env calls path h).defer fun _ h => h

end Marks

end Ledgered
end LingNet.L2
