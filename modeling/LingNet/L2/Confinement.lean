import LingNet.L2.Ledger

/-! Whether a skill that the loader admits is confined: what the results of the system calls
make of the load, and of the marks that the skill carries. -/
namespace LingNet.L2
open Zig

namespace L2SkillLoader

variable {env : Env} {name : List UInt8} {e : Envelope} {data : Bytes} {w : World}

/-- A skill behind its steps: its filter is the newest that the kernel runs, and it is marked
as sandboxed. -/
structure Sandboxed (env : Env) (before after : World) (skill : L2Skill) : Prop where
  seccomp : env.seccomp = 0
  filters : after.filters = Sandbox.buildSeccompFilter :: before.filters
  landlockFd : skill.security.landlockFd = 0

theorem filters_create (h : env.create = true) {w' : World} {box : ℕ}
    (hrun : create env w = (.ok box, w')) : w'.filters = w.filters := by
  unfold create at hrun
  rw [if_pos h] at hrun
  cases hrun
  rfl

/-- The steps behind the signature check mark every skill that they finish. -/
theorem sandboxed_of_prepare {signature : Signature} {publicKey : PublicKey} {payload : Bytes}
    {skill : L2Skill} {w' : World}
    (h : prepare env name signature publicKey payload w = (.ok skill, w')) :
    Sandboxed env w w' skill := by
  unfold prepare at h
  by_cases hcreate : env.create = true
  swap
  · rw [Proc.bind_of_err (create_err hcreate)] at h
    cases h
  obtain ⟨w₁, hnew, -⟩ := create_run (w := w) hcreate
  have hfilters := filters_create hcreate hnew
  rw [Proc.bind_of_ok hnew] at h
  rcases hinit : Gqap.Arena.init .untrusted w₁.globals with ⟨a, s⟩ | err | t
  swap
  · rw [Proc.bind_of_err (initArena_err hinit)] at h
    cases h
  swap
  · rw [Proc.bind_of_trap (initArena_trap hinit)] at h
    cases h
  rw [Proc.bind_of_ok (initArena_ok hinit)] at h
  by_cases hsec : env.seccomp = 0
  swap
  · rw [Proc.bind_of_err (initSeccomp_err hsec _)] at h
    cases h
  rw [Proc.bind_of_ok (initSeccomp_run hsec _)] at h
  by_cases hfd : env.rulesetFd < 2 ^ 31
  swap
  · rw [Proc.bind_of_trap (initLandlock_of_le (Nat.le_of_not_lt hfd) _)] at h
    cases h
  rw [Proc.bind_of_ok (initLandlock_of_lt hfd _), Proc.bind_of_ok (registerArenaAudit_run _ _)] at h
  have ha := Gqap.Arena.offset_of_init hinit
  by_cases hcap : payload.val.length ≤ (s.blocks a.block).capacity
  swap
  · rw [Proc.bind_of_err (copyPayload_err ha (Nat.lt_of_not_le hcap))] at h
    cases h
  rw [Proc.bind_of_ok (copyPayload_ok ha hcap)] at h
  by_cases hdupe : env.dupe = true
  swap
  · rw [Proc.bind_of_err (dupe_err hdupe)] at h
    cases h
  rw [Proc.bind_of_ok (dupe_run hdupe)] at h
  cases h
  exact ⟨hsec, congrArg (Sandbox.buildSeccompFilter :: ·) hfilters, rfl⟩

/-- The call does not stop the process, and a skill that it appends runs behind the filter and
is marked as sandboxed just if the kernel has restricted the process. -/
def Confined (env : Env) (name : List UInt8) (data : Bytes) (w : World) : Prop :=
  (∀ t, (loadFromMemory env name data).result w ≠ .trap t) ∧
    ∀ skill, ((loadFromMemory env name data).final w).loader.skills = w.loader.skills ++ [skill] →
      (env.seccomp = 0 ∧ ((loadFromMemory env name data).final w).filters =
        Sandbox.buildSeccompFilter :: w.filters) ∧
      (0 ≤ skill.security.landlockFd ↔ env.restrictSelf = 0)

theorem not_confined_of_trap {t : Fault}
    (h : (loadFromMemory env name data).result w = .trap t) : ¬ Confined env name data w := by
  intro hconf
  exact hconf.1 t h

/-- A call that appends nothing is confined if it returns. -/
theorem confined_of_err {err : LoadError} {w' : World}
    (h : loadFromMemory env name data w = (.err err, w'))
    (hskills : w'.loader.skills = w.loader.skills) : Confined env name data w := by
  unfold Confined Proc.result Proc.final
  rw [h]
  constructor
  · intro t ht
    cases ht
  · intro skill hskill
    have hlength := congrArg List.length (hskills.symm.trans hskill)
    simp at hlength

/-- A call that appends its skill is confined if the restriction has succeeded. -/
theorem confined_iff_of_ok {w' : World} {skill : L2Skill}
    (h : loadFromMemory env name data w = (.ok (), w'))
    (hskills : w'.loader.skills = w.loader.skills ++ [skill])
    (hsandboxed : Sandboxed env w w' skill) :
    Confined env name data w ↔ env.restrictSelf = 0 := by
  unfold Confined Proc.result Proc.final
  rw [h]
  constructor
  · intro hconf
    have hmark := (hconf.2 skill hskills).2
    apply hmark.mp
    have hfd := hsandboxed.landlockFd
    omega
  · intro hret
    constructor
    · intro t ht
      cases ht
    · intro skill' hskill'
      have heq : skill = skill' := by
        have happ := hskills.symm.trans hskill'
        simpa using happ
      subst heq
      constructor
      · exact ⟨hsandboxed.seccomp, hsandboxed.filters⟩
      · have hfd := hsandboxed.landlockFd
        simp [hfd, hret]

/-- The loader behind its signature check, for data with the parts `e`. -/
theorem confined_iff_of_passes (he : e.encode = data.val) (hpass : Passes env w e) :
    Confined env name data w ↔ ¬ env.Traps w.globals ∧
      (env.Prepares w.globals e.payload.val.length ∧ env.append = true → env.restrictSelf = 0) := by
  have hrun := loadFromMemory_run he env name w
  rw [Proc.bind_of_ok (checkSignature_of_passes hpass)] at hrun
  have hloader := loader_prepare env name e.signature e.publicKey e.payload w
  have hcases := prepare_cases env name e.signature e.publicKey e.payload w
  unfold Proc.result at hcases
  unfold Proc.final at hloader
  rcases hprepare : prepare env name e.signature e.publicKey e.payload w with ⟨r, v⟩
  rw [hprepare] at hloader hcases
  obtain ⟨htraps, t, rfl⟩ | ⟨htraps, hprep, err, rfl⟩ | ⟨htraps, hprep, skill, rfl⟩ := hcases
  · rw [Proc.bind_of_trap hprepare] at hrun
    have hnot : ¬ Confined env name data w := not_confined_of_trap (congrArg Prod.fst hrun)
    simp only [hnot, htraps, not_true_eq_false, false_and]
  · rw [Proc.bind_of_err hprepare] at hrun
    have hconf : Confined env name data w :=
      confined_of_err hrun (congrArg L2SkillLoader.skills hloader)
    simp only [hconf, htraps, hprep, false_and, not_false_eq_true, true_and, false_implies]
  · rw [Proc.bind_of_ok hprepare] at hrun
    have hsandboxed := sandboxed_of_prepare hprepare
    by_cases happend : env.append = true
    · rw [append_run happend] at hrun
      have hskills : v.loader.skills ++ [skill] = w.loader.skills ++ [skill] :=
        congrArg (fun l : L2SkillLoader => l.skills ++ [skill]) hloader
      have hiff := confined_iff_of_ok hrun hskills
        ⟨hsandboxed.seccomp, hsandboxed.filters, hsandboxed.landlockFd⟩
      simp only [hiff, htraps, hprep, happend, not_false_eq_true, true_and, true_implies]
    · rw [append_err happend] at hrun
      have hconf : Confined env name data w :=
        confined_of_err hrun (congrArg L2SkillLoader.skills hloader)
      simp only [hconf, htraps, happend, Bool.false_eq_true, and_false, not_false_eq_true, true_and,
        false_implies]

/-- A load is confined exactly for data with a full header that the signature check refuses, or
that meets no trap behind the check and, if the skill gets all that it needs, no failing
restriction. -/
theorem confined_iff (env : Env) (name : List UInt8) (data : Bytes) (w : World) :
    Confined env name data w ↔ ∃ e : Envelope, e.encode = data.val ∧
      (Passes env w e → ¬ env.Traps w.globals ∧
        (env.Prepares w.globals e.payload.val.length ∧ env.append = true →
          env.restrictSelf = 0)) := by
  by_cases hlen : data.val.length < 96
  · have htrap := loadFromMemory_of_lt hlen env name w
    constructor
    · intro hconf
      exact absurd hconf (not_confined_of_trap htrap)
    · intro h
      obtain ⟨e, he, _⟩ := h
      have hlength := length_of_encode he
      omega
  obtain ⟨e, he⟩ := exists_envelope (Nat.le_of_not_lt hlen)
  constructor
  · intro hconf
    exact ⟨e, he, fun hpass => (confined_iff_of_passes he hpass).mp hconf⟩
  · intro h
    obtain ⟨e', he', hall⟩ := h
    by_cases hpass : Passes env w e'
    · exact (confined_iff_of_passes he' hpass).mpr (hall hpass)
    · exact confined_of_err (loadFromMemory_of_not_passes he' hpass) rfl

/-- A kernel that answers a system call with an error, as the call returns it. -/
def errno (code : ℕ) : ℕ := usizeEnd - code

/-- A kernel without Landlock stops the process. A kernel that refuses the restriction gets a
skill that is marked as sandboxed. -/
theorem unconfined_skill :
    (¬ Confined { obliging fun _ _ _ => .ok true with
        landlockAbi := errno 38, rulesetFd := errno 38 } []
        (smallData freshWorld.loader.trustedKey) freshWorld ∧
      (loadFromMemory { obliging fun _ _ _ => .ok true with
        landlockAbi := errno 38, rulesetFd := errno 38 } []
        (smallData freshWorld.loader.trustedKey)).result freshWorld = .trap .integerCast) ∧
    ¬ Confined { obliging fun _ _ _ => .ok true with restrictSelf := errno 1 } []
        (smallData freshWorld.loader.trustedKey) freshWorld := by
  have he : (smallSkill freshWorld.loader.trustedKey).encode =
      (smallData freshWorld.loader.trustedKey).val := rfl
  have htrap : (loadFromMemory { obliging fun _ _ _ => .ok true with
      landlockAbi := errno 38, rulesetFd := errno 38 } []
      (smallData freshWorld.loader.trustedKey)).result freshWorld = .trap .integerCast := by
    unfold Proc.result
    rw [loadFromMemory_run he]
    rfl
  refine ⟨⟨not_confined_of_trap htrap, htrap⟩, fun hconf => ?_⟩
  have hpass : Passes { obliging fun _ _ _ => .ok true with restrictSelf := errno 1 } freshWorld
      (smallSkill freshWorld.loader.trustedKey) := .inr ⟨true, rfl⟩
  have hfits : 3 ≤ 64 := by omega
  have hret := ((confined_iff_of_passes he hpass).mp hconf).2
    ⟨⟨rfl, rfl, by decide, rfl, hfits⟩, rfl⟩
  cases hret

end L2SkillLoader
end LingNet.L2
