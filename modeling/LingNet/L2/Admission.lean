import LingNet.L2.Loader

/-! What the loader admits: the signed format of a skill, the outcomes of the pipeline behind
the signature check, and when an admission is authentic. -/
namespace LingNet.L2
open Zig

/-- The parts of a skill file. -/
structure Envelope where
  signature : Signature
  publicKey : PublicKey
  payload : Bytes

def Envelope.encode (e : Envelope) : List UInt8 :=
  e.signature.toList ++ (e.publicKey.toList ++ e.payload.val)

section Format

variable {ε : Type} {e : Envelope} {data : Bytes}

theorem length_of_encode (h : e.encode = data.val) :
    data.val.length = 96 + e.payload.val.length := by
  have hs := e.signature.toList_length
  have hk := e.publicKey.toList_length
  rw [← h]
  unfold Envelope.encode
  simp only [List.length_append]
  omega

theorem slice_signature (h : e.encode = data.val) :
    (data.slice 0 64 : Outcome ε _) = .ok e.signature := by
  have hlen := length_of_encode h
  apply Bytes.slice_eq_ok.mpr
  constructor
  · omega
  · rw [← h]
    exact (List.take_left' e.signature.toList_length).symm

theorem slice_publicKey (h : e.encode = data.val) :
    (data.slice 64 96 : Outcome ε _) = .ok e.publicKey := by
  have hlen := length_of_encode h
  apply Bytes.slice_eq_ok.mpr
  constructor
  · omega
  · rw [← h]
    unfold Envelope.encode
    rw [List.drop_left' e.signature.toList_length]
    exact (List.take_left' e.publicKey.toList_length).symm

theorem sliceFrom_payload (h : e.encode = data.val) :
    (data.sliceFrom 96 : Outcome ε _) = .ok e.payload := by
  have hlen := length_of_encode h
  apply Bytes.sliceFrom_eq_ok.mpr
  constructor
  · omega
  · have hs := e.signature.toList_length
    have hk := e.publicKey.toList_length
    rw [← h]
    unfold Envelope.encode
    rw [← List.append_assoc]
    exact (List.drop_left' (by simp only [List.length_append]; omega)).symm

/-- Data of 96 bytes or more has parts. -/
theorem exists_envelope (h : 96 ≤ data.val.length) : ∃ e : Envelope, e.encode = data.val := by
  have hdata := data.length_lt
  have hkey : (data.val.drop 64).take 32 ++ data.val.drop 96 = data.val.drop 64 := by
    have hsplit := List.take_append_drop 32 (data.val.drop 64)
    rwa [List.drop_drop] at hsplit
  refine ⟨⟨⟨data.val.take 64, ?_⟩, ⟨(data.val.drop 64).take 32, ?_⟩, ⟨data.val.drop 96, ?_⟩⟩, ?_⟩
  · rw [List.length_take]
    omega
  · rw [List.length_take, List.length_drop]
    omega
  · rw [List.length_drop]
    omega
  · change data.val.take 64 ++ ((data.val.drop 64).take 32 ++ data.val.drop 96) = data.val
    rw [hkey, List.take_append_drop]

/-- The parts are determined by the data. -/
theorem encode_unique {e' : Envelope} (h : e.encode = data.val) (h' : e'.encode = data.val) :
    e = e' := by
  have hs := (slice_signature (ε := LoadError) h).symm.trans (slice_signature h')
  have hk := (slice_publicKey (ε := LoadError) h).symm.trans (slice_publicKey h')
  have hp := (sliceFrom_payload (ε := LoadError) h).symm.trans (sliceFrom_payload h')
  cases e
  cases e'
  simp_all

end Format

/-- The arena or a cast of the Landlock descriptor stops the process. -/
def Env.Traps (env : Env) (s : Gqap.Globals) : Prop :=
  env.create = true ∧
    match Gqap.Arena.init .untrusted s with
    | .ok _ => env.seccomp = 0 ∧ 2 ^ 31 ≤ env.rulesetFd
    | .err _ => False
    | .trap _ => True

/-- A skill of `len` payload bytes gets its arena, its sandbox and its name. -/
def Env.Prepares (env : Env) (s : Gqap.Globals) (len : ℕ) : Prop :=
  env.create = true ∧ env.seccomp = 0 ∧ env.rulesetFd < 2 ^ 31 ∧ env.dupe = true ∧
    match Gqap.Arena.init .untrusted s with
    | .ok (a, s) => len ≤ (s.blocks a.block).capacity
    | .err _ => False
    | .trap _ => False

namespace L2SkillLoader

variable {env : Env} {w : World} {name : List UInt8} {e : Envelope}

/-! Each step on its own: what it returns, and that it keeps the loader. -/

theorem create_run (h : env.create = true) :
    ∃ w', create env w = (.ok w.arenas.length, w') ∧ w'.globals = w.globals := by
  unfold create
  rw [if_pos h]
  exact ⟨_, rfl, rfl⟩

theorem create_err (h : ¬ env.create = true) : create env w = (.err .outOfMemory, w) := by
  unfold create
  rw [if_neg h]

theorem initArena_ok {box : ℕ} {a : Gqap.Arena} {s : Gqap.Globals}
    (h : Gqap.Arena.init .untrusted w.globals = .ok (a, s)) :
    initArena box w = (.ok a, { w with globals := s, arenas := w.arenas.set box (some a) }) := by
  unfold initArena
  rw [h]

theorem initArena_err {box : ℕ} {err : Gqap.ArenaError}
    (h : Gqap.Arena.init .untrusted w.globals = .err err) :
    initArena box w = (.err (.ofArena err), w) := by
  unfold initArena
  rw [h]

theorem initArena_trap {box : ℕ} {t : Fault}
    (h : Gqap.Arena.init .untrusted w.globals = .trap t) : initArena box w = (.trap t, w) := by
  unfold initArena
  rw [h]

theorem initSeccomp_run (h : env.seccomp = 0) (ctx : L2SecurityContext) :
    initSeccomp env ctx w = (.ok { ctx with seccompFd := 0 },
      { w with filters := Sandbox.buildSeccompFilter :: w.filters }) := by
  unfold initSeccomp
  rw [if_neg (not_not.mpr h)]
  rfl

theorem initSeccomp_err (h : env.seccomp ≠ 0) (ctx : L2SecurityContext) :
    initSeccomp env ctx w = (.err .seccompInitFailed, w) := by
  unfold initSeccomp
  rw [if_pos h]
  rfl

/-- Whatever the kernel said to the first call and to the restriction, a descriptor that
passes the casts counts as a sandbox. -/
theorem initLandlock_of_lt (h : env.rulesetFd < 2 ^ 31) (ctx : L2SecurityContext) :
    initLandlock env ctx w = (.ok { ctx with landlockFd := 0 },
      { w with closed := env.rulesetFd :: w.closed }) := by
  have habi : ¬ (env.landlockAbi : ℤ) = -38 := by omega
  have hfd : ¬ (env.rulesetFd : ℤ) < 0 := by omega
  have hret : ¬ (env.restrictSelf : ℤ) < 0 := by omega
  have hwide : env.rulesetFd < 2 ^ 32 := by omega
  unfold initLandlock
  rw [if_neg habi, if_neg hfd, intCast_of_lt hwide, intCast_of_lt h, if_neg hret]
  rfl

theorem initLandlock_of_le (h : 2 ^ 31 ≤ env.rulesetFd) (ctx : L2SecurityContext) :
    initLandlock env ctx w = (.trap .integerCast, w) := by
  have habi : ¬ (env.landlockAbi : ℤ) = -38 := by omega
  have hfd : ¬ (env.rulesetFd : ℤ) < 0 := by omega
  unfold initLandlock
  rw [if_neg habi, if_neg hfd, intCast_of_le h]
  by_cases hwide : env.rulesetFd < 2 ^ 32
  · rw [intCast_of_lt hwide]
    rfl
  · rw [intCast_of_le (Nat.le_of_not_lt hwide)]
    rfl

theorem dupe_run (h : env.dupe = true) : dupe env name w = (.ok name, w) := by
  unfold dupe
  rw [if_pos h]
  rfl

theorem dupe_err (h : ¬ env.dupe = true) : dupe env name w = (.err .outOfMemory, w) := by
  unfold dupe
  rw [if_neg h]
  rfl

/-! No step before `append` touches the list of skills. -/

theorem loader_create (w : World) : ((create env).final w).loader = w.loader := by
  unfold create Proc.final
  split_ifs <;> rfl

theorem loader_initArena (box : ℕ) (w : World) :
    ((initArena box).final w).loader = w.loader := by
  unfold initArena Proc.final
  dsimp only
  cases Gqap.Arena.init .untrusted w.globals <;> rfl

theorem loader_initSeccomp (ctx : L2SecurityContext) (w : World) :
    ((initSeccomp env ctx).final w).loader = w.loader := by
  unfold Proc.final
  by_cases h : env.seccomp = 0
  · rw [initSeccomp_run h]
  · rw [initSeccomp_err h]

theorem loader_initLandlock (ctx : L2SecurityContext) (w : World) :
    ((initLandlock env ctx).final w).loader = w.loader := by
  unfold Proc.final
  by_cases h : env.rulesetFd < 2 ^ 31
  · rw [initLandlock_of_lt h]
  · rw [initLandlock_of_le (Nat.le_of_not_lt h)]

theorem loader_copyPayload (box : ℕ) (arena : Gqap.Arena) (payload : Bytes) (w : World) :
    ((copyPayload box arena payload).final w).loader = w.loader := by
  unfold copyPayload Proc.final
  dsimp only
  cases arena.alloc .u8 payload.val.length w.globals <;> rfl

theorem loader_dupe (w : World) : ((dupe env name).final w).loader = w.loader := by
  unfold dupe Proc.final
  split_ifs <;> rfl

theorem loader_prepare (env : Env) (name : List UInt8) (signature : Signature)
    (publicKey : PublicKey) (payload : Bytes) (w : World) :
    ((prepare env name signature publicKey payload).final w).loader = w.loader := by
  unfold prepare
  apply Proc.bind_keeps World.loader loader_create
  intro box w
  apply Proc.bind_keeps World.loader (loader_initArena box)
  intro arena w
  apply Proc.bind_keeps World.loader (loader_initSeccomp _)
  intro security w
  apply Proc.bind_keeps World.loader (loader_initLandlock security)
  intro security w
  apply Proc.bind_keeps World.loader (fun _ => rfl)
  intro _ w
  apply Proc.bind_keeps World.loader (loader_copyPayload box arena payload)
  intro slice w
  apply Proc.bind_keeps World.loader loader_dupe
  intro name w
  rfl

theorem registerArenaAudit_run (ctx : L2SecurityContext) (w : World) :
    registerArenaAudit ctx w = (.ok (), w) := rfl

theorem copyPayload_ok {box : ℕ} {arena : Gqap.Arena} {payload : Bytes} (ha : arena.offset = 0)
    (h : payload.val.length ≤ (w.globals.blocks arena.block).capacity) :
    copyPayload box arena payload w =
      (.ok ⟨(w.globals.blocks arena.block).memory, payload.val.length⟩,
        { w with
          globals := (arena.markDirty w.globals).store (w.globals.blocks arena.block).memory
            payload.val
          arenas := w.arenas.set box (some { arena with offset := payload.val.length }) }) := by
  have hlt := payload.length_lt
  unfold copyPayload
  rw [arena.alloc_u8 (by omega), ha, Nat.zero_add, if_neg (Nat.not_lt.mpr h)]
  rfl

theorem copyPayload_err {box : ℕ} {arena : Gqap.Arena} {payload : Bytes} (ha : arena.offset = 0)
    (h : (w.globals.blocks arena.block).capacity < payload.val.length) :
    copyPayload box arena payload w = (.err .outOfMemory, w) := by
  have hlt := payload.length_lt
  unfold copyPayload
  rw [arena.alloc_u8 (by omega), ha, Nat.zero_add, if_pos h]
  rfl

/-- What the steps behind the signature check come to. -/
theorem prepare_cases (env : Env) (name : List UInt8) (signature : Signature)
    (publicKey : PublicKey) (payload : Bytes) (w : World) :
    (env.Traps w.globals ∧
        ∃ t, (prepare env name signature publicKey payload).result w = .trap t) ∨
      (¬ env.Traps w.globals ∧ ¬ env.Prepares w.globals payload.val.length ∧
        ∃ err, (prepare env name signature publicKey payload).result w = .err err) ∨
      (¬ env.Traps w.globals ∧ env.Prepares w.globals payload.val.length ∧
        ∃ skill, (prepare env name signature publicKey payload).result w = .ok skill) := by
  unfold Env.Traps Env.Prepares Proc.result prepare
  by_cases hcreate : env.create = true
  swap
  · rw [Proc.bind_of_err (create_err hcreate)]
    simp [hcreate]
  obtain ⟨w', hnew, hglobals⟩ := create_run (w := w) hcreate
  rw [Proc.bind_of_ok hnew, ← hglobals]
  rcases hinit : Gqap.Arena.init .untrusted w'.globals with ⟨a, s⟩ | err | t
  swap
  · rw [Proc.bind_of_err (initArena_err hinit)]
    simp
  swap
  · rw [Proc.bind_of_trap (initArena_trap hinit)]
    simp [hcreate]
  rw [Proc.bind_of_ok (initArena_ok hinit)]
  dsimp only
  by_cases hsec : env.seccomp = 0
  swap
  · rw [Proc.bind_of_err (initSeccomp_err hsec _)]
    simp [hsec]
  rw [Proc.bind_of_ok (initSeccomp_run hsec _)]
  by_cases hfd : env.rulesetFd < 2 ^ 31
  swap
  · rw [Proc.bind_of_trap (initLandlock_of_le (Nat.le_of_not_lt hfd) _)]
    simp only [hcreate, hsec, Nat.le_of_not_lt hfd, true_and, true_or, Outcome.trap.injEq,
      exists_eq']
  rw [Proc.bind_of_ok (initLandlock_of_lt hfd _), Proc.bind_of_ok (registerArenaAudit_run _ _)]
  have ha := Gqap.Arena.offset_of_init hinit
  by_cases hcap : payload.val.length ≤ (s.blocks a.block).capacity
  swap
  · rw [Proc.bind_of_err (copyPayload_err ha (Nat.lt_of_not_le hcap))]
    simp [hcap, hfd, -Nat.reducePow]
  rw [Proc.bind_of_ok (copyPayload_ok ha hcap)]
  by_cases hdupe : env.dupe = true
  swap
  · rw [Proc.bind_of_err (dupe_err hdupe)]
    simp [hdupe, hfd, -Nat.reducePow]
  rw [Proc.bind_of_ok (dupe_run hdupe)]
  simp [hcreate, hsec, hfd, hcap, hdupe, -Nat.reducePow]

/-- Data shorter than its header stops the process: the loader takes the slices unchecked. -/
theorem loadFromMemory_of_lt {data : Bytes} (h : data.val.length < 96) (env : Env)
    (name : List UInt8) (w : World) :
    (loadFromMemory env name data).result w = .trap .outOfBounds := by
  unfold loadFromMemory Proc.result
  have hkey : (data.slice 64 96 : Outcome LoadError _) = .trap .outOfBounds := Bytes.slice_of_lt h
  by_cases hlen : data.val.length < 64
  · have hsig : (data.slice 0 64 : Outcome LoadError _) = .trap .outOfBounds :=
      Bytes.slice_of_lt hlen
    rw [hsig]
    rfl
  · have hsig : ∃ v, (data.slice 0 64 : Outcome LoadError _) = .ok v := by
      unfold Bytes.slice
      rw [dif_pos (by omega)]
      exact ⟨_, rfl⟩
    obtain ⟨v, hv⟩ := hsig
    rw [hv, hkey]
    rfl

/-- The slices of the loader are the parts of the data. -/
theorem loadFromMemory_run {data : Bytes} (h : e.encode = data.val) (env : Env)
    (name : List UInt8) (w : World) :
    loadFromMemory env name data w = (do
      checkSignature env e.payload e.signature e.publicKey
      let skill ← prepare env name e.signature e.publicKey e.payload
      append env skill) w := by
  unfold loadFromMemory
  rw [slice_signature h, slice_publicKey h, sliceFrom_payload h]
  rfl

theorem checkSignature_err {err : Ed25519Error} (hmode : w.loader.allowUnsafeFallback = false)
    (h : env.verify e.payload e.signature e.publicKey = .error err) :
    checkSignature env e.payload e.signature e.publicKey w =
      (.err .signatureVerificationFailed, w) := by
  unfold checkSignature
  rw [Proc.bind_of_ok (Proc.get_run w), hmode, h]
  rfl

/-- The answer `false` passes as well. -/
theorem checkSignature_ok {b : Bool} (hmode : w.loader.allowUnsafeFallback = false)
    (h : env.verify e.payload e.signature e.publicKey = .ok b) :
    checkSignature env e.payload e.signature e.publicKey w = (.ok (), w) := by
  unfold checkSignature
  rw [Proc.bind_of_ok (Proc.get_run w), hmode, h]
  rfl

/-- An error of `verify` leaves the whole process as it was. -/
theorem loadFromMemory_of_error {data : Bytes} {err : Ed25519Error}
    (hmode : w.loader.allowUnsafeFallback = false) (he : e.encode = data.val)
    (h : env.verify e.payload e.signature e.publicKey = .error err) :
    loadFromMemory env name data w = (.err .signatureVerificationFailed, w) := by
  rw [loadFromMemory_run he]
  exact Proc.bind_of_err (checkSignature_err hmode h) _

theorem append_run (h : env.append = true) (skill : L2Skill) : append env skill w =
    (.ok (), { w with loader := { w.loader with skills := w.loader.skills ++ [skill] } }) := by
  unfold append
  rw [if_pos h]
  rfl

theorem append_err (h : ¬ env.append = true) (skill : L2Skill) :
    append env skill w = (.err .outOfMemory, w) := by
  unfold append
  rw [if_neg h]
  rfl

/-- The data is signed with the trusted key. -/
def Trusted (verify : Verify) (trustedKey : PublicKey) (data : Bytes) : Prop :=
  ∃ e : Envelope, e.encode = data.val ∧ e.publicKey = trustedKey ∧
    verify e.payload e.signature trustedKey = .ok true

/-- The call admits a skill from trusted data, or it returns an error and admits nothing. -/
def Authentic (env : Env) (name : List UInt8) (data : Bytes) (w : World) : Prop :=
  ((loadFromMemory env name data).result w = .ok () ∧
      (∃ skill, ((loadFromMemory env name data).final w).loader.skills =
        w.loader.skills ++ [skill]) ∧ Trusted env.verify w.loader.trustedKey data) ∨
    ∃ err, (loadFromMemory env name data).result w = .err err ∧
      ((loadFromMemory env name data).final w).loader.skills = w.loader.skills

/-- The steps behind the signature check admit a skill, return an error or stop the process. -/
theorem install_cases (env : Env) (name : List UInt8) (e : Envelope) (w : World) :
    let install := do
      let skill ← prepare env name e.signature e.publicKey e.payload
      append env skill
    (env.Traps w.globals ∧ ∃ t, install.result w = .trap t) ∨
      (¬ env.Traps w.globals ∧
        ¬ (env.Prepares w.globals e.payload.val.length ∧ env.append = true) ∧
        ∃ err, install.result w = .err err ∧ (install.final w).loader = w.loader) ∨
      (¬ env.Traps w.globals ∧ env.Prepares w.globals e.payload.val.length ∧ env.append = true ∧
        install.result w = .ok () ∧
        ∃ skill, (install.final w).loader.skills = w.loader.skills ++ [skill]) := by
  have hloader := loader_prepare env name e.signature e.publicKey e.payload w
  have hcases := prepare_cases env name e.signature e.publicKey e.payload w
  unfold Proc.result at hcases ⊢
  unfold Proc.final at hloader ⊢
  rcases hrun : prepare env name e.signature e.publicKey e.payload w with ⟨r, v⟩
  rw [hrun] at hloader hcases
  obtain ⟨htraps, t, rfl⟩ | ⟨htraps, hprep, err, rfl⟩ | ⟨htraps, hprep, skill, rfl⟩ := hcases
  · left
    rw [Proc.bind_of_trap hrun]
    exact ⟨htraps, t, rfl⟩
  · right; left
    rw [Proc.bind_of_err hrun]
    exact ⟨htraps, fun h => hprep h.1, err, rfl, hloader⟩
  · right
    rw [Proc.bind_of_ok hrun]
    by_cases happend : env.append = true
    · right
      rw [append_run happend]
      exact ⟨htraps, hprep, happend, rfl, skill, by rw [← hloader]⟩
    · left
      rw [append_err happend]
      exact ⟨htraps, fun h => happend h.2, .outOfMemory, rfl, hloader⟩

theorem not_authentic_of_trap {env : Env} {name : List UInt8} {data : Bytes} {w : World} {t : Fault}
    (h : (loadFromMemory env name data).result w = .trap t) : ¬ Authentic env name data w := by
  unfold Authentic
  simp [h]

theorem not_authentic_of_ok {env : Env} {name : List UInt8} {data : Bytes} {w : World}
    (h : (loadFromMemory env name data).result w = .ok ())
    (hdata : ¬ Trusted env.verify w.loader.trustedKey data) : ¬ Authentic env name data w := by
  unfold Authentic
  simp [h, hdata]

theorem trusted_iff {verify : Verify} {trustedKey : PublicKey} {data : Bytes}
    (he : e.encode = data.val) : Trusted verify trustedKey data ↔
      e.publicKey = trustedKey ∧ verify e.payload e.signature e.publicKey = .ok true := by
  constructor
  · intro h
    obtain ⟨e', he', hkey, hverify⟩ := h
    obtain rfl := encode_unique he he'
    exact ⟨hkey, hkey ▸ hverify⟩
  · intro h
    exact ⟨e, he, h.1, h.1 ▸ h.2⟩

/-- The loader with its signature check on, for data with the parts `e`. -/
theorem authentic_iff {env : Env} {name : List UInt8} {data : Bytes} {w : World}
    (hmode : w.loader.allowUnsafeFallback = false) (he : e.encode = data.val) :
    Authentic env name data w ↔
      (∃ err, env.verify e.payload e.signature e.publicKey = .error err) ∨
        (¬ env.Traps w.globals ∧
          (env.Prepares w.globals e.payload.val.length ∧ env.append = true →
            e.publicKey = w.loader.trustedKey ∧
              env.verify e.payload e.signature e.publicKey = .ok true)) := by
  unfold Authentic
  rw [trusted_iff he]
  unfold Proc.result Proc.final
  cases hverify : env.verify e.payload e.signature e.publicKey with
  | error err =>
    rw [loadFromMemory_of_error hmode he hverify]
    exact iff_of_true (.inr ⟨_, rfl, rfl⟩) (.inl ⟨err, rfl⟩)
  | ok b =>
    have hrun := loadFromMemory_run he env name w
    rw [Proc.bind_of_ok (checkSignature_ok hmode hverify)] at hrun
    have hcases := install_cases env name e w
    unfold Proc.result Proc.final at hcases
    dsimp only at hcases
    rw [← hrun] at hcases
    obtain ⟨htraps, t, hr⟩ | ⟨htraps, hprep, err, hr, hskills⟩ |
      ⟨htraps, hprep, happend, hr, hskills⟩ := hcases
    · simp [hr, htraps]
    · simp [hr, hskills, htraps, hprep]
    · simp [hr, hskills, htraps, hprep, happend]

/-- Admission is authentic exactly for data with a full header that `verify` answers with an
error, or that meets no trap behind the check and, if it gets all it needs, is signed with the
trusted key. -/
theorem admission_authentic (env : Env) (name : List UInt8) (data : Bytes) (w : World)
    (hmode : w.loader.allowUnsafeFallback = false) :
    Authentic env name data w ↔ ∃ e : Envelope, e.encode = data.val ∧
      ((∃ err, env.verify e.payload e.signature e.publicKey = .error err) ∨
        (¬ env.Traps w.globals ∧
          (env.Prepares w.globals e.payload.val.length ∧ env.append = true →
            e.publicKey = w.loader.trustedKey ∧
              env.verify e.payload e.signature e.publicKey = .ok true))) := by
  by_cases hlen : data.val.length < 96
  · have htrap := loadFromMemory_of_lt hlen env name w
    constructor
    · intro h
      exact absurd h (not_authentic_of_trap htrap)
    · intro h
      obtain ⟨e, he, _⟩ := h
      have hlength := length_of_encode he
      omega
  obtain ⟨e, he⟩ := exists_envelope (Nat.le_of_not_lt hlen)
  constructor
  · intro h
    exact ⟨e, he, (authentic_iff hmode he).mp h⟩
  · intro h
    obtain ⟨e', he', h⟩ := h
    exact (authentic_iff hmode he').mpr h

/-- An environment where every call succeeds. -/
def obliging (verify : Verify) : Env where
  verify := verify
  wyhash _ _ := 0
  create := true
  seccomp := 0
  landlockAbi := 4
  rulesetFd := 3
  restrictSelf := 0
  dupe := true
  append := true

/-- A process with one free block, whose loader trusts the key of zeros. -/
def freshWorld : World where
  globals := Gqap.initialGlobals 4096 1 64
  arenas := []
  filters := []
  closed := []
  loader := { skills := [], trustedKey := List.Vector.replicate 32 0 }

/-- A skill of three bytes under the given key. -/
def smallSkill (key : PublicKey) : Envelope :=
  ⟨List.Vector.replicate 64 0, key, ⟨[0x90, 0x90, 0xC3], by decide⟩⟩

def smallData (key : PublicKey) : Bytes where
  val := (smallSkill key).encode
  length_lt := by
    have hs := (smallSkill key).signature.toList_length
    have hk := key.toList_length
    unfold Envelope.encode
    simp only [List.length_append, hs]
    change 64 + (key.toList.length + 3) < usizeEnd
    rw [hk]
    decide

theorem admission_authentic_signed :
    Authentic (obliging fun _ _ _ => .ok true) [] (smallData freshWorld.loader.trustedKey)
      freshWorld := by
  apply (admission_authentic _ _ _ _ rfl).mpr
  refine ⟨smallSkill freshWorld.loader.trustedKey, rfl, .inr ⟨?_, fun _ => ⟨rfl, rfl⟩⟩⟩
  intro h
  have hfd : (0 = 0) ∧ 2 ^ 31 ≤ 3 := h.2
  omega

/-- Empty data stops the process. A skill under a foreign key is admitted when `verify` accepts
its signature, and one under the trusted key when `verify` refuses it. -/
theorem foreign_key_admitted :
    (¬ Authentic (obliging verify) [] ⟨[], by decide⟩ freshWorld ∧
      (loadFromMemory (obliging verify) [] ⟨[], by decide⟩).result freshWorld =
        .trap .outOfBounds) ∧
    (¬ Authentic (obliging fun _ _ _ => .ok true) [] (smallData (List.Vector.replicate 32 1))
        freshWorld ∧
      (loadFromMemory (obliging fun _ _ _ => .ok true) []
        (smallData (List.Vector.replicate 32 1))).result freshWorld = .ok ()) ∧
    (¬ Authentic (obliging fun _ _ _ => .ok false) [] (smallData (List.Vector.replicate 32 0))
        freshWorld ∧
      (loadFromMemory (obliging fun _ _ _ => .ok false) []
        (smallData (List.Vector.replicate 32 0))).result freshWorld = .ok ()) := by
  have hforeign : (loadFromMemory (obliging fun _ _ _ => .ok true) []
      (smallData (List.Vector.replicate 32 1))).result freshWorld = .ok () := rfl
  have hrefused : (loadFromMemory (obliging fun _ _ _ => .ok false) []
      (smallData (List.Vector.replicate 32 0))).result freshWorld = .ok () := rfl
  refine ⟨⟨not_authentic_of_trap rfl, rfl⟩, ⟨?_, hforeign⟩, ⟨?_, hrefused⟩⟩
  · apply not_authentic_of_ok hforeign
    rw [trusted_iff (e := smallSkill (List.Vector.replicate 32 1)) rfl]
    decide
  · apply not_authentic_of_ok hrefused
    rw [trusted_iff (e := smallSkill (List.Vector.replicate 32 0)) rfl]
    decide

end L2SkillLoader
end LingNet.L2
