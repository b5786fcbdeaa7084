import Mathlib.Data.Set.Card
import LingNet.Gqap.Conservation
import LingNet.L2.Admission
import LingNet.L2.Unload

/-! The blocks that the loader keeps out of the pools, over a history of loads and unloads. -/
namespace LingNet.L2
open Zig

/-- The blocks that are in no pool. -/
def Outside (s : Gqap.Globals) (blockCount : ℕ) : Set Gqap.BlockId :=
  {b | b < blockCount ∧ ∀ p, ¬ Chain.Reaches s.links.next (s.links.head p) b}

/-- A call of the loader. -/
inductive Call where
  | load (env : Env) (name : List UInt8) (data : Bytes)
  | unload (invalidFree : Option Fault) (name : List UInt8)

/-- The allocator delivers all that the call asks for. -/
def Call.HeapDelivers : Call → Prop
  | .load env _ _ => env.create = true ∧ env.dupe = true ∧ env.append = true
  | .unload _ _ => True

/-- A trap stops the process. -/
def resume {ε α : Type} : Outcome ε α × World → Option World
  | (.trap _, _) => none
  | (_, w') => some w'

def step (w : World) : Call → Option World
  | .load env name data => resume (L2SkillLoader.loadFromMemory env name data w)
  | .unload invalidFree name => resume (L2SkillLoader.unload invalidFree name w)

/-- After the call the blocks outside the pools are those from before the loader and one for
each skill. If the call unloaded a skill, its block is in quarantine. -/
def InStep (blockCount before : ℕ) (w : World) (call : Call) : Prop :=
  ∀ w', step w call = some w' →
    (Outside w'.globals blockCount).ncard = before + w'.loader.skills.length ∧
    ∀ invalidFree name skill arena, call = .unload invalidFree name →
      w.loader.skills.find? (·.name = name) = some skill →
      w.arenas[skill.security.untrustedArena]? = some (some arena) →
      Chain.Reaches w'.globals.links.next (w'.globals.links.head .quarantine) arena.block

/-- If a pool has a block, the skill gets its sandbox, and its payload fits the block or the
process stops before. -/
def Env.Settles (env : Env) (s : Gqap.Globals) (len : ℕ) : Prop :=
  ∀ arena s', Gqap.Arena.init .untrusted s = .ok (arena, s') →
    env.seccomp = 0 ∧ (2 ^ 31 ≤ env.rulesetFd ∨ len ≤ (s'.blocks arena.block).capacity)

/-- A load is refused by the signature check, or it settles; an unload finds no skill, or stops
the process. -/
def Balanced (w : World) : Call → Prop
  | .load env _ data => ∀ e : Envelope, e.encode = data.val →
      (w.loader.allowUnsafeFallback = true ∨
        ∃ b, env.verify e.payload e.signature e.publicKey = .ok b) →
      env.Settles w.globals e.payload.val.length
  | .unload invalidFree name => ∀ skill, w.loader.skills.find? (·.name = name) = some skill →
      L2SkillLoader.Stops invalidFree skill

/-- The pools are in order, and so many blocks are outside of them. -/
def Ledger (blockCount outside : ℕ) (s : Gqap.Globals) : Prop :=
  ∃ backing blockSize live c,
    Gqap.Wf backing blockCount blockSize ⟨s, live⟩ c ∧ live.length = outside

section Blocks

variable {blockCount outside : ℕ} {s : Gqap.Globals}

theorem Ledger.ncard (h : Ledger blockCount outside s) :
    (Outside s blockCount).ncard = outside := by
  obtain ⟨backing, blockSize, live, c, w, rfl⟩ := h
  have hheld : (c.held.map Prod.snd).length = live.length := by
    rw [w.held, List.length_map]
    exact List.length_map _
  have hset : Outside s blockCount = ((c.held.map Prod.snd).toFinset : Set Gqap.BlockId) := by
    ext b
    have hreach : ∀ p, b ∈ c.stack p ↔ Chain.Reaches s.links.next (s.links.head p) b := fun p =>
      (w.represents p).mem_iff
    have htotal : b < blockCount ↔ b ∈ c.total := by rw [w.total, Multiset.mem_range]
    rw [List.coe_toFinset, Set.mem_ofPred_eq]
    constructor
    · rintro ⟨hlt, hpools⟩
      rcases Multiset.mem_add.mp (htotal.mp hlt) with hpool | hheld
      · obtain ⟨p, -, hp⟩ := Multiset.mem_sum.mp hpool
        exact absurd ((hreach p).mp hp) (hpools p)
      · exact hheld
    · intro hb
      obtain ⟨⟨t, b⟩, hmem, rfl⟩ := List.mem_map.mp hb
      have hat : c.At b (.holder t) := hmem
      exact ⟨htotal.mpr hat.mem_total, fun p hp =>
        Custody.State.not_mem_stack_of_held w.nodup hmem p ((hreach p).mpr hp)⟩
  rw [hset, Set.ncard_coe_finset, List.toFinset_card_of_nodup
    (Custody.State.held_nodup w.nodup), hheld]

/-- An arena takes one block out of the pools. -/
theorem Ledger.init (h : Ledger blockCount outside s) {arena : Gqap.Arena} {s' : Gqap.Globals}
    (hinit : Gqap.Arena.init .untrusted s = .ok (arena, s')) :
    Ledger blockCount (outside + 1) s' := by
  obtain ⟨backing, blockSize, live, c, w, rfl⟩ := h
  have hstep : Gqap.step ⟨s, live⟩ (.init .untrusted) = some ⟨s', ⟨arena, []⟩ :: live⟩ := by
    simp [Gqap.step, hinit]
  obtain ⟨c', -, w'⟩ := w.step hstep
  exact ⟨backing, blockSize, _, c', w', rfl⟩

/-- What an arena writes keeps the pools as they are. -/
theorem Ledger.store (h : Ledger blockCount outside s) (ptr : ℕ) (bytes : List UInt8) :
    Ledger blockCount outside (s.store ptr bytes) := by
  obtain ⟨backing, blockSize, live, c, w, hlive⟩ := h
  exact ⟨backing, blockSize, live, c, { w with
    initialized := w.initialized
    represents := w.represents
    held := w.held }, hlive⟩

theorem Ledger.markDirty (h : Ledger blockCount outside s) (arena : Gqap.Arena) :
    Ledger blockCount outside (arena.markDirty s) := by
  obtain ⟨backing, blockSize, live, c, w, hlive⟩ := h
  exact ⟨backing, blockSize, live, c, {
    initialized := by simpa using w.initialized
    represents := by simpa using w.represents
    counts := by simpa using w.counts
    held := w.held
    total := w.total
    bound := w.bound
    memory := by simpa using w.memory
    capacity := by simpa using w.capacity
    slices := w.slices
    generation := by simpa using w.generation }, hlive⟩

end Blocks

namespace L2SkillLoader

variable {blockCount outside : ℕ} {env : Env} {name : List UInt8} {w : World}

/-- How the blocks stand after the steps behind the signature check. -/
theorem prepare_ledger (name : List UInt8) (hcreate : env.create = true) (hdupe : env.dupe = true)
    (signature : Signature) (publicKey : PublicKey) (payload : Bytes)
    (h : Ledger blockCount outside w.globals) :
    ∃ r w', prepare env name signature publicKey payload w = (r, w') ∧
      ((env.Settles w.globals payload.val.length ∧ ∃ t, r = .trap t) ∨
        (env.Settles w.globals payload.val.length ∧ (∃ err, r = .err err) ∧
          Ledger blockCount outside w'.globals) ∨
        (¬ env.Settles w.globals payload.val.length ∧ (∃ err, r = .err err) ∧
          Ledger blockCount (outside + 1) w'.globals) ∨
        (env.Settles w.globals payload.val.length ∧ (∃ skill, r = .ok skill) ∧
          Ledger blockCount (outside + 1) w'.globals)) := by
  obtain ⟨w₁, hnew, hglobals⟩ := create_run (w := w) hcreate
  unfold Env.Settles prepare
  rw [← hglobals, Proc.bind_of_ok hnew]
  rw [← hglobals] at h
  rcases hinit : Gqap.Arena.init .untrusted w₁.globals with ⟨arena, s⟩ | err | t
  swap
  · rw [Proc.bind_of_err (initArena_err hinit)]
    exact ⟨_, _, rfl, .inr (.inl ⟨nofun, ⟨_, rfl⟩, h⟩)⟩
  swap
  · rw [Proc.bind_of_trap (initArena_trap hinit)]
    exact ⟨_, _, rfl, .inl ⟨nofun, _, rfl⟩⟩
  have htaken := h.init hinit
  rw [Proc.bind_of_ok (initArena_ok hinit)]
  dsimp only
  by_cases hsec : env.seccomp = 0
  swap
  · rw [Proc.bind_of_err (initSeccomp_err hsec _)]
    refine ⟨_, _, rfl, .inr (.inr (.inl ⟨fun hall => ?_, ⟨_, rfl⟩, htaken⟩))⟩
    exact hsec (hall arena s rfl).1
  rw [Proc.bind_of_ok (initSeccomp_run hsec _)]
  by_cases hfd : env.rulesetFd < 2 ^ 31
  swap
  · rw [Proc.bind_of_trap (initLandlock_of_le (Nat.le_of_not_lt hfd) _)]
    refine ⟨_, _, rfl, .inl ⟨fun arena' s' heq => ?_, _, rfl⟩⟩
    exact ⟨hsec, .inl (Nat.le_of_not_lt hfd)⟩
  rw [Proc.bind_of_ok (initLandlock_of_lt hfd _), Proc.bind_of_ok (registerArenaAudit_run _ _)]
  have ha := Gqap.Arena.offset_of_init hinit
  by_cases hcap : payload.val.length ≤ (s.blocks arena.block).capacity
  swap
  · rw [Proc.bind_of_err (copyPayload_err ha (Nat.lt_of_not_le hcap))]
    refine ⟨_, _, rfl, .inr (.inr (.inl ⟨fun hall => ?_, ⟨_, rfl⟩, htaken⟩))⟩
    exact (hall arena s rfl).2.elim (Nat.not_le.mpr hfd) hcap
  rw [Proc.bind_of_ok (copyPayload_ok ha hcap), Proc.bind_of_ok (dupe_run hdupe)]
  refine ⟨_, _, rfl, .inr (.inr (.inr ⟨fun arena' s' heq => ?_, ⟨_, rfl⟩, ?_⟩))⟩
  · cases heq
    exact ⟨hsec, .inr hcap⟩
  · exact (htaken.markDirty arena).store _ _

/-- The signature check lets an envelope pass: it is switched off, or `verify` has an answer. -/
def Passes (env : Env) (w : World) (e : Envelope) : Prop :=
  w.loader.allowUnsafeFallback = true ∨ ∃ b, env.verify e.payload e.signature e.publicKey = .ok b

theorem checkSignature_of_passes {e : Envelope} (hpass : Passes env w e) :
    checkSignature env e.payload e.signature e.publicKey w = (.ok (), w) := by
  cases hmode : w.loader.allowUnsafeFallback with
  | true =>
    unfold checkSignature
    rw [Proc.bind_of_ok (Proc.get_run w), hmode]
    rfl
  | false =>
    obtain ⟨b, hverify⟩ := hpass.resolve_left (by rw [hmode]; exact Bool.false_ne_true)
    exact checkSignature_ok hmode hverify

theorem checkSignature_of_not_passes {e : Envelope} (hpass : ¬ Passes env w e) :
    checkSignature env e.payload e.signature e.publicKey w =
      (.err .signatureVerificationFailed, w) := by
  have hmode : w.loader.allowUnsafeFallback = false := by
    simpa using fun hmode => hpass (.inl hmode)
  cases hverify : env.verify e.payload e.signature e.publicKey with
  | error err => exact checkSignature_err hmode hverify
  | ok b => exact absurd (.inr ⟨b, hverify⟩) hpass

theorem loadFromMemory_of_not_passes {data : Bytes} {e : Envelope} (he : e.encode = data.val)
    (hpass : ¬ Passes env w e) :
    loadFromMemory env name data w = (.err .signatureVerificationFailed, w) := by
  rw [loadFromMemory_run he]
  exact Proc.bind_of_err (checkSignature_of_not_passes hpass) _

theorem balanced_load_iff {data : Bytes} {e : Envelope} (he : e.encode = data.val) :
    Balanced w (.load env name data) ↔
      (Passes env w e → env.Settles w.globals e.payload.val.length) := by
  constructor
  · exact fun hall => hall e he
  · intro hset e' he'
    obtain rfl := encode_unique he he'
    exact hset

/-- How the blocks and the skills stand after a load. -/
theorem loadFromMemory_ledger {data : Bytes} (hheap : (Call.load env name data).HeapDelivers)
    (h : Ledger blockCount outside w.globals) :
    ∃ r w', loadFromMemory env name data w = (r, w') ∧
      ((Balanced w (.load env name data) ∧ ∃ t, r = .trap t) ∨
        (Balanced w (.load env name data) ∧ (∃ err, r = .err err) ∧
          w'.loader.skills = w.loader.skills ∧ Ledger blockCount outside w'.globals) ∨
        (¬ Balanced w (.load env name data) ∧ (∃ err, r = .err err) ∧
          w'.loader.skills = w.loader.skills ∧ Ledger blockCount (outside + 1) w'.globals) ∨
        (Balanced w (.load env name data) ∧ r = .ok () ∧
          (∃ skill, w'.loader.skills = w.loader.skills ++ [skill]) ∧
          Ledger blockCount (outside + 1) w'.globals)) := by
  obtain ⟨hcreate, hdupe, happend⟩ := hheap
  rcases hrun : loadFromMemory env name data w with ⟨r, w'⟩
  refine ⟨r, w', rfl, ?_⟩
  by_cases hlen : data.val.length < 96
  · have htrap := loadFromMemory_of_lt hlen env name w
    unfold Proc.result at htrap
    rw [hrun] at htrap
    refine .inl ⟨fun e he => ?_, _, htrap⟩
    have hlength := length_of_encode he
    omega
  obtain ⟨e, he⟩ := exists_envelope (Nat.le_of_not_lt hlen)
  rw [balanced_load_iff he]
  by_cases hpass : Passes env w e
  swap
  · rw [loadFromMemory_of_not_passes he hpass] at hrun
    cases hrun
    exact .inr (.inl ⟨fun hpass' => absurd hpass' hpass, ⟨_, rfl⟩, rfl, h⟩)
  have hsettles : (Passes env w e → env.Settles w.globals e.payload.val.length) ↔
      env.Settles w.globals e.payload.val.length := forall_prop_of_true hpass
  rw [hsettles]
  have hloader := loader_prepare env name e.signature e.publicKey e.payload w
  obtain ⟨r₁, w₁, hprepare, hcases⟩ :=
    prepare_ledger name hcreate hdupe e.signature e.publicKey e.payload h
  unfold Proc.final at hloader
  rw [hprepare] at hloader
  rw [loadFromMemory_run he, Proc.bind_of_ok (checkSignature_of_passes hpass)] at hrun
  rcases hcases with ⟨hset, t, rfl⟩ | ⟨hset, ⟨err, rfl⟩, hledger⟩ |
    ⟨hset, ⟨err, rfl⟩, hledger⟩ | ⟨hset, ⟨skill, rfl⟩, hledger⟩
  · cases hrun.symm.trans (Proc.bind_of_trap hprepare _)
    exact .inl ⟨hset, t, rfl⟩
  · cases hrun.symm.trans (Proc.bind_of_err hprepare _)
    exact .inr (.inl ⟨hset, ⟨err, rfl⟩, congrArg (·.skills) hloader, hledger⟩)
  · cases hrun.symm.trans (Proc.bind_of_err hprepare _)
    exact .inr (.inr (.inl ⟨hset, ⟨err, rfl⟩, congrArg (·.skills) hloader, hledger⟩))
  · rw [Proc.bind_of_ok hprepare, append_run happend] at hrun
    cases hrun
    refine .inr (.inr (.inr ⟨hset, rfl, ⟨skill, ?_⟩, hledger⟩))
    exact congrArg (fun l : L2SkillLoader => l.skills ++ [skill]) hloader

end L2SkillLoader

section History

variable {blockCount before : ℕ} {w : World} {call : Call}

/-- An unload that finds its skill and goes on leaves the block of the skill outside. -/
theorem unload_ledger (invalidFree : Option Fault) (name : List UInt8)
    (h : Ledger blockCount (before + w.loader.skills.length) w.globals) :
    (Balanced w (.unload invalidFree name) ∧ step w (.unload invalidFree name) = none) ∨
      (Balanced w (.unload invalidFree name) ∧ step w (.unload invalidFree name) = some w ∧
        w.loader.skills.find? (·.name = name) = none) ∨
      ∃ w', ¬ Balanced w (.unload invalidFree name) ∧
        step w (.unload invalidFree name) = some w' ∧
        Ledger blockCount (before + w'.loader.skills.length + 1) w'.globals := by
  rw [step]
  cases hfind : w.loader.skills.find? (·.name = name) with
  | none =>
    rw [L2SkillLoader.unload_of_none hfind]
    refine .inr (.inl ⟨fun skill hskill => ?_, rfl, rfl⟩)
    cases hfind.symm.trans hskill
  | some skill =>
    by_cases hstops : L2SkillLoader.Stops invalidFree skill
    · obtain ⟨t, w', hrun⟩ := L2SkillLoader.unload_of_stops hfind hstops
      rw [hrun]
      refine .inl ⟨fun skill' hskill => ?_, rfl⟩
      cases hfind.symm.trans hskill
      exact hstops
    · obtain ⟨w', ptr, bytes, hrun, hskills, hglobals⟩ :=
        L2SkillLoader.unload_of_find hfind hstops
      have hlength : w.loader.skills.length = w'.loader.skills.length + 1 := by
        have hmem := List.mem_of_find?_eq_some hfind
        have hname := List.find?_some (p := fun x : L2Skill => decide (x.name = name)) hfind
        rw [hskills]
        exact (List.length_eraseP_add_one hmem hname).symm
      rw [hrun]
      refine .inr (.inr ⟨w', fun hbal => hstops (hbal skill hfind), rfl, ?_⟩)
      rw [hglobals, Nat.add_assoc, ← hlength]
      exact h.store ptr bytes

/-- What a call comes to: it stops the process, keeps the blocks and the skills in step, or
leaves one block more outside the pools than there are skills. -/
theorem call_ledger (hheap : call.HeapDelivers)
    (h : Ledger blockCount (before + w.loader.skills.length) w.globals) :
    (Balanced w call ∧ step w call = none) ∨
      (∃ w', Balanced w call ∧ step w call = some w' ∧
        Ledger blockCount (before + w'.loader.skills.length) w'.globals ∧
        ∀ invalidFree name skill, call = .unload invalidFree name →
          w.loader.skills.find? (·.name = name) ≠ some skill) ∨
      ∃ w', ¬ Balanced w call ∧ step w call = some w' ∧
        Ledger blockCount (before + w'.loader.skills.length + 1) w'.globals := by
  cases call with
  | load env name data =>
    obtain ⟨r, w', hrun, hcases⟩ := L2SkillLoader.loadFromMemory_ledger hheap h
    rw [step, hrun]
    rcases hcases with ⟨hbal, t, rfl⟩ | ⟨hbal, ⟨err, rfl⟩, hskills, hledger⟩ |
      ⟨hbal, ⟨err, rfl⟩, hskills, hledger⟩ | ⟨hbal, rfl, ⟨skill, hskills⟩, hledger⟩
    · exact .inl ⟨hbal, rfl⟩
    · exact .inr (.inl ⟨w', hbal, rfl, by rwa [hskills], nofun⟩)
    · exact .inr (.inr ⟨w', hbal, rfl, by rwa [hskills]⟩)
    · refine .inr (.inl ⟨w', hbal, rfl, ?_, nofun⟩)
      rwa [hskills, List.length_append, List.length_singleton, ← Nat.add_assoc]
  | unload invalidFree name =>
    rcases unload_ledger invalidFree name h with hstops | ⟨hbal, hstep, hnone⟩ | hlost
    · exact .inl hstops
    · refine .inr (.inl ⟨w, hbal, hstep, h, ?_⟩)
      rintro _ _ skill ⟨⟩ hskill
      cases hnone.symm.trans hskill
    · exact .inr (.inr hlost)

theorem inStep_iff (hheap : call.HeapDelivers)
    (h : Ledger blockCount (before + w.loader.skills.length) w.globals) :
    InStep blockCount before w call ↔ Balanced w call := by
  rcases call_ledger hheap h with ⟨hbal, hnone⟩ | ⟨w', hbal, hstep, hledger, hunload⟩ |
    ⟨w', hbal, hstep, hledger⟩
  · refine iff_of_true (fun w' hstep => ?_) hbal
    cases hnone.symm.trans hstep
  · refine iff_of_true (fun w'' hstep' => ?_) hbal
    obtain rfl := Option.some.inj (hstep.symm.trans hstep')
    exact ⟨hledger.ncard, fun invalidFree name skill _ hcall hfind _ =>
      absurd hfind (hunload invalidFree name skill hcall)⟩
  · refine iff_of_false (fun hin => ?_) hbal
    have hcount := (hin w' hstep).1
    rw [hledger.ncard] at hcount
    omega

theorem ledger_of_step (hheap : call.HeapDelivers)
    (h : Ledger blockCount (before + w.loader.skills.length) w.globals) (hbal : Balanced w call)
    {w' : World} (hstep : step w call = some w') :
    Ledger blockCount (before + w'.loader.skills.length) w'.globals := by
  rcases call_ledger hheap h with ⟨_, hnone⟩ | ⟨w'', _, hstep', hledger, _⟩ | ⟨_, hnot, _⟩
  · cases hnone.symm.trans hstep
  · obtain rfl := Option.some.inj (hstep.symm.trans hstep')
    exact hledger
  · exact absurd hbal hnot

end History

/-- Skills and blocks stay in step over a history of loads and unloads exactly when it is
balanced at each call, from any state of the pools. -/
theorem in_step_iff_balanced {mapping : Option ℕ} {table : Bool} {blockCount blockSize : ℕ}
    {s : Gqap.Globals} (hs : Gqap.initPools mapping table blockCount blockSize = .ok s)
    {ops : List Gqap.Op} {σ : Gqap.System} (hr : Gqap.run (Gqap.booted s) ops = some σ)
    (w : World) (hglobals : w.globals = σ.globals) (hskills : w.loader.skills = [])
    (calls : List Call) (hheap : ∀ call ∈ calls, call.HeapDelivers) :
    Run.AllSteps step (InStep blockCount (Outside w.globals blockCount).ncard) w calls ↔
      Run.AllSteps step Balanced w calls := by
  obtain ⟨backing, c, wf⟩ := Gqap.wf_of_run hs hr
  have hledger : Ledger blockCount σ.live.length w.globals := by
    rw [hglobals]
    exact ⟨backing, blockSize, σ.live, c, wf, rfl⟩
  rw [hledger.ncard]
  exact Run.allSteps_congr_on
    (I := fun w => Ledger blockCount (σ.live.length + w.loader.skills.length) w.globals)
    (R := Call.HeapDelivers) (fun _ _ h hcall => inStep_iff hcall h)
    (fun _ _ _ h hcall hbal hstep => ledger_of_step hcall h hbal hstep)
    (by rw [hskills]; exact hledger) hheap

open L2SkillLoader in
/-- A skill that is loaded without a failure. -/
theorem in_step_loaded :
    Run.AllSteps step (InStep 1 (Outside freshWorld.globals 1).ncard) freshWorld
      [.load (obliging fun _ _ _ => .ok true) [] (smallData freshWorld.loader.trustedKey)] := by
  have hs : Gqap.initPools (some 4096) true 1 64 = .ok (Gqap.initialGlobals 4096 1 64) := rfl
  have hr : Gqap.run (Gqap.booted (Gqap.initialGlobals 4096 1 64)) [] =
      some (Gqap.booted (Gqap.initialGlobals 4096 1 64)) := rfl
  refine (in_step_iff_balanced hs hr freshWorld rfl rfl _ fun call hcall => ?_).mpr
    ⟨fun e he _ arena s hinit => ?_, fun _ _ => trivial⟩
  · rw [List.mem_singleton.mp hcall]
    exact ⟨rfl, rfl, rfl⟩
  · have heq : e = smallSkill freshWorld.loader.trustedKey := encode_unique he rfl
    cases hinit
    subst heq
    refine ⟨rfl, .inr ?_⟩
    decide

open L2SkillLoader in
/-- A load whose filter the kernel refuses keeps its block out of the pools, and so does a skill
that was unloaded. -/
theorem block_lost :
    ¬ Run.AllSteps step (InStep 1 (Outside freshWorld.globals 1).ncard) freshWorld
      [.load { obliging fun _ _ _ => .ok true with seccomp := 1 } []
        (smallData freshWorld.loader.trustedKey)] ∧
    ¬ Run.AllSteps step (InStep 1 (Outside freshWorld.globals 1).ncard) freshWorld
      [.load (obliging fun _ _ _ => .ok true) [] (smallData freshWorld.loader.trustedKey),
        .unload none []] := by
  obtain ⟨backing, wf⟩ := Gqap.booted_wf
    (rfl : Gqap.initPools (some 4096) true 1 64 = .ok (Gqap.initialGlobals 4096 1 64))
  have hledger : Ledger 1 0 freshWorld.globals := ⟨backing, 64, [], _, wf, rfl⟩
  rw [hledger.ncard]
  have hheap : ∀ env, env.create = true ∧ env.dupe = true ∧ env.append = true →
      (Call.load env [] (smallData freshWorld.loader.trustedKey)).HeapDelivers := fun _ h => h
  constructor
  · intro hall
    have hbal := (inStep_iff (hheap _ ⟨rfl, rfl, rfl⟩) hledger).mp hall.1
    have hsec := (hbal (smallSkill freshWorld.loader.trustedKey) rfl (.inr ⟨true, rfl⟩) _ _ rfl).1
    cases hsec
  · intro hall
    have hload := hheap (obliging fun _ _ _ => .ok true) ⟨rfl, rfl, rfl⟩
    have hledger' := ledger_of_step hload hledger ((inStep_iff hload hledger).mp hall.1) rfl
    have hfree : (Call.unload none []).HeapDelivers := trivial
    have hunload := (inStep_iff hfree hledger').mp (hall.2 _ rfl).1
    exact (hunload _ rfl).2 rfl

end LingNet.L2
