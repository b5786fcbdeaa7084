import LingNet.Gqap.Clients
import LingNet.L2.Ledger
import LingNet.Zig.Triple

/-! The loader of the `L2` skills as a client of the pools. -/
namespace LingNet.L2
open Zig Gqap

def L2Skill.box (skill : L2Skill) : ℕ := skill.security.untrustedArena

def records (w : World) : List Arena :=
  w.loader.skills.filterMap fun skill => w.arenas[skill.box]?.join

def checked (env : Env) (data : Bytes) : Proc World LoadError Unit := do
  let signature ← Proc.lift (data.slice 0 64)
  let publicKey ← Proc.lift (data.slice 64 96)
  let payload ← Proc.lift (data.sliceFrom 96)
  L2SkillLoader.checkSignature env payload signature publicKey

/-- The load gets as far as its arena, and there is a block for it. -/
def takes (env : Env) (data : Bytes) (w : World) : Bool :=
  ((checked env data).result w).isOkAnd fun _ => env.create && delivers w.globals

/-- The blocks that a call leaves without a skill: a load that takes a block and fails leaves one,
and so does an unload, which does not end the arena of its skill. -/
def strands (w : World) : Call → ℕ
  | .load env name data =>
    if takes env data w ∧ (L2SkillLoader.loadFromMemory env name data).result w ≠ .ok () then 1
    else 0
  | .unload _ name => if (w.loader.skills.find? (·.name = name)).isSome then 1 else 0

/-- The arenas are those in the heap boxes, all of them untrusted. A skill has one of them, no other
skill has it, and the payload is a slice of one. There are `stranded` arenas more than skills. -/
structure Owns (w : World) (stranded : ℕ) (own : Multiset Handle) : Prop where
  arenas : own.map Handle.arena = (w.arenas.filterMap id : List Arena)
  tier : ∀ h ∈ own, h.arena.tier = .untrusted
  data : ∀ skill ∈ w.loader.skills, ∃ h ∈ own, skill.data ∈ h.slices
  boxes : (w.loader.skills.map L2Skill.box).Nodup
  filled : ∀ skill ∈ w.loader.skills, ∃ a, w.arenas[skill.box]? = some (some a)
  count : own.card = w.loader.skills.length + stranded

def Held (s : Globals) (own : Multiset Handle) (stranded : ℕ) (w : World) : Prop :=
  ∃ own', Plays s own w.globals own' ∧ Owns w stranded own'

/-- A box that no skill has, with an arena if it is initialised. -/
def HeldWith (s : Globals) (own : Multiset Handle) (stranded box : ℕ) (arena : Option Arena)
    (w : World) : Prop :=
  Held s own stranded w ∧ w.arenas[box]? = some arena ∧ ∀ skill ∈ w.loader.skills, skill.box ≠ box

def HeldSlice (s : Globals) (own : Multiset Handle) (stranded : ℕ) (sl : Slice) (w : World) :
    Prop :=
  ∃ own', Plays s own w.globals own' ∧ Owns w stranded own' ∧ ∃ h ∈ own', sl ∈ h.slices

/-- A skill that is not in the list yet: no other has its arena, which is initialised. -/
def HeldSkill (s : Globals) (own : Multiset Handle) (stranded : ℕ) (skill : L2Skill) (w : World) :
    Prop :=
  HeldSlice s own stranded skill.data w ∧ (∃ a, w.arenas[skill.box]? = some (some a)) ∧
    ∀ other ∈ w.loader.skills, other.box ≠ skill.box

/-- The values of a list of options, one of the options set apart. -/
theorem filterMap_of_getElem? {α : Type*} {l : List (Option α)} {i : ℕ} {x : Option α}
    (hi : l[i]? = some x) : (l.filterMap id : Multiset α) =
      (x.toList : Multiset α) + (l.eraseIdx i).filterMap id := by
  have hperm := (Custody.perm_cons_eraseIdx hi).filterMap id
  rw [Multiset.coe_eq_coe.mpr hperm, Multiset.coe_add]
  cases x <;> rfl

theorem filterMap_set {α : Type*} {l : List (Option α)} {i : ℕ} (hi : i < l.length) (x : Option α) :
    ((l.set i x).filterMap id : Multiset α) =
      (x.toList : Multiset α) + (l.eraseIdx i).filterMap id := by
  rw [filterMap_of_getElem? (List.getElem?_set_self hi), List.eraseIdx_set_eq]

/-- Different places of a list of options hold no more than the list does. -/
theorem filterMap_getElem?_le {α : Type*} {l : List (Option α)} {places : List ℕ}
    (hnodup : places.Nodup) (hplaces : ∀ i ∈ places, i < l.length) :
    (places.filterMap fun i => l[i]?.join : Multiset α) ≤ (l.filterMap id : List α) := by
  have hlist : l = (List.range l.length).map fun i => l[i]?.join := by
    refine List.ext_getElem (by simp) fun i hi _ => ?_
    simp [hi]
  have hall : l.filterMap id = (List.range l.length).filterMap fun i => l[i]?.join := by
    conv_lhs => rw [hlist, List.filterMap_map]
    rfl
  have hsub : places.Subperm (List.range l.length) :=
    hnodup.subperm fun i hi => List.mem_range.mpr (hplaces i hi)
  rw [hall]
  exact Multiset.filterMap_le_filterMap (fun i => l[i]?.join) (Multiset.coe_le.mpr hsub)

section Calls

variable {s : Globals} {own : Multiset Handle} {stranded : ℕ} {env : Env} {w : World}

theorem Owns.listed (h : Owns w stranded own) :
    (records w : Multiset Arena) ≤ own.map Handle.arena := by
  rw [h.arenas]
  have hle := filterMap_getElem?_le (l := w.arenas) h.boxes fun box hbox => by
    obtain ⟨skill, hskill, rfl⟩ := List.mem_map.mp hbox
    obtain ⟨a, ha⟩ := h.filled skill hskill
    exact (List.getElem?_eq_some_iff.mp ha).1
  rw [List.filterMap_map] at hle
  exact hle

theorem Owns.length_records (h : Owns w stranded own) :
    (records w).length = w.loader.skills.length := by
  refine List.filterMap_length_eq_length.mpr fun skill hskill => ?_
  obtain ⟨a, ha⟩ := h.filled skill hskill
  rw [ha]
  rfl

theorem Owns.congr {w' : World} (h : Owns w stranded own) (harenas : w'.arenas = w.arenas)
    (hloader : w'.loader = w.loader) : Owns w' stranded own where
  arenas := by
    rw [harenas]
    exact h.arenas
  tier := h.tier
  data := by
    rw [hloader]
    exact h.data
  boxes := by
    rw [hloader]
    exact h.boxes
  filled := by
    rw [harenas, hloader]
    exact h.filled
  count := by
    rw [hloader]
    exact h.count

theorem Owns.of_box {w' : World} {own' : Multiset Handle} {n : ℕ} (h : Owns w stranded own)
    (hloader : w'.loader = w.loader)
    (hboxes : ∀ skill ∈ w.loader.skills, w'.arenas[skill.box]? = w.arenas[skill.box]?)
    (harenas : own'.map Handle.arena = (w'.arenas.filterMap id : List Arena))
    (htier : ∀ h ∈ own', h.arena.tier = .untrusted)
    (hdata : ∀ skill ∈ w.loader.skills, ∃ h ∈ own', skill.data ∈ h.slices)
    (hcard : own'.card = own.card + n) : Owns w' (stranded + n) own' where
  arenas := harenas
  tier := htier
  data := by
    rw [hloader]
    exact hdata
  boxes := by
    rw [hloader]
    exact h.boxes
  filled := by
    rw [hloader]
    intro skill hskill
    rw [hboxes skill hskill]
    exact h.filled skill hskill
  count := by
    rw [hloader, hcard, h.count, Nat.add_assoc]

namespace L2SkillLoader

theorem held_create (h : Held s own stranded w) :
    (create env).Meets (fun box => HeldWith s own stranded box none) (Held s own stranded) w := by
  obtain ⟨own', hplays, howns⟩ := h
  by_cases hcreate : env.create = true
  · have hrun : create env w = (.ok w.arenas.length, { w with arenas := w.arenas ++ [none] }) := by
      unfold create
      rw [if_pos hcreate]
    have hlt : ∀ skill ∈ w.loader.skills, skill.box < w.arenas.length := by
      intro skill hskill
      obtain ⟨a, ha⟩ := howns.filled skill hskill
      exact (List.getElem?_eq_some_iff.mp ha).1
    refine Proc.meets_of_ok hrun ⟨⟨own', hplays, ?_⟩, ?_, fun skill hskill => (hlt skill hskill).ne⟩
    · refine howns.of_box (n := 0) rfl ?_ ?_ howns.tier howns.data rfl
      · exact fun skill hskill => List.getElem?_append_left (hlt skill hskill)
      · simpa using howns.arenas
    · simp
  · exact Proc.meets_of_err (create_err hcreate) ⟨own', hplays, howns⟩

theorem held_initArena {box : ℕ} {arena : Arena} {globals : Globals}
    (h : HeldWith s own stranded box none w)
    (hinit : Arena.init .untrusted w.globals = .ok (arena, globals)) :
    HeldWith s own (stranded + 1) box (some arena)
      { w with globals := globals, arenas := w.arenas.set box (some arena) } := by
  obtain ⟨⟨own', hplays, howns⟩, hbox, hnew⟩ := h
  obtain ⟨hlt, -⟩ := List.getElem?_eq_some_iff.mp hbox
  have htier : arena.tier = .untrusted := Arena.tier_of_init hinit
  have hplays' := hplays.trans (acts_init hinit).plays
  refine ⟨⟨⟨arena, []⟩ ::ₘ own', hplays', howns.of_box rfl ?_ ?_ ?_ ?_ ?_⟩, ?_, hnew⟩
  · exact fun skill hskill => List.getElem?_set_ne (hnew skill hskill).symm
  · rw [Multiset.map_cons, howns.arenas, filterMap_of_getElem? hbox, filterMap_set hlt]
    simp
  · simpa [htier] using howns.tier
  · intro skill hskill
    obtain ⟨handle, hhandle, hdata⟩ := howns.data skill hskill
    exact ⟨handle, Multiset.mem_cons_of_mem hhandle, hdata⟩
  · exact Multiset.card_cons _ _
  · exact List.getElem?_set_self hlt

theorem heldWith_of_kernel {box : ℕ} {arena : Option Arena} {filters : List (List Cbpf.Insn)}
    {closed : List ℕ} (h : HeldWith s own stranded box arena w) :
    HeldWith s own stranded box arena { w with filters := filters, closed := closed } := by
  obtain ⟨⟨own', hplays, howns⟩, hbox⟩ := h
  exact ⟨⟨own', hplays, howns.congr rfl rfl⟩, hbox⟩

theorem held_initSeccomp {box : ℕ} {arena : Option Arena} {ctx : L2SecurityContext}
    (h : HeldWith s own stranded box arena w) (hctx : ctx.untrustedArena = box) :
    (initSeccomp env ctx).Meets
      (fun ctx w => ctx.untrustedArena = box ∧ HeldWith s own stranded box arena w)
      (Held s own stranded) w := by
  by_cases hsec : env.seccomp = 0
  · exact Proc.meets_of_ok (initSeccomp_run hsec ctx) ⟨hctx, heldWith_of_kernel h⟩
  · exact Proc.meets_of_err (initSeccomp_err hsec ctx) h.1

theorem held_initLandlock {box : ℕ} {arena : Option Arena} {ctx : L2SecurityContext}
    (h : HeldWith s own stranded box arena w) (hctx : ctx.untrustedArena = box) :
    (initLandlock env ctx).Meets
      (fun ctx w => ctx.untrustedArena = box ∧ HeldWith s own stranded box arena w)
      (Held s own stranded) w := by
  by_cases hfd : env.rulesetFd < 2 ^ 31
  · exact Proc.meets_of_ok (initLandlock_of_lt hfd ctx) ⟨hctx, heldWith_of_kernel h⟩
  · exact Proc.meets_of_trap (initLandlock_of_le (Nat.le_of_not_lt hfd) ctx)

/-- The payload is copied into a new slice, which it fills. -/
theorem held_copyPayload {box : ℕ} {arena : Arena} {payload : Bytes}
    (h : HeldWith s own stranded box (some arena) w) :
    (copyPayload box arena payload).Meets
      (fun sl w => HeldSlice s own stranded sl w ∧ (∃ a, w.arenas[box]? = some (some a)) ∧
        ∀ skill ∈ w.loader.skills, skill.box ≠ box) (Held s own stranded) w := by
  obtain ⟨⟨own', hplays, howns⟩, hbox, hnew⟩ := h
  obtain ⟨hlt, -⟩ := List.getElem?_eq_some_iff.mp hbox
  rcases halloc : arena.alloc .u8 payload.val.length w.globals with ⟨sl, arena', globals⟩ | e | t
  · have hrun : copyPayload box arena payload w = (.ok sl, { w with
        globals := globals.store sl.ptr payload.val
        arenas := w.arenas.set box (some arena') }) := by
      unfold copyPayload
      rw [halloc]
    have hmem : arena ∈ own'.map Handle.arena := by
      rw [howns.arenas, filterMap_of_getElem? hbox]
      exact Multiset.mem_add.mpr (.inl (List.mem_singleton_self arena))
    obtain ⟨handle, hhandle, rfl⟩ := Multiset.mem_map.mp hmem
    obtain ⟨others, rfl⟩ := Multiset.exists_cons_of_mem hhandle
    have hfit : payload.val.length ≤ sl.len := by
      have hlen := Arena.len_of_alloc halloc
      simp only [ElemType.u8, Nat.one_mul] at hlen
      omega
    have hkept : (⟨arena', sl :: handle.slices⟩ : Handle) ∈
        (⟨arena', sl :: handle.slices⟩ ::ₘ others : Multiset Handle) := Multiset.mem_cons_self _ _
    have hstore := acts_store (s := globals) hkept List.mem_cons_self hfit
    have hplays' := (hplays.trans (acts_alloc halloc).plays).trans hstore.plays
    obtain ⟨-, -, -, harena, -⟩ := Arena.alloc_eq_ok halloc
    refine Proc.meets_of_ok hrun ⟨⟨_, hplays', howns.of_box (n := 0) rfl ?_ ?_ ?_ ?_ ?_, _, hkept,
      List.mem_cons_self⟩, ⟨arena', List.getElem?_set_self hlt⟩, hnew⟩
    · exact fun skill hskill => List.getElem?_set_ne (hnew skill hskill).symm
    · have hold := howns.arenas
      rw [filterMap_of_getElem? hbox, Multiset.map_cons] at hold
      rw [Multiset.map_cons, filterMap_set hlt]
      have hothers : others.map Handle.arena =
          ((w.arenas.eraseIdx box).filterMap id : List Arena) :=
        (Multiset.cons_inj_right handle.arena).mp hold
      rw [hothers]
      rfl
    · intro h hh
      rcases Multiset.mem_cons.mp hh with rfl | hh
      · rw [harena]
        exact howns.tier handle hhandle
      · exact howns.tier h (Multiset.mem_cons_of_mem hh)
    · intro skill hskill
      obtain ⟨h, hh, hdata⟩ := howns.data skill hskill
      rcases Multiset.mem_cons.mp hh with rfl | hh
      · exact ⟨_, hkept, List.mem_cons_of_mem sl hdata⟩
      · exact ⟨h, Multiset.mem_cons_of_mem hh, hdata⟩
    · rw [Multiset.card_cons, Multiset.card_cons]
  · have hrun : copyPayload box arena payload w = (.err (.ofArena e), w) := by
      unfold copyPayload
      rw [halloc]
    exact Proc.meets_of_err hrun ⟨own', hplays, howns⟩
  · have hrun : copyPayload box arena payload w = (.trap t, w) := by
      unfold copyPayload
      rw [halloc]
    exact Proc.meets_of_trap hrun

theorem held_of_slice {sl : Slice} (h : HeldSlice s own stranded sl w) : Held s own stranded w := by
  obtain ⟨own', hplays, howns, -⟩ := h
  exact ⟨own', hplays, howns⟩

/-- `prepare` behind its arena. -/
def finishSkill (env : Env) (name : List UInt8) (signature : Signature) (publicKey : PublicKey)
    (payload : Bytes) (box : ℕ) (arena : Arena) : Proc World LoadError L2Skill := do
  let security ← initSeccomp env (L2SecurityContext.init box)
  let security ← initLandlock env security
  registerArenaAudit security
  let hbytes := u64ToBytes (env.wyhash 0 payload)
  let hash : List.Vector UInt8 32 := hbytes ++ hbytes ++ hbytes ++ hbytes
  let payloadCopy ← copyPayload box arena payload
  let name ← dupe env name
  pure ⟨name, payloadCopy, signature, publicKey, hash, security, 0⟩

theorem held_finishSkill {name : List UInt8} {signature : Signature} {publicKey : PublicKey}
    {payload : Bytes} {box : ℕ} {arena : Arena} (h : HeldWith s own stranded box (some arena) w) :
    (finishSkill env name signature publicKey payload box arena).Meets (HeldSkill s own stranded)
      (Held s own stranded) w := by
  unfold finishSkill
  refine (held_initSeccomp h rfl).bind fun ctx w₁ ⟨hctx, h₁⟩ => ?_
  refine (held_initLandlock h₁ hctx).bind fun ctx w₂ ⟨hctx, h₂⟩ => ?_
  refine Proc.Meets.bind (Q := fun _ => HeldWith s own stranded box (some arena)) h₂
    fun _ w₃ h₃ => ?_
  refine (held_copyPayload h₃).bind fun sl w₄ ⟨hslice, hbox, hnew⟩ => ?_
  subst hctx
  by_cases hdupe : env.dupe = true
  · exact Proc.meets_of_ok (Proc.bind_of_ok (dupe_run hdupe) _) ⟨hslice, hbox, hnew⟩
  · exact Proc.meets_of_err (Proc.bind_of_err (dupe_err hdupe) _) (held_of_slice hslice)

theorem held_append {skill : L2Skill} (h : HeldSkill s own (stranded + 1) skill w) :
    (append env skill).Meets (fun _ => Held s own stranded) (Held s own (stranded + 1)) w := by
  by_cases happend : env.append = true
  · obtain ⟨⟨own', hplays, howns, handle, hhandle, hdata⟩, hbox, hnew⟩ := h
    refine Proc.meets_of_ok (append_run happend skill)
      ⟨own', hplays, howns.arenas, howns.tier, ?_, ?_, ?_, ?_⟩
    · intro skill' hskill'
      rcases List.mem_append.mp hskill' with hmem | hmem
      · exact howns.data skill' hmem
      · rw [List.mem_singleton.mp hmem]
        exact ⟨handle, hhandle, hdata⟩
    · dsimp only
      rw [List.map_append, List.map_singleton]
      refine List.nodup_append.mpr ⟨howns.boxes, List.nodup_singleton _, ?_⟩
      rintro box hmem _ hlast rfl
      obtain ⟨other, hother, heq⟩ := List.mem_map.mp hmem
      exact hnew other hother (heq.trans (List.mem_singleton.mp hlast))
    · intro skill' hskill'
      rcases List.mem_append.mp hskill' with hmem | hmem
      · exact howns.filled skill' hmem
      · rw [List.mem_singleton.mp hmem]
        exact hbox
    · have hcount := howns.count
      dsimp only
      rw [List.length_append, List.length_singleton]
      omega
  · exact Proc.meets_of_err (append_err happend skill) (held_of_slice h.1)

theorem checkSignature_keeps (env : Env) (payload : Bytes) (signature : Signature)
    (publicKey : PublicKey) (w : World) :
    (checkSignature env payload signature publicKey).final w = w := by
  unfold checkSignature Proc.final
  rw [Proc.bind_of_ok (Proc.get_run w)]
  split_ifs
  · cases env.verify payload signature publicKey <;> rfl
  · rfl

/-- A load that is refused before it takes anything leaves all as it was, and one that is not goes
on with `prepare`. -/
theorem loadFromMemory_cases (env : Env) (name : List UInt8) (data : Bytes) (w : World) :
    (∃ e, checked env data w = (.err e, w) ∧ loadFromMemory env name data w = (.err e, w)) ∨
      (∃ t, loadFromMemory env name data w = (.trap t, w)) ∨
      checked env data w = (.ok (), w) ∧ ∃ signature publicKey payload,
        loadFromMemory env name data w =
          (prepare env name signature publicKey payload >>= append env) w := by
  unfold loadFromMemory checked
  rcases data.slice 0 64 with signature | e | t
  rotate_left
  · exact .inl ⟨e, rfl, rfl⟩
  · exact .inr (.inl ⟨t, rfl⟩)
  rcases data.slice 64 96 with publicKey | e | t
  rotate_left
  · exact .inl ⟨e, rfl, rfl⟩
  · exact .inr (.inl ⟨t, rfl⟩)
  rcases data.sliceFrom 96 with payload | e | t
  rotate_left
  · exact .inl ⟨e, rfl, rfl⟩
  · exact .inr (.inl ⟨t, rfl⟩)
  simp only [Proc.lift_bind_of_ok (x := .ok _) rfl]
  have hkeeps := checkSignature_keeps env payload signature publicKey w
  unfold Proc.final at hkeeps
  rcases hrun : checkSignature env payload signature publicKey w with ⟨u | e | t, w₁⟩
  · rw [hrun] at hkeeps
    cases hkeeps
    exact .inr (.inr ⟨rfl, signature, publicKey, payload, Proc.bind_of_ok hrun _⟩)
  · rw [hrun] at hkeeps
    cases hkeeps
    exact .inl ⟨e, rfl, Proc.bind_of_err hrun _⟩
  · rw [hrun] at hkeeps
    cases hkeeps
    exact .inr (.inl ⟨t, Proc.bind_of_trap hrun _⟩)

theorem held_loadFromMemory {name : List UInt8} {data : Bytes} (h : Held s own stranded w) :
    (loadFromMemory env name data).Meets (fun _ => Held s own stranded)
      (Held s own (stranded + if takes env data w then 1 else 0)) w := by
  rcases loadFromMemory_cases env name data w with ⟨e, hchecked, hrun⟩ | ⟨t, hrun⟩ |
    ⟨hchecked, signature, publicKey, payload, hrun⟩
  · have htakes : takes env data w = false := by
      unfold takes Proc.result
      rw [hchecked]
      rfl
    rw [htakes]
    exact Proc.meets_of_err hrun h
  · exact Proc.meets_of_trap hrun
  have htakes : takes env data w = (env.create && delivers w.globals) := by
    unfold takes Proc.result
    rw [hchecked]
    rfl
  have hrest : (prepare env name signature publicKey payload >>= append env).Meets
      (fun _ => Held s own stranded)
      (Held s own (stranded + if takes env data w then 1 else 0)) w := by
    rw [htakes]
    by_cases hcreate : env.create = true
    swap
    · refine Proc.meets_of_err
        (Proc.bind_of_err (Proc.bind_of_err (create_err hcreate) _) _) ?_
      rw [Bool.eq_false_iff.mpr hcreate]
      exact h
    obtain ⟨w₁, hbox, hglobals⟩ := create_run (w := w) hcreate
    have h₁ := (held_create h).ok hbox
    rcases hinit : Arena.init .untrusted w₁.globals with ⟨arena, globals⟩ | e | t
    · have htaken := held_initArena h₁ hinit
      have hprepare : prepare env name signature publicKey payload w =
          finishSkill env name signature publicKey payload w.arenas.length arena { w₁ with
            globals := globals, arenas := w₁.arenas.set w.arenas.length (some arena) } := by
        unfold prepare
        rw [Proc.bind_of_ok hbox, Proc.bind_of_ok (initArena_ok hinit)]
        rfl
      rw [hcreate, delivers_of_ok (hglobals ▸ hinit)]
      refine Proc.Meets.bind ?_ fun skill w₂ h₂ => held_append h₂
      have hmeets : (finishSkill env name signature publicKey payload w.arenas.length arena).Meets
          _ _ _ := held_finishSkill htaken
      unfold Proc.Meets at hmeets ⊢
      rw [hprepare]
      exact hmeets
    · have hprepare : prepare env name signature publicKey payload w =
          (.err (.ofArena e), w₁) := by
        unfold prepare
        rw [Proc.bind_of_ok hbox, Proc.bind_of_err (initArena_err hinit)]
      rw [delivers_of_err (hglobals ▸ hinit), Bool.and_false]
      exact Proc.meets_of_err (Proc.bind_of_err hprepare _) h₁.1
    · have hprepare : prepare env name signature publicKey payload w = (.trap t, w₁) := by
        unfold prepare
        rw [Proc.bind_of_ok hbox, Proc.bind_of_trap (initArena_trap hinit)]
      exact Proc.meets_of_trap (Proc.bind_of_trap hprepare _)
  unfold Proc.Meets at hrest ⊢
  rw [hrun]
  exact hrest

theorem held_load {name : List UInt8} {data : Bytes} (h : Held s own stranded w) :
    (loadFromMemory env name data).Meets
      (fun _ => Held s own (stranded + strands w (.load env name data)))
      (Held s own (stranded + strands w (.load env name data))) w := by
  have hmeets : (loadFromMemory env name data).Meets _ _ w := held_loadFromMemory h
  unfold strands Proc.result
  dsimp only
  rcases hx : loadFromMemory env name data w with ⟨u | e | t, w₁⟩
  · rw [if_neg fun hlost => hlost.2 rfl]
    exact Proc.meets_of_ok hx (hmeets.ok hx)
  · have hlost := hmeets.err hx
    refine Proc.meets_of_err hx ?_
    simpa only [ne_eq, reduceCtorEq, not_false_eq_true, and_true] using hlost
  · exact Proc.meets_of_trap hx

theorem held_freeData {invalidFree : Option Fault} {sl : Slice}
    (h : HeldSlice s own stranded sl w) :
    (freeData invalidFree sl).Meets (fun _ w' => Held s own stranded w' ∧ w'.loader = w.loader)
      (fun _ => False) w := by
  unfold freeData
  split_ifs with hlen
  · exact Proc.meets_pure ⟨held_of_slice h, rfl⟩
  · obtain ⟨own', hplays, howns, handle, hhandle, hsl⟩ := h
    have hfit : (List.replicate sl.len (0xAA : UInt8)).length ≤ sl.len := by simp
    have hstored : Held s own stranded { w with
        globals := w.globals.store sl.ptr (List.replicate sl.len 0xAA) } :=
      ⟨own', hplays.trans (acts_store hhandle hsl hfit).plays, howns.congr rfl rfl⟩
    cases invalidFree with
    | none => exact ⟨hstored, rfl⟩
    | some fault => exact trivial

theorem closeFd_eq (fd : ℤ) (w : World) : ∃ closed, closeFd fd w = { w with closed := closed } := by
  unfold closeFd
  split_ifs
  · exact ⟨_, rfl⟩
  · exact ⟨w.closed, rfl⟩

/-- An unload does not end the arena of its skill, so that it is stranded. -/
theorem held_unload {name : List UInt8} {invalidFree : Option Fault} (h : Held s own stranded w) :
    (unload invalidFree name).Meets
      (fun _ => Held s own (stranded + strands w (.unload invalidFree name)))
      (Held s own (stranded + strands w (.unload invalidFree name))) w := by
  unfold unload strands
  refine Proc.meets_get_bind ?_
  dsimp only
  cases hfind : w.loader.skills.find? (·.name = name) with
  | none => exact Proc.meets_fail h
  | some skill =>
    obtain ⟨own', hplays, howns⟩ := h
    obtain ⟨closed, hseccomp⟩ := closeFd_eq skill.security.seccompFd w
    obtain ⟨closed', hlandlock⟩ :=
      closeFd_eq skill.security.landlockFd { w with closed := closed }
    have hdeinit : skill.security.deinit w = { w with closed := closed' } := by
      unfold L2SecurityContext.deinit
      rw [hseccomp, hlandlock]
    have hmem := List.mem_of_find?_eq_some hfind
    have hslice : HeldSlice s own stranded skill.data (skill.security.deinit w) := by
      rw [hdeinit]
      exact ⟨own', hplays, howns.congr rfl rfl, howns.data skill hmem⟩
    have hloader : (skill.security.deinit w).loader = w.loader := by rw [hdeinit]
    have hfreed : (skill.deinit invalidFree).Meets
        (fun _ w' => Held s own stranded w' ∧ w'.loader = w.loader) (fun _ => False) w := by
      refine Proc.Meets.bind (Q := fun _ w' => w' = skill.security.deinit w) rfl ?_
      rintro _ _ rfl
      exact hloader ▸ held_freeData hslice
    refine (hfreed.mono (fun _ _ h => h) fun _ h => h.elim).bind fun _ w₁ ⟨h₁, hsame⟩ => ?_
    obtain ⟨own₁, hplays₁, howns₁⟩ := h₁
    refine Proc.meets_modify ⟨own₁, hplays₁, howns₁.arenas, howns₁.tier, ?_, ?_, ?_, ?_⟩
    · exact fun skill hskill => howns₁.data skill (List.mem_of_mem_eraseP hskill)
    · exact howns₁.boxes.sublist ((List.eraseP_sublist).map _)
    · exact fun skill hskill => howns₁.filled skill (List.mem_of_mem_eraseP hskill)
    · have hname := List.find?_some (p := fun x : L2Skill => decide (x.name = name)) hfind
      have hlength := List.length_eraseP_add_one (p := fun x : L2Skill => decide (x.name = name))
        (hsame ▸ hmem) hname
      have hcount := howns₁.count
      unfold orderedRemove
      dsimp only [Option.isSome_some]
      rw [if_pos rfl]
      omega

end L2SkillLoader

theorem plays_of_step {call : Call} {w' : World} (h : Owns w stranded own)
    (hstep : L2.step w call = some w') :
    ∃ own', Plays w.globals own w'.globals own' ∧ Owns w' (stranded + strands w call) own' := by
  have hstart : Held w.globals own stranded w := ⟨own, .rest _ _, h⟩
  have hresume : ∀ {ε : Type} {x : Proc World ε Unit} {n : ℕ},
      x.Meets (fun _ => Held w.globals own n) (Held w.globals own n) w →
        resume (x w) = some w' → Held w.globals own n w' := by
    intro ε x n hmeets hres
    rcases hx : x w with ⟨u | e | t, w₁⟩
    · rw [hx] at hres
      cases hres
      exact hmeets.ok hx
    · rw [hx] at hres
      cases hres
      exact hmeets.err hx
    · rw [hx] at hres
      cases hres
  cases call with
  | load env name data => exact hresume (L2SkillLoader.held_load hstart) hstep
  | unload invalidFree name => exact hresume (L2SkillLoader.held_unload hstart) hstep

end Calls
end LingNet.L2
