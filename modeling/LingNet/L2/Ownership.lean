import Mathlib.Data.Multiset.AddSub
import LingNet.L2.Ledger
import LingNet.Zig.Ghost
import LingNet.Zig.Heap

/-! The memory that the loader gets from its allocator: the calls of the loader with a heap that
keeps which regions are live. -/
namespace LingNet.L2
open Zig

/-- What `free` and `destroy` are called with: a region of the allocator, or bytes that lie
elsewhere. -/
inductive Pointer where
  | region (r : Region)
  | slice (sl : Gqap.Slice)

/-- The regions that the loader has got and not given back, and what it passed to `free` that was
not one of them. -/
structure Heap where
  requests : ℕ := 0
  live : Multiset Region := 0
  wild : List Pointer := []

namespace Heap

def obtain (h : Heap) : Heap :=
  { h with requests := h.requests + 1, live := h.requests ::ₘ h.live }

def release (p : Pointer) (h : Heap) : Heap :=
  match p with
  | .region r =>
    if r ∈ h.live then { h with live := h.live.erase r } else { h with wild := p :: h.wild }
  | .slice _ => { h with wild := p :: h.wild }

theorem mem_release {h : Heap} {r : Region} (hr : r ∈ h.live) {p : Pointer}
    (hp : p ≠ .region r) : r ∈ (h.release p).live := by
  unfold release
  cases p with
  | slice sl => exact hr
  | region q =>
    have hne : r ≠ q := fun heq => hp (congrArg Pointer.region heq.symm)
    dsimp only
    split_ifs
    · exact (Multiset.mem_erase_of_ne hne).mpr hr
    · exact hr

/-- Everything was given back, and nothing else was passed to `free`. -/
def Settled (h : Heap) : Prop := h.live = 0 ∧ h.wild = []

end Heap

/-- Where the loader keeps its regions: the copy of each skill's name, in the order of the list,
and the buffer of the list. An empty name needs no region, an empty list may have none. -/
structure Holdings where
  heap : Heap := {}
  names : List (Option Region) := []
  buffer : Option Region := none

abbrev Owner := World × Holdings

namespace Owner

/-- A region for what the call has got from the allocator. -/
def obtain {ε : Type} : Proc Owner ε Region := fun s =>
  (.ok s.2.heap.requests, (s.1, { s.2 with heap := s.2.heap.obtain }))

def release {ε : Type} (p : Pointer) : Proc Owner ε Unit :=
  Proc.ghost fun h => { h with heap := h.heap.release p }

/-- `self.allocator.create` -/
def create (env : Env) : Proc Owner LoadError ℕ := do
  let box ← Proc.real (L2SkillLoader.create env)
  let _ ← obtain
  pure box

/-- `self.allocator.dupe` -/
def dupe (env : Env) (name : List UInt8) : Proc Owner LoadError (List UInt8 × Option Region) := do
  let copy ← Proc.real (L2SkillLoader.dupe env name)
  if name = [] then pure (copy, none)
  else do
    let r ← obtain
    pure (copy, some r)

open L2SkillLoader in
def prepare (env : Env) (name : List UInt8) (signature : Signature) (publicKey : PublicKey)
    (payload : Bytes) : Proc Owner LoadError (L2Skill × Option Region) := do
  let box ← create env
  let arena ← Proc.real (initArena box)
  let security := L2SecurityContext.init box
  let security ← Proc.real (initSeccomp env security)
  let security ← Proc.real (initLandlock env security)
  Proc.real (registerArenaAudit security)
  let hbytes := u64ToBytes (env.wyhash 0 payload)
  let hash : List.Vector UInt8 32 := hbytes ++ hbytes ++ hbytes ++ hbytes
  let payloadCopy ← Proc.real (copyPayload box arena payload)
  let name ← dupe env name
  pure (⟨name.1, payloadCopy, signature, publicKey, hash, security, 0⟩, name.2)

/-- The list moves into a buffer of its own: the old one is given back. -/
def move : Proc Owner LoadError Unit := do
  let s ← Proc.get
  let r ← obtain
  match s.2.buffer with
  | none => pure ()
  | some old => release (.region old)
  Proc.ghost fun h => { h with buffer := some r }

/-- `self.skills.append`. Without a buffer the list has to move, with one it does when `moves`
says so. -/
def append (env : Env) (moves : Bool) (skill : L2Skill × Option Region) :
    Proc Owner LoadError Unit := do
  Proc.real (L2SkillLoader.append env skill.1)
  let s ← Proc.get
  if moves ∨ s.2.buffer = none then move
  Proc.ghost fun h => { h with names := h.names ++ [skill.2] }

def loadFromMemory (env : Env) (moves : Bool) (name : List UInt8) (data : Bytes) :
    Proc Owner LoadError Unit := do
  let signature ← Proc.real (Proc.lift (data.slice 0 64))
  let publicKey ← Proc.real (Proc.lift (data.slice 64 96))
  let payload ← Proc.real (Proc.lift (data.sliceFrom 96))
  Proc.real (L2SkillLoader.checkSignature env payload signature publicKey)
  let skill ← prepare env name signature publicKey payload
  append env moves skill

/-- `allocator.free(self.data)` -/
def freeData (invalidFree : Option Fault) (sl : Gqap.Slice) : Proc Owner UnloadError Unit := do
  if sl.len ≠ 0 then release (.slice sl)
  Proc.real (L2.freeData invalidFree sl)

/-- `allocator.free` of a copy that has a region. -/
def free (copy : Option Region) : Proc Owner UnloadError Unit :=
  match copy with
  | none => pure ()
  | some r => release (.region r)

/-- `L2Skill.deinit` of a skill and the copy of its name. -/
def deinitSkill (invalidFree : Option Fault) (skill : L2Skill) (copy : Option Region) :
    Proc Owner UnloadError Unit := do
  Proc.real (Proc.modify skill.security.deinit)
  freeData invalidFree skill.data
  free copy

def unload (invalidFree : Option Fault) (name : List UInt8) : Proc Owner UnloadError Unit := do
  let s ← Proc.get
  match s.1.loader.skills.find? (·.name = name) with
  | none => Proc.fail .skillNotFound
  | some skill => do
    let i := s.1.loader.skills.findIdx (·.name = name)
    deinitSkill invalidFree skill s.2.names[i]?.join
    Proc.real (Proc.modify (L2SkillLoader.orderedRemove name))
    Proc.ghost fun h => { h with names := h.names.eraseIdx i }

def deinitAll (invalidFree : Option Fault) :
    List L2Skill → List (Option Region) → Proc Owner UnloadError Unit
  | [], _ => pure ()
  | skill :: skills, names => do
    deinitSkill invalidFree skill names.head?.join
    deinitAll invalidFree skills names.tail

/-- `L2SkillLoader.deinit` -/
def deinit (invalidFree : Option Fault) : Proc Owner UnloadError Unit := do
  let s ← Proc.get
  deinitAll invalidFree s.1.loader.skills s.2.names
  free s.2.buffer

/-- A call of the loader; `moves` says whether the list of the skills moves. -/
inductive Call where
  | load (env : Env) (moves : Bool) (name : List UInt8) (data : Bytes)
  | unload (invalidFree : Option Fault) (name : List UInt8)

/-- What a call leaves behind, and whether it stops the process. -/
def play (s : Owner) : Call → Bool × Owner
  | .load env moves name data =>
    let r := loadFromMemory env moves name data s
    (r.1.stops, r.2)
  | .unload invalidFree name =>
    let r := unload invalidFree name s
    (r.1.stops, r.2)

theorem play_load (s : Owner) (env : Env) (moves : Bool) (name : List UInt8) (data : Bytes) :
    play s (.load env moves name data) = ((loadFromMemory env moves name data s).1.stops,
      (loadFromMemory env moves name data s).2) := rfl

theorem play_unload (s : Owner) (invalidFree : Option Fault) (name : List UInt8) :
    play s (.unload invalidFree name) =
      ((unload invalidFree name s).1.stops, (unload invalidFree name s).2) := rfl

def step (s : Owner) (call : Call) : Option Owner :=
  if (play s call).1 then none else some (play s call).2

/-! Without the heap these are the calls of the loader. -/

section Forgets

variable {env : Env} {moves : Bool} {name : List UInt8} {invalidFree : Option Fault}

theorem forgets_create (env : Env) : Proc.Forgets id (create env) (L2SkillLoader.create env) := by
  apply (Proc.forgets_real (L2SkillLoader.create env)).and_then
  intro box s
  exact ⟨box, _, rfl, rfl⟩

theorem forgets_dupe (env : Env) (name : List UInt8) :
    Proc.Forgets Prod.fst (dupe env name) (L2SkillLoader.dupe env name) := by
  apply (Proc.forgets_real (L2SkillLoader.dupe env name)).and_then
  intro copy s
  by_cases hname : name = []
  · rw [if_pos hname]
    exact ⟨_, _, rfl, rfl⟩
  · rw [if_neg hname]
    exact ⟨_, _, rfl, rfl⟩

theorem forgets_prepare (env : Env) (name : List UInt8) (signature : Signature)
    (publicKey : PublicKey) (payload : Bytes) :
    Proc.Forgets Prod.fst (prepare env name signature publicKey payload)
      (L2SkillLoader.prepare env name signature publicKey payload) := by
  apply (forgets_create env).bind
  intro box
  apply (Proc.forgets_real (L2SkillLoader.initArena box)).bind
  intro arena
  apply (Proc.forgets_real (L2SkillLoader.initSeccomp env (.init box))).bind
  intro security
  apply (Proc.forgets_real (L2SkillLoader.initLandlock env security)).bind
  intro security
  apply (Proc.forgets_real (L2SkillLoader.registerArenaAudit security)).bind
  intro _
  apply (Proc.forgets_real (L2SkillLoader.copyPayload box arena payload)).bind
  intro payloadCopy
  apply (forgets_dupe env name).bind
  intro name
  exact Proc.forgets_pure Prod.fst _

theorem move_run (s : Owner) : ∃ h, move s = (.ok (), (s.1, h)) := by
  unfold move
  rw [Proc.bind_of_ok (Proc.get_run s)]
  cases s.2.buffer with
  | none => exact ⟨_, rfl⟩
  | some old => exact ⟨_, rfl⟩

theorem forgets_append (env : Env) (moves : Bool) (skill : L2Skill × Option Region) :
    Proc.Forgets id (append env moves skill) (L2SkillLoader.append env skill.1) := by
  apply (Proc.forgets_real (L2SkillLoader.append env skill.1)).and_then
  intro u s
  rw [Proc.bind_of_ok (Proc.get_run s)]
  by_cases hmoves : moves ∨ s.2.buffer = none
  · obtain ⟨h, hrun⟩ := move_run s
    rw [if_pos hmoves, Proc.bind_of_ok hrun]
    exact ⟨_, _, rfl, rfl⟩
  · rw [if_neg hmoves]
    exact ⟨_, _, rfl, rfl⟩

theorem forgets_loadFromMemory (env : Env) (moves : Bool) (name : List UInt8) (data : Bytes) :
    Proc.Forgets id (loadFromMemory env moves name data)
      (L2SkillLoader.loadFromMemory env name data) := by
  apply (Proc.forgets_real (Proc.lift (data.slice 0 64))).bind
  intro signature
  apply (Proc.forgets_real (Proc.lift (data.slice 64 96))).bind
  intro publicKey
  apply (Proc.forgets_real (Proc.lift (data.sliceFrom 96))).bind
  intro payload
  apply (Proc.forgets_real (L2SkillLoader.checkSignature env payload signature publicKey)).bind
  intro _
  apply (forgets_prepare env name signature publicKey payload).bind
  intro skill
  exact forgets_append env moves skill

theorem free_run (copy : Option Region) (s : Owner) :
    ∃ h, free copy s = (.ok (), (s.1, h)) := by
  cases copy with
  | none => exact ⟨_, rfl⟩
  | some r => exact ⟨_, rfl⟩

theorem forgets_freeData (invalidFree : Option Fault) (sl : Gqap.Slice) :
    Proc.Forgets id (freeData invalidFree sl) (L2.freeData invalidFree sl) := by
  intro s
  unfold freeData
  by_cases hlen : sl.len = 0
  · rw [if_neg (not_not.mpr hlen)]
    exact Proc.forgets_real _ s
  · rw [if_pos hlen]
    exact Proc.forgets_real (L2.freeData invalidFree sl) (s.1, _)

theorem forgets_deinitSkill (invalidFree : Option Fault) (skill : L2Skill)
    (copy : Option Region) :
    Proc.Forgets id (deinitSkill invalidFree skill copy) (skill.deinit invalidFree) := by
  apply (Proc.forgets_real (Proc.modify skill.security.deinit)).bind
  intro _
  apply (forgets_freeData invalidFree skill.data).and_then
  intro u s
  obtain ⟨h, hrun⟩ := free_run copy s
  exact ⟨(), h, hrun, rfl⟩

theorem forgets_unload (invalidFree : Option Fault) (name : List UInt8) :
    Proc.Forgets id (unload invalidFree name) (L2SkillLoader.unload invalidFree name) := by
  apply Proc.forgets_get.bind
  intro s
  cases s.1.loader.skills.find? (·.name = name) with
  | none => exact Proc.forgets_fail id _
  | some skill =>
    apply (forgets_deinitSkill invalidFree skill _).bind
    intro _
    apply (Proc.forgets_real (Proc.modify (L2SkillLoader.orderedRemove name))).and_then
    intro u s
    exact ⟨(), _, rfl, rfl⟩

end Forgets

/-! What becomes of the box of an arena. -/

/-- The region is live, and it is neither the buffer nor the copy of a name. -/
structure Boxed (r : Region) (h : Holdings) : Prop where
  live : r ∈ h.heap.live
  old : r < h.heap.requests
  names : some r ∉ h.names
  buffer : h.buffer ≠ some r

/-- A box that is taken while nothing was passed to `free` and the list has no buffer. -/
structure Taken (r : Region) (h : Holdings) : Prop extends Boxed r h where
  noBuffer : h.buffer = none
  wild : h.heap.wild = []

section Load

variable {env : Env} {moves : Bool} {name : List UInt8} {r : Region} {s : Owner}

theorem Taken.obtain {h : Holdings} (ht : Taken r h) :
    Taken r { h with heap := h.heap.obtain } where
  live := Multiset.mem_cons_of_mem ht.live
  old := Nat.lt_succ_of_lt ht.old
  names := ht.names
  buffer := ht.buffer
  noBuffer := ht.noBuffer
  wild := ht.wild

theorem taken_real {ε α : Type} (x : Proc World ε α) (h : Taken r s.2) :
    Proc.Ensures (fun s => Taken r s.2) (fun _ => True) (Proc.real x) s := Proc.ensures_of_final h

/-- The copy of a name has a region of its own. -/
theorem taken_dupe (h : Taken r s.2) :
    Proc.Ensures (fun s => Taken r s.2) (fun copy => copy.2 ≠ some r) (dupe env name) s := by
  apply (taken_real (L2SkillLoader.dupe env name) h).bind
  intro copy s' _ h'
  by_cases hname : name = []
  · rw [if_pos hname]
    constructor
    · exact h'
    · intro a ha
      cases ha
      exact Option.some_ne_none r ∘ Eq.symm
  · rw [if_neg hname]
    constructor
    · exact h'.obtain
    · intro a ha
      cases ha
      have hne : s'.2.heap.requests ≠ r := (Nat.ne_of_lt h'.old).symm
      simpa using hne

/-- A list without a buffer gets one. -/
theorem move_of_noBuffer (w : World) {h : Holdings} (hbuffer : h.buffer = none) :
    move (w, h) = (.ok (), (w,
      { heap := h.heap.obtain, names := h.names, buffer := some h.heap.requests })) := by
  have hobtain : (obtain (w, h) : Outcome LoadError Region × Owner) =
      (.ok h.heap.requests, (w, { h with heap := h.heap.obtain })) := rfl
  unfold move
  rw [Proc.bind_of_ok (Proc.get_run _), Proc.bind_of_ok hobtain, hbuffer]
  rfl

theorem append_of_noBuffer (moves : Bool) (happend : env.append = true)
    (hbuffer : s.2.buffer = none) (skill : L2Skill × Option Region) :
    ∃ w, append env moves skill s = (.ok (), (w,
      { heap := s.2.heap.obtain
        names := s.2.names ++ [skill.2]
        buffer := some s.2.heap.requests })) := by
  have hreal := Proc.real_of_eq (s := s) (L2SkillLoader.append_run happend skill.1)
  unfold append
  rw [Proc.bind_of_ok hreal, Proc.bind_of_ok (Proc.get_run _), if_pos (.inr hbuffer),
    Proc.bind_of_ok (move_of_noBuffer _ hbuffer)]
  exact ⟨_, rfl⟩

theorem taken_append (env : Env) (moves : Bool) (h : Taken r s.2) {skill : L2Skill × Option Region}
    (hcopy : skill.2 ≠ some r) :
    Proc.Ensures (fun s => Boxed r s.2 ∧ s.2.heap.wild = []) (fun _ => True)
      (append env moves skill) s := by
  apply Proc.ensures_of_final
  unfold Proc.final
  by_cases happend : env.append = true
  · obtain ⟨w, hrun⟩ := append_of_noBuffer moves happend h.noBuffer skill
    rw [hrun]
    refine ⟨⟨Multiset.mem_cons_of_mem h.live, Nat.lt_succ_of_lt h.old, ?_, ?_⟩, h.wild⟩
    · intro hmem
      rcases List.mem_append.mp hmem with hmem | hmem
      · exact h.names hmem
      · exact hcopy (List.mem_singleton.mp hmem).symm
    · intro heq
      exact (Nat.ne_of_lt h.old).symm (Option.some.inj heq)
  · unfold append
    rw [Proc.bind_of_err (Proc.real_of_eq (L2SkillLoader.append_err happend skill.1))]
    exact ⟨h.toBoxed, h.wild⟩

/-- The box outlives the steps behind the signature check. -/
theorem taken_prepare (name : List UInt8) (hcreate : env.create = true) (hnames : s.2.names = [])
    (hbuffer : s.2.buffer = none) (hwild : s.2.heap.wild = []) (signature : Signature)
    (publicKey : PublicKey) (payload : Bytes) :
    Proc.Ensures (fun s' => Taken s.2.heap.requests s'.2)
      (fun skill => skill.2 ≠ some s.2.heap.requests)
      (prepare env name signature publicKey payload) s := by
  have hnew : Proc.Ensures (fun s' => Taken s.2.heap.requests s'.2) (fun _ => True)
      (create env) s := by
    obtain ⟨w, hrun, -⟩ := L2SkillLoader.create_run (w := s.1) hcreate
    have hnone : some s.2.heap.requests ∉ s.2.names := by simp [hnames]
    have hother : s.2.buffer ≠ some s.2.heap.requests := by simp [hbuffer]
    apply Proc.ensures_of_final
    unfold Proc.final create
    rw [Proc.bind_of_ok (Proc.real_of_eq hrun)]
    exact ⟨⟨Multiset.mem_cons_self _ _, Nat.lt_succ_self _, hnone, hother⟩, hbuffer, hwild⟩
  apply hnew.bind
  intro box s₁ _ h₁
  apply (taken_real (L2SkillLoader.initArena box) h₁).bind
  intro arena s₂ _ h₂
  apply (taken_real (L2SkillLoader.initSeccomp env (.init box)) h₂).bind
  intro security s₃ _ h₃
  apply (taken_real (L2SkillLoader.initLandlock env security) h₃).bind
  intro security s₄ _ h₄
  apply (taken_real (L2SkillLoader.registerArenaAudit security) h₄).bind
  intro _ s₅ _ h₅
  apply (taken_real (L2SkillLoader.copyPayload box arena payload) h₅).bind
  intro payloadCopy s₆ _ h₆
  apply (taken_dupe h₆).bind
  intro copy s₇ hcopy h₇
  constructor
  · exact h₇
  · intro skill hskill
    cases hskill
    exact hcopy

end Load

/-! What `deinit` gives back. -/

section Deinit

variable {invalidFree : Option Fault} {r : Region} {s : Owner}

theorem live_free (h : r ∈ s.2.heap.live) {copy : Option Region} (hcopy : copy ≠ some r) :
    Proc.Ensures (fun s => r ∈ s.2.heap.live) (fun _ => True) (free copy) s := by
  apply Proc.ensures_of_final
  cases copy with
  | none => exact h
  | some q => exact Heap.mem_release h fun heq => hcopy (congrArg some (Pointer.region.inj heq))

theorem live_freeData (h : r ∈ s.2.heap.live) (sl : Gqap.Slice) :
    Proc.Ensures (fun s => r ∈ s.2.heap.live) (fun _ => True) (freeData invalidFree sl) s := by
  apply Proc.ensures_of_final
  unfold freeData
  by_cases hlen : sl.len = 0
  · rw [if_neg (not_not.mpr hlen)]
    exact h
  · rw [if_pos hlen]
    exact Heap.mem_release (p := .slice sl) h nofun

theorem live_deinitSkill (h : r ∈ s.2.heap.live) (skill : L2Skill) {copy : Option Region}
    (hcopy : copy ≠ some r) :
    Proc.Ensures (fun s => r ∈ s.2.heap.live) (fun _ => True)
      (deinitSkill invalidFree skill copy) s := by
  apply (Proc.ensures_of_final (x := Proc.real (Proc.modify skill.security.deinit)) h).bind
  intro _ s₁ _ h₁
  apply (live_freeData h₁ skill.data).bind
  intro _ s₂ _ h₂
  exact live_free h₂ hcopy

theorem live_deinitAll (skills : List L2Skill) {names : List (Option Region)}
    (hnames : some r ∉ names) (h : r ∈ s.2.heap.live) :
    Proc.Ensures (fun s => r ∈ s.2.heap.live) (fun _ => True)
      (deinitAll invalidFree skills names) s := by
  induction skills generalizing names s with
  | nil => exact Proc.ensures_of_final h
  | cons skill skills ih =>
    have hcopy : names.head?.join ≠ some r := by
      intro heq
      obtain hhead := Option.join_eq_some_iff.mp heq
      exact hnames (List.mem_of_head? hhead)
    have htail : some r ∉ names.tail := fun hmem => hnames (List.mem_of_mem_tail hmem)
    apply (live_deinitSkill h skill hcopy).bind
    intro _ s₁ _ h₁
    exact ih htail h₁

/-- A region that is neither a name nor the buffer is never given back. -/
theorem live_deinit (invalidFree : Option Fault) (h : Boxed r s.2) :
    r ∈ ((deinit invalidFree).final s).2.heap.live := by
  have hall : Proc.Ensures (fun s => r ∈ s.2.heap.live) (fun _ => True)
      (deinitAll invalidFree s.1.loader.skills s.2.names) s :=
    live_deinitAll s.1.loader.skills h.names h.live
  unfold deinit Proc.final
  rw [Proc.bind_of_ok (Proc.get_run s)]
  exact (hall.bind fun _ s₁ _ h₁ => live_free h₁ h.buffer).1

end Deinit

/-! Histories of a loader that starts without memory. -/

/-- The loader has no skills, and no memory. -/
structure Empty (s : Owner) : Prop where
  skills : s.1.loader.skills = []
  names : s.2.names = []
  buffer : s.2.buffer = none
  settled : s.2.heap.Settled

/-- Every pointer that the call passes to `free` is a live region, and if `deinit` follows, this
is true of `deinit` too, and no region of the loader is live behind it. -/
def Sound (s : Owner) (call : Call) : Prop :=
  (play s call).2.2.heap.wild = [] ∧ ∀ s', step s call = some s' →
    ∀ invalidFree, ((deinit invalidFree).final s').2.heap.Settled

/-- A load is refused by the signature check, gets no box for an arena, or stops the process. -/
def Spares (s : Owner) : Call → Prop
  | .load env _ _ data => ∀ e : Envelope, e.encode = data.val →
      L2SkillLoader.Passes env s.1 e → env.create = true → env.Traps s.1.globals
  | .unload _ _ => True

section History

variable {env : Env} {moves : Bool} {name : List UInt8} {data : Bytes} {e : Envelope} {s : Owner}
  {call : Call}

theorem settled_deinit (h : Empty s) (invalidFree : Option Fault) :
    ((deinit invalidFree).final s).2.heap.Settled := by
  have hskills := h.skills
  have hbuffer := h.buffer
  unfold deinit Proc.final
  rw [Proc.bind_of_ok (Proc.get_run s), hskills, hbuffer]
  exact h.settled

/-- A call that returns and leaves everything as it was is sound. -/
theorem sound_of_unchanged (h : Empty s) (hplay : play s call = (false, s)) :
    Sound s call ∧ ∀ s', step s call = some s' → Empty s' := by
  unfold Sound step
  rw [hplay]
  constructor
  · refine ⟨h.settled.2, fun s' hs' invalidFree => ?_⟩
    cases hs'
    exact settled_deinit h invalidFree
  · intro s' hs'
    cases hs'
    exact h

/-- A call that stops the process is sound if it has freed nothing. -/
theorem sound_of_stops {s' : Owner} (hplay : play s call = (true, s'))
    (hwild : s'.2.heap.wild = []) :
    Sound s call ∧ ∀ s', step s call = some s' → Empty s' := by
  unfold Sound step
  rw [hplay]
  exact ⟨⟨hwild, nofun⟩, nofun⟩

theorem not_sound_of_boxed {s' : Owner} {r : Region} (hplay : play s call = (false, s'))
    (hbox : Boxed r s'.2) : ¬ Sound s call := by
  intro hsound
  have hstep : step s call = some s' := by
    unfold step
    rw [hplay]
    rfl
  have hlive := live_deinit none hbox
  rw [(hsound.2 s' hstep none).1] at hlive
  exact Multiset.notMem_zero r hlive

theorem stops_load (env : Env) (moves : Bool) (name : List UInt8) (data : Bytes) (s : Owner) :
    (loadFromMemory env moves name data s).1.stops =
      ((L2SkillLoader.loadFromMemory env name data).result s.1).stops := by
  unfold Proc.result
  rw [forgets_loadFromMemory env moves name data s, Outcome.stops_map]

/-- Data without a full header stops the process at once. -/
theorem load_of_lt (hlen : data.val.length < 96) (env : Env) (moves : Bool) (name : List UInt8)
    (s : Owner) :
    ∃ t, loadFromMemory env moves name data s = (.trap t, s) := by
  have hkey : (data.slice 64 96 : Outcome LoadError _) = .trap .outOfBounds :=
    Bytes.slice_of_lt hlen
  unfold loadFromMemory
  by_cases hshort : data.val.length < 64
  · have hsig : (data.slice 0 64 : Outcome LoadError _) = .trap .outOfBounds :=
      Bytes.slice_of_lt hshort
    rw [Proc.real_lift_bind_of_trap hsig]
    exact ⟨_, rfl⟩
  · have hsig : ∃ v, (data.slice 0 64 : Outcome LoadError _) = .ok v := by
      unfold Bytes.slice
      rw [dif_pos (by omega)]
      exact ⟨_, rfl⟩
    obtain ⟨v, hv⟩ := hsig
    rw [Proc.real_lift_bind_of_ok hv, Proc.real_lift_bind_of_trap hkey]
    exact ⟨_, rfl⟩

/-- The calls behind the slices. -/
theorem load_run (he : e.encode = data.val) : loadFromMemory env moves name data s = (do
    Proc.real (L2SkillLoader.checkSignature env e.payload e.signature e.publicKey)
    let skill ← prepare env name e.signature e.publicKey e.payload
    append env moves skill) s := by
  unfold loadFromMemory
  rw [Proc.real_lift_bind_of_ok (slice_signature he),
    Proc.real_lift_bind_of_ok (slice_publicKey he),
    Proc.real_lift_bind_of_ok (sliceFrom_payload he)]

theorem load_of_not_passes (he : e.encode = data.val) (hpass : ¬ L2SkillLoader.Passes env s.1 e) :
    loadFromMemory env moves name data s = (.err .signatureVerificationFailed, s) := by
  rw [load_run he]
  exact Proc.bind_of_err
    (Proc.real_of_eq (L2SkillLoader.checkSignature_of_not_passes hpass)) _

theorem load_of_passes (he : e.encode = data.val) (hpass : L2SkillLoader.Passes env s.1 e) :
    loadFromMemory env moves name data s = (do
      let skill ← prepare env name e.signature e.publicKey e.payload
      append env moves skill) s := by
  rw [load_run he,
    Proc.bind_of_ok (Proc.real_of_eq (L2SkillLoader.checkSignature_of_passes hpass))]

theorem load_of_no_box (he : e.encode = data.val) (hpass : L2SkillLoader.Passes env s.1 e)
    (hcreate : ¬ env.create = true) :
    loadFromMemory env moves name data s = (.err .outOfMemory, s) := by
  have hnew : create env s = (.err .outOfMemory, s) := by
    unfold create
    rw [Proc.bind_of_err (Proc.real_of_eq (L2SkillLoader.create_err hcreate))]
  have hprepare : prepare env name e.signature e.publicKey e.payload s =
      (.err .outOfMemory, s) := Proc.bind_of_err hnew _
  rw [load_of_passes he hpass, Proc.bind_of_err hprepare]

/-- A load that gets a box keeps it. -/
theorem load_boxed (moves : Bool) (name : List UInt8) (h : Empty s) (he : e.encode = data.val)
    (hpass : L2SkillLoader.Passes env s.1 e) (hcreate : env.create = true) :
    Boxed s.2.heap.requests ((loadFromMemory env moves name data).final s).2 ∧
      ((loadFromMemory env moves name data).final s).2.heap.wild = [] := by
  have hprepare := taken_prepare name hcreate h.names h.buffer h.settled.2 e.signature
    e.publicKey e.payload
  have happend := hprepare.bind_of_imp (fun s' h' => ⟨h'.toBoxed, h'.wild⟩)
    fun skill s' hcopy h' => taken_append env moves h' hcopy
  unfold Proc.final
  rw [load_of_passes he hpass]
  exact happend.1

/-- The process stops exactly at a trap behind the signature check. -/
theorem load_stops_iff (moves : Bool) (name : List UInt8) (he : e.encode = data.val)
    (hpass : L2SkillLoader.Passes env s.1 e) :
    (loadFromMemory env moves name data s).1.stops = true ↔ env.Traps s.1.globals := by
  have hcases := L2SkillLoader.install_cases env name e s.1
  have hrun := L2SkillLoader.loadFromMemory_run he env name s.1
  rw [Proc.bind_of_ok (L2SkillLoader.checkSignature_of_passes hpass)] at hrun
  rw [stops_load]
  unfold Proc.result Proc.final at *
  dsimp only at hcases
  rw [← hrun] at hcases
  obtain ⟨htraps, t, hr⟩ | ⟨htraps, _, err, hr, _⟩ | ⟨htraps, _, _, hr, _⟩ := hcases
  · rw [hr]
    exact iff_of_true rfl htraps
  · rw [hr]
    exact iff_of_false Bool.false_ne_true htraps
  · rw [hr]
    exact iff_of_false Bool.false_ne_true htraps

theorem spares_load_iff (he : e.encode = data.val) :
    Spares s (.load env moves name data) ↔
      (L2SkillLoader.Passes env s.1 e → env.create = true → env.Traps s.1.globals) := by
  constructor
  · exact fun hall => hall e he
  · intro hspares e' he'
    obtain rfl := encode_unique he he'
    exact hspares

/-- What a call of a loader without memory comes to. -/
theorem call_sound (h : Empty s) (call : Call) :
    (Spares s call ∧ Sound s call ∧ ∀ s', step s call = some s' → Empty s') ∨
      (¬ Spares s call ∧ ¬ Sound s call) := by
  cases call with
  | unload invalidFree name =>
    have hrun : unload invalidFree name s = (.err .skillNotFound, s) := by
      have hskills := h.skills
      unfold unload
      rw [Proc.bind_of_ok (Proc.get_run s), hskills]
      rfl
    have hplay : play s (.unload invalidFree name) = (false, s) := by
      rw [play_unload, hrun]
      rfl
    exact .inl ⟨trivial, sound_of_unchanged h hplay⟩
  | load env moves name data =>
    by_cases hlen : data.val.length < 96
    · obtain ⟨t, hrun⟩ := load_of_lt hlen env moves name s
      have hplay : play s (.load env moves name data) = (true, s) := by
        rw [play_load, hrun]
        rfl
      refine .inl ⟨fun e he => ?_, sound_of_stops hplay h.settled.2⟩
      have hlength := length_of_encode he
      omega
    obtain ⟨e, he⟩ := exists_envelope (Nat.le_of_not_lt hlen)
    rw [spares_load_iff he]
    by_cases hpass : L2SkillLoader.Passes env s.1 e
    swap
    · have hplay : play s (.load env moves name data) = (false, s) := by
        rw [play_load, load_of_not_passes he hpass]
        rfl
      exact .inl ⟨fun hpass' => absurd hpass' hpass, sound_of_unchanged h hplay⟩
    by_cases hcreate : env.create = true
    swap
    · have hplay : play s (.load env moves name data) = (false, s) := by
        rw [play_load, load_of_no_box he hpass hcreate]
        rfl
      exact .inl ⟨fun _ hcreate' => absurd hcreate' hcreate, sound_of_unchanged h hplay⟩
    obtain ⟨hbox, hwild⟩ := load_boxed moves name h he hpass hcreate
    have hstops := load_stops_iff moves name he hpass
    by_cases htraps : env.Traps s.1.globals
    · have hplay : play s (.load env moves name data) =
          (true, (loadFromMemory env moves name data).final s) :=
        congrArg (·, (loadFromMemory env moves name data).final s) (hstops.mpr htraps)
      exact .inl ⟨fun _ _ => htraps, sound_of_stops hplay hwild⟩
    · have hreturns := eq_false_of_ne_true fun hstop => htraps (hstops.mp hstop)
      have hplay : play s (.load env moves name data) =
          (false, (loadFromMemory env moves name data).final s) :=
        congrArg (·, (loadFromMemory env moves name data).final s) hreturns
      refine .inr ⟨fun hall => htraps (hall hpass hcreate), ?_⟩
      exact not_sound_of_boxed hplay hbox

end History

/-- The memory of the loader is in order over a history of calls exactly when no load gets a box
for an arena and goes on with it. -/
theorem sound_iff_spares (s : Owner) (h : Empty s) (calls : List Call) :
    Run.AllSteps step Sound s calls ↔ Run.AllSteps step Spares s calls := by
  apply Run.allSteps_congr (I := Empty) _ _ h
  · intro s call h
    rcases call_sound h call with ⟨hspares, hsound, _⟩ | ⟨hspares, hsound⟩
    · exact iff_of_true hsound hspares
    · exact iff_of_false hsound hspares
  · intro s call s' h hspares hstep
    rcases call_sound h call with ⟨_, _, hempty⟩ | ⟨hnot, _⟩
    · exact hempty s' hstep
    · exact absurd hspares hnot

theorem empty_freshWorld : Empty (L2SkillLoader.freshWorld, {}) := ⟨rfl, rfl, rfl, rfl, rfl⟩

open L2SkillLoader in
/-- A load for which the heap has no box, and an unload that finds no skill. -/
theorem sound_without_box : Run.AllSteps step Sound (freshWorld, {})
    [.load { obliging fun _ _ _ => .ok true with create := false } true []
      (smallData freshWorld.loader.trustedKey), .unload none []] := by
  apply (sound_iff_spares _ empty_freshWorld _).mpr
  constructor
  · intro e _ _ hcreate
    cases hcreate
  · intro s' _
    exact ⟨trivial, fun _ _ => trivial⟩

open L2SkillLoader in
/-- A load without a failure keeps its box, and the unload behind it passes bytes of the arena to
`free`. -/
theorem box_lost :
    ¬ Run.AllSteps step Sound (freshWorld, {})
      [.load (obliging fun _ _ _ => .ok true) true [] (smallData freshWorld.loader.trustedKey)] ∧
    ∃ s, Run.run step (freshWorld, {})
      [.load (obliging fun _ _ _ => .ok true) true [] (smallData freshWorld.loader.trustedKey),
        .unload none []] = some s ∧ s.2.heap.wild ≠ [] := by
  have he : (smallSkill freshWorld.loader.trustedKey).encode =
      (smallData freshWorld.loader.trustedKey).val := rfl
  constructor
  · intro hall
    rcases call_sound empty_freshWorld (.load (obliging fun _ _ _ => .ok true) true []
      (smallData freshWorld.loader.trustedKey)) with ⟨hspares, _⟩ | ⟨_, hnot⟩
    · have htraps := (spares_load_iff he).mp hspares (.inr ⟨true, rfl⟩) rfl
      have hfd : 0 = 0 ∧ 2 ^ 31 ≤ 3 := htraps.2
      omega
    · exact hnot hall.1
  · refine ⟨_, rfl, ?_⟩
    exact List.cons_ne_nil _ _

end Owner
end LingNet.L2
