import LingNet.Lib.SpinLock
import LingNet.Orchestrator.Vrf

/-! `createVrf` and `destroyVrf` one atomic step at a time. Threads wait for `vrf_lock` and the
rest of the process works on the pools between any two steps; still the calls come to what they
come to one after the other, each in one go. -/
namespace LingNet.Orchestrator
open Zig

/-- The step that a call under the lock takes next. -/
inductive Point where
  /-- `if (self.vrfs.items.len >= 256)` -/
  | limit (env : Env)
  /-- `try self.allocator.create(VrfInstance)` -/
  | allocate (env : Env)
  /-- `self.next_vrf_id.fetchAdd(1, .monotonic)` -/
  | fetchId (env : Env) (box : ℕ)
  /-- The load of the generation in `Arena(.trusted).init`. -/
  | loadGen (env : Env) (box : ℕ) (id : UInt32)
  /-- `g_common_pool.pop()` -/
  | pop (env : Env) (box : ℕ) (id : UInt32) (gen : ℕ)
  /-- `try self.vrfs.append(self.allocator, vrf)` -/
  | append (env : Env) (vrf : VrfInstance)
  /-- `errdefer self.allocator.destroy(vrf)`, and the last line of `destroyVrf` -/
  | release (box : ℕ)
  /-- The loop of `destroyVrf`, with `self.vrfs.orderedRemove(i)`. -/
  | find (vrfId : UInt32)
  /-- `removed.deinit(self.allocator)` -/
  | retire (vrfId : UInt32) (vrf : VrfInstance)

/-- The process, the calls in the order in which they got the lock, and all calls in the order in
which they took effect; no step reads the two lists. -/
structure Shared where
  world : World
  taken : List Call
  calls : List Call

def Shared.take (s : Shared) (call : Call) : Shared := { s with taken := s.taken ++ [call] }

@[simp] theorem Shared.world_take (s : Shared) (call : Call) : (s.take call).world = s.world :=
  rfl

/-- A `createVrf` that fails with the error. -/
def World.refuse (w : World) (e : CreateError) : World := { w with refused := w.refused ++ [e] }

def Shared.refuse (s : Shared) (e : CreateError) : Shared := { s with world := s.world.refuse e }

def Shared.commit (s : Shared) (call : Call) : Shared := { s with calls := s.calls ++ [call] }

/-- What a thread asks for. -/
inductive Request where
  | createVrf (env : Env)
  | destroyVrf (vrfId : UInt32)

def Request.enter : Request → Point
  | .createVrf env => .limit env
  | .destroyVrf vrfId => .find vrfId

/-- A call takes effect where its outcome is settled: at the check, the allocation or the search
that ends it, else at its step on the pools. Its error is recorded at the step that fails. -/
def body (p : Point) (s : Shared) : Option (Shared × Option Point) :=
  match p with
  | .limit env =>
    let s := s.take (.createVrf env)
    if 256 ≤ s.world.vrfs.length then
      some ((s.refuse .vrfLimitReached).commit (.createVrf env), none)
    else some (s, some (.allocate env))
  | .allocate env =>
    match create env s.world with
    | (.ok box, w) => some ({ s with world := w }, some (.fetchId env box))
    | (.err e, _) => some ((s.refuse e).commit (.createVrf env), none)
    | (.trap _, _) => none
  | .fetchId env box =>
    match fetchAdd s.world with
    | (.ok id, w) => some ({ s with world := w }, some (.loadGen env box id))
    | _ => none
  | .loadGen env box id => some (s, some (.pop env box id s.world.globals.currentGeneration))
  | .pop env box id gen =>
    match Gqap.CommonPool.pop s.world.globals with
    | none => some ((s.refuse .poolExhausted).commit (.createVrf env), some (.release box))
    | some (b, globals) =>
      some ({ s with world := { s.world with globals := globals } }.commit (.createVrf env),
        some (.append env (.new box id ⟨.trusted, b, gen, 0⟩)))
  | .append env vrf =>
    match Orchestrator.append env vrf s.world with
    | (.ok _, w) =>
      some ({ s with world := { w with returned := w.returned ++ [(vrf.id, vrf.box)] } }, none)
    | (.err e, _) => some (s.refuse e, some (.release vrf.box))
    | (.trap _, _) => none
  | .release box => some ({ s with world := destroy box s.world }, none)
  | .find vrfId =>
    let s := s.take (.destroyVrf vrfId)
    match s.world.vrfs.find? (·.id = vrfId) with
    | some vrf =>
      some ({ s with world := { s.world with vrfs := s.world.vrfs.eraseP (·.id = vrfId) } },
        some (.retire vrfId vrf))
    | none => some (s.commit (.destroyVrf vrfId), none)
  | .retire vrfId vrf =>
    some ({ s with world := vrf.deinit s.world }.commit (.destroyVrf vrfId),
      some (.release vrf.box))

/-- The rest of the process may do anything to the pools at any time. -/
def program : SpinLock.Program Unit Shared Request Point Gqap.Globals where
  lock _ := ()
  enter := Request.enter
  body := body
  outside globals s := { s with world := { s.world with globals := globals } }.commit
    (.pools globals)

/-! The generation that `createVrf` loads before its pop is kept in the arena, and nothing reads
it there. -/

def VrfInstance.undated (vrf : VrfInstance) : VrfInstance :=
  { vrf with arena := { vrf.arena with generation := 0 } }

def World.undated (w : World) : World := { w with vrfs := w.vrfs.map .undated }

section Undated

variable {w v : World} (h : w.undated = v.undated)

include h

end Undated

/-! What the calls come to in one go, by the step that ends them. -/

section Sequential

variable {v : World} {env : Env}

end Sequential

/-- How the process `w` stands to `v`, in which every call that has taken effect is complete,
while a call is at a point of its body. -/
def Pending (p : Point) (w v : World) : Prop :=
  match p with
  | .limit _ | .find _ => w.undated = v.undated
  | .allocate _ => w.undated = v.undated ∧ v.vrfs.length < 256
  | .fetchId env box => v.vrfs.length < 256 ∧ env.create = true ∧ box = v.nextBox ∧
      w.undated = { v with nextBox := box + 1, boxes := box ::ₘ v.boxes }.undated
  | .loadGen env box id | .pop env box id _ =>
      v.vrfs.length < 256 ∧ env.create = true ∧ box = v.nextBox ∧ id = v.nextVrfId ∧
        w.undated = { v with
          nextBox := box + 1, boxes := box ::ₘ v.boxes, nextVrfId := id + 1 }.undated
  | .append env vrf =>
      if env.append = true then
        ∃ vrfs returned vrf', v.vrfs = vrfs ++ [vrf'] ∧ vrf.undated = vrf'.undated ∧
          v.returned = returned ++ [(vrf.id, vrf.box)] ∧
          w.undated = { v with vrfs := vrfs, returned := returned }.undated
      else ∃ refused, v.refused = refused ++ [.outOfMemory] ∧
        w.undated = { v with boxes := vrf.box ::ₘ v.boxes, refused := refused }.undated
  | .release box => ∃ boxes, v.boxes = boxes.erase box ∧
      w.undated = { v with boxes := boxes }.undated
  | .retire vrfId vrf => ∃ vrf', v.vrfs.find? (·.id = vrfId) = some vrf' ∧
      vrf.undated = vrf'.undated ∧
      w.undated = { v with vrfs := v.vrfs.eraseP (·.id = vrfId) }.undated

/-- The calls that have taken effect, made one after the other, lead to a process that stands to
this one as the relation says. -/
def Replays (w₀ : World) (R : World → World → Prop) (s : Shared) : Prop :=
  ∃ v, Run.run World.step w₀ s.calls = some v ∧ R s.world v

section Replay

variable {w₀ : World} {s s' : Shared} {call : Call} {R R' : World → World → Prop}

theorem Replays.commit (h : Replays w₀ R s) (hcalls : s'.calls = s.calls ++ [call])
    (hstep : ∀ v, R s.world v → ∃ v', v.step call = some v' ∧ R' s'.world v') :
    Replays w₀ R' s' := by
  obtain ⟨v, hrun, hR⟩ := h
  obtain ⟨v', hv, hR'⟩ := hstep v hR
  refine ⟨v', ?_, hR'⟩
  rw [hcalls]
  exact Run.run_snoc_eq_some.mpr ⟨v, hrun, hv⟩

theorem Replays.world (h : Replays w₀ R s) (hcalls : s'.calls = s.calls)
    (hstep : ∀ v, R s.world v → R' s'.world v) : Replays w₀ R' s' := by
  obtain ⟨v, hrun, hR⟩ := h
  rw [← hcalls] at hrun
  exact ⟨v, hrun, hstep v hR⟩

end Replay

/-- The pools may change under both processes alike. -/
theorem Pending.pools {w v : World} {p : Point} (h : Pending p w v) (globals : Gqap.Globals) :
    Pending p { w with globals := globals } { v with globals := globals } := by
  have hset : ∀ {u : World}, w.undated = u.undated →
      { w with globals := globals }.undated = { u with globals := globals }.undated :=
    fun hu => congrArg (fun x : World => { x with globals := globals }) hu
  cases p with
  | limit env | find vrfId => exact hset h
  | allocate env => exact ⟨hset h.1, h.2⟩
  | fetchId env box => exact ⟨h.1, h.2.1, h.2.2.1, hset h.2.2.2⟩
  | loadGen env box id | pop env box id gen =>
    exact ⟨h.1, h.2.1, h.2.2.1, h.2.2.2.1, hset h.2.2.2.2⟩
  | append env vrf =>
    simp only [Pending] at h ⊢
    split_ifs at h ⊢ with happend
    · obtain ⟨vrfs, returned, vrf', hvrfs, hvrf, hreturned, hw⟩ := h
      exact ⟨vrfs, returned, vrf', hvrfs, hvrf, hreturned, hset hw⟩
    · obtain ⟨refused, hrefused, hw⟩ := h
      exact ⟨refused, hrefused, hset hw⟩
  | release box =>
    obtain ⟨boxes, hboxes, hw⟩ := h
    exact ⟨boxes, hboxes, hset hw⟩
  | retire vrfId vrf =>
    obtain ⟨vrf', hfind, hvrf, hw⟩ := h
    exact ⟨vrf', hfind, hvrf, hset hw⟩

/-- The relation once a step of a body is over: at the next point, or at the end. -/
def Stands : Option Point → World → World → Prop
  | none => fun w v => w.undated = v.undated
  | some p => Pending p

section Body

variable {w₀ : World} {s s' : Shared} {next : Option Point}

end Body

def Call.isVrf : Call → Bool
  | .pools _ => false
  | _ => true

/-- The call that has the lock and has not taken effect. -/
def Point.waiting : Point → Option Call
  | .allocate env | .fetchId env _ | .loadGen env _ _ | .pop env _ _ _ => some (.createVrf env)
  | .retire vrfId _ => some (.destroyVrf vrfId)
  | _ => none

/-- All calls that got the lock have taken effect, but for the one that is waiting. -/
def Ordered (waiting : Option Call) (s : Shared) : Prop :=
  s.taken = s.calls.filter Call.isVrf ++ waiting.toList

section Order

variable {s s' : Shared} {call : Call}

theorem Ordered.take (h : Ordered none s) (call : Call) : Ordered (some call) (s.take call) := by
  unfold Ordered at h ⊢
  simp only [Shared.take, h, Option.toList_none, Option.toList_some, List.append_nil]

theorem Ordered.commit (h : Ordered (some call) s) (hcall : call.isVrf = true) (w : World) :
    Ordered none ({ s with world := w }.commit call) := by
  unfold Ordered at h ⊢
  simp [Shared.commit, h, List.filter_append, hcall]

theorem Ordered.world {waiting : Option Call} (h : Ordered waiting s) (w : World) :
    Ordered waiting { s with world := w } := h

theorem Ordered.pools {waiting : Option Call} (h : Ordered waiting s) (w : World)
    (globals : Gqap.Globals) :
    Ordered waiting ({ s with world := w }.commit (.pools globals)) := by
  unfold Ordered at h ⊢
  simp [Shared.commit, h, List.filter_append, Call.isVrf]

theorem ordered_body {p : Point} {next : Option Point} (h : Ordered p.waiting s)
    (hbody : body p s = some (s', next)) : Ordered (next.bind Point.waiting) s' := by
  cases p with
  | limit env =>
    have htake := h.take (.createVrf env)
    unfold body at hbody
    simp only at hbody
    split_ifs at hbody with hfull
    · cases hbody
      exact htake.commit rfl _
    · cases hbody
      exact htake
  | allocate env =>
    unfold body at hbody
    by_cases hcreate : env.create = true
    · simp only [create_of_create hcreate] at hbody
      cases hbody
      exact h.world _
    · simp only [create_of_not_create hcreate] at hbody
      cases hbody
      exact h.commit rfl _
  | fetchId env box =>
    unfold body at hbody
    simp only [fetchAdd_run] at hbody
    cases hbody
    exact h.world _
  | loadGen env box id =>
    cases hbody
    exact h
  | pop env box id gen =>
    unfold body at hbody
    cases hpop : Gqap.CommonPool.pop s.world.globals with
    | none | some r =>
      simp only [hpop] at hbody
      cases hbody
      exact h.commit rfl _
  | append env vrf =>
    unfold body at hbody
    by_cases happend : env.append = true
    · simp only [append_of_append happend] at hbody
      cases hbody
      exact h.world _
    · simp only [append_of_not_append happend] at hbody
      cases hbody
      exact h
  | release box =>
    cases hbody
    exact h.world _
  | find vrfId =>
    have htake := h.take (.destroyVrf vrfId)
    unfold body at hbody
    cases hfind : s.world.vrfs.find? (·.id = vrfId) with
    | none =>
      simp only [Shared.world_take, hfind] at hbody
      cases hbody
      exact htake.commit rfl _
    | some vrf =>
      simp only [Shared.world_take, hfind] at hbody
      cases hbody
      exact htake.world _
  | retire vrfId vrf =>
    cases hbody
    exact h.commit rfl _

end Order

def order : SpinLock.Outline program where
  free _ := Ordered none
  inside _ p := Ordered p.waiting
  enter request _ h := by
    cases request <;> exact h
  go _ _ _ _ _ h hbody := ordered_body h hbody
  finish _ _ _ _ h hbody := ordered_body h hbody
  free_body _ _ _ _ _ hne := absurd rfl hne
  inside_body _ _ _ _ _ _ hne := absurd rfl hne
  free_outside _ globals _ h := h.pools _ globals
  inside_outside _ _ globals _ h := h.pools _ globals

end LingNet.Orchestrator
