import Mathlib.Data.Multiset.AddSub
import LingNet.Gqap.Arena
import LingNet.Lib.Run
import LingNet.Zig.Heap

/-! The VRFs of the orchestrator. Both calls hold the lock of the list from end to end, so that
calls of any threads come one after the other. -/
namespace LingNet.Orchestrator
open Zig

inductive CreateError where
  | vrfLimitReached
  | outOfMemory
  | poolExhausted
  deriving DecidableEq, Repr

def CreateError.ofArena : Gqap.ArenaError → CreateError
  | .poolExhausted => .poolExhausted
  | .outOfMemory => .outOfMemory

/-- A VRF, in the heap object `box`. -/
structure VrfInstance where
  box : ℕ
  id : UInt32
  arena : Gqap.Arena
  skillCount : UInt64
  isActive : Bool
  genSequence : UInt64
  deriving DecidableEq

def VrfInstance.new (box : ℕ) (id : UInt32) (arena : Gqap.Arena) : VrfInstance where
  box := box
  id := id
  arena := arena
  skillCount := 0
  isActive := true
  genSequence := 1

/-- The process around an orchestrator: the pools and the heap objects that are live, of which no
two ever have one name. `returned` records the id and the object of every VRF that `createVrf` has
returned, and `refused` the errors of the calls that failed; no call depends on them. -/
structure World where
  globals : Gqap.Globals
  nextBox : ℕ
  boxes : Multiset ℕ
  vrfs : List VrfInstance
  nextVrfId : UInt32
  returned : List (UInt32 × ℕ)
  refused : List CreateError

/-- `Orchestrator.init` in a process with these pools. -/
def World.init (globals : Gqap.Globals) : World where
  globals := globals
  nextBox := 0
  boxes := 0
  vrfs := []
  nextVrfId := 1
  returned := []
  refused := []

/-- Whether the allocator delivers the object and room in the list. -/
structure Env where
  create : Bool
  append : Bool

/-- `self.allocator.create(VrfInstance)` -/
def create (env : Env) : Proc World CreateError ℕ := fun w =>
  if env.create then
    (.ok w.nextBox, { w with nextBox := w.nextBox + 1, boxes := w.nextBox ::ₘ w.boxes })
  else (.err .outOfMemory, w)

/-- `self.allocator.destroy(vrf)` -/
def destroy (box : ℕ) (w : World) : World := { w with boxes := w.boxes.erase box }

/-- `self.next_vrf_id.fetchAdd(1, .monotonic)`, which wraps. -/
def fetchAdd : Proc World CreateError UInt32 := fun w =>
  (.ok w.nextVrfId, { w with nextVrfId := w.nextVrfId + 1 })

/-- `try gqap.Arena(.trusted).init()` -/
def initArena : Proc World CreateError Gqap.Arena := fun w =>
  match Gqap.Arena.init .trusted w.globals with
  | .ok (arena, globals) => (.ok arena, { w with globals := globals })
  | .err e => (.err (.ofArena e), w)
  | .trap t => (.trap t, w)

/-- `try self.vrfs.append(self.allocator, vrf)` -/
def append (env : Env) (vrf : VrfInstance) : Proc World CreateError Unit := fun w =>
  if env.append then (.ok (), { w with vrfs := w.vrfs ++ [vrf] }) else (.err .outOfMemory, w)

/-- The arena has no `errdefer`: it keeps its block when there is no room in the list. -/
def createVrf (env : Env) : Proc World CreateError VrfInstance := do
  let w ← Proc.get
  if 256 ≤ w.vrfs.length then Proc.fail .vrfLimitReached
  else
    let box ← create env
    Proc.errdefer (destroy box) do
      let id ← fetchAdd
      let arena ← initArena
      let vrf := VrfInstance.new box id arena
      append env vrf
      pure vrf

/-- The flag that it clears is in the object, which is freed next. -/
def VrfInstance.deinit (vrf : VrfInstance) (w : World) : World :=
  { w with globals := vrf.arena.deinit w.globals }

/-- The loop stops at the first VRF of the id. -/
def destroyVrf (vrfId : UInt32) (w : World) : World :=
  match w.vrfs.find? (·.id = vrfId) with
  | some vrf =>
    destroy vrf.box (vrf.deinit { w with vrfs := w.vrfs.eraseP (·.id = vrfId) })
  | none => w

/-- A call on the orchestrator, or a use of the pools by the rest of the process. -/
inductive Call where
  | createVrf (env : Env)
  | destroyVrf (vrfId : UInt32)
  | pools (globals : Gqap.Globals)

def World.step (w : World) : Call → Option World
  | .createVrf env =>
    match createVrf env w with
    | (.ok vrf, w) => some { w with returned := w.returned ++ [(vrf.id, vrf.box)] }
    | (.err e, w) => some { w with refused := w.refused ++ [e] }
    | (.trap _, _) => none
  | .destroyVrf vrfId => some (destroyVrf vrfId w)
  | .pools globals => some { w with globals := globals }

/-- The calls of `createVrf` that return a VRF. -/
def Admits (env : Env) (w : World) : Prop :=
  w.vrfs.length < 256 ∧ env.create = true ∧ env.append = true ∧
    (Gqap.CommonPool.pop w.globals).isSome = true

instance (env : Env) (w : World) : Decidable (Admits env w) :=
  inferInstanceAs (Decidable (_ ∧ _ ∧ _ ∧ _))

/-- Live VRFs have different ids. -/
def World.Distinct (w : World) : Prop := (w.vrfs.map (·.id)).Nodup

/-- What is left without the VRFs that `createVrf` has returned under the id. -/
def World.without (w : World) (vrfId : UInt32) : List VrfInstance :=
  w.vrfs.filter fun vrf => (vrfId, vrf.box) ∉ w.returned

/-- The call leaves at most 256 VRFs, of different ids, and it removes what it is told to. -/
def Identified (w : World) (call : Call) : Prop :=
  ∀ w', w.step call = some w' → w'.Distinct ∧ w'.vrfs.length ≤ 256 ∧
    ∀ vrfId, call = .destroyVrf vrfId → w'.vrfs = w.without vrfId

/-- A call that returns a VRF finds the counter at an id that no live VRF has. -/
def Fresh (w : World) : Call → Prop
  | .createVrf env => Admits env w → ∀ vrf ∈ w.vrfs, vrf.id ≠ w.nextVrfId
  | _ => True

/-- Between calls: there is room for the VRFs in the list, and each of them was returned, with
its id and an object that no other has had. -/
structure Booked (w : World) : Prop where
  distinct : w.Distinct
  length_le : w.vrfs.length ≤ 256
  returned : ∀ vrf ∈ w.vrfs, (vrf.id, vrf.box) ∈ w.returned
  boxes : (w.returned.map Prod.snd).Nodup
  box_lt : ∀ entry ∈ w.returned, entry.2 < w.nextBox

section Calls

variable {w w' : World} {env : Env}

/-! What each step of `createVrf` does. -/

theorem create_of_create (h : env.create = true) (w : World) : create env w =
    (.ok w.nextBox, { w with nextBox := w.nextBox + 1, boxes := w.nextBox ::ₘ w.boxes }) := by
  unfold create
  rw [if_pos h]

theorem create_of_not_create (h : ¬ env.create = true) (w : World) :
    create env w = (.err .outOfMemory, w) := by
  unfold create
  rw [if_neg h]

theorem fetchAdd_run (w : World) :
    fetchAdd w = (.ok w.nextVrfId, { w with nextVrfId := w.nextVrfId + 1 }) := rfl

theorem initArena_of_some {b : Gqap.BlockId} {globals : Gqap.Globals}
    (h : Gqap.CommonPool.pop w.globals = some (b, globals)) :
    initArena w = (.ok ⟨.trusted, b, w.globals.currentGeneration, 0⟩,
      { w with globals := globals }) := by
  unfold initArena Gqap.Arena.init
  simp only [h]

theorem initArena_of_none (h : Gqap.CommonPool.pop w.globals = none) :
    initArena w = (.err .poolExhausted, w) := by
  unfold initArena Gqap.Arena.init
  simp only [h]
  rfl

theorem append_of_append (h : env.append = true) (vrf : VrfInstance) (w : World) :
    append env vrf w = (.ok (), { w with vrfs := w.vrfs ++ [vrf] }) := by
  unfold append
  rw [if_pos h]

theorem append_of_not_append (h : ¬ env.append = true) (vrf : VrfInstance) (w : World) :
    append env vrf w = (.err .outOfMemory, w) := by
  unfold append
  rw [if_neg h]

/-! What a call comes to, by the step that fails. -/

theorem createVrf_of_full (hroom : 256 ≤ w.vrfs.length) :
    createVrf env w = (.err .vrfLimitReached, w) := by
  unfold createVrf
  rw [Proc.bind_of_ok (Proc.get_run w), if_pos hroom]
  rfl

theorem createVrf_of_not_create (hroom : w.vrfs.length < 256) (hcreate : ¬ env.create = true) :
    createVrf env w = (.err .outOfMemory, w) := by
  unfold createVrf
  rw [Proc.bind_of_ok (Proc.get_run w), if_neg (Nat.not_le.mpr hroom),
    Proc.bind_of_err (create_of_not_create hcreate w)]

/-- The object goes back by the `errdefer`, the id is used up. -/
theorem createVrf_of_none (hroom : w.vrfs.length < 256) (hcreate : env.create = true)
    (hpool : Gqap.CommonPool.pop w.globals = none) : createVrf env w = (.err .poolExhausted,
      { w with nextBox := w.nextBox + 1, nextVrfId := w.nextVrfId + 1 }) := by
  unfold createVrf
  rw [Proc.bind_of_ok (Proc.get_run w), if_neg (Nat.not_le.mpr hroom),
    Proc.bind_of_ok (create_of_create hcreate w), Proc.errdefer_of_err (by
      rw [Proc.bind_of_ok (fetchAdd_run _),
        Proc.bind_of_err (initArena_of_none (by exact hpool))])]
  unfold destroy
  rw [Multiset.erase_cons_head]

/-- The block of the arena does not go back. -/
theorem createVrf_of_not_append {b : Gqap.BlockId} {globals : Gqap.Globals}
    (hroom : w.vrfs.length < 256) (hcreate : env.create = true)
    (hpool : Gqap.CommonPool.pop w.globals = some (b, globals)) (happend : ¬ env.append = true) :
    createVrf env w = (.err .outOfMemory, { w with
      globals := globals, nextBox := w.nextBox + 1, nextVrfId := w.nextVrfId + 1 }) := by
  unfold createVrf
  rw [Proc.bind_of_ok (Proc.get_run w), if_neg (Nat.not_le.mpr hroom),
    Proc.bind_of_ok (create_of_create hcreate w), Proc.errdefer_of_err (by
      rw [Proc.bind_of_ok (fetchAdd_run _), Proc.bind_of_ok (initArena_of_some (by exact hpool)),
        Proc.bind_of_err (append_of_not_append happend _ _)])]
  unfold destroy
  rw [Multiset.erase_cons_head]

/-- What a call that returns a VRF does. -/
theorem createVrf_of_admits (h : Admits env w) :
    ∃ arena globals, createVrf env w = (.ok (.new w.nextBox w.nextVrfId arena),
      { w with
        globals := globals
        nextBox := w.nextBox + 1
        boxes := w.nextBox ::ₘ w.boxes
        vrfs := w.vrfs ++ [.new w.nextBox w.nextVrfId arena]
        nextVrfId := w.nextVrfId + 1 }) := by
  obtain ⟨hroom, hcreate, happend, hpool⟩ := h
  obtain ⟨⟨b, globals⟩, hpop⟩ := Option.isSome_iff_exists.mp hpool
  refine ⟨⟨.trusted, b, w.globals.currentGeneration, 0⟩, globals, ?_⟩
  unfold createVrf
  rw [Proc.bind_of_ok (Proc.get_run w), if_neg (Nat.not_le.mpr hroom),
    Proc.bind_of_ok (create_of_create hcreate w)]
  apply Proc.errdefer_of_ok
  rw [Proc.bind_of_ok (fetchAdd_run _), Proc.bind_of_ok (initArena_of_some (by exact hpop)),
    Proc.bind_of_ok (append_of_append happend _ _)]
  rfl

/-- A call that fails may use a name and an id up, or a block. -/
theorem createVrf_of_not_admits (h : ¬ Admits env w) :
    ∃ e globals nextBox nextVrfId, w.nextBox ≤ nextBox ∧ createVrf env w = (.err e,
      { w with globals := globals, nextBox := nextBox, nextVrfId := nextVrfId }) := by
  by_cases hroom : 256 ≤ w.vrfs.length
  · exact ⟨_, w.globals, w.nextBox, w.nextVrfId, Nat.le_refl _, createVrf_of_full hroom⟩
  have hlt : w.vrfs.length < 256 := Nat.lt_of_not_le hroom
  by_cases hcreate : env.create = true
  swap
  · exact ⟨_, w.globals, w.nextBox, w.nextVrfId, Nat.le_refl _,
      createVrf_of_not_create hlt hcreate⟩
  rcases hpop : Gqap.CommonPool.pop w.globals with _ | ⟨b, globals⟩
  · exact ⟨_, w.globals, _, _, Nat.le_succ _, createVrf_of_none hlt hcreate hpop⟩
  · have happend : ¬ env.append = true := fun happend =>
      h ⟨hlt, hcreate, happend, by rw [hpop]; rfl⟩
    exact ⟨_, globals, _, _, Nat.le_succ _, createVrf_of_not_append hlt hcreate hpop happend⟩

theorem step_createVrf_of_admits (h : Admits env w) :
    ∃ arena globals boxes, w.step (.createVrf env) = some { w with
      globals := globals
      nextBox := w.nextBox + 1
      boxes := boxes
      vrfs := w.vrfs ++ [VrfInstance.new w.nextBox w.nextVrfId arena]
      nextVrfId := w.nextVrfId + 1
      returned := w.returned ++ [(w.nextVrfId, w.nextBox)] } := by
  obtain ⟨arena, globals, hcreate⟩ := createVrf_of_admits h
  refine ⟨arena, globals, w.nextBox ::ₘ w.boxes, ?_⟩
  unfold World.step
  simp only [hcreate]
  rfl

theorem step_createVrf_of_not_admits (h : ¬ Admits env w) :
    ∃ globals nextBox nextVrfId refused, w.nextBox ≤ nextBox ∧ w.step (.createVrf env) = some
      { w with
        globals := globals
        nextBox := nextBox
        nextVrfId := nextVrfId
        refused := refused } := by
  obtain ⟨e, globals, nextBox, nextVrfId, hle, hcreate⟩ := createVrf_of_not_admits h
  refine ⟨globals, nextBox, nextVrfId, w.refused ++ [e], hle, ?_⟩
  unfold World.step
  simp only [hcreate]

theorem destroyVrf_eq (vrfId : UInt32) (w : World) :
    ∃ globals boxes, destroyVrf vrfId w =
      { w with globals := globals, boxes := boxes, vrfs := w.vrfs.eraseP (·.id = vrfId) } := by
  unfold destroyVrf
  split
  next vrf hfind => exact ⟨vrf.arena.deinit w.globals, w.boxes.erase vrf.box, rfl⟩
  next hfind =>
    refine ⟨w.globals, w.boxes, ?_⟩
    rw [List.eraseP_of_forall_not]
    simpa using hfind

end Calls

section Booked

variable {w : World} {env : Env} {vrfId : UInt32}

/-- Where all keys differ, the first match is the only one. -/
theorem eraseP_eq_filter {α κ : Type*} [DecidableEq κ] {f : α → κ} {l : List α}
    (h : (l.map f).Nodup) (k : κ) : l.eraseP (f · = k) = l.filter (f · ≠ k) := by
  induction l with
  | nil => rfl
  | cons a l ih =>
    obtain ⟨hnotin, hl⟩ := List.nodup_cons.mp h
    by_cases hk : f a = k
    · rw [List.eraseP_cons_of_pos (by simpa using hk), List.filter_cons_of_neg (by simpa using hk),
        List.filter_eq_self.mpr]
      intro b hb
      have hne : f b ≠ f a := fun heq => hnotin (heq ▸ List.mem_map_of_mem hb)
      simpa [← hk] using hne
    · rw [List.eraseP_cons_of_neg (by simpa using hk), List.filter_cons_of_pos (by simpa using hk),
        ih hl]

/-- A VRF was returned under its own id only. -/
theorem Booked.returned_iff (h : Booked w) {vrf : VrfInstance} (hmem : vrf ∈ w.vrfs) :
    (vrfId, vrf.box) ∈ w.returned ↔ vrf.id = vrfId := by
  constructor
  · intro hret
    have heq := List.inj_on_of_nodup_map h.boxes (h.returned vrf hmem) hret rfl
    exact congrArg Prod.fst heq
  · intro hid
    rw [← hid]
    exact h.returned vrf hmem

theorem Booked.eraseP_eq_without (h : Booked w) :
    w.vrfs.eraseP (·.id = vrfId) = w.without vrfId := by
  rw [eraseP_eq_filter h.distinct]
  unfold World.without
  apply List.filter_congr
  intro vrf hmem
  simp only [ne_eq, h.returned_iff hmem]

theorem Booked.box_notin (h : Booked w) : w.nextBox ∉ w.returned.map Prod.snd := by
  intro hmem
  obtain ⟨entry, hentry, hbox⟩ := List.mem_map.mp hmem
  have hlt := h.box_lt entry hentry
  omega

theorem Booked.sublist (h : Booked w) {globals : Gqap.Globals} {boxes : Multiset ℕ}
    {vrfs : List VrfInstance} {nextBox : ℕ} {nextVrfId : UInt32} {refused : List CreateError}
    (hsub : vrfs.Sublist w.vrfs)
    (hle : w.nextBox ≤ nextBox) :
    Booked { w with
      globals := globals
      nextBox := nextBox
      boxes := boxes
      vrfs := vrfs
      nextVrfId := nextVrfId
      refused := refused } where
  distinct := h.distinct.sublist (hsub.map _)
  length_le := hsub.length_le.trans h.length_le
  returned vrf hmem := h.returned vrf (hsub.subset hmem)
  boxes := h.boxes
  box_lt entry hentry := lt_of_lt_of_le (h.box_lt entry hentry) hle

theorem Booked.append (h : Booked w) {arena : Gqap.Arena} {globals : Gqap.Globals}
    {boxes : Multiset ℕ} {nextVrfId : UInt32} (hroom : w.vrfs.length < 256)
    (hdistinct : ((w.vrfs ++ [VrfInstance.new w.nextBox w.nextVrfId arena]).map (·.id)).Nodup) :
    Booked { w with
      globals := globals
      nextBox := w.nextBox + 1
      boxes := boxes
      vrfs := w.vrfs ++ [VrfInstance.new w.nextBox w.nextVrfId arena]
      nextVrfId := nextVrfId
      returned := w.returned ++ [(w.nextVrfId, w.nextBox)] } where
  distinct := hdistinct
  length_le := by
    rw [List.length_append]
    exact hroom
  returned vrf hmem := by
    rcases List.mem_append.mp hmem with hmem | hmem
    · exact List.mem_append_left _ (h.returned vrf hmem)
    · rw [List.mem_singleton.mp hmem]
      exact List.mem_append_right _ (List.mem_singleton_self _)
  boxes := by
    rw [List.map_append]
    exact List.nodup_append_comm.mp (List.nodup_cons.mpr ⟨h.box_notin, h.boxes⟩)
  box_lt entry hentry := by
    rcases List.mem_append.mp hentry with hentry | hentry
    · exact Nat.lt_succ_of_lt (h.box_lt entry hentry)
    · rw [List.mem_singleton.mp hentry]
      exact Nat.lt_succ_self _

theorem distinct_append_iff (h : Booked w) (arena : Gqap.Arena) :
    ((w.vrfs ++ [VrfInstance.new w.nextBox w.nextVrfId arena]).map (·.id)).Nodup ↔
      ∀ vrf ∈ w.vrfs, vrf.id ≠ w.nextVrfId := by
  have hnotin : w.nextVrfId ∉ w.vrfs.map (·.id) ↔ ∀ vrf ∈ w.vrfs, vrf.id ≠ w.nextVrfId := by
    simp
  rw [List.map_append, ← hnotin]
  constructor
  · intro hnodup
    exact (List.nodup_cons.mp (List.nodup_append_comm.mp hnodup)).1
  · intro hfresh
    exact List.nodup_append_comm.mp (List.nodup_cons.mpr ⟨hfresh, h.distinct⟩)

theorem step_destroyVrf (h : Booked w) (vrfId : UInt32) :
    ∃ globals boxes, w.step (.destroyVrf vrfId) = some
      { w with globals := globals, boxes := boxes, vrfs := w.without vrfId } := by
  obtain ⟨globals, boxes, hdestroy⟩ := destroyVrf_eq vrfId w
  refine ⟨globals, boxes, ?_⟩
  rw [← h.eraseP_eq_without, ← hdestroy]
  rfl

theorem booked_step {call : Call} {w' : World} (h : Booked w) (hfresh : Fresh w call)
    (hstep : w.step call = some w') : Booked w' := by
  cases call with
  | createVrf env =>
    by_cases hadmits : Admits env w
    · obtain ⟨arena, globals, boxes, hcreate⟩ := step_createVrf_of_admits hadmits
      rw [hcreate] at hstep
      cases hstep
      exact h.append hadmits.1 ((distinct_append_iff h arena).mpr (hfresh hadmits))
    · obtain ⟨globals, nextBox, nextVrfId, refused, hle, hcreate⟩ :=
        step_createVrf_of_not_admits hadmits
      rw [hcreate] at hstep
      cases hstep
      exact h.sublist (List.Sublist.refl _) hle
  | destroyVrf vrfId =>
    obtain ⟨globals, boxes, hdestroy⟩ := step_destroyVrf h vrfId
    rw [hdestroy] at hstep
    cases hstep
    exact h.sublist List.filter_sublist (Nat.le_refl _)
  | pools globals =>
    cases hstep
    exact h.sublist (List.Sublist.refl _) (Nat.le_refl _)

/-- A call keeps the VRFs apart exactly when the id that it gives away is fresh. -/
theorem identified_iff {call : Call} (h : Booked w) : Identified w call ↔ Fresh w call := by
  constructor
  · intro hident
    cases call with
    | createVrf env =>
      intro hadmits
      obtain ⟨arena, globals, boxes, hcreate⟩ := step_createVrf_of_admits hadmits
      exact (distinct_append_iff h arena).mp (hident _ hcreate).1
    | destroyVrf vrfId => trivial
    | pools globals => trivial
  · intro hfresh w' hstep
    have hbooked := booked_step h hfresh hstep
    refine ⟨hbooked.distinct, hbooked.length_le, ?_⟩
    rintro vrfId rfl
    obtain ⟨globals, boxes, hdestroy⟩ := step_destroyVrf h vrfId
    rw [hdestroy] at hstep
    cases hstep
    rfl

theorem booked_init (globals : Gqap.Globals) : Booked (.init globals) where
  distinct := List.nodup_nil
  length_le := Nat.zero_le _
  returned _ hmem := absurd hmem List.not_mem_nil
  boxes := List.nodup_nil
  box_lt _ hentry := absurd hentry List.not_mem_nil

end Booked

open Run

/-- Over any history of calls, VRFs are told apart by their ids, and `destroyVrf` removes the one
it is given the id of, exactly if the counter never comes round to the id of a live VRF. -/
theorem identified_iff_fresh (globals : Gqap.Globals) (calls : List Call) :
    AllSteps World.step Identified (.init globals) calls ↔
      AllSteps World.step Fresh (.init globals) calls := by
  apply allSteps_congr (I := Booked) _ _ (booked_init globals)
  · intro w call h
    exact identified_iff h
  · intro w call w' h hfresh hstep
    exact booked_step h hfresh hstep

/-! A VRF that outlives `2 ^ 32` ids. -/

def delivering : Env := ⟨true, true⟩

theorem step_exhausted {w : World} (hroom : w.vrfs.length < 256)
    (hpool : Gqap.CommonPool.pop w.globals = none) :
    w.step (.createVrf delivering) = some { w with
      nextBox := w.nextBox + 1
      nextVrfId := w.nextVrfId + 1
      refused := w.refused ++ [.poolExhausted] } := by
  have hcreate : createVrf delivering w = _ := createVrf_of_none hroom rfl hpool
  unfold World.step
  simp only [hcreate]

/-- While the pool is empty, calls fail and use up one id each. -/
theorem run_exhausted (n : ℕ) (w : World) (hroom : w.vrfs.length < 256)
    (hpool : Gqap.CommonPool.pop w.globals = none) :
    run World.step w (List.replicate n (.createVrf delivering)) = some { w with
      nextBox := w.nextBox + n
      nextVrfId := w.nextVrfId + UInt32.ofNat n
      refused := w.refused ++ List.replicate n .poolExhausted } := by
  induction n generalizing w with
  | zero => simp [run]
  | succ n ih =>
    rw [List.replicate_succ, run_cons_of_step (step_exhausted hroom hpool),
      ih _ (by exact hroom) (by exact hpool)]
    have hbox : w.nextBox + 1 + n = w.nextBox + (n + 1) := by omega
    have hid : w.nextVrfId + 1 + UInt32.ofNat n = w.nextVrfId + UInt32.ofNat (n + 1) := by
      rw [Nat.add_comm n 1, UInt32.ofNat_add, ← UInt32.add_assoc]
      rfl
    have hrefused : w.refused ++ [.poolExhausted] ++ List.replicate n .poolExhausted =
        w.refused ++ List.replicate (n + 1) .poolExhausted := by
      rw [List.append_assoc, List.singleton_append, List.replicate_succ]
    simp only [hbox, hid, hrefused]

/-- Two VRFs take the two blocks of the pool, and then calls fail. When the second VRF makes room,
the next call gives away the id that the counter has come to. -/
theorem not_identified_of_wrap {n : ℕ} (hn : 3 + UInt32.ofNat n = 1) :
    ¬ AllSteps World.step Identified (.init (Gqap.initialGlobals 0 2 4096))
      ([.createVrf delivering, .createVrf delivering] ++
        (List.replicate n (.createVrf delivering) ++
          [.destroyVrf 2, .createVrf delivering])) := by
  intro hall
  obtain ⟨w, hw⟩ : ∃ w, run World.step (.init (Gqap.initialGlobals 0 2 4096))
      [.createVrf delivering, .createVrf delivering] = some w := ⟨_, rfl⟩
  have hroom : w.vrfs.length < 256 := by
    cases hw
    decide
  have hpool : Gqap.CommonPool.pop w.globals = none := by
    cases hw
    rfl
  have hsplit : ∀ l : List Call, l ++ [.destroyVrf 2, .createVrf delivering] =
      l ++ [.destroyVrf 2] ++ .createVrf delivering :: [] := fun l => by simp
  rw [hsplit, ← List.append_assoc] at hall
  have hrun := (run_append_of_run hw _).trans
    (run_append_of_run (run_exhausted n w hroom hpool) [.destroyVrf 2])
  cases hw
  have hident := allSteps_iff.mp hall _ _ _ _ rfl (hrun.trans rfl)
  have hids := (hident _ rfl).1
  change [1, 3 + UInt32.ofNat n].Nodup at hids
  rw [hn] at hids
  exact absurd hids (by decide)

theorem id_reused : ¬ AllSteps World.step Identified (.init (Gqap.initialGlobals 0 2 4096))
    ([.createVrf delivering, .createVrf delivering] ++
      (List.replicate (2 ^ 32 - 2) (.createVrf delivering) ++
        [.destroyVrf 2, .createVrf delivering])) :=
  not_identified_of_wrap (by decide)

/-! A call that fails. -/

/-- A call of `createVrf` that fails leaves the VRFs, the pools and the heap as they were. -/
def FailsCleanly (env : Env) (w : World) : Prop :=
  ∀ e w', createVrf env w = (.err e, w') →
    w'.vrfs = w.vrfs ∧ w'.globals = w.globals ∧ w'.boxes = w.boxes

/-- The arena has its block when the allocator refuses room in the list. -/
def StrandsBlock (env : Env) (w : World) : Prop :=
  w.vrfs.length < 256 ∧ env.create = true ∧ env.append = false ∧
    (Gqap.CommonPool.pop w.globals).isSome = true

/-- A pop is seen in the pool's count. -/
theorem globals_ne_of_pop {s s' : Gqap.Globals} {b : Gqap.BlockId}
    (h : Gqap.CommonPool.pop s = some (b, s')) : s' ≠ s := by
  have hcount : (s'.pool .common).count = wrappingSub (s.pool .common).count 1 := by
    unfold Gqap.CommonPool.pop Gqap.Globals.popHead at h
    split at h
    · cases h
    · split at h
      · cases h
      · cases h
        simp [Gqap.Globals.unlink]
  have hne := wrappingSub_one_ne (s.pool .common).count
  intro heq
  rw [heq] at hcount
  exact hne hcount.symm

/-- The acquisitions of a call come in turn, and every one but the block is undone. -/
theorem failsCleanly_iff (env : Env) (w : World) :
    FailsCleanly env w ↔ ¬ StrandsBlock env w := by
  constructor
  · rintro hclean ⟨hroom, hcreate, happend, hpool⟩
    obtain ⟨⟨b, globals⟩, hpop⟩ := Option.isSome_iff_exists.mp hpool
    have hfail := createVrf_of_not_append hroom hcreate hpop (by simp [happend])
    have hglobals : globals = w.globals := (hclean _ _ hfail).2.1
    exact globals_ne_of_pop hpop hglobals
  · intro hstrand e w' hfail
    by_cases hroom : 256 ≤ w.vrfs.length
    · rw [createVrf_of_full hroom] at hfail
      cases hfail
      exact ⟨rfl, rfl, rfl⟩
    have hlt : w.vrfs.length < 256 := Nat.lt_of_not_le hroom
    by_cases hcreate : env.create = true
    swap
    · rw [createVrf_of_not_create hlt hcreate] at hfail
      cases hfail
      exact ⟨rfl, rfl, rfl⟩
    rcases hpop : Gqap.CommonPool.pop w.globals with _ | ⟨b, globals⟩
    · rw [createVrf_of_none hlt hcreate hpop] at hfail
      cases hfail
      exact ⟨rfl, rfl, rfl⟩
    have hpool : (Gqap.CommonPool.pop w.globals).isSome = true := by rw [hpop]; rfl
    have happend : env.append = true := by
      by_contra hno
      exact hstrand ⟨hlt, hcreate, by simpa using hno, hpool⟩
    obtain ⟨arena, globals, hok⟩ := createVrf_of_admits ⟨hlt, hcreate, happend, hpool⟩
    rw [hok] at hfail
    cases hfail

/-- The only block of the pool is gone after a call that has returned nothing. -/
theorem block_stranded :
    ¬ FailsCleanly ⟨true, false⟩ (.init (Gqap.initialGlobals 0 1 4096)) := by
  intro hclean
  obtain ⟨-, hglobals, -⟩ := hclean _ _ rfl
  have hhead := congrArg (fun s : Gqap.Globals => (s.pool .common).head) hglobals
  cases hhead

end LingNet.Orchestrator
