import LingNet.Lib.Custody
import LingNet.Skill.Loader
import LingNet.Zig.Ghost

/-! The handles, heap objects and blocks of the loader: when they are those of the listed
skills, over a history of calls. -/
namespace LingNet.Skill
open Zig

/-- The open handles, the live heap objects and the held blocks are those that the skills refer
to, and no handle was closed twice. -/
structure Refers (skills : List SkillMeta) (ledger : Ledger) : Prop where
  closedTwice : ledger.closedTwice = []
  handles : ledger.handles = ↑(skills.filterMap (·.soHandle))
  boxes : ledger.boxes = ↑(skills.filterMap (·.arena.map (·.id)))
  blocks : ledger.blocks = ↑(skills.filterMap (·.arena.map (·.arena.block)))

/-- The ledger between two calls. -/
def InOrder (w : World) : Prop := Refers w.skills w.ledger

section List

variable {skills skills' : List SkillMeta} {skill : SkillMeta} {ledger : Ledger}

theorem Refers.perm (h : Refers skills ledger) (hperm : skills.Perm skills') :
    Refers skills' ledger where
  closedTwice := h.closedTwice
  handles := h.handles.trans (Multiset.coe_eq_coe.mpr (hperm.filterMap _))
  boxes := h.boxes.trans (Multiset.coe_eq_coe.mpr (hperm.filterMap _))
  blocks := h.blocks.trans (Multiset.coe_eq_coe.mpr (hperm.filterMap _))

theorem filterMap_modify {α β : Type} {f : α → Option β} {g : α → α} (hf : ∀ a, f (g a) = f a)
    (l : List α) (i : ℕ) : (l.modify i g).filterMap f = l.filterMap f := by
  induction l generalizing i with
  | nil => rw [List.modify_nil]
  | cons a l ih =>
    cases i with
    | zero => rw [List.modify_zero_cons, List.filterMap_cons, List.filterMap_cons, hf]
    | succ i => rw [List.modify_succ_cons, List.filterMap_cons, List.filterMap_cons, ih]

/-- The state of a skill is not a resource. -/
theorem Refers.modify (h : Refers skills ledger) (i : ℕ) (state : SkillState) :
    Refers (skills.modify i fun skill => { skill with state := state }) ledger where
  closedTwice := h.closedTwice
  handles := by
    rw [h.handles, filterMap_modify]
    exact fun _ => rfl
  boxes := by
    rw [h.boxes, filterMap_modify]
    exact fun _ => rfl
  blocks := by
    rw [h.blocks, filterMap_modify]
    exact fun _ => rfl

end List

section Calls

variable {w : World} {skill : SkillMeta} {skills : List SkillMeta} {env : Env}

/-! Closing and opening of handles. -/

theorem boxes_dlclose (handle : Handle) (w : World) :
    (w.dlclose handle).ledger.boxes = w.ledger.boxes := by
  unfold World.dlclose
  dsimp only
  split_ifs <;> rfl

theorem dlclose_opened (handle : Handle) (w : World) : (w.opened handle).dlclose handle = w := by
  have hmem : handle ∈ handle ::ₘ w.ledger.handles := Multiset.mem_cons_self _ _
  unfold World.dlclose World.opened
  dsimp only
  rw [if_pos hmem, Multiset.erase_cons_head]

/-- A close of a handle that no skill has too many of. -/
theorem not_inOrder_dlclose (h : InOrder w) (handle : Handle) : ¬ InOrder (w.dlclose handle) := by
  intro hclosed
  by_cases hmem : handle ∈ w.ledger.handles
  · have hhandles := hclosed.handles
    unfold World.dlclose at hhandles
    dsimp only at hhandles
    rw [if_pos hmem, ← h.handles] at hhandles
    have hcard := Multiset.card_erase_add_one hmem
    have heq : (w.ledger.handles.erase handle).card = w.ledger.handles.card :=
      congrArg Multiset.card hhandles
    omega
  · have htwice := hclosed.closedTwice
    unfold World.dlclose at htwice
    dsimp only at htwice
    rw [if_neg hmem] at htwice
    cases htwice

/-- A heap object that no skill refers to. -/
theorem not_inOrder_of_boxes (h : InOrder w) {w' : World} {id : ℕ}
    (hskills : w'.skills = w.skills) (hboxes : w'.ledger.boxes = id ::ₘ w.ledger.boxes) :
    ¬ InOrder w' := by
  intro h'
  have heq := h'.boxes
  rw [hskills, hboxes, ← h.boxes] at heq
  have hcard := congrArg Multiset.card heq
  rw [Multiset.card_cons] at hcard
  omega

/-- What a skill refers to is released before the skill leaves the list. -/
theorem ledger_closeHandle (h : Refers (skill :: skills) w.ledger) :
    (SkillLoader.closeHandle skill w).ledger =
      { w.ledger with handles := ↑(skills.filterMap (·.soHandle)) } := by
  have hhandles := h.handles
  unfold SkillLoader.closeHandle
  cases hhandle : skill.soHandle with
  | none =>
    rw [List.filterMap_cons_none hhandle] at hhandles
    rw [← hhandles]
  | some handle =>
    rw [List.filterMap_cons_some hhandle, ← Multiset.cons_coe] at hhandles
    have hmem : handle ∈ w.ledger.handles := by
      rw [hhandles]
      exact Multiset.mem_cons_self _ _
    unfold World.dlclose
    dsimp only
    rw [if_pos hmem, hhandles, Multiset.erase_cons_head]

theorem ledger_endArena (hblocks : w.ledger.blocks =
    ↑((skill :: skills).filterMap (·.arena.map (·.arena.block)))) :
    (SkillLoader.endArena skill w).ledger =
      { w.ledger with blocks := ↑(skills.filterMap (·.arena.map (·.arena.block))) } := by
  unfold SkillLoader.endArena
  cases harena : skill.arena with
  | none =>
    rw [List.filterMap_cons_none (by rw [harena]; rfl)] at hblocks
    rw [← hblocks]
  | some box =>
    rw [List.filterMap_cons_some (b := box.arena.block) (by rw [harena]; rfl)] at hblocks
    have herase : w.ledger.blocks.erase box.arena.block =
        ↑(skills.filterMap (·.arena.map (·.arena.block))) := by
      rw [hblocks, ← Multiset.cons_coe, Multiset.erase_cons_head]
    unfold World.deinitArena
    dsimp only
    rw [herase]

theorem Refers.deinitSkill (h : Refers (skill :: skills) w.ledger) :
    Refers skills (SkillLoader.deinitSkill w skill).ledger := by
  have hclose := ledger_closeHandle h
  have hblocks : (SkillLoader.closeHandle skill w).ledger.blocks =
      ↑((skill :: skills).filterMap (·.arena.map (·.arena.block))) := by
    rw [hclose]
    exact h.blocks
  have hend := ledger_endArena hblocks
  rw [hclose] at hend
  have hboxes := h.boxes
  unfold SkillLoader.deinitSkill
  cases harena : skill.arena with
  | none =>
    rw [List.filterMap_cons_none (by rw [harena]; rfl)] at hboxes
    dsimp only
    rw [hend]
    exact ⟨h.closedTwice, rfl, hboxes, rfl⟩
  | some box =>
    rw [List.filterMap_cons_some (b := box.id) (by rw [harena]; rfl)] at hboxes
    have herase : w.ledger.boxes.erase box.id = ↑(skills.filterMap (·.arena.map (·.id))) := by
      rw [hboxes, ← Multiset.cons_coe, Multiset.erase_cons_head]
    unfold World.destroy
    dsimp only
    rw [hend]
    exact ⟨h.closedTwice, rfl, herase, rfl⟩

/-- Nothing is open, live or held, and no handle was closed twice. -/
structure Released (ledger : Ledger) : Prop where
  closedTwice : ledger.closedTwice = []
  handles : ledger.handles = 0
  boxes : ledger.boxes = 0
  blocks : ledger.blocks = 0

theorem released_foldl (h : Refers skills w.ledger) :
    Released (skills.foldl SkillLoader.deinitSkill w).ledger := by
  induction skills generalizing w with
  | nil => exact ⟨h.closedTwice, h.handles, h.boxes, h.blocks⟩
  | cons skill skills ih => exact ih h.deinitSkill

theorem released_deinit (h : InOrder w) : Released (SkillLoader.deinit w).ledger :=
  released_foldl h

/-! The outcomes of `addSkill`. -/

section AddSkill

variable {name : List UInt8} {tier : SkillTier} {entryPoint : Option Entry}
  {soHandle : Option Handle}

/-- The process with a new heap object. -/
def withBox (w : World) : World :=
  { w with ledger := { w.ledger with
      nextBox := w.ledger.nextBox + 1, boxes := w.ledger.nextBox ::ₘ w.ledger.boxes } }

/-- The process with a new arena in a new heap object. -/
def withArena (w : World) (a : Gqap.Arena) (s : Gqap.Globals) : World :=
  { withBox w with
    globals := s
    ledger := { (withBox w).ledger with blocks := a.block ::ₘ w.ledger.blocks } }

/-- The process with a new skill. -/
def withSkill (w : World) (skill : SkillMeta) : World :=
  { w with
    skills := w.skills ++ [{ skill with serial := w.nextSerial }]
    nextSerial := w.nextSerial + 1 }

theorem append_run (h : env.append = true) (skill : SkillMeta) :
    SkillLoader.append env skill w = (.ok (), withSkill w skill) := if_pos h

theorem append_err (h : ¬ env.append = true) (skill : SkillMeta) :
    SkillLoader.append env skill w = (.err .outOfMemory, w) := if_neg h

/-- What a registration comes to. -/
theorem registerL0_cases {entry : Entry} {r : Outcome SkillError Unit} {w' : World}
    (hrun : SkillLoader.registerL0 env name entry w = (r, w')) :
    w' = w ∨ w' = { withSkill w (.new name .l0 (some entry) none none) with
      registered := w.registered ++ [(name, entry)] } := by
  unfold SkillLoader.registerL0 at hrun
  by_cases happend : env.append = true
  · rw [Proc.bind_of_ok (append_run happend _)] at hrun
    cases hrun
    exact .inr rfl
  · rw [Proc.bind_of_err (append_err happend _)] at hrun
    cases hrun
    exact .inl rfl

theorem create_run (h : env.create = true) :
    SkillLoader.create env w = (.ok w.ledger.nextBox, withBox w) := if_pos h

theorem addSkill_of_no_box (h : ¬ env.create = true) :
    SkillLoader.addSkill env name tier entryPoint soHandle w = (.err .outOfMemory, w) := by
  have hcreate : SkillLoader.create env w = (.err .outOfMemory, w) := if_neg h
  unfold SkillLoader.addSkill
  rw [Proc.bind_of_err hcreate]

theorem addSkill_of_err (hcreate : env.create = true) {e : Gqap.ArenaError}
    (h : Gqap.Arena.init .untrusted w.globals = .err e) :
    SkillLoader.addSkill env name tier entryPoint soHandle w =
      (.err (.ofArena e), withBox w) := by
  have hinit : SkillLoader.initArena w.ledger.nextBox (withBox w) =
      (.err (.ofArena e), withBox w) := by
    unfold SkillLoader.initArena
    rw [show (withBox w).globals = w.globals from rfl, h]
  unfold SkillLoader.addSkill
  rw [Proc.bind_of_ok (create_run hcreate), Proc.bind_of_err hinit]

theorem addSkill_of_trap (hcreate : env.create = true) {t : Fault}
    (h : Gqap.Arena.init .untrusted w.globals = .trap t) :
    SkillLoader.addSkill env name tier entryPoint soHandle w = (.trap t, withBox w) := by
  have hinit : SkillLoader.initArena w.ledger.nextBox (withBox w) = (.trap t, withBox w) := by
    unfold SkillLoader.initArena
    rw [show (withBox w).globals = w.globals from rfl, h]
  unfold SkillLoader.addSkill
  rw [Proc.bind_of_ok (create_run hcreate), Proc.bind_of_trap hinit]

theorem addSkill_of_arena (hcreate : env.create = true) {a : Gqap.Arena} {s : Gqap.Globals}
    (h : Gqap.Arena.init .untrusted w.globals = .ok (a, s)) :
    SkillLoader.addSkill env name tier entryPoint soHandle w =
      SkillLoader.append env (.new name tier entryPoint soHandle (some ⟨w.ledger.nextBox, a⟩))
        (withArena w a s) := by
  have hinit : SkillLoader.initArena w.ledger.nextBox (withBox w) =
      (.ok ⟨w.ledger.nextBox, a⟩, withArena w a s) := by
    unfold SkillLoader.initArena
    rw [show (withBox w).globals = w.globals from rfl, h]
    rfl
  unfold SkillLoader.addSkill
  rw [Proc.bind_of_ok (create_run hcreate), Proc.bind_of_ok hinit]

/-- An arena for which there is a heap object and a block gets its place in the list. -/
def KeepsArena (env : Env) (globals : Gqap.Globals) : Prop :=
  env.create = true →
    match Gqap.Arena.init .untrusted globals with
    | .ok _ => env.append = true
    | .err _ => False
    | .trap _ => True

/-- What `addSkill` comes to: the process stops, there is no heap object, a heap object is lost,
or the list has a new skill. -/
theorem addSkill_cases (env : Env) (name : List UInt8) (tier : SkillTier)
    (entryPoint : Option Entry) (soHandle : Option Handle) (w : World) :
    ∃ r w', SkillLoader.addSkill env name tier entryPoint soHandle w = (r, w') ∧
      ((∃ t, r = .trap t ∧ env.create = true ∧ KeepsArena env w.globals ∧
          w'.ledger.closedTwice = w.ledger.closedTwice) ∨
        (∃ e, r = .err e ∧ ¬ env.create = true ∧ KeepsArena env w.globals ∧ w' = w) ∨
        (∃ e, r = .err e ∧ ¬ KeepsArena env w.globals ∧ w'.skills = w.skills ∧
          w'.ledger.boxes = w.ledger.nextBox ::ₘ w.ledger.boxes) ∨
        (r = .ok () ∧ env.create = true ∧ KeepsArena env w.globals ∧
          ∃ a s, w' = withSkill (withArena w a s)
            (.new name tier entryPoint soHandle (some ⟨w.ledger.nextBox, a⟩)))) := by
  unfold KeepsArena
  by_cases hcreate : env.create = true
  swap
  · refine ⟨_, _, addSkill_of_no_box hcreate, .inr (.inl ⟨_, rfl, hcreate, ?_, rfl⟩)⟩
    exact fun hcreate' => absurd hcreate' hcreate
  rcases hinit : Gqap.Arena.init .untrusted w.globals with ⟨a, s⟩ | e | t
  · rw [addSkill_of_arena hcreate hinit]
    by_cases happend : env.append = true
    · rw [append_run happend]
      exact ⟨_, _, rfl, .inr (.inr (.inr ⟨rfl, hcreate, fun _ => happend, a, s, rfl⟩))⟩
    · rw [append_err happend]
      exact ⟨_, _, rfl, .inr (.inr (.inl ⟨_, rfl, fun h => happend (h hcreate), rfl, rfl⟩))⟩
  · rw [addSkill_of_err hcreate hinit]
    exact ⟨_, _, rfl, .inr (.inr (.inl ⟨_, rfl, fun h => h hcreate, rfl, rfl⟩))⟩
  · rw [addSkill_of_trap hcreate hinit]
    exact ⟨_, _, rfl, .inl ⟨t, rfl, hcreate, fun _ => trivial, rfl⟩⟩

/-- The new skill refers to what its load has taken. -/
theorem inOrder_withSkill (h : InOrder w) (name : List UInt8) (tier : SkillTier)
    (entryPoint : Option Entry) (a : Gqap.Arena) (s : Gqap.Globals) :
    InOrder (withSkill (withArena w a s)
      (.new name tier entryPoint none (some ⟨w.ledger.nextBox, a⟩))) := by
  have hcons : Refers ({ SkillMeta.new name tier entryPoint none (some ⟨w.ledger.nextBox, a⟩) with
      serial := w.nextSerial } :: w.skills) (withArena w a s).ledger :=
    ⟨h.closedTwice, h.handles, congrArg (w.ledger.nextBox ::ₘ ·) h.boxes,
      congrArg (a.block ::ₘ ·) h.blocks⟩
  exact hcons.perm (List.perm_append_singleton _ _).symm

theorem inOrder_withHandle (h : InOrder w) (name : List UInt8) (tier : SkillTier)
    (entryPoint : Option Entry) (handle : Handle) (a : Gqap.Arena) (s : Gqap.Globals) :
    InOrder (withSkill (withArena (w.opened handle) a s)
      (.new name tier entryPoint (some handle) (some ⟨w.ledger.nextBox, a⟩))) := by
  have hcons : Refers ({ SkillMeta.new name tier entryPoint (some handle)
      (some ⟨w.ledger.nextBox, a⟩) with serial := w.nextSerial } :: w.skills)
      (withArena (w.opened handle) a s).ledger :=
    ⟨h.closedTwice, congrArg (handle ::ₘ ·) h.handles, congrArg (w.ledger.nextBox ::ₘ ·) h.boxes,
      congrArg (a.block ::ₘ ·) h.blocks⟩
  exact hcons.perm (List.perm_append_singleton _ _).symm

end AddSkill

end Calls

/-- No handle is closed twice, and when the call has returned, what is open, live or held is what
the listed skills refer to, all of which a `deinit` would release. -/
def Accounted (w : World) (call : Call) : Prop :=
  ∀ r w', play w call = some (r, w') → w'.ledger.closedTwice = [] ∧
    (r.stops = false → InOrder w' ∧ Released (SkillLoader.deinit w').ledger)

/-- A load that gets a heap object for its arena gets a block and its place in the list as well,
it gets them if its library lacks the symbol, and an unload finds no skill with an arena that it
could remove. -/
def Balanced (w : World) : Call → Prop
  | .loadL1 env name path => env.pathBuf = true →
      match env.dlopen (path ++ [0]) with
      | none => KeepsArena env w.globals
      | some handle => env.initSym = true →
        match env.dlsym handle (SkillLoader.initSymbol name) with
        | none => env.create = true ∧ KeepsArena env w.globals
        | some _ => KeepsArena env w.globals
  | .loadL2 env _ _ => KeepsArena env w.globals
  | .unload name => ∀ skill, w.skills.find? (·.name = name) = some skill →
      skill.state ≠ .running → skill.arena = none
  | _ => True

section Outcomes

variable {w w' : World} {call : Call} {r : Outcome SkillError Unit}

theorem accounted_of_stops (hplay : play w call = some (r, w')) (hstops : r.stops = true)
    (htwice : w'.ledger.closedTwice = []) : Accounted w call := by
  intro r₁ w₁ hplay₁
  rw [hplay] at hplay₁
  cases hplay₁
  refine ⟨htwice, fun hreturns => ?_⟩
  rw [hstops] at hreturns
  cases hreturns

theorem accounted_iff_of_returns (hplay : play w call = some (r, w')) (hreturns : r.stops = false) :
    Accounted w call ↔ InOrder w' := by
  constructor
  · intro hacc
    exact ((hacc r w' hplay).2 hreturns).1
  · intro h r₁ w₁ hplay₁
    rw [hplay] at hplay₁
    cases hplay₁
    exact ⟨h.closedTwice, fun _ => ⟨h, released_deinit h⟩⟩

theorem stops_of_resume {r : Outcome SkillError Unit} (h : resume (r, w) = some w') :
    r.stops = false ∧ w = w' := by
  cases r with
  | ok _ =>
    cases h
    exact ⟨rfl, rfl⟩
  | err _ =>
    cases h
    exact ⟨rfl, rfl⟩
  | trap _ => cases h

theorem inOrder_of_step (hacc : Accounted w call) (hstep : step w call = some w') : InOrder w' := by
  obtain ⟨⟨r, w₁⟩, hplay, hresume⟩ := Option.bind_eq_some_iff.mp hstep
  obtain ⟨hreturns, rfl⟩ := stops_of_resume hresume
  exact ((hacc r w₁ hplay).2 hreturns).1

/-- A call that adds a skill without a handle. -/
theorem accounted_addSkill (h : InOrder w) {env : Env} {name : List UInt8} {tier : SkillTier}
    {entryPoint : Option Entry}
    (hplay : play w call = some (SkillLoader.addSkill env name tier entryPoint none w)) :
    Accounted w call ↔ KeepsArena env w.globals := by
  obtain ⟨r, w₁, hadd, ⟨t, rfl, _, hkeeps, htwice⟩ | ⟨e, rfl, _, hkeeps, rfl⟩ |
    ⟨e, rfl, hnot, hskills, hboxes⟩ | ⟨rfl, _, hkeeps, a, s, rfl⟩⟩ :=
    addSkill_cases env name tier entryPoint none w
  · rw [hadd] at hplay
    exact iff_of_true (accounted_of_stops hplay rfl (htwice.trans h.closedTwice)) hkeeps
  · rw [hadd] at hplay
    exact iff_of_true ((accounted_iff_of_returns hplay rfl).mpr h) hkeeps
  · rw [hadd] at hplay
    rw [accounted_iff_of_returns hplay rfl]
    exact iff_of_false (not_inOrder_of_boxes h hskills hboxes) hnot
  · rw [hadd] at hplay
    rw [accounted_iff_of_returns hplay rfl]
    exact iff_of_true (inOrder_withSkill h _ _ _ a s) hkeeps

section LoadL1

variable {env : Env} {name path : List UInt8} {handle : Handle}

/-- `loadL1` behind its `dlopen`. -/
theorem loadL1_of_handle (hpath : ¬ env.pathBuf = false)
    (hopen : env.dlopen (path ++ [0]) = some handle) :
    SkillLoader.loadL1 env name path w = Proc.errdefer (World.dlclose handle)
      (if env.initSym = false then Proc.fail .outOfMemory
      else
        match env.dlsym handle (SkillLoader.initSymbol name) with
        | none => do
          Proc.modify (World.dlclose handle)
          SkillLoader.loadL1Stub env name
        | some entry => SkillLoader.addSkill env name .l1 (some entry) (some handle))
      (w.opened handle) := by
  unfold SkillLoader.loadL1
  rw [if_neg hpath, hopen]
  exact Proc.bind_of_ok (Proc.modify_run _ _) _

/-- The library lacks the symbol: its handle is closed once, and again if the stub fails. -/
theorem accounted_of_no_symbol (h : InOrder w) (hpath : ¬ env.pathBuf = false)
    (hopen : env.dlopen (path ++ [0]) = some handle) (hsym : ¬ env.initSym = false)
    (hentry : env.dlsym handle (SkillLoader.initSymbol name) = none) :
    Accounted w (.loadL1 env name path) ↔ env.create = true ∧ KeepsArena env w.globals := by
  have hrun : ∀ {r : Outcome SkillError Unit} {w₁ : World},
      SkillLoader.addSkill env name .l1 none none w = (r, w₁) →
      (do
        Proc.modify (World.dlclose handle)
        SkillLoader.loadL1Stub env name) (w.opened handle) = (r, w₁) := by
    intro r w₁ hadd
    rw [Proc.bind_of_ok (Proc.modify_run _ _), dlclose_opened]
    exact hadd
  have hplay : play w (.loadL1 env name path) =
      some (SkillLoader.loadL1 env name path w) := rfl
  rw [loadL1_of_handle hpath hopen, if_neg hsym, hentry] at hplay
  obtain ⟨r, w₁, hadd, ⟨t, rfl, hcreate, hkeeps, htwice⟩ | ⟨e, rfl, hcreate, _, rfl⟩ |
    ⟨e, rfl, hnot, hskills, hboxes⟩ | ⟨rfl, hcreate, hkeeps, a, s, rfl⟩⟩ :=
    addSkill_cases env name .l1 none none w
  · rw [Proc.errdefer_of_trap (hrun hadd)] at hplay
    exact iff_of_true (accounted_of_stops hplay rfl (htwice.trans h.closedTwice))
      ⟨hcreate, hkeeps⟩
  · rw [Proc.errdefer_of_err (hrun hadd)] at hplay
    rw [accounted_iff_of_returns hplay rfl]
    exact iff_of_false (not_inOrder_dlclose h handle) fun hbal => hcreate hbal.1
  · rw [Proc.errdefer_of_err (hrun hadd)] at hplay
    rw [accounted_iff_of_returns hplay rfl]
    have hboxes' := (boxes_dlclose handle w₁).trans hboxes
    exact iff_of_false (not_inOrder_of_boxes h hskills hboxes') fun hbal => hnot hbal.2
  · rw [Proc.errdefer_of_ok (hrun hadd)] at hplay
    rw [accounted_iff_of_returns hplay rfl]
    exact iff_of_true (inOrder_withSkill h _ _ _ a s) ⟨hcreate, hkeeps⟩

/-- The library has the symbol. -/
theorem accounted_of_symbol (h : InOrder w) (hpath : ¬ env.pathBuf = false)
    (hopen : env.dlopen (path ++ [0]) = some handle) (hsym : ¬ env.initSym = false) {entry : Entry}
    (hentry : env.dlsym handle (SkillLoader.initSymbol name) = some entry) :
    Accounted w (.loadL1 env name path) ↔ KeepsArena env w.globals := by
  have hplay : play w (.loadL1 env name path) =
      some (SkillLoader.loadL1 env name path w) := rfl
  rw [loadL1_of_handle hpath hopen, if_neg hsym, hentry] at hplay
  obtain ⟨r, w₁, hadd, ⟨t, rfl, _, hkeeps, htwice⟩ | ⟨e, rfl, _, hkeeps, rfl⟩ |
    ⟨e, rfl, hnot, hskills, hboxes⟩ | ⟨rfl, _, hkeeps, a, s, rfl⟩⟩ :=
    addSkill_cases env name .l1 (some entry) (some handle) (w.opened handle)
  · rw [Proc.errdefer_of_trap hadd] at hplay
    exact iff_of_true (accounted_of_stops hplay rfl (htwice.trans h.closedTwice)) hkeeps
  · rw [Proc.errdefer_of_err hadd, dlclose_opened] at hplay
    exact iff_of_true ((accounted_iff_of_returns hplay rfl).mpr h) hkeeps
  · rw [Proc.errdefer_of_err hadd] at hplay
    rw [accounted_iff_of_returns hplay rfl]
    have hboxes' := (boxes_dlclose handle w₁).trans hboxes
    exact iff_of_false (not_inOrder_of_boxes h hskills hboxes') hnot
  · rw [Proc.errdefer_of_ok hadd] at hplay
    rw [accounted_iff_of_returns hplay rfl]
    exact iff_of_true (inOrder_withHandle h _ _ _ handle a s) hkeeps

theorem accounted_loadL1 (h : InOrder w) :
    Accounted w (.loadL1 env name path) ↔ Balanced w (.loadL1 env name path) := by
  unfold Balanced
  by_cases hpath : env.pathBuf = false
  · have hplay : play w (.loadL1 env name path) = some (.err .outOfMemory, w) :=
      congrArg some (by unfold SkillLoader.loadL1; rw [if_pos hpath]; rfl)
    rw [accounted_iff_of_returns hplay rfl]
    simp only [h, hpath, Bool.false_eq_true, false_implies]
  have hpath' : env.pathBuf = true := by simpa using hpath
  simp only [hpath', true_implies]
  cases hopen : env.dlopen (path ++ [0]) with
  | none =>
    have hplay : play w (.loadL1 env name path) =
        some (SkillLoader.addSkill env name .l1 none none w) :=
      congrArg some (by unfold SkillLoader.loadL1; rw [if_neg hpath, hopen]; rfl)
    exact accounted_addSkill h hplay
  | some handle =>
    dsimp only
    by_cases hsym : env.initSym = false
    · have hfail : (Proc.fail .outOfMemory : Proc World SkillError Unit) (w.opened handle) =
          (.err .outOfMemory, w.opened handle) := rfl
      have hplay : play w (.loadL1 env name path) =
          some (SkillLoader.loadL1 env name path w) := rfl
      rw [loadL1_of_handle hpath hopen, if_pos hsym, Proc.errdefer_of_err hfail,
        dlclose_opened] at hplay
      rw [accounted_iff_of_returns hplay rfl]
      simp only [h, hsym, Bool.false_eq_true, false_implies]
    have hsym' : env.initSym = true := by simpa using hsym
    simp only [hsym', true_implies]
    cases hentry : env.dlsym handle (SkillLoader.initSymbol name) with
    | none => exact accounted_of_no_symbol h hpath hopen hsym hentry
    | some entry => exact accounted_of_symbol h hpath hopen hsym hentry

end LoadL1

theorem boxes_endArena (skill : SkillMeta) (w : World) :
    (SkillLoader.endArena skill (SkillLoader.closeHandle skill w)).ledger.boxes =
      w.ledger.boxes := by
  have hclose : (SkillLoader.closeHandle skill w).ledger.boxes = w.ledger.boxes := by
    unfold SkillLoader.closeHandle
    cases skill.soHandle with
    | none => rfl
    | some handle => exact boxes_dlclose handle w
  unfold SkillLoader.endArena
  cases skill.arena <;> exact hclose

theorem accounted_unload (h : InOrder w) (name : List UInt8) :
    Accounted w (.unload name) ↔ Balanced w (.unload name) := by
  have hplay : play w (.unload name) = some (SkillLoader.unload name w) := rfl
  unfold Balanced
  cases hfind : w.skills.find? (·.name = name) with
  | none =>
    rw [SkillLoader.unload_of_none hfind] at hplay
    rw [accounted_iff_of_returns hplay rfl]
    exact iff_of_true h fun skill hskill => nomatch hfind.symm.trans hskill
  | some skill =>
    by_cases hstate : skill.state = .running
    · rw [SkillLoader.unload_of_running hfind hstate] at hplay
      rw [accounted_iff_of_returns hplay rfl]
      refine iff_of_true h fun skill' hskill hne => ?_
      obtain rfl := Option.some.inj (hfind.symm.trans hskill)
      exact absurd hstate hne
    have hrefers : Refers (skill :: w.skills.eraseP (·.name = name)) w.ledger :=
      h.perm (Custody.perm_cons_eraseP hfind)
    have hclose := ledger_closeHandle hrefers
    rw [SkillLoader.unload_of_not_running hfind hstate] at hplay
    rw [accounted_iff_of_returns hplay rfl]
    have hboxes := (boxes_endArena skill w).trans hrefers.boxes
    cases harena : skill.arena with
    | none =>
      have hboxes' := hrefers.boxes
      have hblocks := hrefers.blocks
      rw [List.filterMap_cons_none (by rw [harena]; rfl)] at hboxes' hblocks
      have hend : SkillLoader.endArena skill (SkillLoader.closeHandle skill w) =
          SkillLoader.closeHandle skill w := by
        unfold SkillLoader.endArena
        rw [harena]
      have hafter : Refers (w.skills.eraseP (·.name = name))
          (SkillLoader.endArena skill (SkillLoader.closeHandle skill w)).ledger := by
        rw [hend, hclose]
        exact ⟨h.closedTwice, rfl, hboxes', hblocks⟩
      refine iff_of_true hafter fun skill' hskill _ => ?_
      obtain rfl := Option.some.inj (hfind.symm.trans hskill)
      exact harena
    | some box =>
      rw [List.filterMap_cons_some (b := box.id) (by rw [harena]; rfl)] at hboxes
      refine iff_of_false (fun h' => ?_) fun hbal => ?_
      · have hcard := congrArg Multiset.card (hboxes.symm.trans h'.boxes)
        rw [← Multiset.cons_coe, Multiset.card_cons] at hcard
        exact Nat.succ_ne_self _ hcard
      · have hnone := hbal skill hfind hstate
        rw [harena] at hnone
        cases hnone

/-! The calls that take and give nothing. -/

theorem inOrder_setState (w : World) (i : ℕ) (state : SkillState) (h : InOrder w) :
    InOrder (w.setState i state) := Refers.modify h i state

theorem inOrder_registerL0 (h : InOrder w) {env : Env} {name : List UInt8} {entry : Entry}
    (hrun : SkillLoader.registerL0 env name entry w = (r, w')) : InOrder w' := by
  rcases registerL0_cases hrun with rfl | rfl
  · exact h
  · have hcons : Refers ({ SkillMeta.new name .l0 (some entry) none none with
        serial := w.nextSerial } :: w.skills) w.ledger :=
      ⟨h.closedTwice, h.handles, h.boxes, h.blocks⟩
    exact hcons.perm (List.perm_append_singleton _ _).symm

theorem accounted_of_keeps (h : ∀ r w', play w call = some (r, w') → InOrder w') :
    Accounted w call := fun r w' hplay =>
  ⟨(h r w' hplay).closedTwice, fun _ => ⟨h r w' hplay, released_deinit (h r w' hplay)⟩⟩

/-- A call keeps the accounts exactly when it is balanced. -/
theorem accounted_iff (h : InOrder w) (call : Call) : Accounted w call ↔ Balanced w call := by
  cases call with
  | registerL0 env name entry =>
    exact iff_of_true (accounted_of_keeps fun r w' hplay =>
      inOrder_registerL0 h (Option.some.inj hplay)) trivial
  | loadL1 env name path => exact accounted_loadL1 h
  | loadL2 env name bytecode => exact accounted_addSkill h rfl
  | execute name =>
    exact iff_of_true (accounted_of_keeps fun r w' hplay =>
      execute_keeps inOrder_setState (fun _ _ _ h => h) h hplay) trivial
  | finish =>
    exact iff_of_true (accounted_of_keeps fun r w' hplay =>
      finish_keeps inOrder_setState (fun _ _ _ h => h) h hplay) trivial
  | pause name =>
    exact iff_of_true (accounted_of_keeps fun r w' hplay =>
      pause_keeps inOrder_setState h hplay) trivial
  | unload name => exact accounted_unload h name
  | others globals =>
    refine iff_of_true (accounted_of_keeps fun r w' hplay => ?_) trivial
    cases hplay
    exact h

end Outcomes

/-- The accounts of the loader are kept over a history of calls exactly when it is balanced at
each of them. -/
theorem accounted_iff_balanced (w : World) (h : InOrder w) (calls : List Call) :
    Run.AllSteps step Accounted w calls ↔ Run.AllSteps step Balanced w calls := by
  apply Run.allSteps_congr (I := InOrder) _ _ h
  · intro w call h
    exact accounted_iff h call
  · intro w call w' h hbal hstep
    exact inOrder_of_step ((accounted_iff h call).mpr hbal) hstep

/-- A loader in a process with one free block. -/
def freshWorld : World where
  globals := Gqap.initialGlobals 4096 1 64

/-- An environment where every call succeeds; the linker finds each library and each symbol. -/
def obliging : Env where
  pathBuf := true
  dlopen _ := some 7
  initSym := true
  dlsym _ _ := some 0x1000
  create := true
  append := true

theorem inOrder_freshWorld : InOrder freshWorld := ⟨rfl, rfl, rfl, rfl⟩

/-- A load that gets all it asks for, one whose symbol the heap has no room for, and a run of the
loaded skill. -/
theorem accounted_loaded : Run.AllSteps step Accounted freshWorld
    [.loadL1 obliging [101] [], .loadL1 { obliging with initSym := false } [102] [],
      .execute [101], .finish] := by
  apply (accounted_iff_balanced _ inOrder_freshWorld _).mpr
  refine ⟨fun _ _ _ => rfl, fun w₁ _ => ⟨fun _ hsym => ?_, fun _ _ => ⟨trivial, fun _ _ =>
    ⟨trivial, fun _ _ => trivial⟩⟩⟩⟩
  cases hsym

/-- A library without the symbol for whose stub there is no heap object has its handle closed
twice. A skill that was unloaded leaves its heap object behind. -/
theorem unaccounted :
    (¬ Run.AllSteps step Accounted freshWorld
        [.loadL1 { obliging with dlsym := fun _ _ => none, create := false } [101] []] ∧
      ∃ w, play freshWorld
        (.loadL1 { obliging with dlsym := fun _ _ => none, create := false } [101] []) =
          some (.err .outOfMemory, w) ∧ w.ledger.closedTwice = [7]) ∧
    ¬ Run.AllSteps step Accounted freshWorld [.loadL1 obliging [101] [], .unload [101]] := by
  refine ⟨⟨fun hall => ?_, _, rfl, rfl⟩, fun hall => ?_⟩
  · have hbal := (accounted_iff inOrder_freshWorld _).mp hall.1
    cases (hbal rfl rfl).1
  · have hloaded := inOrder_of_step hall.1 rfl
    have hbal := (accounted_iff hloaded _).mp (hall.2 _ rfl).1
    cases hbal _ rfl (by decide)

end LingNet.Skill
