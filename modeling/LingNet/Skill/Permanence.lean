import LingNet.Skill.Resources

/-! Whether the core skills stay: which unloads remove one, and which calls of `execute` under
the name of one reach another skill. -/
namespace LingNet.Skill
open Zig

/-- The skills of tier `L0`, by name and entry. -/
def coreSkills (skills : List SkillMeta) : List (List UInt8 × Option Entry) :=
  skills.filterMap fun skill =>
    if skill.tier = .l0 then some (skill.name, skill.entryPoint) else none

/-- The core skills of the list are those that were registered, in the order of their
registrations. -/
def Core (w : World) : Prop :=
  coreSkills w.skills = w.registered.map fun skill => (skill.1, some skill.2)

/-- The entry that was registered first under the name. -/
def firstRegistered (name : List UInt8) (w : World) : Option Entry :=
  (w.registered.find? (·.1 = name)).map (·.2)

/-- The call keeps the core skills, and if it is an `execute` that succeeds under the name of one,
it calls the first of them. -/
def Permanent (w : World) (call : Call) : Prop :=
  ∀ r w', play w call = some (r, w') → Core w' ∧
    ∀ name entry, call = .execute name → r = .ok () → firstRegistered name w = some entry →
      w'.invoked = w.invoked ++ [(.l0, entry)]

/-- The first skill under the name is no core skill if an `unload` could remove it, and it is one
if an `execute` could run it and a core skill of the name was registered. -/
def Respects (w : World) : Call → Prop
  | .unload name => ∀ skill, w.skills.find? (·.name = name) = some skill →
      skill.state ≠ .running → skill.tier ≠ .l0
  | .execute name => ∀ skill, w.skills.find? (·.name = name) = some skill →
      skill.state = .loaded ∨ skill.state = .paused → (firstRegistered name w).isSome →
      skill.tier = .l0
  | _ => True

section List

variable {skills : List SkillMeta} {skill : SkillMeta}

theorem coreSkills_cons_of_core (htier : skill.tier = .l0) (skills : List SkillMeta) :
    coreSkills (skill :: skills) = (skill.name, skill.entryPoint) :: coreSkills skills := by
  unfold coreSkills
  simp [htier]

theorem coreSkills_cons_of_ne (htier : skill.tier ≠ .l0) (skills : List SkillMeta) :
    coreSkills (skill :: skills) = coreSkills skills := by
  unfold coreSkills
  simp [htier]

theorem coreSkills_append (skills skills' : List SkillMeta) :
    coreSkills (skills ++ skills') = coreSkills skills ++ coreSkills skills' :=
  List.filterMap_append

theorem coreSkills_modify (skills : List SkillMeta) (i : ℕ) (state : SkillState) :
    coreSkills (skills.modify i fun skill => { skill with state := state }) =
      coreSkills skills := by
  apply filterMap_modify
  exact fun _ => rfl

/-- The first core skill of a name, when it is the first skill of the name. -/
theorem find?_coreSkills {name : List UInt8}
    (hfind : skills.find? (·.name = name) = some skill) (htier : skill.tier = .l0) :
    (coreSkills skills).find? (·.1 = name) = some (skill.name, skill.entryPoint) := by
  induction skills with
  | nil => cases hfind
  | cons first skills ih =>
    by_cases hname : first.name = name
    · rw [List.find?_cons_of_pos (by simpa using hname)] at hfind
      cases hfind
      rw [coreSkills_cons_of_core htier, List.find?_cons_of_pos (by simpa using hname)]
    · rw [List.find?_cons_of_neg (by simpa using hname)] at hfind
      by_cases hfirst : first.tier = .l0
      · rw [coreSkills_cons_of_core hfirst, List.find?_cons_of_neg (by simpa using hname)]
        exact ih hfind
      · rw [coreSkills_cons_of_ne hfirst]
        exact ih hfind

/-- What a removal does to the core skills. -/
theorem coreSkills_eraseP {p : SkillMeta → Bool} (hfind : skills.find? p = some skill) :
    (skill.tier ≠ .l0 → coreSkills (skills.eraseP p) = coreSkills skills) ∧
      (skill.tier = .l0 →
        (coreSkills skills).length = (coreSkills (skills.eraseP p)).length + 1) := by
  induction skills with
  | nil => cases hfind
  | cons first skills ih =>
    by_cases hp : p first = true
    · rw [List.find?_cons_of_pos hp] at hfind
      cases hfind
      rw [List.eraseP_cons_of_pos hp]
      constructor
      · intro htier
        rw [coreSkills_cons_of_ne htier]
      · intro htier
        rw [coreSkills_cons_of_core htier, List.length_cons]
    · rw [List.find?_cons_of_neg hp] at hfind
      rw [List.eraseP_cons_of_neg hp]
      obtain ⟨hother, hcore⟩ := ih hfind
      by_cases hfirst : first.tier = .l0
      · rw [coreSkills_cons_of_core hfirst, coreSkills_cons_of_core hfirst]
        constructor
        · intro htier
          rw [hother htier]
        · intro htier
          rw [List.length_cons, List.length_cons, hcore htier]
      · rw [coreSkills_cons_of_ne hfirst, coreSkills_cons_of_ne hfirst]
        exact ⟨hother, hcore⟩

end List

section Calls

variable {w w' : World} {env : Env} {name : List UInt8} {r : Outcome SkillError Unit}

theorem core_setState (w : World) (i : ℕ) (state : SkillState) (h : Core w) :
    Core (w.setState i state) := (coreSkills_modify w.skills i state).trans h

/-- What the change of the pools, of the ledger and of the end of the list by a skill of a lower
tier keep. -/
structure Stable (I : World → Prop) : Prop where
  ledger : ∀ w globals ledger, I w → I { w with globals := globals, ledger := ledger }
  skill : ∀ w skill, skill.tier ≠ .l0 → I w → I (withSkill w skill)

section Loads

variable {I : World → Prop}

theorem Stable.addSkill (hI : Stable I) (h : I w) (env : Env) (name : List UInt8)
    {tier : SkillTier} (htier : tier ≠ .l0) (entryPoint : Option Entry)
    (soHandle : Option Handle) :
    Proc.Ensures I (fun _ => True) (SkillLoader.addSkill env name tier entryPoint soHandle) w := by
  have hcreate : Proc.Ensures I (fun _ => True) (SkillLoader.create env) w := by
    apply Proc.ensures_of_final
    unfold Proc.final SkillLoader.create
    split_ifs
    · exact hI.ledger w _ _ h
    · exact h
  apply hcreate.bind
  intro id w₁ _ h₁
  have hinit : Proc.Ensures I (fun _ => True) (SkillLoader.initArena id) w₁ := by
    apply Proc.ensures_of_final
    unfold Proc.final SkillLoader.initArena
    cases Gqap.Arena.init .untrusted w₁.globals with
    | ok r => exact hI.ledger w₁ _ _ h₁
    | err e => exact h₁
    | trap t => exact h₁
  apply hinit.bind
  intro box w₂ _ h₂
  apply Proc.ensures_of_final
  unfold Proc.final
  by_cases happend : env.append = true
  · rw [append_run happend]
    exact hI.skill w₂ _ htier h₂
  · rw [append_err happend]
    exact h₂

theorem Stable.loadL1 (hI : Stable I) (h : I w) (env : Env) (name path : List UInt8) :
    Proc.Ensures I (fun _ => True) (SkillLoader.loadL1 env name path) w := by
  have hl1 : SkillTier.l1 ≠ .l0 := by decide
  unfold SkillLoader.loadL1
  by_cases hpath : env.pathBuf = false
  · rw [if_pos hpath]
    exact Proc.ensures_of_final h
  rw [if_neg hpath]
  cases env.dlopen (path ++ [0]) with
  | none => exact hI.addSkill h env name hl1 none none
  | some handle =>
    have hopened : I (w.opened handle) := hI.ledger w _ _ h
    have hclosed : ∀ w, I w → I (w.dlclose handle) := fun w h => hI.ledger w _ _ h
    apply (Proc.ensures_of_final (x := Proc.modify (World.opened handle)) hopened).bind
    intro _ w₁ _ h₁
    refine Proc.Ensures.errdefer ?_ hclosed
    by_cases hsym : env.initSym = false
    · rw [if_pos hsym]
      exact Proc.ensures_of_final h₁
    rw [if_neg hsym]
    cases env.dlsym handle (SkillLoader.initSymbol name) with
    | none =>
      apply (Proc.ensures_of_final (x := Proc.modify (World.dlclose handle)) (hclosed w₁ h₁)).bind
      intro _ w₂ _ h₂
      exact hI.addSkill h₂ env name hl1 none none
    | some entry => exact hI.addSkill h₁ env name hl1 (some entry) (some handle)

/-- A load keeps what is stable. -/
theorem Stable.keeps_loadL1 (hI : Stable I) (h : I w) {env : Env} {name path : List UInt8}
    (hplay : play w (.loadL1 env name path) = some (r, w')) : I w' := by
  have hfinal := (hI.loadL1 h env name path).1
  unfold Proc.final at hfinal
  rwa [Option.some.inj hplay] at hfinal

theorem Stable.keeps_loadL2 (hI : Stable I) (h : I w) {env : Env} {name bytecode : List UInt8}
    (hplay : play w (.loadL2 env name bytecode) = some (r, w')) : I w' := by
  have hl2 : SkillTier.l2 ≠ .l0 := by decide
  have hrun : SkillLoader.addSkill env name .l2 none none w = (r, w') := Option.some.inj hplay
  have hfinal := (hI.addSkill h env name hl2 none none).1
  unfold Proc.final at hfinal
  rwa [hrun] at hfinal

end Loads

theorem stable_core : Stable Core where
  ledger _ _ _ h := h
  skill w skill htier h := by
    have hskill : coreSkills [{ skill with serial := w.nextSerial }] = [] :=
      coreSkills_cons_of_ne htier []
    have hskills := coreSkills_append w.skills [{ skill with serial := w.nextSerial }]
    rw [hskill, List.append_nil] at hskills
    exact hskills.trans h

theorem core_registerL0 (h : Core w) {entry : Entry}
    (hrun : SkillLoader.registerL0 env name entry w = (r, w')) : Core w' := by
  rcases registerL0_cases hrun with rfl | rfl
  · exact h
  · have hskills := coreSkills_append w.skills
      [{ SkillMeta.new name .l0 (some entry) none none with serial := w.nextSerial }]
    rw [h] at hskills
    unfold Core
    rw [List.map_append]
    exact hskills

/-- The first skill of a name is the first one registered, if it is a core skill. -/
theorem target_of_core (h : Core w) {skill : SkillMeta}
    (hfind : w.skills.find? (·.name = name) = some skill) (htier : skill.tier = .l0) :
    SkillLoader.target skill = firstRegistered name w := by
  have hcore := find?_coreSkills hfind htier
  rw [h, List.find?_map] at hcore
  obtain ⟨⟨n, e⟩, hreg, hpair⟩ := Option.map_eq_some_iff.mp hcore
  have hentry : skill.entryPoint = some e := (Prod.mk.inj hpair).2.symm
  have hfirst : w.registered.find? (·.1 = name) = some (n, e) := hreg
  unfold SkillLoader.target firstRegistered
  rw [htier, hfirst, hentry]
  rfl

/-- An `execute` that succeeds calls the first core skill of its name exactly when it reaches a
core skill. -/
theorem invoked_executed_iff (h : Core w) {skill : SkillMeta} {entry : Entry}
    (hfind : w.skills.find? (·.name = name) = some skill)
    (hfirst : firstRegistered name w = some entry) :
    (SkillLoader.executed name skill w).invoked = w.invoked ++ [(.l0, entry)] ↔
      skill.tier = .l0 := by
  unfold SkillLoader.executed
  constructor
  · intro hinvoked
    cases htarget : SkillLoader.target skill with
    | none =>
      rw [htarget] at hinvoked
      have hlength := congrArg List.length hinvoked
      rw [List.length_append, List.length_singleton] at hlength
      exact absurd hlength (Nat.ne_of_lt (Nat.lt_succ_self _))
    | some e =>
      rw [htarget] at hinvoked
      have hlast := List.append_cancel_left hinvoked
      exact (Prod.mk.inj (List.cons.inj hlast).1).1
  · intro htier
    rw [target_of_core h hfind htier, hfirst, htier]

theorem permanent_iff_of_play {call : Call} (hplay : play w call = some (r, w')) :
    Permanent w call ↔ Core w' ∧
      ∀ name entry, call = .execute name → r = .ok () → firstRegistered name w = some entry →
        w'.invoked = w.invoked ++ [(.l0, entry)] := by
  constructor
  · intro hall
    exact hall r w' hplay
  · intro h r₁ w₁ hplay₁
    rw [hplay] at hplay₁
    cases hplay₁
    exact h

theorem permanent_execute (h : Core w) (name : List UInt8) :
    Permanent w (.execute name) ↔ Respects w (.execute name) := by
  have hplay : play w (.execute name) = some (SkillLoader.execute name w) := rfl
  cases hfind : w.skills.find? (·.name = name) with
  | none =>
    rw [SkillLoader.execute_of_none hfind] at hplay
    rw [permanent_iff_of_play hplay]
    exact iff_of_true ⟨h, fun _ _ _ hok => nomatch hok⟩
      fun skill hskill => nomatch hfind.symm.trans hskill
  | some skill =>
    by_cases hready : skill.state = .loaded ∨ skill.state = .paused
    swap
    · rw [SkillLoader.execute_of_not_ready hfind hready] at hplay
      rw [permanent_iff_of_play hplay]
      refine iff_of_true ⟨h, fun _ _ _ hok => nomatch hok⟩ fun skill' hskill hready' => ?_
      obtain rfl := Option.some.inj (hfind.symm.trans hskill)
      exact absurd hready' hready
    rw [SkillLoader.execute_of_ready hfind hready] at hplay
    rw [permanent_iff_of_play hplay]
    have hcore : Core (SkillLoader.executed name skill w) :=
      execute_keeps core_setState (fun _ _ _ h => h) h hplay
    constructor
    · intro hall skill' hskill _ hfirst
      obtain rfl := Option.some.inj (hfind.symm.trans hskill)
      obtain ⟨entry, hentry⟩ := Option.isSome_iff_exists.mp hfirst
      exact (invoked_executed_iff h hfind hentry).mp (hall.2 name entry rfl rfl hentry)
    · intro hrespects
      refine ⟨hcore, fun name' entry hname _ hentry => ?_⟩
      cases hname
      have htier := hrespects skill hfind hready (Option.isSome_iff_exists.mpr ⟨entry, hentry⟩)
      exact (invoked_executed_iff h hfind hentry).mpr htier

theorem registered_endArena (skill : SkillMeta) (w : World) :
    (SkillLoader.endArena skill (SkillLoader.closeHandle skill w)).registered =
      w.registered := by
  unfold SkillLoader.endArena SkillLoader.closeHandle
  cases skill.arena <;> cases skill.soHandle <;> rfl

theorem permanent_unload (h : Core w) (name : List UInt8) :
    Permanent w (.unload name) ↔ Respects w (.unload name) := by
  have hplay : play w (.unload name) = some (SkillLoader.unload name w) := rfl
  cases hfind : w.skills.find? (·.name = name) with
  | none =>
    rw [SkillLoader.unload_of_none hfind] at hplay
    rw [permanent_iff_of_play hplay]
    exact iff_of_true ⟨h, fun _ _ hcall => nomatch hcall⟩
      fun skill hskill => nomatch hfind.symm.trans hskill
  | some skill =>
    by_cases hstate : skill.state = .running
    · rw [SkillLoader.unload_of_running hfind hstate] at hplay
      rw [permanent_iff_of_play hplay]
      refine iff_of_true ⟨h, fun _ _ hcall => nomatch hcall⟩ fun skill' hskill hne => ?_
      obtain rfl := Option.some.inj (hfind.symm.trans hskill)
      exact absurd hstate hne
    rw [SkillLoader.unload_of_not_running hfind hstate] at hplay
    rw [permanent_iff_of_play hplay]
    obtain ⟨hother, hcore⟩ := coreSkills_eraseP hfind
    have hregistered := registered_endArena skill w
    constructor
    · intro hall skill' hskill _ htier
      obtain rfl := Option.some.inj (hfind.symm.trans hskill)
      have hafter : coreSkills (w.skills.eraseP (·.name = name)) = coreSkills w.skills := by
        rw [h, ← hregistered]
        exact hall.1
      have hlength := hcore htier
      rw [hafter] at hlength
      exact absurd hlength (Nat.ne_of_lt (Nat.lt_succ_self _))
    · intro hrespects
      have hafter : Core { SkillLoader.endArena skill (SkillLoader.closeHandle skill w) with
          skills := w.skills.eraseP (·.name = name) } := by
        unfold Core
        dsimp only
        rw [hregistered, hother (hrespects skill hfind hstate)]
        exact h
      exact ⟨hafter, fun _ _ hcall => nomatch hcall⟩

theorem permanent_of_core {call : Call} (hcall : ∀ name, call ≠ .execute name)
    (h : ∀ r w', play w call = some (r, w') → Core w') : Permanent w call :=
  fun r w' hplay => ⟨h r w' hplay, fun name _ heq => absurd heq (hcall name)⟩

/-- A call keeps the core skills exactly when it respects them. -/
theorem permanent_iff (h : Core w) (call : Call) : Permanent w call ↔ Respects w call := by
  cases call with
  | registerL0 env name entry =>
    exact iff_of_true (permanent_of_core nofun fun r w' hplay =>
      core_registerL0 h (Option.some.inj hplay)) trivial
  | loadL1 env name path =>
    exact iff_of_true (permanent_of_core nofun fun r w' hplay =>
      stable_core.keeps_loadL1 h hplay) trivial
  | loadL2 env name bytecode =>
    exact iff_of_true (permanent_of_core nofun fun r w' hplay =>
      stable_core.keeps_loadL2 h hplay) trivial
  | execute name => exact permanent_execute h name
  | finish =>
    exact iff_of_true (permanent_of_core nofun fun r w' hplay =>
      finish_keeps core_setState (fun _ _ _ h => h) h hplay) trivial
  | pause name =>
    exact iff_of_true (permanent_of_core nofun fun r w' hplay =>
      pause_keeps core_setState h hplay) trivial
  | unload name => exact permanent_unload h name
  | others globals =>
    refine iff_of_true (permanent_of_core nofun fun r w' hplay => ?_) trivial
    cases hplay
    exact h

theorem core_of_step {call : Call} (hperm : Permanent w call) (hstep : step w call = some w') :
    Core w' := by
  obtain ⟨⟨r, w₁⟩, hplay, hresume⟩ := Option.bind_eq_some_iff.mp hstep
  obtain ⟨-, rfl⟩ := stops_of_resume hresume
  exact (hperm r w₁ hplay).1

end Calls

/-- The core skills are permanent over a history of calls exactly when each of them respects
them. -/
theorem permanent_iff_respects (w : World) (h : Core w) (calls : List Call) :
    Run.AllSteps step Permanent w calls ↔ Run.AllSteps step Respects w calls := by
  apply Run.allSteps_congr (I := Core) _ _ h
  · intro w call h
    exact permanent_iff h call
  · intro w call w' h hrespects hstep
    exact core_of_step ((permanent_iff h call).mpr hrespects) hstep

/-- A core skill that is registered and run, with a skill of another name beside it. -/
theorem permanent_registered : Run.AllSteps step Permanent freshWorld
    [.registerL0 obliging [112] 0x2000, .loadL2 obliging [113] [], .execute [112], .finish,
      .unload [113]] := by
  apply (permanent_iff_respects freshWorld rfl _).mpr
  refine ⟨trivial, fun w₁ h₁ => ⟨trivial, fun w₂ h₂ => ⟨?_, fun w₃ h₃ =>
    ⟨trivial, fun w₄ h₄ => ⟨?_, fun _ _ => trivial⟩⟩⟩⟩⟩
  · cases h₁
    cases h₂
    intro skill hskill _ _
    cases hskill
    rfl
  · cases h₁
    cases h₂
    cases h₃
    cases h₄
    intro skill hskill _
    cases hskill
    decide

/-- An `unload` removes a core skill, and a skill that was loaded before under its name is run in
its place. -/
theorem core_skill_lost :
    ¬ Run.AllSteps step Permanent freshWorld
      [.registerL0 obliging [112] 0x2000, .unload [112]] ∧
    ¬ Run.AllSteps step Permanent freshWorld
      [.loadL1 obliging [112] [], .registerL0 obliging [112] 0x2000, .execute [112]] := by
  constructor
  · intro hall
    have hcore := core_of_step hall.1 rfl
    have hrespects := (permanent_iff hcore _).mp (hall.2 _ rfl).1
    exact hrespects _ rfl (by decide) rfl
  · intro hall
    obtain ⟨hregister, hrest⟩ := hall.2 _ rfl
    have hcore := core_of_step hregister rfl
    have hrespects := (permanent_iff hcore _).mp (hrest _ rfl).1
    cases hrespects _ rfl (.inl rfl) rfl

end LingNet.Skill
