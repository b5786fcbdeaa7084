import LingNet.Skill.Permanence

/-! What an `execute` does to the list when its entry has called the loader: it writes through a
pointer into the list that it took before. -/
namespace LingNet.Skill
open Zig

/-- The skill as it is to be left by an `execute` of the skill with the serial. -/
def settle (serial : ℕ) (skill : SkillMeta) : SkillMeta :=
  if skill.serial = serial then
    { skill with state := if skill.state = .paused then .paused else .loaded }
  else skill

/-- When the entry returns, its skill is paused if it was left paused and loaded otherwise, and
every other skill is as it was left. -/
def Reentrant (w : World) (call : Call) : Prop :=
  ∀ frame frames w', call = .finish → w.frames = frame :: frames → step w call = some w' →
    w'.skills = w.skills.map (settle frame.serial)

/-- When an entry returns, the slot of its `execute` holds its skill, which is not paused, or a
skill that is loaded, or none; anywhere else its skill is loaded or paused. -/
def Undisturbed (w : World) (call : Call) : Prop :=
  ∀ frame frames, call = .finish → w.frames = frame :: frames →
    (∀ skill, w.skills[frame.slot]? = some skill →
      if skill.serial = frame.serial then skill.state ≠ .paused else skill.state = .loaded) ∧
    ∀ i skill, w.skills[i]? = some skill → i ≠ frame.slot → skill.serial = frame.serial →
      skill.state = .loaded ∨ skill.state = .paused

section Settle

variable {serial : ℕ} {skill : SkillMeta}

theorem state_eta (skill : SkillMeta) {state : SkillState} (h : skill.state = state) :
    { skill with state := state } = skill := by
  cases skill
  cases h
  rfl

/-- The write of `execute` settles the skill in its slot. -/
theorem loaded_eq_settle : { skill with state := .loaded } = settle serial skill ↔
    if skill.serial = serial then skill.state ≠ .paused else skill.state = .loaded := by
  unfold settle
  by_cases hserial : skill.serial = serial
  · rw [if_pos hserial, if_pos hserial]
    constructor
    · intro heq hpaused
      have hstate := congrArg SkillMeta.state heq
      rw [if_pos hpaused] at hstate
      cases hstate
    · intro hpaused
      rw [if_neg hpaused]
  · rw [if_neg hserial, if_neg hserial]
    constructor
    · intro heq
      exact (congrArg SkillMeta.state heq).symm
    · intro hstate
      exact state_eta skill hstate

/-- A skill that no write reaches is settled. -/
theorem eq_settle : skill = settle serial skill ↔
    (skill.serial = serial → skill.state = .loaded ∨ skill.state = .paused) := by
  unfold settle
  by_cases hserial : skill.serial = serial
  · rw [if_pos hserial]
    constructor
    · intro heq _
      have hstate := congrArg SkillMeta.state heq
      by_cases hpaused : skill.state = .paused
      · exact .inr hpaused
      · rw [if_neg hpaused] at hstate
        exact .inl hstate
    · intro hstates
      rcases hstates hserial with hstate | hstate
      · rw [if_neg (by rw [hstate]; decide)]
        exact (state_eta skill hstate).symm
      · rw [if_pos hstate]
        exact (state_eta skill hstate).symm
  · rw [if_neg hserial]
    exact iff_of_true rfl fun h => absurd h hserial

/-- A write to one slot settles a list exactly when it settles each skill. -/
theorem modify_eq_map_settle {skills : List SkillMeta} {slot : ℕ} :
    (skills.modify slot fun skill => { skill with state := .loaded }) =
        skills.map (settle serial) ↔
      (∀ skill, skills[slot]? = some skill →
        { skill with state := .loaded } = settle serial skill) ∧
      ∀ i skill, skills[i]? = some skill → i ≠ slot → skill = settle serial skill := by
  constructor
  · intro heq
    have hget : ∀ i skill, skills[i]? = some skill →
        (if slot = i then { skill with state := .loaded } else skill) = settle serial skill := by
      intro i skill hskill
      have hi := congrArg (·[i]?) heq
      simp only [List.getElem?_modify, List.getElem?_map, hskill, Option.map_eq_map,
        Option.map_some, Option.some.injEq] at hi
      exact hi
    constructor
    · intro skill hskill
      have hslot := hget slot skill hskill
      rwa [if_pos rfl] at hslot
    · intro i skill hskill hne
      have hi := hget i skill hskill
      rwa [if_neg (Ne.symm hne)] at hi
  · intro h
    obtain ⟨hslot, hother⟩ := h
    apply List.ext_getElem?
    intro i
    rw [List.getElem?_modify, List.getElem?_map]
    cases hskill : skills[i]? with
    | none => rfl
    | some skill =>
      by_cases hi : slot = i
      · subst hi
        simp only [Option.map_eq_map, Option.map_some, if_true, hslot skill hskill]
      · simp only [Option.map_eq_map, Option.map_some, if_neg hi]
        rw [← hother i skill hskill (Ne.symm hi)]

end Settle

/-- An `execute` is re-entrant exactly when its slot is undisturbed. -/
theorem reentrant_iff (w : World) (call : Call) : Reentrant w call ↔ Undisturbed w call := by
  have hstep : ∀ {frame frames}, w.frames = frame :: frames → step w .finish =
      some (World.setState frame.slot .loaded { w with frames := frames }) := by
    intro frame frames hframes
    unfold step play
    rw [hframes]
    rfl
  have hsettles : ∀ frame : Frame,
      (w.skills.modify frame.slot fun skill => { skill with state := .loaded }) =
        w.skills.map (settle frame.serial) ↔
      (∀ skill, w.skills[frame.slot]? = some skill →
        if skill.serial = frame.serial then skill.state ≠ .paused else skill.state = .loaded) ∧
      ∀ i skill, w.skills[i]? = some skill → i ≠ frame.slot → skill.serial = frame.serial →
        skill.state = .loaded ∨ skill.state = .paused := by
    intro frame
    simp only [modify_eq_map_settle, loaded_eq_settle, eq_settle]
  constructor
  · intro h frame frames hcall hframes
    subst hcall
    exact (hsettles frame).mp (h frame frames _ rfl hframes (hstep hframes))
  · intro h frame frames w' hcall hframes hrun
    subst hcall
    rw [hstep hframes] at hrun
    cases hrun
    exact (hsettles frame).mpr (h frame frames rfl hframes)

/-- Over a history of calls, nested in any way, every `execute` is re-entrant exactly when its
slot is undisturbed whenever an entry returns. -/
theorem reentrant_iff_undisturbed (w : World) (calls : List Call) :
    Run.AllSteps step Reentrant w calls ↔ Run.AllSteps step Undisturbed w calls := by
  apply Run.allSteps_congr (I := fun _ => True) _ _ trivial
  · intro w call _
    exact reentrant_iff w call
  · intro _ _ _ _ _ _
    trivial

/-- A skill that is paused while it runs is loaded again when its entry returns. A skill whose
entry unloads the skill in front of it runs for ever. -/
theorem execute_disturbed :
    ¬ Run.AllSteps step Reentrant freshWorld
      [.registerL0 obliging [112] 0x2000, .execute [112], .pause [112], .finish] ∧
    ¬ Run.AllSteps step Reentrant freshWorld
      [.registerL0 obliging [112] 0x2000, .registerL0 obliging [113] 0x3000, .execute [113],
        .unload [112], .finish] := by
  constructor
  · intro hall
    have hfinish := (((hall.2 _ rfl).2 _ rfl).2 _ rfl).1
    have hslot := ((reentrant_iff _ _).mp hfinish _ _ rfl rfl).1 _ rfl
    exact hslot rfl
  · intro hall
    have hfinish := ((((hall.2 _ rfl).2 _ rfl).2 _ rfl).2 _ rfl).1
    have hother := ((reentrant_iff _ _).mp hfinish _ _ rfl rfl).2 0 _ rfl (by decide) rfl
    rcases hother with hstate | hstate
    · cases hstate
    · cases hstate

end LingNet.Skill
