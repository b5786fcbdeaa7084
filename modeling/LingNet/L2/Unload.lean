import LingNet.L2.Loader

/-! The unloading of a skill: which descriptors and which memory it gives back. -/
namespace LingNet.L2
open Zig

inductive UnloadError where
  | skillNotFound
  deriving DecidableEq, Repr

/-- `linux.close` of a descriptor that is not negative. -/
def closeFd (fd : ℤ) (w : World) : World :=
  if 0 ≤ fd then { w with closed := fd.toNat :: w.closed } else w

def L2SecurityContext.deinit (ctx : L2SecurityContext) (w : World) : World :=
  closeFd ctx.landlockFd (closeFd ctx.seccompFd w)

/-- `allocator.free` of a slice that lies in an arena, which overwrites it first. The allocator
did not hand it out: `invalidFree` says whether it stops the process then. No bytes are nothing
to free. -/
def freeData (invalidFree : Option Fault) (sl : Gqap.Slice) : Proc World UnloadError Unit :=
  if sl.len = 0 then pure ()
  else do
    Proc.modify fun w =>
      { w with globals := w.globals.store sl.ptr (List.replicate sl.len 0xAA) }
    match invalidFree with
    | none => pure ()
    | some fault => Proc.lift (.trap fault)

/-- The name is a copy of the skill's own, which nothing else refers to. -/
def L2Skill.deinit (invalidFree : Option Fault) (skill : L2Skill) :
    Proc World UnloadError Unit := do
  Proc.modify skill.security.deinit
  freeData invalidFree skill.data

namespace L2SkillLoader

/-- `self.skills.orderedRemove(i)` of the first skill with the name. -/
def orderedRemove (name : List UInt8) (w : World) : World :=
  { w with loader := { w.loader with skills := w.loader.skills.eraseP (·.name = name) } }

def unload (invalidFree : Option Fault) (name : List UInt8) : Proc World UnloadError Unit := do
  let w ← Proc.get
  match w.loader.skills.find? (·.name = name) with
  | none => Proc.fail .skillNotFound
  | some skill => do
    skill.deinit invalidFree
    Proc.modify (orderedRemove name)

section Outcomes

variable {w : World} {invalidFree : Option Fault} {name : List UInt8} {skill : L2Skill}

theorem unload_of_none (h : w.loader.skills.find? (·.name = name) = none) :
    unload invalidFree name w = (.err .skillNotFound, w) := by
  unfold unload
  rw [Proc.bind_of_ok (Proc.get_run w), h]
  rfl

/-- The allocator stops the process at the payload. -/
def Stops (invalidFree : Option Fault) (skill : L2Skill) : Prop :=
  skill.data.len ≠ 0 ∧ invalidFree ≠ none

theorem freeData_of_stops (h : Stops invalidFree skill) (w : World) :
    ∃ t w', freeData invalidFree skill.data w = (.trap t, w') := by
  obtain ⟨hlen, hfree⟩ := h
  obtain ⟨t, rfl⟩ := Option.ne_none_iff_exists'.mp hfree
  unfold freeData
  rw [if_neg hlen]
  exact ⟨t, _, rfl⟩

theorem freeData_run (h : ¬ Stops invalidFree skill) (w : World) :
    ∃ ptr bytes, freeData invalidFree skill.data w =
      (.ok (), { w with globals := w.globals.store ptr bytes }) := by
  unfold freeData
  by_cases hlen : skill.data.len = 0
  · have hnothing : w.globals.store 0 [] = w.globals := by
      unfold Gqap.Globals.store
      simp
    rw [if_pos hlen]
    refine ⟨0, [], ?_⟩
    rw [hnothing]
    rfl
  · obtain rfl : invalidFree = none := by
      by_contra hfree
      exact h ⟨hlen, hfree⟩
    rw [if_neg hlen]
    exact ⟨_, _, rfl⟩

theorem closeFd_keeps (fd : ℤ) (w : World) :
    (closeFd fd w).globals = w.globals ∧ (closeFd fd w).loader = w.loader := by
  unfold closeFd
  split_ifs <;> exact ⟨rfl, rfl⟩

theorem deinit_keeps (ctx : L2SecurityContext) (w : World) :
    (ctx.deinit w).globals = w.globals ∧ (ctx.deinit w).loader = w.loader := by
  obtain ⟨hglobals, hloader⟩ := closeFd_keeps ctx.seccompFd w
  obtain ⟨hglobals', hloader'⟩ := closeFd_keeps ctx.landlockFd (closeFd ctx.seccompFd w)
  exact ⟨hglobals'.trans hglobals, hloader'.trans hloader⟩

theorem unload_of_stops (h : w.loader.skills.find? (·.name = name) = some skill)
    (hstops : Stops invalidFree skill) :
    ∃ t w', unload invalidFree name w = (.trap t, w') := by
  obtain ⟨t, w', hfree⟩ := freeData_of_stops hstops (skill.security.deinit w)
  have hdeinit : skill.deinit invalidFree w = (.trap t, w') := by
    unfold L2Skill.deinit
    rw [Proc.bind_of_ok (Proc.modify_run skill.security.deinit w), hfree]
  refine ⟨t, w', ?_⟩
  unfold unload
  rw [Proc.bind_of_ok (Proc.get_run w), h]
  exact Proc.bind_of_trap hdeinit _

/-- An `unload` that finds its skill does not give the block back to a pool. -/
theorem unload_of_find (h : w.loader.skills.find? (·.name = name) = some skill)
    (hstops : ¬ Stops invalidFree skill) :
    ∃ w' ptr bytes, unload invalidFree name w = (.ok (), w') ∧
      w'.loader.skills = w.loader.skills.eraseP (·.name = name) ∧
      w'.globals = w.globals.store ptr bytes := by
  obtain ⟨hglobals, hloader⟩ := deinit_keeps skill.security w
  obtain ⟨ptr, bytes, hfree⟩ := freeData_run hstops (skill.security.deinit w)
  let w₁ : World := { skill.security.deinit w with
    globals := (skill.security.deinit w).globals.store ptr bytes }
  have hdeinit : skill.deinit invalidFree w = (.ok (), w₁) := by
    unfold L2Skill.deinit
    rw [Proc.bind_of_ok (Proc.modify_run skill.security.deinit w), hfree]
  refine ⟨orderedRemove name w₁, ptr, bytes, ?_, congrArg (·.skills.eraseP (·.name = name)) hloader,
    congrArg (·.store ptr bytes) hglobals⟩
  unfold unload
  rw [Proc.bind_of_ok (Proc.get_run w), h]
  exact Proc.bind_of_ok hdeinit _

end Outcomes
end L2SkillLoader
end LingNet.L2
