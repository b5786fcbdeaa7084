import LingNet.L2.Ledger
import LingNet.Skill.Permanence

/-! Whether an `unload` that succeeds leaves no skill of its name, in the loader of all tiers and
in that of the third tier alone. -/
namespace LingNet
open Zig

section List

variable {α : Type} {p : α → Bool} {l : List α}

/-- Behind the first match there is no other exactly when it was the only one. -/
theorem not_mem_eraseP_iff {a : α} (h : l.find? p = some a) :
    (∀ b ∈ l.eraseP p, ¬ p b = true) ↔ l.countP p = 1 := by
  have hcount : l.countP p = (l.eraseP p).countP p + 1 := by
    rw [(Custody.perm_cons_eraseP h).countP_eq p]
    exact List.countP_cons_of_pos (List.find?_some h)
  have hnone : (l.eraseP p).countP p = 0 ↔ ∀ b ∈ l.eraseP p, ¬ p b = true := List.countP_eq_zero
  rw [← hnone]
  omega

end List

namespace Skill

/-- No skill of the list has the name, and `execute` does not find one. -/
structure Revoked (name : List UInt8) (w : World) : Prop where
  unlisted : ∀ skill ∈ w.skills, skill.name ≠ name
  notFound : (SkillLoader.execute name w).1 = .err .skillNotFound

/-- If the call is an `unload` that succeeds, its name is revoked. -/
def Revokes (w : World) (call : Call) : Prop :=
  ∀ name w', call = .unload name → play w call = some (.ok (), w') → Revoked name w'

/-- If the call is an `unload` that removes a skill, no other skill of the list has its name. -/
def Once (w : World) : Call → Prop
  | .unload name => ∀ skill, w.skills.find? (·.name = name) = some skill →
      skill.state ≠ .running → w.skills.countP (·.name = name) = 1
  | _ => True

section Calls

variable {w w' : World} {name : List UInt8}

theorem revoked_iff : Revoked name w ↔ ∀ skill ∈ w.skills, skill.name ≠ name := by
  constructor
  · exact Revoked.unlisted
  · intro hall
    have hfind : w.skills.find? (·.name = name) = none := by
      apply List.find?_eq_none.mpr
      simpa using hall
    exact ⟨hall, by rw [SkillLoader.execute_of_none hfind]⟩

theorem revoked_removed_iff {skill : SkillMeta}
    (hfind : w.skills.find? (·.name = name) = some skill)
    (hskills : w'.skills = w.skills.eraseP (·.name = name)) :
    Revoked name w' ↔ w.skills.countP (·.name = name) = 1 := by
  rw [revoked_iff, hskills, ← not_mem_eraseP_iff hfind]
  simp

theorem revokes_unload_iff (w : World) (name : List UInt8) :
    Revokes w (.unload name) ↔ Once w (.unload name) := by
  have hplay : play w (.unload name) = some (SkillLoader.unload name w) := rfl
  cases hfind : w.skills.find? (·.name = name) with
  | none =>
    rw [SkillLoader.unload_of_none hfind] at hplay
    apply iff_of_true
    · intro name' w' _ hplay'
      cases hplay.symm.trans hplay'
    · intro skill hskill
      cases hfind.symm.trans hskill
  | some skill =>
    by_cases hstate : skill.state = .running
    · rw [SkillLoader.unload_of_running hfind hstate] at hplay
      apply iff_of_true
      · intro name' w' _ hplay'
        cases hplay.symm.trans hplay'
      · intro skill' hskill hidle
        cases hfind.symm.trans hskill
        exact absurd hstate hidle
    · rw [SkillLoader.unload_of_not_running hfind hstate] at hplay
      constructor
      · intro hall skill' _ _
        exact (revoked_removed_iff hfind rfl).mp (hall name _ rfl hplay)
      · intro honce name' w' hname hplay'
        cases hname
        cases hplay.symm.trans hplay'
        exact (revoked_removed_iff hfind rfl).mpr (honce skill hfind hstate)

theorem revokes_iff (w : World) (call : Call) : Revokes w call ↔ Once w call := by
  cases call with
  | unload name => exact revokes_unload_iff w name
  | registerL0 | loadL1 | loadL2 | execute | finish | pause | others =>
    exact iff_of_true nofun trivial

end Calls

end Skill

namespace L2

/-- If the call is an `unload` that succeeds, no skill of the list has its name. -/
def Revokes (w : World) (call : Call) : Prop :=
  ∀ invalidFree name w', call = .unload invalidFree name →
    L2SkillLoader.unload invalidFree name w = (.ok (), w') →
    ∀ skill ∈ w'.loader.skills, skill.name ≠ name

/-- If the call is an `unload` that removes a skill, no other skill of the list has its name. -/
def Once (w : World) : Call → Prop
  | .unload invalidFree name => ∀ skill, w.loader.skills.find? (·.name = name) = some skill →
      ¬ L2SkillLoader.Stops invalidFree skill → w.loader.skills.countP (·.name = name) = 1
  | .load _ _ _ => True

theorem unlisted_removed_iff {w w' : World} {name : List UInt8} {skill : L2Skill}
    (hfind : w.loader.skills.find? (·.name = name) = some skill)
    (hskills : w'.loader.skills = w.loader.skills.eraseP (·.name = name)) :
    (∀ skill ∈ w'.loader.skills, skill.name ≠ name) ↔
      w.loader.skills.countP (·.name = name) = 1 := by
  rw [hskills, ← not_mem_eraseP_iff hfind]
  simp

theorem revokes_unload_iff (w : World) (invalidFree : Option Fault) (name : List UInt8) :
    Revokes w (.unload invalidFree name) ↔ Once w (.unload invalidFree name) := by
  cases hfind : w.loader.skills.find? (·.name = name) with
  | none =>
    have hrun : L2SkillLoader.unload invalidFree name w = (.err .skillNotFound, w) :=
      L2SkillLoader.unload_of_none hfind
    apply iff_of_true
    · rintro _ _ w' ⟨⟩ hrun'
      cases hrun.symm.trans hrun'
    · intro skill hskill
      cases hfind.symm.trans hskill
  | some skill =>
    by_cases hstops : L2SkillLoader.Stops invalidFree skill
    · obtain ⟨t, w₁, hrun⟩ := L2SkillLoader.unload_of_stops hfind hstops
      apply iff_of_true
      · rintro _ _ w' ⟨⟩ hrun'
        cases hrun.symm.trans hrun'
      · intro skill' hskill hgoes
        cases hfind.symm.trans hskill
        exact absurd hstops hgoes
    · obtain ⟨w₁, ptr, bytes, hrun, hskills, -⟩ := L2SkillLoader.unload_of_find hfind hstops
      constructor
      · intro hall skill' _ _
        exact (unlisted_removed_iff hfind hskills).mp (hall invalidFree name w₁ rfl hrun)
      · rintro honce _ _ w' ⟨⟩ hrun'
        cases hrun.symm.trans hrun'
        exact (unlisted_removed_iff hfind hskills).mpr (honce skill hfind hstops)

theorem revokes_iff (w : World) (call : Call) : Revokes w call ↔ Once w call := by
  cases call with
  | load env name data => exact iff_of_true nofun trivial
  | unload invalidFree name => exact revokes_unload_iff w invalidFree name

end L2

/-- Each unload of a history revokes its name exactly when each of them that removes a skill
finds the only one of its name, for both loaders and from any state. -/
theorem revoked_iff_once (w : Skill.World) (calls : List Skill.Call) (v : L2.World)
    (l2Calls : List L2.Call) :
    (Run.AllSteps Skill.step Skill.Revokes w calls ↔ Run.AllSteps Skill.step Skill.Once w calls) ∧
    (Run.AllSteps L2.step L2.Revokes v l2Calls ↔ Run.AllSteps L2.step L2.Once v l2Calls) := by
  constructor
  · constructor
    · exact Run.AllSteps.imp fun w call => (Skill.revokes_iff w call).mp
    · exact Run.AllSteps.imp fun w call => (Skill.revokes_iff w call).mpr
  · constructor
    · exact Run.AllSteps.imp fun v call => (L2.revokes_iff v call).mp
    · exact Run.AllSteps.imp fun v call => (L2.revokes_iff v call).mpr

open L2.L2SkillLoader in
/-- Of two skills of one name the second stays, and `execute` finds it. -/
theorem second_skill_stays :
    ¬ Run.AllSteps Skill.step Skill.Revokes Skill.freshWorld
      [.registerL0 Skill.obliging [112] 0x2000, .registerL0 Skill.obliging [112] 0x3000,
        .unload [112]] ∧
    ¬ Run.AllSteps L2.step L2.Revokes
      { freshWorld with globals := Gqap.initialGlobals 4096 2 64 }
      [.load (obliging fun _ _ _ => .ok true) [112] (smallData freshWorld.loader.trustedKey),
        .load (obliging fun _ _ _ => .ok true) [112] (smallData freshWorld.loader.trustedKey),
        .unload none [112]] := by
  constructor
  · intro hall
    have hrevoked := ((hall.2 _ rfl).2 _ rfl).1 [112] _ rfl rfl
    exact hrevoked.unlisted _ (List.mem_singleton.mpr rfl) rfl
  · intro hall
    have hunlisted := ((hall.2 _ rfl).2 _ rfl).1 none [112] _ rfl rfl
    exact hunlisted _ (List.mem_singleton.mpr rfl) rfl

end LingNet
