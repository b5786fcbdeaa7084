import LingNet.L2.Descriptors
import LingNet.Lib.Run
import LingNet.Sandbox.Instance

/-! Sandboxes and the `L2` loader in one process, with the ledger of their descriptors: which calls
close a descriptor that the closing instance does not hold. -/
namespace LingNet.Sandbox
open Zig L2

namespace Ledgered

def installLandlockRules (owner : Party) (calls : Syscalls) : Proc L2.Ledgered SandboxError ℤ := do
  Proc.ghost (Descriptors.opened owner calls.rulesetFd)
  if calls.rulesetFd = usizeEnd - 1 ∨ toIsize calls.rulesetFd = -38 then
    Proc.fail .landlockNotSupported
  else if toIsize calls.rulesetFd < 0 then Proc.fail .landlockNotSupported
  else do
    let fd ← Proc.real (Proc.lift (intCast 31 calls.rulesetFd))
    Proc.real (Proc.modify fun w => { w with closed := fd :: w.closed })
    Proc.ghost (Descriptors.closed owner fd)
    if calls.restrictSelf ≠ 0 then Proc.fail .landlockNotSupported
    else pure 0

def init (owner : Party) (calls : Syscalls) (policy : SandboxPolicy) :
    Proc L2.Ledgered SandboxError SandboxInstance := do
  Proc.real (SandboxInstance.validate policy)
  let inst : SandboxInstance := { policy := policy }
  let inst ←
    if SandboxLevel.seccomp.toNat ≤ policy.level.toNat then do
      let fd ← Proc.real (SandboxInstance.installSeccompFilter calls)
      pure { inst with seccompFd := fd }
    else pure inst
  if SandboxLevel.landlock.toNat ≤ policy.level.toNat then do
    let fd ← installLandlockRules owner calls
    pure { inst with landlockFd := fd }
  else pure inst

def deinit (owner : Party) (self : SandboxInstance) : Proc L2.Ledgered SandboxError Unit := do
  L2.Ledgered.closeFd owner self.seccompFd
  L2.Ledgered.closeFd owner self.landlockFd

/-! Without the ledger these are the calls of the sandbox. -/

theorem forgets_installLandlockRules (owner : Party) (calls : Syscalls) :
    Proc.Forgets id (installLandlockRules owner calls)
      (SandboxInstance.installLandlockRules calls) := by
  have hrestrict : Proc.Forgets id
      (if calls.restrictSelf ≠ 0 then Proc.fail SandboxError.landlockNotSupported
        else pure 0 : Proc L2.Ledgered SandboxError ℤ)
      (if calls.restrictSelf ≠ 0 then Proc.fail SandboxError.landlockNotSupported else pure 0) := by
    split_ifs
    · exact Proc.forgets_fail id _
    · exact Proc.forgets_pure id _
  apply Proc.Forgets.after_ghost
  unfold SandboxInstance.installLandlockRules
  by_cases hunsupported : calls.rulesetFd = usizeEnd - 1 ∨ toIsize calls.rulesetFd = -38
  · rw [if_pos hunsupported, if_pos hunsupported]
    exact Proc.forgets_fail id _
  by_cases hnone : toIsize calls.rulesetFd < 0
  · rw [if_neg hunsupported, if_neg hunsupported, if_pos hnone, if_pos hnone]
    exact Proc.forgets_fail id _
  · rw [if_neg hunsupported, if_neg hunsupported, if_neg hnone, if_neg hnone]
    apply (Proc.forgets_real (Proc.lift (intCast 31 calls.rulesetFd))).bind
    intro fd
    apply (Proc.forgets_real (Proc.modify _)).bind
    intro _
    exact hrestrict.after_ghost _

theorem forgets_init (owner : Party) (calls : Syscalls) (policy : SandboxPolicy) :
    Proc.Forgets id (init owner calls policy) (SandboxInstance.init calls policy) := by
  apply (Proc.forgets_real (SandboxInstance.validate policy)).bind
  intro _
  have hlandlock : ∀ inst : SandboxInstance, Proc.Forgets id
      (if SandboxLevel.landlock.toNat ≤ policy.level.toNat then do
        let fd ← installLandlockRules owner calls
        pure { inst with landlockFd := fd }
      else pure inst)
      (if SandboxLevel.landlock.toNat ≤ policy.level.toNat then do
        let fd ← SandboxInstance.installLandlockRules calls
        pure { inst with landlockFd := fd }
      else pure inst) := by
    intro inst
    split_ifs
    · exact (forgets_installLandlockRules owner calls).bind fun fd => Proc.forgets_pure id _
    · exact Proc.forgets_pure id inst
  dsimp only
  by_cases hfilter : SandboxLevel.seccomp.toNat ≤ policy.level.toNat
  · rw [if_pos hfilter, if_pos hfilter]
    apply (Proc.forgets_real (SandboxInstance.installSeccompFilter calls)).bind
    intro fd
    exact (Proc.forgets_pure id _).bind hlandlock
  · rw [if_neg hfilter, if_neg hfilter]
    exact (Proc.forgets_pure id _).bind hlandlock

/-! Starting a sandbox closes what it opened. -/

/-- An answer that is taken for an error is no descriptor. -/
theorem le_of_toIsize_lt {n : ℕ} (h : n = usizeEnd - 1 ∨ toIsize n < 0) : 2 ^ 31 ≤ n := by
  unfold toIsize usizeEnd at h
  split_ifs at h <;> omega

theorem tidy_installLandlockRules (owner : Party) (calls : Syscalls) :
    (installLandlockRules owner calls).Tidy := by
  intro s
  have hghost : (Proc.ghost (Descriptors.opened owner calls.rulesetFd) s :
      Outcome SandboxError Unit × L2.Ledgered) =
        (.ok (), (s.1, s.2.opened owner calls.rulesetFd)) := rfl
  unfold installLandlockRules
  rw [Proc.bind_of_ok hghost]
  by_cases hnone : calls.rulesetFd = usizeEnd - 1 ∨ toIsize calls.rulesetFd < 0
  · have hsame := Descriptors.opened_of_le owner (le_of_toIsize_lt hnone) s.2
    rw [hsame]
    by_cases hunsupported : calls.rulesetFd = usizeEnd - 1 ∨ toIsize calls.rulesetFd = -38
    · rw [if_pos hunsupported]
      exact ⟨rfl, fun _ => rfl⟩
    · rw [if_neg hunsupported, if_pos (by omega)]
      exact ⟨rfl, fun _ => rfl⟩
  · rw [if_neg (by omega), if_neg (by omega)]
    by_cases hfits : calls.rulesetFd < 2 ^ 31
    · have hclosed := Descriptors.closed_opened owner hfits s.2
      rw [Proc.real_lift_bind_of_ok (intCast_of_lt hfits)]
      split_ifs
      · change (((s.2.opened _ _).closed _ _).wild = _ ∧ (_ → (s.2.opened _ _).closed _ _ = _))
        rw [hclosed]
        exact ⟨rfl, fun _ => rfl⟩
      · change (((s.2.opened _ _).closed _ _).wild = _ ∧ (_ → (s.2.opened _ _).closed _ _ = _))
        rw [hclosed]
        exact ⟨rfl, fun _ => rfl⟩
    · rw [Proc.real_lift_bind_of_trap (intCast_of_le (Nat.le_of_not_lt hfits))]
      exact ⟨Descriptors.wild_opened owner calls.rulesetFd s.2, nofun⟩

theorem tidy_init (owner : Party) (calls : Syscalls) (policy : SandboxPolicy) :
    (init owner calls policy).Tidy := by
  apply (Proc.tidy_real (SandboxInstance.validate policy)).bind
  intro _
  have hlandlock : ∀ inst : SandboxInstance, Proc.Tidy
      (if SandboxLevel.landlock.toNat ≤ policy.level.toNat then do
        let fd ← installLandlockRules owner calls
        pure { inst with landlockFd := fd }
      else pure inst) := by
    intro inst
    split_ifs
    · exact (tidy_installLandlockRules owner calls).bind fun fd => Proc.tidy_pure _
    · exact Proc.tidy_pure inst
  dsimp only
  by_cases hfilter : SandboxLevel.seccomp.toNat ≤ policy.level.toNat
  · rw [if_pos hfilter]
    apply (Proc.tidy_real (SandboxInstance.installSeccompFilter calls)).bind
    intro fd
    exact (Proc.tidy_pure _).bind hlandlock
  · rw [if_neg hfilter]
    exact (Proc.tidy_pure _).bind hlandlock

end Ledgered

/-! What starting a sandbox leaves in its instance. -/

section Init

variable {w w₀ : World}

theorem toNat_le_iff {level : SandboxLevel} :
    SandboxLevel.seccomp.toNat ≤ level.toNat ↔ level ≠ .none := by
  cases level <;> decide

theorem ensures_validate (policy : SandboxPolicy) (h : w.loader = w₀.loader) :
    (SandboxInstance.validate policy).Ensures (fun w => w.loader = w₀.loader)
      (fun _ => True) w := by
  apply Proc.ensures_of_final
  unfold SandboxInstance.validate Proc.final
  cases policy.validate <;> exact h

theorem ensures_installSeccompFilter (calls : Syscalls) (h : w.loader = w₀.loader) :
    (SandboxInstance.installSeccompFilter calls).Ensures (fun w => w.loader = w₀.loader)
      (fun fd => fd = 0) w := by
  unfold SandboxInstance.installSeccompFilter
  dsimp only
  split_ifs
  · exact ⟨h, nofun⟩
  · constructor
    · exact h
    · intro fd hfd
      cases hfd
      rfl

theorem ensures_installLandlockRules (calls : Syscalls) (h : w.loader = w₀.loader) :
    (SandboxInstance.installLandlockRules calls).Ensures (fun w => w.loader = w₀.loader)
      (fun _ => True) w := by
  apply Proc.ensures_of_final
  unfold SandboxInstance.installLandlockRules intCast
  split_ifs <;> exact h

/-- An instance is marked by its level, whatever the system calls answer. -/
theorem ensures_init (calls : Syscalls) (policy : SandboxPolicy) (h : w.loader = w₀.loader) :
    (SandboxInstance.init calls policy).Ensures (fun w => w.loader = w₀.loader)
      SandboxInstance.Marked w := by
  have hlandlock : ∀ (inst : SandboxInstance) (w : World), inst.Marked → inst.policy = policy →
      w.loader = w₀.loader → Proc.Ensures (fun w => w.loader = w₀.loader) SandboxInstance.Marked
        (if SandboxLevel.landlock.toNat ≤ policy.level.toNat then do
          let fd ← SandboxInstance.installLandlockRules calls
          pure { inst with landlockFd := fd }
        else pure inst) w := by
    rintro inst w hmarked rfl h
    split_ifs with hlevel
    · apply (ensures_installLandlockRules calls h).bind
      intro fd w _ h
      constructor
      · exact h
      · intro inst' hinst
        cases hinst
        constructor
        · intro hnone
          change inst.policy.level = .none at hnone
          rw [hnone] at hlevel
          exact absurd hlevel (by decide)
        · exact hmarked.filter
    · constructor
      · exact h
      · intro inst' hinst
        cases hinst
        exact hmarked
  unfold SandboxInstance.init
  apply (ensures_validate policy h).bind
  intro _ w _ h
  dsimp only
  by_cases hfilter : SandboxLevel.seccomp.toNat ≤ policy.level.toNat
  · rw [if_pos hfilter]
    apply (ensures_installSeccompFilter calls h).bind
    rintro fd w rfl h
    apply hlandlock _ w _ rfl h
    exact ⟨fun hnone => absurd hnone (toNat_le_iff.mp hfilter), fun _ => rfl⟩
  · rw [if_neg hfilter]
    apply hlandlock _ w _ rfl h
    exact ⟨fun _ => ⟨rfl, rfl⟩, fun hlevel => absurd (toNat_le_iff.mpr hlevel) hfilter⟩

end Init

/-- The process, its ledger, the sandboxes that were started with their numbers, and the number of
calls so far. -/
structure Process where
  ledgered : L2.Ledgered
  sandboxes : List (ℕ × SandboxInstance) := []
  calls : ℕ := 0

/-- A sandbox is named by its position in the list, and may be ended more than once. -/
inductive Op where
  | init (calls : Syscalls) (policy : SandboxPolicy)
  | deinit (i : ℕ)
  | loadFromMemory (env : Env) (name : List UInt8) (data : Bytes)
  | loadFromFile (env : Env) (calls : FileCalls) (path : List UInt8)
  | unload (invalidFree : Option Fault) (name : List UInt8)

namespace Process

/-- The process behind a call of the loader. -/
def behind {ε α : Type} (p : Process) (r : Outcome ε α × L2.Ledgered) : Bool × Process :=
  (r.1.stops, { p with ledgered := r.2, calls := p.calls + 1 })

/-- Whether a call stops the process, and what it leaves behind. -/
def play (p : Process) : Op → Bool × Process
  | .init calls policy =>
    let r := Ledgered.init (.sandbox p.calls) calls policy p.ledgered
    match r.1 with
    | .ok inst =>
      (false, { ledgered := r.2, sandboxes := p.sandboxes ++ [(p.calls, inst)],
                calls := p.calls + 1 })
    | .err _ => p.behind r
    | .trap _ => p.behind r
  | .deinit i =>
    match p.sandboxes[i]? with
    | none => (false, p)
    | some (n, inst) => p.behind (Ledgered.deinit (.sandbox n) inst p.ledgered)
  | .loadFromMemory env name data => p.behind (L2.Ledgered.loadFromMemory env name data p.ledgered)
  | .loadFromFile env calls path =>
    p.behind (L2.Ledgered.loadFromFile p.calls env calls path p.ledgered)
  | .unload invalidFree name => p.behind (L2.Ledgered.unload invalidFree name p.ledgered)

def step (p : Process) (op : Op) : Option Process :=
  if (p.play op).1 then none else some (p.play op).2

/-- The call closes no descriptor that the instance which closes it does not hold. -/
def ClosesOwn (p : Process) (op : Op) : Prop :=
  (p.play op).2.ledgered.2.wild = p.ledgered.2.wild

/-- No sandbox with a mark is ended, and no skill is unloaded. -/
def LeavesMarks (p : Process) : Op → Prop
  | .deinit i => ∀ inst ∈ p.sandboxes[i]?, inst.2.policy.level = .none
  | .unload _ name => p.ledgered.1.loader.skills.find? (·.name = name) = none
  | _ => True

/-- Between calls nothing is held, and every instance has its marks. -/
structure Quiet (p : Process) : Prop where
  held : p.ledgered.2.held = []
  skills : L2.Ledgered.Marked p.ledgered.1
  sandboxes : ∀ inst ∈ p.sandboxes, inst.2.Marked

/-- A process in which nothing was called yet. -/
def fresh (globals : Gqap.Globals) (trustedKey : PublicKey) (allowUnsafeFallback : Bool) :
    Process where
  ledgered :=
    ({ globals := globals, arenas := [], filters := [], closed := []
       loader := ⟨[], trustedKey, allowUnsafeFallback⟩ }, {})

theorem quiet_fresh (globals : Gqap.Globals) (trustedKey : PublicKey)
    (allowUnsafeFallback : Bool) : (fresh globals trustedKey allowUnsafeFallback).Quiet where
  held := rfl
  skills := nofun
  sandboxes := nofun

section Steps

variable {p p' : Process}

/-- A tidy call of the loader that keeps the marks. -/
theorem behind_tidy {ε : Type} {x : Proc L2.Ledgered ε Unit} {y : Proc World ε Unit} (q : p.Quiet)
    (ht : x.Tidy) (hf : Proc.Forgets id x y) (hm : L2.Ledgered.Marked (y.final p.ledgered.1)) :
    (p.behind (x p.ledgered)).2.ledgered.2.wild = p.ledgered.2.wild ∧
      ((p.behind (x p.ledgered)).1 = false → (p.behind (x p.ledgered)).2.Quiet) := by
  have hs := ht p.ledgered
  have hreal : y.final p.ledgered.1 = (x p.ledgered).2.1 := congrArg Prod.snd (hf p.ledgered)
  refine ⟨hs.1, fun hgoes => ⟨?_, ?_, q.sandboxes⟩⟩
  · have hsame : (x p.ledgered).2.2 = p.ledgered.2 := hs.2 hgoes
    change (x p.ledgered).2.2.held = []
    rw [hsame]
    exact q.held
  · rw [hreal] at hm
    exact hm

theorem init_tidy (q : p.Quiet) (calls : Syscalls) (policy : SandboxPolicy) :
    (p.play (.init calls policy)).2.ledgered.2.wild = p.ledgered.2.wild ∧
      ((p.play (.init calls policy)).1 = false → (p.play (.init calls policy)).2.Quiet) := by
  have hs := Ledgered.tidy_init (.sandbox p.calls) calls policy p.ledgered
  have hf := Ledgered.forgets_init (.sandbox p.calls) calls policy p.ledgered
  obtain ⟨hloader, hmarked⟩ : Proc.Ensures (fun w => w.loader = p.ledgered.1.loader)
      SandboxInstance.Marked (SandboxInstance.init calls policy) p.ledgered.1 :=
    ensures_init calls policy rfl
  have hskills : L2.Ledgered.Marked
      ((SandboxInstance.init calls policy).final p.ledgered.1) := by
    unfold L2.Ledgered.Marked
    rw [hloader]
    exact q.skills
  unfold Proc.final at hskills
  unfold Proc.result at hmarked
  rw [hf] at hskills hmarked
  unfold play
  dsimp only
  rcases h : Ledgered.init (.sandbox p.calls) calls policy p.ledgered with ⟨inst | e | t, s⟩
  · rw [h] at hs hskills hmarked
    have hsame : s.2 = p.ledgered.2 := hs.2 rfl
    refine ⟨hs.1, fun _ => ⟨?_, hskills, ?_⟩⟩
    · change s.2.held = []
      rw [hsame]
      exact q.held
    · intro other hother
      rcases List.mem_append.mp hother with hother | hother
      · exact q.sandboxes other hother
      · rw [List.mem_singleton.mp hother]
        exact hmarked inst rfl
  · rw [h] at hs hskills
    have hsame : s.2 = p.ledgered.2 := hs.2 rfl
    refine ⟨hs.1, fun _ => ⟨?_, hskills, q.sandboxes⟩⟩
    change s.2.held = []
    rw [hsame]
    exact q.held
  · rw [h] at hs
    exact ⟨hs.1, nofun⟩

/-- Ending a sandbox closes the fields that are not negative. -/
theorem play_deinit {i n : ℕ} {inst : SandboxInstance} (h : p.sandboxes[i]? = some (n, inst)) :
    p.play (.deinit i) = (false, { p with
      ledgered := (inst.deinit p.ledgered.1,
        (p.ledgered.2.closedFd (.sandbox n) inst.seccompFd).closedFd (.sandbox n) inst.landlockFd)
      calls := p.calls + 1 }) := by
  dsimp only [play]
  rw [h]
  rfl

theorem play_deinit_none {i : ℕ} (h : p.sandboxes[i]? = none) :
    p.play (.deinit i) = (false, p) := by
  dsimp only [play]
  rw [h]

/-- Two closes, of which one is of a descriptor that nobody holds. -/
theorem wild_ne {d : Descriptors Party} (h : d.held = []) {a b : ℤ} (hab : 0 ≤ a ∨ 0 ≤ b)
    (owner : Party) : ((d.closedFd owner a).closedFd owner b).wild ≠ d.wild := by
  intro heq
  have hlength := congrArg List.length heq
  have hfirst := Descriptors.length_wild_closedFd d owner a
  have hsecond := Descriptors.length_wild_closedFd (d.closedFd owner a) owner b
  rcases hab with ha | hb
  · rw [Descriptors.closedFd_of_held_nil h ha] at hfirst hsecond hlength
    simp only [List.length_cons] at hsecond
    omega
  · have hheld := Descriptors.held_closedFd h owner a
    rw [Descriptors.closedFd_of_held_nil hheld hb] at hlength
    simp only [List.length_cons] at hlength
    omega

theorem deinit_iff (q : p.Quiet) (i : ℕ) :
    p.ClosesOwn (.deinit i) ↔ p.LeavesMarks (.deinit i) := by
  unfold ClosesOwn LeavesMarks
  cases h : p.sandboxes[i]? with
  | none =>
    rw [play_deinit_none h]
    dsimp only
    rw [h]
    exact iff_of_true rfl nofun
  | some r =>
    obtain ⟨n, inst⟩ := r
    have hmarked : inst.Marked := q.sandboxes (n, inst) (List.mem_of_getElem? h)
    have hlevel : (∀ inst ∈ p.sandboxes[i]?, inst.2.policy.level = .none) ↔
        inst.policy.level = .none := by
      simp [h]
    apply Iff.trans _ hlevel.symm
    rw [play_deinit h]
    by_cases hnone : inst.policy.level = .none
    · obtain ⟨hseccomp, hlandlock⟩ := hmarked.none hnone
      simp [hnone, hseccomp, hlandlock, Descriptors.closedFd]
    · have hwild := wild_ne q.held (.inl (hmarked.filter hnone).ge) (.sandbox n)
        (b := inst.landlockFd)
      exact iff_of_false hwild hnone

theorem unload_iff (q : p.Quiet) (invalidFree : Option Fault) (name : List UInt8) :
    p.ClosesOwn (.unload invalidFree name) ↔ p.LeavesMarks (.unload invalidFree name) := by
  change (L2.Ledgered.unload invalidFree name p.ledgered).2.2.wild = _ ↔
    p.ledgered.1.loader.skills.find? (·.name = name) = none
  cases h : p.ledgered.1.loader.skills.find? (·.name = name) with
  | none =>
    rw [L2.Ledgered.unload_of_none invalidFree h]
    exact iff_of_true rfl rfl
  | some skill =>
    have hmark := q.skills skill (List.mem_of_find?_eq_some h)
    rw [L2.Ledgered.unload_ledger h]
    have hwild := wild_ne q.held (.inr hmark.ge) (.context skill.security.untrustedArena)
      (a := skill.security.seccompFd)
    exact iff_of_false hwild (Option.some_ne_none skill)

theorem closesOwn_iff (q : p.Quiet) (op : Op) : p.ClosesOwn op ↔ p.LeavesMarks op := by
  cases op with
  | init calls policy => exact iff_of_true (init_tidy q calls policy).1 trivial
  | deinit i => exact deinit_iff q i
  | loadFromMemory env name data =>
    have hload := behind_tidy q (L2.Ledgered.tidy_loadFromMemory env name data)
      (L2.Ledgered.forgets_loadFromMemory env name data)
      (L2.Ledgered.marked_loadFromMemory env name data q.skills).1
    exact iff_of_true hload.1 trivial
  | loadFromFile env calls path =>
    have hload := behind_tidy q (L2.Ledgered.tidy_loadFromFile p.calls env calls path)
      (L2.Ledgered.forgets_loadFromFile p.calls env calls path)
      (L2.Ledgered.marked_loadFromFile env calls path q.skills).1
    exact iff_of_true hload.1 trivial
  | unload invalidFree name => exact unload_iff q invalidFree name

theorem step_eq_some {op : Op} (h : p.step op = some p') :
    (p.play op).1 = false ∧ (p.play op).2 = p' := by
  unfold step at h
  split_ifs at h with hstops
  exact ⟨eq_false_of_ne_true hstops, Option.some.inj h⟩

theorem quiet_step (q : p.Quiet) {op : Op} (hmarks : p.LeavesMarks op)
    (h : p.step op = some p') : p'.Quiet := by
  obtain ⟨hgoes, rfl⟩ := step_eq_some h
  cases op with
  | init calls policy => exact (init_tidy q calls policy).2 hgoes
  | deinit i =>
    cases h : p.sandboxes[i]? with
    | none =>
      rw [play_deinit_none h]
      exact q
    | some r =>
      obtain ⟨n, inst⟩ := r
      have hlevel : inst.policy.level = .none := hmarks (n, inst) h
      have hmarked : inst.Marked := q.sandboxes (n, inst) (List.mem_of_getElem? h)
      obtain ⟨hseccomp, hlandlock⟩ := hmarked.none hlevel
      rw [play_deinit h]
      unfold SandboxInstance.deinit
      rw [hseccomp, hlandlock]
      exact ⟨q.held, q.skills, q.sandboxes⟩
  | loadFromMemory env name data =>
    exact (behind_tidy q (L2.Ledgered.tidy_loadFromMemory env name data)
      (L2.Ledgered.forgets_loadFromMemory env name data)
      (L2.Ledgered.marked_loadFromMemory env name data q.skills).1).2 hgoes
  | loadFromFile env calls path =>
    exact (behind_tidy q (L2.Ledgered.tidy_loadFromFile p.calls env calls path)
      (L2.Ledgered.forgets_loadFromFile p.calls env calls path)
      (L2.Ledgered.marked_loadFromFile env calls path q.skills).1).2 hgoes
  | unload invalidFree name =>
    have hrun := L2.Ledgered.unload_of_none invalidFree hmarks
    change Quiet { p with
      ledgered := (L2.Ledgered.unload invalidFree name p.ledgered).2, calls := p.calls + 1 }
    rw [hrun]
    exact ⟨q.held, q.skills, q.sandboxes⟩

end Steps

/-- Over whole histories from the start: every descriptor is closed by the instance that holds it
exactly where no sandbox above the lowest level is ended and no skill is unloaded. -/
theorem closes_own_iff (globals : Gqap.Globals) (trustedKey : PublicKey)
    (allowUnsafeFallback : Bool) (ops : List Op) :
    Run.AllSteps step ClosesOwn (fresh globals trustedKey allowUnsafeFallback) ops ↔
      Run.AllSteps step LeavesMarks (fresh globals trustedKey allowUnsafeFallback) ops := by
  apply Run.allSteps_congr (I := Quiet)
  · exact fun p op q => closesOwn_iff q op
  · exact fun p op p' q hmarks h => quiet_step q hmarks h
  · exact quiet_fresh globals trustedKey allowUnsafeFallback

/-- System calls that succeed. -/
def obligingCalls : Syscalls := ⟨0, 3, 0⟩

/-- A full sandbox that is started and ended closes descriptor 0, which it never opened. -/
theorem deinit_closes_stdin :
    ¬ Run.AllSteps step ClosesOwn
      (fresh (Gqap.initialGlobals 4096 1 64) (List.Vector.replicate 32 0) false)
      [.init obligingCalls {}, .deinit 0] := by
  intro hall
  have hdeinit := (hall.2 _ rfl).1
  have hlength := congrArg List.length hdeinit
  exact absurd hlength (by decide)

end Process
end LingNet.Sandbox
