import LingNet.Lib.Amortized
import LingNet.Gqap.Machine
import Mathlib.Tactic.GCongr
import Mathlib.Tactic.Ring

/-! Progress of the pools under concurrency. An exchange fails only where another thread has
written that head since it was loaded, so the retries of all threads are paid for by the writes
that succeeded, and some thread always finishes. -/
namespace LingNet.Gqap

namespace Event

def thread : Event → ThreadId
  | .start t _ | .advance t => t

def starts : Event → ℕ
  | .start _ _ => 1
  | .advance _ => 0

end Event

namespace Machine
open Function

/-- Whether the head a thread carries is no longer the head of its list. -/
def stale (k : Chain.Links PoolId BlockId) : Pc → ℕ
  | .popNext p _ head | .popExchange p _ head _ => if k.head p = some head then 0 else 1
  | .pushStore p _ head | .pushExchange p _ head => if k.head p = head then 0 else 1
  | _ => 0

/-- An exchange that finds another head than the one it expects, and goes round the loop. -/
def failed (σ : Machine) : Event → ℕ
  | .start _ _ => 0
  | .advance t =>
    match σ.pc t with
    | .popExchange p _ head _ => if σ.links.head p = some head then 0 else 1
    | .pushExchange p _ head => if σ.links.head p = head then 0 else 1
    | _ => 0

/-- A step that writes a head: an exchange that succeeds, or the store of `popSafe`. -/
def headWrites (σ : Machine) : Event → ℕ
  | .start _ _ => 0
  | .advance t =>
    match σ.pc t with
    | .popExchange p _ head _ => if σ.links.head p = some head then 1 else 0
    | .pushExchange p _ head => if σ.links.head p = head then 1 else 0
    | .safeStore _ _ _ => 1
    | _ => 0

/-- A step after which its thread has nothing left to do. -/
def finished (σ : Machine) (e : Event) : ℕ :=
  match step σ e with
  | some σ' => if σ'.pc e.thread = .idle then 1 else 0
  | none => 0

/-- The accesses to shared variables that a step stands for. Beside its own one they are those that
never fail and that no other step depends on: the load of `g_pools_initialized` with which a pop
begins, the update of a `count` behind the write of a head, and that of `g_total_sanitized` behind
a block that `popSafe` gave to the sanitizer. -/
def accesses (σ : Machine) : Event → ℕ
  | .start _ .commonPop | .start _ .l2Pop | .start _ .incrementGeneration => 1
  | .start _ _ => 0
  | .advance t =>
    match σ.pc t with
    | .initGen => 2
    | .popLoad .l2 (some _) => if σ.links.head .l2 = none then 2 else 1
    | .popExchange p _ head _ => if σ.links.head p = some head then 2 else 1
    | .pushExchange p _ head => if σ.links.head p = head then 2 else 1
    | .safeStore sanitizing _ _ => if sanitizing then 3 else 2
    | _ => 1

/-- The accesses left to a thread whose exchanges all succeed. -/
def work : Pc → ℕ
  | .idle => 0
  | .initGen => 10
  | .deinitGen _ => 6
  | .sanitizeGen => 11
  | .popLoad _ none => 4
  | .popLoad p (some _) => if p = .l2 then 8 else 6
  | .popNext _ _ _ => 3
  | .popExchange _ _ _ _ => 2
  | .retire _ _ => 5
  | .pushLoad _ _ => 4
  | .pushStore _ _ _ => 3
  | .pushExchange _ _ _ => 2
  | .safeLoad sanitizing _ => if sanitizing then 10 else 5
  | .safeCheck sanitizing _ _ => if sanitizing then 9 else 4
  | .safeNext sanitizing _ => if sanitizing then 8 else 3
  | .safeStore sanitizing _ _ => if sanitizing then 7 else 2

/-- The heads a thread may still write before it is idle. -/
def writesLeft : Pc → ℕ
  | .idle => 0
  | .sanitizeGen => 2
  | .safeLoad sanitizing _ | .safeCheck sanitizing _ _ | .safeNext sanitizing _
  | .safeStore sanitizing _ _ => if sanitizing then 2 else 1
  | _ => 1

/-- What one step costs its thread, and what it leaves alone. -/
structure Paid (σ : Machine) (e : Event) (σ' : Machine) : Prop where
  others : ∀ u, u ≠ e.thread → σ'.pc u = σ.pc u
  heads : σ.headWrites e = 0 → σ'.links.head = σ.links.head
  stale : σ.failed e + stale σ'.links (σ'.pc e.thread) ≤ stale σ.links (σ.pc e.thread)
  work : σ.accesses e + work (σ'.pc e.thread) ≤
    11 * e.starts + 7 * σ.failed e + work (σ.pc e.thread)
  writes : σ.headWrites e + writesLeft (σ'.pc e.thread) ≤
    2 * e.starts + writesLeft (σ.pc e.thread)

variable {σ σ' : Machine} {t : ThreadId}

theorem work_afterEmpty {p : PoolId} {init : Option ℕ} (hpc : σ.pc t = .popLoad p init)
    (hhead : σ.links.head p = none) :
    σ.accesses (.advance t) + work (afterEmpty p init) ≤ work (.popLoad p init) := by
  cases init with
  | none => simp [afterEmpty, work, accesses, hpc]
  | some gen => cases p <;> simp [afterEmpty, work, accesses, hpc, hhead]

theorem writesLeft_afterEmpty_le (p : PoolId) (init : Option ℕ) :
    writesLeft (afterEmpty p init) ≤ 1 := by
  cases init with
  | none => simp [afterEmpty, writesLeft]
  | some gen => cases p <;> simp [afterEmpty, writesLeft]

@[simp] theorem stale_afterEmpty (k : Chain.Links PoolId BlockId) (p : PoolId)
    (init : Option ℕ) : stale k (afterEmpty p init) = 0 := by
  cases init with
  | none => simp [afterEmpty, stale]
  | some gen => cases p <;> simp [afterEmpty, stale]

theorem work_popLoad_le (p : PoolId) (init : Option ℕ) : work (.popLoad p init) ≤ 8 := by
  cases init with
  | none => simp [work]
  | some gen => cases p <;> simp [work]

theorem le_work_popLoad (p : PoolId) (init : Option ℕ) : 4 ≤ work (.popLoad p init) := by
  cases init with
  | none => simp [work]
  | some gen => cases p <;> simp [work]

/-- A step that moves its thread on and does nothing else. -/
theorem paid_goto {pc pc' : Pc} (hpc : σ.pc t = pc) (hfail : σ.failed (.advance t) = 0)
    (hwrite : σ.headWrites (.advance t) = 0) (hstale : stale σ.links pc' ≤ stale σ.links pc)
    (hwork : σ.accesses (.advance t) + work pc' ≤ work pc)
    (hleft : writesLeft pc' ≤ writesLeft pc) : Paid σ (.advance t) (σ.goto t pc') where
  others u hu := pc_goto_of_ne σ hu pc'
  heads _ := rfl
  stale := by simpa [Event.thread, hfail, hpc] using hstale
  work := by
    simp only [Event.thread, Event.starts, hfail, hpc, pc_goto_self]
    omega
  writes := by simpa [Event.thread, Event.starts, hwrite, hpc] using hleft

/-- A failed exchange goes back to its load. -/
theorem paid_retry {pc pc' : Pc} (hpc : σ.pc t = pc) (hfail : σ.failed (.advance t) = 1)
    (hwrite : σ.headWrites (.advance t) = 0) (hstale : stale σ.links pc = 1)
    (hfresh : stale σ.links pc' = 0) (hwork : work pc' ≤ 8) (hone : σ.accesses (.advance t) = 1)
    (htwo : work pc = 2) (hleft : writesLeft pc' ≤ writesLeft pc) :
    Paid σ (.advance t) (σ.goto t pc') where
  others u hu := pc_goto_of_ne σ hu pc'
  heads _ := rfl
  stale := by simp [Event.thread, hfail, hpc, hstale, hfresh]
  work := by
    simp only [Event.thread, Event.starts, hfail, hpc, pc_goto_self, hone, htwo]
    omega
  writes := by simpa [Event.thread, Event.starts, hwrite, hpc] using hleft

/-- A step that writes a head ends the exchange, or leaves only a push to do. -/
theorem paid_write {pc q : Pc} (hpc : σ.pc t = pc) (hfail : σ.failed (.advance t) = 0)
    (hwrite : σ.headWrites (.advance t) = 1) (hfresh : stale σ'.links q = 0)
    (hwork : σ.accesses (.advance t) + work q ≤ work pc) (hleft : writesLeft q < writesLeft pc)
    (hq : σ'.pc = update σ.pc t q) : Paid σ (.advance t) σ' where
  others u hu := by
    have hne : u ≠ t := hu
    rw [hq, update_of_ne hne]
  heads h := by omega
  stale := by simp [Event.thread, hfail, hq, hfresh]
  work := by
    simp only [Event.thread, Event.starts, hfail, hpc, hq, update_self]
    omega
  writes := by
    simp only [Event.thread, Event.starts, hwrite, hpc, hq, update_self]
    omega

theorem paid_popLoad {p : PoolId} {init : Option ℕ} (hpc : σ.pc t = .popLoad p init)
    (h : σ.advance t = some σ') : Paid σ (.advance t) σ' := by
  have hfail : σ.failed (.advance t) = 0 := by simp [failed, hpc]
  have hwrite : σ.headWrites (.advance t) = 0 := by simp [headWrites, hpc]
  cases hhead : σ.links.head p with
  | none =>
    simp only [advance, hpc, hhead, Option.some.injEq] at h
    subst h
    have hleft := writesLeft_afterEmpty_le p init
    exact paid_goto hpc hfail hwrite (by simp) (work_afterEmpty hpc hhead) hleft
  | some head =>
    simp only [advance, hpc, hhead, Option.some.injEq] at h
    subst h
    have hwork := le_work_popLoad p init
    have hnext : work (.popNext p init head) = 3 := rfl
    have hone : σ.accesses (.advance t) = 1 := by
      cases p <;> cases init <;> simp [accesses, hpc, hhead]
    exact paid_goto hpc hfail hwrite (by simp [stale, hhead]) (by omega) le_rfl

theorem paid_popExchange {p : PoolId} {init : Option ℕ} {head : BlockId} {next : Option BlockId}
    (hpc : σ.pc t = .popExchange p init head next) (h : σ.advance t = some σ') :
    Paid σ (.advance t) σ' := by
  by_cases hhead : σ.links.head p = some head
  · have hfail : σ.failed (.advance t) = 0 := by simp [failed, hpc, hhead]
    have hwrite : σ.headWrites (.advance t) = 1 := by simp [headWrites, hpc, hhead]
    simp only [advance, hpc, if_pos hhead, Option.some.injEq] at h
    subst h
    exact paid_write (q := .idle) hpc hfail hwrite rfl (by simp [accesses, hpc, hhead, work])
      Nat.zero_lt_one rfl
  · have hfail : σ.failed (.advance t) = 1 := by simp [failed, hpc, hhead]
    have hwrite : σ.headWrites (.advance t) = 0 := by simp [headWrites, hpc, hhead]
    simp only [advance, hpc, if_neg hhead, Option.some.injEq] at h
    subst h
    exact paid_retry hpc hfail hwrite (by simp [stale, hhead]) rfl (work_popLoad_le p init)
      (by simp [accesses, hpc, hhead]) rfl le_rfl

theorem paid_pushExchange {p : PoolId} {b : BlockId} {head : Option BlockId}
    (hpc : σ.pc t = .pushExchange p b head) (h : σ.advance t = some σ') :
    Paid σ (.advance t) σ' := by
  by_cases hhead : σ.links.head p = head
  · have hfail : σ.failed (.advance t) = 0 := by simp [failed, hpc, hhead]
    have hwrite : σ.headWrites (.advance t) = 1 := by simp [headWrites, hpc, hhead]
    simp only [advance, hpc, if_pos hhead, Option.some.injEq] at h
    subst h
    exact paid_write (q := .idle) hpc hfail hwrite rfl (by simp [accesses, hpc, hhead, work])
      Nat.zero_lt_one rfl
  · have hfail : σ.failed (.advance t) = 1 := by simp [failed, hpc, hhead]
    have hwrite : σ.headWrites (.advance t) = 0 := by simp [headWrites, hpc, hhead]
    simp only [advance, hpc, if_neg hhead, Option.some.injEq] at h
    subst h
    exact paid_retry hpc hfail hwrite (by simp [stale, hhead]) rfl (by simp [work])
      (by simp [accesses, hpc, hhead]) rfl le_rfl

theorem paid_safeCheck {sanitizing : Bool} {gen : ℕ} {head : BlockId}
    (hpc : σ.pc t = .safeCheck sanitizing gen head) (h : σ.advance t = some σ') :
    Paid σ (.advance t) σ' := by
  have hfail : σ.failed (.advance t) = 0 := by simp [failed, hpc]
  have hwrite : σ.headWrites (.advance t) = 0 := by simp [headWrites, hpc]
  simp only [advance, hpc] at h
  cases hadd : (Zig.add (σ.retiredGen head) 1 : Zig.Outcome ArenaError ℕ) with
  | ok due =>
    simp only [hadd, Option.some.injEq] at h
    subst h
    by_cases hdue : gen ≤ due
    · simp only [if_pos hdue]
      exact paid_goto hpc hfail hwrite (by simp [stale])
        (by cases sanitizing <;> simp [accesses, hpc, work])
        (by simp [writesLeft])
    · simp only [if_neg hdue]
      exact paid_goto hpc hfail hwrite (by simp [stale])
        (by cases sanitizing <;> simp [accesses, hpc, work])
        le_rfl
  | err e => simp [hadd] at h
  | trap f => simp [hadd] at h

theorem paid_of_advance (h : σ.advance t = some σ') : Paid σ (.advance t) σ' := by
  cases hpc : σ.pc t with
  | idle => simp [advance, hpc] at h
  | popLoad p init => exact paid_popLoad hpc h
  | popExchange p init head next => exact paid_popExchange hpc h
  | pushExchange p b head => exact paid_pushExchange hpc h
  | safeCheck sanitizing gen head => exact paid_safeCheck hpc h
  | safeStore sanitizing head next =>
    have hfail : σ.failed (.advance t) = 0 := by simp [failed, hpc]
    have hwrite : σ.headWrites (.advance t) = 1 := by simp [headWrites, hpc]
    simp only [advance, hpc, Option.some.injEq] at h
    subst h
    refine paid_write hpc hfail hwrite ?_ ?_ ?_ rfl <;>
      cases sanitizing <;> simp [accesses, hpc, stale, work, writesLeft]
  | safeLoad sanitizing gen =>
    have hfail : σ.failed (.advance t) = 0 := by simp [failed, hpc]
    have hwrite : σ.headWrites (.advance t) = 0 := by simp [headWrites, hpc]
    cases hhead : σ.links.head .quarantine with
    | none =>
      simp only [advance, hpc, hhead, Option.some.injEq] at h
      subst h
      exact paid_goto hpc hfail hwrite (by simp [stale])
        (by cases sanitizing <;> simp [accesses, hpc, work])
        (by simp [writesLeft])
    | some head =>
      simp only [advance, hpc, hhead, Option.some.injEq] at h
      subst h
      exact paid_goto hpc hfail hwrite (by simp [stale])
        (by cases sanitizing <;> simp [accesses, hpc, work])
        le_rfl
  | pushStore p b head =>
    have hfail : σ.failed (.advance t) = 0 := by simp [failed, hpc]
    have hwrite : σ.headWrites (.advance t) = 0 := by simp [headWrites, hpc]
    simp only [advance, hpc, Option.some.injEq] at h
    subst h
    -- the store changes a `pool_next`, not a head: the push is as stale as it was
    exact {
      others := fun u hu => pc_goto_of_ne _ hu _
      heads := fun _ => rfl
      stale := by
        have hsame : stale (σ.links.setNext b head) (.pushExchange p b head) =
          stale σ.links (.pushStore p b head) := rfl
        simp only [Event.thread, hfail, hpc, links_goto, pc_goto_self, hsame]
        omega
      work := by simp [Event.thread, Event.starts, accesses, hpc, work]
      writes := by simp [Event.thread, Event.starts, hwrite, hpc, writesLeft] }
  | retire b gen =>
    have hfail : σ.failed (.advance t) = 0 := by simp [failed, hpc]
    have hwrite : σ.headWrites (.advance t) = 0 := by simp [headWrites, hpc]
    simp only [advance, hpc, Option.some.injEq] at h
    subst h
    exact {
      others := fun u hu => pc_goto_of_ne _ hu _
      heads := fun _ => rfl
      stale := by simp [Event.thread, hfail, stale]
      work := by simp [Event.thread, Event.starts, accesses, hpc, work]
      writes := by simp [Event.thread, Event.starts, hwrite, hpc, writesLeft] }
  | initGen | deinitGen | sanitizeGen | pushLoad | popNext | safeNext =>
    have hfail : σ.failed (.advance t) = 0 := by simp [failed, hpc]
    have hwrite : σ.headWrites (.advance t) = 0 := by simp [headWrites, hpc]
    simp only [advance, hpc, Option.some.injEq] at h
    subst h
    refine paid_goto hpc hfail hwrite ?_ ?_ ?_ <;>
      simp [accesses, hpc, stale, work, writesLeft] <;> split_ifs <;> simp

theorem start_eq_some {task : Task} (h : σ.start t task = some σ') :
    σ.pc t = .idle ∧ σ'.links = σ.links ∧
      ∃ pc, σ'.pc = update σ.pc t pc ∧ stale σ.links pc = 0 ∧
        σ.accesses (.start t task) + work pc ≤ 11 ∧ writesLeft pc ≤ 2 := by
  unfold start at h
  split_ifs at h with hidle
  have hpush : ∀ {b : BlockId} {pc : Pc}, (pc = .deinitGen b ∨ ∃ p, pc = .pushLoad p b) →
      (if (t, b) ∈ σ.held then some (σ.goto t pc) else none) = some σ' →
      σ'.links = σ.links ∧ ∃ pc, σ'.pc = update σ.pc t pc ∧ stale σ.links pc = 0 ∧
        work pc ≤ 11 ∧ writesLeft pc ≤ 2 := by
    intro b pc hpc h
    split_ifs at h with hmem
    cases h
    refine ⟨rfl, pc, rfl, ?_⟩
    rcases hpc with rfl | ⟨p, rfl⟩ <;> simp [stale, work, writesLeft]
  refine ⟨not_ne_iff.mp hidle, ?_⟩
  cases task with
  | commonPush b | l2Push b => simpa [accesses] using hpush (.inr ⟨_, rfl⟩) h
  | deinit b => simpa [accesses] using hpush (.inl rfl) h
  | incrementGeneration =>
    cases h
    refine ⟨rfl, .idle, ?_, by simp [accesses, stale, work, writesLeft]⟩
    rw [← not_ne_iff.mp hidle, update_eq_self]
  | commonPop | l2Pop | init | sanitizeOne =>
    cases h
    exact ⟨rfl, _, rfl, by simp [accesses, stale, work, writesLeft]⟩

/-- The step lemma. -/
theorem paid_of_step {e : Event} (h : step σ e = some σ') : Paid σ e σ' := by
  cases e with
  | advance t => exact paid_of_advance h
  | start t task =>
    obtain ⟨hidle, hlinks, pc, hpc, hstale, hwork, hleft⟩ := start_eq_some h
    exact {
      others := fun u hu => by
        have hne : u ≠ t := hu
        rw [hpc, update_of_ne hne]
      heads := fun _ => by rw [hlinks]
      stale := by simp [Event.thread, failed, hpc, hlinks, hstale]
      work := by
          simpa [Event.thread, Event.starts, failed, hpc, hidle, show work .idle = 0 from rfl]
      writes := by simpa [Event.thread, Event.starts, headWrites, hpc, hidle, writesLeft] }

/-! What the threads of `T` have still to pay. -/

variable {T : Finset ThreadId} {e : Event}

theorem headWrites_le_one (σ : Machine) (e : Event) : σ.headWrites e ≤ 1 := by
  unfold headWrites
  grind

theorem stale_le_one (k : Chain.Links PoolId BlockId) (pc : Pc) : stale k pc ≤ 1 := by
  unfold stale
  grind

@[simp] theorem stale_idle (k : Chain.Links PoolId BlockId) : stale k .idle = 0 := rfl

theorem stale_congr {k k' : Chain.Links PoolId BlockId} (h : k'.head = k.head) (pc : Pc) :
    stale k' pc = stale k pc := by
  unfold stale
  rw [h]

/-- A failed exchange uses up a stale head; a write makes the heads of the other threads stale. -/
theorem failed_step (he : e.thread ∈ T) (h : step σ e = some σ') :
    σ.failed e + ∑ u ∈ T, stale σ'.links (σ'.pc u) ≤
      (T.card - 1) * σ.headWrites e + ∑ u ∈ T, stale σ.links (σ.pc u) := by
  have hpaid := paid_of_step h
  have hown := hpaid.stale
  rcases Nat.eq_zero_or_pos (σ.headWrites e) with hzero | hpos
  · have hsum := Run.sum_add_of_eq_off (f := fun u => stale σ.links (σ.pc u))
      (g := fun u => stale σ'.links (σ'.pc u)) he fun u _ hu => by
        rw [hpaid.others u hu, stale_congr (hpaid.heads hzero)]
    rw [hzero]
    omega
  · have hone : σ.headWrites e = 1 := by
      have := headWrites_le_one σ e
      omega
    have hsum := Run.sum_add_le_of_le_off (f := fun u => stale σ.links (σ.pc u))
      (g := fun u => stale σ'.links (σ'.pc u)) he fun u _ _ => by
        have := stale_le_one σ'.links (σ'.pc u)
        omega
    rw [hone]
    omega

theorem work_step (he : e.thread ∈ T) (h : step σ e = some σ') :
    σ.accesses e + ∑ u ∈ T, work (σ'.pc u) ≤
      (11 * e.starts + 7 * σ.failed e) + ∑ u ∈ T, work (σ.pc u) := by
  have hpaid := paid_of_step h
  have hown := hpaid.work
  have hsum := Run.sum_add_of_eq_off (f := fun u => work (σ.pc u))
    (g := fun u => work (σ'.pc u)) he fun u _ hu => by rw [hpaid.others u hu]
  omega

theorem writes_step (he : e.thread ∈ T) (h : step σ e = some σ') :
    σ.headWrites e + ∑ u ∈ T, writesLeft (σ'.pc u) ≤
      2 * e.starts + ∑ u ∈ T, writesLeft (σ.pc u) := by
  have hpaid := paid_of_step h
  have hown := hpaid.writes
  have hsum := Run.sum_add_of_eq_off (f := fun u => writesLeft (σ.pc u))
    (g := fun u => writesLeft (σ'.pc u)) he fun u _ hu => by rw [hpaid.others u hu]
  omega

def atRest (pc : Pc) : ℕ := if pc = .idle then 1 else 0

/-- A task that begins makes its thread busy, and only a finished one gives it back. -/
theorem starts_step (he : e.thread ∈ T) (h : step σ e = some σ') :
    e.starts + ∑ u ∈ T, atRest (σ'.pc u) ≤ σ.finished e + ∑ u ∈ T, atRest (σ.pc u) := by
  have hpaid := paid_of_step h
  have hsum := Run.sum_add_of_eq_off (f := fun u => atRest (σ.pc u))
    (g := fun u => atRest (σ'.pc u)) he fun u _ hu => by rw [hpaid.others u hu]
  have hfinished : σ.finished e = atRest (σ'.pc e.thread) := by
    unfold finished atRest
    rw [h]
  have hstarts : e.starts ≤ atRest (σ.pc e.thread) := by
    cases e with
    | advance t => exact Nat.zero_le _
    | start t task =>
      have hidle : σ.pc t = .idle := (start_eq_some h).1
      simp [Event.starts, Event.thread, atRest, hidle]
  omega

section Runs

variable {τ : Machine} {l : List Event}

theorem failed_le (hidle : ∀ t ∈ T, σ.pc t = .idle) (hT : ∀ e ∈ l, e.thread ∈ T)
    (hr : Run.run step σ l = some τ) :
    Run.total step failed σ l ≤ (T.card - 1) * Run.total step headWrites σ l := by
  have hrun : Run.total step failed σ l + _ ≤ _ :=
    Run.total_add_le_of_step (fun σ => ∑ u ∈ T, stale σ.links (σ.pc u))
      (fun _ _ _ he h => failed_step he h) hT hr
  have hnone : ∑ u ∈ T, stale σ.links (σ.pc u) = 0 :=
    Finset.sum_eq_zero fun u hu => by rw [hidle u hu, stale_idle]
  rw [Run.total_const_mul _ hr] at hrun
  omega

theorem headWrites_le (hidle : ∀ t ∈ T, σ.pc t = .idle) (hT : ∀ e ∈ l, e.thread ∈ T)
    (hr : Run.run step σ l = some τ) :
    Run.total step headWrites σ l ≤ 2 * (l.map Event.starts).sum := by
  have hrun : Run.total step headWrites σ l + _ ≤ _ :=
    Run.total_add_le_of_step (fun σ => ∑ u ∈ T, writesLeft (σ.pc u))
      (fun _ _ _ he h => writes_step he h) hT hr
  have hnone : ∑ u ∈ T, writesLeft (σ.pc u) = 0 :=
    Finset.sum_eq_zero fun u hu => by rw [hidle u hu, writesLeft]
  rw [Run.total_const_mul _ hr, Run.total_of_run _ hr] at hrun
  omega

theorem accesses_le (hidle : ∀ t ∈ T, σ.pc t = .idle) (hT : ∀ e ∈ l, e.thread ∈ T)
    (hr : Run.run step σ l = some τ) :
    Run.total step accesses σ l ≤
      11 * (l.map Event.starts).sum + 7 * Run.total step failed σ l := by
  have hrun : Run.total step accesses σ l + _ ≤ _ :=
    Run.total_add_le_of_step (fun σ => ∑ u ∈ T, work (σ.pc u))
      (fun _ _ _ he h => work_step he h) hT hr
  have hnone : ∑ u ∈ T, work (σ.pc u) = 0 :=
    Finset.sum_eq_zero fun u hu => by rw [hidle u hu, work]
  rw [Run.total_add hr, Run.total_const_mul _ hr, Run.total_const_mul _ hr,
    Run.total_of_run _ hr] at hrun
  omega

/-- The threads of `T` that have something left to do. -/
def busy (σ : Machine) (T : Finset ThreadId) : Finset ThreadId := T.filter fun t => σ.pc t ≠ .idle

theorem sum_atRest_add_busy (σ : Machine) (T : Finset ThreadId) :
    ∑ u ∈ T, atRest (σ.pc u) + (σ.busy T).card = T.card := by
  have hrest : ∑ u ∈ T, atRest (σ.pc u) = (T.filter fun u => σ.pc u = .idle).card := by
    rw [Finset.card_eq_sum_ones, Finset.sum_filter]
    rfl
  rw [hrest]
  exact Finset.card_filter_add_card_filter_not _

theorem starts_le (hT : ∀ e ∈ l, e.thread ∈ T) (hr : Run.run step σ l = some τ) :
    (l.map Event.starts).sum ≤ Run.total step finished σ l + (τ.busy T).card := by
  have hrun : Run.total step (fun _ e => e.starts) σ l + _ ≤ _ :=
    Run.total_add_le_of_step (fun σ => ∑ u ∈ T, atRest (σ.pc u))
      (fun _ _ _ he h => starts_step he h) hT hr
  have hfirst := sum_atRest_add_busy σ T
  have hlast := sum_atRest_add_busy τ T
  rw [Run.total_of_run _ hr] at hrun
  omega

/-- The pools are lock-free: in any interleaving of the threads of `T`, retries are paid for by
the writes of others, and every `11 + 14 (|T| - 1)` accesses beyond those of the tasks still open
finish one more task. -/
theorem lock_free (hidle : ∀ t ∈ T, σ.pc t = .idle) (hT : ∀ e ∈ l, e.thread ∈ T)
    (hr : Run.run step σ l = some τ) :
    Run.total step failed σ l ≤ (T.card - 1) * Run.total step headWrites σ l ∧
      Run.total step accesses σ l ≤
        11 * (l.map Event.starts).sum + 7 * Run.total step failed σ l ∧
      Run.total step accesses σ l ≤
        (11 + 14 * (T.card - 1)) * (Run.total step finished σ l + (τ.busy T).card) := by
  have hfailed := failed_le hidle hT hr
  have hwrites := headWrites_le hidle hT hr
  have haccesses := accesses_le hidle hT hr
  have hstarts := starts_le hT hr
  have hretries : Run.total step failed σ l ≤ (T.card - 1) * (2 * (l.map Event.starts).sum) :=
    hfailed.trans (Nat.mul_le_mul_left _ hwrites)
  refine ⟨hfailed, haccesses, ?_⟩
  calc Run.total step accesses σ l
      ≤ 11 * (l.map Event.starts).sum + 7 * Run.total step failed σ l := haccesses
    _ ≤ 11 * (l.map Event.starts).sum +
        7 * ((T.card - 1) * (2 * (l.map Event.starts).sum)) := by gcongr
    _ = (11 + 14 * (T.card - 1)) * (l.map Event.starts).sum := by ring
    _ ≤ (11 + 14 * (T.card - 1)) * (Run.total step finished σ l + (τ.busy T).card) := by gcongr

/-- Two pops that meet: the exchange of the first finds the head taken, and its retry succeeds. -/
def contended : List Event :=
  Event.solo 1 .commonPop 2 ++ Event.solo 2 .commonPop 3 ++ List.replicate 4 (.advance 1)

theorem lock_free_contended :
    ∃ τ, Run.run step (booted (initialGlobals 4096 2 64)) contended = some τ ∧
      Run.total step failed (booted (initialGlobals 4096 2 64)) contended = 1 ∧
      1 ≤ (2 - 1) * Run.total step headWrites (booted (initialGlobals 4096 2 64)) contended ∧
      Run.total step accesses (booted (initialGlobals 4096 2 64)) contended ≤
        11 * (contended.map Event.starts).sum + 7 * 1 ∧
      Run.total step accesses (booted (initialGlobals 4096 2 64)) contended ≤ (11 + 14 * (2 - 1)) *
        (Run.total step finished (booted (initialGlobals 4096 2 64)) contended +
          (τ.busy {1, 2}).card) := by
  have hr : Run.run step (booted (initialGlobals 4096 2 64)) contended = some _ := rfl
  have hfailed : Run.total step failed (booted (initialGlobals 4096 2 64)) contended = 1 := rfl
  have hfree := lock_free (T := {1, 2}) (fun _ _ => rfl) (by decide) hr
  rw [hfailed] at hfree
  exact ⟨_, hr, hfailed, hfree⟩

end Runs

end Machine
end LingNet.Gqap
