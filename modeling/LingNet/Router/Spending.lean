import LingNet.Lib.FixedWindow
import LingNet.Lib.SpinLock
import LingNet.Router.Config

/-! What a router spends across the hours. The threads of the executor run `_charge_sync` under one
lock while the clock goes on, and every new hour begins with a full budget; so an hour that
straddles the beginning of another may cost two budgets, and no more. Costs and times are exact. -/
namespace LingNet.Router
open FixedWindow
open scoped Floats.Exact

/-- The tracker and the clock it reads, with the outcome of every charge; no step reads the
latter. -/
structure Till where
  clock : ℚ
  tracker : CostTracker
  entries : List (Entry ℚ)

/-- The statement of `_charge_sync` that a thread comes to next, with the time it has read last. -/
inductive ChargePoint where
  /-- `if time.time() - self.hour_start > 3600` -/
  | hour (cost : ℚ)
  /-- `self.hour_start = time.time()` -/
  | resetStart (cost : ℚ)
  /-- `self.hourly_spent = 0.0` -/
  | resetSpent (cost time : ℚ)
  /-- `if self.hourly_spent + cost > self.hourly_budget` -/
  | check (cost time : ℚ)
  /-- `self.hourly_spent += cost` -/
  | spend (cost time : ℚ)

/-- The clock does not go back. -/
abbrev Delay := { delay : ℚ // 0 ≤ delay }

def CostTracker.limiter (t : CostTracker) : Limiter ℚ := ⟨t.hourlySpent, t.hourStart⟩

theorem refresh_limiter (t : CostTracker) (now : ℚ) :
    (t.refresh now).limiter = t.limiter.refresh 3600 now ∧
      (t.refresh now).hourlyBudget = t.hourlyBudget := by
  by_cases hlate : 3600 < now - t.hourStart
  · have hfresh : t.refresh now = { t with hourStart := now, hourlySpent := 0 } := if_pos hlate
    rw [hfresh]
    exact ⟨(if_pos hlate).symm, rfl⟩
  · have hsame : t.refresh now = t := if_neg hlate
    rw [hsame]
    exact ⟨(if_neg hlate).symm, rfl⟩

theorem chargeSync_of_over {t : CostTracker} {now cost : ℚ}
    (h : (t.refresh now).hourlyBudget < (t.refresh now).hourlySpent + cost) :
    t.chargeSync now cost = (false, t.refresh now) := if_pos h

theorem chargeSync_of_fits {t : CostTracker} {now cost : ℚ}
    (h : ¬ (t.refresh now).hourlyBudget < (t.refresh now).hourlySpent + cost) :
    t.chargeSync now cost = (true,
      { t.refresh now with hourlySpent := (t.refresh now).hourlySpent + cost }) := if_neg h

/-- `_charge_sync` is the charge of a limiter whose window is the hour. -/
theorem chargeSync_eq (t : CostTracker) (now cost : ℚ) :
    t.limiter.charge 3600 t.hourlyBudget now cost =
        (⟨now, cost, (t.chargeSync now cost).1⟩, (t.chargeSync now cost).2.limiter) ∧
      (t.chargeSync now cost).2.hourlyBudget = t.hourlyBudget := by
  obtain ⟨hlimiter, hbudget⟩ := refresh_limiter t now
  have hspent : (t.limiter.refresh 3600 now).spent = (t.refresh now).hourlySpent := by
    rw [← hlimiter]
    rfl
  by_cases hover : (t.refresh now).hourlyBudget < (t.refresh now).hourlySpent + cost
  · rw [chargeSync_of_over hover]
    rw [hbudget, ← hspent] at hover
    refine ⟨?_, hbudget⟩
    rw [hlimiter]
    exact if_pos hover
  · rw [chargeSync_of_fits hover]
    rw [hbudget, ← hspent] at hover
    refine ⟨(if_neg hover).trans ?_, hbudget⟩
    rw [← hlimiter]
    rfl

def CostTracker.afterAll (t : CostTracker) (requests : List (ℚ × ℚ)) : CostTracker :=
  requests.foldl (fun t r => (t.chargeSync r.1 r.2).2) t

theorem afterAll_limiter (t : CostTracker) (requests : List (ℚ × ℚ)) :
    (t.afterAll requests).limiter = t.limiter.final 3600 t.hourlyBudget requests ∧
      (t.afterAll requests).hourlyBudget = t.hourlyBudget := by
  induction requests generalizing t with
  | nil => exact ⟨rfl, rfl⟩
  | cons r requests ih =>
    obtain ⟨hcharge, hbudget⟩ := chargeSync_eq t r.1 r.2
    obtain ⟨ih₁, ih₂⟩ := ih (t.chargeSync r.1 r.2).2
    rw [hbudget] at ih₁
    refine ⟨?_, ih₂.trans hbudget⟩
    rw [Limiter.final, hcharge]
    exact ih₁

/-- The entries are those of requests made one after the other up to `time`, which lead the
tracker `t₀` to one that the relation holds of. -/
def Booked (t₀ : CostTracker) (R : CostTracker → Prop) (time : ℚ) (s : Till) : Prop :=
  ∃ requests, s.entries = t₀.limiter.serve 3600 t₀.hourlyBudget requests ∧
    s.tracker.hourlyBudget = t₀.hourlyBudget ∧ Timely t₀.hourStart requests ∧
    (∀ r ∈ requests, r.1 ≤ time) ∧ t₀.hourStart ≤ time ∧ time ≤ s.clock ∧
    R (t₀.afterAll requests)

/-- The time that the charge is booked up to. -/
def ChargePoint.time (s : Till) : ChargePoint → ℚ
  | .hour _ | .resetStart _ => s.clock
  | .resetSpent _ time | .check _ time | .spend _ time => time

/-- How the tracker stands to the one before the charge. -/
def ChargePoint.Relates (s : Till) : ChargePoint → CostTracker → Prop
  | .hour _, t => s.tracker = t
  | .resetStart _, t => s.tracker = t ∧ 3600 < s.clock - t.hourStart
  | .resetSpent _ time, t => { s.tracker with hourlySpent := 0 } = t.refresh time
  | .check _ time, t => s.tracker = t.refresh time
  | .spend cost time, t => s.tracker = t.refresh time ∧
      ¬ s.tracker.hourlyBudget < s.tracker.hourlySpent + cost

/-- What a thread knows on its way through `_charge_sync`. -/
def ChargePoint.Knows (t₀ : CostTracker) (s : Till) (p : ChargePoint) : Prop :=
  Booked t₀ (p.Relates s) (p.time s) s

section Charging

variable {t₀ : CostTracker} {s s' : Till} {R R' : CostTracker → Prop} {time time' : ℚ}

/-- A later time, as long as it is not in the future. -/
theorem Booked.later (h : Booked t₀ R time s) (hentries : s'.entries = s.entries)
    (hbudget : s'.tracker.hourlyBudget = s.tracker.hourlyBudget) (htime : time ≤ time')
    (hclock : time' ≤ s'.clock) (hR : ∀ t, R t → R' t) : Booked t₀ R' time' s' := by
  obtain ⟨requests, hserve, hbudget₀, htimely, hpast, hstart, -, hrel⟩ := h
  exact ⟨requests, hentries.trans hserve, hbudget.trans hbudget₀, htimely,
    fun r hr => (hpast r hr).trans htime, hstart.trans htime, hclock, hR _ hrel⟩

/-- The last statement of a charge, with the outcome of `_charge_sync` at the time it has read. -/
theorem Booked.charge (h : Booked t₀ R time s) (cost : ℚ)
    (hentries : ∀ t, R t → s'.entries = s.entries ++ [⟨time, cost, (t.chargeSync time cost).1⟩])
    (htracker : ∀ t, R t → s'.tracker = (t.chargeSync time cost).2)
    (hclock : s'.clock = s.clock) : Booked t₀ (fun t => s'.tracker = t) s'.clock s' := by
  obtain ⟨requests, hserve, -, htimely, hpast, hstart, hnow, hrel⟩ := h
  obtain ⟨hlimiter, hbudget⟩ := afterAll_limiter t₀ requests
  obtain ⟨hcharge, hkept⟩ := chargeSync_eq (t₀.afterAll requests) time cost
  rw [hlimiter, hbudget] at hcharge
  refine ⟨requests ++ [(time, cost)], ?_, ?_, htimely.snoc hstart hpast, ?_, ?_, le_rfl, ?_⟩
  · rw [hentries _ hrel, serve_snoc, hcharge, hserve]
  · rw [htracker _ hrel, hkept, hbudget]
  · intro r hr
    rw [hclock]
    rcases List.mem_append.mp hr with hr | hr
    · exact (hpast r hr).trans hnow
    · rw [List.mem_singleton.mp hr]
      exact hnow
  · rw [hclock]
    exact hstart.trans hnow
  · rw [htracker _ hrel]
    unfold CostTracker.afterAll
    rw [List.foldl_append]
    rfl

theorem Booked.time_le (h : Booked t₀ R time s) : time ≤ s.clock := by
  obtain ⟨_, _, _, _, _, _, hclock, _⟩ := h
  exact hclock

theorem ChargePoint.Knows.outside {p : ChargePoint} (h : p.Knows t₀ s) (delay : Delay) :
    p.Knows t₀ { s with clock := s.clock + delay } := by
  have hgrow : s.clock ≤ s.clock + delay := le_add_of_nonneg_right delay.2
  unfold ChargePoint.Knows at h
  cases p with
  | hour cost => exact h.later rfl rfl hgrow le_rfl fun t ht => ht
  | resetStart cost =>
    refine h.later rfl rfl hgrow le_rfl fun t ht => ⟨ht.1, ht.2.trans_le ?_⟩
    exact sub_le_sub_right hgrow _
  | resetSpent cost time | check cost time | spend cost time =>
    exact h.later rfl rfl le_rfl (h.time_le.trans hgrow) fun t ht => ht

end Charging

/-- What is granted at any point of a body. -/
theorem ChargePoint.Knows.entries {t₀ : CostTracker} {s : Till} {p : ChargePoint}
    (h : p.Knows t₀ s) : ∃ requests, Timely t₀.hourStart requests ∧
      s.entries = t₀.limiter.serve 3600 t₀.hourlyBudget requests := by
  cases p <;>
  · obtain ⟨requests, hserve, -, htimely, -⟩ := h
    exact ⟨requests, htimely, hserve⟩

end LingNet.Router
