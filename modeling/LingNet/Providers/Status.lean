import Mathlib.Logic.Function.Basic
import LingNet.Lib.Run
import LingNet.Providers.RouterCore

/-! The status of the providers while threads route, race and check in any order, and the operator
sets statuses between their steps. -/
namespace LingNet.Providers
open Function

abbrev ThreadId := ℕ

/-- How a call has ended; `timeout` is the exception of `as_completed`. -/
inductive Answer where
  | result (result : RouteResult)
  | statuses (results : List (String × ProviderStatus))
  | timeout

/-- What `health_check_all` writes. -/
abbrev Verdict := { status : ProviderStatus // status ≠ .disabled }

/-- Where a thread stands: between calls, in `route` behind the selection, behind the record of a
failure or behind the test for a failover, in `route_race` with the racers that have not completed,
or in `health_check_all` before a provider, before its new status or behind it. -/
inductive Pc where
  | idle (last : Option Answer)
  | executing (p : Ref)
  | failed (p : Ref) (error : String) (elapsed : ℚ)
  | degrading (p : Ref) (error : String) (elapsed : ℚ)
  | racing (racers : List Ref)
  | checking (rest : List Ref) (results : List (String × ProviderStatus))
  | writing (p : Ref) (verdict : Verdict) (rest : List Ref)
      (results : List (String × ProviderStatus))
  | reporting (p : Ref) (rest : List Ref) (results : List (String × ProviderStatus))

structure System where
  core : RouterCore
  pc : ThreadId → Pc

/-- What `_execute` returns or raises, with the text of the exception. -/
abbrev Outcome := Except String RouteResult

/-- A step of a thread, or of the operator. Those of `route` are the selection, the record of the
outcome, and behind a failure the test for a failover and the new status; those of `route_race` are
the selection and the completion of a racer, by its place among the rest; those of
`health_check_all` are, for each provider, the test, the new status and the report. -/
inductive Event where
  | operator (p : Ref) (status : ProviderStatus)
  | route (t : ThreadId) (request : RouteRequest)
  | record (t : ThreadId) (outcome : Outcome) (elapsed : ℚ)
  | judge (t : ThreadId)
  | degrade (t : ThreadId)
  | race (t : ThreadId) (providerNames : List String)
  | complete (t : ThreadId) (i : ℕ) (outcome : Outcome) (elapsed : ℚ)
  | timeout (t : ThreadId)
  | check (t : ThreadId)
  | inspect (t : ThreadId) (now : ℚ)
  | write (t : ThreadId)
  | report (t : ThreadId)

namespace System

def goto (σ : System) (t : ThreadId) (pc : Pc) : System := { σ with pc := update σ.pc t pc }

def answer (σ : System) (t : ThreadId) (result : RouteResult) : System :=
  σ.goto t (.idle (some (.result result)))

def withCore (σ : System) (core : RouterCore) : System := { σ with core := core }

def route (σ : System) (t : ThreadId) (request : RouteRequest) : Option System :=
  match σ.pc t with
  | .idle _ =>
    match σ.core.selectProvider request with
    | (none, core) => some ((σ.withCore core).answer t noProvider)
    | (some p, core) => some ((σ.withCore core).goto t (.executing p))
  | _ => none

def record (σ : System) (t : ThreadId) (outcome : Outcome) (elapsed : ℚ) : Option System :=
  match σ.pc t with
  | .executing p =>
    match outcome with
    | .ok result => some ((σ.withCore (σ.core.recordSuccess p result elapsed)).answer t
        { result with latencyMs := elapsed })
    | .error e => some ((σ.withCore (σ.core.recordFailure p)).goto t (.failed p e elapsed))
  | _ => none

/-- The end of `route` behind a failure. -/
def answerFailed (σ : System) (t : ThreadId) (p : Ref) (error : String) (elapsed : ℚ) :
    Option System :=
  σ.core.providers[p]?.map fun provider => σ.answer t (Providers.failed provider error elapsed)

def judge (σ : System) (t : ThreadId) : Option System :=
  match σ.pc t with
  | .failed p error elapsed =>
    if σ.core.needsFailover p then some (σ.goto t (.degrading p error elapsed))
    else σ.answerFailed t p error elapsed
  | _ => none

/-- `provider.status = ProviderStatus.DEGRADED` -/
def degrade (σ : System) (t : ThreadId) : Option System :=
  match σ.pc t with
  | .degrading p error elapsed =>
    (σ.withCore (σ.core.setStatus p .degraded)).answerFailed t p error elapsed
  | _ => none

def race (σ : System) (t : ThreadId) (providerNames : List String) : Option System :=
  match σ.pc t with
  | .idle _ =>
    match σ.core.racers providerNames with
    | [] => some (σ.answer t (noWinner 0 "No available providers for race"))
    | racers => some (σ.goto t (.racing racers))
  | _ => none

/-- The next round of the race, or its end when all racers have failed. -/
def continueRace (σ : System) (t : ThreadId) (racers : List Ref) (elapsed : ℚ) : System :=
  if racers.isEmpty then σ.answer t (noWinner elapsed "All race participants failed")
  else σ.goto t (.racing racers)

/-- A result that is not a success is not recorded. -/
def complete (σ : System) (t : ThreadId) (i : ℕ) (outcome : Outcome) (elapsed : ℚ) :
    Option System :=
  match σ.pc t with
  | .racing racers =>
    racers[i]?.map fun p =>
      match outcome with
      | .ok result =>
        if result.success then
          (σ.withCore (σ.core.recordSuccess p result elapsed)).answer t
            { result with latencyMs := elapsed }
        else σ.continueRace t (racers.eraseIdx i) elapsed
      | .error _ =>
        (σ.withCore (σ.core.recordFailure p)).continueRace t (racers.eraseIdx i) elapsed
  | _ => none

def timeout (σ : System) (t : ThreadId) : Option System :=
  match σ.pc t with
  | .racing _ => some (σ.goto t (.idle (some .timeout)))
  | _ => none

def check (σ : System) (t : ThreadId) : Option System :=
  match σ.pc t with
  | .idle _ => some (σ.goto t (.checking (List.range σ.core.providers.length) []))
  | _ => none

/-- The time of the check is written before the test. -/
def inspect (σ : System) (t : ThreadId) (now : ℚ) : Option System :=
  match σ.pc t with
  | .checking [] results => some (σ.goto t (.idle (some (.statuses results))))
  | .checking (p :: rest) results =>
    σ.core.providers[p]?.map fun provider =>
      (σ.withCore (σ.core.modifyProvider p fun provider =>
        { provider with lastHealthCheck := now })).goto t
          (.writing p ⟨health provider, health_ne_disabled provider⟩ rest results)
  | _ => none

/-- `provider.status = …` -/
def write (σ : System) (t : ThreadId) : Option System :=
  match σ.pc t with
  | .writing p verdict rest results =>
    some ((σ.withCore (σ.core.setStatus p verdict)).goto t (.reporting p rest results))
  | _ => none

/-- `results[name] = provider.status` -/
def report (σ : System) (t : ThreadId) : Option System :=
  match σ.pc t with
  | .reporting p rest results =>
    σ.core.providers[p]?.map fun provider =>
      σ.goto t (.checking rest (results ++ [(provider.name, provider.status)]))
  | _ => none

def step (σ : System) : Event → Option System
  | .operator p status => some (σ.withCore (σ.core.setStatus p status))
  | .route t request => σ.route t request
  | .record t outcome elapsed => σ.record t outcome elapsed
  | .judge t => σ.judge t
  | .degrade t => σ.degrade t
  | .race t providerNames => σ.race t providerNames
  | .complete t i outcome elapsed => σ.complete t i outcome elapsed
  | .timeout t => σ.timeout t
  | .check t => σ.check t
  | .inspect t now => σ.inspect t now
  | .write t => σ.write t
  | .report t => σ.report t

end System

/-- The status that a step writes, and whose it is. -/
def System.writes (σ : System) : Event → Option (Ref × ProviderStatus)
  | .operator p status => some (p, status)
  | .write t =>
    match σ.pc t with
    | .writing p verdict _ _ => some (p, verdict)
    | _ => none
  | .degrade t =>
    match σ.pc t with
    | .degrading p _ _ => some (p, .degraded)
    | _ => none
  | _ => none

/-- The step selects the provider, for a request or a race. -/
def Selects (σ : System) (p : Ref) : Event → Prop
  | .route _ request => (σ.core.selectProvider request).1 = some p
  | .race _ providerNames => p ∈ σ.core.racers providerNames
  | _ => False

/-- The steps that record how a request has ended. -/
def Event.records : Event → Bool
  | .record _ _ _ | .judge _ | .degrade _ | .complete _ _ _ _ => true
  | _ => false

/-- A disabled provider is not selected, and only the operator changes its status. The record of a
request makes no provider available that is not. -/
def Sound (σ : System) (e : Event) : Prop :=
  (∀ p, σ.core.status p = some .disabled → ¬ Selects σ p e) ∧
  ∀ σ', σ.step e = some σ' →
    (∀ p, σ.core.status p = some .disabled → (∀ status, e ≠ .operator p status) →
      σ'.core.status p = some .disabled) ∧
    (e.records = true → ∀ p, σ.core.isAvailable p = false → σ'.core.isAvailable p = false)

/-- A health check writes to no provider that is disabled when it comes to write, and a late
failure to none that is not available any more. -/
def Spares (σ : System) : Event → Prop
  | .write t => ∀ w ∈ σ.writes (.write t), σ.core.status w.1 ≠ some .disabled
  | .degrade t => ∀ w ∈ σ.writes (.degrade t),
      σ.core.status w.1 ≠ some .unhealthy ∧ σ.core.status w.1 ≠ some .disabled
  | _ => True

instance (σ : System) : ∀ e, Decidable (Spares σ e)
  | .write t =>
    inferInstanceAs (Decidable (∀ w ∈ σ.writes (.write t), σ.core.status w.1 ≠ some .disabled))
  | .degrade t => inferInstanceAs (Decidable (∀ w ∈ σ.writes (.degrade t),
      σ.core.status w.1 ≠ some .unhealthy ∧ σ.core.status w.1 ≠ some .disabled))
  | .operator _ _ | .route _ _ | .record _ _ _ | .judge _ | .race _ _ | .complete _ _ _ _
  | .timeout _ | .check _ | .inspect _ _ | .report _ => .isTrue trivial

section Steps

variable {σ σ' : System} {t : ThreadId}

@[simp] theorem core_goto (σ : System) (t : ThreadId) (pc : Pc) : (σ.goto t pc).core = σ.core := rfl

@[simp] theorem core_answer (σ : System) (t : ThreadId) (result : RouteResult) :
    (σ.answer t result).core = σ.core := rfl

@[simp] theorem core_withCore (σ : System) (core : RouterCore) : (σ.withCore core).core = core :=
  rfl

@[simp] theorem core_continueRace (σ : System) (t : ThreadId) (racers : List Ref) (elapsed : ℚ) :
    (σ.continueRace t racers elapsed).core = σ.core := by
  unfold System.continueRace
  split_ifs
  · rfl
  · rfl

theorem core_answerFailed {p : Ref} {error : String} {elapsed : ℚ}
    (h : σ.answerFailed t p error elapsed = some σ') : σ'.core = σ.core := by
  obtain ⟨provider, -, rfl⟩ := Option.map_eq_some_iff.mp h
  rfl

/-! The statuses behind each kind of step: all but the two writes leave them as they are. -/

theorem status_route {request : RouteRequest} (h : σ.route t request = some σ') (q : Ref) :
    σ'.core.status q = σ.core.status q := by
  unfold System.route at h
  have hselect := status_selectProvider σ.core request q
  split at h
  case h_2 => cases h
  case h_1 =>
    split at h
    next heq =>
      cases h
      rw [heq] at hselect
      exact hselect
    next heq =>
      cases h
      rw [heq] at hselect
      exact hselect

theorem status_record {outcome : Outcome} {elapsed : ℚ}
    (h : σ.record t outcome elapsed = some σ') (q : Ref) :
    σ'.core.status q = σ.core.status q := by
  unfold System.record at h
  split at h
  case h_2 => cases h
  case h_1 p _ =>
    cases outcome with
    | ok result =>
      cases h
      exact status_recordSuccess σ.core p q result elapsed
    | error e =>
      cases h
      exact status_recordFailure σ.core p q

theorem core_judge (h : σ.judge t = some σ') : σ'.core = σ.core := by
  unfold System.judge at h
  split at h
  case h_2 => cases h
  case h_1 =>
    split_ifs at h
    · cases h
      rfl
    · exact core_answerFailed h

theorem core_race {providerNames : List String} (h : σ.race t providerNames = some σ') :
    σ'.core = σ.core := by
  unfold System.race at h
  split at h
  case h_2 => cases h
  case h_1 =>
    split at h
    · cases h
      rfl
    · cases h
      rfl

theorem status_complete {i : ℕ} {outcome : Outcome} {elapsed : ℚ}
    (h : σ.complete t i outcome elapsed = some σ') (q : Ref) :
    σ'.core.status q = σ.core.status q := by
  unfold System.complete at h
  split at h
  case h_2 => cases h
  case h_1 =>
    obtain ⟨p, -, rfl⟩ := Option.map_eq_some_iff.mp h
    cases outcome with
    | ok result =>
      dsimp only
      split_ifs
      · exact status_recordSuccess σ.core p q result elapsed
      · rw [core_continueRace]
    | error e =>
      dsimp only
      rw [core_continueRace]
      exact status_recordFailure σ.core p q

theorem core_timeout (h : σ.timeout t = some σ') : σ'.core = σ.core := by
  unfold System.timeout at h
  split at h
  case h_2 => cases h
  case h_1 =>
    cases h
    rfl

theorem core_check (h : σ.check t = some σ') : σ'.core = σ.core := by
  unfold System.check at h
  split at h
  case h_2 => cases h
  case h_1 =>
    cases h
    rfl

theorem status_inspect {now : ℚ} (h : σ.inspect t now = some σ') (q : Ref) :
    σ'.core.status q = σ.core.status q := by
  unfold System.inspect at h
  split at h
  case h_1 =>
    cases h
    rfl
  case h_2 p _ _ _ =>
    obtain ⟨provider, -, rfl⟩ := Option.map_eq_some_iff.mp h
    exact status_modifyProvider (by intro _; rfl) σ.core p q
  case h_3 => cases h

theorem core_report (h : σ.report t = some σ') : σ'.core = σ.core := by
  unfold System.report at h
  split at h
  case h_2 => cases h
  case h_1 =>
    obtain ⟨provider, -, rfl⟩ := Option.map_eq_some_iff.mp h
    rfl

/-- What a write leaves: the new status of one provider. -/
def Written (σ σ' : System) (w : Option (Ref × ProviderStatus)) (q : Ref) : Prop :=
  σ'.core.status q = match w with
    | some (p, status) => if q = p then (σ.core.status q).map fun _ => status else σ.core.status q
    | none => σ.core.status q

theorem written_degrade (h : σ.degrade t = some σ') (q : Ref) :
    Written σ σ' (σ.writes (.degrade t)) q := by
  unfold System.degrade at h
  unfold Written System.writes
  split at h
  case h_2 => cases h
  case h_1 p _ _ hpc =>
    rw [core_answerFailed h]
    simp only [hpc]
    exact status_setStatus σ.core p q .degraded

theorem written_write (h : σ.write t = some σ') (q : Ref) :
    Written σ σ' (σ.writes (.write t)) q := by
  unfold System.write at h
  unfold Written System.writes
  split at h
  case h_2 => cases h
  case h_1 p verdict _ _ hpc =>
    cases h
    simp only [hpc]
    exact status_setStatus σ.core p q verdict

/-- Behind a step each provider has the status that it had, or the one that the step writes. -/
theorem status_step {e : Event} (h : σ.step e = some σ') (q : Ref) :
    Written σ σ' (σ.writes e) q := by
  cases e with
  | operator p status =>
    cases h
    exact status_setStatus σ.core p q status
  | route t request => exact status_route h q
  | record t outcome elapsed => exact status_record h q
  | judge t => exact congrArg (RouterCore.status · q) (core_judge h)
  | degrade t => exact written_degrade h q
  | race t providerNames => exact congrArg (RouterCore.status · q) (core_race h)
  | complete t i outcome elapsed => exact status_complete h q
  | timeout t => exact congrArg (RouterCore.status · q) (core_timeout h)
  | check t => exact congrArg (RouterCore.status · q) (core_check h)
  | inspect t now => exact status_inspect h q
  | write t => exact written_write h q
  | report t => exact congrArg (RouterCore.status · q) (core_report h)

/-- Only the operator, a health check and a late failure write. -/
theorem writes_cases {e : Event} {p : Ref} {status : ProviderStatus}
    (h : σ.writes e = some (p, status)) :
    e = .operator p status ∨ (∃ t, e = .write t ∧ status ≠ .disabled) ∨
      ∃ t, e = .degrade t ∧ status = .degraded := by
  unfold System.writes at h
  split at h
  next =>
    cases h
    exact .inl rfl
  next t =>
    split at h
    next verdict _ _ _ =>
      cases h
      exact .inr (.inl ⟨t, rfl, verdict.2⟩)
    next => cases h
  next t =>
    split at h
    next =>
      cases h
      exact .inr (.inr ⟨t, rfl, rfl⟩)
    next => cases h
  next => cases h

theorem status_of_not_writes {e : Event} {p : Ref} (h : σ.step e = some σ')
    (hwrites : ∀ status, σ.writes e ≠ some (p, status)) :
    σ'.core.status p = σ.core.status p := by
  have hwritten := status_step h p
  unfold Written at hwritten
  rw [hwritten]
  split
  next q status heq =>
    have hne : p ≠ q := fun hpq => hwrites status (hpq ▸ heq)
    rw [if_neg hne]
  next => rfl

theorem status_of_writes {e : Event} {p : Ref} {status : ProviderStatus} (h : σ.step e = some σ')
    (hwrites : σ.writes e = some (p, status)) :
    σ'.core.status p = (σ.core.status p).map fun _ => status := by
  have hwritten := status_step h p
  rw [hwrites] at hwritten
  exact hwritten.trans (if_pos rfl)

theorem not_selects_of_disabled {p : Ref} (h : σ.core.status p = some .disabled) (e : Event) :
    ¬ Selects σ p e := by
  have hunavailable : ¬ σ.core.isAvailable p = true := by
    rw [isAvailable_of_status h]
    decide
  intro hselects
  cases e with
  | route t request => exact hunavailable (isAvailable_of_select hselects)
  | race t providerNames => exact hunavailable (isAvailable_of_racers hselects)
  | _ => exact hselects

/-- A step that spares the providers that are out of service leaves them out of service. -/
theorem sound_of_spares {e : Event} (h : Spares σ e) : Sound σ e := by
  refine ⟨fun p hdisabled => not_selects_of_disabled hdisabled e, fun σ' hstep => ⟨?_, ?_⟩⟩
  · intro p hdisabled hoperator
    rw [← hdisabled]
    apply status_of_not_writes hstep
    intro status hwrites
    rcases writes_cases hwrites with rfl | ⟨t, rfl, -⟩ | ⟨t, rfl, -⟩
    · exact hoperator status rfl
    · exact h (p, status) hwrites hdisabled
    · exact (h (p, status) hwrites).2 hdisabled
  · intro hrecords p hunavailable
    unfold RouterCore.isAvailable at hunavailable ⊢
    by_cases hwrites : ∃ status, σ.writes e = some (p, status)
    · obtain ⟨status, hwrites⟩ := hwrites
      rcases writes_cases hwrites with rfl | ⟨t, rfl, -⟩ | ⟨t, rfl, -⟩
      · cases hrecords
      · cases hrecords
      · -- a status that is neither available nor out of service is none
        obtain ⟨hunhealthy, hdisabled⟩ := h (p, status) hwrites
        rw [status_of_writes hstep hwrites]
        rcases hstatus : σ.core.status p with _ | (_ | _ | _ | _)
        · rfl
        · simp [hstatus] at hunavailable
        · simp [hstatus] at hunavailable
        · exact absurd hstatus hunhealthy
        · exact absurd hstatus hdisabled
    · rw [status_of_not_writes hstep fun status hw => hwrites ⟨status, hw⟩]
      exact hunavailable

/-- A step that writes to a provider that exists is possible. -/
theorem step_of_writes {e : Event} {p : Ref} {status status' : ProviderStatus}
    (h : σ.writes e = some (p, status)) (hp : σ.core.status p = some status') :
    ∃ σ', σ.step e = some σ' := by
  unfold System.writes at h
  split at h
  next => exact ⟨_, rfl⟩
  next t =>
    split at h
    next hpc =>
      simp only [System.step, System.write, hpc]
      exact ⟨_, rfl⟩
    next => cases h
  next t =>
    split at h
    next hpc =>
      cases h
      have hdegraded : (σ.core.setStatus p .degraded).status p = some .degraded := by
        rw [status_setStatus, if_pos rfl, hp]
        rfl
      obtain ⟨provider, hprovider, -⟩ := Option.map_eq_some_iff.mp hdegraded
      simp only [System.step, System.degrade, hpc, System.answerFailed, core_withCore, hprovider]
      exact ⟨_, rfl⟩
    next => cases h
  next => cases h

/-- A late failure finds a provider that exists in service. -/
theorem isAvailable_of_sound {p : Ref} {status : ProviderStatus} (h : Sound σ (.degrade t))
    (hwrites : σ.writes (.degrade t) = some (p, .degraded)) (hp : σ.core.status p = some status) :
    σ.core.isAvailable p = true := by
  by_contra hunavailable
  obtain ⟨σ', hstep⟩ := step_of_writes hwrites hp
  have hstill := (h.2 σ' hstep).2 rfl p (by simpa using hunavailable)
  have hdegraded : σ'.core.status p = some .degraded := by
    rw [status_of_writes hstep hwrites, hp]
    rfl
  rw [isAvailable_of_status hdegraded] at hstill
  exact absurd hstill (by decide)

theorem spares_of_sound {e : Event} (h : Sound σ e) : Spares σ e := by
  cases e with
  | write t =>
    rintro ⟨p, status⟩ hwrites hdisabled
    obtain ⟨σ', hstep⟩ := step_of_writes hwrites hdisabled
    have hkept := (h.2 σ' hstep).1 p hdisabled nofun
    rw [status_of_writes hstep hwrites, hdisabled] at hkept
    rcases writes_cases hwrites with hcall | ⟨_, -, hne⟩ | ⟨_, hcall, -⟩
    · cases hcall
    · exact hne (Option.some.inj hkept)
    · cases hcall
  | degrade t =>
    rintro ⟨p, status⟩ hwrites
    rcases writes_cases hwrites with hcall | ⟨_, hcall, -⟩ | ⟨_, -, rfl⟩
    · cases hcall
    · cases hcall
    constructor
    · intro hunhealthy
      have havailable := isAvailable_of_sound h hwrites hunhealthy
      rw [isAvailable_of_status hunhealthy] at havailable
      exact absurd havailable (by decide)
    · intro hdisabled
      have havailable := isAvailable_of_sound h hwrites hdisabled
      rw [isAvailable_of_status hdisabled] at havailable
      exact absurd havailable (by decide)
  | _ => trivial

end Steps

open Run

/-- Over any interleaving of calls and of the operator, the statuses are sound exactly if each
write of a health check and of a late failure spares the providers that are out of service. -/
theorem serviceable_iff_spares (σ : System) (events : List Event) :
    AllSteps System.step Sound σ events ↔ AllSteps System.step Spares σ events :=
  ⟨AllSteps.imp fun _ _ => spares_of_sound, AllSteps.imp fun _ _ => sound_of_spares⟩

/-- One provider, of which nothing is known, and threads between calls. -/
def oneProvider : System where
  core := { providers := [{ name := "openai" }] }
  pc _ := .idle none

/-- A health check puts a disabled provider back into service, and so does a failure that is
recorded late. -/
theorem disabled_put_back :
    ¬ AllSteps System.step Sound oneProvider
      [.operator 0 .disabled, .check 0, .inspect 0 0, .write 0] ∧
    ¬ AllSteps System.step Sound oneProvider
      [.route 0 {}, .operator 0 .disabled, .record 0 (.error "timed out") 30000, .judge 0,
        .degrade 0] := by
  constructor
  · intro hall
    have hspares := hall.imp fun _ _ => spares_of_sound
    exact absurd hspares (by decide +kernel)
  · intro hall
    have hspares := hall.imp fun _ _ => spares_of_sound
    exact absurd hspares (by decide +kernel)

end LingNet.Providers
