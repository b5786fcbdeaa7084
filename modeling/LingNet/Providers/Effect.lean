import LingNet.Providers.Accounting

/-! What one step of a thread or of the operator can do to the router. -/
namespace LingNet.Providers

/-- What `_execute` came to with a provider, as it was recorded. -/
structure Record where
  provider : Ref
  outcome : Outcome
  elapsed : ℚ

/-- What is recorded of one outcome. -/
def RouterCore.record (self : RouterCore) (r : Record) : RouterCore :=
  match r.outcome with
  | .ok result => self.recordSuccess r.provider result r.elapsed
  | .error _ => self.recordFailure r.provider

/-- The outcome that a step records: one of `route`, or one of a race that is an exception or a
success. -/
def System.recorded (σ : System) : Event → Option Record
  | .record t outcome elapsed =>
    match σ.pc t with
    | .executing p => some ⟨p, outcome, elapsed⟩
    | _ => none
  | .complete t i outcome elapsed =>
    match σ.pc t with
    | .racing racers => (racers[i]?).bind fun p =>
      match outcome with
      | .ok result => if result.success then some ⟨p, outcome, elapsed⟩ else none
      | .error _ => some ⟨p, outcome, elapsed⟩
    | _ => none
  | _ => none

/-- The request that a step selects a provider for. -/
def Event.request : Event → Option RouteRequest
  | .route _ request => some request
  | _ => none

/-- The router behind a step: it may have counted a selection, written a status, recorded an outcome
or noted the time of a check, and a step does one of these at most. -/
inductive Effect (σ : System) (e : Event) : RouterCore → Prop
  | same (hrequest : e.request = none) (hrecorded : σ.recorded e = none) : Effect σ e σ.core
  | select {request : RouteRequest} (hrequest : e.request = some request)
      (hrecorded : σ.recorded e = none) : Effect σ e (σ.core.selectProvider request).2
  | status {p : Ref} {status : ProviderStatus} (hrequest : e.request = none)
      (hrecorded : σ.recorded e = none) (hwrites : σ.writes e = some (p, status)) :
      Effect σ e (σ.core.setStatus p status)
  | outcome {r : Record} (hrequest : e.request = none) (hrecorded : σ.recorded e = some r) :
      Effect σ e (σ.core.record r)
  | check {p : Ref} {now : ℚ} (hrequest : e.request = none) (hrecorded : σ.recorded e = none) :
      Effect σ e (σ.core.modifyProvider p fun provider =>
        { provider with lastHealthCheck := now })

/-- The providers whose outcomes a thread is still to record. -/
def Pc.awaited : Pc → List Ref
  | .executing p => [p]
  | .racing racers => racers
  | _ => []

/-- What a step comes to: its effect on the router, and that each thread awaits an outcome only of
providers that it awaited one of before or that are available. -/
structure Does (σ : System) (e : Event) (σ' : System) : Prop where
  effect : Effect σ e σ'.core
  awaits : ∀ u, ∀ p ∈ (σ'.pc u).awaited, p ∈ (σ.pc u).awaited ∨ σ.core.isAvailable p = true

section Steps

variable {σ σ' : System} {t : ThreadId} {e : Event} {core : RouterCore} {pc : Pc}

theorem does_goto (heffect : Effect σ e core)
    (hpc : ∀ p ∈ pc.awaited, p ∈ (σ.pc t).awaited ∨ σ.core.isAvailable p = true) :
    Does σ e ((σ.withCore core).goto t pc) where
  effect := heffect
  awaits u p hp := by
    change p ∈ (Function.update σ.pc t pc u).awaited at hp
    by_cases hu : u = t
    · rw [hu, Function.update_self] at hp
      rw [hu]
      exact hpc p hp
    · rw [Function.update_of_ne hu] at hp
      exact .inl hp

/-- The thread goes on to where it awaits nothing. -/
theorem does_settle (heffect : Effect σ e core) (hpc : pc.awaited = []) :
    Does σ e ((σ.withCore core).goto t pc) :=
  does_goto heffect fun _ hp => absurd (hpc ▸ hp) List.not_mem_nil

theorem does_answerFailed {p : Ref} {error : String} {elapsed : ℚ} (heffect : Effect σ e core)
    (hstep : (σ.withCore core).answerFailed t p error elapsed = some σ') : Does σ e σ' := by
  obtain ⟨provider, -, rfl⟩ := Option.map_eq_some_iff.mp hstep
  exact does_settle heffect rfl

/-- The racers that are left were racers before. -/
theorem does_continueRace {racers : List Ref} {i : ℕ} {elapsed : ℚ} (heffect : Effect σ e core)
    (hpc : σ.pc t = .racing racers) :
    Does σ e ((σ.withCore core).continueRace t (racers.eraseIdx i) elapsed) := by
  unfold System.continueRace
  split_ifs
  · exact does_settle heffect rfl
  · refine does_goto heffect fun p hp => .inl ?_
    rw [hpc]
    exact List.mem_of_mem_eraseIdx hp

theorem does_route {request : RouteRequest} (hstep : σ.route t request = some σ') :
    Does σ (.route t request) σ' := by
  have hselect : Effect σ (.route t request) (σ.core.selectProvider request).2 := .select rfl rfl
  unfold System.route at hstep
  split at hstep
  case h_2 => cases hstep
  case h_1 =>
    split at hstep
    next heq =>
      cases hstep
      rw [heq] at hselect
      exact does_settle hselect rfl
    next p core heq =>
      cases hstep
      rw [heq] at hselect
      refine does_goto hselect fun q hq => .inr ?_
      obtain rfl := List.mem_singleton.mp hq
      exact isAvailable_of_select (congrArg Prod.fst heq)

theorem does_record {outcome : Outcome} {elapsed : ℚ}
    (hstep : σ.record t outcome elapsed = some σ') : Does σ (.record t outcome elapsed) σ' := by
  unfold System.record at hstep
  split at hstep
  case h_2 => cases hstep
  case h_1 p hpc =>
    have hrecorded : σ.recorded (.record t outcome elapsed) = some ⟨p, outcome, elapsed⟩ := by
      simp only [System.recorded, hpc]
    have houtcome : Effect σ (.record t outcome elapsed) _ := .outcome rfl hrecorded
    cases outcome with
    | ok result =>
      cases hstep
      exact does_settle houtcome rfl
    | error e =>
      cases hstep
      exact does_settle houtcome rfl

theorem does_judge (hstep : σ.judge t = some σ') : Does σ (.judge t) σ' := by
  have hsame : Effect σ (.judge t) σ.core := .same rfl rfl
  unfold System.judge at hstep
  split at hstep
  case h_2 => cases hstep
  case h_1 =>
    split_ifs at hstep
    · cases hstep
      exact does_settle hsame rfl
    · exact does_answerFailed hsame hstep

theorem does_degrade (hstep : σ.degrade t = some σ') : Does σ (.degrade t) σ' := by
  unfold System.degrade at hstep
  split at hstep
  case h_2 => cases hstep
  case h_1 p _ _ hpc =>
    have hwrites : σ.writes (.degrade t) = some (p, .degraded) := by
      simp only [System.writes, hpc]
    exact does_answerFailed (.status rfl rfl hwrites) hstep

theorem does_race {providerNames : List String} (hstep : σ.race t providerNames = some σ') :
    Does σ (.race t providerNames) σ' := by
  have hsame : Effect σ (.race t providerNames) σ.core := .same rfl rfl
  unfold System.race at hstep
  split at hstep
  case h_2 => cases hstep
  case h_1 =>
    split at hstep
    next =>
      cases hstep
      exact does_settle hsame rfl
    next =>
      cases hstep
      exact does_goto hsame fun p hp => .inr (isAvailable_of_racers hp)

theorem does_complete {i : ℕ} {outcome : Outcome} {elapsed : ℚ}
    (hstep : σ.complete t i outcome elapsed = some σ') :
    Does σ (.complete t i outcome elapsed) σ' := by
  unfold System.complete at hstep
  split at hstep
  case h_2 => cases hstep
  case h_1 racers hpc =>
    obtain ⟨p, hp, rfl⟩ := Option.map_eq_some_iff.mp hstep
    cases outcome with
    | ok result =>
      by_cases hsuccess : result.success = true
      · have hrecorded : σ.recorded (.complete t i (.ok result) elapsed) =
            some ⟨p, .ok result, elapsed⟩ := by
          simp [System.recorded, hpc, hp, hsuccess]
        simp only [hsuccess, if_true]
        exact does_settle (.outcome rfl hrecorded) rfl
      · have hrecorded : σ.recorded (.complete t i (.ok result) elapsed) = none := by
          simp [System.recorded, hpc, hp, hsuccess]
        simp only [hsuccess]
        rw [if_neg (by simp)]
        exact does_continueRace (.same rfl hrecorded) hpc
    | error e =>
      have hrecorded : σ.recorded (.complete t i (.error e) elapsed) =
          some ⟨p, .error e, elapsed⟩ := by
        simp [System.recorded, hpc, hp]
      exact does_continueRace (.outcome rfl hrecorded) hpc

theorem does_timeout (hstep : σ.timeout t = some σ') : Does σ (.timeout t) σ' := by
  unfold System.timeout at hstep
  split at hstep
  case h_2 => cases hstep
  case h_1 =>
    cases hstep
    exact does_settle (.same rfl rfl) rfl

theorem does_check (hstep : σ.check t = some σ') : Does σ (.check t) σ' := by
  unfold System.check at hstep
  split at hstep
  case h_2 => cases hstep
  case h_1 =>
    cases hstep
    exact does_settle (.same rfl rfl) rfl

theorem does_inspect {now : ℚ} (hstep : σ.inspect t now = some σ') :
    Does σ (.inspect t now) σ' := by
  unfold System.inspect at hstep
  split at hstep
  case h_1 =>
    cases hstep
    exact does_settle (.same rfl rfl) rfl
  case h_2 =>
    obtain ⟨provider, -, rfl⟩ := Option.map_eq_some_iff.mp hstep
    exact does_settle (.check rfl rfl) rfl
  case h_3 => cases hstep

theorem does_write (hstep : σ.write t = some σ') : Does σ (.write t) σ' := by
  unfold System.write at hstep
  split at hstep
  case h_2 => cases hstep
  case h_1 p verdict _ _ hpc =>
    have hwrites : σ.writes (.write t) = some (p, (verdict : ProviderStatus)) := by
      simp only [System.writes, hpc]
    cases hstep
    exact does_settle (.status rfl rfl hwrites) rfl

theorem does_report (hstep : σ.report t = some σ') : Does σ (.report t) σ' := by
  unfold System.report at hstep
  split at hstep
  case h_2 => cases hstep
  case h_1 =>
    obtain ⟨provider, -, rfl⟩ := Option.map_eq_some_iff.mp hstep
    exact does_settle (.same rfl rfl) rfl

theorem does_of_step (hstep : σ.step e = some σ') : Does σ e σ' := by
  cases e with
  | operator p status =>
    cases hstep
    exact ⟨.status rfl rfl rfl, fun _ _ hp => .inl hp⟩
  | route t request => exact does_route hstep
  | record t outcome elapsed => exact does_record hstep
  | judge t => exact does_judge hstep
  | degrade t => exact does_degrade hstep
  | race t providerNames => exact does_race hstep
  | complete t i outcome elapsed => exact does_complete hstep
  | timeout t => exact does_timeout hstep
  | check t => exact does_check hstep
  | inspect t now => exact does_inspect hstep
  | write t => exact does_write hstep
  | report t => exact does_report hstep

/-- A provider that is available is in the list. -/
theorem lt_of_isAvailable {core : RouterCore} {p : Ref} (h : core.isAvailable p = true) :
    p < core.providers.length := by
  unfold RouterCore.isAvailable RouterCore.status at h
  by_contra hout
  rw [List.getElem?_eq_none (Nat.le_of_not_lt hout)] at h
  simp at h

end Steps
end LingNet.Providers
