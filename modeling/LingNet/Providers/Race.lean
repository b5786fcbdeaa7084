import Mathlib.Data.List.Perm.Basic
import Mathlib.Data.List.Sort
import Mathlib.Order.WithBot
import LingNet.Providers.Status

/-! `route_race` in time: its racers complete when they do, and `as_completed` hands them out until
the timeout. What the loop does with each of them takes no time. -/
namespace LingNet.Providers

/-- A call of `_execute` that was submitted: how it ends, and when, in seconds from the call of
`as_completed`. -/
structure Future where
  provider : Ref
  outcome : Outcome
  finish : WithTop ℚ

namespace Future

def finishedBy (f : Future) (time : ℚ) : Bool := f.finish ≤ (time : WithTop ℚ)

def succeeded (f : Future) : Bool :=
  match f.outcome with
  | .ok result => result.success
  | .error _ => false

end Future

/-- What has finished before `as_completed` is called. -/
def early (fs : List Future) : List Future := fs.filter (·.finishedBy 0)

/-- What finishes from then on until the timeout, as it finishes. -/
def late (fs : List Future) (timeout : ℚ) : List Future :=
  (fs.filter fun f => !f.finishedBy 0 && f.finishedBy timeout).insertionSort
    fun f g => f.finish ≤ g.finish

/-- What `as_completed` hands out, and whether it comes to its end: at the timeout it raises. The
futures are given as their set lists them, which is how the early ones are handed out. -/
def asCompleted (fs : List Future) (timeout : ℚ) : List Future × Bool :=
  (early fs ++ late fs timeout, fs.all fun f => f.finishedBy 0 || f.finishedBy timeout)

namespace RouterCore

/-- The futures of the racers, in the order of their submission. A name that is repeated has one for
each time. -/
def submit (self : RouterCore) (providerNames : List String) (calls : ℕ → Outcome × WithTop ℚ) :
    List Future :=
  (self.racers providerNames).zipIdx.map fun p => ⟨p.1, (calls p.2).1, (calls p.2).2⟩

/-- The loop of `route_race` over what `as_completed` hands out. The clock shows `elapsed k` when
the future after `k` others is taken. -/
def raceLoop (self : RouterCore) (elapsed : ℕ → ℚ) (exhausted : Bool) :
    List Future → ℕ → Answer × RouterCore
  | [], k =>
    (if exhausted then .result (noWinner (elapsed k) "All race participants failed") else .timeout,
      self)
  | f :: fs, k =>
    match f.outcome with
    | .ok result =>
      if result.success then
        (.result { result with latencyMs := elapsed k },
          self.recordSuccess f.provider result (elapsed k))
      else self.raceLoop elapsed exhausted fs (k + 1)
    | .error _ => (self.recordFailure f.provider).raceLoop elapsed exhausted fs (k + 1)

/-- `route_race`, when the set of its futures lists them as `fs`. -/
def routeRace (self : RouterCore) (request : RouteRequest) (providerNames : List String)
    (fs : List Future) (elapsed : ℕ → ℚ) : Answer × RouterCore :=
  if (self.racers providerNames).isEmpty then
    (.result (noWinner 0 "No available providers for race"), self)
  else self.raceLoop elapsed (asCompleted fs (request.timeoutMs / 1000)).2
    (asCompleted fs (request.timeoutMs / 1000)).1 0

end RouterCore

/-- A success that no other one precedes. -/
def IsFirst (fs : List Future) (f : Future) : Prop :=
  f ∈ fs ∧ f.succeeded = true ∧ ∀ g ∈ fs, g.succeeded = true → f.finish ≤ g.finish

/-- The future has succeeded with the result, but for its latency. -/
def Future.Gives (f : Future) (result : RouteResult) : Prop :=
  ∃ r, f.outcome = .ok r ∧ result = { r with latencyMs := result.latencyMs }

/-- Some success finishes by the timeout, or all racers do; what had finished before counts as in
time. If successes had, then the one that the set lists first is as good as a first one. -/
def Answerable (fs : List Future) (timeout : ℚ) : Prop :=
  ((∃ f ∈ fs, f.succeeded = true ∧ f.finishedBy (max 0 timeout) = true) ∨
    ∀ f ∈ fs, f.finishedBy (max 0 timeout) = true) ∧
  ∀ f, (early fs).find? (·.succeeded) = some f →
    ∃ g, IsFirst fs g ∧ g.finishedBy timeout = true ∧
      ∃ result, f.Gives result ∧ g.Gives result

section Race

variable {fs : List Future} {f g : Future} {timeout : ℚ}

theorem Future.Gives.unique {result result' : RouteResult} (hf : f.Gives result)
    (hg : g.Gives result) (hresult : f.Gives result') : g.Gives result' := by
  obtain ⟨r, hr, heq⟩ := hf
  obtain ⟨r', hr', heq'⟩ := hg
  obtain ⟨r'', hr'', heq''⟩ := hresult
  cases hr.symm.trans hr''
  refine ⟨r', hr', ?_⟩
  have hsame := heq.symm.trans heq'
  rw [heq'']
  simp only [RouteResult.mk.injEq] at hsame ⊢
  tauto

end Race

/-! Between the calls of other threads, a race is the steps of one thread. -/

section Events

open Function

variable {σ : System} {t : ThreadId} {self : RouterCore} {racers : List Ref} {f : Future}
  {last : Option Answer}

/-- A racer that is handed out is one of those that are left, and the rest are left behind it. -/
theorem exists_place {p : Ref} {l : List Ref} (h : racers.Perm (p :: l)) :
    ∃ i, racers[i]? = some p ∧ (racers.eraseIdx i).Perm l := by
  have hmem : p ∈ racers := h.mem_iff.mpr List.mem_cons_self
  obtain ⟨i, hi⟩ := List.mem_iff_getElem?.mp hmem
  have hplace : racers[i]? = (p :: l)[0]? := hi
  exact ⟨i, hi, (List.perm_eraseIdx_of_getElem?_eq hplace).mpr h⟩

/-- A racer that has not won: the next round, or the end. -/
theorem run_continueRace {elapsed : ℕ → ℚ} {exhausted : Bool} {fs rest : List Future} {k : ℕ}
    (hperm : racers.Perm ((fs ++ rest).map (·.provider))) (hexhausted : exhausted = rest.isEmpty)
    (hloop : racers ≠ [] → ∀ σ' : System, σ'.pc t = .racing racers → ∃ events σ'',
      Run.run System.step σ' events = some σ'' ∧
        σ''.core = (σ'.core.raceLoop elapsed exhausted fs k).2 ∧
        σ''.pc t = .idle (some (σ'.core.raceLoop elapsed exhausted fs k).1)) :
    ∃ events σ', Run.run System.step (σ.continueRace t racers (elapsed k)) events = some σ' ∧
      σ'.core = (σ.core.raceLoop elapsed exhausted fs k).2 ∧
      σ'.pc t = .idle (some (σ.core.raceLoop elapsed exhausted fs k).1) := by
  unfold System.continueRace
  by_cases hracers : racers = []
  · have hnone : fs ++ rest = [] := by simpa [hracers] using hperm
    obtain ⟨rfl, rfl⟩ := List.append_eq_nil_iff.mp hnone
    rw [if_pos (by simpa using hracers), hexhausted]
    exact ⟨[], _, rfl, rfl, update_self ..⟩
  · rw [if_neg (by simpa using hracers)]
    exact hloop hracers _ (update_self ..)

/-- The steps of a thread that no other thread interrupts come to what the loop returns or raises,
and to the router that it leaves. -/
theorem run_raceLoop {elapsed : ℕ → ℚ} {exhausted : Bool} {fs rest : List Future} {k : ℕ}
    (hpc : σ.pc t = .racing racers) (hne : racers ≠ [])
    (hperm : racers.Perm ((fs ++ rest).map (·.provider))) (hexhausted : exhausted = rest.isEmpty) :
    ∃ events σ', Run.run System.step σ events = some σ' ∧
      σ'.core = (σ.core.raceLoop elapsed exhausted fs k).2 ∧
      σ'.pc t = .idle (some (σ.core.raceLoop elapsed exhausted fs k).1) := by
  induction fs generalizing σ racers k with
  | nil =>
    have hrest : exhausted = false := by
      rw [hexhausted]
      cases rest with
      | nil => exact absurd hperm.eq_nil hne
      | cons f rest => rfl
    have hstep : σ.step (.timeout t) = some (σ.goto t (.idle (some .timeout))) := by
      simp [System.step, System.timeout, hpc]
    refine ⟨[.timeout t], _, Run.run_cons_of_step hstep [], rfl, ?_⟩
    rw [hrest]
    exact update_self ..
  | cons f fs ih =>
    obtain ⟨i, hi, herase⟩ := exists_place hperm
    have hloop : ∀ {n}, racers.eraseIdx i ≠ [] → ∀ σ' : System,
        σ'.pc t = .racing (racers.eraseIdx i) → ∃ events σ'',
          Run.run System.step σ' events = some σ'' ∧
            σ''.core = (σ'.core.raceLoop elapsed exhausted fs n).2 ∧
            σ''.pc t = .idle (some (σ'.core.raceLoop elapsed exhausted fs n).1) :=
      fun hleft σ' hracing => ih hracing hleft herase
    unfold RouterCore.raceLoop
    rcases houtcome : f.outcome with e | result
    · have hstep : σ.step (.complete t i (.error e) (elapsed (k + 1))) =
          some ((σ.withCore (σ.core.recordFailure f.provider)).continueRace t (racers.eraseIdx i)
            (elapsed (k + 1))) := by
        simp [System.step, System.complete, hpc, hi]
      obtain ⟨events, σ', hrun, hend⟩ :=
        run_continueRace (σ := σ.withCore _) herase hexhausted hloop
      exact ⟨_, σ', (Run.run_cons_of_step hstep events).trans hrun, hend⟩
    · dsimp only
      by_cases hsuccess : result.success = true
      · rw [if_pos hsuccess]
        have hstep : σ.step (.complete t i (.ok result) (elapsed k)) =
            some ((σ.withCore (σ.core.recordSuccess f.provider result (elapsed k))).answer t
              { result with latencyMs := elapsed k }) := by
          simp [System.step, System.complete, hpc, hi, hsuccess]
        exact ⟨_, _, Run.run_cons_of_step hstep [], rfl, update_self ..⟩
      · rw [if_neg hsuccess]
        have hstep : σ.step (.complete t i (.ok result) (elapsed (k + 1))) =
            some (σ.continueRace t (racers.eraseIdx i) (elapsed (k + 1))) := by
          simp [System.step, System.complete, hpc, hi, hsuccess]
        obtain ⟨events, σ', hrun, hend⟩ := run_continueRace (σ := σ) herase hexhausted hloop
        exact ⟨_, σ', (Run.run_cons_of_step hstep events).trans hrun, hend⟩

/-- What is not handed out by the timeout. -/
theorem exists_rest (fs : List Future) (timeout : ℚ) :
    ∃ rest, ((asCompleted fs timeout).1 ++ rest).Perm fs ∧
      (asCompleted fs timeout).2 = rest.isEmpty := by
  refine ⟨fs.filter fun f => !f.finishedBy timeout && !f.finishedBy 0, ?_, ?_⟩
  · have hlate : (late fs timeout).Perm
        ((fs.filter fun f => !f.finishedBy 0).filter (·.finishedBy timeout)) := by
      rw [List.filter_filter]
      refine (List.perm_insertionSort _ _).trans (List.Perm.of_eq ?_)
      exact List.filter_congr fun f _ => Bool.and_comm _ _
    have hpending := List.filter_append_perm (·.finishedBy timeout)
      (fs.filter fun f => !f.finishedBy 0)
    rw [← List.filter_filter]
    have hlast := (hlate.append_right _).trans hpending
    unfold asCompleted
    rw [List.append_assoc]
    exact (hlast.append_left _).trans (List.filter_append_perm _ fs)
  · unfold asCompleted
    rw [Bool.eq_iff_iff, List.all_eq_true, List.isEmpty_iff, List.filter_eq_nil_iff]
    refine forall_congr' fun f => forall_congr' fun _ => ?_
    cases f.finishedBy 0 <;> cases f.finishedBy timeout <;> simp

/-- A race is a run of its thread. -/
theorem run_routeRace {request : RouteRequest} {providerNames : List String}
    {calls : ℕ → Outcome × WithTop ℚ} {elapsed : ℕ → ℚ} {fs : List Future}
    (hset : fs.Perm (σ.core.submit providerNames calls)) (hidle : σ.pc t = .idle last) :
    ∃ events σ', Run.run System.step σ events = some σ' ∧
      σ'.core = (σ.core.routeRace request providerNames fs elapsed).2 ∧
      σ'.pc t = .idle (some (σ.core.routeRace request providerNames fs elapsed).1) := by
  have hproviders : (σ.core.submit providerNames calls).map (·.provider) =
      σ.core.racers providerNames := by
    unfold RouterCore.submit
    rw [List.map_map]
    exact List.zipIdx_map_fst 0 _
  unfold RouterCore.routeRace
  rcases hracers : σ.core.racers providerNames with _ | ⟨p, racers⟩
  · have hstep : σ.step (.race t providerNames) =
        some (σ.answer t (noWinner 0 "No available providers for race")) := by
      simp [System.step, System.race, hidle, hracers]
    exact ⟨_, _, Run.run_cons_of_step hstep [], rfl, update_self ..⟩
  · have hstep : σ.step (.race t providerNames) = some (σ.goto t (.racing (p :: racers))) := by
      simp [System.step, System.race, hidle, hracers]
    obtain ⟨rest, hrest, hexhausted⟩ := exists_rest fs (request.timeoutMs / 1000)
    have hperm : (p :: racers).Perm
        (((asCompleted fs (request.timeoutMs / 1000)).1 ++ rest).map (·.provider)) := by
      rw [← hracers, ← hproviders]
      exact ((hrest.trans hset).map _).symm
    obtain ⟨events, σ', hrun, hend⟩ := run_raceLoop (σ := σ.goto t (.racing (p :: racers)))
      (update_self ..) (List.cons_ne_nil p racers) hperm hexhausted
    exact ⟨_, σ', (Run.run_cons_of_step hstep events).trans hrun, hend⟩

end Events

end LingNet.Providers
