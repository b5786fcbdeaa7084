import LingNet.Gqap.Interleaving

/-! What the lists guarantee to threads that pop and push in any order, and the schedules in
which a stale successor breaks it. -/
namespace LingNet.Gqap.Machine
open Function

theorem safe_booted {mapping : Option ℕ} {table : Bool} {blockCount blockSize : ℕ} {s : Globals}
    (hs : initPools mapping table blockCount blockSize = .ok s) :
    ∃ c, Safe (booted s) c := by
  obtain ⟨backing, w⟩ := booted_wf hs
  refine ⟨⟨(bootHoldings blockCount).stack, []⟩, w.represents, rfl, ?_, fun t => trivial, ?_⟩
  · have hnd := w.nodup
    unfold Custody.State.total at hnd ⊢
    simpa [bootHoldings] using hnd
  · intro b
    rfl

theorem Safe.step {σ σ' : Machine} {c : Owners} {ev : Event} (h : Safe σ c)
    (hfresh : Fresh σ ev) (hstep : σ.step ev = some σ') : ∃ c', Safe σ' c' := by
  cases ev with
  | start t task => exact h.change (change_of_start (h.owns t) hstep)
  | advance t => exact h.change (change_of_advance (h.owns t) hfresh hstep)

/-- The run rule of the machine. -/
theorem safe_of_run {mapping : Option ℕ} {table : Bool} {blockCount blockSize : ℕ} {s : Globals}
    (hs : initPools mapping table blockCount blockSize = .ok s) {sched : List Event} {σ : Machine}
    (hfresh : Run.AllSteps step Fresh (booted s) sched)
    (hr : Run.run step (booted s) sched = some σ) : ∃ c, Safe σ c :=
  Run.invariant_of_step (I := fun σ => ∃ c, Safe σ c)
    (fun _ _ _ ⟨_, h⟩ hfresh hstep => h.step hfresh hstep) (safe_booted hs) hfresh hr

/-- No block has two holders, and no held block is reachable from a head, in any state that
an interleaving with fresh exchanges reaches. -/
theorem pools_exclusive {mapping : Option ℕ} {table : Bool} {blockCount blockSize : ℕ}
    {s : Globals} (hs : initPools mapping table blockCount blockSize = .ok s)
    {sched : List Event} {σ : Machine} (hfresh : Run.AllSteps step Fresh (booted s) sched)
    (hr : Run.run step (booted s) sched = some σ) :
    σ.held.Nodup ∧ (∀ t u b, (t, b) ∈ σ.held → (u, b) ∈ σ.held → t = u) ∧
      ∀ t b p, (t, b) ∈ σ.held → ¬ Chain.Reaches σ.links.next (σ.links.head p) b := by
  obtain ⟨c, h⟩ := safe_of_run hs hfresh hr
  refine ⟨?_, fun t u b ht hu => h.owner_unique ht hu, fun t b p ht hreach => ?_⟩
  · have hnd := Custody.State.held_nodup h.nodup
    rw [h.held] at hnd
    exact List.Nodup.of_map Prod.snd hnd
  · exact h.not_mem_stack ht p ((h.represents p).mem_iff.mpr hreach)

theorem pools_exclusive_two_threads :
    ∃ σ, Run.run step (booted (initialGlobals 4096 2 64))
        [.start 1 .commonPop, .advance 1, .start 2 .commonPop, .advance 2, .advance 1, .advance 2,
          .advance 2, .advance 1, .advance 1, .advance 1, .advance 1] = some σ ∧
      σ.held.Nodup ∧ (∀ t u b, (t, b) ∈ σ.held → (u, b) ∈ σ.held → t = u) ∧
      ∀ t b p, (t, b) ∈ σ.held → ¬ Chain.Reaches σ.links.next (σ.links.head p) b := by
  have hs : initPools (some 4096) true 2 64 = .ok (initialGlobals 4096 2 64) := rfl
  have hr : Run.run step (booted (initialGlobals 4096 2 64))
    [.start 1 .commonPop, .advance 1, .start 2 .commonPop, .advance 2, .advance 1, .advance 2,
      .advance 2, .advance 1, .advance 1, .advance 1, .advance 1] = some _ := rfl
  refine ⟨_, hr, pools_exclusive hs ?_ hr⟩
  iterate 6 refine Run.allSteps_of_step trivial rfl ?_
  -- the second thread wins the exchange, the first one loses it and starts over
  refine Run.allSteps_of_step (fun _ b hb => ⟨b, hb, .refl⟩) rfl ?_
  refine Run.allSteps_of_step (fun hhead => absurd hhead (by decide)) rfl ?_
  iterate 2 refine Run.allSteps_of_step trivial rfl ?_
  refine Run.allSteps_of_step (fun _ b hb => ?_) rfl trivial
  cases hb

/-- The head of the list comes back under a thread that has loaded its old successor: block 1
is held and reachable at once, and after one more pop held by both threads. -/
theorem stale_successor_duplicates :
    ∃ σ τ, Run.run step (booted (initialGlobals 4096 3 64))
        (List.flatten [Event.solo 1 .commonPop 2, Event.solo 2 .commonPop 3,
          Event.solo 2 .commonPop 3, Event.solo 2 (.commonPush 0) 3, [.advance 1]]) = some σ ∧
      (2, 1) ∈ σ.held ∧ Chain.Reaches σ.links.next (σ.links.head .common) 1 ∧
      Run.run step σ (Event.solo 1 .commonPop 3) = some τ ∧
      (1, 1) ∈ τ.held ∧ (2, 1) ∈ τ.held :=
  ⟨_, _, rfl, by decide, ⟨1, rfl, .refl⟩, rfl, by decide, by decide⟩

/-- Each push into quarantine is answered by at most one return of `popSafe`, and the block is
reachable from the quarantine head in between, in any state that an interleaving with fresh
exchanges and stores reaches. -/
theorem quarantine_exclusive {mapping : Option ℕ} {table : Bool} {blockCount blockSize : ℕ}
    {s : Globals} (hs : initPools mapping table blockCount blockSize = .ok s)
    {sched : List Event} {σ : Machine} (hfresh : Run.AllSteps step Fresh (booted s) sched)
    (hr : Run.run step (booted s) sched = some σ) (b : BlockId) :
    σ.returned b ≤ σ.pushed b ∧ σ.pushed b ≤ σ.returned b + 1 ∧
      (σ.returned b < σ.pushed b ↔
        Chain.Reaches σ.links.next (σ.links.head .quarantine) b) := by
  obtain ⟨c, h⟩ := safe_of_run hs hfresh hr
  have hcount := h.counts b
  have hreach := (h.represents .quarantine).mem_iff (b := b)
  have hle : (c.stack .quarantine).count b ≤ 1 :=
    List.nodup_iff_count_le_one.mp (h.represents .quarantine).nodup b
  have hpos : 0 < (c.stack .quarantine).count b ↔ b ∈ c.stack .quarantine := List.count_pos_iff
  refine ⟨by omega, by omega, ?_⟩
  rw [← hreach, ← hpos]
  omega

theorem quarantine_exclusive_one_round :
    ∃ σ, Run.run step (booted (initialGlobals 4096 1 64))
        (List.flatten [Event.solo 1 .init 5, Event.solo 1 (.deinit 0) 5,
          [.start 1 .incrementGeneration, .start 1 .incrementGeneration],
          Event.solo 2 .sanitizeOne 5]) = some σ ∧
      σ.returned 0 ≤ σ.pushed 0 ∧ σ.pushed 0 ≤ σ.returned 0 + 1 ∧
      (σ.returned 0 < σ.pushed 0 ↔
        Chain.Reaches σ.links.next (σ.links.head .quarantine) 0) := by
  have hs : initPools (some 4096) true 1 64 = .ok (initialGlobals 4096 1 64) := rfl
  have hr : Run.run step (booted (initialGlobals 4096 1 64))
    (List.flatten [Event.solo 1 .init 5, Event.solo 1 (.deinit 0) 5,
      [.start 1 .incrementGeneration, .start 1 .incrementGeneration],
      Event.solo 2 .sanitizeOne 5]) = some _ := rfl
  refine ⟨_, hr, quarantine_exclusive hs ?_ hr 0⟩
  iterate 5 refine Run.allSteps_of_step trivial rfl ?_
  refine Run.allSteps_of_step (fun _ b hb => ?_) rfl ?_
  · cases hb
  iterate 13 refine Run.allSteps_of_step trivial rfl ?_
  exact Run.allSteps_of_step ⟨rfl, rfl⟩ rfl trivial

/-- Two overlaps of `popSafe`: with another `popSafe` both return the block that was pushed
once, and with a push the block that was pushed is lost. -/
theorem quarantine_overlaps :
    (∃ σ, Run.run step (booted (initialGlobals 4096 1 64))
        (List.flatten [Event.solo 1 .init 5, Event.solo 1 (.deinit 0) 5,
          [.start 1 .incrementGeneration, .start 1 .incrementGeneration],
          Event.solo 2 .sanitizeOne 4, Event.solo 1 .init 7, [.advance 2]]) = some σ ∧
      σ.pushed 0 = 1 ∧ σ.returned 0 = 2 ∧ (1, 0) ∈ σ.held ∧ (2, 0) ∈ σ.held) ∧
    ∃ σ, Run.run step (booted (initialGlobals 4096 2 64))
        (List.flatten [Event.solo 1 .init 5, Event.solo 3 .init 5, Event.solo 1 (.deinit 0) 5,
          [.start 1 .incrementGeneration, .start 1 .incrementGeneration],
          Event.solo 2 .sanitizeOne 4, Event.solo 3 (.deinit 1) 5, [.advance 2]]) = some σ ∧
      σ.pushed 1 = 1 ∧ σ.returned 1 = 0 ∧
      ¬ Chain.Reaches σ.links.next (σ.links.head .quarantine) 1 := by
  refine ⟨⟨_, rfl, rfl, rfl, by decide, by decide⟩, ⟨_, rfl, rfl, rfl, ?_⟩⟩
  intro hreach
  obtain ⟨a, ha, _⟩ := hreach
  cases ha

end LingNet.Gqap.Machine
