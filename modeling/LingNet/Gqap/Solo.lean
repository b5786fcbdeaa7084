import LingNet.Gqap.Machine

/-! A thread that runs alone: its atomic steps add up to the sequential operations. -/
namespace LingNet.Gqap.Machine
open Function

/-- The machine and the sequential process have the same lists, dates and generation. -/
structure Agrees (σ : Machine) (s : Globals) : Prop where
  links : σ.links = s.links
  retiredGen : ∀ b, σ.retiredGen b = (s.blocks b).retiredGen
  generation : σ.generation = s.currentGeneration

theorem agrees_booted (s : Globals) : Agrees (booted s) s := ⟨rfl, fun _ => rfl, rfl⟩

variable {σ σ' : Machine} {s : Globals} {t : ThreadId} {p : PoolId} {b : BlockId}

theorem run_advances (h : σ.advance t = some σ') (n : ℕ) :
    Run.run step σ (List.replicate (n + 1) (.advance t)) =
      Run.run step σ' (List.replicate n (.advance t)) := by
  have hstep : step σ (.advance t) = some σ' := h
  exact Run.run_cons_of_step hstep _

theorem goto_goto (σ : Machine) (t : ThreadId) (pc pc' : Pc) :
    (σ.goto t pc).goto t pc' = σ.goto t pc' := by
  unfold goto
  rw [update_idem]

/-- The three steps of a pop: the exchange finds the head that was loaded. -/
theorem run_pop {init : Option ℕ} (hpc : σ.pc t = .popLoad p init)
    (hhead : σ.links.head p = some b) :
    Run.run step σ (List.replicate 3 (.advance t)) =
      some ({ σ with links := σ.links.pop p b, held := (t, b) :: σ.held }.goto t .idle) := by
  have hload : σ.advance t = some (σ.goto t (.popNext p init b)) := by
    unfold advance
    simp only [hpc, hhead]
  have hnext : (σ.goto t (.popNext p init b)).advance t =
      some (σ.goto t (.popExchange p init b (σ.links.next b))) := by
    unfold advance
    simp only [pc_goto_self, links_goto, goto_goto]
  have hexchange : (σ.goto t (.popExchange p init b (σ.links.next b))).advance t =
      some ({ σ with links := σ.links.pop p b, held := (t, b) :: σ.held }.goto t .idle) := by
    unfold advance
    simp only [pc_goto_self, links_goto, hhead, if_true]
    simp only [goto, update_idem, Chain.Links.pop]
  rw [run_advances hload, run_advances hnext, run_advances hexchange]
  rfl

/-- The three steps of a push. -/
theorem run_push (hpc : σ.pc t = .pushLoad p b) :
    Run.run step σ (List.replicate 3 (.advance t)) =
      some ({ σ with
        links := σ.links.push p b
        held := σ.held.erase (t, b)
        pushed := if p = PoolId.quarantine then update σ.pushed b (σ.pushed b + 1)
          else σ.pushed }.goto t .idle) := by
  have hload : σ.advance t = some (σ.goto t (.pushStore p b (σ.links.head p))) := by
    unfold advance
    simp only [hpc]
  have hstore : (σ.goto t (.pushStore p b (σ.links.head p))).advance t =
      some ({ σ with links := σ.links.setNext b (σ.links.head p) }.goto t
        (.pushExchange p b (σ.links.head p))) := by
    unfold advance
    simp only [pc_goto_self, links_goto]
    simp only [goto, update_idem]
  have hexchange : ({ σ with links := σ.links.setNext b (σ.links.head p) }.goto t
      (.pushExchange p b (σ.links.head p))).advance t =
      some ({ σ with
        links := σ.links.push p b
        held := σ.held.erase (t, b)
        pushed := if p = PoolId.quarantine then update σ.pushed b (σ.pushed b + 1)
          else σ.pushed }.goto t .idle) := by
    unfold advance
    have hhead : (σ.links.setNext b (σ.links.head p)).head p = σ.links.head p := rfl
    simp only [pc_goto_self, links_goto, hhead, if_true]
    simp only [goto, update_idem, Chain.Links.push]
  rw [run_advances hload, run_advances hstore, run_advances hexchange]
  rfl

/-- The four steps of a `popSafe` that finds a due block. -/
theorem run_popSafe {sanitizing : Bool} {gen : ℕ} (hpc : σ.pc t = .safeLoad sanitizing gen)
    (hhead : σ.links.head .quarantine = some b) (hlt : σ.retiredGen b + 1 < Zig.usizeEnd)
    (hdue : σ.retiredGen b + 1 < gen) :
    Run.run step σ (List.replicate 4 (.advance t)) =
      some ({ σ with
        links := σ.links.pop .quarantine b
        held := (t, b) :: σ.held
        returned := update σ.returned b (σ.returned b + 1) }.goto t
          (if sanitizing then .pushLoad .l2 b else .idle)) := by
  have hload : σ.advance t = some (σ.goto t (.safeCheck sanitizing gen b)) := by
    unfold advance
    simp only [hpc, hhead]
  have hcheck : (σ.goto t (.safeCheck sanitizing gen b)).advance t =
      some (σ.goto t (.safeNext sanitizing b)) := by
    have hadd : (Zig.add (σ.retiredGen b) 1 : Zig.Outcome ArenaError ℕ) =
        .ok (σ.retiredGen b + 1) := Zig.add_eq_ok.mpr ⟨hlt, rfl⟩
    have hretired : (σ.goto t (.safeCheck sanitizing gen b)).retiredGen = σ.retiredGen := rfl
    unfold advance
    simp only [pc_goto_self, hretired, hadd, goto_goto]
    rw [if_neg (by omega)]
  have hnext : (σ.goto t (.safeNext sanitizing b)).advance t =
      some (σ.goto t (.safeStore sanitizing b (σ.links.next b))) := by
    unfold advance
    simp only [pc_goto_self, links_goto, goto_goto]
  have hstore : (σ.goto t (.safeStore sanitizing b (σ.links.next b))).advance t =
      some ({ σ with
        links := σ.links.pop .quarantine b
        held := (t, b) :: σ.held
        returned := update σ.returned b (σ.returned b + 1) }.goto t
          (if sanitizing then .pushLoad .l2 b else .idle)) := by
    unfold advance
    simp only [pc_goto_self, links_goto]
    simp only [goto, update_idem, Chain.Links.pop]
  rw [run_advances hload, run_advances hcheck, run_advances hnext, run_advances hstore]
  rfl

/-! The same against the sequential operations. -/

variable {s' : Globals} {f : BlockFlags}

theorem popHead_eq_some (h : s.popHead p f = some (b, s')) :
    s.links.head p = some b ∧ s' = (s.unlink p b).setFlags b f := by
  unfold Globals.popHead at h
  split_ifs at h
  cases hhead : (s.pool p).head with
  | none => simp [hhead] at h
  | some x =>
    simp only [hhead, Option.some.injEq, Prod.mk.injEq] at h
    obtain ⟨rfl, rfl⟩ := h
    exact ⟨hhead, rfl⟩

theorem popSafe_eq_some {ε : Type} {gen : ℕ}
    (h : (QuarantinePool.popSafe s gen : Zig.Outcome ε _) = .ok (some (b, s'))) :
    s.links.head .quarantine = some b ∧ (s.blocks b).retiredGen + 1 < Zig.usizeEnd ∧
      (s.blocks b).retiredGen + 1 < gen ∧ s' = s.unlink .quarantine b := by
  unfold QuarantinePool.popSafe at h
  cases hhead : (s.pool .quarantine).head with
  | none => simp [hhead] at h
  | some x =>
    simp only [hhead] at h
    obtain ⟨due, hdue, h⟩ := Zig.Outcome.bind_eq_ok.mp h
    obtain ⟨hfit, rfl⟩ := Zig.add_eq_ok.mp hdue
    simp only [Zig.Outcome.pure_eq, Zig.Outcome.ok.injEq] at h
    split_ifs at h with hle
    cases h
    exact ⟨hhead, hfit, Nat.lt_of_not_le hle, rfl⟩

/-- A machine step and a sequential one that do the same to the lists. -/
theorem Agrees.next (h : Agrees σ s) (hlinks : σ'.links = s'.links)
    (hdates : σ'.retiredGen = σ.retiredGen)
    (hdates' : ∀ x, (s'.blocks x).retiredGen = (s.blocks x).retiredGen)
    (hgen : σ'.generation = σ.generation) (hgen' : s'.currentGeneration = s.currentGeneration) :
    Agrees σ' s' := by
  constructor
  · exact hlinks
  · intro x
    rw [hdates, hdates', h.retiredGen]
  · rw [hgen, hgen', h.generation]

theorem Agrees.pop (h : Agrees σ s) (f : BlockFlags) (hlinks : σ'.links = σ.links.pop p b)
    (hdates : σ'.retiredGen = σ.retiredGen) (hgen : σ'.generation = σ.generation) :
    Agrees σ' ((s.unlink p b).setFlags b f) := by
  refine h.next ?_ hdates ?_ hgen rfl
  · rw [Globals.links_setFlags, Globals.links_unlink, hlinks, h.links]
  · intro x
    rw [Globals.retiredGen_setFlags, Globals.blocks_unlink]

theorem Agrees.push (h : Agrees σ s) (hlinks : σ'.links = σ.links.push p b)
    (hdates : σ'.retiredGen = σ.retiredGen) (hgen : σ'.generation = σ.generation) :
    Agrees σ' (s.link p b) := by
  refine h.next ?_ hdates ?_ hgen rfl
  · rw [Globals.links_link, hlinks, h.links]
  · intro x
    rw [Globals.retiredGen_link]

theorem run_solo {task : Task} (h : σ.start t task = some σ') (n : ℕ) :
    Run.run step σ (Event.solo t task n) = Run.run step σ' (List.replicate n (.advance t)) := by
  have hstep : step σ (.start t task) = some σ' := h
  exact Run.run_cons_of_step hstep _

theorem solo_commonPop (h : Agrees σ s) (hidle : σ.pc t = .idle)
    (hpop : CommonPool.pop s = some (b, s')) :
    ∃ σ', Run.run step σ (Event.solo t .commonPop 3) = some σ' ∧ Agrees σ' s' ∧
      σ'.held = (t, b) :: σ.held ∧ σ'.pc t = .idle := by
  obtain ⟨hhead, rfl⟩ := popHead_eq_some hpop
  have hstart : σ.start t .commonPop = some (σ.goto t (.popLoad .common none)) := by
    unfold start
    simp [hidle]
  rw [run_solo hstart, run_pop (pc_goto_self σ t _) (by rw [links_goto, h.links, hhead])]
  exact ⟨_, rfl, h.pop {} rfl rfl rfl, rfl, pc_goto_self _ t .idle⟩

theorem solo_commonPush (h : Agrees σ s) (hidle : σ.pc t = .idle) (hheld : (t, b) ∈ σ.held) :
    ∃ σ', Run.run step σ (Event.solo t (.commonPush b) 3) = some σ' ∧
      Agrees σ' (CommonPool.push s b) ∧ σ'.held = σ.held.erase (t, b) ∧ σ'.pc t = .idle := by
  have hstart : σ.start t (.commonPush b) = some (σ.goto t (.pushLoad .common b)) := by
    unfold start
    simp [hidle, hheld]
  rw [run_solo hstart, run_push (pc_goto_self σ t _)]
  exact ⟨_, rfl, h.push rfl rfl rfl, rfl, pc_goto_self _ t .idle⟩

/-- `Arena(.untrusted).deinit`: the generation, the date of the block, and a push. -/
theorem solo_deinit (h : Agrees σ s) (hidle : σ.pc t = .idle) {a : Arena}
    (htier : a.tier = .untrusted) (hheld : (t, a.block) ∈ σ.held) :
    ∃ σ', Run.run step σ (Event.solo t (.deinit a.block) 5) = some σ' ∧ Agrees σ' (a.deinit s) ∧
      σ'.held = σ.held.erase (t, a.block) ∧ σ'.pc t = .idle := by
  have hstart : σ.start t (.deinit a.block) = some (σ.goto t (.deinitGen a.block)) := by
    unfold start
    simp [hidle, hheld]
  have hgen : (σ.goto t (.deinitGen a.block)).advance t =
      some (σ.goto t (.retire a.block σ.generation)) := by
    unfold advance
    simp only [pc_goto_self, goto_goto]
    rfl
  have hretire : (σ.goto t (.retire a.block σ.generation)).advance t =
      some ({ σ with retiredGen := update σ.retiredGen a.block σ.generation }.goto t
        (.pushLoad .quarantine a.block)) := by
    unfold advance
    simp only [pc_goto_self]
    simp only [goto, update_idem]
  have hagrees : Agrees { σ with retiredGen := update σ.retiredGen a.block σ.generation }
      (s.retire a.block s.currentGeneration) := by
    constructor
    · rw [Globals.links_retire]
      exact h.links
    · intro x
      by_cases hx : x = a.block
      · subst hx
        rw [Globals.retiredGen_retire_self, ← h.generation]
        exact update_self ..
      · rw [Globals.retiredGen_retire_of_ne s hx, ← h.retiredGen]
        exact update_of_ne hx ..
    · exact h.generation
  have hdeinit : a.deinit s = (s.retire a.block s.currentGeneration).link .quarantine a.block := by
    unfold Arena.deinit
    rw [htier]
    rfl
  rw [run_solo hstart, run_advances hgen, run_advances hretire, run_push (pc_goto_self _ t _),
    hdeinit]
  exact ⟨_, rfl, hagrees.push rfl rfl rfl, rfl, pc_goto_self _ t .idle⟩

/-- A round of the sanitizer that finds a due block. -/
theorem solo_sanitizeOne {ε : Type} (h : Agrees σ s) (hidle : σ.pc t = .idle)
    (hdone : (sanitizeOne s (currentGeneration s) : Zig.Outcome ε _) = .ok (true, s')) :
    ∃ σ', Run.run step σ (Event.solo t .sanitizeOne 8) = some σ' ∧ Agrees σ' s' ∧
      σ'.held = σ.held ∧ σ'.pc t = .idle := by
  unfold sanitizeOne at hdone
  obtain ⟨r, hpop, hrest⟩ := Zig.Outcome.bind_eq_ok.mp hdone
  cases r with
  | none => cases hrest
  | some r =>
    obtain ⟨b, s₁⟩ := r
    obtain ⟨hhead, hfit, hdue, rfl⟩ := popSafe_eq_some hpop
    cases hrest
    have hstart : σ.start t .sanitizeOne = some (σ.goto t .sanitizeGen) := by
      unfold start
      simp [hidle]
    have hgen : (σ.goto t .sanitizeGen).advance t =
        some (σ.goto t (.safeLoad true σ.generation)) := by
      unfold advance
      simp only [pc_goto_self, goto_goto]
      rfl
    have hsafe : Run.run step (σ.goto t (.safeLoad true σ.generation))
        (List.replicate 4 (.advance t)) = some _ :=
      run_popSafe (pc_goto_self ..) (by rw [links_goto, h.links, hhead]) (h.retiredGen b ▸ hfit)
        (h.retiredGen b ▸ h.generation ▸ hdue)
    have hsplit : List.replicate 7 (Event.advance t) =
      List.replicate 4 (.advance t) ++ List.replicate 3 (.advance t) := rfl
    rw [run_solo hstart, run_advances hgen, hsplit, Run.run_append_of_run hsafe,
      if_pos rfl, run_push (pc_goto_self ..)]
    refine ⟨_, rfl, h.next ?_ rfl ?_ rfl rfl, List.erase_cons_head .., pc_goto_self ..⟩
    · change (σ.links.pop .quarantine b).push .l2 b = Globals.links (L2Pool.push _ b)
      simp [L2Pool.push, h.links]
    · intro x
      change ((L2Pool.push _ b).blocks x).retiredGen = _
      simp [L2Pool.push]

/-- The step of an `init` that finds a pool empty. -/
theorem advance_empty (hhead : σ.links.head p = none) (init : Option ℕ) :
    (σ.goto t (.popLoad p init)).advance t = some (σ.goto t (afterEmpty p init)) := by
  unfold advance
  simp only [pc_goto_self, links_goto, hhead, goto_goto]

/-- An `init` loads the generation and turns to the `L2` pool. -/
theorem run_init (hidle : σ.pc t = .idle) (n : ℕ) :
    Run.run step σ (Event.solo t .init (n + 1)) =
      Run.run step (σ.goto t (.popLoad .l2 (some σ.generation)))
        (List.replicate n (.advance t)) := by
  have hstart : σ.start t .init = some (σ.goto t .initGen) := by
    unfold start
    simp [hidle]
  have hgen : (σ.goto t .initGen).advance t =
      some (σ.goto t (.popLoad .l2 (some σ.generation))) := by
    unfold advance
    simp only [pc_goto_self, goto_goto]
    rfl
  rw [run_solo hstart, run_advances hgen]

/-- `Arena(.untrusted).init`, whichever pool its block comes from. -/
theorem solo_init (h : Agrees σ s) (hinit : s.poolsInitialized = true) (hidle : σ.pc t = .idle)
    {a : Arena} (harena : Arena.init .untrusted s = .ok (a, s')) :
    ∃ n σ', Run.run step σ (Event.solo t .init n) = some σ' ∧ Agrees σ' s' ∧
      σ'.held = (t, a.block) :: σ.held ∧ σ'.pc t = .idle := by
  unfold Arena.init at harena
  dsimp only at harena
  cases hl2 : L2Pool.pop s with
  | some r =>
    obtain ⟨b, s₁⟩ := r
    simp only [hl2] at harena
    cases harena
    obtain ⟨hhead, rfl⟩ := popHead_eq_some hl2
    have hpop : Run.run step (σ.goto t (.popLoad .l2 (some σ.generation)))
        (List.replicate 3 (.advance t)) = some _ :=
      run_pop (pc_goto_self ..) (by rw [links_goto, h.links, hhead])
    exact ⟨3 + 1, _, (run_init hidle 3).trans hpop, h.pop _ rfl rfl rfl, rfl, pc_goto_self ..⟩
  | none =>
    have hempty : (σ.goto t (.popLoad .l2 (some σ.generation))).advance t =
        some (σ.goto t (.popLoad .common (some σ.generation))) :=
      advance_empty (by rw [h.links]; exact (Globals.popHead_eq_none_iff hinit _ _).mp hl2) _
    simp only [hl2] at harena
    cases hcommon : CommonPool.pop s with
    | some r =>
      obtain ⟨b, s₁⟩ := r
      simp only [hcommon] at harena
      cases harena
      obtain ⟨hhead, rfl⟩ := popHead_eq_some hcommon
      have hpop : Run.run step (σ.goto t (.popLoad .common (some σ.generation)))
          (List.replicate 3 (.advance t)) = some _ :=
        run_pop (pc_goto_self ..) (by rw [links_goto, h.links, hhead])
      refine ⟨4 + 1, _, (run_init hidle 4).trans ((run_advances hempty 3).trans hpop), ?_, rfl,
        pc_goto_self ..⟩
      refine h.next ?_ rfl ?_ rfl rfl
      · simp [h.links]
      · simp
    | none =>
      have hempty' : (σ.goto t (.popLoad .common (some σ.generation))).advance t =
          some (σ.goto t (.safeLoad false σ.generation)) :=
        advance_empty (by rw [h.links]; exact (Globals.popHead_eq_none_iff hinit _ _).mp hcommon) _
      simp only [hcommon] at harena
      obtain ⟨r, hsafe, harena⟩ := Zig.Outcome.bind_eq_ok.mp harena
      cases r with
      | none => cases harena
      | some r =>
        obtain ⟨b, s₁⟩ := r
        cases harena
        obtain ⟨hhead, hfit, hdue, rfl⟩ := popSafe_eq_some hsafe
        have hpop : Run.run step (σ.goto t (.safeLoad false σ.generation))
            (List.replicate 4 (.advance t)) = some _ :=
          run_popSafe (pc_goto_self ..) (by rw [links_goto, h.links, hhead])
            (h.retiredGen b ▸ hfit) (h.retiredGen b ▸ h.generation ▸ hdue)
        exact ⟨6 + 1, _, (run_init hidle 6).trans ((run_advances hempty 5).trans
          ((run_advances hempty' 4).trans hpop)), h.pop _ rfl rfl rfl, rfl, pc_goto_self ..⟩

end LingNet.Gqap.Machine
