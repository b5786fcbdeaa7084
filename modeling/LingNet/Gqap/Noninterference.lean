import LingNet.Gqap.Isolation

/-! The two-run theorem. Runs with the same low part are compared with that part itself, and
an exposed byte can be given any value by a run with the same low part. -/
namespace LingNet.Gqap
open Function

theorem lowPart_cons_of_low {op : Op} (h : op.isTrustedWrite = false) (ops : List Op) :
    lowPart (op :: ops) = op :: lowPart ops := by
  unfold lowPart
  exact List.filter_cons_of_pos (by simp [h])

theorem lowPart_cons_of_trustedWrite {op : Op} (h : op.isTrustedWrite = true) (ops : List Op) :
    lowPart (op :: ops) = lowPart ops := by
  unfold lowPart
  exact List.filter_cons_of_neg (by simp [h])

theorem lowPart_append (l m : List Op) : lowPart (l ++ m) = lowPart l ++ lowPart m :=
  List.filter_append ..

theorem lowPart_eq_self {l : List Op} (h : ∀ op ∈ l, op.isTrustedWrite = false) :
    lowPart l = l := by
  unfold lowPart
  rw [List.filter_eq_self]
  intro op hop
  rw [h op hop]
  rfl

/-- A trusted write changes the memory, inside a slice of a live trusted arena. -/
theorem step_trustedWrite {σ σ₁ : System} {op : Op} (h : op.isTrustedWrite = true)
    (hstep : step σ op = some σ₁) : (∀ m, σ₁.withMem m = σ.withMem m) ∧
      ∀ a, stores σ op a ≠ none → ∃ h ∈ σ.live, h.arena.tier = .trusted ∧
        ∃ sl ∈ h.slices, sl.ptr ≤ a ∧ a < sl.ptr + sl.len := by
  cases op with
  | write tier i k offset bytes =>
    cases tier with
    | untrusted => cases h
    | trusted =>
      cases hi : σ.live[i]? with
      | none => simp [step, hi] at hstep
      | some hd =>
        cases hk : hd.slices[k]? with
        | none => simp [step, hi, hk] at hstep
        | some sl =>
          simp only [step, hi, hk] at hstep
          split_ifs at hstep with hfit
          cases hstep
          refine ⟨fun _ => rfl, fun a ha => ?_⟩
          have hin := stores_write hi hk ha
          obtain ⟨ht, hlen⟩ := hfit
          exact ⟨hd, List.mem_of_getElem? hi, ht, sl, List.mem_of_getElem? hk, by omega, by omega⟩
  | _ => cases h

theorem view_trustedWrite {σ σ₁ : System} {op : Op} (h : op.isTrustedWrite = true) :
    view σ op σ₁ = none := by
  cases op with
  | write tier i k offset bytes => rfl
  | _ => cases h

theorem isSome_run_withMem (ops : List Op) (σ : System) (m : ℕ → UInt8) :
    (run (σ.withMem m) ops).isSome = (run σ ops).isSome := by
  unfold run
  induction ops generalizing σ m with
  | nil => rfl
  | cons op ops ih =>
    rw [Run.run_cons, Run.run_cons, step_withMem]
    cases step σ op with
    | none => rfl
    | some τ => exact ih τ _

theorem views_cons {σ σ' : System} {op : Op} (h : step σ op = some σ') (ops : List Op) :
    views σ (op :: ops) = (view σ op σ').toList ++ views σ' ops := by
  rw [views, h]

theorem views_append {σ τ : System} {l : List Op} (h : run σ l = some τ) (m : List Op) :
    views σ (l ++ m) = views σ l ++ views τ m := by
  induction l generalizing σ with
  | nil =>
    cases h
    rfl
  | cons op l ih =>
    obtain ⟨σ', hstep, h⟩ := Run.run_cons_eq_some.mp h
    rw [List.cons_append, views_cons hstep, views_cons hstep, ih h, List.append_assoc]

/-- A run from another memory, step by step against its low part. -/
theorem run_cons_withMem {σ : System} {m : ℕ → UInt8} {op : Op} {ops : List Op}
    (h : (run (σ.withMem m) (op :: ops)).isSome) :
    ∃ τ, step σ op = some τ ∧
      step (σ.withMem m) op = some (τ.withMem (patch (stores σ op) m)) ∧
      (run (τ.withMem (patch (stores σ op) m)) ops).isSome := by
  obtain ⟨ρ, hρ⟩ := Option.isSome_iff_exists.mp h
  obtain ⟨σ₁, hstep, hrun⟩ := Run.run_cons_eq_some.mp hρ
  have hcommute := step_withMem σ m op
  rw [hstep] at hcommute
  obtain ⟨τ, hτ, rfl⟩ := Option.map_eq_some_iff.mp hcommute.symm
  refine ⟨τ, hτ, hstep, ?_⟩
  unfold run
  rw [hrun]
  rfl

theorem view_withMem (σ : System) (m : ℕ → UInt8) (op : Op) (τ : System) :
    view (σ.withMem m) op τ = view σ op τ := rfl

theorem length_view (σ τ : System) (m : ℕ → UInt8) (op : Op) :
    (view σ op (τ.withMem m)).toList.length = (view σ op τ).toList.length := by
  cases op with
  | init tier =>
    cases tier with
    | trusted => rfl
    | untrusted =>
      unfold view
      simp only [System.live_withMem]
      cases τ.live with
      | nil => rfl
      | cons h rest =>
        dsimp only
        split_ifs <;> rfl
  | _ => rfl

/-- How many views a run has depends on its low part only. -/
theorem length_views (ops : List Op) {σ : System} {m : ℕ → UInt8}
    (h : (run (σ.withMem m) ops).isSome) :
    (views (σ.withMem m) ops).length = (views σ (lowPart ops)).length := by
  induction ops generalizing σ m with
  | nil => rfl
  | cons op ops ih =>
    obtain ⟨τ, hτ, hstep, hrun⟩ := run_cons_withMem h
    rw [views_cons hstep, List.length_append, ih hrun, view_withMem, length_view]
    cases hw : op.isTrustedWrite with
    | true =>
      have hsame := (step_trustedWrite hw hτ).1
      rw [hsame] at hrun
      have hlen := ih hrun
      rw [← hsame, ih (hsame _ ▸ hrun)] at hlen
      rw [view_trustedWrite hw, lowPart_cons_of_trustedWrite hw, hlen]
      exact Nat.zero_add _
    | false => rw [lowPart_cons_of_low hw, views_cons hτ, List.length_append]

/-- Memories that agree off the exposed addresses show an untrusted `init` the same block. -/
theorem Guarded.view_eq {backing blockCount blockSize : ℕ} {σ τ : System} {c : Holdings}
    {e : ℕ → Prop} (w : Wf backing blockCount blockSize τ c) (hg : Guarded τ c e)
    {m : ℕ → UInt8} (hagree : ∀ a, ¬ e a → m a = τ.globals.mem a) {op : Op}
    (hnew : op = .init .untrusted → ∀ h rest, τ.live = h :: rest →
      rest.length = σ.live.length → h.arena.tier = .untrusted) :
    view σ op (τ.withMem m) = view σ op τ := by
  cases op with
  | init tier =>
    cases tier with
    | trusted => rfl
    | untrusted =>
      cases hlive : τ.live with
      | nil => simp only [view, System.live_withMem, hlive]
      | cons h rest =>
        simp only [view, System.live_withMem, hlive]
        split_ifs with hlen
        · congr 1
          have hh : h ∈ τ.live := by
            rw [hlive]
            exact List.mem_cons_self
          have huntrusted := hnew rfl h rest hlive hlen
          have hheld := mem_held w.held hh
          rw [huntrusted] at hheld
          unfold content
          apply List.map_congr_left
          intro i hi
          apply hagree
          intro hexp
          obtain ⟨b, hb, hside⟩ := hg.confined _ hexp
          have hin : InBlock τ.globals h.arena.block ((τ.globals.blocks h.arena.block).memory + i) :=
            ⟨Nat.le_add_right _ _, Nat.add_lt_add_left (List.mem_range.mp hi) _⟩
          obtain rfl := w.block_unique hin hb
          rcases hside with hside | hside
          · have hplace : c.At h.arena.block (.pool .common) := hside
            cases Custody.State.At.unique w.nodup hplace hheld
          · have hplace : c.At h.arena.block (.holder .trusted) := hside
            cases Custody.State.At.unique w.nodup hplace hheld
        · rfl
  | _ => rfl

theorem Transition.init_untrusted {σ τ : System} {c c' : Holdings} {op : Op}
    (t : Transition σ c op τ c') (hop : op = .init .untrusted) (h : Handle) (rest : List Handle)
    (hlive : τ.live = h :: rest) (hlen : rest.length = σ.live.length) :
    h.arena.tier = .untrusted := by
  subst hop
  cases t with
  | initExhausted =>
    rw [hlive, List.length_cons] at hlen
    omega
  | _ =>
    obtain ⟨rfl, _⟩ := List.cons.inj hlive
    rfl

/-- A run shows what its low part shows, while no exposed block is served. -/
theorem views_eq_lowPart {backing blockCount blockSize : ℕ} (ops : List Op) {σ : System}
    {c : Holdings} {e : ℕ → Prop} {m : ℕ → UInt8} (w : Wf backing blockCount blockSize σ c)
    (hg : Guarded σ c e) (hagree : ∀ a, ¬ e a → m a = σ.globals.mem a)
    (hclean : Run.AllSteps Traced.step HandsOutClean ⟨σ, e⟩ (lowPart ops))
    (hrun : (run (σ.withMem m) ops).isSome) :
    views (σ.withMem m) ops = views σ (lowPart ops) := by
  induction ops generalizing σ c e m with
  | nil => rfl
  | cons op ops ih =>
    obtain ⟨τ, hτ, hstep, hrun⟩ := run_cons_withMem hrun
    rw [views_cons hstep]
    cases hw : op.isTrustedWrite with
    | true =>
      obtain ⟨hsame, hinside⟩ := step_trustedWrite hw hτ
      rw [lowPart_cons_of_trustedWrite hw] at hclean ⊢
      rw [hsame] at hrun ⊢
      rw [view_trustedWrite hw]
      refine ih w hg (fun a ha => ?_) hclean hrun
      have hnone : stores σ op a = none := by
        by_contra hstore
        obtain ⟨h, hh, ht, sl, hsl, hlo, hhi⟩ := hinside a hstore
        exact ha (hg.slices h hh ht sl hsl a hlo hhi)
      unfold patch
      rw [hnone]
      exact hagree a ha
    | false =>
      obtain ⟨c', t, w'⟩ := w.step hτ
      rw [lowPart_cons_of_low hw] at hclean ⊢
      rw [views_cons hτ]
      have hg' := hg.step w w' hw hclean.1 t
      have hagree' : ∀ a, ¬ (e a ∧ stores σ op a = none ∨ HandedOut σ a op) →
          patch (stores σ op) m a = τ.globals.mem a := by
        intro a ha
        rw [step_mem hτ]
        unfold patch
        cases hstore : stores σ op a with
        | none => exact hagree a fun he => ha (.inl ⟨he, hstore⟩)
        | some v => rfl
      have htail := hclean.2 ⟨τ, _⟩ (by simp only [Traced.step, hτ]; rfl)
      rw [view_withMem, hg'.view_eq w' hagree' t.init_untrusted, ih w' hg' hagree' htail hrun]

theorem run_of_traced {ops : List Op} {t t' : Traced} (h : Run.run Traced.step t ops = some t') :
    run t.system ops = some t'.system := by
  induction ops generalizing t with
  | nil =>
    cases h
    rfl
  | cons op ops ih =>
    obtain ⟨t₁, hstep, h⟩ := Run.run_cons_eq_some.mp h
    obtain ⟨σ, hσ, rfl⟩ := Option.map_eq_some_iff.mp hstep
    exact (Run.run_cons_of_step hσ ops).trans (ih h)

theorem patch_update {w : ℕ → Option UInt8} (m : ℕ → UInt8) {a : ℕ} (v : UInt8)
    (h : w a = none) : patch w (update m a v) = update (patch w m) a v := by
  funext x
  by_cases hx : x = a
  · subst x
    simp [patch, h]
  · simp [patch, hx]

theorem store_singleton (s : Globals) (a : ℕ) (v : UInt8) :
    s.store a [v] = s.withMem (update s.mem a v) := by
  unfold Globals.store Globals.withMem
  congr 1
  funext x
  by_cases hx : x = a
  · subst x
    simp
  · by_cases hle : a ≤ x
    · have hnone : [v][x - a]? = none := List.getElem?_eq_none (by simp; omega)
      simp [hx, hle, hnone]
    · simp [hx, hle]

/-- An address that a trusted `alloc` hands out can be written right away. -/
theorem write_handedOut {σ τ : System} {op : Op} {a : ℕ} (hout : HandedOut σ a op)
    (hstep : step σ op = some τ) (v : UInt8) : ∃ i offset,
      step τ (.write .trusted i 0 offset [v]) = some (τ.withMem (update τ.globals.mem a v)) := by
  cases op with
  | alloc i T count =>
    obtain ⟨h, sl, a', s', hi, ht, ha, hlo, hhi⟩ := hout
    obtain ⟨_, _, _, ha', _⟩ := Arena.alloc_eq_ok ha
    have ht' : a'.tier = .trusted := by
      rw [ha']
      exact ht
    simp only [step, hi, ha] at hstep
    cases hstep
    have hlt := (List.getElem?_eq_some_iff.mp hi).1
    have hget : (σ.live.set i ⟨a', sl :: h.slices⟩)[i]? = some ⟨a', sl :: h.slices⟩ :=
      List.getElem?_set_self hlt
    have hfit : a - sl.ptr + [v].length ≤ sl.len := by
      rw [List.length_singleton]
      omega
    refine ⟨i, a - sl.ptr, ?_⟩
    simp only [step, hget, List.getElem?_cons_zero]
    rw [if_pos ⟨ht', hfit⟩, Nat.add_sub_cancel' hlo, store_singleton]
    rfl
  | _ => cases hout

/-- An exposed byte takes any value in some run with the same low part. -/
theorem exists_run_exposed {s : Globals} (sched : List Op)
    (hlow : ∀ op ∈ sched, op.isTrustedWrite = false) {t : Traced}
    (hr : Run.run Traced.step (Traced.booted s) sched = some t) {a : ℕ} (ha : t.exposed a)
    (v : UInt8) : ∃ l, lowPart l = sched ∧
      run (booted s) l = some (t.system.withMem (update t.system.globals.mem a v)) := by
  induction sched using List.reverseRecOn generalizing t with
  | nil =>
    cases hr
    cases ha
  | append_singleton sched op ih =>
    obtain ⟨t₀, hr₀, hstep⟩ := Run.run_snoc_eq_some.mp hr
    obtain ⟨τ, hτ, rfl⟩ := Option.map_eq_some_iff.mp hstep
    have hlow₀ : ∀ op ∈ sched, op.isTrustedWrite = false := fun op hop =>
      hlow op (List.mem_append_left _ hop)
    have hop : op.isTrustedWrite = false := hlow op (by simp)
    rcases ha with ⟨he, hkept⟩ | hout
    · obtain ⟨l, hl, hrun⟩ := ih hlow₀ hr₀ he
      refine ⟨l ++ [op], ?_, ?_⟩
      · rw [lowPart_append, hl, lowPart_cons_of_low hop]
        rfl
      · rw [run, Run.run_append_of_run hrun, Run.run_singleton, step_withMem, hτ,
          patch_update _ v hkept, ← step_mem hτ]
        rfl
    · obtain ⟨i, offset, hwrite⟩ := write_handedOut hout hτ v
      refine ⟨sched ++ [op, .write .trusted i 0 offset [v]], ?_, ?_⟩
      · rw [lowPart_append, lowPart_eq_self hlow₀, lowPart_cons_of_low hop]
        rfl
      · have hpre : run (booted s) sched = some t₀.system := run_of_traced hr₀
        rw [run, Run.run_append_of_run hpre, Run.run_cons_of_step hτ, Run.run_singleton]
        exact hwrite

theorem step_initFromCommon {σ : System} (hinit : σ.globals.poolsInitialized = true) {b : BlockId}
    (hl2 : (σ.globals.pool .l2).head = none) (hcommon : (σ.globals.pool .common).head = some b) :
    ∃ τ, step σ (.init .untrusted) = some τ ∧
      view σ (.init .untrusted) τ = some (content σ.globals b) := by
  refine ⟨⟨((σ.globals.unlink .common b).setFlags b {}).setFlags b { dirty := true },
    ⟨⟨.untrusted, b, σ.globals.currentGeneration, 0⟩, []⟩ :: σ.live⟩, ?_, ?_⟩
  · simp [step, Arena.init, L2Pool.pop, CommonPool.pop, Globals.popHead, hinit, hl2, hcommon]
  · simp [view, content]

theorem content_update_inj {s : Globals} {b : BlockId} {m : ℕ → UInt8} {a : ℕ} {v v' : UInt8}
    (hin : InBlock s b a)
    (h : content (s.withMem (update m a v)) b = content (s.withMem (update m a v')) b) : v = v' := by
  obtain ⟨hlo, hhi⟩ := hin
  have hlt : a - (s.blocks b).memory < (s.blocks b).capacity := by omega
  have hget := congrArg (fun l => l[a - (s.blocks b).memory]?) h
  simpa [content, hlt, Nat.add_sub_cancel' hlo] using hget

/-- The untrusted arena that is served an exposed block sees the byte. -/
theorem exists_view_exposed {mapping : Option ℕ} {table : Bool} {blockCount blockSize : ℕ}
    {s : Globals} (hs : initPools mapping table blockCount blockSize = .ok s)
    {pre rest : List Op} (hlow : ∀ op ∈ pre ++ .init .untrusted :: rest, op.isTrustedWrite = false)
    {σ : System} (hr : run (booted s) (pre ++ .init .untrusted :: rest) = some σ) {t : Traced}
    (hpre : Run.run Traced.step (Traced.booted s) pre = some t)
    (hl2 : (t.system.globals.pool .l2).head = none) {b : BlockId}
    (hcommon : (t.system.globals.pool .common).head = some b) {a : ℕ} (ha : t.exposed a)
    (v : UInt8) : ∃ l τ x y, lowPart l = pre ++ .init .untrusted :: rest ∧
      run (booted s) l = some τ ∧ x.length = (views (booted s) pre).length ∧
      views (booted s) l =
        x ++ content (t.system.globals.withMem (update t.system.globals.mem a v)) b :: y := by
  have hrun : run (booted s) pre = some t.system := run_of_traced hpre
  have hlowpre : ∀ op ∈ pre, op.isTrustedWrite = false := fun op hop =>
    hlow op (List.mem_append_left _ hop)
  have hlowrest : ∀ op ∈ Op.init .untrusted :: rest, op.isTrustedWrite = false := fun op hop =>
    hlow op (List.mem_append_right _ hop)
  obtain ⟨l, hl, hlrun⟩ := exists_run_exposed pre hlowpre hpre ha v
  obtain ⟨_, _, w⟩ := wf_of_run hs hrun
  obtain ⟨ρ, hstep, hview⟩ := step_initFromCommon (b := b)
    (σ := t.system.withMem (update t.system.globals.mem a v)) w.initialized hl2 hcommon
  -- the rest of the schedule runs from the recoloured memory as well
  rw [run, Run.run_append_of_run hrun] at hr
  have hisSome := isSome_run_withMem (.init .untrusted :: rest) t.system
    (update t.system.globals.mem a v)
  rw [run, run, hr] at hisSome
  obtain ⟨τ, hτ⟩ := Option.isSome_iff_exists.mp hisSome
  have hviews := views_append hlrun (.init .untrusted :: rest)
  rw [views_cons hstep, hview] at hviews
  refine ⟨l ++ .init .untrusted :: rest, τ, _, _, ?_, ?_, ?_, hviews⟩
  · rw [lowPart_append, hl, lowPart_eq_self hlowrest]
  · rw [run, Run.run_append_of_run hlrun, hτ]
  · have hsome : (run ((booted s).withMem (booted s).globals.mem) l).isSome := by
      rw [System.withMem_self, hlrun]
      rfl
    have hlen := length_views l hsome
    rw [System.withMem_self, hl] at hlen
    exact hlen

/-- Noninterference, exactly: the runs with a given low part show their untrusted arenas the
same blocks if and only if the common pool never serves an exposed one. -/
theorem noninterference {mapping : Option ℕ} {table : Bool} {blockCount blockSize : ℕ}
    {s : Globals} (hs : initPools mapping table blockCount blockSize = .ok s) {sched : List Op}
    (hlow : ∀ op ∈ sched, op.isTrustedWrite = false) {σ : System}
    (hr : run (booted s) sched = some σ) :
    (∀ l₁ l₂ σ₁ σ₂, lowPart l₁ = sched → lowPart l₂ = sched → run (booted s) l₁ = some σ₁ →
        run (booted s) l₂ = some σ₂ → views (booted s) l₁ = views (booted s) l₂) ↔
      Run.AllSteps Traced.step HandsOutClean (Traced.booted s) sched := by
  obtain ⟨backing, w⟩ := booted_wf hs
  constructor
  · intro hsame
    rw [Run.allSteps_iff]
    intro pre op rest t hsched hpre
    subst hsched
    cases op with
    | init tier =>
      cases tier with
      | trusted => trivial
      | untrusted =>
        intro hl2 b hcommon a hin ha
        obtain ⟨l₀, τ₀, x₀, y₀, hl₀, hr₀, hlen₀, hviews₀⟩ :=
          exists_view_exposed hs hlow hr hpre hl2 hcommon ha 0
        obtain ⟨l₁, τ₁, x₁, y₁, hl₁, hr₁, hlen₁, hviews₁⟩ :=
          exists_view_exposed hs hlow hr hpre hl2 hcommon ha 1
        have heq := hsame l₀ l₁ τ₀ τ₁ hl₀ hl₁ hr₀ hr₁
        rw [hviews₀, hviews₁] at heq
        have htail := (List.append_inj heq (hlen₀.trans hlen₁.symm)).2
        have hbyte := content_update_inj hin (List.cons.inj htail).1
        cases hbyte
    | _ => trivial
  · intro hclean l₁ l₂ σ₁ σ₂ h₁ h₂ hr₁ hr₂
    have hg : Guarded (booted s) (bootHoldings blockCount) fun _ => False :=
      ⟨fun h hh => (by cases hh), fun a ha => (by cases ha)⟩
    have hviews : ∀ l τ, lowPart l = sched → run (booted s) l = some τ →
        views (booted s) l = views (booted s) sched := by
      intro l τ hl hrun
      have hisSome : (run ((booted s).withMem (booted s).globals.mem) l).isSome := by
        rw [System.withMem_self, hrun]
        rfl
      have heq := views_eq_lowPart l w hg (fun _ _ => rfl) (hl ▸ hclean) hisSome
      rw [System.withMem_self, hl] at heq
      exact heq
    rw [hviews l₁ σ₁ h₁ hr₁, hviews l₂ σ₂ h₂ hr₂]

/-- A trusted arena that clears its block leaves nothing exposed. -/
theorem noninterference_zeroed :
    (∀ l₁ l₂ σ₁ σ₂,
      lowPart l₁ = [.init .trusted, .alloc 0 .u8 1, .deinitAndZero 0, .init .untrusted] →
      lowPart l₂ = [.init .trusted, .alloc 0 .u8 1, .deinitAndZero 0, .init .untrusted] →
      run (booted (initialGlobals 4096 1 4)) l₁ = some σ₁ →
      run (booted (initialGlobals 4096 1 4)) l₂ = some σ₂ →
      views (booted (initialGlobals 4096 1 4)) l₁ = views (booted (initialGlobals 4096 1 4)) l₂) ↔
    Run.AllSteps Traced.step HandsOutClean (Traced.booted (initialGlobals 4096 1 4))
      [.init .trusted, .alloc 0 .u8 1, .deinitAndZero 0, .init .untrusted] := by
  have hs : initPools (some 4096) true 1 4 = .ok (initialGlobals 4096 1 4) := rfl
  have hr : run (booted (initialGlobals 4096 1 4))
    [.init .trusted, .alloc 0 .u8 1, .deinitAndZero 0, .init .untrusted] = some _ := rfl
  exact noninterference hs (by decide) hr

/-- Two runs that differ in one trusted byte; the untrusted arena sees it. -/
theorem trusted_byte_leaks :
    lowPart [.init .trusted, .alloc 0 .u8 1, .write .trusted 0 0 0 [1], .deinit 0,
        .init .untrusted] =
      lowPart [.init .trusted, .alloc 0 .u8 1, .write .trusted 0 0 0 [2], .deinit 0,
        .init .untrusted] ∧
    (run (booted (initialGlobals 4096 1 4)) [.init .trusted, .alloc 0 .u8 1,
      .write .trusted 0 0 0 [1], .deinit 0, .init .untrusted]).isSome ∧
    (run (booted (initialGlobals 4096 1 4)) [.init .trusted, .alloc 0 .u8 1,
      .write .trusted 0 0 0 [2], .deinit 0, .init .untrusted]).isSome ∧
    views (booted (initialGlobals 4096 1 4)) [.init .trusted, .alloc 0 .u8 1,
      .write .trusted 0 0 0 [1], .deinit 0, .init .untrusted] = [[1, 0, 0, 0]] ∧
    views (booted (initialGlobals 4096 1 4)) [.init .trusted, .alloc 0 .u8 1,
      .write .trusted 0 0 0 [2], .deinit 0, .init .untrusted] = [[2, 0, 0, 0]] :=
  ⟨rfl, rfl, rfl, by decide, by decide⟩

end LingNet.Gqap
