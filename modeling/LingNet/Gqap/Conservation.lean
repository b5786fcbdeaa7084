import LingNet.Gqap.Refinement

/-! The invariant of the pools: under every client action the free lists stay well linked,
the counters stay exact, and every block is in exactly one place. -/
namespace LingNet.Gqap
open Function

/-- The invariant of a process that `initPools` gave `blockCount` blocks of `blockSize`
bytes from address `backing` on. -/
structure Wf (backing blockCount blockSize : ℕ) (σ : System) (c : Holdings) : Prop where
  initialized : σ.globals.poolsInitialized = true
  represents : σ.globals.links.Represents c.stack
  counts : ∀ p, (σ.globals.pool p).count = (c.stack p).length
  held : c.held = σ.heldBlocks
  total : c.total = Multiset.range blockCount
  bound : blockCount < Zig.usizeEnd
  memory : ∀ b, (σ.globals.blocks b).memory = backing + b * blockSize
  capacity : ∀ b, (σ.globals.blocks b).capacity = blockSize
  slices : ∀ h ∈ σ.live, ∀ sl ∈ h.slices, backing + h.arena.block * blockSize ≤ sl.ptr ∧
    sl.ptr + sl.len ≤ backing + h.arena.block * blockSize + blockSize
  generation : σ.globals.currentGeneration < Zig.usizeEnd

theorem Wf.nodup {backing blockCount blockSize : ℕ} {σ : System} {c : Holdings}
    (w : Wf backing blockCount blockSize σ c) : c.total.Nodup := by
  rw [w.total]
  exact Multiset.nodup_range blockCount

theorem Wf.card_total {backing blockCount blockSize : ℕ} {σ : System} {c : Holdings}
    (w : Wf backing blockCount blockSize σ c) : c.total.card = blockCount := by
  rw [w.total, Multiset.card_range]

theorem heldBlocks_getElem? {σ : System} {i : ℕ} {h : Handle} (hi : σ.live[i]? = some h) :
    σ.heldBlocks[i]? = some (h.arena.tier, h.arena.block) := by
  simp [System.heldBlocks, hi]

theorem heldBlocks_eraseIdx (s : Globals) (l : List Handle) (i : ℕ) :
    (⟨s, l.eraseIdx i⟩ : System).heldBlocks = (l.map fun h => (h.arena.tier, h.arena.block)).eraseIdx i :=
  (List.eraseIdx_map _ l i).symm

/-- Refinement: what a client action does to the blocks is a move the tier policy allows. -/
theorem Transition.move {σ σ' : System} {c c' : Holdings} {op : Op}
    (hheld : c.held = σ.heldBlocks) (t : Transition σ c op σ' c') :
    Custody.Move tierPolicy c c' := by
  have hget : ∀ {i : ℕ} {h : Handle}, σ.live[i]? = some h →
      c.held[i]? = some (h.arena.tier, h.arena.block) := by
    intro i h hi
    rw [hheld]
    exact heldBlocks_getElem? hi
  cases t with
  | initTrusted hp => exact .take hp (.inl rfl)
  | initFromL2 hp => exact .take hp (.inr rfl)
  | initFromCommon _ hp => exact .take hp (.inr rfl)
  | initFromQuarantine _ _ hp => exact .take hp (.inr rfl)
  | deinitTrusted hi ht => exact .give (hget hi) (by simp [tierPolicy, ht])
  | deinitUntrusted hi ht => exact .give (hget hi) (by simp [tierPolicy, ht])
  | zeroTrusted hi ht => exact .give (hget hi) (by simp [tierPolicy, ht])
  | zeroUntrusted hi ht => exact .give (hget hi) (by simp [tierPolicy, ht])
  | sanitize hp => exact .transfer hp ⟨rfl, rfl⟩ (by decide)
  | _ => exact .stay

theorem Transition.held {σ σ' : System} {c c' : Holdings} {op : Op}
    (hheld : c.held = σ.heldBlocks) (t : Transition σ c op σ' c') : c'.held = σ'.heldBlocks := by
  cases t with
  | @alloc i T count h sl a s hi ha =>
    obtain ⟨_, _, _, ha', _⟩ := Arena.alloc_eq_ok ha
    have hsame : (a.tier, a.block) = (h.arena.tier, h.arena.block) := by rw [ha']
    obtain ⟨hlt, hget⟩ := List.getElem?_eq_some_iff.mp (heldBlocks_getElem? hi)
    rw [hheld]
    simp only [System.heldBlocks, List.map_set, hsame]
    rw [← hget]
    exact (List.set_getElem_self hlt).symm
  | deinitTrusted | deinitUntrusted | zeroTrusted | zeroUntrusted =>
    rw [heldBlocks_eraseIdx, hheld]
    rfl
  | initTrusted | initFromL2 | initFromCommon | initFromQuarantine =>
    simp [System.heldBlocks, hheld]
  | _ => exact hheld

theorem Transition.initialized {σ σ' : System} {c c' : Holdings} {op : Op}
    (hinit : σ.globals.poolsInitialized = true) (t : Transition σ c op σ' c') :
    σ'.globals.poolsInitialized = true := by
  cases t with
  | alloc hi ha =>
    obtain ⟨_, _, _, _, rfl⟩ := Arena.alloc_eq_ok ha
    simpa using hinit
  | _ => exact hinit

theorem Transition.generation {σ σ' : System} {c c' : Holdings} {op : Op}
    (hgen : σ.globals.currentGeneration < Zig.usizeEnd) (t : Transition σ c op σ' c') :
    σ'.globals.currentGeneration < Zig.usizeEnd := by
  cases t with
  | alloc hi ha =>
    obtain ⟨_, _, _, _, rfl⟩ := Arena.alloc_eq_ok ha
    simpa using hgen
  | increment => exact Nat.mod_lt _ (by decide)
  | _ => exact hgen

/-- No client action moves or resizes a block. -/
theorem Transition.geometry {σ σ' : System} {c c' : Holdings} {op : Op}
    (t : Transition σ c op σ' c') (b : BlockId) :
    (σ'.globals.blocks b).memory = (σ.globals.blocks b).memory ∧
      (σ'.globals.blocks b).capacity = (σ.globals.blocks b).capacity := by
  cases t with
  | alloc hi ha =>
    obtain ⟨_, _, _, _, rfl⟩ := Arena.alloc_eq_ok ha
    simp
  | increment => exact ⟨rfl, rfl⟩
  | _ => simp

theorem Transition.represents {σ σ' : System} {c c' : Holdings} {op : Op}
    (hr : σ.globals.links.Represents c.stack) (hheld : c.held = σ.heldBlocks)
    (hnd : c.total.Nodup) (t : Transition σ c op σ' c') :
    σ'.globals.links.Represents c'.stack := by
  have hout : ∀ {i : ℕ} {h : Handle}, σ.live[i]? = some h → ∀ q, h.arena.block ∉ c.stack q := by
    intro i h hi
    have hmem : (h.arena.tier, h.arena.block) ∈ c.held := by
      rw [hheld]
      exact List.mem_of_getElem? (heldBlocks_getElem? hi)
    exact Custody.State.not_mem_stack_of_held hnd hmem
  cases t with
  | initTrusted hp => simpa using hr.pop hp
  | initFromL2 hp => simpa using hr.pop hp
  | initFromCommon _ hp => simpa using hr.pop hp
  | initFromQuarantine _ _ hp => simpa using hr.pop hp
  | alloc hi ha =>
    obtain ⟨_, _, _, _, rfl⟩ := Arena.alloc_eq_ok ha
    simpa using hr
  | deinitTrusted hi => simpa using hr.push .common (hout hi)
  | deinitUntrusted hi => simpa using hr.push .quarantine (hout hi)
  | zeroTrusted hi => simpa using hr.push .common (hout hi)
  | zeroUntrusted hi => simpa using hr.push .l2 (hout hi)
  | @sanitize gen b l hp hfit hdue =>
    -- between its pop and its push the block is on no stack
    have hgone : ∀ q, b ∉ update c.stack .quarantine l q := by
      intro q
      by_cases hq : q = .quarantine
      · subst q
        have hnodup := (hr .quarantine).nodup
        rw [hp] at hnodup
        simpa using (List.nodup_cons.mp hnodup).1
      · rw [update_of_ne hq]
        refine Custody.State.not_mem_stack_of_ne hnd (Ne.symm hq) ?_
        rw [hp]
        exact List.mem_cons_self
    have hpush := (hr.pop hp).push .l2 hgone
    rw [update_of_ne (by decide)] at hpush
    have hlinks : (((((σ.globals.unlink .quarantine b).avx2ZeroBlock (σ.globals.blocks b).memory
        (σ.globals.blocks b).capacity).setFlags b
        { zeroed := true, quarantined := false }).setFlags b { zeroed := true }).link .l2 b).links =
        (σ.globals.links.pop .quarantine b).push .l2 b := by simp
    exact hlinks ▸ hpush
  | _ => exact hr

theorem unlink_counts {s : Globals} {st : PoolId → List BlockId}
    (hc : ∀ q, (s.pool q).count = (st q).length) (hb : ∀ q, (st q).length < Zig.usizeEnd)
    {p : PoolId} {b : BlockId} {l : List BlockId} (hp : st p = b :: l) (q : PoolId) :
    ((s.unlink p b).pool q).count = (update st p l q).length := by
  by_cases hq : q = p
  · subst q
    have hlen : (s.pool p).count = l.length + 1 := by rw [hc, hp, List.length_cons]
    have hlt : l.length + 1 < Zig.usizeEnd := by rw [← hlen, hc]; exact hb p
    simp [Globals.unlink, hlen, Zig.wrappingSub_one hlt]
  · simp [Globals.unlink, hq, hc]

theorem link_counts {s : Globals} {st : PoolId → List BlockId}
    (hc : ∀ q, (s.pool q).count = (st q).length) {p : PoolId}
    (hb : (st p).length + 1 < Zig.usizeEnd) (b : BlockId) (q : PoolId) :
    ((s.link p b).pool q).count = (update st p (b :: st p) q).length := by
  by_cases hq : q = p
  · subst q
    simp [Globals.link, hc, Zig.wrappingAdd_one hb]
  · simp [Globals.link, hq, hc]

/-- The bounds keep the two atomic counters from wrapping. -/
theorem Transition.counts {σ σ' : System} {c c' : Holdings} {op : Op}
    (hc : ∀ p, (σ.globals.pool p).count = (c.stack p).length)
    (hb : ∀ p, (c.stack p).length < Zig.usizeEnd) (hb' : ∀ p, (c'.stack p).length < Zig.usizeEnd)
    (t : Transition σ c op σ' c') (q : PoolId) :
    (σ'.globals.pool q).count = (c'.stack q).length := by
  cases t with
  | initTrusted hp => exact unlink_counts hc hb hp q
  | initFromL2 hp => exact unlink_counts hc hb hp q
  | initFromCommon _ hp => exact unlink_counts hc hb hp q
  | initFromQuarantine _ _ hp => exact unlink_counts hc hb hp q
  | alloc hi ha =>
    obtain ⟨_, _, _, _, rfl⟩ := Arena.alloc_eq_ok ha
    simpa using hc q
  | deinitTrusted hi =>
    exact link_counts hc (by simpa using hb' .common) _ q
  | @deinitUntrusted i h hi ht =>
    refine link_counts (s := σ.globals.retire h.arena.block σ.globals.currentGeneration) hc ?_ _ q
    simpa using hb' .quarantine
  | @zeroTrusted i h hi ht =>
    refine link_counts (s := σ.globals.avx2ZeroBlock (σ.globals.blocks h.arena.block).memory
      (σ.globals.blocks h.arena.block).capacity) hc ?_ _ q
    simpa using hb' .common
  | zeroUntrusted hi =>
    refine link_counts (by simpa using hc) ?_ _ q
    simpa using hb' .l2
  | @sanitize gen b l hp hfit hdue =>
    have hpop := unlink_counts hc hb hp
    have hlen : (update c.stack .quarantine l .l2).length + 1 < Zig.usizeEnd := by
      simpa using hb' .l2
    have hpush := link_counts (s := (((σ.globals.unlink .quarantine b).avx2ZeroBlock
      (σ.globals.blocks b).memory (σ.globals.blocks b).capacity).setFlags b
      { zeroed := true, quarantined := false }).setFlags b { zeroed := true })
      (by simpa using hpop) hlen b q
    rw [hpush, update_of_ne (show PoolId.l2 ≠ .quarantine by decide)]
  | _ => exact hc q

/-- Slices stay inside the block of their arena. -/
theorem Transition.slices {σ σ' : System} {c c' : Holdings} {op : Op} {lo hi : BlockId → ℕ}
    (hlo : ∀ b, (σ.globals.blocks b).memory = lo b)
    (hhi : ∀ b, (σ.globals.blocks b).memory + (σ.globals.blocks b).capacity = hi b)
    (hs : ∀ h ∈ σ.live, ∀ sl ∈ h.slices, lo h.arena.block ≤ sl.ptr ∧
      sl.ptr + sl.len ≤ hi h.arena.block)
    (t : Transition σ c op σ' c') :
    ∀ h ∈ σ'.live, ∀ sl ∈ h.slices, lo h.arena.block ≤ sl.ptr ∧
      sl.ptr + sl.len ≤ hi h.arena.block := by
  cases t with
  | initTrusted | initFromL2 | initFromCommon | initFromQuarantine =>
    intro h hh sl hsl
    rcases List.mem_cons.mp hh with rfl | hh
    · cases hsl
    · exact hs h hh sl hsl
  | @alloc i T count h sl a s hget ha =>
    obtain ⟨hptr, hlen, hcap, ha', rfl⟩ := Arena.alloc_eq_ok ha
    have hblock : a.block = h.arena.block := by rw [ha']
    intro h' hh sl' hsl
    rcases List.mem_or_eq_of_mem_set hh with hh | rfl
    · exact hs h' hh sl' hsl
    · rcases List.mem_cons.mp hsl with rfl | hsl
      · have hlo' := hlo h.arena.block
        have hhi' := hhi h.arena.block
        simp only [hblock]
        omega
      · simp only [hblock]
        exact hs h (List.mem_of_getElem? hget) sl' hsl
  | deinitTrusted | deinitUntrusted | zeroTrusted | zeroUntrusted =>
    intro h hh
    exact hs h (List.mem_of_mem_eraseIdx hh)
  | _ => exact hs

/-- One step keeps the invariant. -/
theorem Wf.transition {backing blockCount blockSize : ℕ} {σ σ' : System} {c c' : Holdings}
    {op : Op} (w : Wf backing blockCount blockSize σ c) (t : Transition σ c op σ' c') :
    Wf backing blockCount blockSize σ' c' := by
  have htotal : c'.total = c.total := (t.move w.held).total_eq
  have hlen : ∀ p, (c.stack p).length < Zig.usizeEnd := fun p =>
    (Custody.State.length_stack_le p).trans_lt (w.card_total.symm ▸ w.bound)
  have hlen' : ∀ p, (c'.stack p).length < Zig.usizeEnd := fun p =>
    (Custody.State.length_stack_le p).trans_lt (by rw [htotal, w.card_total]; exact w.bound)
  exact {
    initialized := t.initialized w.initialized
    represents := t.represents w.represents w.held w.nodup
    counts := t.counts w.counts hlen hlen'
    held := t.held w.held
    total := htotal.trans w.total
    bound := w.bound
    memory := fun b => (t.geometry b).1.trans (w.memory b)
    capacity := fun b => (t.geometry b).2.trans (w.capacity b)
    slices := t.slices w.memory (fun b => by rw [w.memory, w.capacity]) w.slices
    generation := t.generation w.generation }

theorem Wf.step {backing blockCount blockSize : ℕ} {σ σ' : System} {c : Holdings} {op : Op}
    (w : Wf backing blockCount blockSize σ c) (h : step σ op = some σ') :
    ∃ c', Transition σ c op σ' c' ∧ Wf backing blockCount blockSize σ' c' := by
  obtain ⟨c', t⟩ := transition_of_step w.initialized w.represents h
  exact ⟨c', t, w.transition t⟩

/-- Right after `initPools` all blocks are in the common pool, in table order. -/
def bootHoldings (blockCount : ℕ) : Holdings where
  stack
    | .common => List.range blockCount
    | .quarantine => []
    | .l2 => []
  held := []

theorem sum_pools {M : Type} [AddCommMonoid M] (f : PoolId → M) :
    ∑ p, f p = f .common + (f .quarantine + f .l2) := by
  change ∑ p ∈ ({.common, .quarantine, .l2} : Finset PoolId), f p = _
  rw [Finset.sum_insert (by decide), Finset.sum_insert (by decide), Finset.sum_singleton]

theorem initialBlock_linked (backing blockCount blockSize k m : ℕ) (h : k + m = blockCount) :
    Chain.Linked (fun b => (initialBlock backing blockCount blockSize b).poolNext)
      (if k < blockCount then some k else none) (List.range' k m) := by
  induction m generalizing k with
  | zero => simp [show ¬ k < blockCount by omega]
  | succ m ih =>
    rw [List.range'_succ]
    refine ⟨by simp [show k < blockCount by omega], ?_⟩
    exact ih (k + 1) (by omega)

theorem booted_wf {mapping : Option ℕ} {table : Bool} {blockCount blockSize : ℕ} {s : Globals}
    (h : initPools mapping table blockCount blockSize = .ok s) :
    ∃ backing, Wf backing blockCount blockSize (booted s) (bootHoldings blockCount) := by
  obtain ⟨backing, rfl, hcount, hsize, hlt⟩ := initPools_eq_ok h
  refine ⟨backing, ?_⟩
  have hbound : blockCount < Zig.usizeEnd :=
    (Nat.le_mul_of_pos_right blockCount hsize).trans_lt hlt
  have hcommon := initialBlock_linked backing blockCount blockSize 0 blockCount (Nat.zero_add _)
  rw [if_pos hcount, ← List.range_eq_range'] at hcommon
  exact {
    initialized := rfl
    represents := fun p => by
      cases p with
      | common => exact hcommon
      | quarantine => exact rfl
      | l2 => exact rfl
    counts := fun p => by
      cases p with
      | common => exact List.length_range.symm
      | quarantine => rfl
      | l2 => rfl
    held := rfl
    total := by
      simp only [Custody.State.total, sum_pools, bootHoldings, List.map_nil, Multiset.coe_nil,
        add_zero]
      rfl
    bound := hbound
    memory := fun _ => rfl
    capacity := fun _ => rfl
    slices := fun h hh => by cases hh
    generation := show 1 < Zig.usizeEnd by decide }

/-- Every run keeps the invariant, for some stacks and holders. -/
theorem wf_of_run {mapping : Option ℕ} {table : Bool} {blockCount blockSize : ℕ} {s : Globals}
    (hs : initPools mapping table blockCount blockSize = .ok s) {ops : List Op} {σ : System}
    (hr : run (booted s) ops = some σ) :
    ∃ backing c, Wf backing blockCount blockSize σ c := by
  obtain ⟨backing, w⟩ := booted_wf hs
  have hinv : ∃ c, Wf backing blockCount blockSize σ c := by
    refine Run.invariant_of_run (I := fun σ => ∃ c, Wf backing blockCount blockSize σ c)
      ?_ ⟨_, w⟩ hr
    rintro σ op σ' ⟨c, w⟩ h
    obtain ⟨c', _, w'⟩ := w.step h
    exact ⟨c', w'⟩
  exact ⟨backing, hinv⟩

/-- The three free lists and the live arenas share out the blocks. -/
structure Conserved (blockCount : ℕ) (σ : System) (common quarantine l2 : List BlockId) :
    Prop where
  common_linked : Chain.Linked (fun b => (σ.globals.blocks b).poolNext)
    (σ.globals.pool .common).head common
  quarantine_linked : Chain.Linked (fun b => (σ.globals.blocks b).poolNext)
    (σ.globals.pool .quarantine).head quarantine
  l2_linked : Chain.Linked (fun b => (σ.globals.blocks b).poolNext) (σ.globals.pool .l2).head l2
  disjoint : (common ++ quarantine ++ l2 ++ σ.live.map fun h => h.arena.block).Nodup
  partition : (common ++ quarantine ++ l2 ++ σ.live.map fun h => h.arena.block).Perm
    (List.range blockCount)
  common_count : (getStats σ.globals).commonFree = common.length
  quarantine_count : (getStats σ.globals).quarantinePending = quarantine.length
  l2_count : (getStats σ.globals).l2Free = l2.length
  sum : (getStats σ.globals).commonFree + (getStats σ.globals).quarantinePending +
    (getStats σ.globals).l2Free + σ.live.length = blockCount

theorem Wf.conserved {backing blockCount blockSize : ℕ} {σ : System} {c : Holdings}
    (w : Wf backing blockCount blockSize σ c) :
    Conserved blockCount σ (c.stack .common) (c.stack .quarantine) (c.stack .l2) := by
  have hheld : c.held.map Prod.snd = σ.live.map fun h => h.arena.block := by
    simp [w.held, System.heldBlocks, Function.comp_def]
  have hperm : (c.stack .common ++ c.stack .quarantine ++ c.stack .l2 ++
      σ.live.map fun h => h.arena.block).Perm (List.range blockCount) := by
    have htotal := w.total
    simp only [Custody.State.total, sum_pools, hheld, Multiset.coe_add,
      ← List.append_assoc] at htotal
    exact Multiset.coe_eq_coe.mp htotal
  have hlen := hperm.length_eq
  simp only [List.length_append, List.length_map, List.length_range] at hlen
  exact {
    common_linked := w.represents .common
    quarantine_linked := w.represents .quarantine
    l2_linked := w.represents .l2
    disjoint := hperm.nodup_iff.mpr List.nodup_range
    partition := hperm
    common_count := w.counts .common
    quarantine_count := w.counts .quarantine
    l2_count := w.counts .l2
    sum := by
      have hc := w.counts .common
      have hq := w.counts .quarantine
      have hl := w.counts .l2
      simp only [getStats]
      omega }

/-- Block conservation, in every state that any sequence of client actions reaches. -/
theorem block_conservation {mapping : Option ℕ} {table : Bool} {blockCount blockSize : ℕ}
    {s : Globals} (hs : initPools mapping table blockCount blockSize = .ok s) {ops : List Op}
    {σ : System} (hr : run (booted s) ops = some σ) :
    ∃ common quarantine l2, Conserved blockCount σ common quarantine l2 := by
  obtain ⟨backing, c, w⟩ := wf_of_run hs hr
  exact ⟨_, _, _, w.conserved⟩

theorem block_conservation_reuse :
    ∃ σ, run (booted (initialGlobals 4096 2 64)) [.init .untrusted, .init .trusted, .deinit 1,
        .incrementGeneration, .incrementGeneration, .init .untrusted, .deinitAndZero 1] = some σ ∧
      ∃ common quarantine l2, Conserved 2 σ common quarantine l2 := by
  have hs : initPools (some 4096) true 2 64 = .ok (initialGlobals 4096 2 64) := rfl
  have hsome : (run (booted (initialGlobals 4096 2 64)) [.init .untrusted, .init .trusted, .deinit 1,
      .incrementGeneration, .incrementGeneration, .init .untrusted, .deinitAndZero 1]).isSome := by
    decide
  obtain ⟨σ, hσ⟩ := Option.isSome_iff_exists.mp hsome
  exact ⟨σ, hσ, block_conservation hs hσ⟩

end LingNet.Gqap
