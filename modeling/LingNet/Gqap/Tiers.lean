import LingNet.Gqap.Conservation

/-! Blocks cross from the trusted tier to the untrusted one and never back. -/
namespace LingNet.Gqap

/-- The places of the untrusted tier. -/
def untrustedSide : Custody.Place PoolId SecurityTier → Prop
  | .pool p => p ≠ .common
  | .holder t => t = .untrusted

theorem untrustedSide_closed : tierPolicy.Closed untrustedSide where
  serves p t hp ht := ht.resolve_left hp
  returns t p ht hp := by
    have hne : t ≠ .trusted := by rw [show t = .untrusted from ht]; decide
    exact fun hcommon => hne (hp.mpr hcommon)
  transfers p q _ hpq := by
    have hne : q ≠ .common := by rw [hpq.2]; decide
    exact hne

/-- One step keeps a block on the untrusted side. -/
theorem untrustedSide_step {backing blockCount blockSize : ℕ} {σ σ' : System} {c : Holdings}
    {op : Op} (w : Wf backing blockCount blockSize σ c) (h : step σ op = some σ') {b : BlockId}
    (hb : ∃ x, untrustedSide x ∧ c.At b x) :
    ∃ c', Wf backing blockCount blockSize σ' c' ∧ ∃ x, untrustedSide x ∧ c'.At b x := by
  obtain ⟨c', t, w'⟩ := w.step h
  obtain ⟨x, hx, hbx⟩ := hb
  exact ⟨c', w', (t.move w.held).mem_closed untrustedSide_closed hx hbx⟩

theorem mem_held {σ : System} {c : Holdings} (hheld : c.held = σ.heldBlocks) {h : Handle}
    (hh : h ∈ σ.live) : c.At h.arena.block (.holder h.arena.tier) := by
  change (h.arena.tier, h.arena.block) ∈ c.held
  rw [hheld]
  exact List.mem_map.mpr ⟨h, hh, rfl⟩

/-- Once an untrusted arena has held a block, no later state has it in the common pool or
in a trusted arena. -/
theorem untrusted_never_returns {mapping : Option ℕ} {table : Bool} {blockCount blockSize : ℕ}
    {s : Globals} (hs : initPools mapping table blockCount blockSize = .ok s)
    {past future : List Op} {σ τ : System} (hpast : run (booted s) past = some σ) {h : Handle}
    (hh : h ∈ σ.live) (ht : h.arena.tier = .untrusted) (hfuture : run σ future = some τ) :
    ¬ Chain.Reaches (fun b => (τ.globals.blocks b).poolNext) (τ.globals.pool .common).head
        h.arena.block ∧
      ∀ h' ∈ τ.live, h'.arena.block = h.arena.block → h'.arena.tier ≠ .trusted := by
  obtain ⟨backing, c, w⟩ := wf_of_run hs hpast
  have hstart : ∃ c, Wf backing blockCount blockSize σ c ∧
      ∃ x, untrustedSide x ∧ c.At h.arena.block x :=
    ⟨c, w, .holder h.arena.tier, ht, mem_held w.held hh⟩
  obtain ⟨c', w', x, hx, hbx⟩ := Run.invariant_of_run
    (I := fun σ => ∃ c, Wf backing blockCount blockSize σ c ∧
      ∃ x, untrustedSide x ∧ c.At h.arena.block x)
    (fun σ op σ' ⟨c, w, hb⟩ hstep => untrustedSide_step w hstep hb) hstart hfuture
  constructor
  · intro hreach
    have hmem : c'.At h.arena.block (.pool .common) := (w'.represents .common).mem_iff.mpr hreach
    have hplace := Custody.State.At.unique w'.nodup hbx hmem
    rw [hplace] at hx
    exact hx rfl
  · intro h' hh' hblock htrusted
    have hmem := mem_held w'.held hh'
    rw [hblock, htrusted] at hmem
    have hplace := Custody.State.At.unique w'.nodup hbx hmem
    rw [hplace] at hx
    cases hx

theorem untrusted_never_returns_reuse :
    ∃ σ τ, run (booted (initialGlobals 4096 2 64)) [.init .untrusted] = some σ ∧
      run σ [.deinit 0, .init .trusted, .incrementGeneration, .incrementGeneration, .sanitizeOne 3]
        = some τ ∧
      ¬ Chain.Reaches (fun b => (τ.globals.blocks b).poolNext) (τ.globals.pool .common).head 0 ∧
      ∀ h' ∈ τ.live, h'.arena.block = 0 → h'.arena.tier ≠ .trusted := by
  have hs : initPools (some 4096) true 2 64 = .ok (initialGlobals 4096 2 64) := rfl
  refine ⟨_, _, rfl, rfl, ?_⟩
  have hpast : run (booted (initialGlobals 4096 2 64)) [.init .untrusted] = some _ := rfl
  exact untrusted_never_returns hs hpast (List.mem_singleton.mpr rfl) rfl
    (show run _ [.deinit 0, .init .trusted, .incrementGeneration, .incrementGeneration,
      .sanitizeOne 3] = some _ from rfl)

end LingNet.Gqap
