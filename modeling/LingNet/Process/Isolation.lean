import LingNet.Process.System

/-! What the modules of a process are to each other: they share the blocks out among themselves, a
block that served an untrusted one never reaches the orchestrator, and none of them touches what
another holds. -/
namespace LingNet.Process
open Gqap

/-- The free lists and the records of the clients share out the blocks, but for those that each
client has left without a record. -/
structure SharedOut (blockCount : ℕ) (lost : Client → ℕ) (p : Process)
    (common quarantine l2 : List BlockId) (stranded : Client → Multiset BlockId) : Prop where
  common_linked : Chain.Linked (fun b => (p.globals.blocks b).poolNext)
    (p.globals.pool .common).head common
  quarantine_linked : Chain.Linked (fun b => (p.globals.blocks b).poolNext)
    (p.globals.pool .quarantine).head quarantine
  l2_linked : Chain.Linked (fun b => (p.globals.blocks b).poolNext) (p.globals.pool .l2).head l2
  partition : (common : Multiset BlockId) + quarantine + l2 + ∑ k, (p.records k + stranded k) =
    Multiset.range blockCount
  card : ∀ k, (stranded k).card = lost k
  sum : (getStats p.globals).commonFree + (getStats p.globals).quarantinePending +
    (getStats p.globals).l2Free + ∑ k, ((p.records k).card + lost k) = blockCount

/-- An untrusted arena of the process has the block: each of the loaders and the generator has no
others. -/
def Untrusted (p : Process) (b : BlockId) : Prop :=
  b ∈ p.blocks .l2 ∨ b ∈ p.blocks .skills ∨ b ∈ p.blocks .generator ∨
    ∃ h ∈ p.own, h.arena.block = b ∧ h.arena.tier = .untrusted

section Holds

variable {p p' : Process} {stranded : Client → ℕ} {arenas : Client → Multiset Handle} {call : Call}

theorem Holds.blocks_eq (h : Holds p stranded arenas) {k : Client} (hk : k ≠ .orchestrator) :
    (arenas k).map (·.arena.block) = p.blocks k := by
  cases k with
  | orchestrator => exact absurd rfl hk
  | l2 =>
    have harenas := congrArg (Multiset.map Arena.block) h.l2.arenas
    rw [Multiset.map_map] at harenas
    exact harenas
  | skills => exact h.skills.blocks
  | generator => exact h.generator.blocks
  | own =>
    rw [h.own]
    rfl

theorem exists_stranded {own : Multiset Handle} {recorded : List Arena} {n : ℕ}
    (hlisted : (recorded : Multiset Arena) ≤ own.map Handle.arena)
    (hcount : own.card = recorded.length + n) : ∃ lost : Multiset BlockId,
      own.map (·.arena.block) = (recorded.map Arena.block : List BlockId) + lost ∧
        lost.card = n := by
  obtain ⟨others, hothers⟩ := Multiset.le_iff_exists_add.mp hlisted
  have hblocks := congrArg (Multiset.map Arena.block) hothers
  have hcards := congrArg Multiset.card hothers
  rw [Multiset.map_map, Multiset.map_add] at hblocks
  rw [Multiset.card_map, Multiset.card_add, Multiset.coe_card] at hcards
  refine ⟨others.map Arena.block, hblocks, ?_⟩
  rw [Multiset.card_map]
  omega

theorem Holds.records_eq (h : Holds p stranded arenas) (k : Client) : ∃ lost : Multiset BlockId,
    (arenas k).map (·.arena.block) = p.records k + lost ∧ lost.card = stranded k := by
  cases k with
  | orchestrator =>
    have hlisted : (p.orchestrator.vrfs.map (·.arena) : Multiset Arena) ≤
        (arenas .orchestrator).map Handle.arena := by
      have hle := Multiset.map_le_map (f := Handle.arena) h.orchestrator.listed
      rw [Multiset.map_coe, List.map_map] at hle
      exact hle
    have hcount : (arenas .orchestrator).card =
        (p.orchestrator.vrfs.map (·.arena)).length + stranded .orchestrator := by
      rw [List.length_map]
      exact h.orchestrator.count
    obtain ⟨lost, heq, hcard⟩ := exists_stranded hlisted hcount
    refine ⟨lost, heq.trans ?_, hcard⟩
    rw [List.map_map]
    rfl
  | l2 =>
    have hcount := h.l2.count
    rw [← h.l2.length_records] at hcount
    exact exists_stranded h.l2.listed hcount
  | skills => exact exists_stranded h.skills.listed h.skills.count
  | generator =>
    have hcount := h.generator.count
    rw [← h.generator.length_records] at hcount
    exact exists_stranded h.generator.listed hcount
  | own =>
    refine ⟨0, ?_, h.none_own.symm⟩
    rw [h.own, add_zero]
    rfl

theorem Holds.exists_handle (h : Holds p stranded arenas) {k : Client} {b : BlockId}
    (hb : b ∈ p.blocks k) : ∃ handle ∈ arenas k, handle.arena.block = b := by
  have hmem : b ∈ (arenas k).map (·.arena.block) := by
    by_cases hk : k = .orchestrator
    · obtain ⟨lost, heq, -⟩ := h.records_eq .orchestrator
      rw [hk] at hb ⊢
      rw [heq]
      exact Multiset.mem_add.mpr (.inl hb)
    · rw [h.blocks_eq hk]
      exact hb
  exact Multiset.mem_map.mp hmem

theorem Holds.exists_untrusted (h : Holds p stranded arenas) {b : BlockId} (hb : p.Untrusted b) :
    ∃ k, ∃ handle ∈ arenas k, handle.arena.block = b ∧ handle.arena.tier = .untrusted := by
  rcases hb with hb | hb | hb | hb
  · obtain ⟨handle, hhandle, hblock⟩ := h.exists_handle hb
    exact ⟨.l2, handle, hhandle, hblock, h.l2.tier handle hhandle⟩
  · obtain ⟨handle, hhandle, hblock⟩ := h.exists_handle hb
    exact ⟨.skills, handle, hhandle, hblock, h.skills.tier handle hhandle⟩
  · obtain ⟨handle, hhandle, hblock⟩ := h.exists_handle hb
    exact ⟨.generator, handle, hhandle, hblock, h.generator.tier handle hhandle⟩
  · refine ⟨.own, ?_⟩
    rw [h.own]
    exact hb

theorem Holds.sum_records (h : Holds p stranded arenas) : ∃ lost : Client → Multiset BlockId,
    (∑ k, arenas k).map (·.arena.block) = ∑ k, (p.records k + lost k) ∧
      ∀ k, (lost k).card = stranded k := by
  choose lost heq hcard using h.records_eq
  have hmap : (∑ k, arenas k).map (·.arena.block) =
      ∑ k, (arenas k).map (·.arena.block) := map_sum (Multiset.mapAddMonoidHom _) arenas _
  exact ⟨lost, hmap.trans (Finset.sum_congr rfl fun k _ => heq k), hcard⟩

theorem Shares.sharedOut {backing blockCount blockSize : ℕ}
    (h : Shares (fun σ => ∃ c, Wf backing blockCount blockSize σ c) p stranded arenas) :
    ∃ common quarantine l2 lost, SharedOut blockCount stranded p common quarantine l2 lost := by
  obtain ⟨σ, ⟨c, w⟩, hglobals, hlive, hholds⟩ := h
  obtain ⟨lost, hblocks, hcard⟩ := hholds.sum_records
  have hconserved := w.conserved
  have hheld : (σ.live.map (·.arena.block) : Multiset BlockId) = ∑ k, (p.records k + lost k) := by
    rw [← hblocks, ← hlive]
    rfl
  have hlen : σ.live.length = ∑ k, ((p.records k).card + stranded k) := by
    have hcards := congrArg Multiset.card hheld
    rw [Multiset.card_sum, Multiset.coe_card, List.length_map] at hcards
    rw [hcards]
    exact Finset.sum_congr rfl fun k _ => by rw [Multiset.card_add, hcard k]
  have hpartition := Multiset.coe_eq_coe.mpr hconserved.partition
  simp only [← Multiset.coe_add] at hpartition
  rw [hheld] at hpartition
  exact ⟨c.stack .common, c.stack .quarantine, c.stack .l2, lost, {
    common_linked := hglobals ▸ hconserved.common_linked
    quarantine_linked := hglobals ▸ hconserved.quarantine_linked
    l2_linked := hglobals ▸ hconserved.l2_linked
    partition := hpartition
    card := hcard
    sum := by
      have hsum := hconserved.sum
      rw [hglobals, hlen] at hsum
      omega }⟩

theorem Shares.untrusted {backing blockCount blockSize : ℕ} {k : Client} {b : BlockId}
    (h : Shares (fun σ => ∃ c, Wf backing blockCount blockSize σ c) p stranded arenas)
    (hb : ∃ handle ∈ arenas k, handle.arena.block = b ∧ handle.arena.tier = .untrusted) :
    Shares (fun σ => ∃ c, Wf backing blockCount blockSize σ c ∧ ∃ x, untrustedSide x ∧ c.At b x) p
      stranded arenas := by
  obtain ⟨σ, ⟨c, w⟩, hglobals, hlive, hholds⟩ := h
  obtain ⟨handle, hhandle, rfl, htier⟩ := hb
  have hmem : handle ∈ (σ.live : Multiset Handle) := by
    rw [hlive]
    exact Multiset.mem_sum.mpr ⟨k, Finset.mem_univ k, hhandle⟩
  exact ⟨σ, ⟨c, w, .holder handle.arena.tier, htier, mem_held w.held hmem⟩, hglobals, hlive, hholds⟩

theorem untrusted_step {backing blockCount blockSize : ℕ} {b : BlockId} (σ : System) (op : Op)
    (σ' : System) (hstep : Gqap.step σ op = some σ')
    (h : ∃ c, Wf backing blockCount blockSize σ c ∧ ∃ x, untrustedSide x ∧ c.At b x) :
    ∃ c, Wf backing blockCount blockSize σ' c ∧ ∃ x, untrustedSide x ∧ c.At b x := by
  obtain ⟨c, w, hb⟩ := h
  exact untrustedSide_step w hstep hb

/-- A call leaves the bytes of the blocks of all clients but one. -/
theorem Shares.mem_eq {backing blockCount blockSize : ℕ}
    (h : Shares (fun σ => ∃ c, Wf backing blockCount blockSize σ c) p stranded arenas)
    (hstep : step p call = some p') {k : Client} (hk : k ≠ call.client) {b : BlockId}
    (hb : b ∈ p.blocks k) {a : ℕ} (ha : InBlock p.globals b a) :
    p'.globals.mem a = p.globals.mem a := by
  obtain ⟨σ, ⟨c, w⟩, hglobals, hlive, hholds⟩ := h
  obtain ⟨own', hplays, -⟩ := plays_of_step hholds hstep
  obtain ⟨handle, hhandle, rfl⟩ := hholds.exists_handle hb
  rw [← Finset.add_sum_erase _ _ (Finset.mem_univ call.client)] at hlive
  have hrest : handle ∈ ∑ k ∈ Finset.univ.erase call.client, arenas k :=
    Multiset.mem_sum.mpr ⟨k, Finset.mem_erase.mpr ⟨hk, Finset.mem_univ k⟩, hhandle⟩
  exact hplays.mem_eq w hglobals hlive hrest ha

theorem blocks_of_ne (hstep : step p call = some p') {k : Client} (hk : k ≠ call.client) :
    p'.blocks k = p.blocks k := by
  unfold step at hstep
  split_ifs at hstep with hinside
  cases call with
  | endVrfs =>
    cases hstep
    cases k with
    | orchestrator => exact absurd rfl hk
    | _ => rfl
  | _ =>
    obtain ⟨w, hw, rfl⟩ := Option.map_eq_some_iff.mp hstep
    cases k <;> first
      | rfl
      | exact absurd rfl hk

theorem Shares.inBlock_iff {backing blockCount blockSize : ℕ}
    (h : Shares (fun σ => ∃ c, Wf backing blockCount blockSize σ c) p stranded arenas) {b : BlockId}
    {a : ℕ} : InBlock p.globals b a ↔
      backing + b * blockSize ≤ a ∧ a < backing + b * blockSize + blockSize := by
  obtain ⟨σ, ⟨c, w⟩, hglobals, -, -⟩ := h
  rw [← hglobals]
  unfold InBlock
  rw [w.memory, w.capacity]

theorem blocks_of_run {calls : List Call} (hr : Run.run step p calls = some p') {k : Client}
    (hcalls : ∀ call ∈ calls, call.client ≠ k) : p'.blocks k = p.blocks k := by
  induction calls generalizing p with
  | nil =>
    cases hr
    rfl
  | cons call calls ih =>
    obtain ⟨p₁, hstep, hrest⟩ := Run.run_cons_eq_some.mp hr
    have hrest := ih hrest fun call hcall => hcalls call (List.mem_cons_of_mem _ hcall)
    exact hrest.trans (blocks_of_ne hstep (hcalls call List.mem_cons_self).symm)

theorem Shares.mem_eq_of_run {backing blockCount blockSize : ℕ} {calls : List Call}
    (h : Shares (fun σ => ∃ c, Wf backing blockCount blockSize σ c) p stranded arenas)
    (hr : Run.run step p calls = some p') {k : Client} (hcalls : ∀ call ∈ calls, call.client ≠ k)
    {b : BlockId} (hb : b ∈ p.blocks k) {a : ℕ} (ha : InBlock p.globals b a) :
    p'.globals.mem a = p.globals.mem a := by
  induction calls generalizing p stranded arenas with
  | nil =>
    cases hr
    rfl
  | cons call calls ih =>
    obtain ⟨p₁, hstep, hrest⟩ := Run.run_cons_eq_some.mp hr
    have hk : k ≠ call.client := (hcalls call List.mem_cons_self).symm
    obtain ⟨own', h₁⟩ := shares_step wf_step h hstep
    have hblocks := blocks_of_ne hstep hk
    have ha₁ : InBlock p₁.globals b a := h₁.inBlock_iff.mpr (h.inBlock_iff.mp ha)
    have hmem := ih h₁ hrest (fun call hcall => hcalls call (List.mem_cons_of_mem _ hcall))
      (hblocks ▸ hb) ha₁
    exact hmem.trans (h.mem_eq hstep hk hb ha)

end Holds

section Runs

variable {mapping : Option ℕ} {table : Bool} {blockCount blockSize : ℕ} {s : Globals}
  {trustedKey : L2.PublicKey} {fails : ℕ → Bool} {past calls : List Call} {p p' : Process}

/-- Whatever the modules call and however the calls interleave, every block is in one free list, or
a record of one client refers to it, or it is one of those that a client's calls have left without a
record: one for each call that took a block and failed, and for each `L2` skill that was
unloaded. -/
theorem blocks_shared_out (hs : initPools mapping table blockCount blockSize = .ok s)
    (hr : Run.run step (boot s trustedKey fails) calls = some p) :
    ∃ common quarantine l2 stranded, SharedOut blockCount
      (fun k => Run.total step (strands k) (boot s trustedKey fails) calls) p common quarantine l2
        stranded := by
  obtain ⟨backing, arenas, h⟩ := shares_of_run hs hr
  exact h.sharedOut

/-- A VRF that found no room in the list, one that did, a skill of each kind, and an arena beside
them. -/
def mixed (trustedKey : L2.PublicKey) : List Call :=
  [.orchestrator (.createVrf ⟨true, false⟩), .orchestrator (.createVrf Orchestrator.delivering),
    .l2 (.load (L2.L2SkillLoader.obliging fun _ _ _ => .ok true) []
      (L2.L2SkillLoader.smallData trustedKey)),
    .skills (.loadL2 Skill.obliging [113] []),
    .generator (.generate (fun _ _ => 0) true ⟨[97]⟩), .pools (.init .trusted)]

/-- Behind them a load that finds no room in the list of skills, and an unload of the `L2` skill. -/
def wasteful (trustedKey : L2.PublicKey) : List Call :=
  mixed trustedKey ++ [.skills (.loadL2 { Skill.obliging with append := false } [] []),
    .l2 (.unload none [])]

theorem blocks_shared_out_mixed :
    ∃ p, Run.run step (boot (initialGlobals 4096 7 64) (.replicate 32 0) fun _ => false)
        (wasteful (.replicate 32 0)) = some p ∧
      p.records .l2 = 0 ∧ (∀ k, k ≠ .l2 → (p.records k).card = 1) ∧
      ∃ common quarantine l2 stranded, SharedOut 7
        (fun k => if k = .generator ∨ k = .own then 0 else 1) p common quarantine l2 stranded := by
  have hs : initPools (some 4096) true 7 64 = .ok (initialGlobals 4096 7 64) := rfl
  obtain ⟨p, hp⟩ : ∃ p, Run.run step (boot (initialGlobals 4096 7 64) (.replicate 32 0)
      fun _ => false) (wasteful (.replicate 32 0)) = some p := ⟨_, rfl⟩
  have hshared := blocks_shared_out hs hp
  have hlost : (fun k => Run.total step (strands k)
      (boot (initialGlobals 4096 7 64) (.replicate 32 0) fun _ => false)
        (wasteful (.replicate 32 0))) = fun k => if k = .generator ∨ k = .own then 0 else 1 := by
    funext k
    cases k <;> rfl
  rw [hlost] at hshared
  refine ⟨p, hp, ?_, ?_, hshared⟩
  · cases hp
    rfl
  · cases hp
    intro k hk
    cases k with
    | l2 => exact absurd rfl hk
    | _ => rfl

/-- A block that has served an untrusted arena is never again in the common pool, with a VRF or in a
trusted arena. -/
theorem untrusted_block_stays (hs : initPools mapping table blockCount blockSize = .ok s)
    (hpast : Run.run step (boot s trustedKey fails) past = some p) {b : BlockId}
    (hb : p.Untrusted b) (hr : Run.run step p calls = some p') :
    ¬ Chain.Reaches (fun b => (p'.globals.blocks b).poolNext) (p'.globals.pool .common).head b ∧
      b ∉ p'.blocks .orchestrator ∧
        ∀ h ∈ p'.own, h.arena.block = b → h.arena.tier = .untrusted := by
  obtain ⟨backing, arenas, h⟩ := shares_of_run hs hpast
  obtain ⟨k, hheld⟩ : ∃ k, ∃ handle ∈ arenas k, handle.arena.block = b ∧
      handle.arena.tier = .untrusted := by
    obtain ⟨-, -, -, -, hholds⟩ := h
    exact hholds.exists_untrusted hb
  obtain ⟨arenas', σ, ⟨c, w, x, hx, hbx⟩, hglobals, hlive, hholds⟩ :=
    shares_run untrusted_step (h.untrusted hheld) hr
  have htier : ∀ handle, (∃ k, handle ∈ arenas' k) → handle.arena.block = b →
      handle.arena.tier = .untrusted := by
    rintro handle ⟨k, hhandle⟩ rfl
    have hmem : handle ∈ (σ.live : Multiset Handle) := by
      rw [hlive]
      exact Multiset.mem_sum.mpr ⟨k, Finset.mem_univ k, hhandle⟩
    rw [Custody.State.At.unique w.nodup hbx (mem_held w.held hmem)] at hx
    exact hx
  refine ⟨?_, ?_, ?_⟩
  · intro hreach
    rw [← hglobals] at hreach
    have hmem : c.At b (.pool .common) := (w.represents .common).mem_iff.mpr hreach
    rw [Custody.State.At.unique w.nodup hbx hmem] at hx
    exact hx rfl
  · intro hmem
    obtain ⟨handle, hhandle, hblock⟩ := hholds.exists_handle hmem
    have htrusted := hholds.orchestrator.tier handle hhandle
    rw [htier handle ⟨_, hhandle⟩ hblock] at htrusted
    cases htrusted
  · intro handle hhandle hblock
    refine htier handle ⟨.own, ?_⟩ hblock
    rw [hholds.own]
    exact hhandle

theorem untrusted_block_stays_mixed :
    ∃ p p', Run.run step (boot (initialGlobals 4096 7 64) (.replicate 32 0) fun _ => false)
        (mixed (.replicate 32 0)) = some p ∧
      Run.run step p [.skills (.unload [113]), .pools .incrementGeneration,
        .pools .incrementGeneration, .pools (.sanitizeOne 9), .pools (.init .untrusted)] = some p' ∧
      3 ∈ p.blocks .skills ∧ 3 ∈ p'.blocks .own ∧ 3 ∉ p'.blocks .orchestrator := by
  have hs : initPools (some 4096) true 7 64 = .ok (initialGlobals 4096 7 64) := rfl
  obtain ⟨p, hp⟩ : ∃ p, Run.run step (boot (initialGlobals 4096 7 64) (.replicate 32 0)
      fun _ => false) (mixed (.replicate 32 0)) = some p := ⟨_, rfl⟩
  have hb : 3 ∈ p.blocks .skills := by
    cases hp
    exact Multiset.mem_singleton_self 3
  obtain ⟨p', hp'⟩ : ∃ p', Run.run step p [.skills (.unload [113]), .pools .incrementGeneration,
      .pools .incrementGeneration, .pools (.sanitizeOne 9), .pools (.init .untrusted)] =
        some p' := by
    cases hp
    exact ⟨_, rfl⟩
  have hstays := untrusted_block_stays hs hp (.inr (.inl hb)) hp'
  refine ⟨p, p', hp, hp', hb, ?_, hstays.2.1⟩
  cases hp
  cases hp'
  exact List.mem_cons_self

/-- While a client makes no call, its blocks stay its own, and no call of the others changes a byte
of them. -/
theorem bytes_of_others_stay (hs : initPools mapping table blockCount blockSize = .ok s)
    (hpast : Run.run step (boot s trustedKey fails) past = some p) {k : Client}
    (hr : Run.run step p calls = some p') (hcalls : ∀ call ∈ calls, call.client ≠ k) :
    p'.blocks k = p.blocks k ∧ ∀ b ∈ p.blocks k, ∀ a, InBlock p.globals b a →
      p'.globals.mem a = p.globals.mem a := by
  obtain ⟨backing, arenas, h⟩ := shares_of_run hs hpast
  exact ⟨blocks_of_run hr hcalls, fun b hb a ha => h.mem_eq_of_run hr hcalls hb ha⟩

theorem bytes_of_others_stay_mixed :
    ∃ p p', Run.run step (boot (initialGlobals 4096 7 64) (.replicate 32 0) fun _ => false)
        (mixed (.replicate 32 0)) = some p ∧
      Run.run step p [.pools (.alloc 0 ElemType.u8 4), .pools (.write .trusted 0 0 0 [1, 2]),
        .l2 (.unload none []), .skills (.unload [113]), .generator (.remove none [97]),
        .pools (.sanitizeOne 9)] = some p' ∧
      p'.blocks .orchestrator = {1} ∧ ∀ a, 4096 + 64 ≤ a → a < 4096 + 128 →
        p'.globals.mem a = p.globals.mem a := by
  have hs : initPools (some 4096) true 7 64 = .ok (initialGlobals 4096 7 64) := rfl
  obtain ⟨p, hp⟩ : ∃ p, Run.run step (boot (initialGlobals 4096 7 64) (.replicate 32 0)
      fun _ => false) (mixed (.replicate 32 0)) = some p := ⟨_, rfl⟩
  obtain ⟨p', hp'⟩ : ∃ p', Run.run step p [.pools (.alloc 0 ElemType.u8 4),
      .pools (.write .trusted 0 0 0 [1, 2]), .l2 (.unload none []), .skills (.unload [113]),
      .generator (.remove none [97]), .pools (.sanitizeOne 9)] = some p' := by
    cases hp
    exact ⟨_, rfl⟩
  have hblocks : p.blocks .orchestrator = {1} := by
    cases hp
    rfl
  have hstays := bytes_of_others_stay hs hp (k := .orchestrator) hp' (by simp [Call.client])
  refine ⟨p, p', hp, hp', hstays.1.trans hblocks, fun a hlo hhi => hstays.2 1 ?_ a ?_⟩
  · rw [hblocks]
    exact Multiset.mem_singleton_self 1
  · cases hp
    exact ⟨hlo, hhi⟩

end Runs
end LingNet.Process
