import LingNet.Gqap.Clients
import LingNet.Orchestrator.Vrf

/-! The orchestrator as a client of the pools. -/
namespace LingNet.Orchestrator
open Zig Gqap

/-- `Orchestrator.deinit`: the VRFs end from the last to the first. -/
def deinit (w : World) : World :=
  { w.vrfs.foldr (fun vrf w => destroy vrf.box (vrf.deinit w)) w with vrfs := [] }

/-- The arena of a VRF, from which nothing was allocated. -/
def VrfInstance.handle (vrf : VrfInstance) : Handle := ⟨vrf.arena, []⟩

instance (env : Env) (w : World) : Decidable (StrandsBlock env w) :=
  inferInstanceAs (Decidable (_ ∧ _ ∧ _ ∧ _))

def strands (w : World) : Call → ℕ
  | .createVrf env => if StrandsBlock env w then 1 else 0
  | _ => 0

/-- The arenas are trusted. They are those of the VRFs, and `stranded` of calls that had no room
in the list. -/
structure Owns (w : World) (stranded : ℕ) (own : Multiset Handle) : Prop where
  tier : ∀ h ∈ own, h.arena.tier = .trusted
  listed : (w.vrfs.map VrfInstance.handle : Multiset Handle) ≤ own
  count : own.card = w.vrfs.length + stranded

section Calls

variable {w w' : World} {stranded : ℕ} {own : Multiset Handle} {env : Env}

theorem createVrf_of_append {b : BlockId} {s : Globals} (hroom : w.vrfs.length < 256)
    (hcreate : env.create = true) (hpop : CommonPool.pop w.globals = some (b, s))
    (happend : env.append = true) : createVrf env w =
      (.ok (.new w.nextBox w.nextVrfId ⟨.trusted, b, w.globals.currentGeneration, 0⟩), { w with
        globals := s
        nextBox := w.nextBox + 1
        boxes := w.nextBox ::ₘ w.boxes
        vrfs := w.vrfs ++
          [.new w.nextBox w.nextVrfId ⟨.trusted, b, w.globals.currentGeneration, 0⟩]
        nextVrfId := w.nextVrfId + 1 }) := by
  unfold createVrf
  rw [Proc.bind_of_ok (Proc.get_run w), if_neg (Nat.not_le.mpr hroom),
    Proc.bind_of_ok (create_of_create hcreate w)]
  apply Proc.errdefer_of_ok
  rw [Proc.bind_of_ok (fetchAdd_run _), Proc.bind_of_ok (initArena_of_some (by exact hpop)),
    Proc.bind_of_ok (append_of_append happend _ _)]
  rfl

theorem acts_pop {s s' : Globals} {b : BlockId} (hpop : CommonPool.pop s = some (b, s')) :
    Acts s own s' (⟨⟨.trusted, b, s.currentGeneration, 0⟩, []⟩ ::ₘ own) := by
  have hinit : Arena.init .trusted s = .ok (⟨.trusted, b, s.currentGeneration, 0⟩, s') := by
    unfold Arena.init
    simp only [hpop]
  exact acts_init hinit

theorem plays_createVrf (h : Owns w stranded own) (hstep : w.step (.createVrf env) = some w') :
    ∃ own', Plays w.globals own w'.globals own' ∧
      Owns w' (stranded + strands w (.createVrf env)) own' := by
  have hstay : ∀ {w₁ : World}, w₁.globals = w.globals → w₁.vrfs = w.vrfs →
      ¬ StrandsBlock env w → ∃ own', Plays w.globals own w₁.globals own' ∧
        Owns w₁ (stranded + strands w (.createVrf env)) own' := by
    intro w₁ hglobals hvrfs hnot
    have hnone : strands w (.createVrf env) = 0 := if_neg hnot
    refine ⟨own, hglobals ▸ .rest _ _, h.tier, ?_, ?_⟩
    · rw [hvrfs]
      exact h.listed
    · rw [hvrfs, hnone]
      exact h.count
  unfold World.step at hstep
  by_cases hroom : 256 ≤ w.vrfs.length
  · simp only [createVrf_of_full hroom] at hstep
    cases hstep
    exact hstay rfl rfl fun hstrand => absurd hstrand.1 (Nat.not_lt.mpr hroom)
  have hlt : w.vrfs.length < 256 := by omega
  by_cases hcreate : env.create = true
  swap
  · simp only [createVrf_of_not_create hlt hcreate] at hstep
    cases hstep
    exact hstay rfl rfl fun hstrand => hcreate hstrand.2.1
  cases hpop : CommonPool.pop w.globals with
  | none =>
    simp only [createVrf_of_none hlt hcreate hpop] at hstep
    cases hstep
    exact hstay rfl rfl fun hstrand => by simp [StrandsBlock, hpop] at hstrand
  | some r =>
    obtain ⟨b, s⟩ := r
    have hacts : Acts w.globals own s _ := acts_pop hpop
    have htier : ∀ h ∈ (⟨⟨.trusted, b, w.globals.currentGeneration, 0⟩, []⟩ ::ₘ own :
        Multiset Handle), h.arena.tier = .trusted := by
      simpa using h.tier
    have hcount := h.count
    by_cases happend : env.append = true
    · simp only [createVrf_of_append hlt hcreate hpop happend] at hstep
      cases hstep
      have hnone : strands w (.createVrf env) = 0 :=
        if_neg fun hstrand => by simp [StrandsBlock, happend] at hstrand
      refine ⟨_, hacts.plays, htier, ?_, ?_⟩
      · have hnew : ∀ vrf : VrfInstance,
            ((w.vrfs ++ [vrf]).map VrfInstance.handle : Multiset Handle) =
              vrf.handle ::ₘ (w.vrfs.map VrfInstance.handle : Multiset Handle) := by
          intro vrf
          rw [List.map_append]
          exact Multiset.coe_eq_coe.mpr (List.perm_append_singleton vrf.handle _)
        rw [hnew]
        exact Multiset.cons_le_cons _ h.listed
      · simp only [Multiset.card_cons, List.length_append, List.length_singleton, hnone]
        omega
    · simp only [createVrf_of_not_append hlt hcreate hpop happend] at hstep
      cases hstep
      have hone : strands w (.createVrf env) = 1 :=
        if_pos ⟨hlt, hcreate, by simpa using happend, by rw [hpop]; rfl⟩
      refine ⟨_, hacts.plays, htier, h.listed.trans (Multiset.le_cons_self _ _), ?_⟩
      simp only [Multiset.card_cons, hone]
      omega

theorem plays_end {vrf : VrfInstance} {vrfs : List VrfInstance}
    (h : Owns { w with vrfs := vrf :: vrfs } stranded own) :
    ∃ own', Plays w.globals own (vrf.deinit w).globals own' ∧
      Owns { w with vrfs := vrfs } stranded own' := by
  have hlisted := h.listed
  rw [List.map_cons, ← Multiset.cons_coe] at hlisted
  have hmem : vrf.handle ∈ own := Multiset.mem_of_le hlisted (Multiset.mem_cons_self _ _)
  obtain ⟨others, rfl⟩ := Multiset.exists_cons_of_mem hmem
  refine ⟨others, (acts_deinit vrf.handle).plays, ?_, ?_, ?_⟩
  · exact fun handle hhandle => h.tier handle (Multiset.mem_cons_of_mem hhandle)
  · exact (Multiset.cons_le_cons_iff vrf.handle).mp hlisted
  · have hcount := h.count
    simp only [Multiset.card_cons, List.length_cons] at hcount
    dsimp only
    omega

theorem plays_destroyVrf (h : Owns w stranded own) (vrfId : UInt32) :
    ∃ own', Plays w.globals own (destroyVrf vrfId w).globals own' ∧
      Owns (destroyVrf vrfId w) stranded own' := by
  unfold destroyVrf
  cases hfind : w.vrfs.find? (·.id = vrfId) with
  | none => exact ⟨own, .rest _ _, h⟩
  | some vrf =>
    have hperm := Custody.perm_cons_eraseP hfind
    have hfound : Owns { w with vrfs := vrf :: w.vrfs.eraseP (·.id = vrfId) } stranded own := by
      refine ⟨h.tier, ?_, ?_⟩
      · exact (Multiset.coe_eq_coe.mpr (hperm.map VrfInstance.handle)) ▸ h.listed
      · exact hperm.length_eq ▸ h.count
    obtain ⟨own', hplays, howns⟩ := plays_end hfound
    exact ⟨own', hplays, howns.tier, howns.listed, howns.count⟩

/-- The last VRF ends first, while the arenas of those before it are still held. -/
theorem plays_endAll (vrfs : List VrfInstance) (others : Multiset Handle) :
    Plays w.globals ((vrfs.map VrfInstance.handle : Multiset Handle) + others)
      (vrfs.foldr (fun vrf w => destroy vrf.box (vrf.deinit w)) w).globals others := by
  induction vrfs generalizing others with
  | nil => simpa using Plays.rest w.globals others
  | cons vrf vrfs ih =>
    have hplays := ih (vrf.handle ::ₘ others)
    have hsame : ((vrf :: vrfs).map VrfInstance.handle : Multiset Handle) + others =
        (vrfs.map VrfInstance.handle : Multiset Handle) + vrf.handle ::ₘ others := by
      rw [List.map_cons, ← Multiset.cons_coe, Multiset.cons_add, Multiset.add_cons]
    rw [hsame]
    exact hplays.trans (acts_deinit vrf.handle).plays

theorem plays_deinit (h : Owns w stranded own) :
    ∃ own', Plays w.globals own (deinit w).globals own' ∧ Owns (deinit w) stranded own' := by
  obtain ⟨others, hothers⟩ := Multiset.le_iff_exists_add.mp h.listed
  have hle : others ≤ own := hothers ▸ Multiset.le_add_left others _
  have hplays := plays_endAll (w := w) w.vrfs others
  rw [← hothers] at hplays
  refine ⟨others, hplays, ?_, Multiset.zero_le others, ?_⟩
  · exact fun handle hhandle => h.tier handle (Multiset.mem_of_le hle hhandle)
  · have hcount := h.count
    rw [hothers, Multiset.card_add, Multiset.coe_card, List.length_map] at hcount
    change others.card = 0 + stranded
    omega

theorem plays_of_step {call : Call} (h : Owns w stranded own)
    (hcall : ∀ globals, call ≠ .pools globals) (hstep : w.step call = some w') :
    ∃ own', Plays w.globals own w'.globals own' ∧ Owns w' (stranded + strands w call) own' := by
  cases call with
  | createVrf env => exact plays_createVrf h hstep
  | destroyVrf vrfId =>
    cases hstep
    exact plays_destroyVrf h vrfId
  | pools globals => exact absurd rfl (hcall globals)

end Calls
end LingNet.Orchestrator
