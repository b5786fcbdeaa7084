import LingNet.Gqap.Clients
import LingNet.Skill.Resources
import LingNet.Zig.Triple

/-! The loader of the skills of all tiers as a client of the pools. -/
namespace LingNet.Skill
open Zig Gqap

def arenas (w : World) : List Arena := w.skills.filterMap (·.arena.map (·.arena))

/-- The load gets an arena and no place in the list for its skill. -/
def arenaStrands (env : Env) (s : Globals) : ℕ :=
  if env.create ∧ delivers s ∧ ¬ env.append then 1 else 0

def strands (w : World) : Call → ℕ
  | .loadL1 env _ path =>
    if env.pathBuf ∧ ((env.dlopen (path ++ [0])).isNone ∨ env.initSym) then
      arenaStrands env w.globals
    else 0
  | .loadL2 env _ _ => arenaStrands env w.globals
  | _ => 0

/-- The arenas are untrusted, they hold the blocks of the ledger, and those of the listed skills
are among them, all but `stranded`. -/
structure Owns (w : World) (stranded : ℕ) (own : Multiset Gqap.Handle) : Prop where
  tier : ∀ h ∈ own, h.arena.tier = .untrusted
  blocks : own.map (·.arena.block) = w.ledger.blocks
  listed : (arenas w : Multiset Arena) ≤ own.map Handle.arena
  count : own.card = (arenas w).length + stranded

def Held (s : Globals) (own : Multiset Gqap.Handle) (stranded : ℕ) (w : World) : Prop :=
  ∃ own', Plays s own w.globals own' ∧ Owns w stranded own'

section Calls

variable {s : Globals} {own : Multiset Gqap.Handle} {stranded : ℕ} {env : Env} {w w' : World}

theorem Held.congr (h : Held s own stranded w) (hglobals : w'.globals = w.globals)
    (harenas : arenas w' = arenas w) (hblocks : w'.ledger.blocks = w.ledger.blocks) :
    Held s own stranded w' := by
  obtain ⟨own', hplays, howns⟩ := h
  refine ⟨own', hglobals ▸ hplays, howns.tier, howns.blocks.trans hblocks.symm, ?_, ?_⟩
  · rw [harenas]
    exact howns.listed
  · rw [harenas]
    exact howns.count

theorem blocks_dlclose (handle : Handle) (w : World) :
    (w.dlclose handle).ledger.blocks = w.ledger.blocks := by
  unfold World.dlclose
  dsimp only
  split_ifs <;> rfl

theorem held_dlclose (h : Held s own stranded w) (handle : Handle) :
    Held s own stranded (w.dlclose handle) :=
  h.congr rfl rfl (blocks_dlclose handle w)

theorem held_setState (h : Held s own stranded w) (i : ℕ) (state : SkillState) :
    Held s own stranded (w.setState i state) := by
  refine h.congr rfl ?_ rfl
  have hsame := filterMap_modify (f := fun skill : SkillMeta => skill.arena.map (·.arena))
    (g := fun skill => { skill with state := state }) (fun _ => rfl) w.skills i
  exact hsame

/-- A skill takes a new arena, or the arena stays without one. -/
theorem held_addSkill {name : List UInt8} {tier : SkillTier} {entryPoint : Option Entry}
    {soHandle : Option Handle} (h : Held s own stranded w) :
    (SkillLoader.addSkill env name tier entryPoint soHandle).Meets
      (fun _ => Held s own (stranded + arenaStrands env w.globals))
      (Held s own (stranded + arenaStrands env w.globals)) w := by
  unfold arenaStrands
  by_cases hcreate : env.create = true
  swap
  · rw [if_neg fun hlost => hcreate hlost.1]
    exact Proc.meets_of_err (addSkill_of_no_box hcreate) h
  rcases hinit : Arena.init .untrusted w.globals with ⟨a, globals⟩ | e | t
  · obtain ⟨own', hplays, howns⟩ := h
    have htier : a.tier = .untrusted := Arena.tier_of_init hinit
    have hacts : Acts w.globals own' globals (⟨a, []⟩ ::ₘ own') := acts_init hinit
    have hplays' := hplays.trans hacts.plays
    have htiers : ∀ h ∈ (⟨a, []⟩ ::ₘ own' : Multiset Gqap.Handle), h.arena.tier = .untrusted := by
      simpa [htier] using howns.tier
    have hblocks : (⟨a, []⟩ ::ₘ own' : Multiset Gqap.Handle).map (·.arena.block) =
        a.block ::ₘ w.ledger.blocks := by
      rw [Multiset.map_cons, howns.blocks]
    have hcount := howns.count
    have hrun : SkillLoader.addSkill env name tier entryPoint soHandle w = _ :=
      addSkill_of_arena hcreate hinit
    by_cases happend : env.append = true
    · rw [if_neg fun hlost => hlost.2.2 happend]
      rw [append_run happend] at hrun
      have hnew : (arenas (withSkill (withArena w a globals) (.new name tier entryPoint soHandle
          (some ⟨w.ledger.nextBox, a⟩))) : Multiset Arena) = a ::ₘ arenas w := by
        unfold arenas withSkill
        rw [List.filterMap_append]
        exact Multiset.coe_eq_coe.mpr (List.perm_append_singleton a _)
      refine Proc.meets_of_ok hrun ⟨_, hplays', htiers, hblocks, ?_, ?_⟩
      · rw [hnew, Multiset.map_cons]
        exact Multiset.cons_le_cons a howns.listed
      · have hlength := congrArg Multiset.card hnew
        rw [Multiset.coe_card, Multiset.card_cons, Multiset.coe_card] at hlength
        rw [Multiset.card_cons, hlength]
        omega
    · rw [if_pos ⟨hcreate, delivers_of_ok hinit, happend⟩]
      rw [append_err happend] at hrun
      refine Proc.meets_of_err hrun ⟨_, hplays', htiers, hblocks, ?_, ?_⟩
      · rw [Multiset.map_cons]
        exact howns.listed.trans (Multiset.le_cons_self _ a)
      · rw [Multiset.card_cons, hcount]
        rfl
  · rw [delivers_of_err hinit, if_neg fun hlost => Bool.false_ne_true hlost.2.1]
    exact Proc.meets_of_err (addSkill_of_err hcreate hinit) (h.congr rfl rfl rfl)
  · exact Proc.meets_of_trap (addSkill_of_trap hcreate hinit)

theorem held_loadL1 {name path : List UInt8} (h : Held s own stranded w) :
    (SkillLoader.loadL1 env name path).Meets
      (fun _ => Held s own (stranded + strands w (.loadL1 env name path)))
      (Held s own (stranded + strands w (.loadL1 env name path))) w := by
  unfold SkillLoader.loadL1 strands
  dsimp only
  by_cases hpath : env.pathBuf = false
  · rw [if_pos hpath, if_neg fun htakes => Bool.false_ne_true (hpath.symm.trans htakes.1)]
    exact Proc.meets_fail h
  have hpath' : env.pathBuf = true := by simpa using hpath
  rw [if_neg hpath]
  cases hopen : env.dlopen (path ++ [0]) with
  | none =>
    rw [if_pos ⟨hpath', .inl rfl⟩]
    exact held_addSkill h
  | some handle =>
    have hopened : Held s own stranded (w.opened handle) := h.congr rfl rfl rfl
    refine Proc.Meets.bind (Q := fun _ w₁ => Held s own stranded w₁ ∧ w₁.globals = w.globals)
      ⟨hopened, rfl⟩ fun _ w₁ ⟨h₁, hglobals⟩ => ?_
    refine Proc.meets_errdefer ?_
    have hclosed : ∀ n w₂, Held s own n w₂ → Held s own n (w₂.dlclose handle) :=
      fun _ _ h₂ => held_dlclose h₂ handle
    by_cases hsym : env.initSym = false
    · rw [if_pos hsym, if_neg fun htakes => by simp [hsym] at htakes]
      exact Proc.meets_fail (hclosed _ w₁ h₁)
    rw [if_neg hsym, if_pos ⟨hpath', .inr (by simpa using hsym)⟩, ← hglobals]
    cases env.dlsym handle (SkillLoader.initSymbol name) with
    | none =>
      have hsame : (w₁.dlclose handle).globals = w₁.globals := rfl
      rw [← hsame]
      refine Proc.Meets.bind (Q := fun _ w₂ => w₂ = w₁.dlclose handle) rfl ?_
      rintro _ _ rfl
      exact (held_addSkill (hclosed _ w₁ h₁)).mono (fun _ _ h => h) (hclosed _)
    | some entry => exact (held_addSkill h₁).mono (fun _ _ h => h) (hclosed _)

theorem held_registerL0 {name : List UInt8} {entry : Entry} {r : Outcome SkillError Unit}
    (h : Held s own stranded w) (hrun : SkillLoader.registerL0 env name entry w = (r, w')) :
    Held s own stranded w' := by
  rcases registerL0_cases hrun with rfl | rfl
  · exact h
  · refine h.congr rfl ?_ rfl
    unfold arenas withSkill
    rw [List.filterMap_append]
    exact List.append_nil _

theorem held_removed {name : List UInt8} {skill : SkillMeta} (h : Held s own stranded w)
    (hfind : w.skills.find? (·.name = name) = some skill) :
    Held s own stranded { SkillLoader.endArena skill (SkillLoader.closeHandle skill w) with
      skills := w.skills.eraseP (·.name = name) } := by
  have hclosed : Held s own stranded (SkillLoader.closeHandle skill w) := by
    unfold SkillLoader.closeHandle
    cases skill.soHandle with
    | none => exact h
    | some handle => exact held_dlclose h handle
  have hskills : (SkillLoader.closeHandle skill w).skills = w.skills := by
    unfold SkillLoader.closeHandle
    cases skill.soHandle <;> rfl
  have hperm : (w.skills.filterMap (·.arena.map (·.arena)) : Multiset Arena) =
      ((skill :: w.skills.eraseP (·.name = name)).filterMap (·.arena.map (·.arena)) : List _) :=
    Multiset.coe_eq_coe.mpr ((Custody.perm_cons_eraseP hfind).filterMap _)
  obtain ⟨own', hplays, howns⟩ := hclosed
  have hlisted := howns.listed
  have hcount := howns.count
  unfold arenas at hlisted hcount
  rw [hskills, hperm] at hlisted
  rw [hskills, ← Multiset.coe_card, hperm] at hcount
  unfold SkillLoader.endArena
  cases harena : skill.arena with
  | none =>
    rw [List.filterMap_cons, harena] at hlisted hcount
    exact ⟨own', hplays, howns.tier, howns.blocks, hlisted, hcount⟩
  | some box =>
    rw [List.filterMap_cons, harena, Option.map_some] at hlisted hcount
    dsimp only at hlisted hcount
    rw [← Multiset.cons_coe] at hlisted hcount
    have hmem : box.arena ∈ own'.map Gqap.Handle.arena :=
      Multiset.mem_of_le hlisted (Multiset.mem_cons_self box.arena _)
    obtain ⟨handle, hhandle, heq⟩ := Multiset.mem_map.mp hmem
    obtain ⟨others, rfl⟩ := Multiset.exists_cons_of_mem hhandle
    have hended : Acts (SkillLoader.closeHandle skill w).globals (handle ::ₘ others) _ others :=
      acts_deinit handle
    rw [heq] at hended
    refine ⟨others, hplays.trans hended.plays, ?_, ?_, ?_, ?_⟩
    · exact fun h hh => howns.tier h (Multiset.mem_cons_of_mem hh)
    · change _ = (SkillLoader.closeHandle skill w).ledger.blocks.erase box.arena.block
      rw [← howns.blocks, Multiset.map_cons, heq, Multiset.erase_cons_head]
    · rw [Multiset.map_cons, heq] at hlisted
      exact (Multiset.cons_le_cons_iff box.arena).mp hlisted
    · rw [Multiset.card_cons, Multiset.card_cons, Multiset.coe_card] at hcount
      unfold arenas
      dsimp only
      omega

theorem plays_of_step {call : Call} (h : Owns w stranded own)
    (hcall : ∀ globals, call ≠ .others globals) (hstep : Skill.step w call = some w') :
    ∃ own', Plays w.globals own w'.globals own' ∧ Owns w' (stranded + strands w call) own' := by
  have hstart : Held w.globals own stranded w := ⟨own, .rest _ _, h⟩
  obtain ⟨⟨r, w₁⟩, hplay, hresume⟩ := Option.bind_eq_some_iff.mp hstep
  have hheld : (∀ t, r ≠ .trap t) → Held w.globals own (stranded + strands w call) w₁ := by
    intro hr
    have hmeets : ∀ {x : Proc World SkillError Unit} {n : ℕ},
        x.Meets (fun _ => Held w.globals own n) (Held w.globals own n) w → x w = (r, w₁) →
          Held w.globals own n w₁ := by
      intro x n hx hrun
      cases r with
      | ok u => exact hx.ok hrun
      | err e => exact hx.err hrun
      | trap t => exact absurd rfl (hr t)
    have hset : ∀ w₂ i state, Held w.globals own stranded w₂ →
        Held w.globals own stranded (w₂.setState i state) :=
      fun _ i state h => held_setState h i state
    have hcalled : ∀ w₂ frames invoked, Held w.globals own stranded w₂ →
        Held w.globals own stranded { w₂ with frames := frames, invoked := invoked } :=
      fun _ _ _ h => h.congr rfl rfl rfl
    cases call with
    | registerL0 env name entry => exact held_registerL0 hstart (Option.some.inj hplay)
    | loadL1 env name path => exact hmeets (held_loadL1 hstart) (Option.some.inj hplay)
    | loadL2 env name bytecode => exact hmeets (held_addSkill hstart) (Option.some.inj hplay)
    | execute name => exact execute_keeps hset hcalled hstart hplay
    | finish => exact finish_keeps hset hcalled hstart hplay
    | pause name => exact pause_keeps hset hstart hplay
    | unload name => exact unload_keeps (fun skill => held_removed hstart) hstart hplay
    | others globals => exact absurd rfl (hcall globals)
  cases r with
  | ok u =>
    cases hresume
    exact hheld nofun
  | err e =>
    cases hresume
    exact hheld nofun
  | trap t => cases hresume

end Calls
end LingNet.Skill
