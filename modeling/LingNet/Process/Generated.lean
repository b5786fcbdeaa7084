import LingNet.Generator.Ledger
import LingNet.Gqap.Clients
import LingNet.Zig.Triple

/-! The generator of skills as a client of the pools. -/
namespace LingNet.Generator
open Zig Gqap

def records (w : World) : List Arena := w.generated.filterMap fun skill => w.arenas skill.arena

def takes (w : World) : Bool := !w.allocator.fails w.allocator.requests && delivers w.globals

/-- The blocks that a call leaves without a skill: a generate that takes a block and fails leaves
one. -/
def strands (w : World) : SkillGenerator.Call → ℕ
  | .generate wyhash room template =>
    if takes w ∧ ¬ ((SkillGenerator.generate wyhash room template).result w).isOkAnd fun _ => true
    then 1 else 0
  | _ => 0

/-- The arenas are untrusted, they hold the blocks that the generator holds, and those of the skills
are among them, all but `stranded`. The objects of the skills were handed out, and each has its
arena. -/
structure Owns (w : World) (skills : List GeneratedSkill) (stranded : ℕ) (own : Multiset Handle) :
    Prop where
  tier : ∀ h ∈ own, h.arena.tier = .untrusted
  blocks : own.map (·.arena.block) = w.held
  listed : (skills.filterMap fun skill => w.arenas skill.arena : List Arena) ≤ own.map Handle.arena
  regions : ∀ skill ∈ skills, skill.arena < w.allocator.requests
  filled : ∀ skill ∈ skills, (w.arenas skill.arena).isSome
  count : own.card = skills.length + stranded

def Held (s : Globals) (own : Multiset Handle) (skills : List GeneratedSkill) (stranded : ℕ)
    (w : World) : Prop :=
  ∃ own', Plays s own w.globals own' ∧ Owns w skills stranded own'

section Calls

variable {s : Globals} {own : Multiset Handle} {skills : List GeneratedSkill} {stranded : ℕ}
  {w w' : World}
  {ε : Type} {invalidFree : Option Fault}

theorem Owns.length_records (h : Owns w w.generated stranded own) :
    (records w).length = w.generated.length :=
  List.filterMap_length_eq_length.mpr h.filled

theorem Held.congr (h : Held s own skills stranded w) (hglobals : w'.globals = w.globals)
    (harenas : w'.arenas = w.arenas) (hheld : w'.held = w.held)
    (hrequests : w.allocator.requests ≤ w'.allocator.requests) : Held s own skills stranded w' := by
  obtain ⟨own', hplays, howns⟩ := h
  refine ⟨own', hglobals ▸ hplays, howns.tier, ?_, ?_, ?_, ?_, howns.count⟩
  · rw [hheld]
    exact howns.blocks
  · rw [harenas]
    exact howns.listed
  · exact fun skill hskill => (howns.regions skill hskill).trans_le hrequests
  · rw [harenas]
    exact howns.filled

/-- The listed skills may be others, in another order and with some of them gone, whose arenas are
stranded then. -/
theorem Held.sublist {skills' : List GeneratedSkill} {stranded' : ℕ}
    (h : Held s own skills stranded w) (hsub : skills'.Subperm skills)
    (hcount : skills.length + stranded = skills'.length + stranded') :
    Held s own skills' stranded' w := by
  obtain ⟨own', hplays, howns⟩ := h
  refine ⟨own', hplays, howns.tier, howns.blocks, ?_, ?_, ?_, howns.count.trans hcount⟩
  · have hle := Multiset.filterMap_le_filterMap (fun skill : GeneratedSkill => w.arenas skill.arena)
      (Multiset.coe_le.mpr hsub)
    exact le_trans hle howns.listed
  · exact fun skill hskill => howns.regions skill (hsub.subset hskill)
  · exact fun skill hskill => howns.filled skill (hsub.subset hskill)

theorem held_free (h : Held s own skills stranded w) (sl : Slice) :
    (free invalidFree sl : Proc World ε Unit).Meets (fun _ => Held s own skills stranded)
      (Held s own skills stranded) w := by
  unfold free
  split_ifs with hbytes
  · exact Proc.meets_pure h
  cases sl.region with
  | some r => exact Proc.meets_modify (h.congr rfl rfl rfl le_rfl)
  | none =>
    cases invalidFree with
    | none => exact h.congr rfl rfl rfl le_rfl
    | some fault => exact trivial

theorem held_deinit {skill : GeneratedSkill} (h : Held s own (skill :: skills) stranded w) :
    (skill.deinit invalidFree : Proc World ε Unit).Meets (fun _ => Held s own skills stranded)
      (Held s own skills stranded) w := by
  have hended : Held s own skills stranded (deinitArena skill.arena w) := by
    obtain ⟨own', hplays, howns⟩ := h
    have hlisted := howns.listed
    have hregions : ∀ skill ∈ skills, skill.arena < w.allocator.requests :=
      fun other hother => howns.regions other (List.mem_cons_of_mem skill hother)
    have hfilled : ∀ skill ∈ skills, (w.arenas skill.arena).isSome :=
      fun other hother => howns.filled other (List.mem_cons_of_mem skill hother)
    obtain ⟨a, harena⟩ := Option.isSome_iff_exists.mp (howns.filled skill List.mem_cons_self)
    unfold deinitArena
    rw [List.filterMap_cons, harena] at hlisted
    rw [harena]
    dsimp only at hlisted
    rw [← Multiset.cons_coe] at hlisted
    have hmem : a ∈ own'.map Handle.arena :=
      Multiset.mem_of_le hlisted (Multiset.mem_cons_self a _)
    obtain ⟨handle, hhandle, rfl⟩ := Multiset.mem_map.mp hmem
    obtain ⟨others, rfl⟩ := Multiset.exists_cons_of_mem hhandle
    have hended : Acts w.globals (handle ::ₘ others) _ others := acts_deinit handle
    refine ⟨others, hplays.trans hended.plays, ?_, ?_, ?_, hregions, hfilled, ?_⟩
    · exact fun h hh => howns.tier h (Multiset.mem_cons_of_mem hh)
    · rw [← Multiset.coe_erase, ← howns.blocks, Multiset.map_cons, Multiset.erase_cons_head]
    · rw [Multiset.map_cons] at hlisted
      exact (Multiset.cons_le_cons_iff handle.arena).mp hlisted
    · have hcount := howns.count
      rw [Multiset.card_cons, List.length_cons] at hcount
      omega
  unfold GeneratedSkill.deinit
  refine Proc.Meets.bind (Q := fun _ => Held s own skills stranded) hended fun _ w₁ h₁ => ?_
  exact (held_free h₁ skill.bytecode).bind fun _ w₂ h₂ => held_free h₂ skill.name

namespace SkillGenerator

def Keeps (s : Globals) (own : Multiset Handle) (skills : List GeneratedSkill) (stranded : ℕ)
    (w : World) : Prop :=
  Held s own skills stranded w ∧ w.generated = skills

/-- There is an arena for a skill with this object, whatever else the skill will be. -/
def KeepsNew (s : Globals) (own : Multiset Handle) (skills : List GeneratedSkill) (stranded : ℕ)
    (arena : Region) (w : World) : Prop :=
  (∀ skill, skill.arena = arena → Held s own (skill :: skills) stranded w) ∧ w.generated = skills

theorem KeepsNew.keeps {arena : Region} (h : KeepsNew s own skills stranded arena w) :
    Keeps s own skills (stranded + 1) w := by
  have hheld := h.1 ⟨⟨[], none, fun _ => rfl⟩, stub, .replicate 32 0, 0, arena⟩ rfl
  refine ⟨hheld.sublist (List.sublist_cons_self _ skills).subperm ?_, h.2⟩
  rw [List.length_cons]
  omega

theorem KeepsNew.congr {arena : Region} (h : KeepsNew s own skills stranded arena w)
    (hglobals : w'.globals = w.globals) (harenas : w'.arenas = w.arenas) (hheld : w'.held = w.held)
    (hrequests : w.allocator.requests ≤ w'.allocator.requests)
    (hgenerated : w'.generated = w.generated) : KeepsNew s own skills stranded arena w' :=
  ⟨fun skill hskill => (h.1 skill hskill).congr hglobals harenas hheld hrequests,
    hgenerated.trans h.2⟩

theorem keepsNew_request {arena : Region} (h : KeepsNew s own skills stranded arena w) :
    request.Meets (fun _ => KeepsNew s own skills stranded arena)
      (KeepsNew s own skills stranded arena) w := by
  cases hfails : w.allocator.fails w.allocator.requests with
  | true =>
    exact Proc.meets_of_err (request_of_fails hfails) (h.congr rfl rfl rfl (Nat.le_succ _) rfl)
  | false =>
    exact Proc.meets_of_ok (request_of_serves hfails) (h.congr rfl rfl rfl (Nat.le_succ _) rfl)

theorem keepsNew_initArena {arena : Region} {a : Arena} {globals : Globals}
    (h : Keeps s own skills stranded w) (hlt : arena < w.allocator.requests)
    (hnew : ∀ skill ∈ skills, skill.arena < arena)
    (hinit : Arena.init .untrusted w.globals = .ok (a, globals)) :
    KeepsNew s own skills stranded arena { w with
      globals := globals
      arenas := Function.update w.arenas arena (some a)
      held := a.block :: w.held } := by
  obtain ⟨⟨own', hplays, howns⟩, hgenerated⟩ := h
  have htier : a.tier = .untrusted := Arena.tier_of_init hinit
  have hother : ∀ other ∈ skills, Function.update w.arenas arena (some a) other.arena =
      w.arenas other.arena := fun other hother => Function.update_of_ne (hnew other hother).ne _ _
  refine ⟨fun skill hskill => ⟨⟨a, []⟩ ::ₘ own', hplays.trans (acts_init hinit).plays,
    ?_, ?_, ?_, ?_, ?_, ?_⟩, hgenerated⟩
  · simpa [htier] using howns.tier
  · rw [Multiset.map_cons, howns.blocks]
    rfl
  · dsimp only
    rw [List.filterMap_cons, hskill, Function.update_self, List.filterMap_congr hother,
      Multiset.map_cons]
    exact Multiset.cons_le_cons a howns.listed
  · intro other hother
    rcases List.mem_cons.mp hother with rfl | hother
    · rw [hskill]
      exact hlt
    · exact howns.regions other hother
  · intro other hmem
    dsimp only
    rcases List.mem_cons.mp hmem with rfl | hmem
    · rw [hskill, Function.update_self]
      rfl
    · rw [hother other hmem]
      exact howns.filled other hmem
  · rw [Multiset.card_cons, List.length_cons, howns.count]
    omega

theorem keepsNew_dupe {arena : Region} (h : KeepsNew s own skills stranded arena w)
    (bytes : List UInt8) :
    (dupe bytes).Meets (fun _ => KeepsNew s own skills stranded arena)
      (KeepsNew s own skills stranded arena) w := by
  unfold dupe
  split_ifs
  · exact Proc.meets_pure h
  · exact (keepsNew_request h).bind fun _ w₁ h₁ => Proc.meets_pure h₁

theorem keepsNew_grow {arena : Region} (h : KeepsNew s own skills stranded arena w) (room : Bool) :
    (grow room).Meets (fun _ => KeepsNew s own skills stranded arena)
      (KeepsNew s own skills stranded arena) w := by
  unfold grow
  refine Proc.meets_get_bind ?_
  split_ifs
  · refine (keepsNew_request h).bind fun r w₁ h₁ => Proc.meets_modify ?_
    unfold freeBuffer
    cases w₁.buffer with
    | none => exact h₁.congr rfl rfl rfl le_rfl rfl
    | some old => exact h₁.congr rfl rfl rfl le_rfl rfl
  · exact Proc.meets_pure h

theorem held_generate {wyhash : UInt64 → List UInt8 → UInt64} {room : Bool}
    {template : SkillTemplate} (h : Keeps s own skills stranded w) :
    (generate wyhash room template).Meets (fun _ w' => Held s own w'.generated stranded w')
      (fun w' => Held s own w'.generated (stranded + if takes w then 1 else 0) w') w := by
  have hkept : ∀ n w', Keeps s own skills n w' → Held s own w'.generated n w' := by
    rintro n w' ⟨hheld, rfl⟩
    exact hheld
  have hregions : ∀ skill ∈ skills, skill.arena < w.allocator.requests := by
    obtain ⟨⟨own', -, howns⟩, -⟩ := h
    exact howns.regions
  unfold generate takes
  cases hfails : w.allocator.fails w.allocator.requests with
  | true =>
    refine Proc.meets_of_err (Proc.bind_of_err (request_of_fails hfails) _) (hkept _ _ ?_)
    exact ⟨h.1.congr rfl rfl rfl (Nat.le_succ _), h.2⟩
  | false =>
    have hserved : Keeps s own skills stranded { w with allocator := w.allocator.served } :=
      ⟨h.1.congr rfl rfl rfl (Nat.le_succ _), h.2⟩
    refine Proc.Meets.bind (Q := fun r w₁ => r = w.allocator.requests ∧
      w₁ = { w with allocator := w.allocator.served })
      (Proc.meets_of_ok (request_of_serves hfails) ⟨rfl, rfl⟩) ?_
    rintro _ _ ⟨rfl, rfl⟩
    rcases hinit : Arena.init .untrusted w.globals with ⟨a, globals⟩ | e | t
    · have hrun : initArena w.allocator.requests { w with allocator := w.allocator.served } =
          (.ok (), { w with
            allocator := w.allocator.served
            globals := globals
            arenas := Function.update w.arenas w.allocator.requests (some a)
            held := a.block :: w.held }) := by
        unfold initArena
        dsimp only
        rw [hinit]
      have hnew := keepsNew_initArena hserved (Nat.lt_succ_self _) hregions hinit
      rw [delivers_of_ok hinit]
      have hlost : ∀ arena w', KeepsNew s own skills stranded arena w' →
          Held s own w'.generated (stranded + 1) w' := fun _ w' h => hkept _ w' h.keeps
      refine Proc.Meets.bind (Q := fun _ => KeepsNew s own skills stranded w.allocator.requests)
        (Proc.meets_of_ok hrun hnew) fun _ w₂ h₂ => ?_
      refine Proc.Meets.bind (Q := fun _ => KeepsNew s own skills stranded w.allocator.requests)
        h₂ fun bytecode w₃ h₃ => ?_
      refine ((keepsNew_dupe h₃ template.name).mono (fun _ _ h => h) (hlost _)).bind
        fun name w₄ h₄ => ?_
      refine Proc.Meets.bind (Q := fun _ w' => Held s own w'.generated stranded w') ?_
        fun _ w₅ h₅ => Proc.meets_pure h₅
      refine ((keepsNew_grow h₄ room).mono (fun _ _ h => h) (hlost _)).bind fun _ w₅ h₅ => ?_
      refine Proc.meets_modify ?_
      have hlisted := h₅.1 ⟨name, bytecode, hashBytes (wyhash 0 bytecode.bytes), 0,
        w.allocator.requests⟩ rfl
      have hperm := List.perm_append_singleton
        (⟨name, bytecode, hashBytes (wyhash 0 bytecode.bytes), 0, w.allocator.requests⟩ :
          GeneratedSkill) skills
      rw [h₅.2]
      exact (hlisted.sublist hperm.subperm (by rw [hperm.length_eq])).congr rfl rfl rfl le_rfl
    · have hrun : initArena w.allocator.requests { w with allocator := w.allocator.served } =
          (.err (.ofArena e), { w with allocator := w.allocator.served }) := by
        unfold initArena
        dsimp only
        rw [hinit]
      rw [delivers_of_err hinit, Bool.and_false]
      exact Proc.meets_of_err (Proc.bind_of_err hrun _) (hkept _ _ hserved)
    · have hrun := initArena_of_trap (w := { w with allocator := w.allocator.served }) hinit
        w.allocator.requests
      exact Proc.meets_of_trap (Proc.bind_of_trap hrun _)

theorem held_remove {name : List UInt8} (h : Held s own w.generated stranded w) :
    (remove invalidFree name).Meets (fun _ w' => Held s own w'.generated stranded w')
      (fun w' => Held s own w'.generated stranded w') w := by
  unfold remove
  refine Proc.meets_get_bind ?_
  cases hfind : w.generated.find? (·.name.bytes = name) with
  | none => exact Proc.meets_fail h
  | some skill =>
    have hperm := Custody.perm_cons_eraseP hfind
    have hfound : Held s own (skill :: w.generated.eraseP (·.name.bytes = name)) stranded w :=
      h.sublist hperm.symm.subperm (by rw [hperm.length_eq])
    have hmeets : (skill.deinit invalidFree : Proc World RemoveError Unit).Meets _ _ w :=
      held_deinit hfound
    rcases returns_deinit skill w with ⟨w₁, hrun, hback⟩ | ⟨-, t, w₁, hrun⟩
    · refine Proc.meets_of_ok (Proc.bind_of_ok hrun _) ?_
      have hended := hmeets.ok hrun
      rw [← hback.generated] at hended
      exact hended.congr rfl rfl rfl le_rfl
    · exact Proc.meets_of_trap (Proc.bind_of_trap hrun _)

/-- What a call does to the pools, it does with arenas of the generator. -/
theorem plays_of_step {call : Call} (h : Owns w w.generated stranded own)
    (hcall : ∀ globals, call ≠ .elsewhere globals) (hstep : step w call = some w') :
    ∃ own', Plays w.globals own w'.globals own' ∧
      Owns w' w'.generated (stranded + strands w call) own' := by
  have hstart : Held w.globals own w.generated stranded w := ⟨own, .rest _ _, h⟩
  obtain ⟨hstops, hplay⟩ := step_eq_some.mp hstep
  cases call with
  | generate wyhash room template =>
    have hmeets : (generate wyhash room template).Meets _ _ w := held_generate ⟨hstart, rfl⟩
    rw [play_generate] at hstops hplay
    unfold strands Proc.result
    dsimp only
    rcases hrun : generate wyhash room template w with ⟨skill | e | t, w₁⟩
    · rw [hrun] at hplay
      rw [if_neg fun hlost => hlost.2 rfl]
      exact hplay ▸ hmeets.ok hrun
    · rw [hrun] at hplay
      have hlost := hmeets.err hrun
      simpa only [Outcome.isOkAnd, Bool.false_eq_true, not_false_eq_true, and_true] using
        hplay ▸ hlost
    · rw [hrun] at hstops
      cases hstops
  | remove invalidFree name =>
    have hmeets : (remove invalidFree name).Meets _ _ w := held_remove hstart
    rcases hrun : remove invalidFree name w with ⟨u | e | t, w₁⟩
    · have hfinal : (play w (.remove invalidFree name)).2 = w₁ := congrArg Prod.snd hrun
      exact (hfinal.symm.trans hplay) ▸ hmeets.ok hrun
    · have hfinal : (play w (.remove invalidFree name)).2 = w₁ := congrArg Prod.snd hrun
      exact (hfinal.symm.trans hplay) ▸ hmeets.err hrun
    · have hstopped : (play w (.remove invalidFree name)).1 = true := by
        unfold play
        dsimp only
        rw [hrun]
        rfl
      rw [hstopped] at hstops
      cases hstops
  | elsewhere globals => exact absurd rfl (hcall globals)

end SkillGenerator
end Calls
end LingNet.Generator
