import LingNet.Lib.Amortized
import LingNet.Process.Generated
import LingNet.Process.L2Skills
import LingNet.Process.Skills
import LingNet.Process.Vrfs

/-! A process that uses the orchestrator, both loaders and the generator over one set of pools, with
arenas of its own besides. Every module reaches the pools through the same globals, which
`initPools` sets up once. -/
namespace LingNet
open Gqap

structure Process where
  globals : Globals
  orchestrator : Orchestrator.World
  l2 : L2.World
  skills : Skill.World
  generator : Generator.World
  own : List Handle

namespace Process

def boot (s : Globals) (trustedKey : L2.PublicKey) (fails : ℕ → Bool) : Process where
  globals := s
  orchestrator := .init s
  l2 := ⟨s, [], [], [], { skills := [], trustedKey }⟩
  skills := { globals := s }
  generator := Generator.SkillGenerator.init s fails
  own := []

/-- A call of a module, the end of the orchestrator, or an action on the pools themselves, as by the
sanitizer thread. -/
inductive Call where
  | orchestrator (call : Orchestrator.Call)
  | endVrfs
  | l2 (call : L2.Call)
  | skills (call : Skill.Call)
  | generator (call : Generator.SkillGenerator.Call)
  | pools (op : Op)

/-- What the rest of the process does to the pools, as the model of one module has it. -/
def Call.isOutside : Call → Bool
  | .orchestrator (.pools _) | .skills (.others _) | .generator (.elsewhere _) => true
  | _ => false

def play (p : Process) : Call → Option Process
  | .orchestrator call =>
    (Orchestrator.World.step { p.orchestrator with globals := p.globals } call).map fun w =>
      { p with globals := w.globals, orchestrator := w }
  | .endVrfs =>
    let w := Orchestrator.deinit { p.orchestrator with globals := p.globals }
    some { p with globals := w.globals, orchestrator := w }
  | .l2 call => (L2.step { p.l2 with globals := p.globals } call).map fun w =>
      { p with globals := w.globals, l2 := w }
  | .skills call => (Skill.step { p.skills with globals := p.globals } call).map fun w =>
      { p with globals := w.globals, skills := w }
  | .generator call =>
    (Generator.SkillGenerator.step { p.generator with globals := p.globals } call).map
      fun w => { p with globals := w.globals, generator := w }
  | .pools op => (Gqap.step ⟨p.globals, p.own⟩ op).map fun σ =>
      { p with globals := σ.globals, own := σ.live }

def step (p : Process) (call : Call) : Option Process :=
  if call.isOutside then none else play p call

inductive Client where
  | orchestrator
  | l2
  | skills
  | generator
  | own
  deriving DecidableEq

instance : Fintype Client where
  elems := {.orchestrator, .l2, .skills, .generator, .own}
  complete k := by cases k <;> decide

def Call.client : Call → Client
  | .orchestrator _ | .endVrfs => .orchestrator
  | .l2 _ => .l2
  | .skills _ => .skills
  | .generator _ => .generator
  | .pools _ => .own

/-- The blocks that the records of a client refer to: its VRFs, its loaded, registered or generated
skills, the live arenas of the process itself. -/
def records (p : Process) : Client → Multiset BlockId
  | .orchestrator => (p.orchestrator.vrfs.map fun vrf => vrf.arena.block : List BlockId)
  | .l2 => ((L2.records p.l2).map fun a => a.block : List BlockId)
  | .skills => ((Skill.arenas p.skills).map fun a => a.block : List BlockId)
  | .generator => ((Generator.records p.generator).map fun a => a.block : List BlockId)
  | .own => (p.own.map fun h => h.arena.block : List BlockId)

/-- The blocks that a client has taken and not given back, with those that its failing loads have
lost, but for the ones that the orchestrator has. -/
def blocks (p : Process) : Client → Multiset BlockId
  | .orchestrator => (p.orchestrator.vrfs.map fun vrf => vrf.arena.block : List BlockId)
  | .l2 => ((p.l2.arenas.filterMap id).map fun a => a.block : List BlockId)
  | .skills => p.skills.ledger.blocks
  | .generator => p.generator.held
  | .own => (p.own.map fun h => h.arena.block : List BlockId)

/-- The blocks that a call leaves without a record of a client: one if it takes a block and fails,
and one if it unloads an `L2` skill. -/
def strands : Client → Process → Call → ℕ
  | .orchestrator, p, .orchestrator call =>
    Orchestrator.strands { p.orchestrator with globals := p.globals } call
  | .l2, p, .l2 call => L2.strands { p.l2 with globals := p.globals } call
  | .skills, p, .skills call => Skill.strands { p.skills with globals := p.globals } call
  | .generator, p, .generator call =>
    Generator.strands { p.generator with globals := p.globals } call
  | _, _, _ => 0

/-- The arenas of each client: those of its records, and so many that are stranded. -/
structure Holds (p : Process) (stranded : Client → ℕ) (arenas : Client → Multiset Handle) :
    Prop where
  orchestrator : Orchestrator.Owns p.orchestrator (stranded .orchestrator) (arenas .orchestrator)
  l2 : L2.Owns p.l2 (stranded .l2) (arenas .l2)
  skills : Skill.Owns p.skills (stranded .skills) (arenas .skills)
  generator : Generator.Owns p.generator p.generator.generated (stranded .generator)
    (arenas .generator)
  own : arenas .own = p.own
  none_own : stranded .own = 0

section Steps

variable {p p' : Process} {stranded : Client → ℕ} {arenas : Client → Multiset Handle} {call : Call}

theorem plays_of_step (h : Holds p stranded arenas) (hstep : step p call = some p') :
    ∃ own', Plays p.globals (arenas call.client) p'.globals own' ∧
      Holds p' (fun k => stranded k + strands k p call)
        (Function.update arenas call.client own') := by
  unfold step at hstep
  split_ifs at hstep with hinside
  cases call with
  | orchestrator call =>
    have hcall : ∀ globals, call ≠ .pools globals := by
      rintro globals rfl
      exact hinside rfl
    obtain ⟨w, hw, rfl⟩ := Option.map_eq_some_iff.mp hstep
    have howns : Orchestrator.Owns { p.orchestrator with globals := p.globals }
        (stranded .orchestrator) (arenas .orchestrator) :=
      ⟨h.orchestrator.tier, h.orchestrator.listed, h.orchestrator.count⟩
    obtain ⟨own', hplays, howns'⟩ := Orchestrator.plays_of_step howns hcall hw
    exact ⟨own', hplays, howns', h.l2, h.skills, h.generator, h.own, h.none_own⟩
  | endVrfs =>
    cases hstep
    have howns : Orchestrator.Owns { p.orchestrator with globals := p.globals }
        (stranded .orchestrator) (arenas .orchestrator) :=
      ⟨h.orchestrator.tier, h.orchestrator.listed, h.orchestrator.count⟩
    obtain ⟨own', hplays, howns'⟩ := Orchestrator.plays_deinit howns
    exact ⟨own', hplays, howns', h.l2, h.skills, h.generator, h.own, h.none_own⟩
  | l2 call =>
    obtain ⟨w, hw, rfl⟩ := Option.map_eq_some_iff.mp hstep
    have howns : L2.Owns { p.l2 with globals := p.globals } (stranded .l2) (arenas .l2) :=
      h.l2.congr rfl rfl
    obtain ⟨own', hplays, howns'⟩ := L2.plays_of_step howns hw
    exact ⟨own', hplays, h.orchestrator, howns', h.skills, h.generator, h.own, h.none_own⟩
  | skills call =>
    have hcall : ∀ globals, call ≠ .others globals := by
      rintro globals rfl
      exact hinside rfl
    obtain ⟨w, hw, rfl⟩ := Option.map_eq_some_iff.mp hstep
    have howns : Skill.Owns { p.skills with globals := p.globals } (stranded .skills)
        (arenas .skills) := ⟨h.skills.tier, h.skills.blocks, h.skills.listed, h.skills.count⟩
    obtain ⟨own', hplays, howns'⟩ := Skill.plays_of_step howns hcall hw
    exact ⟨own', hplays, h.orchestrator, h.l2, howns', h.generator, h.own, h.none_own⟩
  | generator call =>
    have hcall : ∀ globals, call ≠ .elsewhere globals := by
      rintro globals rfl
      exact hinside rfl
    obtain ⟨w, hw, rfl⟩ := Option.map_eq_some_iff.mp hstep
    have howns : Generator.Owns { p.generator with globals := p.globals } p.generator.generated
        (stranded .generator) (arenas .generator) :=
      ⟨h.generator.tier, h.generator.blocks, h.generator.listed, h.generator.regions,
        h.generator.filled, h.generator.count⟩
    obtain ⟨own', hplays, howns'⟩ :=
      Generator.SkillGenerator.plays_of_step (by exact howns) hcall hw
    exact ⟨own', hplays, h.orchestrator, h.l2, h.skills, howns', h.own, h.none_own⟩
  | pools op =>
    obtain ⟨σ, hσ, rfl⟩ := Option.map_eq_some_iff.mp hstep
    have hacts : Acts p.globals (arenas .own) σ.globals σ.live := h.own ▸ acts_of_step hσ
    exact ⟨σ.live, hacts.plays, h.orchestrator, h.l2, h.skills, h.generator, rfl, h.none_own⟩

/-- The arenas of all clients are the live arenas of one state of the pools in which `I` holds. -/
def Shares (I : System → Prop) (p : Process) (stranded : Client → ℕ)
    (arenas : Client → Multiset Handle) : Prop :=
  ∃ σ, I σ ∧ σ.globals = p.globals ∧ (σ.live : Multiset Handle) = ∑ k, arenas k ∧
    Holds p stranded arenas

/-- What the pools keep in every step, a process keeps in every call. -/
theorem shares_step {I : System → Prop} (hI : ∀ σ op σ', Gqap.step σ op = some σ' → I σ → I σ')
    (h : Shares I p stranded arenas) (hstep : step p call = some p') :
    ∃ own', Shares I p' (fun k => stranded k + strands k p call)
      (Function.update arenas call.client own') := by
  obtain ⟨σ, hσ, hglobals, hlive, hholds⟩ := h
  obtain ⟨own', hplays, hholds'⟩ := plays_of_step hholds hstep
  have hsplit : ∑ k, arenas k =
      arenas call.client + ∑ k ∈ Finset.univ.erase call.client, arenas k :=
    (Finset.add_sum_erase _ _ (Finset.mem_univ _)).symm
  rw [hsplit] at hlive
  obtain ⟨σ', hσ', hglobals', hlive'⟩ :=
    hplays.keeps (fun σ op σ' _ _ hstep => hI σ op σ' hstep) hglobals hlive hσ
  refine ⟨own', σ', hσ', hglobals', ?_, hholds'⟩
  rw [hlive', ← Finset.add_sum_erase _ _ (Finset.mem_univ call.client), Function.update_self]
  refine congrArg (own' + ·) (Finset.sum_congr rfl fun k hk => ?_)
  exact (Function.update_of_ne (Finset.ne_of_mem_erase hk) _ _).symm

theorem shares_run {I : System → Prop} (hI : ∀ σ op σ', Gqap.step σ op = some σ' → I σ → I σ')
    {calls : List Call} (h : Shares I p stranded arenas) (hr : Run.run step p calls = some p') :
    ∃ arenas', Shares I p' (fun k => stranded k + Run.total step (strands k) p calls) arenas' := by
  induction calls generalizing p stranded arenas with
  | nil =>
    cases hr
    exact ⟨arenas, h⟩
  | cons call calls ih =>
    obtain ⟨p₁, hstep, hrest⟩ := Run.run_cons_eq_some.mp hr
    obtain ⟨own', h₁⟩ := shares_step hI h hstep
    obtain ⟨arenas', h'⟩ := ih h₁ hrest
    refine ⟨arenas', ?_⟩
    have htotal : ∀ k, stranded k + Run.total step (strands k) p (call :: calls) =
        stranded k + strands k p call + Run.total step (strands k) p₁ calls := by
      intro k
      rw [Run.total_cons_of_step hstep, Nat.add_assoc]
    simp only [htotal]
    exact h'

theorem wf_step {backing blockCount blockSize : ℕ} (σ : System) (op : Op) (σ' : System)
    (hstep : Gqap.step σ op = some σ') (h : ∃ c, Wf backing blockCount blockSize σ c) :
    ∃ c, Wf backing blockCount blockSize σ' c := by
  obtain ⟨c, w⟩ := h
  obtain ⟨c', -, w'⟩ := w.step hstep
  exact ⟨c', w'⟩

theorem shares_of_run {mapping : Option ℕ} {table : Bool} {blockCount blockSize : ℕ} {s : Globals}
    (hs : initPools mapping table blockCount blockSize = .ok s) {trustedKey : L2.PublicKey}
    {fails : ℕ → Bool} {calls : List Call}
    (hr : Run.run step (boot s trustedKey fails) calls = some p) :
    ∃ backing arenas, Shares (fun σ => ∃ c, Wf backing blockCount blockSize σ c) p
      (fun k => Run.total step (strands k) (boot s trustedKey fails) calls) arenas := by
  obtain ⟨backing, w⟩ := booted_wf hs
  have hnone : ∀ {P : Handle → Prop}, ∀ h ∈ (0 : Multiset Handle), P h :=
    fun h hmem => absurd hmem (Multiset.notMem_zero h)
  have hempty : ∀ {α : Type} {P : α → Prop}, ∀ a ∈ ([] : List α), P a :=
    fun a hmem => absurd hmem List.not_mem_nil
  have hbooted : Holds (boot s trustedKey fails) (fun _ => 0) fun _ => 0 := by
    refine ⟨⟨hnone, le_rfl, rfl⟩, ⟨rfl, hnone, hempty, List.nodup_nil, hempty, rfl⟩,
      ⟨hnone, rfl, le_rfl, rfl⟩, ⟨hnone, rfl, le_rfl, hempty, hempty, rfl⟩, rfl, rfl⟩
  have hshares : Shares (fun σ => ∃ c, Wf backing blockCount blockSize σ c)
      (boot s trustedKey fails) (fun _ => 0) fun _ => 0 := by
    refine ⟨booted s, ⟨_, w⟩, rfl, ?_, hbooted⟩
    simp [booted]
  obtain ⟨arenas, h⟩ := shares_run wf_step hshares hr
  simp only [Nat.zero_add] at h
  exact ⟨backing, arenas, h⟩

end Steps
end Process
end LingNet
