import LingNet.Gqap.Conservation
import LingNet.Gqap.Machine

/-! Ownership under concurrency. While no exchange and no store of `popSafe` acts on a stale
successor, each atomic step leaves the lists well linked and every block with one owner. -/
namespace LingNet.Gqap.Machine
open Function

abbrev Owners := Custody.State PoolId ThreadId BlockId

/-- What a thread may rely on at a point of its program: it holds the block it works on, and
the block it is about to link still points at the head it loaded. -/
def Owns (k : Chain.Links PoolId BlockId) (held : List (ThreadId × BlockId)) (t : ThreadId) :
    Pc → Prop
  | .deinitGen b | .retire b _ | .pushLoad _ b | .pushStore _ b _ => (t, b) ∈ held
  | .pushExchange _ b head => (t, b) ∈ held ∧ k.next b = head
  | .popLoad p _ | .popNext p _ _ | .popExchange p _ _ _ => p ≠ .quarantine
  | _ => True

theorem Owns.mono {k k' : Chain.Links PoolId BlockId} {held held' : List (ThreadId × BlockId)}
    {t : ThreadId} {pc : Pc} (h : Owns k held t pc)
    (hkeep : ∀ b, (t, b) ∈ held → (t, b) ∈ held' ∧ k'.next b = k.next b) :
    Owns k' held' t pc := by
  cases pc with
  | deinitGen b | retire b gen | pushLoad p b | pushStore p b head => exact (hkeep b h).1
  | pushExchange p b head =>
    obtain ⟨hmem, hnext⟩ := hkeep b h.1
    exact ⟨hmem, hnext.trans h.2⟩
  | _ => exact h

/-- What one step does to the lists, the owners and the counts. -/
inductive Change (σ : Machine) (t : ThreadId) : Machine → Prop where
  | quiet {σ' : Machine} (hlinks : σ'.links = σ.links) (hheld : σ'.held = σ.held)
      (hpushed : σ'.pushed = σ.pushed) (hreturned : σ'.returned = σ.returned)
      (hpc : ∀ u, u ≠ t → σ'.pc u = σ.pc u) (howns : Owns σ.links σ.held t (σ'.pc t)) :
      Change σ t σ'
  | pop {p : PoolId} {head : BlockId} {next : Option BlockId} (hp : p ≠ .quarantine)
      (hhead : σ.links.head p = some head)
      (hfresh : ∀ b, next = some b → Chain.Reaches σ.links.next (σ.links.next head) b) :
      Change σ t ({ σ with
        links := σ.links.setHead p next
        held := (t, head) :: σ.held }.goto t .idle)
  | store {p : PoolId} {b : BlockId} {head : Option BlockId} (hmem : (t, b) ∈ σ.held) :
      Change σ t ({ σ with links := σ.links.setNext b head }.goto t (.pushExchange p b head))
  | push {p : PoolId} {b : BlockId} (hmem : (t, b) ∈ σ.held)
      (hnext : σ.links.next b = σ.links.head p) :
      Change σ t ({ σ with
        links := σ.links.setHead p (some b)
        held := σ.held.erase (t, b)
        pushed := if p = PoolId.quarantine then update σ.pushed b (σ.pushed b + 1)
          else σ.pushed }.goto t .idle)
  | release {head : BlockId} {pc : Pc} (hhead : σ.links.head .quarantine = some head)
      (hpc : pc = .idle ∨ pc = .pushLoad .l2 head) :
      Change σ t ({ σ with
        links := σ.links.setHead .quarantine (σ.links.next head)
        held := (t, head) :: σ.held
        returned := update σ.returned head (σ.returned head + 1) }.goto t pc)

theorem change_goto {σ : Machine} {t : ThreadId} {pc : Pc} (h : Owns σ.links σ.held t pc) :
    Change σ t (σ.goto t pc) :=
  .quiet rfl rfl rfl rfl (fun _ hu => pc_goto_of_ne σ hu pc) (by rw [pc_goto_self]; exact h)

private theorem common_ne_quarantine : PoolId.common ≠ .quarantine := by decide

private theorem l2_ne_quarantine : PoolId.l2 ≠ .quarantine := by decide

theorem change_of_start {σ σ' : Machine} {t : ThreadId} {task : Task}
    (howns : Owns σ.links σ.held t (σ.pc t)) (h : σ.start t task = some σ') : Change σ t σ' := by
  unfold start at h
  split_ifs at h with hidle
  have hpush : ∀ {b : BlockId} {pc : Pc}, (pc = .deinitGen b ∨ ∃ p, pc = .pushLoad p b) →
      (if (t, b) ∈ σ.held then some (σ.goto t pc) else none) = some σ' → Change σ t σ' := by
    intro b pc hpc h
    split_ifs at h with hmem
    cases h
    apply change_goto
    rcases hpc with rfl | ⟨p, rfl⟩ <;> exact hmem
  cases task with
  | commonPush b | l2Push b => exact hpush (.inr ⟨_, rfl⟩) h
  | deinit b => exact hpush (.inl rfl) h
  | incrementGeneration =>
    cases h
    exact .quiet rfl rfl rfl rfl (fun _ _ => rfl) howns
  | commonPop =>
    cases h
    exact change_goto common_ne_quarantine
  | l2Pop =>
    cases h
    exact change_goto l2_ne_quarantine
  | init | sanitizeOne =>
    cases h
    exact change_goto trivial

section Advance

variable {σ σ' : Machine} {t : ThreadId}

/-- A step that only moves the thread on. -/
theorem change_of_goto {pc : Pc} (hgoto : σ.advance t = some (σ.goto t pc))
    (howns : Owns σ.links σ.held t pc) (h : σ.advance t = some σ') : Change σ t σ' := by
  cases hgoto.symm.trans h
  exact change_goto howns

theorem change_of_popLoad {p : PoolId} {init : Option ℕ} (hpc : σ.pc t = .popLoad p init)
    (hp : p ≠ .quarantine) (h : σ.advance t = some σ') : Change σ t σ' := by
  cases hhead : σ.links.head p with
  | none =>
    have hgoto : σ.advance t = some (σ.goto t (afterEmpty p init)) := by
      simp [advance, hpc, hhead]
    apply change_of_goto hgoto _ h
    cases init with
    | none => trivial
    | some gen =>
      unfold afterEmpty
      split_ifs
      · exact common_ne_quarantine
      · trivial
  | some head =>
    have hgoto : σ.advance t = some (σ.goto t (.popNext p init head)) := by
      simp [advance, hpc, hhead]
    exact change_of_goto hgoto hp h

theorem change_of_popExchange {p : PoolId} {init : Option ℕ} {head : BlockId}
    {next : Option BlockId} (hpc : σ.pc t = .popExchange p init head next) (hp : p ≠ .quarantine)
    (hfresh : σ.links.head p = some head →
      ∀ b, next = some b → Chain.Reaches σ.links.next (σ.links.next head) b)
    (h : σ.advance t = some σ') : Change σ t σ' := by
  by_cases hhead : σ.links.head p = some head
  · simp only [advance, hpc, if_pos hhead] at h
    cases h
    exact .pop hp hhead (hfresh hhead)
  · have hgoto : σ.advance t = some (σ.goto t (.popLoad p init)) := by
      simp [advance, hpc, hhead]
    exact change_of_goto hgoto hp h

theorem change_of_pushExchange {p : PoolId} {b : BlockId} {head : Option BlockId}
    (hpc : σ.pc t = .pushExchange p b head) (hmem : (t, b) ∈ σ.held)
    (hnext : σ.links.next b = head) (h : σ.advance t = some σ') : Change σ t σ' := by
  by_cases hhead : σ.links.head p = head
  · simp only [advance, hpc, if_pos hhead] at h
    cases h
    exact .push hmem (hnext.trans hhead.symm)
  · have hgoto : σ.advance t = some (σ.goto t (.pushLoad p b)) := by
      simp [advance, hpc, hhead]
    exact change_of_goto hgoto hmem h

theorem change_of_safeLoad {sanitizing : Bool} {gen : ℕ} (hpc : σ.pc t = .safeLoad sanitizing gen)
    (h : σ.advance t = some σ') : Change σ t σ' := by
  cases hhead : σ.links.head .quarantine with
  | none =>
    have hgoto : σ.advance t = some (σ.goto t .idle) := by simp [advance, hpc, hhead]
    exact change_of_goto hgoto trivial h
  | some head =>
    have hgoto : σ.advance t = some (σ.goto t (.safeCheck sanitizing gen head)) := by
      simp [advance, hpc, hhead]
    exact change_of_goto hgoto trivial h

theorem change_of_safeCheck {sanitizing : Bool} {gen : ℕ} {head : BlockId}
    (hpc : σ.pc t = .safeCheck sanitizing gen head) (h : σ.advance t = some σ') :
    Change σ t σ' := by
  simp only [advance, hpc] at h
  cases hadd : (Zig.add (σ.retiredGen head) 1 : Zig.Outcome ArenaError ℕ) with
  | ok due =>
    simp only [hadd] at h
    cases h
    apply change_goto
    split_ifs <;> trivial
  | err e => simp [hadd] at h
  | trap f => simp [hadd] at h

theorem change_of_safeStore {sanitizing : Bool} {head : BlockId} {next : Option BlockId}
    (hpc : σ.pc t = .safeStore sanitizing head next)
    (hhead : σ.links.head .quarantine = some head) (hnext : σ.links.next head = next)
    (h : σ.advance t = some σ') : Change σ t σ' := by
  simp only [advance, hpc] at h
  subst hnext
  cases h
  refine .release hhead ?_
  cases sanitizing
  · exact .inl rfl
  · exact .inr rfl

theorem change_of_advance (howns : Owns σ.links σ.held t (σ.pc t)) (hfresh : Fresh σ (.advance t))
    (h : σ.advance t = some σ') : Change σ t σ' := by
  unfold Fresh at hfresh
  cases hpc : σ.pc t with
  | idle => simp [advance, hpc] at h
  | initGen =>
    simp only [advance, hpc] at h
    cases h
    exact change_goto l2_ne_quarantine
  | deinitGen b =>
    rw [hpc] at howns
    simp only [advance, hpc] at h
    cases h
    exact change_goto howns
  | popLoad p init =>
    rw [hpc] at howns
    exact change_of_popLoad hpc howns h
  | popExchange p init head next =>
    rw [hpc] at howns
    simp only [hpc] at hfresh
    exact change_of_popExchange hpc howns hfresh h
  | retire b gen =>
    rw [hpc] at howns
    simp only [advance, hpc] at h
    cases h
    refine .quiet rfl rfl rfl rfl (fun u hu => pc_goto_of_ne _ hu _) ?_
    rw [pc_goto_self]
    exact howns
  | popNext p init head | pushLoad p b =>
    rw [hpc] at howns
    simp only [advance, hpc] at h
    cases h
    exact change_goto howns
  | pushStore p b head =>
    rw [hpc] at howns
    simp only [advance, hpc] at h
    cases h
    exact .store howns
  | pushExchange p b head =>
    rw [hpc] at howns
    exact change_of_pushExchange hpc howns.1 howns.2 h
  | safeLoad sanitizing gen => exact change_of_safeLoad hpc h
  | safeCheck sanitizing gen head => exact change_of_safeCheck hpc h
  | sanitizeGen | safeNext sanitizing head =>
    simp only [advance, hpc] at h
    cases h
    exact change_goto trivial
  | safeStore sanitizing head next =>
    simp only [hpc] at hfresh
    exact change_of_safeStore hpc hfresh.1 hfresh.2 h

end Advance

/-- The invariant: the lists `c.stack` are linked, every block has at most one place, and the
quarantine holds the pushed blocks that were not returned yet. -/
structure Safe (σ : Machine) (c : Owners) : Prop where
  represents : σ.links.Represents c.stack
  held : c.held = σ.held
  nodup : c.total.Nodup
  owns : ∀ t, Owns σ.links σ.held t (σ.pc t)
  counts : ∀ b, σ.pushed b = σ.returned b + (c.stack .quarantine).count b

theorem Safe.owner_unique {σ : Machine} {c : Owners} (h : Safe σ c) {t u : ThreadId} {b : BlockId}
    (ht : (t, b) ∈ σ.held) (hu : (u, b) ∈ σ.held) : t = u := by
  rw [← h.held] at ht hu
  have ht : c.At b (.holder t) := ht
  have hu : c.At b (.holder u) := hu
  cases Custody.State.At.unique h.nodup ht hu
  rfl

theorem Safe.not_mem_stack {σ : Machine} {c : Owners} (h : Safe σ c) {t : ThreadId} {b : BlockId}
    (ht : (t, b) ∈ σ.held) (p : PoolId) : b ∉ c.stack p := by
  rw [← h.held] at ht
  exact Custody.State.not_mem_stack_of_held h.nodup ht p

/-- Every pool may serve and take back from every thread. -/
def anyone : Custody.Policy PoolId ThreadId := ⟨fun _ _ => True, fun _ _ => True, fun _ _ => True⟩

/-- The other threads keep what they rely on. -/
theorem Safe.owns_goto {σ σ' : Machine} {c : Owners} (h : Safe σ c) {t : ThreadId} {pc : Pc}
    (hpc : σ'.pc = σ.pc) (hown : Owns σ'.links σ'.held t pc)
    (hkeep : ∀ u b, u ≠ t → (u, b) ∈ σ.held →
      (u, b) ∈ σ'.held ∧ σ'.links.next b = σ.links.next b) (u : ThreadId) :
    Owns (σ'.goto t pc).links (σ'.goto t pc).held u ((σ'.goto t pc).pc u) := by
  by_cases hu : u = t
  · subst u
    rw [pc_goto_self]
    exact hown
  · rw [pc_goto_of_ne _ hu, hpc]
    exact (h.owns u).mono fun b hb => hkeep u b hu hb

theorem Safe.quiet {σ σ' : Machine} {c : Owners} {t : ThreadId} (h : Safe σ c)
    (hlinks : σ'.links = σ.links) (hheld : σ'.held = σ.held) (hpushed : σ'.pushed = σ.pushed)
    (hreturned : σ'.returned = σ.returned) (hpc : ∀ u, u ≠ t → σ'.pc u = σ.pc u)
    (howns : Owns σ.links σ.held t (σ'.pc t)) : Safe σ' c := by
  constructor
  · rw [hlinks]
    exact h.represents
  · rw [hheld]
    exact h.held
  · exact h.nodup
  · intro u
    rw [hlinks, hheld]
    by_cases hu : u = t
    · subst u
      exact howns
    · rw [hpc u hu]
      exact h.owns u
  · rw [hpushed, hreturned]
    exact h.counts

/-- A pop may skip blocks, when the successor it loaded lies further down the list. -/
theorem Safe.pop {σ : Machine} {c : Owners} {t : ThreadId} (h : Safe σ c) {p : PoolId}
    {head : BlockId} {next : Option BlockId} (hp : p ≠ .quarantine)
    (hhead : σ.links.head p = some head)
    (hfresh : ∀ b, next = some b → Chain.Reaches σ.links.next (σ.links.next head) b) :
    ∃ c', Safe ({ σ with
      links := σ.links.setHead p next
      held := (t, head) :: σ.held }.goto t .idle) c' := by
  obtain ⟨l, hl⟩ := h.represents.head_eq_some (p := p) hhead
  have hlinked := h.represents p
  rw [hl] at hlinked
  obtain ⟨m, hm, hsub⟩ := hlinked.2.exists_sublist hfresh
  have htake : Custody.Move anyone c ⟨update c.stack p l, (t, head) :: c.held⟩ :=
    .take hl trivial
  have hnd := Custody.State.nodup_of_sublist (p := p) (l := m) (htake.nodup h.nodup)
    (by simpa using hsub)
  rw [update_idem] at hnd
  refine ⟨⟨update c.stack p m, (t, head) :: c.held⟩, h.represents.setHead hm, ?_, hnd, ?_, ?_⟩
  · rw [h.held]
    rfl
  · apply h.owns_goto
    · rfl
    · trivial
    · exact fun u b _ hb => ⟨List.mem_cons_of_mem _ hb, rfl⟩
  · intro b
    change σ.pushed b = σ.returned b + (update c.stack p m .quarantine).count b
    rw [update_of_ne hp.symm]
    exact h.counts b

theorem Safe.store {σ : Machine} {c : Owners} {t : ThreadId} (h : Safe σ c) {b : BlockId}
    (hmem : (t, b) ∈ σ.held) (p : PoolId) (head : Option BlockId) :
    Safe ({ σ with links := σ.links.setNext b head }.goto t (.pushExchange p b head)) c := by
  have hout := h.not_mem_stack hmem
  refine ⟨h.represents.setNext hout head, h.held, h.nodup, ?_, h.counts⟩
  apply h.owns_goto
  · rfl
  · exact ⟨hmem, update_self ..⟩
  · intro u b' hu hb'
    have hne : b' ≠ b := by
      rintro rfl
      exact hu (h.owner_unique hb' hmem)
    exact ⟨hb', update_of_ne hne ..⟩

theorem Safe.push {σ : Machine} {c : Owners} {t : ThreadId} (h : Safe σ c) {p : PoolId}
    {b : BlockId} (hmem : (t, b) ∈ σ.held) (hnext : σ.links.next b = σ.links.head p) :
    ∃ c', Safe ({ σ with
      links := σ.links.setHead p (some b)
      held := σ.held.erase (t, b)
      pushed := if p = PoolId.quarantine then update σ.pushed b (σ.pushed b + 1)
        else σ.pushed }.goto t .idle) c' := by
  have hgive : Custody.Move anyone c ⟨update c.stack p (b :: c.stack p), c.held.erase (t, b)⟩ := by
    rw [← h.held] at hmem
    have hidx : c.held[c.held.idxOf (t, b)]? = some (t, b) := List.getElem?_idxOf hmem
    rw [List.erase_eq_eraseIdx_of_idxOf rfl]
    exact .give hidx trivial
  have hlinked : Chain.Linked σ.links.next (some b) (b :: c.stack p) := by
    refine ⟨rfl, ?_⟩
    rw [hnext]
    exact h.represents p
  refine ⟨⟨update c.stack p (b :: c.stack p), c.held.erase (t, b)⟩,
    h.represents.setHead hlinked, ?_, hgive.nodup h.nodup, ?_, ?_⟩
  · rw [h.held]
    rfl
  · apply h.owns_goto
    · rfl
    · trivial
    · intro u b' hu hb'
      have hne : (u, b') ≠ (t, b) := fun heq => hu (Prod.mk.inj heq).1
      exact ⟨(List.mem_erase_of_ne hne).mpr hb', rfl⟩
  · intro b'
    change (if p = PoolId.quarantine then update σ.pushed b (σ.pushed b + 1)
      else σ.pushed) b' = σ.returned b' + (update c.stack p (b :: c.stack p) .quarantine).count b'
    have hcount := h.counts b'
    by_cases hp : p = .quarantine
    · subst p
      rw [if_pos rfl, update_self, List.count_cons]
      by_cases hb' : b' = b
      · subst b'
        simp
        omega
      · simp [hb', Ne.symm hb', hcount]
    · rw [if_neg hp, update_of_ne (Ne.symm hp)]
      exact hcount

/-- `popSafe` takes the head it checked. -/
theorem Safe.release {σ : Machine} {c : Owners} {t : ThreadId} (h : Safe σ c) {head : BlockId}
    {pc : Pc} (hhead : σ.links.head .quarantine = some head)
    (hpc : pc = .idle ∨ pc = .pushLoad .l2 head) :
    ∃ c', Safe ({ σ with
      links := σ.links.setHead .quarantine (σ.links.next head)
      held := (t, head) :: σ.held
      returned := update σ.returned head (σ.returned head + 1) }.goto t pc) c' := by
  obtain ⟨l, hl⟩ := h.represents.head_eq_some (p := .quarantine) hhead
  have hlinked := h.represents .quarantine
  rw [hl] at hlinked
  have htake : Custody.Move anyone c ⟨update c.stack .quarantine l, (t, head) :: c.held⟩ :=
    .take hl trivial
  refine ⟨⟨update c.stack .quarantine l, (t, head) :: c.held⟩,
    h.represents.setHead hlinked.2, ?_, htake.nodup h.nodup, ?_, ?_⟩
  · rw [h.held]
    rfl
  · apply h.owns_goto
    · rfl
    · rcases hpc with rfl | rfl
      · trivial
      · exact List.mem_cons_self
    · exact fun u b _ hb => ⟨List.mem_cons_of_mem _ hb, rfl⟩
  · intro b
    change σ.pushed b = update σ.returned head (σ.returned head + 1) b +
      (update c.stack .quarantine l .quarantine).count b
    have hcount := h.counts b
    rw [hl, List.count_cons] at hcount
    rw [update_self]
    by_cases hb : b = head
    · subst b
      simp at hcount ⊢
      omega
    · simp [hb, Ne.symm hb] at hcount ⊢
      exact hcount

/-- One step keeps the invariant. -/
theorem Safe.change {σ σ' : Machine} {c : Owners} {t : ThreadId} (h : Safe σ c)
    (hc : Change σ t σ') : ∃ c', Safe σ' c' := by
  cases hc with
  | quiet hlinks hheld hpushed hreturned hpc howns =>
    exact ⟨c, h.quiet hlinks hheld hpushed hreturned hpc howns⟩
  | pop hp hhead hfresh => exact h.pop hp hhead hfresh
  | store hmem => exact ⟨c, h.store hmem _ _⟩
  | push hmem hnext => exact h.push hmem hnext
  | release hhead hpc => exact h.release hhead hpc

end LingNet.Gqap.Machine
