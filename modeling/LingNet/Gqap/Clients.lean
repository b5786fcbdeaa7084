import LingNet.Gqap.Isolation
import Mathlib.Data.Multiset.Basic

/-! Clients of the pools side by side. What a client does comes to actions on arenas of its own,
whatever arenas the others hold, so that a process of several clients is one of the runs that the
pools are proved right for. -/
namespace LingNet.Gqap

/-- One action: it takes the pools to another state and the arenas of a client to others. The
arenas of the rest of the process do not matter, and stay. -/
def Acts (s : Globals) (own : Multiset Handle) (s' : Globals) (own' : Multiset Handle) : Prop :=
  ∀ σ : System, ∀ rest, σ.globals = s → (σ.live : Multiset Handle) = own + rest →
    ∃ op σ', step σ op = some σ' ∧ σ'.globals = s' ∧ (σ'.live : Multiset Handle) = own' + rest

/-- A sequence of actions. -/
inductive Plays : Globals → Multiset Handle → Globals → Multiset Handle → Prop where
  | rest (s : Globals) (own : Multiset Handle) : Plays s own s own
  | act {s s₁ s' : Globals} {own own₁ own' : Multiset Handle} (h : Acts s own s₁ own₁)
      (hrest : Plays s₁ own₁ s' own') : Plays s own s' own'

section Acts

variable {s s' s'' : Globals} {own own' own'' : Multiset Handle}

theorem Acts.plays (h : Acts s own s' own') : Plays s own s' own' := .act h (.rest s' own')

theorem Plays.trans (h : Plays s own s' own') (h' : Plays s' own' s'' own'') :
    Plays s own s'' own'' := by
  induction h with
  | rest s own => exact h'
  | act hact _ ih => exact .act hact (ih h')

/-- What every action keeps while the rest of the process has its arenas, a client keeps. -/
theorem Plays.keeps {I : System → Prop} {rest : Multiset Handle}
    (hI : ∀ σ op σ', rest ≤ σ.live → rest ≤ σ'.live → step σ op = some σ' → I σ → I σ')
    (h : Plays s own s' own') {σ : System} (hs : σ.globals = s)
    (hlive : (σ.live : Multiset Handle) = own + rest) (hσ : I σ) :
    ∃ σ', I σ' ∧ σ'.globals = s' ∧ (σ'.live : Multiset Handle) = own' + rest := by
  induction h generalizing σ with
  | rest s own => exact ⟨σ, hσ, hs, hlive⟩
  | act hact _ ih =>
    obtain ⟨op, σ₁, hstep, hs₁, hlive₁⟩ := hact σ rest hs hlive
    have hle : rest ≤ σ.live := hlive ▸ Multiset.le_add_left rest _
    have hle₁ : rest ≤ σ₁.live := hlive₁ ▸ Multiset.le_add_left rest _
    exact ih hs₁ hlive₁ (hI σ op σ₁ hle hle₁ hstep hσ)

theorem coe_eq_cons {l : List Handle} {i : ℕ} {h : Handle} (hi : l[i]? = some h) :
    (l : Multiset Handle) = h ::ₘ (l.eraseIdx i : Multiset Handle) :=
  Multiset.coe_eq_coe.mpr (Custody.perm_cons_eraseIdx hi)

theorem coe_set {l : List Handle} {i : ℕ} {h : Handle} (hi : l[i]? = some h) (h' : Handle) :
    (l.set i h' : Multiset Handle) = h' ::ₘ (l.eraseIdx i : Multiset Handle) := by
  obtain ⟨hlt, -⟩ := List.getElem?_eq_some_iff.mp hi
  have hset := coe_eq_cons (List.getElem?_set_self (a := h') hlt)
  rwa [List.eraseIdx_set_eq] at hset

/-- An arena that is held has a place in the list of the process, and its removal and its
replacement there are what they are for its client. -/
theorem exists_place {l : List Handle} {h : Handle} {others : Multiset Handle}
    (hl : (l : Multiset Handle) = h ::ₘ others) :
    ∃ i, l[i]? = some h ∧ (l.eraseIdx i : Multiset Handle) = others ∧
      ∀ h', (l.set i h' : Multiset Handle) = h' ::ₘ others := by
  have hmem : h ∈ (l : Multiset Handle) := hl ▸ Multiset.mem_cons_self h others
  obtain ⟨i, hi⟩ := List.mem_iff_getElem?.mp (Multiset.mem_coe.mp hmem)
  have hothers : (l.eraseIdx i : Multiset Handle) = others :=
    (Multiset.cons_inj_right h).mp ((coe_eq_cons hi).symm.trans hl)
  exact ⟨i, hi, hothers, fun h' => hothers ▸ coe_set hi h'⟩

/-! What each call does, whoever makes it. -/

theorem acts_init {tier : SecurityTier} {a : Arena} (h : Arena.init tier s = .ok (a, s')) :
    Acts s own s' (⟨a, []⟩ ::ₘ own) := by
  rintro σ rest rfl hlive
  refine ⟨.init tier, ⟨s', ⟨a, []⟩ :: σ.live⟩, by simp only [step, h], rfl, ?_⟩
  rw [← Multiset.cons_coe, hlive, Multiset.cons_add]

theorem acts_alloc {h : Handle} {T : ElemType} {count : ℕ} {sl : Slice} {a : Arena}
    (halloc : h.arena.alloc T count s = .ok (sl, a, s')) :
    Acts s (h ::ₘ own) s' (⟨a, sl :: h.slices⟩ ::ₘ own) := by
  rintro σ rest rfl hlive
  rw [Multiset.cons_add] at hlive
  obtain ⟨i, hi, -, hset⟩ := exists_place hlive
  refine ⟨.alloc i T count, ⟨s', σ.live.set i ⟨a, sl :: h.slices⟩⟩, ?_, rfl, ?_⟩
  · simp only [step, hi, halloc]
  · rw [hset, Multiset.cons_add]

theorem acts_write {h : Handle} (hown : h ∈ own) {sl : Slice} (hsl : sl ∈ h.slices) {offset : ℕ}
    {bytes : List UInt8} (hfit : offset + bytes.length ≤ sl.len) :
    Acts s own (s.store (sl.ptr + offset) bytes) own := by
  rintro σ rest rfl hlive
  have hmem : h ∈ (σ.live : Multiset Handle) := hlive ▸ Multiset.mem_add.mpr (.inl hown)
  obtain ⟨i, hi⟩ := List.mem_iff_getElem?.mp (Multiset.mem_coe.mp hmem)
  obtain ⟨k, hk⟩ := List.mem_iff_getElem?.mp hsl
  refine ⟨.write h.arena.tier i k offset bytes,
    { σ with globals := σ.globals.store (sl.ptr + offset) bytes }, ?_, rfl, hlive⟩
  simp only [step, hi, hk, hfit, and_self, if_true]

theorem acts_store {h : Handle} (hown : h ∈ own) {sl : Slice} (hsl : sl ∈ h.slices)
    {bytes : List UInt8} (hfit : bytes.length ≤ sl.len) :
    Acts s own (s.store sl.ptr bytes) own :=
  acts_write hown hsl (show 0 + bytes.length ≤ sl.len by omega)

/-- A call that ends the arena at a place. -/
theorem acts_release (op : ℕ → Op) (release : Arena → Globals → Globals)
    (hop : ∀ (σ : System) (i : ℕ) (h : Handle), σ.live[i]? = some h →
      step σ (op i) = some ⟨release h.arena σ.globals, σ.live.eraseIdx i⟩) (h : Handle) :
    Acts s (h ::ₘ own) (release h.arena s) own := by
  rintro σ rest rfl hlive
  rw [Multiset.cons_add] at hlive
  obtain ⟨i, hi, herase, -⟩ := exists_place hlive
  exact ⟨op i, _, hop σ i h hi, rfl, herase⟩

theorem acts_deinit (h : Handle) : Acts s (h ::ₘ own) (h.arena.deinit s) own :=
  acts_release .deinit Arena.deinit (fun σ i h hi => by simp only [step, hi]) h

theorem acts_deinitAndZero (h : Handle) : Acts s (h ::ₘ own) (h.arena.deinitAndZero s) own :=
  acts_release .deinitAndZero Arena.deinitAndZero (fun σ i h hi => by simp only [step, hi]) h

theorem acts_sanitizeOne {currentGen : ℕ} {moved : Bool}
    (h : (sanitizeOne s currentGen : Zig.Outcome ArenaError _) = .ok (moved, s')) :
    Acts s own s' own := by
  rintro σ rest rfl hlive
  exact ⟨.sanitizeOne currentGen, ⟨s', σ.live⟩, by simp only [step, h], rfl, hlive⟩

theorem exists_handle {l : List Handle} {i : ℕ} {f : Handle → Option System} {σ : System}
    (h : (match l[i]? with
      | none => none
      | some handle => f handle) = some σ) : ∃ handle, l[i]? = some handle ∧ f handle = some σ := by
  cases hi : l[i]? with
  | none =>
    rw [hi] at h
    cases h
  | some handle =>
    rw [hi] at h
    exact ⟨handle, rfl, h⟩

/-- An action on arenas of the client alone is one on them in the process. -/
theorem acts_of_step {l l' : List Handle} {op : Op}
    (h : step ⟨s, l⟩ op = some ⟨s', l'⟩) : Acts s l s' l' := by
  cases op with
  | init tier =>
    simp only [step] at h
    cases hinit : Arena.init tier s with
    | ok r =>
      rw [hinit] at h
      cases h
      exact acts_init hinit
    | err e =>
      rw [hinit] at h
      cases h
      exact fun σ rest hs hlive => ⟨.init tier, σ, by simp only [step, hs, hinit], hs, hlive⟩
    | trap t =>
      rw [hinit] at h
      cases h
  | alloc i T count =>
    obtain ⟨handle, hi, h⟩ := exists_handle h
    cases halloc : handle.arena.alloc T count s with
    | ok r =>
      simp only [halloc] at h
      cases h
      rw [coe_eq_cons hi, coe_set hi]
      exact acts_alloc halloc
    | err e =>
      simp only [halloc] at h
      cases h
      rintro σ rest rfl hlive
      have hplace := hlive
      rw [coe_eq_cons hi, Multiset.cons_add] at hplace
      obtain ⟨j, hj, -, -⟩ := exists_place hplace
      exact ⟨.alloc j T count, σ, by simp only [step, hj, halloc], rfl, hlive⟩
    | trap t =>
      simp only [halloc] at h
      cases h
  | write tier i k offset bytes =>
    obtain ⟨handle, hi, h⟩ := exists_handle h
    cases hk : handle.slices[k]? with
    | none =>
      simp only [hk] at h
      cases h
    | some sl =>
      simp only [hk] at h
      split_ifs at h with hfit
      cases h
      exact acts_write (List.mem_of_getElem? hi) (List.mem_of_getElem? hk) hfit.2
  | deinit i =>
    obtain ⟨handle, hi, h⟩ := exists_handle h
    cases h
    rw [coe_eq_cons hi]
    exact acts_deinit handle
  | deinitAndZero i =>
    obtain ⟨handle, hi, h⟩ := exists_handle h
    cases h
    rw [coe_eq_cons hi]
    exact acts_deinitAndZero handle
  | incrementGeneration =>
    cases h
    exact fun σ rest hs hlive => ⟨.incrementGeneration, _, rfl, by rw [hs], hlive⟩
  | sanitizeOne currentGen =>
    simp only [step] at h
    cases hsanitize : (sanitizeOne s currentGen : Zig.Outcome ArenaError _) with
    | ok r =>
      rw [hsanitize] at h
      cases h
      exact acts_sanitizeOne hsanitize
    | err e =>
      rw [hsanitize] at h
      cases h
      exact fun σ rest hs hlive =>
        ⟨.sanitizeOne currentGen, σ, by simp only [step, hs, hsanitize], hs, hlive⟩
    | trap t =>
      rw [hsanitize] at h
      cases h

/-! What a call says about its results. -/

theorem Arena.tier_of_init {tier : SecurityTier} {a : Arena} (h : Arena.init tier s = .ok (a, s')) :
    a.tier = tier := by
  unfold Arena.init at h
  cases tier with
  | trusted =>
    dsimp only at h
    split at h <;> cases h
    rfl
  | untrusted =>
    dsimp only at h
    split at h
    · cases h
      rfl
    split at h
    · cases h
      rfl
    obtain ⟨r, _, h⟩ := Zig.Outcome.bind_eq_ok.mp h
    cases r <;> cases h
    rfl

theorem Arena.len_of_alloc {a a' : Arena} {T : ElemType} {count : ℕ} {sl : Slice}
    (h : a.alloc T count s = .ok (sl, a', s')) : sl.len = T.size * count := by
  unfold Arena.alloc at h
  obtain ⟨size, hsize, h⟩ := Zig.Outcome.bind_eq_ok.mp h
  obtain ⟨_, _, h⟩ := Zig.Outcome.bind_eq_ok.mp h
  obtain ⟨_, _, h⟩ := Zig.Outcome.bind_eq_ok.mp h
  obtain ⟨_, rfl⟩ := Zig.mul_eq_ok.mp hsize
  dsimp only at h
  split_ifs at h
  cases h
  rfl

/-! The bytes of the rest of the process. -/

theorem Wf.block_ne {backing blockCount blockSize : ℕ} {σ : System} {c : Holdings}
    (w : Wf backing blockCount blockSize σ c) {rest : Multiset Handle}
    (hlive : (σ.live : Multiset Handle) = own + rest) {h h' : Handle} (hown : h ∈ own)
    (hrest : h' ∈ rest) : h.arena.block ≠ h'.arena.block := by
  have hblocks : (own + rest).map (·.arena.block) = (c.held.map Prod.snd : Multiset BlockId) := by
    rw [w.held, ← hlive]
    simp [System.heldBlocks, Function.comp_def]
  have hnodup : ((own + rest).map (·.arena.block)).Nodup := by
    rw [hblocks]
    exact Custody.State.held_nodup w.nodup
  rw [Multiset.map_add] at hnodup
  obtain ⟨-, -, hdisj⟩ := Multiset.nodup_add.mp hnodup
  intro heq
  refine Multiset.disjoint_left.mp hdisj (Multiset.mem_map.mpr ⟨h, hown, rfl⟩) ?_
  exact Multiset.mem_map.mpr ⟨h', hrest, heq.symm⟩

/-- An action is also one of the client without the rest, so that it stores into blocks that are
the client's or free. -/
theorem Acts.mem_eq {backing blockCount blockSize : ℕ} {σ : System} {c : Holdings}
    (h : Acts s own s' own') (w : Wf backing blockCount blockSize σ c) (hs : σ.globals = s)
    {rest : Multiset Handle} (hlive : (σ.live : Multiset Handle) = own + rest) {other : Handle}
    (hother : other ∈ rest) {a : ℕ} (ha : InBlock s other.arena.block a) : s'.mem a = s.mem a := by
  obtain ⟨op, σ', hstep, rfl, -⟩ := h ⟨s, own.toList⟩ 0 rfl (by simp)
  have hmem := congrFun (step_mem hstep) a
  unfold patch at hmem
  suffices hnone : stores ⟨s, own.toList⟩ op a = none by
    rw [hnone] at hmem
    exact hmem
  have hout : ∀ handle ∈ own, ¬ InBlock s handle.arena.block a := by
    intro handle hhandle hin
    subst hs
    exact w.block_ne hlive hhandle hother (w.block_unique hin ha)
  by_contra hstore
  cases op with
  | write tier i k offset bytes =>
    obtain ⟨handle, hi, hwrite⟩ := exists_handle hstep
    cases hk : handle.slices[k]? with
    | none =>
      simp only [hk] at hwrite
      cases hwrite
    | some sl =>
      simp only [hk] at hwrite
      split_ifs at hwrite with hfit
      have hin := stores_write (σ := ⟨s, own.toList⟩) hi hk hstore
      have hown : handle ∈ own := Multiset.mem_toList.mp (List.mem_of_getElem? hi)
      have hlive' : handle ∈ (σ.live : Multiset Handle) :=
        hlive ▸ Multiset.mem_add.mpr (.inl hown)
      subst hs
      exact hout handle hown (w.slice_inBlock (Multiset.mem_coe.mp hlive')
        (List.mem_of_getElem? hk) (by omega) (by omega))
  | deinitAndZero i =>
    cases hi : own.toList[i]? with
    | none => simp [stores, hi] at hstore
    | some handle =>
      have hown : handle ∈ own := Multiset.mem_toList.mp (List.mem_of_getElem? hi)
      refine hstore ?_
      simp only [stores, hi]
      exact if_neg fun hin => hout handle hown hin.2
  | sanitizeOne gen =>
    subst hs
    refine hstore ?_
    rcases popSafe_eq (ε := ArenaError) w.represents gen with hpop | hpop | hpop
    · simp only [stores, hpop]
    · simp only [stores, hpop]
    · obtain ⟨b, l, hl, -, -, hpop⟩ := hpop
      simp only [stores, hpop]
      refine if_neg fun hin => ?_
      obtain rfl : b = other.arena.block := w.block_unique hin ha
      have hfree : c.At other.arena.block (.pool .quarantine) := by
        change other.arena.block ∈ c.stack .quarantine
        rw [hl]
        exact List.mem_cons_self
      have hlive' : other ∈ (σ.live : Multiset Handle) := hlive ▸ Multiset.mem_add.mpr (.inr hother)
      cases Custody.State.At.unique w.nodup hfree (mem_held w.held hlive')
  | _ => exact hstore rfl

/-- Whatever a client does, the bytes of the blocks that the others hold stay. -/
theorem Plays.mem_eq {backing blockCount blockSize : ℕ} {σ : System} {c : Holdings}
    (h : Plays s own s' own') (w : Wf backing blockCount blockSize σ c) (hs : σ.globals = s)
    {rest : Multiset Handle} (hlive : (σ.live : Multiset Handle) = own + rest) {other : Handle}
    (hother : other ∈ rest) {a : ℕ} (ha : InBlock s other.arena.block a) : s'.mem a = s.mem a := by
  induction h generalizing σ c with
  | rest s own => rfl
  | act hact _ ih =>
    have hmem := hact.mem_eq w hs hlive hother ha
    obtain ⟨op, σ₁, hstep, hs₁, hlive₁⟩ := hact σ rest hs hlive
    obtain ⟨c₁, t, w₁⟩ := w.step hstep
    have ha₁ : InBlock σ₁.globals other.arena.block a := t.inBlock.mpr (hs ▸ ha)
    exact (ih w₁ hs₁ hlive₁ (hs₁ ▸ ha₁)).trans hmem

end Acts

/-- The pools have a block for an untrusted arena. -/
def delivers (s : Globals) : Bool := (Arena.init .untrusted s).isOkAnd fun _ => true

theorem delivers_of_ok {s s' : Globals} {a : Arena} (h : Arena.init .untrusted s = .ok (a, s')) :
    delivers s = true := by
  unfold delivers
  rw [h]
  rfl

theorem delivers_of_err {s : Globals} {e : ArenaError} (h : Arena.init .untrusted s = .err e) :
    delivers s = false := by
  unfold delivers
  rw [h]
  rfl

end LingNet.Gqap
