import LingNet.Gqap.Exposure
import LingNet.Gqap.Zeroing

/-! Noninterference between the tiers. A trusted block is not cleared on its way through the
common pool to an untrusted arena, so the contents an untrusted arena starts with are
independent of trusted bytes exactly when no exposed block is served this way. -/
namespace LingNet.Gqap
open Function

def Op.isTrustedWrite : Op → Bool
  | .write .trusted _ _ _ _ => true
  | _ => false

/-- What two runs have in common that differ only in what trusted arenas write. -/
def lowPart (ops : List Op) : List Op := ops.filter fun op => !op.isTrustedWrite

/-- All bytes of a block. -/
def content (s : Globals) (b : BlockId) : List UInt8 :=
  (List.range (s.blocks b).capacity).map fun i => s.mem ((s.blocks b).memory + i)

/-- The block that an untrusted `init` returns, as it is at that moment. -/
def view (σ : System) (op : Op) (σ' : System) : Option (List UInt8) :=
  match op, σ'.live with
  | .init .untrusted, h :: rest =>
    if rest.length = σ.live.length then some (content σ'.globals h.arena.block) else none
  | _, _ => none

def views : System → List Op → List (List UInt8)
  | _, [] => []
  | σ, op :: ops =>
    match step σ op with
    | none => []
    | some σ' => (view σ op σ').toList ++ views σ' ops

def InBlock (s : Globals) (b : BlockId) (a : ℕ) : Prop :=
  (s.blocks b).memory ≤ a ∧ a < (s.blocks b).memory + (s.blocks b).capacity

/-- The address lies in the slice that a trusted `alloc` returns. -/
def HandedOut (σ : System) (a : ℕ) : Op → Prop
  | .alloc i T count => ∃ h sl a' s', σ.live[i]? = some h ∧ h.arena.tier = .trusted ∧
      h.arena.alloc T count σ.globals = .ok (sl, a', s') ∧ sl.ptr ≤ a ∧ a < sl.ptr + sl.len
  | _ => False

/-- A process with the addresses that a trusted arena may have written and nothing has
overwritten since. -/
structure Traced where
  system : System
  exposed : ℕ → Prop

def Traced.step (t : Traced) (op : Op) : Option Traced :=
  (Gqap.step t.system op).map fun σ => ⟨σ, fun a =>
    t.exposed a ∧ stores t.system op a = none ∨ HandedOut t.system a op⟩

/-- The process right after `initPools`, with nothing exposed. -/
def Traced.booted (s : Globals) : Traced := ⟨Gqap.booted s, fun _ => False⟩

/-- Before the step: an untrusted `init` that the common pool is about to serve gets a block
without an exposed byte. -/
def HandsOutClean (t : Traced) : Op → Prop
  | .init .untrusted => (t.system.globals.pool .l2).head = none →
      ∀ b, (t.system.globals.pool .common).head = some b →
        ∀ a, InBlock t.system.globals b a → ¬ t.exposed a
  | _ => True

theorem Wf.block_unique {backing blockCount blockSize : ℕ} {σ : System} {c : Holdings}
    (w : Wf backing blockCount blockSize σ c) {b b' : BlockId} {a : ℕ}
    (h : InBlock σ.globals b a) (h' : InBlock σ.globals b' a) : b = b' := by
  unfold InBlock at h h'
  rw [w.memory, w.capacity] at h h'
  exact block_of_address h.1 h.2 h'.1 h'.2

theorem Wf.slice_inBlock {backing blockCount blockSize : ℕ} {σ : System} {c : Holdings}
    (w : Wf backing blockCount blockSize σ c) {h : Handle} (hh : h ∈ σ.live) {sl : Slice}
    (hsl : sl ∈ h.slices) {a : ℕ} (hlo : sl.ptr ≤ a) (hhi : a < sl.ptr + sl.len) :
    InBlock σ.globals h.arena.block a := by
  have hbounds := w.slices h hh sl hsl
  unfold InBlock
  rw [w.memory, w.capacity]
  omega

/-- The invariant: what live trusted arenas can write is exposed, and exposed bytes are in
blocks of the common pool or of trusted arenas. -/
structure Guarded (σ : System) (c : Holdings) (exposed : ℕ → Prop) : Prop where
  slices : ∀ h ∈ σ.live, h.arena.tier = .trusted → ∀ sl ∈ h.slices, ∀ a, sl.ptr ≤ a →
    a < sl.ptr + sl.len → exposed a
  confined : ∀ a, exposed a → ∃ b, InBlock σ.globals b a ∧
    (b ∈ c.stack .common ∨ (.trusted, b) ∈ c.held)

theorem Transition.inBlock {σ σ' : System} {c c' : Holdings} {op : Op}
    (t : Transition σ c op σ' c') {b : BlockId} {a : ℕ} :
    InBlock σ'.globals b a ↔ InBlock σ.globals b a := by
  unfold InBlock
  rw [(t.geometry b).1, (t.geometry b).2]

/-- Only a block that the common pool serves to an untrusted arena leaves the trusted side. -/
theorem Transition.trustedSide {σ σ' : System} {c c' : Holdings} {op : Op}
    (hheld : c.held = σ.heldBlocks) (t : Transition σ c op σ' c') {b : BlockId}
    (hb : b ∈ c.stack .common ∨ (.trusted, b) ∈ c.held)
    (hserve : op = .init .untrusted → c.stack .l2 = [] → ∀ l, c.stack .common ≠ b :: l) :
    b ∈ c'.stack .common ∨ (.trusted, b) ∈ c'.held := by
  have herase : ∀ {i : ℕ} {h : Handle}, σ.live[i]? = some h → (.trusted, b) ∈ c.held →
      (.trusted, b) = (h.arena.tier, h.arena.block) ∨ (.trusted, b) ∈ c.held.eraseIdx i := by
    intro i h hi hmem
    have hget := heldBlocks_getElem? hi
    rw [← hheld] at hget
    exact List.mem_cons.mp ((Custody.perm_cons_eraseIdx hget).mem_iff.mp hmem)
  cases t with
  | @initTrusted b' l hp =>
    rw [hp] at hb
    rcases hb with hb | hb
    · rcases List.mem_cons.mp hb with rfl | hb
      · exact .inr List.mem_cons_self
      · exact .inl (by simpa using hb)
    · exact .inr (List.mem_cons_of_mem _ hb)
  | @initFromCommon b' l hl2 hp =>
    have hne : b ≠ b' := by
      rintro rfl
      exact hserve rfl hl2 l hp
    rw [hp] at hb
    rcases hb with hb | hb
    · exact .inl (by simpa using (List.mem_cons.mp hb).resolve_left hne)
    · exact .inr (List.mem_cons_of_mem _ hb)
  | initFromL2 | initFromQuarantine =>
    rcases hb with hb | hb
    · exact .inl (by simpa using hb)
    · exact .inr (List.mem_cons_of_mem _ hb)
  | deinitTrusted hi ht | zeroTrusted hi ht =>
    rcases hb with hb | hb
    · exact .inl (by simp [hb])
    · rcases herase hi hb with heq | hb
      · exact .inl (by simp [(Prod.mk.inj heq).2])
      · exact .inr hb
  | deinitUntrusted hi ht | zeroUntrusted hi ht =>
    rcases hb with hb | hb
    · exact .inl (by simpa using hb)
    · rcases herase hi hb with heq | hb
      · rw [ht] at heq
        cases (Prod.mk.inj heq).1
      · exact .inr hb
  | sanitize => exact hb.imp (fun hb => by simpa using hb) id
  | _ => exact hb

/-- A step other than a trusted write stores into blocks that no trusted arena holds after it. -/
theorem Transition.stores_block {backing blockCount blockSize : ℕ} {σ σ' : System}
    {c c' : Holdings} {op : Op} (w : Wf backing blockCount blockSize σ c)
    (hlow : op.isTrustedWrite = false) (t : Transition σ c op σ' c') {a : ℕ}
    (ha : stores σ op a ≠ none) :
    ∃ b x, InBlock σ.globals b a ∧ c'.At b x ∧ x ≠ .holder .trusted := by
  cases t with
  | @write i k offset bytes h sl hi hk hfit =>
    have hh := List.mem_of_getElem? hi
    have huntrusted : h.arena.tier ≠ .trusted := by
      intro ht
      rw [ht] at hlow
      cases hlow
    refine ⟨h.arena.block, .holder h.arena.tier, ?_, mem_held w.held hh, by simpa using huntrusted⟩
    have hin := stores_write hi hk ha
    exact w.slice_inBlock hh (List.mem_of_getElem? hk) (by omega) (by omega)
  | @zeroTrusted i h hi ht =>
    refine ⟨h.arena.block, .pool .common, ?_, by simp [Custody.State.At], by simp⟩
    by_contra hout
    apply ha
    simp only [stores, hi]
    exact if_neg fun hin => hout hin.2
  | @zeroUntrusted i h hi ht =>
    refine absurd ?_ ha
    simp [stores, hi, ht]
  | sanitizeIdle hidle =>
    refine absurd ?_ ha
    simp only [stores, hidle]
  | @sanitize gen b l hp hfit hdue =>
    refine ⟨b, .pool .l2, ?_, by simp [Custody.State.At], by simp⟩
    have hq := w.represents .quarantine
    rw [hp] at hq
    have hhead : (σ.globals.pool .quarantine).head = some b := hq.1
    by_contra hout
    apply ha
    simp only [stores, QuarantinePool.popSafe, hhead, Zig.add, hfit, if_true, Zig.Outcome.ok_bind,
      Nat.not_le.mpr hdue, if_false, Zig.Outcome.pure_eq]
    exact if_neg hout
  | _ => exact absurd rfl ha

/-- One step keeps the invariant, unless it serves an exposed block to an untrusted arena. -/
theorem Guarded.step {backing blockCount blockSize : ℕ} {σ σ' : System} {c c' : Holdings}
    {op : Op} {e : ℕ → Prop} (w : Wf backing blockCount blockSize σ c)
    (w' : Wf backing blockCount blockSize σ' c') (hg : Guarded σ c e)
    (hlow : op.isTrustedWrite = false) (hclean : HandsOutClean ⟨σ, e⟩ op)
    (t : Transition σ c op σ' c') :
    Guarded σ' c' fun a => e a ∧ stores σ op a = none ∨ HandedOut σ a op := by
  constructor
  · intro h hh htrusted sl hsl a hlo hhi
    have hin := w'.slice_inBlock hh hsl hlo hhi
    have hheld := mem_held w'.held hh
    rw [htrusted] at hheld
    have hkept : stores σ op a = none := by
      by_contra hstore
      obtain ⟨b, x, hb, hx, hne⟩ := t.stores_block w hlow hstore
      obtain rfl := w'.block_unique hin (t.inBlock.mpr hb)
      exact hne (Custody.State.At.unique w'.nodup hx hheld)
    have hold : ∀ h' ∈ σ.live, h'.arena.tier = .trusted → sl ∈ h'.slices →
        e a ∧ stores σ op a = none ∨ HandedOut σ a op := fun h' hh' ht' hsl' =>
      .inl ⟨hg.slices h' hh' ht' sl hsl' a hlo hhi, hkept⟩
    cases t with
    | initTrusted | initFromL2 | initFromCommon | initFromQuarantine =>
      rcases List.mem_cons.mp hh with rfl | hh
      · cases hsl
      · exact hold h hh htrusted hsl
    | @alloc i T count h₀ sl₀ a₀ s₀ hi ha =>
      obtain ⟨_, _, _, ha', _⟩ := Arena.alloc_eq_ok ha
      rcases List.mem_or_eq_of_mem_set hh with hh | rfl
      · exact hold h hh htrusted hsl
      · have ht₀ : h₀.arena.tier = .trusted := by
          rw [ha'] at htrusted
          exact htrusted
        rcases List.mem_cons.mp hsl with rfl | hsl
        · exact .inr ⟨h₀, sl, a₀, s₀, hi, ht₀, ha, hlo, hhi⟩
        · exact hold h₀ (List.mem_of_getElem? hi) ht₀ hsl
    | deinitTrusted | deinitUntrusted | zeroTrusted | zeroUntrusted =>
      exact hold h (List.mem_of_mem_eraseIdx hh) htrusted hsl
    | _ => exact hold h hh htrusted hsl
  · rintro a (⟨he, _⟩ | hout)
    · obtain ⟨b, hb, hside⟩ := hg.confined a he
      refine ⟨b, t.inBlock.mpr hb, t.trustedSide w.held hside ?_⟩
      rintro rfl hl2 l hl
      have hcommon := w.represents .common
      rw [hl] at hcommon
      exact hclean (w.represents.head_eq_none.mpr hl2) b hcommon.1 a hb he
    · cases op with
      | alloc i T count =>
        obtain ⟨h, sl, a', s', hi, ht, ha, hlo, hhi⟩ := hout
        obtain ⟨hptr, hlen, hcap, _, _⟩ := Arena.alloc_eq_ok ha
        have hmem := mem_held w.held (List.mem_of_getElem? hi)
        rw [ht] at hmem
        refine ⟨h.arena.block, t.inBlock.mpr ⟨by omega, by omega⟩, ?_⟩
        exact t.trustedSide w.held (.inr hmem) (by simp)
      | _ => cases hout

end LingNet.Gqap
