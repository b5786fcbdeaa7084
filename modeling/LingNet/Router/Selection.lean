import LingNet.Lib.Weighted
import LingNet.Router.Entry
import Mathlib.Tactic.Linarith

/-! The two loops that pick a provider by weight, and what each makes of their end. -/
namespace LingNet.Router

/-- The scores or weights that a loop goes through: those of an ordered map, none negative, and
not all zero. -/
structure WeightMap where
  entries : List (String × ℚ)
  distinct : (entries.map Prod.fst).Nodup
  nonneg : ∀ e ∈ entries, 0 ≤ e.2
  total_pos : 0 < Weighted.total entries

theorem pickLoop_eq (pick current : ℚ) (scores : List (String × ℚ)) :
    pickLoop pick current scores = Weighted.select pick current scores := by
  induction scores generalizing current with
  | nil => rfl
  | cons e scores ih =>
    unfold pickLoop Weighted.select
    rw [ih]

/-- A provider is true in Python when its name is not empty. -/
def Truthy (selected : Option String) : Prop := ∃ providerId, selected = some providerId ∧
  providerId ≠ ""

/-- A choice by weight: it comes to the one owner of the pick, it passes over what has no weight,
each entry has a share of the picks as long as its weight, and what stands behind the loop for
want of a selection is not needed. -/
structure Proportional (m : WeightMap) (choose : ℚ → Option String) (selects : ℚ → Prop) :
    Prop where
  owner : ∀ pick, 0 < pick → pick ≤ Weighted.total m.entries →
    ∃! i, Weighted.Owns m.entries pick i
  chooses : ∀ pick i e, Weighted.Owns m.entries pick i → m.entries[i]? = some e →
    choose pick = some e.1
  zero_never : ∀ e ∈ m.entries, e.2 = 0 → ∀ pick, 0 < pick → pick ≤ Weighted.total m.entries →
    choose pick ≠ some e.1
  share : ∀ (i : ℕ) (e : String × ℚ), m.entries[i]? = some e →
    {pick | 0 < pick ∧ pick ≤ Weighted.total m.entries ∧ choose pick = some e.1} =
      Set.Ioc (Weighted.upTo m.entries i) (Weighted.upTo m.entries i + e.2)
  no_fallback : ∀ pick, 0 < pick → pick ≤ Weighted.total m.entries → selects pick

namespace WeightMap

variable {m : WeightMap}

theorem share_le (m : WeightMap) {i : ℕ} {e : String × ℚ} (he : m.entries[i]? = some e) :
    Weighted.upTo m.entries i + e.2 ≤ Weighted.total m.entries := by
  have hi : i < m.entries.length := (List.getElem?_eq_some_iff.mp he).1
  rw [← Weighted.upTo_succ he, ← Weighted.upTo_length]
  exact Weighted.upTo_mono m.nonneg hi

/-- A choice that is what the loop selects is one by weight. -/
theorem proportional_of_loop {choose : ℚ → Option String} {selects : ℚ → Prop}
    (h : ∀ pick, 0 < pick → pick ≤ Weighted.total m.entries →
      choose pick = pickLoop pick 0 m.entries ∧ selects pick) : Proportional m choose selects := by
  have hshare : ∀ (i : ℕ) (e : String × ℚ), m.entries[i]? = some e → ∀ pick, 0 < pick →
      pick ≤ Weighted.total m.entries → (choose pick = some e.1 ↔
        pick ∈ Set.Ioc (Weighted.upTo m.entries i) (Weighted.upTo m.entries i + e.2)) := by
    intro i e he pick hlow hhigh
    rw [(h pick hlow hhigh).1, pickLoop_eq]
    exact Weighted.select_eq_some_iff m.nonneg m.distinct he hlow hhigh
  have hpositive : ∀ (i : ℕ) (pick : ℚ), Weighted.upTo m.entries i < pick → 0 < pick :=
    fun i pick hpick => (Weighted.upTo_nonneg m.nonneg i).trans_lt hpick
  refine ⟨fun pick hlow hhigh => Weighted.existsUnique_owner m.nonneg hlow hhigh, ?_, ?_, ?_,
    fun pick hlow hhigh => (h pick hlow hhigh).2⟩
  · intro pick i e howns he
    obtain ⟨-, hbefore, hafter⟩ := howns
    rw [Weighted.upTo_succ he] at hafter
    exact (hshare i e he pick (hpositive i pick hbefore)
      (hafter.trans (m.share_le he))).mpr ⟨hbefore, hafter⟩
  · intro e hmem hzero pick hlow hhigh hchosen
    obtain ⟨i, he⟩ := List.mem_iff_getElem?.mp hmem
    have hpick := (hshare i e he pick hlow hhigh).mp hchosen
    rw [hzero, add_zero, Set.Ioc_self] at hpick
    exact hpick
  · intro i e he
    ext pick
    constructor
    · intro hpick
      obtain ⟨hlow, hhigh, hchosen⟩ := hpick
      exact (hshare i e he pick hlow hhigh).mp hchosen
    · intro hpick
      have hlow := hpositive i pick hpick.1
      have hhigh := hpick.2.trans (m.share_le he)
      exact ⟨hlow, hhigh, (hshare i e he pick hlow hhigh).mpr hpick⟩

end WeightMap

def smartChoice (m : WeightMap) (pick : ℚ) : Option String := (selectScored m.entries pick).toOption

def providerChoice (m : WeightMap) (pick : ℚ) : Option String :=
  orFirst m.entries (pickLoop pick 0 m.entries)

/-- Both loops choose by weight, and neither comes to the first provider for want of another. -/
structure BothProportional (m : WeightMap) : Prop where
  smart : Proportional m (smartChoice m) fun pick => (pickLoop pick 0 m.entries).isSome
  provider : Proportional m (providerChoice m) fun pick => Truthy (pickLoop pick 0 m.entries)

/-- The loop ends with an entry that has a weight. -/
theorem WeightMap.pickLoop_weighted (m : WeightMap) {pick : ℚ} (hlow : 0 < pick)
    (hhigh : pick ≤ Weighted.total m.entries) :
    ∃ e ∈ m.entries, 0 < e.2 ∧ pickLoop pick 0 m.entries = some e.1 := by
  obtain ⟨i, howns, -⟩ := Weighted.existsUnique_owner m.nonneg hlow hhigh
  obtain ⟨e, he⟩ : ∃ e, m.entries[i]? = some e := ⟨_, List.getElem?_eq_getElem howns.1⟩
  refine ⟨e, List.mem_of_getElem? he, ?_, ?_⟩
  · have hafter := howns.2.2
    rw [Weighted.upTo_succ he] at hafter
    linarith [howns.2.1]
  · rw [pickLoop_eq]
    exact howns.select_eq m.nonneg he

theorem smart_proportional (m : WeightMap) :
    Proportional m (smartChoice m) fun pick => (pickLoop pick 0 m.entries).isSome := by
  apply WeightMap.proportional_of_loop
  intro pick hlow hhigh
  obtain ⟨e, -, -, hloop⟩ := m.pickLoop_weighted hlow hhigh
  unfold smartChoice selectScored
  rw [hloop]
  exact ⟨rfl, rfl⟩

/-- The loops choose by weight exactly when no provider with an empty name has a weight. -/
theorem bothProportional_iff (m : WeightMap) :
    BothProportional m ↔ ∀ e ∈ m.entries, e.1 = "" → e.2 = 0 := by
  constructor
  · intro h e hmem hempty
    by_contra hne
    have hweight : 0 < e.2 := lt_of_le_of_ne (m.nonneg e hmem) (Ne.symm hne)
    obtain ⟨i, he⟩ := List.mem_iff_getElem?.mp hmem
    have hsum := Weighted.upTo_nonneg m.nonneg i
    obtain ⟨providerId, hloop, htrue⟩ :=
      h.provider.no_fallback (Weighted.upTo m.entries i + e.2) (by linarith) (m.share_le he)
    have hselect : pickLoop (Weighted.upTo m.entries i + e.2) 0 m.entries = some e.1 := by
      rw [pickLoop_eq]
      exact Weighted.select_of_between m.nonneg he (by linarith)
        (by rw [Weighted.upTo_succ he, zero_add])
    rw [hloop, Option.some.injEq, hempty] at hselect
    exact htrue hselect
  · intro h
    refine ⟨smart_proportional m, WeightMap.proportional_of_loop fun pick hlow hhigh => ?_⟩
    obtain ⟨e, hmem, hweight, hloop⟩ := m.pickLoop_weighted hlow hhigh
    have hname : e.1 ≠ "" := by
      intro hempty
      exact hweight.ne' (h e hmem hempty)
    unfold providerChoice orFirst
    rw [hloop]
    exact ⟨if_neg hname, e.1, rfl, hname⟩

def unnamedSecond : WeightMap where
  entries := [("openai", 0), ("", 1)]
  distinct := by decide
  nonneg := by decide
  total_pos := by decide +kernel

/-- Every pick belongs to the second provider, and the first one is chosen. -/
theorem unnamed_replaced :
    Weighted.Owns unnamedSecond.entries 1 1 ∧
      providerChoice unnamedSecond 1 = some "openai" ∧ ¬ BothProportional unnamedSecond := by
  have howns : Weighted.Owns unnamedSecond.entries 1 1 := by decide +kernel
  have hchoice : providerChoice unnamedSecond 1 = some "openai" := by decide +kernel
  refine ⟨howns, hchoice, fun h => ?_⟩
  have hhigh : 1 ≤ Weighted.total unnamedSecond.entries := by decide +kernel
  exact h.provider.zero_never ("openai", 0) List.mem_cons_self rfl 1 one_pos hhigh hchoice

end LingNet.Router
