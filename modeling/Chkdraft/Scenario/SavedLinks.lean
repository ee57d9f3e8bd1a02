import Chkdraft.Scenario.LinkRepair

/-!
# Trigger links that survive a repair

Loading a scenario ends with a repair of the links between its triggers and the
entries of its KTRG section.  A list of triggers comes through unchanged exactly
if every index in it claims an entry and no entry is left to be adopted by a
trigger without one.
-/

namespace Chkdraft.Scenario

open Chk Sections

variable {index position : ℕ}

theorem usableEntries_loadEntries (entries : List ExtendedTrigData) :
    UsableEntries (KtrgSection.loadEntries entries) := by
  intro index hstored
  by_contra hunusable
  apply hstored
  rw [KtrgSection.loadEntries, List.getD_eq_getElem?_getD, List.getElem?_map, List.getElem?_zipIdx]
  cases entries[index]? with
  | none => rfl
  | some entry =>
      simp only [Option.map_some, Nat.zero_add, Option.getD_some]
      exact if_neg hunusable

theorem usableEntries_nil : UsableEntries [] := by
  intro index hstored
  exact absurd rfl hstored

/-- Every index names an entry that no earlier trigger names, and an entry that
no trigger names asks for none or for a trigger with an index. -/
structure LinksKept (triggers : List Trigger)
    (entries : List (Option ExtendedTrigData)) : Prop where
  claims : ∀ position index, indexAt triggers position = some index →
    Claims triggers entries position index
  taken : ∀ index position, wanted triggers entries index = some position →
    indexAt triggers position ≠ none

section Kept

variable {triggers : List Trigger} {entries : List (Option ExtendedTrigData)}

theorem exists_trigger_of_indexAt (hindex : indexAt triggers position = some index) :
    ∃ trigger, triggers[position]? = some trigger ∧ getExtendedDataIndex trigger = some index :=
  Option.bind_eq_some_iff.mp hindex

namespace LinksKept

theorem keptTriggers_eq (hkept : LinksKept triggers entries) :
    keptTriggers triggers entries = triggers := by
  apply List.ext_getElem?
  intro position
  rw [getElem?_claimTriggers]
  cases htrigger : triggers[position]? with
  | none => rfl
  | some trigger =>
      rw [Option.map_some]
      split
      · rename_i hdrops
        have hnone : getExtendedDataIndex trigger = none := by
          by_contra hsome
          obtain ⟨index, hindex⟩ := Option.ne_none_iff_exists'.mp hsome
          have hat : indexAt triggers position = some index := by
            rw [indexAt, htrigger]
            exact hindex
          exact hdrops.2 index hat (hkept.claims position index hat)
        rw [dropIndex, if_pos hnone]
      · rfl

theorem adoptable (hkept : LinksKept triggers entries) (index : ℕ) :
    Adoptable triggers entries index := by
  intro position hwanted
  obtain ⟨taken, htaken⟩ := Option.ne_none_iff_exists'.mp (hkept.taken index position hwanted)
  obtain ⟨trigger, htrigger, hindex⟩ := exists_trigger_of_indexAt htaken
  refine ⟨trigger, ?_, fun hnone => ?_⟩
  · rw [hkept.keptTriggers_eq, htrigger]
  · rw [hindex] at hnone
    cases hnone

theorem adoptTriggers_eq (hkept : LinksKept triggers entries) (count : ℕ) :
    adoptTriggers triggers entries count = triggers := by
  apply List.ext_getElem?
  intro position
  rw [adoptTriggers, hkept.keptTriggers_eq, List.getElem?_mapIdx]
  cases htrigger : triggers[position]? with
  | none => rfl
  | some trigger =>
      rw [Option.map_some]
      split
      · rename_i hnone
        cases hadopted : adopted triggers entries count position with
        | none => rfl
        | some index =>
            have hwanted := (adopted_eq_some hadopted).2.1
            refine absurd ?_ (hkept.taken index position hwanted)
            rw [indexAt, htrigger]
            exact hnone
      · rfl

end LinksKept

/-- A trigger whose index claims nothing loses it, and is not linked to the
entry of that index again. -/
theorem claims_of_adoptTriggers_eq (hlength : entries.length < 2 ^ 32)
    (hadoptable : ∀ index, Adoptable triggers entries index)
    (heq : adoptTriggers triggers entries entries.length = triggers)
    (hindex : indexAt triggers position = some index) :
    Claims triggers entries position index := by
  by_contra hnot
  obtain ⟨trigger, htrigger, hsome⟩ := exists_trigger_of_indexAt hindex
  have hnone : ∀ other, ¬ Claims triggers entries position other := by
    intro other hclaims
    have hsame := hclaims.1
    rw [hindex] at hsame
    exact hnot (Option.some.inj hsame ▸ hclaims)
  have hafter := @indexAt_adoptTriggers_of_not position trigger triggers
    entries entries.length hadoptable htrigger hnone
  rw [heq, hindex] at hafter
  obtain ⟨adopting, hadopted, htarget⟩ := Option.map_eq_some_iff.mp hafter.symm
  obtain ⟨hlt, hwanted, -⟩ := adopted_eq_some hadopted
  have hcleared : dropIndex trigger = clearExtendedDataIndex trigger :=
    if_neg (by rw [hsome]; exact Option.some_ne_none index)
  rw [hcleared, linkTarget, ownerBits, clearExtendedDataIndex,
    indexWord_withIndexWord, Nat.mod_eq_of_lt (by omega)] at htarget
  obtain rfl : adopting = index := (Nat.zero_or adopting).symm.trans htarget
  obtain ⟨extension, horphan, -⟩ := wanted_eq_some_iff.mp hwanted
  exact horphan.2 position (List.getElem?_eq_some_iff.mp htrigger).1 hindex

/-- A trigger that an entry asks for has an index, or it is given one. -/
theorem taken_of_adoptTriggers_eq (hadoptable : ∀ index, Adoptable triggers entries index)
    (heq : adoptTriggers triggers entries entries.length = triggers)
    (hwanted : wanted triggers entries index = some position) :
    indexAt triggers position ≠ none := by
  intro hfree
  obtain ⟨kept, hkept, -⟩ := hadoptable index position hwanted
  have hlt := (List.getElem?_eq_some_iff.mp hkept).1
  rw [keptTriggers, claimTriggers, List.length_mapIdx] at hlt
  have hnone : ∀ other, ¬ Claims triggers entries position other := by
    intro other hclaims
    have hnamed := hclaims.1
    rw [hfree] at hnamed
    cases hnamed
  have hafter := @indexAt_adoptTriggers_of_not position _ triggers entries
    entries.length hadoptable (List.getElem?_eq_getElem hlt) hnone
  rw [heq, hfree] at hafter
  exact adopted_ne_none_of_wanted (lt_length_of_wanted hwanted) hwanted
    (Option.map_eq_none_iff.mp hafter.symm)

/-- The repair leaves the triggers as they are exactly if their links are
kept. -/
theorem fixTriggerExtensions_keeps_iff (husable : UsableEntries entries)
    (hlength : entries.length < 2 ^ 32) :
    (∃ fixedEntries, fixTriggerExtensions triggers entries =
      .ok (triggers, fixedEntries)) ↔ LinksKept triggers entries := by
  constructor
  · rintro ⟨fixedEntries, hok⟩
    have hrepaired := repairedTo_of_ok husable hok
    have heq := hrepaired.triggers_eq.symm
    exact ⟨fun _ _ hindex => claims_of_adoptTriggers_eq hlength hrepaired.adoptable heq hindex,
      fun _ _ hwanted => taken_of_adoptTriggers_eq hrepaired.adoptable heq hwanted⟩
  · intro hkept
    obtain ⟨fixedTriggers, fixedEntries, hok⟩ :=
      (fixTriggerExtensions_returns_iff husable).mpr hkept.adoptable
    have heq := (repairedTo_of_ok husable hok).triggers_eq
    rw [hkept.adoptTriggers_eq] at heq
    exact ⟨fixedEntries, heq ▸ hok⟩

end Kept

end Chkdraft.Scenario
