import Chkdraft.Core.Along
import Chkdraft.Scenario.UpgradeComments

/-!
# The slots of the KTRG section

Entries are added to the first usable index that is free, and the section grows
when there is none.  It grows past the highest index a trigger can store, so an
entry added to a full section gets an index that no trigger accepts.
-/

namespace Chkdraft.Scenario

open Binary Chk Sections

/-- A call on the section. -/
inductive SlotCall where
  | addExtendedTrigger (extendedTrigger : Option ExtendedTrigData)
  | deleteExtendedTrigger (extendedTriggerIndex : ℕ)

/-- `KtrgSection::addExtendedTrigger` with a pointer, which may be null. -/
def addExtendedTriggerPtr (entries : List (Option ExtendedTrigData)) :
    Option ExtendedTrigData → ℕ × List (Option ExtendedTrigData)
  | none => (0, entries)
  | some extendedTrigger => addExtendedTrigger entries extendedTrigger

def AcceptedByTriggers (index : ℕ) : Prop :=
  ∀ trigger, ∃ linked, setExtendedDataIndex trigger index = .ok linked

namespace SlotCall

def apply (entries : List (Option ExtendedTrigData)) : SlotCall → List (Option ExtendedTrigData)
  | addExtendedTrigger extendedTrigger =>
      (addExtendedTriggerPtr entries extendedTrigger).2
  | deleteExtendedTrigger index =>
      Scenario.deleteExtendedTrigger entries index

/-- Adding returns 0 and changes nothing, or stores the data at an index that is
accepted and was free; no other entry is changed, by adding or deleting. -/
def Holds (entries : List (Option ExtendedTrigData)) : SlotCall → Prop
  | addExtendedTrigger extendedTrigger =>
      addExtendedTriggerPtr entries extendedTrigger = (0, entries) ∨
        ∃ index changed, addExtendedTriggerPtr entries extendedTrigger = (index, changed) ∧
          AcceptedByTriggers index ∧ entries.getD index none = none ∧
          extendedTrigger ≠ none ∧
          changed.getD index none = extendedTrigger ∧
          ∀ other, other ≠ index → changed.getD other none = entries.getD other none
  | deleteExtendedTrigger index => ∀ other, other ≠ index →
      (Scenario.deleteExtendedTrigger entries index).getD other none = entries.getD other none

/-- The condition on a call: when data is added, a usable index up to
`ExtendedTrigDataIndex::MaxIndex` is free. -/
def Meets (entries : List (Option ExtendedTrigData)) : SlotCall → Prop
  | addExtendedTrigger (some _) => ∃ index ≤ 0x00FEFEFE,
      indexUsable index = true ∧ entries.getD index none = none
  | _ => True

end SlotCall

theorem acceptedByTriggers_iff (index : ℕ) : AcceptedByTriggers index ↔ Settable index := by
  constructor
  · intro haccepted
    by_contra hnot
    obtain ⟨linked, hlinked⟩ := haccepted blankTrigger
    rw [setExtendedDataIndex_eq, if_neg hnot] at hlinked
    cases hlinked
  · intro hsettable trigger
    exact ⟨_, by rw [setExtendedDataIndex_eq, if_pos hsettable]⟩

/-- The entries stand at usable indexes that a trigger can store. -/
structure Storable (entries : List (Option ExtendedTrigData)) : Prop where
  usable : UsableEntries entries
  le_max : ∀ index, entries.getD index none ≠ none → index ≤ 0x00FEFEFE

theorem storable_nil : Storable [] where
  usable := fun _ hstored => absurd rfl hstored
  le_max := fun _ hstored => absurd rfl hstored

section Step

variable {entries : List (Option ExtendedTrigData)}

theorem storable_deleteExtendedTrigger (hstorable : Storable entries)
    (index : ℕ) : Storable (deleteExtendedTrigger entries index) where
  usable := usableEntries_deleteExtendedTrigger hstorable.usable index
  le_max := by
    intro other hstored
    rw [getD_deleteExtendedTrigger hstorable.usable] at hstored
    split at hstored
    · exact absurd rfl hstored
    · exact hstorable.le_max other hstored

theorem storable_addExtendedTrigger (hstorable : Storable entries)
    {extension : ExtendedTrigData}
    (hle : (addExtendedTrigger entries extension).1 ≤ 0x00FEFEFE) :
    Storable (addExtendedTrigger entries extension).2 where
  usable := usableEntries_addExtendedTrigger hstorable.usable extension
  le_max := by
    intro other hstored
    rw [getD_addExtendedTrigger] at hstored
    split at hstored
    · rename_i heq
      rw [heq]
      exact hle
    · exact hstorable.le_max other hstored

theorem addExtendedTrigger_le (hstorable : Storable entries) (extension : ExtendedTrigData) :
    (addExtendedTrigger entries extension).1 ≤ 0x00FEFEFF := by
  by_contra hgt
  have hstored := (addExtendedTrigger_least entries extension).2 0x00FEFEFF
    (Nat.lt_of_not_le hgt) (by decide)
  exact absurd (hstorable.le_max _ hstored) (by decide)

theorem settable_addExtendedTrigger_iff (hstorable : Storable entries)
    (extension : ExtendedTrigData) :
    Settable (addExtendedTrigger entries extension).1 ↔
      (addExtendedTrigger entries extension).1 ≤ 0x00FEFEFE := by
  have hle := addExtendedTrigger_le hstorable extension
  have hmod : (addExtendedTrigger entries extension).1 % 2 ^ 32 =
      (addExtendedTrigger entries extension).1 :=
    Nat.mod_eq_of_lt (Nat.lt_of_le_of_lt hle (by decide))
  rw [Settable, hmod]
  exact and_iff_right (indexUsable_addExtendedTrigger entries extension)

/-- A free usable index is not below the one that is taken. -/
theorem addExtendedTrigger_le_iff (extension : ExtendedTrigData) :
    (addExtendedTrigger entries extension).1 ≤ 0x00FEFEFE ↔
      ∃ index ≤ 0x00FEFEFE, indexUsable index = true ∧ entries.getD index none = none := by
  obtain ⟨hfree, hleast⟩ := addExtendedTrigger_least entries extension
  constructor
  · intro hle
    exact ⟨_, hle, indexUsable_addExtendedTrigger entries extension, hfree⟩
  · rintro ⟨index, hle, husable, hnone⟩
    refine (Nat.le_of_not_lt ?_).trans hle
    intro hlt
    exact hleast index hlt husable hnone

theorem SlotCall.holds_add_iff (hstorable : Storable entries) (extension : ExtendedTrigData) :
    (SlotCall.addExtendedTrigger (some extension)).Holds entries ↔
      (Scenario.addExtendedTrigger entries extension).1 ≤ 0x00FEFEFE := by
  rw [← settable_addExtendedTrigger_iff hstorable]
  constructor
  · rintro (hzero | ⟨index, changed, hadd, haccepted, -⟩)
    · -- The index 0 is not usable.
      have husable := indexUsable_addExtendedTrigger entries extension
      rw [show Scenario.addExtendedTrigger entries extension = (0, entries) from hzero] at husable
      exact absurd (show indexUsable 0 = true from husable) (by decide)
    · rw [show Scenario.addExtendedTrigger entries extension = (index, changed) from hadd]
      exact (acceptedByTriggers_iff index).mp haccepted
  · intro hsettable
    refine .inr ⟨_, _, rfl, (acceptedByTriggers_iff _).mpr hsettable,
      (addExtendedTrigger_least entries extension).1, nofun, ?_, ?_⟩
    · exact (getD_addExtendedTrigger entries extension _).trans (if_pos rfl)
    · intro other hne
      exact (getD_addExtendedTrigger entries extension other).trans (if_neg hne)

/-- A call does what it should exactly under the condition. -/
theorem SlotCall.holds_iff (hstorable : Storable entries) (call : SlotCall) :
    call.Holds entries ↔ call.Meets entries := by
  match call with
  | .addExtendedTrigger none => exact iff_of_true (.inl rfl) trivial
  | .addExtendedTrigger (some extension) =>
      rw [SlotCall.holds_add_iff hstorable]
      exact addExtendedTrigger_le_iff extension
  | .deleteExtendedTrigger index =>
      apply iff_of_true _ trivial
      intro other hne
      rw [getD_deleteExtendedTrigger hstorable.usable, if_neg hne]

theorem SlotCall.storable_apply (hstorable : Storable entries)
    {call : SlotCall} (hmeets : call.Meets entries) :
    Storable (call.apply entries) := by
  match call, hmeets with
  | .addExtendedTrigger none, _ => exact hstorable
  | .addExtendedTrigger (some extension), hmeets =>
      exact storable_addExtendedTrigger hstorable ((addExtendedTrigger_le_iff extension).mpr hmeets)
  | .deleteExtendedTrigger index, _ =>
      exact storable_deleteExtendedTrigger hstorable index

end Step

/-- From the empty section every call does what it should exactly if every call
meets the condition. -/
theorem slotCalls_hold_iff (calls : List SlotCall) : Along SlotCall.apply SlotCall.Holds [] calls ↔
      Along SlotCall.apply SlotCall.Meets [] calls :=
  Along.congr (fun _ call hstorable => call.holds_iff hstorable)
    (fun _ _ hstorable hmeets => SlotCall.storable_apply hstorable hmeets)
    storable_nil

/-- How many of the first indexes are taken. -/
def takenSlots (bound : ℕ) (entries : List (Option ExtendedTrigData)) : ℕ :=
  ((Finset.range bound).filter fun index => entries.getD index none ≠ none).card

theorem takenSlots_addExtendedTrigger {bound : ℕ}
    {entries : List (Option ExtendedTrigData)} {extension : ExtendedTrigData}
    (hlt : (addExtendedTrigger entries extension).1 < bound) :
    takenSlots bound (addExtendedTrigger entries extension).2 = takenSlots bound entries + 1 := by
  have hfree := (addExtendedTrigger_least entries extension).1
  have hinsert : ((Finset.range bound).filter fun index =>
      (addExtendedTrigger entries extension).2.getD index none ≠ none) =
      insert (addExtendedTrigger entries extension).1 ((Finset.range bound).filter fun index =>
          entries.getD index none ≠ none) := by
    ext index
    rw [Finset.mem_insert, Finset.mem_filter, Finset.mem_filter,
      getD_addExtendedTrigger, Finset.mem_range]
    by_cases heq : index = (addExtendedTrigger entries extension).1
    · rw [if_pos heq, heq]
      exact iff_of_true ⟨hlt, nofun⟩ (.inl rfl)
    · rw [if_neg heq, or_iff_right heq]
  rw [takenSlots, hinsert, Finset.card_insert_of_notMem]
  · rfl
  · intro hmem
    exact (Finset.mem_filter.mp hmem).2 hfree

/-- Entries are added one after the other only as long as there are indexes. -/
theorem add_le_of_holds {extension : ExtendedTrigData} {count : ℕ}
    {entries : List (Option ExtendedTrigData)} (hstorable : Storable entries)
    (hholds : Along SlotCall.apply SlotCall.Holds entries
      (List.replicate count (.addExtendedTrigger (some extension)))) :
    takenSlots (0x00FEFEFE + 1) entries + count ≤ 0x00FEFEFE + 1 := by
  induction count generalizing entries with
  | zero =>
      rw [Nat.add_zero]
      exact (Finset.card_filter_le _ _).trans (Finset.card_range _).le
  | succ count ih =>
      obtain ⟨hfirst, hrest⟩ := hholds
      have hle := (SlotCall.holds_add_iff hstorable extension).mp hfirst
      have hlater := ih (storable_addExtendedTrigger hstorable hle) hrest
      have htaken := @takenSlots_addExtendedTrigger (0x00FEFEFE + 1) entries
        extension (Nat.lt_succ_of_le hle)
      rw [htaken] at hlater
      omega

/-- Too many entries for the indexes there are. -/
theorem addExtendedTrigger_past_max : ¬ Along SlotCall.apply SlotCall.Holds []
      (List.replicate 0x00FEFF00 (.addExtendedTrigger (some .blank))) := by
  intro hholds
  have hle := add_le_of_holds storable_nil hholds
  omega

end Chkdraft.Scenario
