import Chkdraft.Editor.LocationUndo
import Chkdraft.Scenario.Capacity

/-!
# Undoing the creation and the deletion of a location

A new location goes to the first blank slot and gets a string, and strings that
are not used are dropped along the way.  The slots that are not concerned keep
their names, as their strings are in use.
-/

namespace Chkdraft.Editor

open Chk Scan Scenario Sections Undo

variable {locationId stringId : ℕ} {added after scenario : LoadedScenario}
  {str : ScStr}

/-- Every slot but one shows the same. -/
structure KeepsOthers (locationId : ℕ) (scenario after : LoadedScenario) : Prop where
  locations : ∀ other, other ≠ locationId → after.locations[other]? = scenario.locations[other]?
  names : ∀ other location, 0 < other → other ≠ locationId →
    scenario.locations[other]? = some location →
      getLocationName after location = getLocationName scenario location

theorem KeepsOthers.trans {middle : LoadedScenario}
    (hfirst : KeepsOthers locationId scenario middle)
    (hsecond : KeepsOthers locationId middle after) :
    KeepsOthers locationId scenario after where
  locations other hother := (hsecond.locations other hother).trans (hfirst.locations other hother)
  names other location hpos hother hlocation := by
    have hmiddle := (hfirst.locations other hother).trans hlocation
    rw [hsecond.names other location hpos hother hmiddle,
      hfirst.names other location hpos hother hlocation]

theorem keepsOthers_setLocation (scenario : LoadedScenario) (locationId : ℕ) (location : Location) :
    KeepsOthers locationId scenario (setLocation scenario locationId location) where
  locations _ hother := List.getElem?_set_ne hother.symm
  names _ _ _ _ _ := rfl

theorem marksGameString_of_location {slot : ℕ} {location : Location}
    (hpos : 0 < slot) (hlocation : scenario.locations[slot]? = some location)
    (hname : location.stringId.toNat ≠ 0) :
    scenario.marksGameString .all location.stringId.toNat := by
  refine ⟨Nat.pos_of_ne_zero hname, location.stringId.toNat_lt, .location, rfl, ?_⟩
  obtain ⟨index, rfl⟩ := Nat.exists_eq_add_one_of_ne_zero hpos.ne'
  have htail : scenario.locations.tail[index]? = some location := by
    rw [List.getElem?_tail, hlocation]
  exact List.mem_map.mpr ⟨location, List.mem_of_getElem? htail, rfl⟩

/-- Names stay if the strings in use stay, and no string at id 0. -/
theorem keepsOthers_of_strings (hlocations : after.locations = scenario.locations)
    (hzero : after.str.strings.getD 0 none = scenario.str.strings.getD 0 none)
    (hstrings : ∀ stringId, scenario.marksGameString .all stringId →
      after.str.strings.getD stringId none = scenario.str.strings.getD stringId none) :
    KeepsOthers locationId scenario after where
  locations _ _ := by rw [hlocations]
  names other location hpos _ hlocation := by
    rw [getLocationName, getLocationName, getString, getString]
    by_cases hname : location.stringId.toNat = 0
    · rw [hname, hzero]
    · rw [hstrings _ (marksGameString_of_location hpos hlocation hname)]

theorem keepsOthers_addString (locationId : ℕ) (hentry : 0 < scenario.str.strings.length)
    (hadd : scenario.addString str = .ok (stringId, added)) :
    KeepsOthers locationId scenario added := by
  obtain ⟨strings, hadded, -, -, hkept⟩ := LoadedScenario.addString_spec hadd
  have hzero := LoadedScenario.addString_getD_of_ne hadd
    (LoadedScenario.addString_ne_zero hentry hadd).symm
  subst hadded
  exact keepsOthers_of_strings rfl hzero hkept

theorem keepsOthers_withoutUnusedStrings (locationId : ℕ)
    (hzero : scenario.str.strings.getD 0 none = none) :
    KeepsOthers locationId scenario scenario.withoutUnusedStrings := by
  refine keepsOthers_of_strings rfl ?_ fun _ hmarks =>
    LoadedScenario.getD_withoutUnusedStrings hmarks
  rw [hzero, LoadedScenario.withoutUnusedStrings, getD_dropUnmarked, hzero, ite_self]

theorem slots_eq_iff (hpos : 0 < locationId) (hkeeps : KeepsOthers locationId scenario after) :
    slots after = slots scenario ↔ after.locations[locationId]?.map (slotOf after) =
        scenario.locations[locationId]?.map (slotOf scenario) := by
  obtain ⟨index, rfl⟩ := Nat.exists_eq_add_one_of_ne_zero hpos.ne'
  rw [← getElem?_slots, ← getElem?_slots]
  constructor
  · intro hslots
    rw [hslots]
  · intro hslot
    apply List.ext_getElem?
    intro other
    by_cases hother : other = index
    · rw [hother, hslot]
    · have hne : other + 1 ≠ index + 1 := fun h => hother (Nat.succ.inj h)
      rw [getElem?_slots, getElem?_slots, hkeeps.locations _ hne]
      cases hlocation : scenario.locations[other + 1]? with
      | none => rfl
      | some location =>
          rw [Option.map_some, Option.map_some, slotOf, slotOf,
            hkeeps.names _ location (Nat.succ_pos other) hne hlocation]

section BlankSlot

variable {scenario : LoadedScenario} {slot : ℕ}

theorem blankSlot_spec (hblank : blankSlot scenario = some slot) :
    0 < slot ∧ scenario.locations[slot]? = some blankLocation := by
  have hmem := List.mem_of_find?_eq_some hblank
  have hfound := List.find?_some hblank
  rw [List.mem_range'_1] at hmem
  exact ⟨hmem.1, of_decide_eq_true hfound⟩

theorem exists_blankSlot (hpos : 0 < slot)
    (hblank : scenario.locations[slot]? = some blankLocation) :
    ∃ first, blankSlot scenario = some first := by
  apply Option.ne_none_iff_exists'.mp
  intro hnone
  obtain ⟨hlt, -⟩ := List.getElem?_eq_some_iff.mp hblank
  have hmem : slot ∈ List.range' 1 (scenario.locations.length - 1) :=
    List.mem_range'_1.mpr ⟨hpos, by omega⟩
  exact List.find?_eq_none.mp hnone slot hmem (decide_eq_true hblank)

theorem blankSlot_congr {other : LoadedScenario}
    (hlocations : other.locations = scenario.locations) :
    blankSlot other = blankSlot scenario := by
  rw [blankSlot, blankSlot, hlocations]

theorem addLocation_of_blankSlot (hblank : blankSlot scenario = some slot) (location : Location) :
    addLocation scenario location = (slot, setLocation scenario slot location) := by
  rw [addLocation, hblank]

end BlankSlot

/-- A location that takes over the string of another uses the same strings. -/
theorem marksGameString_setLocation {scenario : LoadedScenario} {slot : ℕ}
    {old location : Location}
    (hold : scenario.locations[slot]? = some old)
    (hname : location.stringId = old.stringId) (stringId : ℕ) :
    (setLocation scenario slot location).marksGameString .all stringId ↔
      scenario.marksGameString .all stringId := by
  have hids (flag : StringUserFlag) : (setLocation scenario slot location).gameStringIds flag =
        scenario.gameStringIds flag := by
    cases flag with
    | location =>
        change ((scenario.locations.set slot location).tail.map _) = scenario.locations.tail.map _
        rw [List.map_tail, List.map_tail, List.map_set, hname]
        congr 1
        apply List.ext_getElem?
        intro index
        by_cases hindex : slot = index
        · subst hindex
          rw [List.getElem?_set_self', List.getElem?_map, hold]
          rfl
        · rw [List.getElem?_set_ne hindex]
    | _ => rfl
  simp only [LoadedScenario.marksGameString, hids]

def NullFirst (scenario : LoadedScenario) : Prop := scenario.str.strings[0]? = some none

instance (scenario : LoadedScenario) : Decidable (NullFirst scenario) :=
  inferInstanceAs (Decidable (_ = _))

namespace NullFirst

variable {scenario : LoadedScenario}

theorem pos (hnull : NullFirst scenario) : 0 < scenario.str.strings.length :=
  (List.getElem?_eq_some_iff.mp hnull).1

theorem getD_zero (hnull : NullFirst scenario) : scenario.str.strings.getD 0 none = none := by
  rw [List.getD_eq_getElem?_getD, hnull]
  rfl

theorem of_length_getD (hlength : 0 < scenario.str.strings.length)
    (hzero : scenario.str.strings.getD 0 none = none) :
    NullFirst scenario := by
  rw [NullFirst, List.getElem?_eq_getElem hlength,
    ← List.getD_eq_getElem scenario.str.strings none hlength, hzero]

section

variable (hnull : NullFirst scenario)

include hnull

theorem name_blank : getLocationName scenario blankLocation = none := by
  change (scenario.str.strings.getD 0 none).map untilNul = none
  rw [hnull.getD_zero]
  rfl

theorem setLocation (slot : ℕ) (location : Location) :
    NullFirst (Editor.setLocation scenario slot location) :=
  hnull

theorem addString (hadd : scenario.addString str = .ok (stringId, added)) : NullFirst added := by
  have hne := LoadedScenario.addString_ne_zero hnull.pos hadd
  apply of_length_getD
  · exact hnull.pos.trans_le (LoadedScenario.length_le_length_addString hadd)
  · rw [LoadedScenario.addString_getD_of_ne hadd hne.symm, hnull.getD_zero]

theorem withoutUnusedStrings : NullFirst scenario.withoutUnusedStrings := by
  apply of_length_getD
  · rw [LoadedScenario.withoutUnusedStrings, length_dropUnmarked]
    exact hnull.pos
  · rw [LoadedScenario.withoutUnusedStrings, getD_dropUnmarked, hnull.getD_zero, ite_self]

end

end NullFirst

/-- The tables and the ids of the editor fit the bit sets of
`deleteUnusedStrings`. -/
def TablesFit (scenario : LoadedScenario) : Prop :=
  scenario.str.strings.length ≤ maxStrings ∧ scenario.kstr.strings.length ≤ maxStrings ∧
    scenario.editorMarkOutOfRange = false

instance (scenario : LoadedScenario) : Decidable (TablesFit scenario) :=
  inferInstanceAs (Decidable (_ ∧ _))

theorem deleteUnusedStrings_of_fit {scenario : LoadedScenario} (hfit : TablesFit scenario) :
    scenario.deleteUnusedStrings = .ok scenario.withoutUnusedStrings := by
  obtain ⟨hstr, hkstr, hmarks⟩ := hfit
  rw [LoadedScenario.deleteUnusedStrings, if_neg]
  rw [hmarks]
  simp [hstr, hkstr]

theorem deleteUnusedStrings_of_not_fit {scenario : LoadedScenario} (hfit : ¬ TablesFit scenario) :
    scenario.deleteUnusedStrings = .error .undefinedBehavior := by
  rw [LoadedScenario.deleteUnusedStrings, if_pos]
  by_contra hnot
  apply hfit
  push Not at hnot
  exact ⟨hnot.1, hnot.2.1, Bool.eq_false_of_not_eq_true hnot.2.2⟩

theorem tablesFit_withoutUnusedStrings {scenario : LoadedScenario} (hfit : TablesFit scenario) :
    TablesFit scenario.withoutUnusedStrings := by
  obtain ⟨hstr, hkstr, hmarks⟩ := hfit
  refine ⟨?_, ?_, hmarks⟩
  · rw [LoadedScenario.withoutUnusedStrings, length_dropUnmarked]
    exact hstr
  · rw [LoadedScenario.withoutUnusedStrings, length_dropUnmarked]
    exact hkstr

/-- Adding a string does not make a table fit, or not fit. -/
theorem tablesFit_addString {scenario : LoadedScenario}
    (hadd : scenario.addString str = .ok (stringId, added)) :
    TablesFit added ↔ TablesFit scenario := by
  have hlonger := LoadedScenario.length_le_length_addString hadd
  obtain ⟨strings, rfl, -, hlength, -⟩ := LoadedScenario.addString_spec hadd
  change scenario.str.strings.length ≤ strings.length at hlonger
  have hle : strings.length ≤ maxStrings ↔ scenario.str.strings.length ≤ maxStrings := by
    omega
  exact and_congr hle Iff.rfl

theorem addString_lt {scenario : LoadedScenario}
    (hadd : scenario.addString str = .ok (stringId, added))
    (hfit : TablesFit scenario) : stringId < maxStrings := by
  obtain ⟨strings, -, hstored, hlength, -⟩ := LoadedScenario.addString_spec hadd
  have hlt := lt_length_of_getString hstored
  have hstr := hfit.1
  omega

/-- The scenario has changed in one slot only, which shows a name. -/
structure Shows (slot : ℕ) (location : Location) (name : ScStr)
    (scenario after : LoadedScenario) : Prop where
  keeps : KeepsOthers slot scenario after
  null : NullFirst after
  fit : TablesFit after
  locations : after.locations = scenario.locations.set slot location
  name : getLocationName after location = some name
  ids : ∀ flag, flag ≠ .location → after.gameStringIds flag = scenario.gameStringIds flag
  trig : after.trig = scenario.trig

section Naming

variable {scenario added : LoadedScenario} {slot stringId : ℕ}
  {location : Location} {str : ScStr}

/-- A location that is named by a string that was added for it. -/
theorem shows_addString (hnull : NullFirst scenario) (hfit : TablesFit scenario)
    (hadd : (setLocation scenario slot location).addString str = .ok (stringId, added)) :
    Shows slot { location with stringId := UInt16.ofNat stringId } (untilNul str) scenario
      (setLocation added slot
        { location with stringId := UInt16.ofNat stringId }) := by
  have hset := hnull.setLocation slot location
  have hkeeps : KeepsOthers slot scenario added :=
    (keepsOthers_setLocation scenario slot location).trans
      (keepsOthers_addString slot hset.pos hadd)
  have hadded : NullFirst added := hset.addString hadd
  have haddedFit : TablesFit added := (tablesFit_addString hadd).mpr hfit
  have hlt : stringId < 65536 := addString_lt hadd hfit
  obtain ⟨strings, rfl, hstored, -, -⟩ := LoadedScenario.addString_spec hadd
  refine ⟨hkeeps.trans (keepsOthers_setLocation _ _ _), hadded, haddedFit, ?_, ?_, ?_, rfl⟩
  · exact List.set_set _
  · change getString strings (UInt16.ofNat stringId).toNat = _
    rw [UInt16.toNat_ofNat_of_lt' hlt, hstored]
  · intro flag hflag
    cases flag with
    | location => exact absurd rfl hflag
    | _ => rfl

end Naming

section Shows

variable {scenario after : LoadedScenario} {slot : ℕ} {location : Location}
  {name : ScStr}

section

variable (hshows : Shows slot location name scenario after)

include hshows

theorem Shows.getElem? (hlt : slot < scenario.locations.length) :
    after.locations[slot]? = some location := by
  rw [hshows.locations, List.getElem?_set_self hlt]

theorem Shows.withoutUnusedStrings (hpos : 0 < slot) (hlt : slot < scenario.locations.length)
    (hname : location.stringId.toNat ≠ 0) :
    Shows slot location name scenario after.withoutUnusedStrings where
  keeps := hshows.keeps.trans (keepsOthers_withoutUnusedStrings slot hshows.null.getD_zero)
  null := hshows.null.withoutUnusedStrings
  fit := tablesFit_withoutUnusedStrings hshows.fit
  locations := hshows.locations
  name := by
    have hmarks := marksGameString_of_location hpos (hshows.getElem? hlt) hname
    rw [getLocationName, getString, LoadedScenario.getD_withoutUnusedStrings hmarks]
    exact hshows.name
  ids flag hflag := by
    rw [← hshows.ids flag hflag]
    cases flag <;> rfl
  trig := hshows.trig

/-- The scenario with the slot blank again. -/
def cleared (slot : ℕ) (after : LoadedScenario) : LoadedScenario :=
  (setLocation after slot blankLocation).withoutUnusedStrings

theorem Shows.keeps_cleared : KeepsOthers slot after (cleared slot after) :=
  (keepsOthers_setLocation after slot blankLocation).trans (keepsOthers_withoutUnusedStrings slot
      (hshows.null.setLocation slot blankLocation).getD_zero)

theorem Shows.null_cleared : NullFirst (cleared slot after) :=
  (hshows.null.setLocation slot blankLocation).withoutUnusedStrings

theorem Shows.fit_cleared : TablesFit (cleared slot after) :=
  tablesFit_withoutUnusedStrings hshows.fit

end

section Cleared

variable (hshows : Shows slot location name scenario after)
  (hblank : scenario.locations[slot]? = some blankLocation)
include hshows hblank

theorem Shows.cleared_locations : (cleared slot after).locations = scenario.locations := by
  change after.locations.set slot blankLocation = scenario.locations
  rw [hshows.locations, List.set_set]
  exact congrArg LoadedScenario.locations (setLocation_self hblank)

theorem Shows.cleared_marks (stringId : ℕ) : (cleared slot after).marksGameString .all stringId ↔
      scenario.marksGameString .all stringId := by
  have hids (flag : StringUserFlag) : (cleared slot after).gameStringIds flag =
        scenario.gameStringIds flag := by
    by_cases hflag : flag = .location
    · subst hflag
      change (cleared slot after).locations.tail.map _ = scenario.locations.tail.map _
      rw [hshows.cleared_locations hblank]
    · rw [← hshows.ids flag hflag]
      cases flag with
      | location => exact absurd rfl hflag
      | _ => rfl
  simp only [LoadedScenario.marksGameString, hids]

theorem Shows.slots_cleared (hnull : NullFirst scenario) (hpos : 0 < slot) :
    slots (cleared slot after) = slots scenario := by
  rw [slots_eq_iff hpos (hshows.keeps.trans hshows.keeps_cleared),
    hshows.cleared_locations hblank, hblank, Option.map_some, Option.map_some,
    slotOf, slotOf, hshows.null_cleared.name_blank, hnull.name_blank]

/-- The name can be added again: its string is still there, or its id is
free. -/
theorem Shows.addString_again (hname : location.stringId.toNat ≠ 0)
    (other : Location) (hother : other.stringId = 0)
    (huntil : untilNul name = name) :
    ∃ stringId added, (setLocation (cleared slot after) slot other).addString name =
        .ok (stringId, added) := by
  have hslot : (cleared slot after).locations[slot]? = some blankLocation := by
    rw [hshows.cleared_locations hblank, hblank]
  have hmarks (stringId : ℕ) : (setLocation (cleared slot after) slot other).marksGameString .all
        stringId ↔ scenario.marksGameString .all stringId :=
    (marksGameString_setLocation hslot hother stringId).trans (hshows.cleared_marks hblank stringId)
  have hset := hshows.null_cleared.setLocation slot other
  apply (LoadedScenario.addString_returns_iff hset.pos).mpr
  by_cases hused : scenario.marksGameString .all location.stringId.toNat
  · left
    intro hzero
    apply LoadedScenario.findString_eq_zero_iff.mp hzero location.stringId.toNat
      (Nat.pos_of_ne_zero hname)
    have hstays : (setLocation after slot blankLocation).marksGameString .all
          location.stringId.toNat :=
      (hshows.cleared_marks hblank _).mpr hused
    change getString (cleared slot after).str.strings _ = _
    rw [getString, cleared, LoadedScenario.getD_withoutUnusedStrings hstays, huntil]
    exact hshows.name
  · right
    exact ⟨_, Nat.pos_of_ne_zero hname, location.stringId.toNat_lt, mt (hmarks _).mp hused⟩

end Cleared

end Shows

/-- The action that undoes a creation deletes the location. -/
theorem reverse_create {after : LoadedScenario} {location : Location} (hpos : 0 < locationId)
    (hlocation : after.locations[locationId]? = some location)
    (hfit : TablesFit after) :
    (LocationAction.locationCreateDel locationId none []).reverse after =
      .ok ((deleteLocation after locationId).withoutUnusedStrings,
        .locationCreateDel locationId (some location)
          ((getLocationName after location).getD [])) := by
  have hdeleted : TablesFit (deleteLocation after locationId) := by
    rw [deleteLocation]
    split <;> exact hfit
  rw [LocationAction.reverse, getLocation_of_getElem? hpos hlocation]
  change (do
    let deleted ← Fault.ofHazard (deleteLocation after locationId).deleteUnusedStrings
    return (deleted, _)) = _
  rw [deleteUnusedStrings_of_fit hdeleted]
  rfl

theorem slots_ne_of_kept {scenario undone : LoadedScenario} {slot : ℕ}
    {location : Location} (hpos : 0 < slot)
    (hblank : scenario.locations[slot]? = some blankLocation)
    (hlocation : undone.locations[slot]? = some location)
    (hflags : location.elevationFlags ≠ 0) :
    slots undone ≠ slots scenario := by
  intro hslots
  obtain ⟨index, rfl⟩ := Nat.exists_eq_add_one_of_ne_zero hpos.ne'
  have hslot := congrArg (fun list => list[index]?) hslots
  simp only [getElem?_slots, hlocation, hblank, Option.map_some, Option.some.injEq] at hslot
  exact hflags (congrArg Slot.elevationFlags hslot)

theorem getElem?_deleteLocation_of_ne {scenario : LoadedScenario} {slot : ℕ}
    (hkept : Referenced scenario.trig locationId ∨ locationId ≠ slot) :
    (deleteLocation scenario locationId).locations[slot]? = scenario.locations[slot]? := by
  rw [deleteLocation]
  split
  · rfl
  · rename_i hdeleted
    rcases hkept with hreferenced | hne
    · exact absurd (.inl hreferenced) hdeleted
    · exact List.getElem?_set_ne hne

section Create

variable {scenario created : LoadedScenario} {slot : ℕ} {location : Location}
  {name : ScStr}

/-- The action deletes the location exactly if its slot fits 16 bits and no
trigger names it, and creates it again then. -/
theorem restoresFrom_create_iff (hnull : NullFirst scenario)
    (hblank : blankSlot scenario = some slot)
    (hshows : Shows slot location name scenario created)
    (hflags : location.elevationFlags ≠ 0)
    (hname : location.stringId.toNat ≠ 0) (huntil : untilNul name = name) :
    RestoresFrom (.locationCreateDel (u16 slot) none []) scenario created ↔
      slot < 65536 ∧ ¬ Referenced scenario.trig slot := by
  obtain ⟨hpos, hslot⟩ := blankSlot_spec hblank
  obtain ⟨hlt, -⟩ := List.getElem?_eq_some_iff.mp hslot
  have hlocation := hshows.getElem? hlt
  constructor
  · rintro ⟨undone, back, redone, again, hundo, hslots, -⟩
    by_contra hkept
    have hkept : Referenced created.trig (u16 slot) ∨ u16 slot ≠ slot := by
      rw [hshows.trig]
      by_cases hsame : u16 slot = slot
      · left
        rw [hsame]
        by_contra hunnamed
        apply hkept ⟨?_, hunnamed⟩
        rw [← hsame]
        exact Nat.mod_lt _ (by decide)
      · exact .inr hsame
    rw [LocationAction.reverse, Fault.bind_eq_ok_iff] at hundo
    obtain ⟨found, hfound, hundo⟩ := hundo
    rw [Fault.bind_eq_ok_iff] at hundo
    obtain ⟨deleted, hdeleted, hundo⟩ := hundo
    cases hundo
    rw [Fault.ofHazard_eq_ok_iff, LoadedScenario.deleteUnusedStrings] at hdeleted
    split at hdeleted
    · cases hdeleted
    · cases hdeleted
      apply slots_ne_of_kept hpos hslot _ hflags hslots
      exact (getElem?_deleteLocation_of_ne hkept).trans hlocation
  · rintro ⟨hfits, hunnamed⟩
    have hdelete : deleteLocation created slot = setLocation created slot blankLocation := by
      rw [deleteLocation, if_neg]
      rw [hshows.trig]
      exact not_or.mpr ⟨hunnamed, hpos.ne'⟩
    have hundo := reverse_create hpos hlocation hshows.fit
    rw [hdelete, hshows.name, Option.getD_some] at hundo
    have hblanked : blankSlot (cleared slot created) = some slot := by
      rw [blankSlot_congr (hshows.cleared_locations hslot), hblank]
    obtain ⟨stringId, added, hadd⟩ := hshows.addString_again hslot hname
      { location with stringId := 0 } rfl huntil
    have hredone := shows_addString hshows.null_cleared hshows.fit_cleared hadd
    refine ⟨cleared slot created, .locationCreateDel slot (some location) name,
      setLocation added slot
        { location with stringId := UInt16.ofNat stringId },
      .locationCreateDel slot none [], ?_,
      hshows.slots_cleared hslot hnull hpos, ?_, ?_⟩
    · rw [u16_of_lt hfits]
      exact hundo
    · rw [LocationAction.reverse, addLocation_of_blankSlot hblanked]
      change (do
        let result ← (((setLocation (cleared slot created) slot
          { location with stringId := 0 }).addString name).mapError Fault.thrown)
        return _) = _
      rw [hadd]
      change Except.ok (ite _ _ _, _) = _
      rw [if_neg hpos.ne']
    · have hlast : slot < (cleared slot created).locations.length := by
        rw [hshows.cleared_locations hslot]
        exact hlt
      rw [slots_eq_iff hpos (hshows.keeps_cleared.trans hredone.keeps),
        hredone.getElem? hlast, hlocation, Option.map_some, Option.map_some,
        slotOf, slotOf, hredone.name, hshows.name, huntil]
      rfl

end Create

/-- When a location that goes to a blank slot can be undone: the action holds
the slot, no trigger names it, and its name finds a string. -/
structure CreateMeets (scenario : LoadedScenario) (slot : ℕ) : Prop where
  fits : slot < 65536
  unnamed : ¬ Referenced scenario.trig slot
  room : findString scenario.str.strings (locationLabel slot) ≠ 0 ∨
    ∃ unused, 0 < unused ∧ unused < maxStrings ∧ ¬ scenario.marksGameString .all unused
  tables : TablesFit scenario

theorem setLocationName_of_addString {scenario added : LoadedScenario}
    {slot stringId : ℕ} {location : Location} {str : ScStr}
    (hadd : scenario.addString str = .ok (stringId, added))
    (hne : stringId ≠ 0) :
    setLocationName scenario slot location str = .ok (setLocation added slot
        { location with stringId := UInt16.ofNat stringId }) := by
  rw [setLocationName, addString, hadd]
  change Except.ok (ite _ _ _) = _
  rw [if_neg hne]

theorem createLocation_of_blankSlot {scenario : LoadedScenario} {slot : ℕ}
    (hblank : blankSlot scenario = some slot) (location : Location) :
    createLocation scenario location = do
      let named ← setLocationName (setLocation scenario slot location) slot
        location (locationLabel slot)
      let created ← Fault.ofHazard named.deleteUnusedStrings
      return (created, [] ++ [.locationCreateDel (u16 slot) none []]) := by
  rw [createLocation, addLocation_of_blankSlot hblank]
  exact if_pos (blankSlot_spec hblank).1.ne'

theorem restored_create {scenario : LoadedScenario} {slot : ℕ}
    {location : Location} (hnull : NullFirst scenario)
    (hblank : blankSlot scenario = some slot)
    (hname : location.stringId = 0) (hflags : location.elevationFlags ≠ 0) :
    RestoredIff (createLocation scenario location) scenario (CreateMeets scenario slot) := by
  obtain ⟨hpos, hslot⟩ := blankSlot_spec hblank
  obtain ⟨hlt, -⟩ := List.getElem?_eq_some_iff.mp hslot
  have hset := hnull.setLocation slot location
  have hmarks := marksGameString_setLocation hslot hname
  have hreturns := @LoadedScenario.addString_returns_iff (locationLabel slot) _ hset.pos
  simp only [hmarks] at hreturns
  rw [createLocation_of_blankSlot hblank]
  cases hadd : (setLocation scenario slot location).addString (locationLabel slot) with
  | error exception =>
      have hfails : setLocationName (setLocation scenario slot location) slot
          location (locationLabel slot) = .error (.thrown exception) := by
        rw [setLocationName, addString, hadd]
        rfl
      rw [hfails]
      refine RestoredIff.fails rfl fun hmeets => ?_
      obtain ⟨stringId, added, hadded⟩ := hreturns.mpr hmeets.room
      rw [hadd] at hadded
      cases hadded
  | ok result =>
      obtain ⟨stringId, added⟩ := result
      have hne := LoadedScenario.addString_ne_zero hset.pos hadd
      rw [setLocationName_of_addString hadd hne]
      by_cases hfit : TablesFit scenario
      · have hnamed := shows_addString hnull hfit hadd
        have hid : (UInt16.ofNat stringId).toNat ≠ 0 := by
          rw [UInt16.toNat_ofNat_of_lt' (addString_lt hadd hfit)]
          exact hne
        have hcreated := hnamed.withoutUnusedStrings hpos hlt hid
        change RestoredIff (do
          let created ← Fault.ofHazard (LoadedScenario.deleteUnusedStrings _)
          return (created, _)) _ _
        rw [deleteUnusedStrings_of_fit hnamed.fit]
        apply RestoredIff.records rfl
        rw [restoresFrom_create_iff hnull hblank hcreated hflags hid (untilNul_untilNul _)]
        constructor
        · rintro ⟨hfits, hunnamed⟩
          exact ⟨hfits, hunnamed, hreturns.mp ⟨stringId, added, hadd⟩, hfit⟩
        · rintro ⟨hfits, hunnamed, -, -⟩
          exact ⟨hfits, hunnamed⟩
      · have hunfit : ¬ TablesFit (setLocation added slot
            { location with stringId := UInt16.ofNat stringId }) :=
          mt (tablesFit_addString hadd).mp hfit
        change RestoredIff (do
          let created ← Fault.ofHazard (LoadedScenario.deleteUnusedStrings _)
          return (created, _)) _ _
        rw [deleteUnusedStrings_of_not_fit hunfit]
        exact RestoredIff.fails rfl fun hmeets => hfit hmeets.tables

section Delete

variable {scenario deleted : LoadedScenario} {locationId : ℕ}

theorem deleteString_str_zero (hnull : NullFirst scenario) (stringId : ℕ) :
    NullFirst (scenario.deleteString stringId .both true) := by
  have hset : NullFirst (scenario.withStrings (scenario.str.strings.set stringId none)) := by
    apply NullFirst.of_length_getD
    · rw [LoadedScenario.withStrings, List.length_set]
      exact hnull.pos
    · rw [LoadedScenario.withStrings, List.getD_eq_getElem?_getD, List.getElem?_set, hnull]
      split
      · split <;> rfl
      · rfl
  have hgame : NullFirst (scenario.deleteGameString stringId true) := by
    rw [LoadedScenario.deleteGameString]
    split
    · change NullFirst (scenario.strDeleteString stringId true)
      rw [LoadedScenario.strDeleteString]
      split
      · exact hset
      · exact hnull
    · exact hnull
  change NullFirst ((scenario.deleteGameString stringId true).deleteEditorString stringId true)
  rw [LoadedScenario.deleteEditorString]
  split
  · change NullFirst (LoadedScenario.kstrDeleteString _ stringId true)
    rw [LoadedScenario.kstrDeleteString]
    split <;> exact hgame
  · exact hgame

theorem deleteString_blank (hblank : scenario.locations[locationId]? = some blankLocation)
    (stringId : ℕ) :
    (scenario.deleteString stringId .both true).locations[locationId]? = some blankLocation := by
  have hlocations : (scenario.deleteString stringId .both true).locations =
      (scenario.deleteGameString stringId true).locations := by
    change ((scenario.deleteGameString stringId true).deleteEditorString
      stringId true).locations = _
    rw [LoadedScenario.deleteEditorString]
    split
    · change (LoadedScenario.kstrDeleteString _ stringId true).locations = _
      rw [LoadedScenario.kstrDeleteString]
      split <;> rfl
    · rfl
  have hstr : (scenario.strDeleteString stringId true).locations =
      scenario.locations := by
    rw [LoadedScenario.strDeleteString]
    split <;> rfl
  have hclear : (clear16 stringId 0) = 0 := by
    rw [clear16]
    split <;> rfl
  rw [hlocations, LoadedScenario.deleteGameString]
  split
  · change ((scenario.strDeleteString stringId true).locations.take 1 ++
      (scenario.strDeleteString stringId true).locations.tail.map _)[locationId]? = _
    rw [hstr]
    cases hcase : scenario.locations with
    | nil =>
        rw [hcase] at hblank
        cases hblank
    | cons first rest =>
        rw [hcase] at hblank
        cases locationId with
        | zero => exact hblank
        | succ index =>
            rw [List.getElem?_cons_succ] at hblank
            change (rest.map _)[index]? = _
            rw [List.getElem?_map, hblank]
            simp only [Option.map_some, blankLocation, hclear]
  · exact hblank

/-- Redoing creates a blank location with an empty name, which the deletion did
not leave. -/
theorem not_restoresFrom_delete (hpos : 0 < locationId) (hnull : NullFirst deleted)
    (hblank : deleted.locations[locationId]? = some blankLocation) :
    ¬ RestoresFrom (.locationCreateDel locationId none []) scenario
      deleted := by
  rintro ⟨undone, back, redone, again, hundo, -, hredo, hslots⟩
  by_cases hfit : TablesFit deleted
  · rw [reverse_create hpos hblank hfit] at hundo
    cases hundo
    rw [hnull.name_blank] at hredo
    let undone := (deleteLocation deleted locationId).withoutUnusedStrings
    have hlocations : undone.locations = deleted.locations := by
      change (deleteLocation deleted locationId).locations = _
      rw [deleteLocation]
      split
      · rfl
      · rw [setLocation_self hblank]
    have hdeleted : NullFirst (deleteLocation deleted locationId) ∧
        TablesFit (deleteLocation deleted locationId) := by
      rw [deleteLocation]
      split <;> exact ⟨hnull, hfit⟩
    have hundone : NullFirst undone := hdeleted.1.withoutUnusedStrings
    have hundoneFit : TablesFit undone := tablesFit_withoutUnusedStrings hdeleted.2
    have hstillBlank : undone.locations[locationId]? = some blankLocation := by
      rw [hlocations]
      exact hblank
    obtain ⟨first, hfirst⟩ := exists_blankSlot hpos hstillBlank
    obtain ⟨hfirstPos, hfirstBlank⟩ := blankSlot_spec hfirst
    obtain ⟨hlt, -⟩ := List.getElem?_eq_some_iff.mp hfirstBlank
    rw [LocationAction.reverse, addLocation_of_blankSlot hfirst] at hredo
    change (do
      let result ← (((setLocation undone first blankLocation).addString []).mapError Fault.thrown)
      return _) = _ at hredo
    rw [Fault.bind_eq_ok_iff] at hredo
    obtain ⟨⟨stringId, added⟩, hadd, hredo⟩ := hredo
    rw [Fault.mapError_eq_ok_iff] at hadd
    have hshows := shows_addString hundone hundoneFit hadd
    cases hredo
    rw [if_neg hfirstPos.ne'] at hslots
    obtain ⟨index, rfl⟩ := Nat.exists_eq_add_one_of_ne_zero hfirstPos.ne'
    have hslot := congrArg (fun list => list[index]?) hslots
    rw [hlocations] at hfirstBlank
    simp only [getElem?_slots, hshows.getElem? hlt, hfirstBlank,
      Option.map_some, Option.some.injEq] at hslot
    have hname := congrArg Slot.name hslot
    rw [slotOf, slotOf, hshows.name, hnull.name_blank] at hname
    cases hname
  · have hunfit : ¬ TablesFit (deleteLocation deleted locationId) := by
      rw [deleteLocation]
      split <;> exact hfit
    rw [LocationAction.reverse, getLocation_of_getElem? hpos hblank] at hundo
    change (do
      let result ← Fault.ofHazard (deleteLocation deleted locationId).deleteUnusedStrings
      return _) = _ at hundo
    rw [deleteUnusedStrings_of_not_fit hunfit] at hundo
    cases hundo

theorem restored_delete (hnull : NullFirst scenario) (hpos : 0 < locationId)
    (hlt : locationId < scenario.locations.length) :
    RestoredIff (deleteSelected locationId scenario) scenario False := by
  obtain ⟨location, hlocation⟩ : ∃ location, scenario.locations[locationId]? = some location :=
    ⟨_, List.getElem?_eq_getElem hlt⟩
  have hcleared := getElem?_setLocation_self hlocation blankLocation
  have hnullCleared := hnull.setLocation locationId blankLocation
  rw [deleteSelected, getLocation_of_getElem? hpos hlocation]
  refine @RestoredIff.records _ _ _ _ [] _ rfl ?_
  rw [iff_false]
  apply not_restoresFrom_delete hpos
  · split
    · exact hnullCleared
    · exact deleteString_str_zero hnullCleared _
  · split
    · exact hcleared
    · exact deleteString_blank hcleared _

end Delete

namespace LocationCommand

/-- The command changes a location: there is a blank slot for a new one, and
otherwise the selected one exists. -/
def Edits (scenario : LoadedScenario) : LocationCommand → Prop
  | drag flags selectedLocation _ _ _ _ =>
      if flags = .none then
        blankSlot scenario ≠ none
      else
        Selected selectedLocation ∧ selectedLocation.toNat < scenario.locations.length
  | delete selectedLocation =>
      Selected selectedLocation ∧ selectedLocation.toNat < scenario.locations.length

/-- The commands that can be undone.  A drag of a side is, unless it also moves
the top or the bottom of the location. -/
def Meets (grid : Grid) (scenario : LoadedScenario) : LocationCommand → Prop
  | drag flags selectedLocation _ startY _ endY =>
      if flags = .none then
        ∀ slot, blankSlot scenario = some slot → CreateMeets scenario slot
      else
        flags = .middle ∨ (flags.east = false ∧ flags.west = false) ∨ ∀ location,
            scenario.locations[selectedLocation.toNat]? = some location →
              (resizeEdge grid selectedLocation.toNat
                (flags.verticalEdge location) (endY - startY) location).1 =
                location
  | delete _ => False

end LocationCommand

theorem selected_pos {selectedLocation : UInt16}
    (hselected : Selected selectedLocation) : 0 < selectedLocation.toNat := by
  apply Nat.pos_of_ne_zero
  intro hzero
  exact hselected.2 (UInt16.toNat_inj.mp hzero)

/-- A command is restored by one undo and one redo exactly under its
condition. -/
theorem restores_iff_meets (grid : Grid) (command : LocationCommand) (map : GuiMap reversibles)
    (hedits : command.Edits (map.content .locationChange))
    (hnull : NullFirst (map.content .locationChange)) :
    Restores grid command map ↔ command.Meets grid (map.content .locationChange) := by
  apply restores_iff_of_restoredIff
  generalize map.content .locationChange = scenario at hedits hnull ⊢
  change LoadedScenario at scenario
  cases command with
  | drag flags selectedLocation startX startY endX endY =>
      simp only [LocationCommand.Edits] at hedits
      simp only [LocationCommand.change, LocationCommand.Meets]
      by_cases hnone : flags = .none
      · rw [if_pos hnone] at hedits ⊢
        rw [if_pos hnone]
        obtain ⟨slot, hslot⟩ := Option.ne_none_iff_exists'.mp hedits
        have hmeets : (∀ other, blankSlot scenario = some other →
            CreateMeets scenario other) ↔ CreateMeets scenario slot := by
          rw [hslot]
          simp
        rw [hmeets]
        apply restored_create hnull hslot rfl
        change (63 : UInt16) ≠ 0
        decide
      · rw [if_neg hnone] at hedits ⊢
        obtain ⟨hselected, hlt⟩ := hedits
        rw [if_neg hnone, if_pos hselected]
        have hpos := selected_pos hselected
        have hlocation := List.getElem?_eq_getElem hlt
        by_cases hmiddle : flags = .middle
        · subst hmiddle
          rw [eq_self, true_or]
          exact restored_move _ _ hpos hlocation
        · rw [or_iff_right hmiddle, hlocation]
          simp only [Option.some.injEq, forall_eq']
          exact restored_resize _ _ hnone hmiddle hpos hlocation
  | delete selectedLocation =>
      obtain ⟨hselected, hlt⟩ := hedits
      rw [LocationCommand.change, if_pos hselected]
      exact restored_delete hnull (selected_pos hselected) hlt

/-- A scenario with one location, named by a string. -/
def oneLocation : LoadedScenario :=
  { bareScenario [] [] with
    locations := [blankLocation, ⟨32, 32, 64, 64, 1, 63⟩]
    str := ⟨[none, some [66]], [], 4, 0, []⟩ }

def oneLocationMap : GuiMap reversibles := GuiMap.opened fun type =>
    match type with
    | .locationChange => oneLocation
    | .tileChange => smallMap [] .tileChange
    | .unitChange => smallMap [] .unitChange

theorem edits_oneLocation : (LocationCommand.drag .middle 1 40 40 50 60).Edits oneLocation := by
  have hgrabbed : LocSelFlags.middle ≠ .none := by decide
  have hselected : Selected 1 := by decide
  rw [LocationCommand.Edits, if_neg hgrabbed]
  exact ⟨hselected, Nat.one_lt_two⟩

theorem meets_oneLocation (grid : Grid) :
    (LocationCommand.drag .middle 1 40 40 50 60).Meets grid oneLocation := by
  have hgrabbed : LocSelFlags.middle ≠ .none := by decide
  rw [LocationCommand.Meets, if_neg hgrabbed]
  exact .inl rfl

/-- Moving the location, without a grid. -/
theorem restores_oneLocation : (LocationCommand.drag .middle 1 40 40 50 60).Edits oneLocation ∧
      NullFirst oneLocation ∧
      Restores (fun _ _ => none) (.drag .middle 1 40 40 50 60)
        oneLocationMap :=
  ⟨edits_oneLocation, rfl, (restores_iff_meets _ _ oneLocationMap edits_oneLocation rfl).mpr
      (meets_oneLocation _)⟩

/-- Deleting it. -/
theorem not_restores_delete : (LocationCommand.delete 1).Edits oneLocation ∧
      ¬ Restores (fun _ _ => none) (.delete 1) oneLocationMap := by
  have hselected : Selected 1 := by decide
  have hrestored : RestoredIff ((LocationCommand.delete 1).change (fun _ _ => none) oneLocation)
      oneLocation False := by
    rw [LocationCommand.change, if_pos hselected]
    exact restored_delete rfl Nat.one_pos Nat.one_lt_two
  exact ⟨⟨hselected, Nat.one_lt_two⟩, fun hrestores =>
    (restores_iff_of_restoredIff hrestored).mp hrestores⟩

end Chkdraft.Editor
