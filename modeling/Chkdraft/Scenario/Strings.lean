import Chkdraft.Core.Fault
import Chkdraft.Core.Scan
import Chkdraft.Scenario.StringUsers
import Mathlib.Data.List.Range

/-!
# Operations on the string tables

Adding a game string, growing and defragmenting its table, and deleting the
strings nobody refers to.  Ids are looked up through the marks of the string
users, so each operation depends on the whole scenario.
-/

namespace Chkdraft.Scenario

open Chk Scan Sections

variable {strings : List (Option ScStr)} {stringId : ℕ} {str : ScStr}
  {added scenario : LoadedScenario}

/-- The exceptions thrown by the operations modelled here and by their
callers. -/
inductive Exception where
  | outOfRange
  | maximumStringsExceeded
  | insufficientStringCapacity (numStrings requestedCapacity : ℕ)
  | invalidArgument
deriving DecidableEq, Repr

/-- `getString<RawString>`: the characters up to the first NUL, if the id is
stored. -/
def getString (strings : List (Option ScStr)) (stringId : ℕ) : Option ScStr :=
  (strings.getD stringId none).map untilNul

/-- `findString<RawString>`, 0 if there is none. -/
def findString (strings : List (Option ScStr)) (str : ScStr) : ℕ :=
  ((List.range strings.length).find? fun stringId =>
    0 < stringId ∧ getString strings stringId = some (untilNul str)).getD 0

/-- Null every string whose bit is not set. -/
def dropUnmarked {A : Type*} (marked : ℕ → Bool) (strings : List (Option A)) : List (Option A) :=
  strings.mapIdx fun stringId string =>
    if marked stringId then string else none

/-- Growing pushes one entry too many, which shrinking pops again. -/
def resize (strings : List (Option ScStr)) (stringCapacity : ℕ) : List (Option ScStr) :=
  (strings ++ List.replicate (stringCapacity + 1 - strings.length) none).take stringCapacity

/-- One round of `defragment`: an empty id takes the next stored string, which
also stays where it was. -/
def defragmentAt (state : List (Option ScStr) × List (ℕ × ℕ)) (stringId : ℕ) :
    List (Option ScStr) × List (ℕ × ℕ) :=
  let (strings, remappings) := state
  if strings.getD stringId none = none then
    let candidates := List.range' (stringId + 1) (strings.length - (stringId + 1))
    match candidates.find? fun other => strings.getD other none ≠ none with
    | some other =>
        (strings.set stringId (strings.getD other none), remappings ++ [(other, stringId)])
    | none => state
  else
    state

/-- The game strings the users of a kind resolve to; id 0 is no string. -/
def gameContents (scenario : LoadedScenario) (flag : StringUserFlag) : List (Option ScStr) :=
  (scenario.gameStringIds flag).map fun stringId =>
    if stringId = 0 then none else getString scenario.str.strings stringId

/-- The editor strings the users of a kind resolve to. -/
def editorContents (scenario : LoadedScenario) (flag : StringUserFlag) :
    List (Option EditorString) :=
  (scenario.editorStringIds flag).map fun stringId =>
    if stringId = 0 then none else scenario.kstr.strings.getD stringId none

/-- A `std::map` that keeps the first value inserted for a key. -/
def remapped (remappings : List (ℕ × ℕ)) (stringId : ℕ) : ℕ :=
  match remappings.find? fun entry => entry.1 = stringId with
  | some entry => entry.2
  | none => stringId

def remap16 (remappings : List (ℕ × ℕ)) (stringId : UInt16) : UInt16 :=
  UInt16.ofNat (remapped remappings stringId.toNat)

def remap32 (remappings : List (ℕ × ℕ)) (stringId : UInt32) : UInt32 :=
  UInt32.ofNat (remapped remappings stringId.toNat)

/-- `Action::remapStringIds` and `remapBriefingStringIds`, which differ in the
types that use a string or a sound. -/
def remapAction (usesString usesSound : UInt8 → Bool)
    (remappings : List (ℕ × ℕ)) (action : Action) : Action :=
  { action with
    stringId :=
      if usesString action.actionType then remap32 remappings action.stringId
      else action.stringId
    soundStringId :=
      if usesSound action.actionType then
        remap32 remappings action.soundStringId
      else action.soundStringId }

def remapTrigger (usesString usesSound : UInt8 → Bool)
    (remappings : List (ℕ × ℕ)) (trigger : Trigger) : Trigger :=
  { trigger with
    actions := trigger.actions.map (remapAction usesString usesSound remappings) }

namespace LoadedScenario

/-- `Strings::remapStringIds` for game storage. -/
def remapStringIds (scenario : LoadedScenario) (remappings : List (ℕ × ℕ)) : LoadedScenario :=
  { scenario with
    scenarioNameStringId := remap16 remappings scenario.scenarioNameStringId
    scenarioDescriptionStringId := remap16 remappings scenario.scenarioDescriptionStringId
    forceString := scenario.forceString.map (remap16 remappings)
    unisName := scenario.unisName.map (remap16 remappings)
    unixName := scenario.unixName.map (remap16 remappings)
    locations := scenario.locations.take 1 ++ scenario.locations.tail.map fun location =>
        { location with stringId := remap16 remappings location.stringId }
    soundPath := scenario.soundPath.map (remap32 remappings)
    switchName := scenario.switchName.map (remap32 remappings)
    trig := scenario.trig.map (remapTrigger actionUsesStringArg actionUsesSoundArg remappings)
    mbrf := scenario.mbrf.map
      (remapTrigger briefingActionUsesStringArg briefingActionUsesSoundArg remappings) }

/-- The scenario with other game strings. -/
def withStrings (scenario : LoadedScenario) (strings : List (Option ScStr)) : LoadedScenario :=
  { scenario with str := { scenario.str with strings := strings } }

/-- `StrSection::defragment`, from the lowest id on; the users follow the strings
that were moved. -/
def defragment (scenario : LoadedScenario) : LoadedScenario :=
  let (strings, remappings) :=
    (List.range scenario.str.strings.length).foldl defragmentAt (scenario.str.strings, [])
  (scenario.withStrings strings).remapStringIds remappings

/-- The ids `markValidUsedStrings` leaves marked: used and stored. -/
def validUsedStringIds (scenario : LoadedScenario) : List ℕ :=
  (List.range maxStrings).filter fun stringId =>
    scenario.marksGameString .all stringId ∧ scenario.str.strings.getD stringId none ≠ none

/-- `StrSection::setCapacity` with automatic defragmentation. -/
def setCapacity (scenario : LoadedScenario) (stringCapacity : ℕ) :
    Except Exception LoadedScenario :=
  if maxStrings < stringCapacity then
    .error .maximumStringsExceeded
  else
    let used := scenario.validUsedStringIds
    if stringCapacity < used.length then
      .error (.insufficientStringCapacity used.length stringCapacity)
    else
      let scenario :=
        if stringCapacity < used.getLastD 0 then scenario.defragment
        else scenario
      .ok (scenario.withStrings (resize scenario.str.strings stringCapacity))

/-- `getNextUnusedStringId`, also beyond the capacity; 0 if every id is used. -/
def nextUnusedStringId (scenario : LoadedScenario) : ℕ :=
  ((List.range' 1 (maxStrings - 1)).find? fun stringId =>
    ¬ scenario.marksGameString .all stringId).getD 0

/-- `StrSection::addString<RawString>`. -/
def addString (scenario : LoadedScenario) (str : ScStr) : Except Exception (ℕ × LoadedScenario) :=
  let stringId := findString scenario.str.strings str
  if stringId ≠ 0 then
    .ok (stringId, scenario)
  else
    let next := scenario.nextUnusedStringId
    let grown :=
      if scenario.str.strings.length ≤ next then
        scenario.setCapacity (next + 1)
      else if next = 0 then
        .error .maximumStringsExceeded
      else
        .ok scenario
    grown.map fun scenario =>
      (next, scenario.withStrings (scenario.str.strings.set next (some str)))

/-- The scenario with the strings of both tables that are in use. -/
def withoutUnusedStrings (scenario : LoadedScenario) : LoadedScenario :=
  { scenario with
    str :=
      { scenario.str with
        strings := dropUnmarked (fun stringId => scenario.marksGameString .all stringId)
          scenario.str.strings }
    kstr :=
      { scenario.kstr with
        strings := dropUnmarked (fun stringId => scenario.marksEditorString .all stringId)
          scenario.kstr.strings } }

/-- `Strings::deleteUnusedStrings(Both)`.  A table longer than the bit set, or
an editor id outside it, is an access outside the set. -/
def deleteUnusedStrings (scenario : LoadedScenario) : Except Hazard LoadedScenario :=
  if maxStrings < scenario.str.strings.length ∨ maxStrings < scenario.kstr.strings.length ∨
      scenario.editorMarkOutOfRange = true then
    .error .undefinedBehavior
  else
    .ok scenario.withoutUnusedStrings

end LoadedScenario

theorem getD_dropUnmarked {A : Type*} (marked : ℕ → Bool)
    (strings : List (Option A)) (stringId : ℕ) :
    (dropUnmarked marked strings).getD stringId none =
      if marked stringId then strings.getD stringId none else none := by
  rw [dropUnmarked, List.getD_eq_getElem?_getD, List.getElem?_mapIdx, List.getD_eq_getElem?_getD]
  cases strings[stringId]? with
  | none => simp
  | some string => by_cases hmarked : marked stringId <;> simp [hmarked]

@[simp]
theorem length_dropUnmarked {A : Type*} (marked : ℕ → Bool) (strings : List (Option A)) :
    (dropUnmarked marked strings).length = strings.length :=
  List.length_mapIdx

/-- Nothing is dropped exactly when every stored string is marked. -/
theorem dropUnmarked_eq_self_iff {A : Type*} (marked : ℕ → Bool) (strings : List (Option A)) :
    dropUnmarked marked strings = strings ↔
      ∀ stringId, strings.getD stringId none ≠ none → marked stringId = true := by
  constructor
  · intro heq stringId hstored
    have hget := getD_dropUnmarked marked strings stringId
    rw [heq] at hget
    by_contra hunmarked
    rw [if_neg hunmarked] at hget
    exact hstored hget
  · intro hmarked
    apply List.ext_getElem (length_dropUnmarked marked strings)
    intro stringId hleft hright
    have hget := getD_dropUnmarked marked strings stringId
    rw [List.getD_eq_getElem _ _ hleft, List.getD_eq_getElem _ _ hright] at hget
    rw [hget]
    split
    · rfl
    · rename_i hunmarked
      by_contra hstored
      apply hunmarked (hmarked stringId _)
      rw [List.getD_eq_getElem _ _ hright]
      exact Ne.symm hstored

@[simp]
theorem length_resize (strings : List (Option ScStr)) (stringCapacity : ℕ) :
    (resize strings stringCapacity).length = stringCapacity := by
  rw [resize, List.length_take, List.length_append, List.length_replicate]
  omega

theorem getD_resize (strings : List (Option ScStr)) (stringCapacity stringId : ℕ) :
    (resize strings stringCapacity).getD stringId none =
      if stringId < stringCapacity then strings.getD stringId none
      else none := by
  rw [resize, List.getD_eq_getElem?_getD, List.getElem?_take]
  split
  · rcases Nat.lt_or_ge stringId strings.length with hlt | hge
    · rw [List.getElem?_append_left hlt, ← List.getD_eq_getElem?_getD]
    · rw [List.getElem?_append_right hge, List.getElem?_replicate,
        List.getD_eq_default strings _ hge]
      split <;> rfl
  · rfl

theorem getString_eq_some_iff : getString strings stringId = some str ↔
      ∃ stored, strings.getD stringId none = some stored ∧ untilNul stored = str := by
  rw [getString, Option.map_eq_some_iff]

theorem lt_length_of_getString (hstring : getString strings stringId = some str) :
    stringId < strings.length := by
  by_contra hge
  rw [getString, List.getD_eq_default _ _ (Nat.le_of_not_lt hge)] at hstring
  cases hstring

theorem getString_findString (hfound : findString strings str ≠ 0) :
    getString strings (findString strings str) = some (untilNul str) := by
  rw [findString] at hfound ⊢
  cases hfind : (List.range strings.length).find? fun stringId =>
      0 < stringId ∧ getString strings stringId = some (untilNul str) with
  | none =>
      rw [hfind] at hfound
      exact absurd rfl hfound
  | some stringId =>
      have hmatch := List.find?_some hfind
      simp only [decide_eq_true_eq] at hmatch
      exact hmatch.2

namespace LoadedScenario

@[simp]
theorem gameStringIds_withStrings (scenario : LoadedScenario)
    (strings : List (Option ScStr)) (flag : StringUserFlag) :
    (scenario.withStrings strings).gameStringIds flag = scenario.gameStringIds flag := by
  cases flag <;> rfl

@[simp]
theorem marksGameString_withStrings (scenario : LoadedScenario)
    (strings : List (Option ScStr)) (userMask : UserMask) (stringId : ℕ) :
    (scenario.withStrings strings).marksGameString userMask stringId ↔
      scenario.marksGameString userMask stringId := by
  simp only [marksGameString, gameStringIds_withStrings]

theorem getD_withoutUnusedStrings (hmarks : scenario.marksGameString .all stringId) :
    scenario.withoutUnusedStrings.str.strings.getD stringId none =
      scenario.str.strings.getD stringId none := by
  rw [withoutUnusedStrings, getD_dropUnmarked]
  simp only [decide_eq_true_eq]
  exact if_pos hmarks

theorem getD_withoutUnusedEditorStrings (hmarks : scenario.marksEditorString .all stringId) :
    scenario.withoutUnusedStrings.kstr.strings.getD stringId none =
      scenario.kstr.strings.getD stringId none := by
  rw [withoutUnusedStrings, getD_dropUnmarked]
  simp only [decide_eq_true_eq]
  exact if_pos hmarks

theorem lt_of_mem_validUsedStringIds (hmem : stringId ∈ scenario.validUsedStringIds) :
    stringId < scenario.str.strings.length := by
  rw [validUsedStringIds, List.mem_filter, decide_eq_true_eq] at hmem
  by_contra hge
  exact hmem.2.2 (List.getD_eq_default _ _ (Nat.le_of_not_lt hge))

/-- A table with at most one entry above the capacity has no more used strings
than the capacity, and none of a higher id. -/
theorem validUsedStringIds_le {stringCapacity : ℕ}
    (hle : scenario.str.strings.length ≤ stringCapacity + 1) :
    scenario.validUsedStringIds.length ≤ stringCapacity ∧
      scenario.validUsedStringIds.getLastD 0 ≤ stringCapacity := by
  have hnodup : scenario.validUsedStringIds.Nodup := List.nodup_range.filter _
  have hinside : ∀ used ∈ scenario.validUsedStringIds, 0 < used ∧ used ≤ stringCapacity := by
    intro used hused
    have hlt := lt_of_mem_validUsedStringIds hused
    rw [validUsedStringIds, List.mem_filter, decide_eq_true_eq] at hused
    exact ⟨hused.2.1.1, by omega⟩
  constructor
  · have hsubset : scenario.validUsedStringIds ⊆ List.range' 1 stringCapacity := by
      intro used hused
      have hused := hinside used hused
      exact List.mem_range'_1.mpr (by omega)
    simpa using (hnodup.subperm hsubset).length_le
  · rcases List.eq_nil_or_concat scenario.validUsedStringIds with
      hnil | ⟨front, last, hconcat⟩
    · simp [hnil]
    · have hmem : last ∈ scenario.validUsedStringIds := by simp [hconcat]
      rw [hconcat]
      simpa using (hinside last hmem).2

/-- Growing never defragments: no stored id is beyond the new capacity. -/
theorem setCapacity_succ (hle : scenario.str.strings.length ≤ stringId)
    (hlt : stringId < maxStrings) :
    scenario.setCapacity (stringId + 1) = .ok (scenario.withStrings
        (resize scenario.str.strings (stringId + 1))) := by
  have hroom : scenario.str.strings.length ≤ stringId + 1 + 1 := by omega
  obtain ⟨hcount, hlast⟩ := validUsedStringIds_le hroom
  rw [setCapacity, if_neg (by omega), if_neg (by omega), if_neg (by omega)]

theorem nextUnusedStringId_spec (scenario : LoadedScenario) :
    scenario.nextUnusedStringId < maxStrings ∧
      ¬ scenario.marksGameString .all scenario.nextUnusedStringId := by
  rw [nextUnusedStringId]
  cases hfind : (List.range' 1 (maxStrings - 1)).find? fun stringId =>
      ¬ scenario.marksGameString .all stringId with
  | none => exact ⟨by decide, fun hmarks => absurd hmarks.1 (Nat.lt_irrefl 0)⟩
  | some stringId =>
      have hunused := List.find?_some hfind
      have hmem := List.mem_of_find?_eq_some hfind
      rw [List.mem_range'_1] at hmem
      have hmax : maxStrings = 65536 := rfl
      exact ⟨by simp only [Option.getD_some]; omega, by simpa using hunused⟩

theorem nextUnusedStringId_eq_zero_iff (scenario : LoadedScenario) :
    scenario.nextUnusedStringId = 0 ↔ ∀ stringId, 0 < stringId → stringId < maxStrings →
        scenario.marksGameString .all stringId := by
  have hmax : maxStrings = 65536 := rfl
  rw [nextUnusedStringId]
  cases hfind : (List.range' 1 (maxStrings - 1)).find? fun stringId =>
      ¬ scenario.marksGameString .all stringId with
  | none =>
      rw [List.find?_eq_none] at hfind
      refine iff_of_true rfl fun stringId hpos hlt => ?_
      simpa using hfind stringId (List.mem_range'_1.mpr (by omega))
  | some stringId =>
      have hunused := List.find?_some hfind
      have hmem := List.mem_of_find?_eq_some hfind
      rw [List.mem_range'_1] at hmem
      simp only [decide_eq_true_eq] at hunused
      refine iff_of_false ?_ fun hall => ?_
      · simp only [Option.getD_some]
        omega
      · exact hunused (hall stringId (by omega) (by omega))

/-- What `addString` returns: a stored string, or the first unused id of a table
that was grown up to it if necessary. -/
theorem addString_cases (hadd : scenario.addString str = .ok (stringId, added)) :
    stringId = findString scenario.str.strings str ∧ stringId ≠ 0 ∧ added = scenario ∨
      stringId = scenario.nextUnusedStringId ∧ ∃ strings : List (Option ScStr),
          added = scenario.withStrings (strings.set stringId (some str)) ∧
          stringId < strings.length ∧
          strings.length ≤ max scenario.str.strings.length maxStrings ∧
          ∀ other, strings.getD other none = scenario.str.strings.getD other none := by
  rw [addString] at hadd
  simp only at hadd
  split at hadd
  case isTrue hfound =>
    cases hadd
    exact .inl ⟨rfl, hfound, rfl⟩
  case isFalse =>
    right
    obtain ⟨hlt, -⟩ := scenario.nextUnusedStringId_spec
    rw [Fault.map_eq_ok_iff] at hadd
    obtain ⟨grown, hgrown, hpair⟩ := hadd
    cases hpair
    refine ⟨rfl, ?_⟩
    split at hgrown
    case isTrue hle =>
      rw [setCapacity_succ hle hlt] at hgrown
      cases hgrown
      refine ⟨_, rfl, ?_, ?_, ?_⟩
      · simp [withStrings]
      · simp only [withStrings, length_resize]
        omega
      · intro other
        rw [withStrings, getD_resize]
        split
        · rfl
        · rename_i hbeyond
          rw [List.getD_eq_default _ _ (by omega)]
    case isFalse hroom =>
      split at hgrown
      · cases hgrown
      · cases hgrown
        exact ⟨_, rfl, Nat.lt_of_not_le hroom, Nat.le_max_left _ _, fun _ => rfl⟩

/-- Adding a string stores it and touches no string in use. -/
theorem addString_spec (hadd : scenario.addString str = .ok (stringId, added)) :
    ∃ strings, added = scenario.withStrings strings ∧
      getString strings stringId = some (untilNul str) ∧
      strings.length ≤ max scenario.str.strings.length maxStrings ∧
      ∀ other, scenario.marksGameString .all other →
        strings.getD other none = scenario.str.strings.getD other none := by
  rcases addString_cases hadd with
    ⟨hfound, hne, rfl⟩ | ⟨hnext, strings, rfl, hlt, hlength, hsame⟩
  · refine ⟨added.str.strings, rfl, ?_, Nat.le_max_left _ _, fun _ _ => rfl⟩
    rw [hfound]
    exact getString_findString (hfound ▸ hne)
  · refine ⟨_, rfl, ?_, by simpa using hlength, fun other hmarks => ?_⟩
    · rw [getString, List.getD_eq_getElem _ _ (by simpa using hlt)]
      simp
    · have hne : other ≠ stringId := by
        rintro rfl
        exact scenario.nextUnusedStringId_spec.2 (hnext ▸ hmarks)
      rw [List.getD_eq_getElem?_getD, List.getElem?_set_ne (Ne.symm hne),
        ← List.getD_eq_getElem?_getD]
      exact hsame other

/-- A table with an entry for id 0 takes a string exactly if it holds it or some
id is free. -/
theorem addString_returns_iff (hentry : 0 < scenario.str.strings.length) :
    (∃ stringId added, scenario.addString str = .ok (stringId, added)) ↔
      findString scenario.str.strings str ≠ 0 ∨ ∃ unused, 0 < unused ∧ unused < maxStrings ∧
          ¬ scenario.marksGameString .all unused := by
  have hnext : scenario.nextUnusedStringId ≠ 0 ↔ ∃ unused, 0 < unused ∧ unused < maxStrings ∧
        ¬ scenario.marksGameString .all unused := by
    rw [Ne, nextUnusedStringId_eq_zero_iff]
    push Not
    rfl
  rw [← hnext]
  by_cases hfound : findString scenario.str.strings str ≠ 0
  · refine iff_of_true ⟨findString scenario.str.strings str, scenario, ?_⟩ (.inl hfound)
    rw [addString]
    exact if_pos hfound
  · rw [or_iff_right hfound, addString]
    simp only [if_neg hfound]
    by_cases hzero : scenario.nextUnusedStringId = 0
    · have hlt : ¬ scenario.str.strings.length ≤ scenario.nextUnusedStringId := by
        omega
      refine iff_of_false ?_ (not_not.mpr hzero)
      rintro ⟨stringId, added, hadd⟩
      rw [if_neg hlt, if_pos hzero] at hadd
      cases hadd
    · refine iff_of_true ?_ hzero
      obtain ⟨hmax, -⟩ := scenario.nextUnusedStringId_spec
      split
      · rename_i hle
        rw [setCapacity_succ hle hmax]
        exact ⟨_, _, rfl⟩
      · exact ⟨_, _, rfl⟩

theorem addString_ne_zero (hentry : 0 < scenario.str.strings.length)
    (hadd : scenario.addString str = .ok (stringId, added)) : stringId ≠ 0 := by
  rintro rfl
  rw [addString] at hadd
  simp only at hadd
  split at hadd
  · rename_i hfound
    exact hfound (congrArg Prod.fst (Except.ok.inj hadd))
  · rw [Fault.map_eq_ok_iff] at hadd
    obtain ⟨grown, hgrown, heq⟩ := hadd
    have hzero : scenario.nextUnusedStringId = 0 := congrArg Prod.fst heq
    rw [hzero, if_neg (Nat.not_le.mpr hentry), if_pos rfl] at hgrown
    cases hgrown

theorem addString_getD_of_ne {other : ℕ} (hadd : scenario.addString str = .ok (stringId, added))
    (hother : other ≠ stringId) :
    added.str.strings.getD other none = scenario.str.strings.getD other none := by
  rcases addString_cases hadd with
    ⟨-, -, rfl⟩ | ⟨-, strings, rfl, -, -, hsame⟩
  · rfl
  · rw [withStrings, List.getD_eq_getElem?_getD,
      List.getElem?_set_ne hother.symm, ← List.getD_eq_getElem?_getD]
    exact hsame other

theorem length_le_length_addString (hadd : scenario.addString str = .ok (stringId, added)) :
    scenario.str.strings.length ≤ added.str.strings.length := by
  rw [addString] at hadd
  simp only at hadd
  split at hadd
  · cases hadd
    exact Nat.le_refl _
  · rw [Fault.map_eq_ok_iff] at hadd
    obtain ⟨grown, hgrown, heq⟩ := hadd
    cases heq
    obtain ⟨hmax, -⟩ := scenario.nextUnusedStringId_spec
    split at hgrown
    · rename_i hle
      rw [setCapacity_succ hle hmax] at hgrown
      cases hgrown
      simp only [withStrings, List.length_set, length_resize]
      omega
    · split at hgrown
      · cases hgrown
      · cases hgrown
        simp [withStrings]

end LoadedScenario

end Chkdraft.Scenario
