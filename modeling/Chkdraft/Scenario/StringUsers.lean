import Chkdraft.Chk.TriggerArguments
import Chkdraft.Sections.KstrSection

/-!
# String users

The part of a loaded scenario that holds or refers to strings.  Game strings are
stored in STR and referred to by scenario properties, forces, units, sounds,
switches, triggers, briefing triggers and locations.  Editor strings are stored
in KSTR and referred to by OSTR and by the extended data of triggers.
-/

namespace Chkdraft.Scenario

open Chk Sections

/-- `Chk::MaxStrings`, the size of the bit sets ids are marked in. -/
def maxStrings : ℕ := 65536

/-- The fields of `Chk::OSTR` that refer to editor strings. -/
structure Ostr where
  scenarioName : UInt32
  scenarioDescription : UInt32
  forceName : List.Vector UInt32 4
  unitName : List.Vector UInt32 228
  expUnitName : List.Vector UInt32 228
  soundPath : List.Vector UInt32 512
  switchName : List.Vector UInt32 256
  locationName : List.Vector UInt32 255
deriving DecidableEq

/-- The sections of a loaded scenario that string operations read or change.
`locations` and both string tables have an entry for id 0. -/
structure LoadedScenario where
  version : UInt16
  scenarioNameStringId : UInt16
  scenarioDescriptionStringId : UInt16
  forceString : List.Vector UInt16 4
  unisName : List.Vector UInt16 228
  unixName : List.Vector UInt16 228
  soundPath : List.Vector UInt32 512
  switchName : List.Vector UInt32 256
  locations : List Location
  trig : List Trigger
  mbrf : List Trigger
  ostr : Ostr
  ktrg : List (Option ExtendedTrigData)
  str : StrSection
  kstr : KstrSection
deriving DecidableEq

/-- `Chk::StringUserFlag`. -/
inductive StringUserFlag where
  | scenarioName | scenarioDescription | force | location
  | originalUnitSettings | expansionUnitSettings | sound | switch
  | triggerAction | triggerActionSound | extendedTriggerComment
  | extendedTriggerNotes | briefingTriggerAction | briefingTriggerActionSound
deriving DecidableEq, Repr

/-- A user mask: the kinds of users that count. -/
abbrev UserMask := StringUserFlag → Bool

/-- `StringUserFlag::All`. -/
def UserMask.all : UserMask := fun _ => true

/-- `StringUserFlag::xTrigger`, which clears the bit of texts only. -/
def UserMask.xTrigger : UserMask := fun flag => flag ≠ .triggerAction

def UserMask.exceptTriggers : UserMask := fun flag =>
  flag ≠ .triggerAction ∧ flag ≠ .triggerActionSound

/-- The string and sound ids of a trigger's actions whose types use them. -/
def triggerStringIds (trigger : Trigger) : List UInt32 :=
  (trigger.actions.toList.filter fun action =>
    actionUsesStringArg action.actionType).map Action.stringId

def triggerSoundIds (trigger : Trigger) : List UInt32 :=
  (trigger.actions.toList.filter fun action =>
    actionUsesSoundArg action.actionType).map Action.soundStringId

def briefingStringIds (trigger : Trigger) : List UInt32 :=
  (trigger.actions.toList.filter fun action =>
    briefingActionUsesStringArg action.actionType).map Action.stringId

def briefingSoundIds (trigger : Trigger) : List UInt32 :=
  (trigger.actions.toList.filter fun action =>
    briefingActionUsesSoundArg action.actionType).map Action.soundStringId

namespace LoadedScenario

/-- The game string ids the users of a kind hold, in section order. -/
def gameStringIds (scenario : LoadedScenario) : StringUserFlag → List ℕ
  | .scenarioName => [scenario.scenarioNameStringId.toNat]
  | .scenarioDescription => [scenario.scenarioDescriptionStringId.toNat]
  | .force => scenario.forceString.toList.map UInt16.toNat
  | .location =>
      scenario.locations.tail.map fun location => location.stringId.toNat
  | .originalUnitSettings => scenario.unisName.toList.map UInt16.toNat
  | .expansionUnitSettings => scenario.unixName.toList.map UInt16.toNat
  | .sound => scenario.soundPath.toList.map UInt32.toNat
  | .switch => scenario.switchName.toList.map UInt32.toNat
  | .triggerAction =>
      (scenario.trig.flatMap triggerStringIds).map UInt32.toNat
  | .triggerActionSound =>
      (scenario.trig.flatMap triggerSoundIds).map UInt32.toNat
  | .briefingTriggerAction =>
      (scenario.mbrf.flatMap briefingStringIds).map UInt32.toNat
  | .briefingTriggerActionSound =>
      (scenario.mbrf.flatMap briefingSoundIds).map UInt32.toNat
  | .extendedTriggerComment => []
  | .extendedTriggerNotes => []

/-- The editor string ids the users of a kind hold. -/
def editorStringIds (scenario : LoadedScenario) : StringUserFlag → List ℕ
  | .scenarioName => [scenario.ostr.scenarioName.toNat]
  | .scenarioDescription => [scenario.ostr.scenarioDescription.toNat]
  | .force => scenario.ostr.forceName.toList.map UInt32.toNat
  | .location => scenario.ostr.locationName.toList.map UInt32.toNat
  | .originalUnitSettings => scenario.ostr.unitName.toList.map UInt32.toNat
  | .expansionUnitSettings => scenario.ostr.expUnitName.toList.map UInt32.toNat
  | .sound => scenario.ostr.soundPath.toList.map UInt32.toNat
  | .switch => scenario.ostr.switchName.toList.map UInt32.toNat
  | .extendedTriggerComment =>
      scenario.ktrg.reduceOption.map fun data => data.commentStringId.toNat
  | .extendedTriggerNotes =>
      scenario.ktrg.reduceOption.map fun data => data.notesStringId.toNat
  | _ => []

/-- `Strings::markUsedStrings` for either usage scope and game storage: whether
the bit of an id is set.  Ids that do not fit the bit set are left out by the
sections that have 32-bit ids. -/
def marksGameString (scenario : LoadedScenario) (userMask : UserMask) (stringId : ℕ) : Prop :=
  0 < stringId ∧ stringId < maxStrings ∧
    ∃ flag, userMask flag = true ∧ stringId ∈ scenario.gameStringIds flag

/-- `Strings::markUsedStrings` for editor storage; ids are not compared with the
size of the bit set. -/
def marksEditorString (scenario : LoadedScenario) (userMask : UserMask) (stringId : ℕ) : Prop :=
  0 < stringId ∧ ∃ flag, userMask flag = true ∧ stringId ∈ scenario.editorStringIds flag

end LoadedScenario

def StringUserFlag.flags : List StringUserFlag :=
  [.scenarioName, .scenarioDescription, .force, .location,
    .originalUnitSettings, .expansionUnitSettings, .sound, .switch,
    .triggerAction, .triggerActionSound, .extendedTriggerComment,
    .extendedTriggerNotes, .briefingTriggerAction,
    .briefingTriggerActionSound]

theorem StringUserFlag.mem_flags (flag : StringUserFlag) : flag ∈ StringUserFlag.flags := by
  cases flag <;> decide

namespace LoadedScenario

instance (scenario : LoadedScenario) (userMask : UserMask) (stringId : ℕ) :
    Decidable (scenario.marksGameString userMask stringId) :=
  decidable_of_iff (0 < stringId ∧ stringId < maxStrings ∧
      ∃ flag ∈ StringUserFlag.flags, userMask flag = true ∧ stringId ∈ scenario.gameStringIds flag)
    (by simp [marksGameString, StringUserFlag.mem_flags])

instance (scenario : LoadedScenario) (userMask : UserMask) (stringId : ℕ) :
    Decidable (scenario.marksEditorString userMask stringId) :=
  decidable_of_iff (0 < stringId ∧ ∃ flag ∈ StringUserFlag.flags, userMask flag = true ∧
        stringId ∈ scenario.editorStringIds flag)
    (by simp [marksEditorString, StringUserFlag.mem_flags])

/-- An editor user holds an id outside the bit set, so that marking it writes
outside the set. -/
def editorMarkOutOfRange (scenario : LoadedScenario) : Bool := StringUserFlag.flags.any fun flag =>
    (scenario.editorStringIds flag).any fun stringId => maxStrings ≤ stringId

end LoadedScenario

/-- A scenario with triggers and briefing triggers, and no names or strings. -/
def bareScenario (trig mbrf : List Trigger) : LoadedScenario where
  version := 59
  scenarioNameStringId := 0
  scenarioDescriptionStringId := 0
  forceString := List.Vector.replicate 4 0
  unisName := List.Vector.replicate 228 0
  unixName := List.Vector.replicate 228 0
  soundPath := List.Vector.replicate 512 0
  switchName := List.Vector.replicate 256 0
  locations := [⟨0, 0, 0, 0, 0, 0⟩]
  trig := trig
  mbrf := mbrf
  ostr :=
    { scenarioName := 0
      scenarioDescription := 0
      forceName := List.Vector.replicate 4 0
      unitName := List.Vector.replicate 228 0
      expUnitName := List.Vector.replicate 228 0
      soundPath := List.Vector.replicate 512 0
      switchName := List.Vector.replicate 256 0
      locationName := List.Vector.replicate 255 0 }
  ktrg := []
  str := ⟨[none], [], 4, 0, []⟩
  kstr := KstrSection.default

/-- A briefing trigger whose actions show the texts of consecutive ids. -/
def briefingTexts (first : ℕ) : Trigger :=
  { blankTrigger with
    actions := List.Vector.ofFn fun index : Fin maxActions =>
      { (default : Action) with
        actionType := 3
        stringId := UInt32.ofNat (first + index) } }

/-- Briefing triggers that use every string id. -/
def crowdedBriefing : List Trigger := (List.range 1024).map fun index => briefingTexts (64 * index)

theorem mem_crowdedBriefing {stringId : ℕ} (hlt : stringId < maxStrings) :
    UInt32.ofNat stringId ∈ crowdedBriefing.flatMap briefingStringIds := by
  have hmax : maxStrings = 65536 := rfl
  apply List.mem_flatMap.mpr
  refine ⟨briefingTexts (64 * (stringId / 64)), ?_, ?_⟩
  · exact List.mem_map.mpr ⟨stringId / 64, List.mem_range.mpr (by omega), rfl⟩
  · apply List.mem_map.mpr
    refine ⟨{ (default : Action) with
        actionType := 3
        stringId := UInt32.ofNat stringId }, ?_, rfl⟩
    apply List.mem_filter.mpr
    refine ⟨?_, rfl⟩
    rw [briefingTexts, List.Vector.toList_ofFn, List.mem_ofFn]
    refine ⟨⟨stringId % 64, Nat.mod_lt _ (by decide)⟩, ?_⟩
    simp only [Nat.div_add_mod]

theorem marksGameString_crowdedBriefing {scenario : LoadedScenario}
    (hmbrf : scenario.mbrf = crowdedBriefing) {stringId : ℕ}
    (hpos : 0 < stringId) (hlt : stringId < maxStrings) :
    scenario.marksGameString .all stringId := by
  refine ⟨hpos, hlt, .briefingTriggerAction, rfl, ?_⟩
  have hmax : maxStrings = 65536 := rfl
  rw [LoadedScenario.gameStringIds, hmbrf]
  apply List.mem_map.mpr
  refine ⟨_, mem_crowdedBriefing hlt, ?_⟩
  rw [UInt32.toNat_ofNat']
  exact Nat.mod_eq_of_lt (by omega)

end Chkdraft.Scenario
