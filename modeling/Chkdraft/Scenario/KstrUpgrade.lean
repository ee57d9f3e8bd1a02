import Chkdraft.Scenario.LoadedFile
import Chkdraft.Scenario.TriggerExtensions

/-!
# Upgrading the editor strings

Older versions of the KSTR section let any user of game strings refer to an
editor string by `65536 - id`.  `Scenario::upgradeKstrToCurrent` moves these
references to the sections that hold editor string ids now, OSTR and KTRG, or
drops them, and then deletes the strings nobody refers to.
-/

namespace Chkdraft.Scenario

open Binary Chk Sections

theorem size_le_setWord (content : StructSection) (width offset value : ℕ) :
    content.name.size ≤ ((overwrite content.rawData offset
      (littleEndian width value)).take content.rawData.length).length := by
  have hsize := content.size_le
  simp only [overwrite, List.length_take, List.length_append, List.length_drop, length_littleEndian]
  omega

/-- The section with another word at an offset of its structure. -/
def setWord (content : StructSection) (width offset value : ℕ) : StructSection where
  name := content.name
  rawData := (overwrite content.rawData offset
    (littleEndian width value)).take content.rawData.length
  dataValid := content.dataValid
  size_le := size_le_setWord content width offset value

def structWords (content : StructSection) (width offset count : ℕ) : List ℕ :=
  (List.range count).map fun index =>
    wordAt width content.rawData (offset + width * index)

namespace LoadedFile

def setObject (file : LoadedFile) (handle : ℕ) (content : Section) : LoadedFile :=
  { file with objects := file.objects.set handle content }

/-- A structure section that is dereferenced: neither the pointer to it nor its
own pointer `data` may be invalid. -/
def structAt (file : LoadedFile) (name : StructName) : Except (Fault Exception) StructSection :=
  match file.struct? name with
  | some content =>
      if content.dataValid then .ok content
      else .error (.hazard .undefinedBehavior)
  | none => .error (.hazard .undefinedBehavior)

/-- Store an editor string id in the OSTR section. -/
def setOstrWord (file : LoadedFile) (offset value : ℕ) : Except (Fault Exception) LoadedFile := do
  let ostr ← file.structAt .ostr
  match file.pointer (.struct .ostr) with
  | some handle =>
      pure (file.setObject handle (.struct (setWord ostr 4 offset value)))
  | none => .error (.hazard .undefinedBehavior)

def strStrings (file : LoadedFile) : List (Option ScStr) :=
  match file.section? .str with
  | some (.str table) => table.strings
  | _ => []

def kstrTable (file : LoadedFile) : KstrSection :=
  match file.section? .kstr with
  | some (.kstr table) => table
  | _ => KstrSection.default

def trigTriggers (file : LoadedFile) : List Trigger :=
  match file.section? .trig with
  | some (.trig triggers) => triggers
  | _ => []

def ktrgEntries (file : LoadedFile) : List (Option ExtendedTrigData) :=
  match file.section? .ktrg with
  | some (.ktrg table) => table.extendedTrigData
  | _ => []

/-- The scenario with other triggers and extended data. -/
def setTriggers (file : LoadedFile) (triggers : List Trigger)
    (entries : List (Option ExtendedTrigData)) : LoadedFile :=
  match file.pointer .trig, file.pointer .ktrg with
  | some trig, some ktrg =>
      (file.setObject trig (.trig triggers)).setObject ktrg (.ktrg ⟨entries⟩)
  | _, _ => file

end LoadedFile

/-- An editor string table and the number of game string ids. -/
structure EditorStrings where
  strCapacity : ℕ
  strings : List (Option EditorString)

namespace EditorStrings

/-- `strings.stringStored(stringId, Chk::Scope::Editor)`. -/
def stored (editor : EditorStrings) (stringId : ℕ) : Bool :=
  (editor.strings.getD stringId none).isSome

/-- A string id that stands for an editor string. -/
def refersTo (editor : EditorStrings) (stringId : ℕ) : Bool :=
  editor.strCapacity < stringId && stringId ≠ 0 && stringId < 65536 &&
    editor.stored (65536 - stringId)

theorem refersTo_iff {editor : EditorStrings} {stringId : ℕ} : editor.refersTo stringId = true ↔
      editor.strCapacity < stringId ∧ stringId ≠ 0 ∧ stringId < 65536 ∧
        editor.stored (65536 - stringId) = true := by
  simp [refersTo, and_assoc]

end EditorStrings

/-- The triggers with one action changed. -/
def changeAction (triggers : List Trigger) (position action : ℕ)
    (change : Action → Action) : List Trigger :=
  triggers.modify position fun trigger =>
    { trigger with
      actions := ⟨trigger.actions.toList.modify action change, by
        rw [List.length_modify, trigger.actions.toList_length]⟩ }

/-- The triggers and extended data during the upgrade of one trigger, with the
extended strings it is known to have. -/
structure TriggerUpgrade where
  triggers : List Trigger
  entries : List (Option ExtendedTrigData)
  extendedCommentStringId : ℕ
  extendedNotesStringId : ℕ

/-- The string argument of an action: a comment moves to the extended comment
or else to the notes, other texts are lost. -/
def upgradeActionString (editor : EditorStrings) (position index : ℕ)
    (action : Action) (state : TriggerUpgrade) :
    Except (Fault Exception) TriggerUpgrade :=
  let stringId := action.stringId.toNat
  if actionUsesStringArg action.actionType ∧ editor.refersTo stringId then
    if action.actionType = VirtualAction.comment.actionType ∧
        state.extendedCommentStringId = 0 then do
      let (triggers, entries) ← setTriggerExtension state.triggers
        state.entries position (65536 - stringId) fun extension =>
          { extension with
            commentStringId := UInt32.ofNat (65536 - stringId) }
      pure
        { state with
          triggers := changeAction triggers position index fun action =>
            { action with stringId := 0 }
          entries := entries
          extendedCommentStringId := getExtendedCommentStringId triggers entries position }
    else if action.actionType = VirtualAction.comment.actionType ∧
        state.extendedNotesStringId = 0 then do
      let (triggers, entries) ← setTriggerExtension state.triggers
        state.entries position (65536 - stringId) fun extension =>
          { extension with notesStringId := UInt32.ofNat (65536 - stringId) }
      pure
        { state with
          triggers := changeAction triggers position index fun action =>
            { action with stringId := 0 }
          entries := entries
          extendedNotesStringId := getExtendedNotesStringId triggers entries position }
    else
      .ok { state with
        triggers := changeAction state.triggers position index fun action =>
          { action with stringId := 0 } }
  else
    .ok state

/-- One action of a trigger; its sound is lost. -/
def upgradeAction (editor : EditorStrings) (position : ℕ) (state : TriggerUpgrade) (index : ℕ) :
    Except (Fault Exception) TriggerUpgrade := do
  let action := (state.triggers[position]?.bind fun trigger =>
      trigger.actions.toList[index]?).getD default
  let state ← upgradeActionString editor position index action state
  if actionUsesSoundArg action.actionType ∧ editor.refersTo action.soundStringId.toNat then
    pure
      { state with
        triggers := changeAction state.triggers position index fun action =>
          { action with soundStringId := 0 } }
  else
    pure state

def upgradeTrigger (editor : EditorStrings)
    (links : List Trigger × List (Option ExtendedTrigData)) (position : ℕ) :
    Except (Fault Exception) (List Trigger × List (Option ExtendedTrigData)) := do
  let state ← (List.range maxActions).foldlM (upgradeAction editor position)
    ⟨links.1, links.2, getExtendedCommentStringId links.1 links.2 position,
      getExtendedNotesStringId links.1 links.2 position⟩
  pure (state.triggers, state.entries)

/-- A briefing action loses its strings.  The sound is dropped depending on the
string id, which may have been dropped before. -/
def upgradeBriefingAction (editor : EditorStrings) (action : Action) : Action :=
  let action :=
    if briefingActionUsesStringArg action.actionType ∧ editor.refersTo action.stringId.toNat then
      { action with stringId := 0 }
    else action
  let sound := action.soundStringId.toNat
  if briefingActionUsesSoundArg action.actionType ∧
      editor.strCapacity < sound ∧ sound ≠ 0 ∧ sound < 65536 ∧
      editor.stored (65536 - action.stringId).toNat then
    { action with soundStringId := 0 }
  else action

def upgradeBriefingTrigger (editor : EditorStrings) (trigger : Trigger) : Trigger :=
  { trigger with
    actions := trigger.actions.map (upgradeBriefingAction editor) }

/-- One location; the loop leaves out the last one. -/
def upgradeLocation (editor : EditorStrings) (handle : ℕ) (file : LoadedFile)
    (locationId : ℕ) : Except (Fault Exception) LoadedFile :=
  match file.objects[handle]? with
  | some (.mrgn locations) =>
      match locations.getD locationId none with
      | some location =>
          let stringId := location.stringId.toNat
          if editor.refersTo stringId then
            if 0 < locationId ∧ locationId ≤ 255 then do
              let file ← file.setOstrWord (4924 + 4 * (locationId - 1)) (65536 - stringId)
              pure (file.setObject handle (.mrgn (locations.set locationId
                (some { location with stringId := 0 }))))
            else
              .error (.thrown .outOfRange)
          else
            .ok file
      | none => .ok file
  | _ => .ok file

/-- Where a structure keeps string ids: their width, offset and number, and the
offset of the matching words of OSTR. -/
structure NameFields where
  width : ℕ
  offset : ℕ
  count : ℕ
  ostrOffset : ℕ

/-- The string ids of SPRP, FORC, WAV, SWNM, UNIS and UNIx. -/
def nameFields : StructName → Option NameFields
  | .sprp => some ⟨2, 0, 2, 4⟩
  | .forc => some ⟨2, 8, 4, 12⟩
  | .wav => some ⟨4, 0, 512, 1852⟩
  | .swnm => some ⟨4, 0, 256, 3900⟩
  | .unis => some ⟨2, 3192, 228, 28⟩
  | .unix => some ⟨2, 3192, 228, 940⟩
  | _ => none

/-- One string id of a structure section. -/
def upgradeName (editor : EditorStrings) (handle : ℕ) (fields : NameFields)
    (file : LoadedFile) (index : ℕ) : Except (Fault Exception) LoadedFile :=
  match file.objects[handle]? with
  | some (.struct content) =>
      if content.dataValid then
        let offset := fields.offset + fields.width * index
        let stringId := wordAt fields.width content.rawData offset
        if editor.refersTo stringId then do
          let file ← file.setOstrWord (fields.ostrOffset + 4 * index) (65536 - stringId)
          pure (file.setObject handle (.struct (setWord content fields.width offset 0)))
        else
          .ok file
      else
        .error (.hazard .undefinedBehavior)
  | _ => .ok file

/-- The `switch` over the name of a section. -/
def upgradeSection (editor : EditorStrings) (file : LoadedFile)
    (handle : ℕ) : Except (Fault Exception) LoadedFile :=
  match file.objects[handle]? with
  | some (.trig _) => do
      -- Every TRIG section of the file is the object behind `triggers.trig`.
      let (triggers, entries) ← (List.range file.trigTriggers.length).foldlM (upgradeTrigger editor)
          (file.trigTriggers, file.ktrgEntries)
      pure (file.setTriggers triggers entries)
  | some (.mbrf triggers) =>
      .ok (file.setObject handle (.mbrf (triggers.map (upgradeBriefingTrigger editor))))
  | some (.mrgn locations) =>
      (List.range (locations.length - 1)).foldlM (upgradeLocation editor handle) file
  | some (.struct content) =>
      match nameFields content.name with
      | some fields =>
          (List.range fields.count).foldlM (upgradeName editor handle fields) file
      | none => .ok file
  | _ => .ok file

namespace LoadedFile

def words16 (content : StructSection) (offset count : ℕ) : List.Vector UInt16 count :=
  ⟨(structWords content 2 offset count).map UInt16.ofNat, by
    simp [structWords]⟩

def words32 (content : StructSection) (offset count : ℕ) : List.Vector UInt32 count :=
  ⟨(structWords content 4 offset count).map UInt32.ofNat, by
    simp [structWords]⟩

/-- The string users of the scenario, if their sections can be dereferenced. -/
def stringUsers (file : LoadedFile) : Except (Fault Exception) LoadedScenario := do
  let ver ← file.structAt .ver
  let sprp ← file.structAt .sprp
  let forc ← file.structAt .forc
  let unis ← file.structAt .unis
  let unix ← file.structAt .unix
  let wav ← file.structAt .wav
  let swnm ← file.structAt .swnm
  let ostr ← file.structAt .ostr
  match file.section? .mrgn, file.section? .mbrf, file.section? .str with
  | some (.mrgn locations), some (.mbrf mbrf), some (.str str) =>
      pure
        { version := UInt16.ofNat (wordAt 2 ver.rawData 0)
          scenarioNameStringId := UInt16.ofNat (wordAt 2 sprp.rawData 0)
          scenarioDescriptionStringId := UInt16.ofNat (wordAt 2 sprp.rawData 2)
          forceString := words16 forc 8 4
          unisName := words16 unis 3192 228
          unixName := words16 unix 3192 228
          soundPath := words32 wav 0 512
          switchName := words32 swnm 0 256
          locations := locations.map (·.getD blankLocation)
          trig := file.trigTriggers
          mbrf := mbrf
          ostr :=
            { scenarioName := UInt32.ofNat (wordAt 4 ostr.rawData 4)
              scenarioDescription := UInt32.ofNat (wordAt 4 ostr.rawData 8)
              forceName := words32 ostr 12 4
              unitName := words32 ostr 28 228
              expUnitName := words32 ostr 940 228
              soundPath := words32 ostr 1852 512
              switchName := words32 ostr 3900 256
              locationName := words32 ostr 4924 255 }
          ktrg := file.ktrgEntries
          str := str
          kstr := file.kstrTable }
  | _, _, _ => .error (.hazard .undefinedBehavior)

/-- The scenario with other string tables. -/
def setStrings (file : LoadedFile) (str : StrSection) (kstr : KstrSection) : LoadedFile :=
  match file.pointer .str, file.pointer .kstr with
  | some strHandle, some kstrHandle =>
      (file.setObject strHandle (.str str)).setObject kstrHandle (.kstr kstr)
  | _, _ => file

/-- The KSTR section with another version or table. -/
def setKstr (file : LoadedFile) (kstr : KstrSection) : LoadedFile :=
  match file.pointer .kstr with
  | some handle => file.setObject handle (.kstr kstr)
  | none => file

/-- `Strings::deleteUnusedStrings(Chk::Scope::Both)`. -/
def deleteUnusedStrings (file : LoadedFile) : Except (Fault Exception) LoadedFile := do
  let users ← file.stringUsers
  let users ← Fault.ofHazard users.deleteUnusedStrings
  pure (file.setStrings users.str users.kstr)

/-- `Scenario::upgradeKstrToCurrent`.  The sections are visited in the order of
the file; a table of version 1 gives way to the default. -/
def upgradeKstrToCurrent (file : LoadedFile) : Except (Fault Exception) LoadedFile :=
  let version := file.kstrTable.version
  if version = 0 ∨ version = 2 then do
    let editor : EditorStrings := ⟨file.strStrings.length, file.kstrTable.strings⟩
    let file ← file.allSections.foldlM (upgradeSection editor) file
    let file := file.setKstr
      { file.kstrTable with version := KstrSection.currentVersion }
    file.deleteUnusedStrings
  else if version = 1 then
    .ok (file.setKstr KstrSection.default)
  else
    .ok file

end LoadedFile

end Chkdraft.Scenario
