import Chkdraft.Archive.ModifiedAssets
import Chkdraft.Core.KeyedMap
import Chkdraft.Scenario.StringUsage
import Chkdraft.Scenario.Strings

/-!
# Where the sounds of a scenario are found

`getSoundStatus` tells of one string id whether a sound of that name is about to
be added, is in the archive, or is known to come with the game.
`getSoundStatuses` decides it again for all sounds at once.  It starts from the
indices of the sound list where the ids were meant, and its own decision looks
at other strings and leaves out the sounds of the game.
-/

namespace Chkdraft.Archive

open Chk Scan Sections Scenario

inductive SoundStatus where
  | pendingMatch | currentMatch | virtualFile | noMatch | noMatchExtended
  | fileInUse | unknown
deriving DecidableEq, Repr

/-- What a sound is looked up in: the pending assets, the map archive, which
may not open, and the sounds of the game. -/
structure SoundFiles where
  modifiedAssets : List (AssetAction × ScStr)
  opens : Bool
  findFile : ScStr → Bool
  isInVirtualSoundList : ScStr → Bool

/-- A sound of this name was added and not yet saved. -/
def SoundFiles.isPending (files : SoundFiles) (soundString : ScStr) : Bool :=
  files.modifiedAssets.any fun modifiedAsset =>
    modifiedAsset.1 = .add ∧ soundString = modifiedAsset.2

/-- The archive opens and has a sound of this name. -/
def SoundFiles.isFound (files : SoundFiles) (soundString : ScStr) : Bool :=
  files.opens && files.findFile soundString

/-- What `getSoundStatus` tells of a name. -/
def SoundFiles.status (files : SoundFiles) (soundString : ScStr) : SoundStatus :=
  if files.isPending soundString then .pendingMatch
  else if files.opens then
    if files.findFile soundString then .currentMatch
    else if files.isInVirtualSoundList soundString then .virtualFile
    else .noMatch
  else if files.isInVirtualSoundList soundString then .virtualFile
  else .fileInUse

def playsSound (actionType : UInt8) : Bool := actionType = 8 ∨ actionType = 7

def briefingPlaysSound (actionType : UInt8) : Bool := actionType = 2 ∨ actionType = 8

/-- The sound ids of the actions of some types, where they are not 0. -/
def soundIds (plays : UInt8 → Bool) (triggers : List Trigger) : List ℕ :=
  ((triggers.flatMap fun trigger => trigger.actions.toList).filter fun action =>
    plays action.actionType ∧ action.soundStringId ≠ 0).map fun action => action.soundStringId.toNat

section Status

variable (scenario : LoadedScenario) (files : SoundFiles)

/-- The strings that only the editor uses. -/
def onlyExtended (stringId : ℕ) : Bool := scenario.stringUsed stringId .both .editor .all false &&
    !scenario.stringUsed stringId .both .game .all false

/-- `getString<RawString>` with its default scope, `EditorOverGame`. -/
def getStringEditorOverGame (stringId : ℕ) : Option ScStr :=
  match scenario.kstr.strings.getD stringId none with
  | some string => some (untilNul string.chars)
  | none => getString scenario.str.strings stringId

def getSoundStatus (soundStringId : ℕ) : SoundStatus :=
  if onlyExtended scenario soundStringId then
    .noMatch
  else
    match getString scenario.str.strings soundStringId with
    | some soundString => files.status soundString
    | none => .unknown

/-- The map that should hold the ids of all sounds.  Its first entries are the
indices of the sound list. -/
def soundMap : List (ℕ × UInt16) :=
  let soundMap := scenario.soundPath.toList.zipIdx.foldl
    (fun soundMap sound => KeyedMap.insert soundMap sound.2 (UInt16.ofNat sound.1.toNat)) []
  let soundMap := (soundIds playsSound scenario.trig).foldl
    (fun soundMap stringId => KeyedMap.insert soundMap stringId 65535) soundMap
  (soundIds briefingPlaysSound scenario.mbrf).foldl
    (fun soundMap stringId => KeyedMap.insert soundMap stringId 65535) soundMap

/-- One round of the loop over the map.  The `continue` behind a pending match
goes on with the pending assets. -/
def insertSoundStatus (outSoundStatus : List (ℕ × SoundStatus))
    (soundStringId : ℕ) : List (ℕ × SoundStatus) :=
  if onlyExtended scenario soundStringId then
    KeyedMap.insert outSoundStatus soundStringId .noMatchExtended
  else
    match getStringEditorOverGame scenario soundStringId with
    | some soundString =>
        let outSoundStatus := files.modifiedAssets.foldl (fun outSoundStatus modifiedAsset =>
            if modifiedAsset.1 = .add ∧ soundString = modifiedAsset.2 then
              KeyedMap.insert outSoundStatus soundStringId .pendingMatch
            else outSoundStatus) outSoundStatus
        KeyedMap.insert outSoundStatus soundStringId (if files.opens then
            if files.findFile soundString then .currentMatch else .noMatch
          else .fileInUse)
    | none => outSoundStatus

def getSoundStatuses (outSoundStatus : List (ℕ × SoundStatus)) : List (ℕ × SoundStatus) :=
  (KeyedMap.keys (soundMap scenario)).foldl (insertSoundStatus scenario files) outSoundStatus

end Status

section Bulk

variable {scenario : LoadedScenario} {files : SoundFiles}

def visitsSound (scenario : LoadedScenario) (stringId : ℕ) : Prop :=
  stringId < 512 ∨ stringId ∈ soundIds playsSound scenario.trig ∨
    stringId ∈ soundIds briefingPlaysSound scenario.mbrf

theorem mem_keys_soundMap {stringId : ℕ} : stringId ∈ KeyedMap.keys (soundMap scenario) ↔
      visitsSound scenario stringId := by
  have hindices : scenario.soundPath.toList.zipIdx.map Prod.snd = List.range 512 := by
    rw [List.zipIdx_map_snd, List.Vector.toList_length, List.range_eq_range']
  rw [soundMap, KeyedMap.mem_keys_foldl, KeyedMap.mem_keys_foldl, KeyedMap.mem_keys_foldl,
    hindices, List.mem_range, List.map_id', List.map_id', visitsSound, or_assoc]
  simp [KeyedMap.keys]

/-- What the bulk call inserts for a string. -/
def bulkStatus (files : SoundFiles) (soundString : ScStr) : SoundStatus :=
  if files.isPending soundString then .pendingMatch
  else if files.opens then
    if files.findFile soundString then .currentMatch else .noMatch
  else .fileInUse

/-- What the bulk call inserts for an id. -/
def insertedStatus (scenario : LoadedScenario) (files : SoundFiles)
    (stringId : ℕ) : Option SoundStatus :=
  if onlyExtended scenario stringId then some .noMatchExtended
  else (getStringEditorOverGame scenario stringId).map (bulkStatus files)

theorem find_insertPending (soundStringId other : ℕ) (soundString : ScStr)
    (modifiedAssets : List (AssetAction × ScStr))
    (outSoundStatus : List (ℕ × SoundStatus)) :
    KeyedMap.find (modifiedAssets.foldl (fun outSoundStatus modifiedAsset =>
        if modifiedAsset.1 = .add ∧ soundString = modifiedAsset.2 then
          KeyedMap.insert outSoundStatus soundStringId .pendingMatch
        else outSoundStatus) outSoundStatus) other =
      if other = soundStringId ∧ (modifiedAssets.any fun modifiedAsset =>
          modifiedAsset.1 = .add ∧ soundString = modifiedAsset.2) = true then
        (KeyedMap.find outSoundStatus other).or (some SoundStatus.pendingMatch)
      else KeyedMap.find outSoundStatus other := by
  induction modifiedAssets generalizing outSoundStatus with
  | nil => simp
  | cons asset assets ih =>
      rw [List.foldl_cons, ih, List.any_cons]
      by_cases hasset : asset.1 = .add ∧ soundString = asset.2
      · rw [if_pos hasset, KeyedMap.find_insert]
        by_cases hother : other = soundStringId
        · simp [hother, hasset]
        · simp [hother]
      · rw [if_neg hasset, decide_eq_false hasset, Bool.false_or]

theorem find_insertSoundStatus (outSoundStatus : List (ℕ × SoundStatus)) (stringId other : ℕ) :
    KeyedMap.find (insertSoundStatus scenario files outSoundStatus stringId) other =
      if other = stringId then
        (KeyedMap.find outSoundStatus other).or (insertedStatus scenario files other)
      else KeyedMap.find outSoundStatus other := by
  rw [insertSoundStatus]
  by_cases hother : other = stringId
  · subst hother
    rw [if_pos rfl, insertedStatus]
    split
    · rw [KeyedMap.find_insert, if_pos rfl]
    · cases getStringEditorOverGame scenario other with
      | none => simp
      | some soundString =>
          simp only [KeyedMap.find_insert, find_insertPending, true_and,
            if_true, Option.map_some, bulkStatus]
          rw [← SoundFiles.isPending]
          -- A match that was inserted first stays.
          cases files.isPending soundString with
          | true => simp only [if_true, Option.or_assoc, Option.some_or]
          | false => simp only [Bool.false_eq_true, if_false]
  · rw [if_neg hother]
    split
    · rw [KeyedMap.find_insert, if_neg hother]
    · cases getStringEditorOverGame scenario stringId with
      | none => rfl
      | some soundString =>
          simp only [KeyedMap.find_insert, find_insertPending, hother, false_and, if_false]

theorem find_foldl_insertSoundStatus (soundStringIds : List ℕ)
    (outSoundStatus : List (ℕ × SoundStatus)) (stringId : ℕ) :
    KeyedMap.find (soundStringIds.foldl (insertSoundStatus scenario files)
        outSoundStatus) stringId =
      if stringId ∈ soundStringIds then
        (KeyedMap.find outSoundStatus stringId).or (insertedStatus scenario files stringId)
      else KeyedMap.find outSoundStatus stringId := by
  induction soundStringIds generalizing outSoundStatus with
  | nil => rfl
  | cons first rest ih =>
      rw [List.foldl_cons, ih, find_insertSoundStatus]
      by_cases hfirst : stringId = first
      · simp only [hfirst, if_true, List.mem_cons_self, Option.or_assoc, Option.or_self, ite_self]
      · simp only [List.mem_cons, hfirst, false_or, if_false]

theorem find_getSoundStatuses (scenario : LoadedScenario) (files : SoundFiles) (stringId : ℕ) :
    KeyedMap.find (getSoundStatuses scenario files []) stringId =
      if stringId ∈ KeyedMap.keys (soundMap scenario) then
        insertedStatus scenario files stringId
      else none := by
  rw [getSoundStatuses, find_foldl_insertSoundStatus, KeyedMap.find_nil, Option.none_or]

end Bulk

/-- A string id that the sound list, a trigger action or a briefing action
refers to as a sound. -/
def ReferencesSound (scenario : LoadedScenario) (stringId : ℕ) : Prop :=
  stringId ≠ 0 ∧ stringId ∈ scenario.soundPath.toList.map UInt32.toNat ∨
    stringId ∈ soundIds playsSound scenario.trig ∨
    stringId ∈ soundIds briefingPlaysSound scenario.mbrf

instance (scenario : LoadedScenario) (stringId : ℕ) :
    Decidable (ReferencesSound scenario stringId) :=
  inferInstanceAs (Decidable (_ ∨ _ ∨ _))

/-- The bulk call has the entries it should have, and they are right. -/
structure StatusesAgree (scenario : LoadedScenario) (files : SoundFiles) : Prop where
  entry : ∀ stringId, ReferencesSound scenario stringId →
    KeyedMap.find (getSoundStatuses scenario files []) stringId =
      some (getSoundStatus scenario files stringId)
  noOther : ∀ stringId, ¬ ReferencesSound scenario stringId →
    KeyedMap.find (getSoundStatuses scenario files []) stringId = none

/-- Two names are pending or found alike, and the second, unless it is pending
or found, is not the name of a sound of the game. -/
def FoundAlike (files : SoundFiles) (bulk single : ScStr) : Prop :=
  files.isPending bulk = files.isPending single ∧ (files.isPending single = true ∨
      files.isFound bulk = files.isFound single ∧ (files.isFound single = true ∨
          files.isInVirtualSoundList single = false))

/-- A sound id is an index of the sound list or an action plays it, the game
uses its string, and the editor string that may hide it is found alike.  An
index that is no sound id has no string in either table, and no user outside the
game. -/
structure MeetsStatuses (scenario : LoadedScenario) (files : SoundFiles) : Prop where
  referenced : ∀ stringId, ReferencesSound scenario stringId →
    visitsSound scenario stringId ∧ onlyExtended scenario stringId = false ∧
      ∃ bulk single, getStringEditorOverGame scenario stringId = some bulk ∧
        getString scenario.str.strings stringId = some single ∧
        FoundAlike files bulk single
  unreferenced : ∀ stringId < 512, ¬ ReferencesSound scenario stringId →
    onlyExtended scenario stringId = false ∧ getStringEditorOverGame scenario stringId = none

section Agreement

variable {scenario : LoadedScenario} {files : SoundFiles}

theorem bulkStatus_eq_status_iff {bulk single : ScStr} :
    bulkStatus files bulk = files.status single ↔ FoundAlike files bulk single := by
  rw [bulkStatus, SoundFiles.status, FoundAlike, SoundFiles.isFound, SoundFiles.isFound]
  cases files.isPending bulk <;> cases files.isPending single <;>
    cases files.opens <;> cases files.findFile bulk <;>
    cases files.findFile single <;>
    cases files.isInVirtualSoundList single <;> decide

/-- A visited id is inserted with the status it has alone. -/
theorem insertedStatus_eq_iff {stringId : ℕ} : insertedStatus scenario files stringId =
        some (getSoundStatus scenario files stringId) ↔
      onlyExtended scenario stringId = false ∧
        ∃ bulk single, getStringEditorOverGame scenario stringId = some bulk ∧
          getString scenario.str.strings stringId = some single ∧
          FoundAlike files bulk single := by
  rw [insertedStatus, getSoundStatus]
  cases onlyExtended scenario stringId with
  | true => simp
  | false =>
      cases getStringEditorOverGame scenario stringId with
      | none => simp
      | some bulk =>
          cases getString scenario.str.strings stringId with
          | none =>
              have hunknown : bulkStatus files bulk ≠ .unknown := by
                rw [bulkStatus]
                split_ifs <;> decide
              simpa using hunknown
          | some single => simp [bulkStatus_eq_status_iff]

theorem insertedStatus_eq_none_iff {stringId : ℕ} : insertedStatus scenario files stringId = none ↔
      onlyExtended scenario stringId = false ∧
        getStringEditorOverGame scenario stringId = none := by
  rw [insertedStatus]
  cases onlyExtended scenario stringId <;> simp

end Agreement

/-- The two calls agree if and only if the scenario meets the condition. -/
theorem statusesAgree_iff (scenario : LoadedScenario) (files : SoundFiles) :
    StatusesAgree scenario files ↔ MeetsStatuses scenario files := by
  constructor
  · rintro ⟨hentry, hother⟩
    refine ⟨fun stringId href => ?_, fun stringId hlt href => ?_⟩
    · have hstatus := hentry stringId href
      rw [find_getSoundStatuses] at hstatus
      split at hstatus
      · next hmem =>
          exact ⟨mem_keys_soundMap.mp hmem, insertedStatus_eq_iff.mp hstatus⟩
      · cases hstatus
    · have hnone := hother stringId href
      rw [find_getSoundStatuses, if_pos (mem_keys_soundMap.mpr (Or.inl hlt))] at hnone
      exact insertedStatus_eq_none_iff.mp hnone
  · rintro ⟨hreferenced, hunreferenced⟩
    refine ⟨fun stringId href => ?_, fun stringId href => ?_⟩
    · obtain ⟨hvisits, hagree⟩ := hreferenced stringId href
      rw [find_getSoundStatuses, if_pos (mem_keys_soundMap.mpr hvisits)]
      exact insertedStatus_eq_iff.mpr hagree
    · rw [find_getSoundStatuses]
      split
      · next hmem =>
          rcases mem_keys_soundMap.mp hmem with hlt | hplayed
          · exact insertedStatus_eq_none_iff.mpr (hunreferenced stringId hlt href)
          · exact absurd (Or.inr hplayed) href
      · rfl

/-- String 1 is no sound, and yet has an entry. -/
theorem statuses_contain_other_string : ¬ StatusesAgree
      { bareScenario [] [] with str := ⟨[none, some [65]], [], 4, 0, []⟩ }
      ⟨[], false, fun _ => false, fun _ => false⟩ := by
  rintro ⟨-, hother⟩
  have hnone := hother 1 (by decide +kernel)
  rw [find_getSoundStatuses, if_pos (mem_keys_soundMap.mpr (Or.inl (by decide)))] at hnone
  cases (insertedStatus_eq_none_iff.mp hnone).2

end Chkdraft.Archive
