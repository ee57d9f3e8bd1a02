import Mathlib.Data.Vector.Zip
import Chkdraft.Scenario.DeleteStrings

/-!
# Moving strings between the tables

`Strings::rescopeString` copies a string to the other table, leads the names
that use it there, and deletes it with the strings it replaced.  Trigger actions
have no field for an editor string, and the call never says which id the string
got.
-/

namespace Chkdraft.Scenario

open Chk Sections

namespace LoadedScenario

variable (scenario : LoadedScenario)

/-- The editor strings without their properties. -/
def editorTexts : List (Option ScStr) := scenario.kstr.strings.map (Option.map EditorString.chars)

/-- `KstrSection::getNextUnusedStringId`, also beyond the capacity. -/
def nextUnusedEditorStringId : ℕ := ((List.range' 1 (maxStrings - 1)).find? fun stringId =>
    ¬ scenario.marksEditorString .all stringId).getD 0

/-- `KstrSection::addString<RawString>`.  The capacity it asks for is above every
stored id, for which `setCapacity` only appends. -/
def addEditorString (str : ScStr) : Except (Fault Exception) (ℕ × LoadedScenario) :=
  let stringId := findString scenario.editorTexts str
  if stringId ≠ 0 then
    .ok (stringId, scenario)
  else if scenario.editorMarkOutOfRange then
    .error (.hazard .undefinedBehavior)
  else
    let next := scenario.nextUnusedEditorStringId
    let strings := scenario.kstr.strings
    if next < strings.length ∧ next = 0 then
      .error (.thrown .maximumStringsExceeded)
    else
      .ok (next, { scenario with
        kstr :=
          { scenario.kstr with
            strings := (strings ++ List.replicate (next + 1 - strings.length) none).set next
                (some ⟨str, .default⟩) } })

/-- The kinds of users that have a field for a game string and one for an editor
string. -/
def twoFieldFlags : List StringUserFlag :=
  [.scenarioName, .scenarioDescription, .force, .originalUnitSettings,
    .expansionUnitSettings, .sound, .switch, .location]

/-- The ids in one field of the users that hold a string in the other. -/
def replacedIds (holders fields : List ℕ) (stringId : ℕ) : List ℕ :=
  (holders.zip fields).filterMap fun (holder, field) =>
    if holder = stringId then some field else none

/-- The order in which a `std::set` is traversed. -/
def ascending (stringIds : List ℕ) : List ℕ := stringIds.dedup.insertionSort (· ≤ ·)

/-- A field whose other field holds the string gets the new id. -/
def redirect16 (stringId newStringId : ℕ) (holder : UInt32) (field : UInt16) : UInt16 :=
  if holder.toNat = stringId then UInt16.ofNat newStringId else field

def redirect32 (stringId newStringId holder : ℕ) (field : UInt32) : UInt32 :=
  if holder = stringId then UInt32.ofNat newStringId else field

/-- The ids `getUnitNameStringId` and its like return.  The cases `Yes` and `No`
of `useExpansionUnitSettings` have no `return`, so that with UNIS there the
names of the expansion are read from UNIS as well. -/
def readStringIds : StringUserFlag → List ℕ
  | .expansionUnitSettings => scenario.gameStringIds .originalUnitSettings
  | flag => scenario.gameStringIds flag

/-- The names that have the game string get the editor string; those of the
expansion go by the names in UNIS. -/
def redirectToEditor (stringId newStringId : ℕ) : LoadedScenario :=
  let redirect := redirect32 stringId newStringId
  { scenario with
    ostr :=
      { scenarioName := redirect scenario.scenarioNameStringId.toNat scenario.ostr.scenarioName
        scenarioDescription :=
          redirect scenario.scenarioDescriptionStringId.toNat scenario.ostr.scenarioDescription
        forceName := List.Vector.zipWith (fun holder => redirect holder.toNat)
          scenario.forceString scenario.ostr.forceName
        unitName := List.Vector.zipWith (fun holder => redirect holder.toNat)
          scenario.unisName scenario.ostr.unitName
        expUnitName := List.Vector.zipWith (fun holder => redirect holder.toNat) scenario.unisName
            scenario.ostr.expUnitName
        soundPath := List.Vector.zipWith (fun holder => redirect holder.toNat)
          scenario.soundPath scenario.ostr.soundPath
        switchName := List.Vector.zipWith (fun holder => redirect holder.toNat) scenario.switchName
            scenario.ostr.switchName
        locationName := List.Vector.ofFn fun index =>
          match scenario.locations[index.val + 1]? with
          | some location => redirect location.stringId.toNat
              (scenario.ostr.locationName.get index)
          | none => scenario.ostr.locationName.get index } }

/-- The names that have the editor string get the game string. -/
def redirectToGame (stringId newStringId : ℕ) : LoadedScenario :=
  let redirect := redirect16 stringId newStringId
  let redirectWide := fun holder : UInt32 =>
    redirect32 stringId newStringId holder.toNat
  { scenario with
    scenarioNameStringId := redirect scenario.ostr.scenarioName scenario.scenarioNameStringId
    scenarioDescriptionStringId := redirect scenario.ostr.scenarioDescription
      scenario.scenarioDescriptionStringId
    forceString := List.Vector.zipWith redirect scenario.ostr.forceName scenario.forceString
    unisName := List.Vector.zipWith redirect scenario.ostr.unitName scenario.unisName
    unixName := List.Vector.zipWith redirect scenario.ostr.expUnitName scenario.unixName
    soundPath := List.Vector.zipWith redirectWide scenario.ostr.soundPath scenario.soundPath
    switchName := List.Vector.zipWith redirectWide scenario.ostr.switchName scenario.switchName
    locations := scenario.locations.take 1 ++ List.zipWith (fun holder location =>
        { location with stringId := redirect holder location.stringId })
          scenario.ostr.locationName.toList scenario.locations.tail }

/-- The strings that were replaced are deleted if they are unused. -/
def deleteReplaced (storageScope : Scope) (replaced : List ℕ) : LoadedScenario :=
  (ascending replaced).foldl
    (fun scenario stringId => scenario.deleteString stringId storageScope true)
    scenario

/-- The editor strings of the names that get another one. -/
def replacedInOstr (stringId : ℕ) : List ℕ := twoFieldFlags.flatMap fun flag =>
    replacedIds (scenario.readStringIds flag) (scenario.editorStringIds flag) stringId

/-- The game strings of the names that get another one.  For the names of the
expansion UNIS is read, which has its new names by then. -/
def replacedInGame (stringId newStringId : ℕ) : List ℕ := twoFieldFlags.flatMap fun flag =>
    replacedIds (scenario.editorStringIds flag) (if flag = .expansionUnitSettings then
        (scenario.redirectToGame stringId newStringId).readStringIds flag
      else scenario.gameStringIds flag)
      stringId

/-- The branch of `rescopeString` for `Scope::Editor`.  OSTR has no field for a
location behind the last one. -/
def rescopeToEditor (stringId : ℕ) : Except (Fault Exception) LoadedScenario :=
  match getString scenario.str.strings stringId with
  | none => .error (.hazard .undefinedBehavior)
  | some toRescope => do
      let (newStringId, added) ← scenario.addEditorString toRescope
      if newStringId = 0 then
        pure added
      else if (added.locations.drop 256).any fun location => location.stringId.toNat = stringId then
        .error (.thrown .outOfRange)
      else
        pure (((added.redirectToEditor stringId newStringId).deleteString
          stringId .game false).deleteReplaced .editor (added.replacedInOstr stringId))

/-- The branch of `rescopeString` for `Scope::Game`.  OSTR is asked about every
location. -/
def rescopeToGame (stringId : ℕ) : Except (Fault Exception) LoadedScenario :=
  match getString scenario.editorTexts stringId with
  | none => .error (.hazard .undefinedBehavior)
  | some toRescope => do
      let (newStringId, added) ← (scenario.addString toRescope).mapError Fault.thrown
      if newStringId = 0 then
        pure added
      else if 256 < added.locations.length then
        .error (.thrown .outOfRange)
      else
        pure (((added.redirectToGame stringId newStringId).deleteString
          stringId .editor false).deleteReplaced .game (added.replacedInGame stringId newStringId))

/-- The string is moved if it is stored, used and not in the scope yet. -/
def rescope (stringId : ℕ) (changeStorageScopeTo : Scope) :
    Except (Fault Exception) LoadedScenario :=
  if changeStorageScopeTo = .editor ∧ scenario.stringUsed stringId .both .game .all true then
    scenario.rescopeToEditor stringId
  else if changeStorageScopeTo = .game ∧ scenario.stringUsed stringId .both .editor .all true then
    scenario.rescopeToGame stringId
  else
    .ok scenario

/-- `Strings::rescopeString`.  The new id is computed on the way, but every path
ends with `return 0`. -/
def rescopeString (stringId : ℕ) (changeStorageScopeTo : Scope) :
    Except (Fault Exception) (LoadedScenario × ℕ) := do
  let rescoped ← scenario.rescope stringId changeStorageScopeTo
  return (rescoped, 0)

/-- `Strings::getString` with `Scope::EditorOverGame`; game id 0 is no string. -/
def displayedText : ℕ × ℕ → Option ScStr
  | (gameStringId, editorStringId) =>
      if editorStringId ≠ 0 then getString scenario.editorTexts editorStringId
      else resolve scenario.str.strings gameStringId

/-- The two ids of the users of a kind.  Actions have game strings only. -/
def users (flag : StringUserFlag) : List (ℕ × ℕ) :=
  if flag ∈ twoFieldFlags then
    (scenario.gameStringIds flag).zip (scenario.editorStringIds flag)
  else
    (scenario.gameStringIds flag).map fun stringId => (stringId, 0)

/-- The texts the users of a kind display. -/
def displayedTexts (flag : StringUserFlag) : List (Option ScStr) :=
  (scenario.users flag).map scenario.displayedText

def textsIn : Scope → List (Option ScStr)
  | .game => scenario.str.strings
  | .editor => scenario.editorTexts
  | _ => []

/-- The call moves the string: it returns the id under which the other table has
the text, and every user displays what it displayed before. -/
def Rescopes (stringId : ℕ) (storageScope changeStorageScopeTo : Scope) : Prop :=
  ∃ rescoped newStringId, scenario.rescopeString stringId changeStorageScopeTo =
        .ok (rescoped, newStringId) ∧
      (∀ flag, rescoped.displayedTexts flag = scenario.displayedTexts flag) ∧
      newStringId ≠ 0 ∧
      getString (rescoped.textsIn changeStorageScopeTo) newStringId =
        getString (scenario.textsIn storageScope) stringId

variable {scenario}

theorem snd_rescopeString {stringId : ℕ} {changeStorageScopeTo : Scope}
    {result : LoadedScenario × ℕ}
    (hcall : scenario.rescopeString stringId changeStorageScopeTo = .ok result) : result.2 = 0 := by
  rw [rescopeString, Fault.bind_eq_ok_iff] at hcall
  obtain ⟨rescoped, -, hresult⟩ := hcall
  cases hresult
  rfl

theorem not_rescopes (scenario : LoadedScenario) (stringId : ℕ)
    (storageScope changeStorageScopeTo : Scope) :
    ¬ scenario.Rescopes stringId storageScope changeStorageScopeTo := by
  rintro ⟨rescoped, newStringId, hcall, -, hid, -⟩
  exact hid (snd_rescopeString hcall)

/-- The name of a scenario and a text of a trigger. -/
def namedScenario : LoadedScenario :=
  { (bareScenario [triggerWith { (default : Action) with
      actionType := 9
      stringId := 1 }] []).withStrings [none, some [65]] with
    scenarioNameStringId := 1 }

/-- A scenario name is moved to the editor, and the call returns 0; a trigger
with the same string shows none. -/
theorem rescopeString_returns_zero : namedScenario.stringUsed 1 .both .game .all true = true ∧
      namedScenario.displayedTexts .triggerAction = [some [65]] ∧
      (∃ rescoped, namedScenario.rescopeString 1 .editor = .ok (rescoped, 0) ∧
        rescoped.displayedTexts .triggerAction = [none]) ∧
      ¬ namedScenario.Rescopes 1 .game .editor := by
  have hcall : (namedScenario.rescopeString 1 .editor).toOption.map
      (fun result => (result.2, result.1.displayedTexts .triggerAction)) =
        some (0, [none]) := by decide +kernel
  obtain ⟨⟨rescoped, newStringId⟩, hresult, hshown⟩ := Fault.exists_ok_of_toOption_map hcall
  obtain ⟨rfl, htexts⟩ := Prod.mk.inj hshown
  refine ⟨by decide +kernel, by decide +kernel, ⟨rescoped, hresult, htexts⟩, ?_⟩
  rintro ⟨other, newStringId, hother, -, hid, -⟩
  exact hid (snd_rescopeString hother)

end LoadedScenario

end Chkdraft.Scenario
