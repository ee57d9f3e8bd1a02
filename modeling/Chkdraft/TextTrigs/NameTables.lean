import Chkdraft.Scenario.Strings
import Chkdraft.TextTrigs.UnitNames

/-!
# The tables of a compiler run

Before a text is compiled, `loadCompiler` collects the names of the map's
locations, units, switches and forces, and the game strings in use.  The hash
tables are lists in the order of insertion: names with equal characters have
equal hashes, so a lookup finds the same entries.
-/

namespace Chkdraft.TextTrigs

open Chk Scan Sections Scenario

variable {scenario : LoadedScenario} {stringId trigIndexBegin trigIndexEnd : ℕ}

/-- The name tables of `TextTrigCompiler`. -/
structure NameTables where
  locationTable : List (ScStr × ℕ)
  unitTable : List (ScStr × ℕ)
  switchTable : List (ScStr × ℕ)
  groupTable : List (ScStr × ℕ)
  scriptTable : List (ScStr × ℕ)

/-- The lookup of locations, units, switches and groups: the lowest id with
that name. -/
def lookupLowest (table : List (ScStr × ℕ)) (name : Text) : Option ℕ :=
  ((table.filter fun entry => entry.1 = name).map Prod.snd).min?

/-- `Chk::LocationId::Anywhere`. -/
def anywhere : ℕ := 64

/-- The entries of a name given by a game and an editor string. -/
def nameEntries (scenario : LoadedScenario) (id gameStringId
    editorStringId : ℕ) : List (ScStr × ℕ) :=
  (getString scenario.str.strings gameStringId).toList.map (·, id) ++
    (getString (scenario.kstr.strings.map (·.map EditorString.chars))
      editorStringId).toList.map (·, id)

/-- The entries of one location.  Reading the name of a location OSTR has no
field for throws. -/
def locationEntries (scenario : LoadedScenario) (locationId : ℕ)
    (location : Location) : Except Exception (List (ScStr × ℕ)) :=
  if locationId = anywhere then
    .ok [(ascii "Anywhere", anywhere)]
  else if 255 < locationId then
    .error .outOfRange
  else
    .ok (nameEntries scenario locationId location.stringId.toNat
      (scenario.ostr.locationName.toList.getD (locationId - 1) 0).toNat)

def prepLocationTable (scenario : LoadedScenario) : Except Exception (List (ScStr × ℕ)) := do
  let entries ← (scenario.locations.tail.zipIdx 1).mapM
    fun (location, locationId) => locationEntries scenario locationId location
  return (ascii "No Location", 0) :: entries.flatten

/-- A unit the map does not name goes by its display name. -/
def prepUnitTable (scenario : LoadedScenario) : List (ScStr × ℕ) :=
  let (gameIds, editorIds) :=
    if 63 ≤ scenario.version then
      (scenario.unixName, scenario.ostr.expUnitName)
    else
      (scenario.unisName, scenario.ostr.unitName)
  (List.range 228).flatMap fun unitType =>
    let displayName := ascii (defaultDisplayNames.getD unitType "")
    [((getString scenario.str.strings
        (gameIds.toList.getD unitType 0).toNat).getD displayName, unitType),
      ((getString (scenario.kstr.strings.map (·.map EditorString.chars))
        (editorIds.toList.getD unitType 0).toNat).getD displayName, unitType)]

def prepSwitchTable (scenario : LoadedScenario) : List (ScStr × ℕ) :=
  (List.range 256).flatMap fun switchIndex =>
    nameEntries scenario switchIndex (scenario.switchName.toList.getD switchIndex 0).toNat
      (scenario.ostr.switchName.toList.getD switchIndex 0).toNat

def prepGroupTable (scenario : LoadedScenario) : List (ScStr × ℕ) :=
  (List.range 4).flatMap fun force =>
    nameEntries scenario (force + 18) (scenario.forceString.toList.getD force 0).toNat
      (scenario.ostr.forceName.toList.getD force 0).toNat

/-- The node inserted for a script is blank: neither its name nor its id is
set.  Only how many scripts of the game data have a name matters. -/
def prepScriptTable (namedScripts : ℕ) : List (ScStr × ℕ) := List.replicate namedScripts ([], 0)

/-- A string field of an action in the parsed triggers, to which a node keeps a
pointer. -/
structure Assignee where
  trigger : ℕ
  action : ℕ
  isSound : Bool
deriving DecidableEq, Repr

/-- `StringTableNode`; `stringId` is 0 until an id is assigned. -/
structure StringTableNode where
  unused : Bool
  scStr : ScStr
  stringId : ℕ
  assignees : List Assignee
deriving DecidableEq

/-- The first part of `prepStringTable`: a node for each id that users other
than trigger texts refer to. -/
def usedStringNodes (scenario : LoadedScenario) : List StringTableNode :=
  (List.range' 1 scenario.str.strings.length).filterMap fun stringId =>
    if scenario.marksGameString .xTrigger stringId then
      (getString scenario.str.strings stringId).map fun scStr =>
        ⟨false, scStr, stringId, []⟩
    else
      none

/-- `prepTriggerString`. -/
def prepTriggerString (scenario : LoadedScenario) (inReplacedRange : Bool)
    (nodes : List StringTableNode) (stringId : ℕ) : List StringTableNode :=
  match getString scenario.str.strings stringId with
  | none => nodes
  | some scStr =>
      match nodes.findIdx? fun node =>
        node.stringId = stringId ∧ untilNul node.scStr = untilNul scStr with
      | some index =>
          nodes.modify index fun node =>
            { node with unused := node.unused && inReplacedRange }
      | none => nodes ++ [⟨inReplacedRange, scStr, stringId, []⟩]

/-- The string and the sound of one action, where its type has them. -/
def actionStringIds (action : Action) : List ℕ :=
  (if actionUsesStringArg action.actionType ∧ 0 < action.stringId then
    [action.stringId.toNat] else []) ++
  (if actionUsesSoundArg action.actionType ∧ 0 < action.soundStringId then
    [action.soundStringId.toNat] else [])

/-- `prepStringTable` for game strings. -/
def prepStringTable (scenario : LoadedScenario) (trigIndexBegin
    trigIndexEnd : ℕ) : List StringTableNode :=
  scenario.trig.zipIdx.foldl (fun nodes (trigger, trigIndex) =>
      let inReplacedRange := trigIndexBegin ≤ trigIndex ∧ trigIndex < trigIndexEnd
      (trigger.actions.toList.flatMap actionStringIds).foldl
        (prepTriggerString scenario inReplacedRange) nodes)
    (usedStringNodes scenario)

/-- A node made for a string of the map. -/
structure StringTableNode.OfMap (scenario : LoadedScenario) (node : StringTableNode) : Prop where
  assignees : node.assignees = []
  stringId : node.stringId ≠ 0
  stored : getString scenario.str.strings node.stringId = some node.scStr

variable {node : StringTableNode}

theorem usedStringNodes_ofMap (hnode : node ∈ usedStringNodes scenario) : node.OfMap scenario := by
  rw [usedStringNodes, List.mem_filterMap] at hnode
  obtain ⟨stringId, hrange, hsome⟩ := hnode
  split at hsome
  · obtain ⟨scStr, hstring, rfl⟩ := Option.map_eq_some_iff.mp hsome
    rw [List.mem_range'_1] at hrange
    exact ⟨rfl, Nat.ne_of_gt hrange.1, hstring⟩
  · cases hsome

variable {nodes : List StringTableNode}

theorem prepTriggerString_ofMap {inReplacedRange : Bool} (hpos : 0 < stringId)
    (hnodes : ∀ node ∈ nodes, node.OfMap scenario) :
    ∀ node ∈ prepTriggerString scenario inReplacedRange nodes stringId, node.OfMap scenario := by
  intro node hnode
  rw [prepTriggerString] at hnode
  split at hnode
  · exact hnodes node hnode
  · rename_i scStr hstring
    split at hnode
    · rename_i index hindex
      obtain ⟨position, hposition⟩ := List.mem_iff_getElem?.mp hnode
      rw [List.getElem?_modify, Option.map_eq_map, Option.map_eq_some_iff] at hposition
      obtain ⟨original, horiginal, rfl⟩ := hposition
      have hofMap := hnodes original (List.mem_of_getElem? horiginal)
      split
      · exact ⟨hofMap.assignees, hofMap.stringId, hofMap.stored⟩
      · exact hofMap
    · rcases List.mem_append.mp hnode with hold | hnew
      · exact hnodes node hold
      · rw [List.mem_singleton.mp hnew]
        exact ⟨rfl, Nat.ne_of_gt hpos, hstring⟩

theorem actionStringIds_pos {action : Action} (hmem : stringId ∈ actionStringIds action) :
    0 < stringId := by
  rw [actionStringIds] at hmem
  rcases List.mem_append.mp hmem with hstring | hsound
  · split at hstring
    · rename_i huses
      rw [List.mem_singleton.mp hstring]
      exact UInt32.lt_iff_toNat_lt.mp huses.2
    · cases hstring
  · split at hsound
    · rename_i huses
      rw [List.mem_singleton.mp hsound]
      exact UInt32.lt_iff_toNat_lt.mp huses.2
    · cases hsound

/-- Every node of the string table stands for a string of the map. -/
theorem prepStringTable_ofMap
    (hnode : node ∈ prepStringTable scenario trigIndexBegin trigIndexEnd) :
    node.OfMap scenario := by
  apply List.foldlRecOn (motive := fun nodes : List StringTableNode =>
    ∀ node ∈ nodes, node.OfMap scenario) _ _ (fun _ => usedStringNodes_ofMap)
    _ node hnode
  intro nodes hnodes entry _
  apply List.foldlRecOn (motive := fun nodes : List StringTableNode =>
    ∀ node ∈ nodes, node.OfMap scenario) _ _ hnodes
  intro nodes hnodes stringId hmem
  obtain ⟨action, -, haction⟩ := List.mem_flatMap.mp hmem
  exact prepTriggerString_ofMap (actionStringIds_pos haction) hnodes

/-- The bit sets of `prepStringTable` are read up to the capacity of the tables,
and the marks of editor users are written without a bound. -/
def stringTablesInRange (scenario : LoadedScenario) : Bool :=
  scenario.str.strings.length < maxStrings ∧ scenario.kstr.strings.length < maxStrings ∧
    scenario.editorMarkOutOfRange = false

/-- `loadCompiler`.  It returns true whenever it returns; the table of editor
strings is built too, but nothing reads it. -/
def loadCompiler (scenario : LoadedScenario) (namedScripts trigIndexBegin trigIndexEnd : ℕ) :
    Except (Fault Exception) (NameTables × List StringTableNode) := do
  let locationTable ← (prepLocationTable scenario).mapError Fault.thrown
  if stringTablesInRange scenario then
    return (
      { locationTable := locationTable
        unitTable := prepUnitTable scenario
        switchTable := prepSwitchTable scenario
        groupTable := prepGroupTable scenario
        scriptTable := prepScriptTable namedScripts },
      prepStringTable scenario trigIndexBegin trigIndexEnd)
  else
    .error (.hazard .undefinedBehavior)

theorem loadCompiler_spec {namedScripts : ℕ} {tables : NameTables}
    (hload : loadCompiler scenario namedScripts trigIndexBegin trigIndexEnd = .ok (tables, nodes)) :
    stringTablesInRange scenario = true ∧
      nodes = prepStringTable scenario trigIndexBegin trigIndexEnd := by
  rw [loadCompiler, Fault.bind_eq_ok_iff] at hload
  obtain ⟨locationTable, -, hload⟩ := hload
  split at hload
  · rename_i hrange
    cases hload
    exact ⟨hrange, rfl⟩
  · cases hload

end Chkdraft.TextTrigs
