import Chkdraft.TextTrigs.Parser

/-!
# Compiling trigger text into a scenario

`compileTriggers` replaces a range of triggers by the triggers of a text.  The
text is parsed against the tables of the map; then `buildNewMap` puts the
triggers in place, deletes the strings that are not used any more and adds the
new ones, and rolls back when there is no room for them.
-/

namespace Chkdraft.TextTrigs

open Chk Scan Sections Scenario

/-- The settings of a `TextTrigCompiler`, and how many AI scripts of the game
data have a name. -/
structure CompilerSettings where
  useAddressesForMemory : Bool
  deathTableOffset : UInt32
  namedScripts : ℕ

/-- What a compilation reports; only `compiled` is a return value of true. -/
inductive Report where
  | compiled
  | textError (error : TextError)
  | triggerCount (found : ℕ)
  | buildFailed
deriving DecidableEq

/-- `TrigSection::replaceRange`: the new list and the triggers it replaced. -/
def replaceRange (triggers : List Trigger) (beginIndex endIndex : ℕ) (replacement : List Trigger) :
    Except Exception (List Trigger × List Trigger) :=
  if beginIndex = 0 ∧ endIndex = replacement.length then
    .ok (replacement, triggers)
  else if beginIndex < endIndex ∧ endIndex ≤ triggers.length then
    .ok (triggers.take beginIndex ++ replacement ++ triggers.drop endIndex,
      (triggers.drop beginIndex).take (endIndex - beginIndex))
  else
    .error .outOfRange

/-- `*assignee = stringId` for a trigger list in which the parsed triggers start
at `base`. -/
def assignStringId (base : ℕ) (stringId : ℕ) (triggers : List Trigger)
    (assignee : Assignee) : List Trigger :=
  triggers.modify (base + assignee.trigger) fun trigger =>
    { trigger with
      actions := modifyAt trigger.actions assignee.action
        (setStringId assignee.isSound (UInt32.ofNat stringId)) }

/-- The string assignment loop of `buildNewMap`: whether every string found an
id.  An exception of `addString` is caught and ends it. -/
def assignStrings (base : ℕ) : List StringTableNode → LoadedScenario → Bool × LoadedScenario
  | [], scenario => (true, scenario)
  | node :: rest, scenario =>
      match scenario.addString (untilNul node.scStr) with
      | .error _ => (false, scenario)
      | .ok (stringId, scenario) =>
          if stringId = 0 then
            (false, scenario)
          else
            assignStrings base rest
              { scenario with
                trig := node.assignees.foldl (assignStringId base stringId) scenario.trig }

/-- `unassignedStrings`: the nodes made while parsing, in their order. -/
def Parsed.unassignedStrings (parsed : Parsed) : List StringTableNode :=
  parsed.nodes.filter fun node => node.stringId = 0

/-- `buildNewMap`.  The backup holds the game strings only. -/
def buildNewMap (scenario : LoadedScenario) (trigIndexBegin trigIndexEnd : ℕ) (parsed : Parsed) :
    Except (Fault Exception) (Bool × LoadedScenario) := do
  let (trig, replaced) ← (replaceRange scenario.trig trigIndexBegin
    trigIndexEnd parsed.output).mapError Fault.thrown
  let cleaned ← Fault.ofHazard ({ scenario with trig := trig } : LoadedScenario).deleteUnusedStrings
  let (success, built) := assignStrings trigIndexBegin parsed.unassignedStrings cleaned
  if success then
    return (true, built)
  else
    let (trig, _) ← (replaceRange built.trig trigIndexBegin
      (trigIndexBegin + replaced.length) replaced).mapError Fault.thrown
    return (false, { built with trig := trig, str := scenario.str })

/-- The common beginning of `compileTriggers` and `compileTrigger`: the parsed
triggers, or the text error. -/
def parseText (settings : CompilerSettings) (scenario : LoadedScenario)
    (text : Text) (trigIndexBegin trigIndexEnd : ℕ) :
    Except (Fault Exception) (Except TextError Parsed) := do
  let (tables, nodes) ← loadCompiler scenario settings.namedScripts trigIndexBegin trigIndexEnd
  match cleanText text with
  | none => .error (.hazard .endlessLoop)
  | some (cleaned, stringContents) =>
      let input : CompilerInput :=
        { text := cleaned ++ [0]
          stringContents := stringContents
          tables := tables
          useAddressesForMemory := settings.useAddressesForMemory
          deathTableOffset := settings.deathTableOffset }
      match parseTriggers input nodes with
      | .error (.fault fault) => .error fault
      | .error (.textError error) => .ok (.error error)
      | .ok parsed => .ok (.ok parsed)

/-- The parsed triggers inside a list in which they start at `base`. -/
def parsedTriggers (base count : ℕ) (triggers : List Trigger) : List Trigger :=
  (triggers.drop base).take count

/-- `compileTriggers`.  After the new map is built, its trigger list is
exchanged for the parsed triggers alone. -/
def compileTriggers (settings : CompilerSettings) (scenario : LoadedScenario)
    (text : Text) (trigIndexBegin trigIndexEnd : ℕ) :
    Except (Fault Exception) (Report × LoadedScenario) := do
  match ← parseText settings scenario text trigIndexBegin trigIndexEnd with
  | .error error => return (.textError error, scenario)
  | .ok parsed =>
      let (success, built) ← buildNewMap scenario trigIndexBegin trigIndexEnd parsed
      if success then
        return (.compiled,
          { built with
            trig := parsedTriggers trigIndexBegin parsed.output.length built.trig })
      else
        return (.buildFailed, built)

/-- `compileTrigger`, which expects one trigger. -/
def compileTrigger (settings : CompilerSettings) (scenario : LoadedScenario)
    (text : Text) (trigIndex : ℕ) :
    Except (Fault Exception) (Report × LoadedScenario) := do
  match ← parseText settings scenario text trigIndex (trigIndex + 1) with
  | .error error => return (.textError error, scenario)
  | .ok parsed =>
      if parsed.output.length = 1 then
        let (success, built) ← buildNewMap scenario trigIndex (trigIndex + 1) parsed
        return (if success then .compiled else .buildFailed, built)
      else
        return (.triggerCount parsed.output.length, scenario)

end Chkdraft.TextTrigs
