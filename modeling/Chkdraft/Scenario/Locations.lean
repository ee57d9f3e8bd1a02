import Chkdraft.Chk.TriggerArguments
import Chkdraft.Core.Fault
import Chkdraft.Scenario.LoadedFile

/-!
# Locations and the triggers that name them

`MrgnSection` keeps its locations under ids from 1 on; the entry 0 is null.
Converting a map to the original game leaves 64 of them: the locations that are
used move down to the lowest free ids, and the triggers are told where.
-/

namespace Chkdraft.Scenario

open Chk Sections

/-- `Chk::TotalOriginalLocations`. -/
def totalOriginalLocations : ℕ := 64

/-- `Chk::TotalLocations`. -/
def totalLocations : ℕ := 255

/-- `Chk::LocationId::Anywhere`. -/
def anywhere : ℕ := 64

def conditionLocations (condition : Condition) : List ℕ :=
  if conditionUsesLocationArg condition.conditionType then
    [condition.locationId.toNat]
  else
    []

def actionLocations (action : Action) : List ℕ :=
  (if actionUsesLocationArg action.actionType then [action.locationId.toNat]
    else []) ++
  if actionUsesSecondaryLocationArg action.actionType then
    [action.number.toNat]
  else
    []

/-- All locations a trigger names, in the order of its conditions and
actions. -/
def triggerLocations (trigger : Trigger) : List ℕ :=
  trigger.conditions.toList.flatMap conditionLocations ++
    trigger.actions.toList.flatMap actionLocations

def Referenced (triggers : List Trigger) (locationId : ℕ) : Prop :=
  ∃ trigger ∈ triggers, locationId ∈ triggerLocations trigger

instance (triggers : List Trigger) (locationId : ℕ) : Decidable (Referenced triggers locationId) :=
  inferInstanceAs (Decidable (∃ trigger ∈ triggers, _))

/-- `std::map::find` on an id, which stays if it is not found. -/
def remapLocationId (remappings : List (ℕ × ℕ)) (locationId : UInt32) : UInt32 :=
  match remappings.find? fun entry => entry.1 = locationId.toNat with
  | some entry => UInt32.ofNat entry.2
  | none => locationId

/-- `Condition::remapLocationIds`. -/
def conditionRemapLocationIds (remappings : List (ℕ × ℕ)) (condition : Condition) : Condition :=
  if conditionUsesLocationArg condition.conditionType then
    { condition with
      locationId := remapLocationId remappings condition.locationId }
  else
    condition

/-- `Action::remapLocationIds`.  For an action with a secondary location the
first location is looked up again, and the secondary one is not. -/
def actionRemapLocationIds (remappings : List (ℕ × ℕ)) (action : Action) : Action :=
  let action :=
    if actionUsesLocationArg action.actionType then
      { action with
        locationId := remapLocationId remappings action.locationId }
    else
      action
  if actionUsesSecondaryLocationArg action.actionType then
    { action with
      locationId := remapLocationId remappings action.locationId }
  else
    action

/-- `Trigger::remapLocationIds`. -/
def triggerRemapLocationIds (remappings : List (ℕ × ℕ)) (trigger : Trigger) : Trigger :=
  { trigger with
    conditions := trigger.conditions.map (conditionRemapLocationIds remappings)
    actions := trigger.actions.map (actionRemapLocationIds remappings) }

section Trim

variable (locations : List (Option Location)) (triggers : List Trigger) (lockAnywhere : Bool)

/-- Whether a slot holds a location that is not blank. -/
def NonBlank (locationId : ℕ) : Prop :=
  ∃ location, locations.getD locationId none = some location ∧ location ≠ blankLocation

instance (locationId : ℕ) : Decidable (NonBlank locations locationId) :=
  match h : locations.getD locationId none with
  | none => isFalse fun ⟨location, hlocation, _⟩ => by
      rw [h] at hlocation
      cases hlocation
  | some location =>
      if hblank : location = blankLocation then
        isFalse fun ⟨other, hother, hne⟩ => by
          rw [h] at hother
          cases hother
          exact hne hblank
      else
        isTrue ⟨location, h, hblank⟩

/-- `locationIdUsed` behind `Triggers::markUsedLocations` and
`MrgnSection::markNonZeroLocations`; the latter stops before id 255. -/
def locationIdUsed (locationId : ℕ) : Bool :=
  decide (Referenced triggers locationId ∧ locationId ≠ 0 ∧ locationId ≤ totalLocations) ||
    decide (NonBlank locations locationId ∧ 1 ≤ locationId ∧
      locationId < min totalLocations locations.length)

/-- `countUsedOrCreated`. -/
def countUsedOrCreated : ℕ := (List.range' 1 totalLocations).countP fun locationId =>
    locationIdUsed locations triggers locationId || (decide (locationId = anywhere) && lockAnywhere)

/-- `MrgnSection::locationsFitOriginal`. -/
def locationsFitOriginal : Bool :=
  decide (countUsedOrCreated locations triggers lockAnywhere ≤ totalOriginalLocations)

end Trim

/-- The variables of `MrgnSection::trimToOriginal`. -/
structure Trimming where
  locations : List (Option Location)
  used : ℕ → Bool
  remappings : List (ℕ × ℕ)

/-- One round of the loop over `firstUnused`: the next used location moves down
to a free id. -/
def moveToUnused (lockAnywhere : Bool) (state : Trimming) (firstUnused : ℕ) :
    Except Hazard Trimming :=
  if state.used firstUnused = false ∧ (firstUnused ≠ anywhere ∨ lockAnywhere = false) then
    match (List.range' (firstUnused + 1) (totalLocations - firstUnused)).find?
        fun locationId => state.used locationId &&
          (decide (locationId ≠ anywhere) || !lockAnywhere) with
    | some locationId =>
        if locationId < state.locations.length then
          .ok
            { locations := (state.locations.set firstUnused
                (state.locations.getD locationId none)).set locationId (some blankLocation)
              used := Function.update (Function.update state.used firstUnused true) locationId false
              remappings := state.remappings ++ [(locationId, firstUnused)] }
        else
          .error .undefinedBehavior
    | none => .ok state
  else
    .ok state

/-- `MrgnSection::trimToOriginal` with `Triggers` as the synchronizer: the
result, the locations and the triggers. -/
def trimToOriginal (locations : List (Option Location))
    (triggers : List Trigger) (lockAnywhere : Bool) :
    Except Hazard (Bool × List (Option Location) × List Trigger) :=
  if totalOriginalLocations < locations.length ∧
      countUsedOrCreated locations triggers lockAnywhere ≤ totalOriginalLocations then do
    let state ← (List.range' 1 totalLocations).foldlM (moveToUnused lockAnywhere)
      ⟨locations, locationIdUsed locations triggers, []⟩
    pure (true, state.locations.take (totalOriginalLocations + 1),
      triggers.map (triggerRemapLocationIds state.remappings))
  else
    .ok (false, locations, triggers)

end Chkdraft.Scenario
