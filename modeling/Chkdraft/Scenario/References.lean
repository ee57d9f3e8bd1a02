import Chkdraft.Scenario.Strings

/-!
# Changing the references to game strings

Renumbering ids and deleting one change string ids in nine sections by the same
traversal: every field with an id gets a value that depends on its old value
only.  Here the traversal is followed once.  The ids of each kind of user are
changed one by one, and the scenario without its ids stays as it is.
-/

namespace Chkdraft.Scenario

open Chk Sections

/-- The actions of the triggers whose types use something. -/
def actionsUsing (uses : UInt8 → Bool) (triggers : List Trigger) : List Action :=
  triggers.flatMap fun trigger =>
    trigger.actions.toList.filter fun action => uses action.actionType

/-- An action with other ids where its type uses them. -/
def updateAction (usesString usesSound : UInt8 → Bool)
    (change : UInt32 → UInt32) (action : Action) : Action :=
  { action with
    stringId :=
      if usesString action.actionType then change action.stringId
      else action.stringId
    soundStringId :=
      if usesSound action.actionType then change action.soundStringId
      else action.soundStringId }

def updateTrigger (usesString usesSound : UInt8 → Bool)
    (change : UInt32 → UInt32) (trigger : Trigger) : Trigger :=
  { trigger with
    actions := trigger.actions.map (updateAction usesString usesSound change) }

/-- Which actions use something does not depend on their ids. -/
theorem actionsUsing_map_updateTrigger (uses usesString usesSound : UInt8 → Bool)
    (change : UInt32 → UInt32) (triggers : List Trigger) :
    actionsUsing uses (triggers.map (updateTrigger usesString usesSound change)) =
      (actionsUsing uses triggers).map (updateAction usesString usesSound change) := by
  rw [actionsUsing, actionsUsing, List.flatMap_map, List.map_flatMap]
  apply List.flatMap_congr
  intro trigger _
  rw [updateTrigger, List.Vector.toList_map, List.filter_map]
  rfl

section

variable (usesString usesSound : UInt8 → Bool) (change : UInt32 → UInt32) (triggers : List Trigger)

/-- The texts the actions of a table hold are changed one by one. -/
theorem stringIds_updateTrigger : (actionsUsing usesString
        (triggers.map (updateTrigger usesString usesSound change))).map Action.stringId =
      ((actionsUsing usesString triggers).map Action.stringId).map change := by
  rw [actionsUsing_map_updateTrigger, List.map_map, List.map_map]
  apply List.map_congr_left
  intro action haction
  obtain ⟨trigger, -, hfilter⟩ := List.mem_flatMap.mp haction
  exact if_pos (List.mem_filter.mp hfilter).2

theorem soundIds_updateTrigger : (actionsUsing usesSound
        (triggers.map (updateTrigger usesString usesSound change))).map Action.soundStringId =
      ((actionsUsing usesSound triggers).map Action.soundStringId).map
        change := by
  rw [actionsUsing_map_updateTrigger, List.map_map, List.map_map]
  apply List.map_congr_left
  intro action haction
  obtain ⟨trigger, -, hfilter⟩ := List.mem_flatMap.mp haction
  exact if_pos (List.mem_filter.mp hfilter).2

end

/-- The bits of an id held by a kind of user. -/
def StringUserFlag.idWidth : StringUserFlag → ℕ
  | .scenarioName | .scenarioDescription | .force | .location
  | .originalUnitSettings | .expansionUnitSettings => 16
  | _ => 32

/-- The tables of briefing actions a traversal goes by. -/
structure BriefingTables where
  usesString : UInt8 → Bool
  usesSound : UInt8 → Bool

def BriefingTables.own : BriefingTables := ⟨briefingActionUsesStringArg, briefingActionUsesSoundArg⟩

namespace LoadedScenario

/-- The traversal of all sections with game string ids. -/
def updateReferences (scenario : LoadedScenario)
    (change16 : UInt16 → UInt16) (change32 : UInt32 → UInt32)
    (tables : BriefingTables) : LoadedScenario :=
  { scenario with
    scenarioNameStringId := change16 scenario.scenarioNameStringId
    scenarioDescriptionStringId := change16 scenario.scenarioDescriptionStringId
    forceString := scenario.forceString.map change16
    unisName := scenario.unisName.map change16
    unixName := scenario.unixName.map change16
    locations := scenario.locations.take 1 ++ scenario.locations.tail.map fun location =>
        { location with stringId := change16 location.stringId }
    soundPath := scenario.soundPath.map change32
    switchName := scenario.switchName.map change32
    trig := scenario.trig.map (updateTrigger actionUsesStringArg actionUsesSoundArg change32)
    mbrf := scenario.mbrf.map (updateTrigger tables.usesString tables.usesSound change32) }

theorem remapStringIds_eq (scenario : LoadedScenario) (remappings : List (ℕ × ℕ)) :
    scenario.remapStringIds remappings =
      scenario.updateReferences (remap16 remappings) (remap32 remappings)
        .own := rfl

/-- The ids of a kind, as they are changed. -/
def changedId (change16 : UInt16 → UInt16) (change32 : UInt32 → UInt32)
    (flag : StringUserFlag) (stringId : ℕ) : ℕ :=
  if flag.idWidth = 16 then (change16 (UInt16.ofNat stringId)).toNat
  else (change32 (UInt32.ofNat stringId)).toNat

theorem map_toNat_map16 (fields : List UInt16) (change : UInt16 → UInt16) :
    (fields.map change).map UInt16.toNat = (fields.map UInt16.toNat).map fun stringId =>
        (change (UInt16.ofNat stringId)).toNat := by
  rw [List.map_map, List.map_map]
  apply List.map_congr_left
  intro field _
  simp

theorem map_toNat_map32 (fields : List UInt32) (change : UInt32 → UInt32) :
    (fields.map change).map UInt32.toNat = (fields.map UInt32.toNat).map fun stringId =>
        (change (UInt32.ofNat stringId)).toNat := by
  rw [List.map_map, List.map_map]
  apply List.map_congr_left
  intro field _
  simp

theorem actionIds_eq (uses : UInt8 → Bool) (field : Action → UInt32) (triggers : List Trigger) :
    (triggers.flatMap fun trigger =>
        (trigger.actions.toList.filter fun action =>
          uses action.actionType).map field) =
      (actionsUsing uses triggers).map field := by
  rw [actionsUsing, List.map_flatMap]

/-- The ids of every kind of user are changed one by one. -/
theorem gameStringIds_updateReferences (scenario : LoadedScenario)
    (change16 : UInt16 → UInt16) (change32 : UInt32 → UInt32)
    (flag : StringUserFlag) :
    (scenario.updateReferences change16 change32 .own).gameStringIds flag =
      (scenario.gameStringIds flag).map (changedId change16 change32 flag) := by
  have htexts : ∀ uses usesSound (triggers : List Trigger),
      ((triggers.map (updateTrigger uses usesSound change32)).flatMap
          fun trigger => (trigger.actions.toList.filter fun action =>
            uses action.actionType).map Action.stringId).map UInt32.toNat =
        ((triggers.flatMap fun trigger =>
          (trigger.actions.toList.filter fun action =>
            uses action.actionType).map Action.stringId).map UInt32.toNat).map
          fun stringId => (change32 (UInt32.ofNat stringId)).toNat := by
    intro uses usesSound triggers
    rw [actionIds_eq, actionIds_eq, stringIds_updateTrigger, map_toNat_map32]
  have hsounds : ∀ usesString uses (triggers : List Trigger),
      ((triggers.map (updateTrigger usesString uses change32)).flatMap
          fun trigger => (trigger.actions.toList.filter fun action =>
            uses action.actionType).map Action.soundStringId).map UInt32.toNat =
        ((triggers.flatMap fun trigger =>
          (trigger.actions.toList.filter fun action =>
            uses action.actionType).map Action.soundStringId).map UInt32.toNat).map
          fun stringId => (change32 (UInt32.ofNat stringId)).toNat := by
    intro usesString uses triggers
    rw [actionIds_eq, actionIds_eq, soundIds_updateTrigger, map_toNat_map32]
  cases flag with
  | scenarioName => simp [gameStringIds, updateReferences, changedId,
      StringUserFlag.idWidth]
  | scenarioDescription => simp [gameStringIds, updateReferences, changedId,
      StringUserFlag.idWidth]
  | force =>
      simp only [gameStringIds, updateReferences, List.Vector.toList_map]
      exact map_toNat_map16 _ _
  | originalUnitSettings =>
      simp only [gameStringIds, updateReferences, List.Vector.toList_map]
      exact map_toNat_map16 _ _
  | expansionUnitSettings =>
      simp only [gameStringIds, updateReferences, List.Vector.toList_map]
      exact map_toNat_map16 _ _
  | sound =>
      simp only [gameStringIds, updateReferences, List.Vector.toList_map]
      exact map_toNat_map32 _ _
  | switch =>
      simp only [gameStringIds, updateReferences, List.Vector.toList_map]
      exact map_toNat_map32 _ _
  | location =>
      have htail : (scenario.updateReferences change16 change32
          .own).locations.tail = scenario.locations.tail.map fun location =>
            { location with stringId := change16 location.stringId } := by
        rw [updateReferences]
        cases scenario.locations with
        | nil => rfl
        | cons first rest => rfl
      simp only [gameStringIds, htail, List.map_map]
      apply List.map_congr_left
      intro location _
      simp [changedId, StringUserFlag.idWidth]
  | triggerAction => exact htexts _ _ _
  | triggerActionSound => exact hsounds _ _ _
  | briefingTriggerAction => exact htexts _ _ _
  | briefingTriggerActionSound => exact hsounds _ _ _
  | extendedTriggerComment => rfl
  | extendedTriggerNotes => rfl

theorem lt_of_mem_gameStringIds {scenario : LoadedScenario}
    {flag : StringUserFlag} {stringId : ℕ}
    (hmem : stringId ∈ scenario.gameStringIds flag) :
    stringId < 2 ^ flag.idWidth := by
  have h16 : ∀ fields : List UInt16, stringId ∈ fields.map UInt16.toNat → stringId < 2 ^ 16 := by
    intro fields hfields
    obtain ⟨field, -, rfl⟩ := List.mem_map.mp hfields
    exact field.toNat_lt
  have h32 : ∀ fields : List UInt32, stringId ∈ fields.map UInt32.toNat → stringId < 2 ^ 32 := by
    intro fields hfields
    obtain ⟨field, -, rfl⟩ := List.mem_map.mp hfields
    exact field.toNat_lt
  cases flag with
  | scenarioName => exact h16 [_] hmem
  | scenarioDescription => exact h16 [_] hmem
  | force => exact h16 _ hmem
  | originalUnitSettings => exact h16 _ hmem
  | expansionUnitSettings => exact h16 _ hmem
  | location =>
      obtain ⟨location, -, rfl⟩ := List.mem_map.mp hmem
      exact location.stringId.toNat_lt
  | extendedTriggerComment => cases hmem
  | extendedTriggerNotes => cases hmem
  | _ => exact h32 _ hmem

theorem changedId_remap (remappings : List (ℕ × ℕ)) {flag : StringUserFlag}
    {stringId : ℕ} (hlt : stringId < 2 ^ flag.idWidth) :
    changedId (remap16 remappings) (remap32 remappings) flag stringId =
      remapped remappings stringId % 2 ^ flag.idWidth := by
  have hwidth : flag.idWidth = 16 ∨ flag.idWidth = 32 := by
    cases flag <;> simp [StringUserFlag.idWidth]
  rcases hwidth with hwidth | hwidth
  · rw [hwidth] at hlt ⊢
    have hnat : (UInt16.ofNat stringId).toNat = stringId := by
      rw [UInt16.toNat_ofNat']
      exact Nat.mod_eq_of_lt hlt
    rw [changedId, if_pos hwidth, remap16, hnat, UInt16.toNat_ofNat']
  · rw [hwidth] at hlt ⊢
    have hnat : (UInt32.ofNat stringId).toNat = stringId := by
      rw [UInt32.toNat_ofNat']
      exact Nat.mod_eq_of_lt hlt
    rw [changedId, if_neg (by omega), remap32, hnat, UInt32.toNat_ofNat']

theorem gameStringIds_remapStringIds (scenario : LoadedScenario)
    (remappings : List (ℕ × ℕ)) (flag : StringUserFlag) :
    (scenario.remapStringIds remappings).gameStringIds flag =
      (scenario.gameStringIds flag).map fun stringId =>
        remapped remappings stringId % 2 ^ flag.idWidth := by
  rw [remapStringIds_eq, gameStringIds_updateReferences]
  apply List.map_congr_left
  intro stringId hmem
  exact changedId_remap remappings (lt_of_mem_gameStringIds hmem)

/-- The string under an id; id 0 is no string. -/
def resolve (strings : List (Option ScStr)) (stringId : ℕ) : Option ScStr :=
  if stringId = 0 then none else getString strings stringId

theorem gameContents_eq (scenario : LoadedScenario) (flag : StringUserFlag) :
    gameContents scenario flag =
      (scenario.gameStringIds flag).map (resolve scenario.str.strings) := rfl

/-- What the users resolve to in another table after renumbering. -/
theorem gameContents_remapStringIds (scenario : LoadedScenario)
    (strings : List (Option ScStr)) (remappings : List (ℕ × ℕ))
    (flag : StringUserFlag) :
    gameContents ((scenario.withStrings strings).remapStringIds remappings) flag =
      (scenario.gameStringIds flag).map fun stringId =>
        resolve strings (remapped remappings stringId % 2 ^ flag.idWidth) := by
  rw [gameContents_eq, gameStringIds_remapStringIds, List.map_map, gameStringIds_withStrings]
  rfl

theorem updateAction_updateAction (usesString usesSound : UInt8 → Bool)
    (first second : UInt32 → UInt32) (action : Action) :
    updateAction usesString usesSound second (updateAction usesString usesSound first action) =
      updateAction usesString usesSound (second ∘ first) action := by
  unfold updateAction
  congr 1
  · simp only
    split <;> rfl
  · simp only
    split <;> rfl

theorem updateTrigger_updateTrigger (usesString usesSound : UInt8 → Bool)
    (first second : UInt32 → UInt32) (trigger : Trigger) :
    updateTrigger usesString usesSound second (updateTrigger usesString usesSound first trigger) =
      updateTrigger usesString usesSound (second ∘ first) trigger := by
  simp only [updateTrigger, Trigger.mk.injEq, true_and, and_true]
  apply List.Vector.toList_injective
  rw [List.Vector.toList_map, List.Vector.toList_map, List.Vector.toList_map, List.map_map]
  apply List.map_congr_left
  intro action _
  exact updateAction_updateAction usesString usesSound first second action

theorem updateReferences_updateReferences (scenario : LoadedScenario)
    (first16 second16 : UInt16 → UInt16) (first32 second32 : UInt32 → UInt32)
    (tables : BriefingTables) :
    (scenario.updateReferences first16 first32 tables).updateReferences second16 second32 tables =
      scenario.updateReferences (second16 ∘ first16) (second32 ∘ first32)
        tables := by
  have hvector16 : ∀ {count} (fields : List.Vector UInt16 count),
      (fields.map first16).map second16 = fields.map (second16 ∘ first16) := by
    intro count fields
    apply List.Vector.toList_injective
    simp
  have hvector32 : ∀ {count} (fields : List.Vector UInt32 count),
      (fields.map first32).map second32 = fields.map (second32 ∘ first32) := by
    intro count fields
    apply List.Vector.toList_injective
    simp
  have htriggers : ∀ usesString usesSound (triggers : List Trigger),
      (triggers.map (updateTrigger usesString usesSound first32)).map
          (updateTrigger usesString usesSound second32) =
        triggers.map (updateTrigger usesString usesSound (second32 ∘ first32)) := by
    intro usesString usesSound triggers
    rw [List.map_map]
    apply List.map_congr_left
    intro trigger _
    exact updateTrigger_updateTrigger usesString usesSound first32 second32 trigger
  have hlocations : ∀ locations : List Location,
      (locations.take 1 ++ locations.tail.map fun location : Location =>
          { location with stringId := first16 location.stringId }).take 1 ++
        (locations.take 1 ++ locations.tail.map fun location : Location =>
          { location with
            stringId := first16 location.stringId }).tail.map (fun location : Location =>
                { location with stringId := second16 location.stringId }) =
      locations.take 1 ++ locations.tail.map fun location : Location =>
        { location with
          stringId := (second16 ∘ first16) location.stringId } := by
    intro locations
    cases locations with
    | nil => rfl
    | cons first rest => simp
  simp only [updateReferences, hvector16, hvector32, htriggers, hlocations, Function.comp_apply]

/-- The scenario with no id in any reference. -/
def withoutReferences (scenario : LoadedScenario) : LoadedScenario :=
  scenario.updateReferences (fun _ => 0) (fun _ => 0) .own

theorem withoutReferences_updateReferences (scenario : LoadedScenario)
    (change16 : UInt16 → UInt16) (change32 : UInt32 → UInt32) :
    (scenario.updateReferences change16 change32 .own).withoutReferences =
      scenario.withoutReferences :=
  scenario.updateReferences_updateReferences change16 (fun _ => 0) change32 (fun _ => 0) .own

/-- Renumbering is a simultaneous substitution: each reference gets the value
of the map at its old value, cut to the width of its field, and nothing else
changes. -/
theorem remapStringIds_substitutes (scenario : LoadedScenario) (remappings : List (ℕ × ℕ)) :
    (∀ flag, (scenario.remapStringIds remappings).gameStringIds flag =
      (scenario.gameStringIds flag).map fun stringId =>
        remapped remappings stringId % 2 ^ flag.idWidth) ∧
    (scenario.remapStringIds remappings).withoutReferences =
      scenario.withoutReferences :=
  ⟨scenario.gameStringIds_remapStringIds remappings,
    scenario.withoutReferences_updateReferences _ _⟩

/-- A map to an id of 17 bits leaves the scenario name without a string. -/
theorem remapStringIds_cuts_name : ∃ scenario : LoadedScenario,
      scenario.gameStringIds .scenarioName = [1] ∧
      remapped [(1, 65536)] 1 = 65536 ∧
      (scenario.remapStringIds [(1, 65536)]).gameStringIds .scenarioName = [0] :=
  ⟨{ bareScenario [] [] with scenarioNameStringId := 1 }, by decide, by decide, by decide⟩

end LoadedScenario

end Chkdraft.Scenario
