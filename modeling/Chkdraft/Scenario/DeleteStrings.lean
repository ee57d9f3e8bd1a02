import Chkdraft.Core.Table
import Chkdraft.Scenario.References
import Chkdraft.Scenario.UsageAgreement

/-!
# Deleting strings

`Strings::deleteString` empties an id of a table and the fields that hold the
id.  Before it deletes only what is unused it asks whether the id is used: for
game storage it asks users in the game and not those of the editor, for editor
storage it asks OSTR and not the extended data of triggers.  Fields of briefing
actions are emptied as if they were trigger actions.
-/

namespace Chkdraft.Scenario

open Chk Sections

def clear16 (stringId : ℕ) (field : UInt16) : UInt16 :=
  if field.toNat = stringId then 0 else field

def clear32 (stringId : ℕ) (field : UInt32) : UInt32 :=
  if field.toNat = stringId then 0 else field

/-- `Trigger::deleteString`, `Action::deleteString` for each action. -/
def triggerDeleteString (stringId : ℕ) (trigger : Trigger) : Trigger :=
  updateTrigger actionUsesStringArg actionUsesSoundArg (clear32 stringId) trigger

/-- `OstrSection::deleteString`. -/
def Ostr.deleteString (stringId : ℕ) (ostr : Ostr) : Ostr where
  scenarioName := clear32 stringId ostr.scenarioName
  scenarioDescription := clear32 stringId ostr.scenarioDescription
  forceName := ostr.forceName.map (clear32 stringId)
  unitName := ostr.unitName.map (clear32 stringId)
  expUnitName := ostr.expUnitName.map (clear32 stringId)
  soundPath := ostr.soundPath.map (clear32 stringId)
  switchName := ostr.switchName.map (clear32 stringId)
  locationName := ostr.locationName.map (clear32 stringId)

/-- `KtrgSection::deleteEditorString`. -/
def ktrgDeleteEditorString (stringId : ℕ)
    (ktrg : List (Option ExtendedTrigData)) : List (Option ExtendedTrigData) :=
  ktrg.map <| Option.map fun extendedTrig =>
    { extendedTrig with
      commentStringId := clear32 stringId extendedTrig.commentStringId
      notesStringId := clear32 stringId extendedTrig.notesStringId }

def UserMask.none : UserMask := fun _ => false

namespace LoadedScenario

/-- `deleteString` of SPRP, FORC, UNIS, UNIx, MRGN, WAV, SWNM, TRIG and MBRF.
`MbrfSection::deleteString` calls the function for triggers, not the one for
briefing triggers. -/
def deleteGameReferences (scenario : LoadedScenario) (stringId : ℕ) : LoadedScenario :=
  { scenario with
    scenarioNameStringId := clear16 stringId scenario.scenarioNameStringId
    scenarioDescriptionStringId := clear16 stringId scenario.scenarioDescriptionStringId
    forceString := scenario.forceString.map (clear16 stringId)
    unisName := scenario.unisName.map (clear16 stringId)
    unixName := scenario.unixName.map (clear16 stringId)
    locations := scenario.locations.take 1 ++ scenario.locations.tail.map fun location =>
        { location with stringId := clear16 stringId location.stringId }
    soundPath := scenario.soundPath.map (clear32 stringId)
    switchName := scenario.switchName.map (clear32 stringId)
    trig := scenario.trig.map (triggerDeleteString stringId)
    mbrf := scenario.mbrf.map (triggerDeleteString stringId) }

/-- `deleteString` of OSTR and KTRG. -/
def deleteEditorReferences (scenario : LoadedScenario) (stringId : ℕ) : LoadedScenario :=
  { scenario with
    ostr := scenario.ostr.deleteString stringId
    ktrg := ktrgDeleteEditorString stringId scenario.ktrg }

/-- `StrSection::deleteString`.  Its question passes `false` as the mask, which
selects no user. -/
def strDeleteString (scenario : LoadedScenario) (stringId : ℕ)
    (deleteOnlyIfUnused : Bool) : LoadedScenario :=
  if !deleteOnlyIfUnused || !scenario.stringUsed stringId .both .game .none false then
    scenario.withStrings (scenario.str.strings.set stringId none)
  else
    scenario

/-- `KstrSection::deleteString`. -/
def kstrDeleteString (scenario : LoadedScenario) (stringId : ℕ)
    (deleteOnlyIfUnused : Bool) : LoadedScenario :=
  if !deleteOnlyIfUnused || !scenario.stringUsed stringId .both .editor .all false then
    { scenario with
      kstr :=
        { scenario.kstr with
          strings := scenario.kstr.strings.set stringId none } }
  else
    scenario

/-- The part of `Strings::deleteString` for game storage. -/
def deleteGameString (scenario : LoadedScenario) (stringId : ℕ)
    (deleteOnlyIfUnused : Bool) : LoadedScenario :=
  if !deleteOnlyIfUnused || !scenario.stringUsed stringId .game .game .all false then
    (scenario.strDeleteString stringId deleteOnlyIfUnused).deleteGameReferences stringId
  else
    scenario

/-- The part of `Strings::deleteString` for editor storage. -/
def deleteEditorString (scenario : LoadedScenario) (stringId : ℕ)
    (deleteOnlyIfUnused : Bool) : LoadedScenario :=
  if !deleteOnlyIfUnused || !scenario.stringUsed stringId .both .editor .all true then
    (scenario.kstrDeleteString stringId deleteOnlyIfUnused).deleteEditorReferences stringId
  else
    scenario

/-- `Strings::deleteString`.  Where it goes ahead the table asks once more, and
the fields with the id are emptied whatever the answer is. -/
def deleteString (scenario : LoadedScenario) (stringId : ℕ)
    (storageScope : Scope) (deleteOnlyIfUnused : Bool) : LoadedScenario :=
  let scenario :=
    if storageScope.hasGame then
      scenario.deleteGameString stringId deleteOnlyIfUnused
    else
      scenario
  if storageScope.hasEditor then
    scenario.deleteEditorString stringId deleteOnlyIfUnused
  else
    scenario

/-- Emptying game fields is a traversal with the tables of triggers. -/
theorem deleteGameReferences_eq (scenario : LoadedScenario) (stringId : ℕ) :
    scenario.deleteGameReferences stringId =
      scenario.updateReferences (clear16 stringId) (clear32 stringId)
        ⟨actionUsesStringArg, actionUsesSoundArg⟩ := rfl

def clearedId (stringId other : ℕ) : ℕ :=
  if other = stringId then 0 else other

theorem toNat_clear16 (stringId : ℕ) (field : UInt16) :
    (clear16 stringId field).toNat = clearedId stringId field.toNat := by
  rw [clear16, clearedId]
  split <;> rfl

theorem toNat_clear32 (stringId : ℕ) (field : UInt32) :
    (clear32 stringId field).toNat = clearedId stringId field.toNat := by
  rw [clear32, clearedId]
  split <;> rfl

theorem changedId_clear (stringId : ℕ) {flag : StringUserFlag} {other : ℕ}
    (hlt : other < 2 ^ flag.idWidth) :
    changedId (clear16 stringId) (clear32 stringId) flag other = clearedId stringId other := by
  have hwidth : flag.idWidth = 16 ∨ flag.idWidth = 32 := by
    cases flag <;> simp [StringUserFlag.idWidth]
  rcases hwidth with hwidth | hwidth
  · rw [hwidth] at hlt
    rw [changedId, if_pos hwidth, toNat_clear16, UInt16.toNat_ofNat', Nat.mod_eq_of_lt hlt]
  · rw [hwidth] at hlt
    rw [changedId, if_neg (by omega), toNat_clear32, UInt32.toNat_ofNat', Nat.mod_eq_of_lt hlt]

section

variable (scenario : LoadedScenario)

/-- Users outside of briefing triggers do not depend on the tables. -/
theorem gameStringIds_deleteGameReferences (stringId : ℕ) {flag : StringUserFlag}
    (htext : flag ≠ .briefingTriggerAction)
    (hsound : flag ≠ .briefingTriggerActionSound) :
    (scenario.deleteGameReferences stringId).gameStringIds flag =
      (scenario.gameStringIds flag).map (clearedId stringId) := by
  have htables : (scenario.deleteGameReferences stringId).gameStringIds flag =
      (scenario.updateReferences (clear16 stringId) (clear32 stringId)
        .own).gameStringIds flag := by
    rw [deleteGameReferences_eq]
    cases flag with
    | briefingTriggerAction => exact absurd rfl htext
    | briefingTriggerActionSound => exact absurd rfl hsound
    | _ => simp only [gameStringIds, updateReferences]
  rw [htables, gameStringIds_updateReferences]
  apply List.map_congr_left
  intro other hmem
  exact changedId_clear stringId (lt_of_mem_gameStringIds hmem)

/-- No type of a briefing text is the type of a trigger text, so the texts of
briefing triggers stay. -/
theorem briefingTexts_deleteGameReferences (stringId : ℕ) :
    (scenario.deleteGameReferences stringId).gameStringIds .briefingTriggerAction =
      scenario.gameStringIds .briefingTriggerAction := by
  have htexts : ∀ triggers : List Trigger, triggers.flatMap briefingStringIds =
        (actionsUsing briefingActionUsesStringArg triggers).map
          Action.stringId := fun triggers =>
    actionIds_eq briefingActionUsesStringArg Action.stringId triggers
  have hmbrf : (scenario.deleteGameReferences stringId).mbrf =
      scenario.mbrf.map (updateTrigger actionUsesStringArg actionUsesSoundArg
        (clear32 stringId)) := rfl
  rw [gameStringIds, gameStringIds, htexts, htexts, hmbrf,
    actionsUsing_map_updateTrigger, List.map_map, List.map_map, List.map_map]
  apply List.map_congr_left
  intro action haction
  obtain ⟨trigger, -, hfilter⟩ := List.mem_flatMap.mp haction
  have htype := (List.mem_filter.mp hfilter).2
  have hother : actionUsesStringArg action.actionType = false := by
    simp only [briefingActionUsesStringArg, List.mem_cons, List.not_mem_nil,
      or_false, decide_eq_true_eq] at htype
    rcases htype with htype | htype | htype <;> rw [htype] <;> decide
  simp only [Function.comp_apply, updateAction, hother]
  rfl

theorem gameStringIds_briefingSounds : scenario.gameStringIds .briefingTriggerActionSound =
      (actionsUsing briefingActionUsesSoundArg scenario.mbrf).map fun action =>
        action.soundStringId.toNat :=
  (congrArg _ (actionIds_eq briefingActionUsesSoundArg Action.soundStringId
    scenario.mbrf)).trans (List.map_map ..)

/-- The sound of a transmission is found where a trigger plays a sound; the
sound of the action that only plays one stays. -/
theorem briefingSounds_deleteGameReferences (stringId : ℕ) :
    (scenario.deleteGameReferences stringId).gameStringIds .briefingTriggerActionSound =
      (actionsUsing briefingActionUsesSoundArg scenario.mbrf).map fun action =>
        if action.actionType = 2 then action.soundStringId.toNat
        else clearedId stringId action.soundStringId.toNat := by
  have hsounds : ∀ triggers : List Trigger, triggers.flatMap briefingSoundIds =
        (actionsUsing briefingActionUsesSoundArg triggers).map
          Action.soundStringId := fun triggers =>
    actionIds_eq briefingActionUsesSoundArg Action.soundStringId triggers
  have hmbrf : (scenario.deleteGameReferences stringId).mbrf =
      scenario.mbrf.map (updateTrigger actionUsesStringArg actionUsesSoundArg
        (clear32 stringId)) := rfl
  rw [gameStringIds, hsounds, hmbrf, actionsUsing_map_updateTrigger, List.map_map, List.map_map]
  apply List.map_congr_left
  intro action haction
  obtain ⟨trigger, -, hfilter⟩ := List.mem_flatMap.mp haction
  have htype := (List.mem_filter.mp hfilter).2
  simp only [briefingActionUsesSoundArg, List.mem_cons, List.not_mem_nil,
    or_false, decide_eq_true_eq] at htype
  rcases htype with htype | htype
  · simp only [Function.comp_apply, updateAction, htype]
    rfl
  · have hsame : actionUsesSoundArg action.actionType = true := by
      rw [htype]
      decide
    have hne : ¬ action.actionType = 2 := by
      rw [htype]
      decide
    simp only [Function.comp_apply, updateAction, hsame, if_true, if_neg hne]
    exact toNat_clear32 stringId action.soundStringId

theorem deleteString_forced (stringId : ℕ) :
    scenario.deleteString stringId .game false = (scenario.withStrings
        (scenario.str.strings.set stringId none)).deleteGameReferences
          stringId := rfl

end

theorem clearedId_ne {stringId other : ℕ} (hpos : 0 < stringId) :
    clearedId stringId other ≠ stringId := by
  rw [clearedId]
  split
  · exact hpos.ne
  · assumption

theorem getD_set_none {A : Type*} (strings : List (Option A)) (stringId : ℕ) :
    (strings.set stringId none).getD stringId none = none := by
  rw [List.getD_eq_getElem?_getD, List.getElem?_set]
  split
  · split <;> rfl
  · contradiction

/-- After a string was deleted with its users no field holds its id exactly if
no briefing text held it, nor the sound of a briefing action that plays one. -/
theorem deleteString_clears_iff (scenario : LoadedScenario) (stringId : ℕ) :
    ((scenario.deleteString stringId .game false).str.strings.getD stringId none = none ∧
      (∀ flag, 0 < stringId → stringId ∉
        (scenario.deleteString stringId .game false).gameStringIds flag) ∧
      ∀ flag, List.Forall₂ (fun old new => old ≠ stringId → new = old) (scenario.gameStringIds flag)
        ((scenario.deleteString stringId .game false).gameStringIds flag)) ↔
      (0 < stringId → ∀ trigger ∈ scenario.mbrf, ∀ action ∈ trigger.actions.toList,
          (action.actionType ∈ [3, 4, (8 : UInt8)] → action.stringId.toNat ≠ stringId) ∧
          (action.actionType = 2 → action.soundStringId.toNat ≠ stringId)) := by
  rw [deleteString_forced]
  constructor
  · rintro ⟨-, hgone, -⟩ hpos trigger htrigger action haction
    constructor
    · intro htype heq
      apply hgone .briefingTriggerAction hpos
      rw [briefingTexts_deleteGameReferences, gameStringIds_withStrings]
      exact mem_actionIds_iff.mpr ⟨trigger, htrigger, action, haction, decide_eq_true htype, heq⟩
    · intro htype heq
      apply hgone .briefingTriggerActionSound hpos
      rw [briefingSounds_deleteGameReferences]
      refine List.mem_map.mpr ⟨action, ?_, ?_⟩
      · apply List.mem_flatMap.mpr ⟨trigger, htrigger, ?_⟩
        exact List.mem_filter.mpr ⟨haction, by rw [htype]; rfl⟩
      · rw [if_pos htype]
        exact heq
  · intro hkept
    refine ⟨getD_set_none _ _, fun flag hpos hmem => ?_, fun flag => ?_⟩
    · by_cases htext : flag = .briefingTriggerAction
      · subst htext
        rw [briefingTexts_deleteGameReferences, gameStringIds_withStrings] at hmem
        obtain ⟨trigger, htrigger, action, haction, huses, heq⟩ := mem_actionIds_iff.mp hmem
        exact (hkept hpos trigger htrigger action haction).1 (of_decide_eq_true huses) heq
      · by_cases hsound : flag = .briefingTriggerActionSound
        · subst hsound
          rw [briefingSounds_deleteGameReferences] at hmem
          obtain ⟨action, hmem, heq⟩ := List.mem_map.mp hmem
          obtain ⟨trigger, htrigger, hfilter⟩ := List.mem_flatMap.mp hmem
          have haction := (List.mem_filter.mp hfilter).1
          split at heq
          · rename_i htype
            exact (hkept hpos trigger htrigger action haction).2 htype heq
          · exact clearedId_ne hpos heq
        · rw [gameStringIds_deleteGameReferences _ _ htext hsound] at hmem
          obtain ⟨other, -, heq⟩ := List.mem_map.mp hmem
          exact clearedId_ne hpos heq
    · have hcleared : ∀ other, other ≠ stringId →
          clearedId stringId other = other := fun other hne => if_neg hne
      by_cases htext : flag = .briefingTriggerAction
      · subst htext
        rw [briefingTexts_deleteGameReferences, gameStringIds_withStrings]
        exact List.forall₂_same.mpr fun _ _ _ => rfl
      · by_cases hsound : flag = .briefingTriggerActionSound
        · subst hsound
          rw [briefingSounds_deleteGameReferences, gameStringIds_briefingSounds scenario,
            List.forall₂_map_left_iff, List.forall₂_map_right_iff]
          apply List.forall₂_same.mpr
          intro action _ hne
          split
          · rfl
          · exact hcleared _ hne
        · rw [gameStringIds_deleteGameReferences _ _ htext hsound,
            gameStringIds_withStrings, List.forall₂_map_right_iff]
          exact List.forall₂_same.mpr fun other _ => hcleared other

def triggerWith (action : Action) : Trigger :=
  { blankTrigger with
    actions := List.Vector.ofFn fun index : Fin maxActions =>
      if index.val = 0 then action else default }

/-- A briefing text keeps the id of a string that was deleted. -/
theorem deleteString_leaves_briefing : ∃ scenario : LoadedScenario,
      scenario.gameStringIds .briefingTriggerAction = [1] ∧
      (scenario.deleteString 1 .game false).str.strings = [none, none] ∧
      (scenario.deleteString 1 .game false).gameStringIds .briefingTriggerAction = [1] :=
  ⟨(bareScenario [] [triggerWith
      { (default : Action) with actionType := 3, stringId := 1 }]).withStrings
        [none, some [65]], by decide +kernel, by decide +kernel,
    by decide +kernel⟩

/-- The ids `Trigger::deleteString` compares in briefing triggers. -/
def briefingIdsAsTriggers (scenario : LoadedScenario) : List ℕ :=
  (scenario.mbrf.flatMap triggerStringIds ++ scenario.mbrf.flatMap triggerSoundIds).map UInt32.toNat

def HoldsDeleted (scenario : LoadedScenario) (stringId : ℕ) : Prop :=
  (∃ flag, flag ≠ .briefingTriggerAction ∧ flag ≠ .briefingTriggerActionSound ∧
      stringId ∈ scenario.gameStringIds flag) ∨
    stringId ∈ scenario.briefingIdsAsTriggers

section Unchanged

variable {stringId : ℕ}

theorem map_eq_self {A : Type*} {change : A → A} {entries : List A}
    (hsame : ∀ entry ∈ entries, change entry = entry) :
    entries.map change = entries :=
  (List.map_congr_left hsame).trans (List.map_id entries)

theorem not_mem_of_map_clearedId {ids : List ℕ} (hpos : 0 < stringId)
    (hsame : ids.map (clearedId stringId) = ids) :
    stringId ∉ ids := by
  intro hmem
  rw [← hsame] at hmem
  obtain ⟨other, -, heq⟩ := List.mem_map.mp hmem
  exact clearedId_ne hpos heq

theorem map_clear16_eq_self {count : ℕ} {fields : List.Vector UInt16 count}
    (hnot : stringId ∉ fields.toList.map UInt16.toNat) :
    fields.map (clear16 stringId) = fields := by
  apply List.Vector.toList_injective
  rw [List.Vector.toList_map]
  apply map_eq_self
  intro field hmem
  exact if_neg fun heq => hnot (List.mem_map.mpr ⟨field, hmem, heq⟩)

theorem map_clear32_eq_self {count : ℕ} {fields : List.Vector UInt32 count}
    (hnot : stringId ∉ fields.toList.map UInt32.toNat) :
    fields.map (clear32 stringId) = fields := by
  apply List.Vector.toList_injective
  rw [List.Vector.toList_map]
  apply map_eq_self
  intro field hmem
  exact if_neg fun heq => hnot (List.mem_map.mpr ⟨field, hmem, heq⟩)

theorem map_triggerDeleteString_eq_self_iff (hpos : 0 < stringId)
    {triggers : List Trigger} :
    triggers.map (triggerDeleteString stringId) = triggers ↔
      stringId ∉ (triggers.flatMap triggerStringIds).map UInt32.toNat ∧
        stringId ∉ (triggers.flatMap triggerSoundIds).map UInt32.toNat := by
  have htexts : ∀ triggers : List Trigger, triggers.flatMap triggerStringIds =
        (actionsUsing actionUsesStringArg triggers).map Action.stringId :=
    fun triggers => actionIds_eq actionUsesStringArg Action.stringId triggers
  have hsounds : ∀ triggers : List Trigger, triggers.flatMap triggerSoundIds =
        (actionsUsing actionUsesSoundArg triggers).map Action.soundStringId :=
    fun triggers =>
      actionIds_eq actionUsesSoundArg Action.soundStringId triggers
  have hclear : ∀ ids : List UInt32, (ids.map (clear32 stringId)).map UInt32.toNat =
        (ids.map UInt32.toNat).map (clearedId stringId) := by
    intro ids
    rw [List.map_map, List.map_map]
    exact List.map_congr_left fun field _ =>
      toNat_clear32 stringId field
  constructor
  · intro hsame
    constructor
    · apply not_mem_of_map_clearedId hpos
      rw [htexts, ← hclear]
      nth_rewrite 2 [← hsame]
      rw [← stringIds_updateTrigger]
      rfl
    · apply not_mem_of_map_clearedId hpos
      rw [hsounds, ← hclear]
      nth_rewrite 2 [← hsame]
      rw [← soundIds_updateTrigger]
      rfl
  · rintro ⟨htext, hsound⟩
    apply map_eq_self
    intro trigger htrigger
    have hactions : trigger.actions.map (updateAction actionUsesStringArg
        actionUsesSoundArg (clear32 stringId)) = trigger.actions := by
      apply List.Vector.toList_injective
      rw [List.Vector.toList_map]
      apply map_eq_self
      intro action haction
      have hstring : actionUsesStringArg action.actionType = true →
          clear32 stringId action.stringId = action.stringId := by
        intro huses
        refine if_neg fun heq => htext (mem_actionIds_iff.mpr ?_)
        exact ⟨trigger, htrigger, action, haction, huses, heq⟩
      have hsoundId : actionUsesSoundArg action.actionType = true →
          clear32 stringId action.soundStringId = action.soundStringId := by
        intro huses
        refine if_neg fun heq => hsound (mem_actionIds_iff.mpr ?_)
        exact ⟨trigger, htrigger, action, haction, huses, heq⟩
      rw [updateAction, ite_eq_right_iff.mpr hstring, ite_eq_right_iff.mpr hsoundId]
    rw [triggerDeleteString, updateTrigger, hactions]

end Unchanged

variable {scenario : LoadedScenario} {stringId : ℕ}

theorem deleteGameReferences_eq_self_iff (hpos : 0 < stringId) :
    scenario.deleteGameReferences stringId = scenario ↔ ¬ scenario.HoldsDeleted stringId := by
  have hbriefing : scenario.mbrf.map (triggerDeleteString stringId) =
      scenario.mbrf ↔ stringId ∉ scenario.briefingIdsAsTriggers := by
    rw [map_triggerDeleteString_eq_self_iff hpos, briefingIdsAsTriggers,
      List.map_append, List.mem_append, not_or]
  rw [HoldsDeleted, not_or, ← hbriefing]
  constructor
  · intro hsame
    refine ⟨?_, congrArg mbrf hsame⟩
    rintro ⟨flag, htext, hsound, hmem⟩
    have hids := scenario.gameStringIds_deleteGameReferences stringId htext hsound
    rw [hsame] at hids
    exact not_mem_of_map_clearedId hpos hids.symm hmem
  · rintro ⟨hnone, hmbrf⟩
    have hnot : ∀ flag, flag ≠ .briefingTriggerAction → flag ≠ .briefingTriggerActionSound →
        stringId ∉ scenario.gameStringIds flag :=
      fun flag htext hsound hmem => hnone ⟨flag, htext, hsound, hmem⟩
    have hname : clear16 stringId scenario.scenarioNameStringId =
        scenario.scenarioNameStringId :=
      if_neg fun heq => hnot .scenarioName (by decide) (by decide) (List.mem_singleton.mpr heq.symm)
    have hdescription : clear16 stringId scenario.scenarioDescriptionStringId =
          scenario.scenarioDescriptionStringId :=
      if_neg fun heq => hnot .scenarioDescription (by decide) (by decide)
        (List.mem_singleton.mpr heq.symm)
    have hlocations : scenario.locations.tail.map (fun location =>
        { location with stringId := clear16 stringId location.stringId }) =
          scenario.locations.tail := by
      apply map_eq_self
      intro location hmem
      have hsame : clear16 stringId location.stringId = location.stringId :=
        if_neg fun heq => hnot .location (by decide) (by decide)
          (List.mem_map.mpr ⟨location, hmem, heq⟩)
      rw [hsame]
    have htrig : scenario.trig.map (triggerDeleteString stringId) =
        scenario.trig :=
      (map_triggerDeleteString_eq_self_iff hpos).mpr ⟨hnot .triggerAction (by decide) (by decide),
          hnot .triggerActionSound (by decide) (by decide)⟩
    rw [deleteGameReferences, hname, hdescription, hlocations, htrig, hmbrf,
      map_clear16_eq_self (hnot .force (by decide) (by decide)),
      map_clear16_eq_self (hnot .originalUnitSettings (by decide) (by decide)),
      map_clear16_eq_self (hnot .expansionUnitSettings (by decide) (by decide)),
      map_clear32_eq_self (hnot .sound (by decide) (by decide)),
      map_clear32_eq_self (hnot .switch (by decide) (by decide)),
      ← List.drop_one, List.take_append_drop]

theorem editorStringIds_deleteEditorReferences (scenario : LoadedScenario)
    (stringId : ℕ) (flag : StringUserFlag) :
    (scenario.deleteEditorReferences stringId).editorStringIds flag =
      (scenario.editorStringIds flag).map (clearedId stringId) := by
  have hfields : ∀ {count} (fields : List.Vector UInt32 count),
      (fields.map (clear32 stringId)).toList.map UInt32.toNat =
        (fields.toList.map UInt32.toNat).map (clearedId stringId) := by
    intro count fields
    rw [List.Vector.toList_map, List.map_map, List.map_map]
    exact List.map_congr_left fun field _ => toNat_clear32 stringId field
  have hextended : (ktrgDeleteEditorString stringId scenario.ktrg).reduceOption =
        scenario.ktrg.reduceOption.map fun extendedTrig =>
          { extendedTrig with
            commentStringId := clear32 stringId extendedTrig.commentStringId
            notesStringId := clear32 stringId extendedTrig.notesStringId } :=
    List.reduceOption_map
  cases flag with
  | scenarioName =>
      simp only [editorStringIds, deleteEditorReferences, Ostr.deleteString,
        toNat_clear32, List.map_cons, List.map_nil]
  | scenarioDescription =>
      simp only [editorStringIds, deleteEditorReferences, Ostr.deleteString,
        toNat_clear32, List.map_cons, List.map_nil]
  | extendedTriggerComment =>
      simp only [editorStringIds, deleteEditorReferences, hextended, List.map_map]
      exact List.map_congr_left fun extendedTrig _ => toNat_clear32 stringId _
  | extendedTriggerNotes =>
      simp only [editorStringIds, deleteEditorReferences, hextended, List.map_map]
      exact List.map_congr_left fun extendedTrig _ => toNat_clear32 stringId _
  | triggerAction => rfl
  | triggerActionSound => rfl
  | briefingTriggerAction => rfl
  | briefingTriggerActionSound => rfl
  | _ =>
      simp only [editorStringIds, deleteEditorReferences, Ostr.deleteString]
      exact hfields _

/-- No editor field changes exactly if none holds the id. -/
theorem deleteEditorReferences_eq_self_iff (hpos : 0 < stringId) :
    scenario.deleteEditorReferences stringId = scenario ↔
      ∀ flag, stringId ∉ scenario.editorStringIds flag := by
  constructor
  · intro hsame flag
    have hids := scenario.editorStringIds_deleteEditorReferences stringId flag
    rw [hsame] at hids
    exact not_mem_of_map_clearedId hpos hids.symm
  · intro hnot
    have hname : clear32 stringId scenario.ostr.scenarioName =
        scenario.ostr.scenarioName :=
      if_neg fun heq => hnot .scenarioName (List.mem_singleton.mpr heq.symm)
    have hdescription : clear32 stringId scenario.ostr.scenarioDescription =
        scenario.ostr.scenarioDescription :=
      if_neg fun heq =>
        hnot .scenarioDescription (List.mem_singleton.mpr heq.symm)
    have hktrg : ktrgDeleteEditorString stringId scenario.ktrg =
        scenario.ktrg := by
      apply map_eq_self
      intro entry hentry
      cases entry with
      | none => rfl
      | some extendedTrig =>
          have hmem : extendedTrig ∈ scenario.ktrg.reduceOption :=
            List.reduceOption_mem_iff.mpr hentry
          have hcomment : clear32 stringId extendedTrig.commentStringId =
              extendedTrig.commentStringId :=
            if_neg fun heq => hnot .extendedTriggerComment
              (List.mem_map.mpr ⟨extendedTrig, hmem, heq⟩)
          have hnotes : clear32 stringId extendedTrig.notesStringId =
              extendedTrig.notesStringId :=
            if_neg fun heq => hnot .extendedTriggerNotes
              (List.mem_map.mpr ⟨extendedTrig, hmem, heq⟩)
          rw [Option.map_some, hcomment, hnotes]
    rw [deleteEditorReferences, Ostr.deleteString, hname, hdescription, hktrg,
      map_clear32_eq_self (hnot .force), map_clear32_eq_self (hnot .originalUnitSettings),
      map_clear32_eq_self (hnot .expansionUnitSettings),
      map_clear32_eq_self (hnot .sound), map_clear32_eq_self (hnot .switch),
      map_clear32_eq_self (hnot .location)]

theorem set_none_eq_self_iff {A : Type*} {strings : List (Option A)} :
    strings.set stringId none = strings ↔ strings.getD stringId none = none := by
  constructor
  · intro hsame
    rw [← hsame]
    exact getD_set_none strings stringId
  · intro hnone
    rcases Nat.lt_or_ge stringId strings.length with hlt | hge
    · rw [← hnone, List.getD_eq_getElem _ _ hlt]
      exact List.set_getElem_self hlt
    · exact List.set_eq_of_length_le hge

theorem stringUsed_game_iff : scenario.stringUsed stringId .game .game .all false = true ↔
      scenario.HasGameUser .all stringId := by
  have htriggers : scenario.triggersGameStringUsed stringId .all = true ↔
      stringId ∈ scenario.gameTextIds ∨ stringId ∈ scenario.gameStringIds .triggerActionSound ∨
        stringId ∈ scenario.gameStringIds .briefingTriggerAction ∨
        stringId ∈ scenario.gameStringIds .briefingTriggerActionSound := by
    simp only [triggersGameStringUsed, UserMask.anyTrigger, UserMask.anyBriefingTrigger,
      Bool.or_eq_true, Bool.and_eq_true, trigGameStringUsed_iff, mbrfStringUsed_iff,
      UserMask.all, true_and, or_assoc, or_self]
  rw [HasGameUser]
  simp only [UserMask.anyBriefingTrigger, UserMask.all, Bool.or_self, true_and]
  by_cases hlt : stringId < maxStrings
  · have hnames := @exists_nameFlags_iff scenario .all stringId hlt
    simp only [UserMask.all, true_and] at hnames
    simp only [stringUsed, Bool.not_false, Bool.or_true, Bool.true_and, hlt,
      if_true, narrowStringUsed, Bool.or_eq_true, htriggers, hnames, or_assoc]
  · -- Names have 16 bits and cannot hold the id.
    have hnames : ¬ ∃ flag ∈ nameFlags, stringId ∈ scenario.gameStringIds flag := by
      rintro ⟨flag, hflag, hmem⟩
      have hbound := lt_of_mem_gameStringIds hmem
      have hwidth : flag.idWidth = 16 := by
        revert hflag
        cases flag <;> decide
      rw [hwidth] at hbound
      exact hlt hbound
    simp only [stringUsed, Bool.not_false, Bool.or_true, Bool.true_and, hlt,
      if_false, wideStringUsed, htriggers, hnames, false_or]

theorem stringUsed_none : scenario.stringUsed stringId .both .game .none false = false := by
  simp [stringUsed, narrowStringUsed, wideStringUsed, sprpStringUsed, playersStringUsed,
    propertiesStringUsed, layersStringUsed, triggersStringUsed, UserMask.none,
    UserMask.anyTrigger, UserMask.anyBriefingTrigger]

theorem deleteGameString_of_used
    (hused : scenario.stringUsed stringId .game .game .all false = true) :
    scenario.deleteGameString stringId true = scenario := by
  rw [deleteGameString, hused]
  rfl

theorem deleteGameString_of_unused
    (hused : scenario.stringUsed stringId .game .game .all false = false) :
    scenario.deleteGameString stringId true = (scenario.deleteGameReferences stringId).withStrings
        (scenario.str.strings.set stringId none) := by
  rw [deleteGameString, hused, strDeleteString, stringUsed_none]
  rfl

/-- Game storage is left alone exactly if somebody in the game uses the id, or
if there is nothing to delete. -/
theorem deleteGameString_eq_self_iff (hpos : 0 < stringId) :
    scenario.deleteGameString stringId true = scenario ↔ scenario.HasGameUser .all stringId ∨
        scenario.str.strings.getD stringId none = none ∧ ¬ scenario.HoldsDeleted stringId := by
  rw [← stringUsed_game_iff]
  by_cases hused : scenario.stringUsed stringId .game .game .all false = true
  · exact iff_of_true (deleteGameString_of_used hused) (.inl hused)
  · rw [Bool.not_eq_true] at hused
    rw [deleteGameString_of_unused hused, hused, ← set_none_eq_self_iff,
      ← deleteGameReferences_eq_self_iff hpos]
    constructor
    · intro hsame
      have hstrings : scenario.str.strings.set stringId none =
          scenario.str.strings :=
        congrArg (fun after : LoadedScenario => after.str.strings) hsame
      rw [hstrings] at hsame
      exact .inr ⟨hstrings, hsame⟩
    · rintro (hused | ⟨hstrings, hsame⟩)
      · cases hused
      · rw [hstrings, hsame]
        rfl

/-- A string that is gone already counts as unused, and the fields that hold it
follow. -/
theorem deleteEditorString_of_used (hostr : scenario.ostrStringUsed stringId = true) :
    scenario.deleteEditorString stringId true =
      if scenario.kstr.strings.getD stringId none = none then
        scenario.deleteEditorReferences stringId
      else scenario := by
  rw [deleteEditorString, kstrDeleteString]
  cases hstored : scenario.kstr.strings.getD stringId none with
  | none => simp only [stringUsed, hstored, hostr]; rfl
  | some string => simp only [stringUsed, hstored, hostr]; rfl

theorem deleteEditorString_of_unused (hostr : scenario.ostrStringUsed stringId = false) :
    scenario.deleteEditorString stringId true =
      { scenario.deleteEditorReferences stringId with
        kstr :=
          { scenario.kstr with
            strings := scenario.kstr.strings.set stringId none } } := by
  rw [deleteEditorString, kstrDeleteString]
  simp only [stringUsed, hostr, Bool.and_false]
  rfl

/-- Editor storage is left alone exactly if the id is stored and in OSTR, or if
there is nothing to delete. -/
theorem deleteEditorString_eq_self_iff (hpos : 0 < stringId) :
    scenario.deleteEditorString stringId true = scenario ↔
      (scenario.kstr.strings.getD stringId none ≠ none ∧
        ∃ flag ∈ ostrFlags, stringId ∈ scenario.editorStringIds flag) ∨
        scenario.kstr.strings.getD stringId none = none ∧
          ∀ flag, stringId ∉ scenario.editorStringIds flag := by
  rw [← ostrStringUsed_iff]
  cases hostr : scenario.ostrStringUsed stringId with
  | true =>
      have hheld : ¬ ∀ flag, stringId ∉ scenario.editorStringIds flag := by
        intro hnone
        obtain ⟨flag, -, hmem⟩ := scenario.ostrStringUsed_iff.mp hostr
        exact hnone flag hmem
      rw [deleteEditorString_of_used hostr]
      split
      · next hstored =>
          rw [deleteEditorReferences_eq_self_iff hpos]
          simp only [hheld, hstored, ne_eq, not_true, false_and, and_false, or_self]
      · next hstored => exact iff_of_true rfl (.inl ⟨hstored, rfl⟩)
  | false =>
      rw [deleteEditorString_of_unused hostr, ← set_none_eq_self_iff,
        ← deleteEditorReferences_eq_self_iff hpos]
      constructor
      · intro hsame
        have hstrings : scenario.kstr.strings.set stringId none =
            scenario.kstr.strings :=
          congrArg (fun after : LoadedScenario => after.kstr.strings) hsame
        rw [hstrings] at hsame
        exact .inr ⟨hstrings, hsame⟩
      · rintro (⟨-, hused⟩ | ⟨hstrings, hsame⟩)
        · cases hused
        · rw [hstrings, hsame]

/-- The part for game storage leaves the editor's sections alone. -/
theorem deleteGameString_keeps (scenario : LoadedScenario) (stringId : ℕ)
    (deleteOnlyIfUnused : Bool) :
    (scenario.deleteGameString stringId deleteOnlyIfUnused).ostr = scenario.ostr ∧
      (scenario.deleteGameString stringId deleteOnlyIfUnused).ktrg = scenario.ktrg ∧
      (scenario.deleteGameString stringId deleteOnlyIfUnused).kstr =
        scenario.kstr := by
  rw [deleteGameString]
  split
  · rw [strDeleteString]
    split <;> exact ⟨rfl, rfl, rfl⟩
  · exact ⟨rfl, rfl, rfl⟩

theorem deleteEditorString_keeps (scenario : LoadedScenario) (stringId : ℕ)
    (deleteOnlyIfUnused : Bool) :
    { scenario.deleteEditorString stringId deleteOnlyIfUnused with
      ostr := scenario.ostr
      ktrg := scenario.ktrg
      kstr := scenario.kstr } = scenario := by
  rw [deleteEditorString]
  split
  · rw [kstrDeleteString]
    split <;> rfl
  · rfl

/-- Nothing changes exactly if neither part changes anything. -/
theorem deleteString_eq_self_iff (storageScope : Scope) :
    scenario.deleteString stringId storageScope true = scenario ↔
      (storageScope.hasGame = true → scenario.deleteGameString stringId true = scenario) ∧
      (storageScope.hasEditor = true → scenario.deleteEditorString stringId true = scenario) := by
  obtain ⟨hostr, hktrg, hkstr⟩ := scenario.deleteGameString_keeps stringId true
  have hboth : (scenario.deleteGameString stringId true).deleteEditorString
      stringId true = scenario → scenario.deleteGameString stringId true = scenario := by
    intro hsame
    have hkeeps := (scenario.deleteGameString stringId true).deleteEditorString_keeps stringId true
    rw [hsame, hostr, hktrg, hkstr] at hkeeps
    exact hkeeps.symm
  rw [deleteString]
  cases storageScope with
  | game => simp [Scope.hasGame, Scope.hasEditor]
  | editor => simp [Scope.hasGame, Scope.hasEditor]
  | both =>
      simp only [Scope.hasGame, Scope.hasEditor, if_true, true_implies]
      constructor
      · intro hsame
        have hgame := hboth hsame
        rw [hgame] at hsame
        exact ⟨hgame, hsame⟩
      · rintro ⟨hgame, heditor⟩
        rw [hgame, heditor]
  | _ => simp [Scope.hasGame, Scope.hasEditor]

/-- A user of the storages in a scope holds the id. -/
def ReferencesIn (scenario : LoadedScenario) (storageScope : Scope) (stringId : ℕ) : Prop :=
  0 < stringId ∧ (storageScope.hasGame = true ∧ (∃ flag, stringId ∈ scenario.gameStringIds flag) ∨
      storageScope.hasEditor = true ∧ ∃ flag, stringId ∈ scenario.editorStringIds flag)

/-- Deleting an id that somebody refers to, only if it is unused, changes
nothing exactly if each storage in the scope is guarded: game storage by a user
in the game and editor storage by OSTR and a stored string, unless there is
nothing to delete in it. -/
theorem deleteString_protects_iff {storageScope : Scope}
    (hreferences : scenario.ReferencesIn storageScope stringId) :
    scenario.deleteString stringId storageScope true = scenario ↔
      (storageScope.hasGame = true → scenario.HasGameUser .all stringId ∨
          scenario.str.strings.getD stringId none = none ∧ ¬ scenario.HoldsDeleted stringId) ∧
      (storageScope.hasEditor = true → (scenario.kstr.strings.getD stringId none ≠ none ∧
          ∃ flag ∈ ostrFlags, stringId ∈ scenario.editorStringIds flag) ∨
        scenario.kstr.strings.getD stringId none = none ∧
          ∀ flag, stringId ∉ scenario.editorStringIds flag) := by
  rw [deleteString_eq_self_iff, deleteGameString_eq_self_iff hreferences.1,
    deleteEditorString_eq_self_iff hreferences.1]

/-- The scenario name guards its string. -/
theorem deleteString_protects_name :
    ReferencesIn { bareScenario [] [] with scenarioNameStringId := 1 } .game 1 ∧
      ({ bareScenario [] [] with
        scenarioNameStringId := 1 } : LoadedScenario).deleteString 1 .game
          true = { bareScenario [] [] with scenarioNameStringId := 1 } := by
  have hreferences : ReferencesIn
      { bareScenario [] [] with scenarioNameStringId := 1 } .game 1 :=
    ⟨Nat.one_pos, .inl ⟨rfl, .scenarioName, by decide⟩⟩
  refine ⟨hreferences, (deleteString_protects_iff hreferences).mpr ⟨?_, ?_⟩⟩
  · intro _
    exact .inl (.inl ⟨.scenarioName, by decide, rfl, by decide⟩)
  · intro heditor
    cases heditor

/-- A location does not guard its name. -/
theorem deleteString_takes_location : ∃ scenario : LoadedScenario,
      scenario.str.strings = [none, some [65]] ∧
      scenario.gameStringIds .location = [1] ∧
      (scenario.deleteString 1 .game true).str.strings = [none, none] ∧
      (scenario.deleteString 1 .game true).gameStringIds .location = [0] :=
  ⟨{ (bareScenario [] []).withStrings [none, some [65]] with
      locations := [⟨0, 0, 0, 0, 0, 0⟩, ⟨0, 0, 0, 0, 1, 0⟩] }, rfl, by decide,
    by decide +kernel, by decide +kernel⟩

def GameReferences (scenario : LoadedScenario) (stringId : ℕ) : Prop :=
  0 < stringId ∧ ∃ flag, stringId ∈ scenario.gameStringIds flag

/-- OSTR or the extended data of a trigger refers to an id. -/
def EditorReferences (scenario : LoadedScenario) (stringId : ℕ) : Prop :=
  0 < stringId ∧ ∃ flag, stringId ∈ scenario.editorStringIds flag

/-- Game strings after the deletion: an id the bit set has no bit for is not
stored either. -/
theorem getD_game_withoutUnusedStrings (hlength : scenario.str.strings.length ≤ maxStrings) :
    (scenario.GameReferences stringId →
        scenario.withoutUnusedStrings.str.strings.getD stringId none =
          scenario.str.strings.getD stringId none) ∧
      (¬ scenario.GameReferences stringId →
        scenario.withoutUnusedStrings.str.strings.getD stringId none = none) := by
  constructor
  · rintro ⟨hpos, flag, hmem⟩
    by_cases hlt : stringId < maxStrings
    · exact getD_withoutUnusedStrings ⟨hpos, hlt, flag, rfl, hmem⟩
    · rw [List.getD_eq_default scenario.str.strings _ (by omega)]
      apply List.getD_eq_default
      rw [withoutUnusedStrings, length_dropUnmarked]
      omega
  · intro hnone
    rw [withoutUnusedStrings, getD_dropUnmarked, if_neg]
    simp only [decide_eq_true_eq]
    rintro ⟨hpos, -, flag, -, hmem⟩
    exact hnone ⟨hpos, flag, hmem⟩

theorem getD_editor_withoutUnusedStrings : (scenario.EditorReferences stringId →
        scenario.withoutUnusedStrings.kstr.strings.getD stringId none =
          scenario.kstr.strings.getD stringId none) ∧
      (¬ scenario.EditorReferences stringId →
        scenario.withoutUnusedStrings.kstr.strings.getD stringId none = none) := by
  constructor
  · rintro ⟨hpos, flag, hmem⟩
    exact getD_withoutUnusedEditorStrings ⟨hpos, flag, rfl, hmem⟩
  · intro hnone
    rw [withoutUnusedStrings, getD_dropUnmarked, if_neg]
    simp only [decide_eq_true_eq]
    rintro ⟨hpos, flag, -, hmem⟩
    exact hnone ⟨hpos, flag, hmem⟩

theorem editorMarkOutOfRange_eq_false_iff : scenario.editorMarkOutOfRange = false ↔
      ∀ flag, ∀ other ∈ scenario.editorStringIds flag, other < maxStrings := by
  simp only [editorMarkOutOfRange, List.any_eq_false, List.any_eq_true, decide_eq_true_eq,
    not_exists, not_and, not_le, StringUserFlag.mem_flags, true_implies]

/-- Deleting the unused strings keeps the strings somebody refers to and no
other exactly if both tables fit the bit set and so do the ids in OSTR and
KTRG. -/
theorem deleteUnusedStrings_keeps_iff (scenario : LoadedScenario) :
    (∃ after, scenario.deleteUnusedStrings = .ok after ∧
      (∀ stringId, scenario.GameReferences stringId →
        after.str.strings.getD stringId none = scenario.str.strings.getD stringId none) ∧
      (∀ stringId, scenario.EditorReferences stringId → after.kstr.strings.getD stringId none =
          scenario.kstr.strings.getD stringId none) ∧
      (∀ stringId, ¬ scenario.GameReferences stringId →
        after.str.strings.getD stringId none = none) ∧
      ∀ stringId, ¬ scenario.EditorReferences stringId →
        after.kstr.strings.getD stringId none = none) ↔
      scenario.str.strings.length ≤ maxStrings ∧
      scenario.kstr.strings.length ≤ maxStrings ∧
      ∀ flag, ∀ stringId ∈ scenario.editorStringIds flag, stringId < maxStrings := by
  rw [← editorMarkOutOfRange_eq_false_iff, deleteUnusedStrings]
  constructor
  · rintro ⟨after, hafter, -⟩
    split at hafter
    · cases hafter
    · rename_i hguard
      simp only [not_or, not_lt, Bool.not_eq_true] at hguard
      exact hguard
  · rintro ⟨hstr, hkstr, hmarks⟩
    have hguard : ¬ (maxStrings < scenario.str.strings.length ∨
        maxStrings < scenario.kstr.strings.length ∨
        scenario.editorMarkOutOfRange = true) := by
      simp only [not_or, not_lt, Bool.not_eq_true]
      exact ⟨hstr, hkstr, hmarks⟩
    rw [if_neg hguard]
    exact ⟨_, rfl, fun _ => (getD_game_withoutUnusedStrings hstr).1,
      fun _ => getD_editor_withoutUnusedStrings.1,
      fun _ => (getD_game_withoutUnusedStrings hstr).2,
      fun _ => getD_editor_withoutUnusedStrings.2⟩

/-- An id in OSTR that the bit set has no bit for. -/
theorem deleteUnusedStrings_writes_outside : ∃ scenario : LoadedScenario,
      scenario.editorStringIds .scenarioName = [65536] ∧
      scenario.deleteUnusedStrings = .error .undefinedBehavior := by
  let scenario : LoadedScenario :=
    { bareScenario [] [] with
      ostr := { (bareScenario [] []).ostr with scenarioName := 65536 } }
  have houtside : scenario.editorMarkOutOfRange = true := by decide +kernel
  exact ⟨scenario, rfl, if_pos (.inr (.inr houtside))⟩

end LoadedScenario

end Chkdraft.Scenario
