import Chkdraft.Core.BitSet
import Chkdraft.Scenario.StringUsers

/-!
# Queries for string users

`Strings::stringUsed` asks whether one id is used, `Strings::markUsedStrings`
sets the bits of all used ids.  Both delegate to the parts of the scenario, and
each part was written twice.  A usage scope selects game or editor users, a
storage scope the table the ids belong to, a mask the kinds of users.
-/

namespace Chkdraft.Scenario

open BitSet Chk Sections

/-- `Chk::Scope`, where `Either` is another name for `Both`. -/
inductive Scope where
  | none | game | editor | gameOverEditor | editorOverGame | both
deriving DecidableEq, Repr

namespace Scope

/-- `(scope & Scope::Game) == Scope::Game`. -/
def hasGame : Scope → Bool
  | .game | .both => true
  | _ => false

/-- `(scope & Scope::Editor) == Scope::Editor`. -/
def hasEditor : Scope → Bool
  | .editor | .both => true
  | _ => false

end Scope

namespace UserMask

/-- `(userMask & StringUserFlag::AnyTrigger) > 0`. -/
def anyTrigger (userMask : UserMask) : Bool :=
  userMask .triggerAction || userMask .triggerActionSound

def anyBriefingTrigger (userMask : UserMask) : Bool :=
  userMask .briefingTriggerAction || userMask .briefingTriggerActionSound

def anyTriggerExtension (userMask : UserMask) : Bool :=
  userMask .extendedTriggerComment || userMask .extendedTriggerNotes

end UserMask

/-- `Action::actionUsesGameStringArg`: every text but a comment. -/
def actionUsesGameStringArg (actionType : UInt8) : Bool :=
  actionType ∈ [7, 9, 12, 17, 18, 19, 20, 21, 33, 34, 35, 36, 37, (41 : UInt8)]

/-- `Type::Comment`. -/
def isComment (actionType : UInt8) : Bool := actionType = 47

def usesNone (_ : UInt8) : Bool := false

/-- The point query of an action: which types use a text or a sound, and
whether texts and sounds count. -/
def actionHolds (usesString usesSound : UInt8 → Bool) (texts sounds : Bool)
    (stringId : ℕ) (action : Action) : Bool :=
  texts && usesString action.actionType && action.stringId.toNat = stringId ||
    sounds && usesSound action.actionType && action.soundStringId.toNat = stringId

/-- Ids that `markUsed…` functions with 32-bit ids let through. -/
def insideSet (stringId : ℕ) : Bool := 0 < stringId && stringId < maxStrings

/-- Ids that `markUsed…` functions with 16-bit ids let through; those of OSTR
and KTRG use the same test on 32-bit ids. -/
def nonZero (stringId : ℕ) : Bool := 0 < stringId

def markAction (usesString usesSound : UInt8 → Bool) (texts sounds : Bool)
    (action : Action) (bits : Bits) : Except Hazard Bits := do
  let bits ← BitSet.when (texts && usesString action.actionType)
    (markAll maxStrings insideSet [action.stringId.toNat]) bits
  BitSet.when (sounds && usesSound action.actionType)
    (markAll maxStrings insideSet [action.soundStringId.toNat]) bits

/-- `stringUsed` of a TRIG or MBRF section. -/
def triggersHold (usesString usesSound : UInt8 → Bool) (texts sounds : Bool)
    (stringId : ℕ) (triggers : List Trigger) : Bool :=
  triggers.any fun trigger =>
    trigger.actions.toList.any (actionHolds usesString usesSound texts sounds stringId)

/-- `markUsedStrings` of a TRIG or MBRF section. -/
def markTriggers (usesString usesSound : UInt8 → Bool) (texts sounds : Bool)
    (triggers : List Trigger) (bits : Bits) : Except Hazard Bits :=
  triggers.foldlM (fun bits trigger =>
    trigger.actions.toList.foldlM (fun bits action =>
      markAction usesString usesSound texts sounds action bits) bits) bits

/-- A field compared with an id cast to the width of the field. -/
def holdsCast (width : ℕ) (fields : List ℕ) (stringId : ℕ) : Bool :=
  fields.any fun field => field = stringId % 2 ^ width

namespace LoadedScenario

variable (scenario : LoadedScenario)

/-- `SprpSection::stringUsed`. -/
def sprpStringUsed (stringId : ℕ) (userMask : UserMask) : Bool :=
  userMask .scenarioName && holdsCast 16 [scenario.scenarioNameStringId.toNat] stringId ||
    userMask .scenarioDescription &&
      holdsCast 16 [scenario.scenarioDescriptionStringId.toNat] stringId

/-- `Players::stringUsed`. -/
def playersStringUsed (stringId : ℕ) (userMask : UserMask) : Bool :=
  userMask .force && holdsCast 16 (scenario.forceString.toList.map UInt16.toNat) stringId

/-- `Properties::stringUsed`. -/
def propertiesStringUsed (stringId : ℕ) (userMask : UserMask) : Bool :=
  userMask .originalUnitSettings &&
      holdsCast 16 (scenario.unisName.toList.map UInt16.toNat) stringId ||
    userMask .expansionUnitSettings &&
      holdsCast 16 (scenario.unixName.toList.map UInt16.toNat) stringId

/-- `OstrSection::stringUsed`, which does not look at its mask. -/
def ostrStringUsed (stringId : ℕ) : Bool :=
  [StringUserFlag.scenarioName, .scenarioDescription, .force,
    .originalUnitSettings, .expansionUnitSettings, .sound, .switch,
    .location].any fun flag =>
      (scenario.editorStringIds flag).any (· = stringId)

/-- `KtrgSection::editorStringUsed`. -/
def ktrgEditorStringUsed (stringId : ℕ) (userMask : UserMask) : Bool :=
  scenario.ktrg.reduceOption.any fun extendedTrig =>
    userMask .extendedTriggerComment && extendedTrig.commentStringId.toNat = stringId ||
      userMask .extendedTriggerNotes && extendedTrig.notesStringId.toNat = stringId

/-- `MrgnSection::stringUsed`. -/
def mrgnStringUsed (stringId : ℕ) : Bool :=
  holdsCast 16 (scenario.locations.tail.map fun location => location.stringId.toNat) stringId

/-- `Layers::stringUsed`. -/
def layersStringUsed (stringId : ℕ) (storageScope : Scope) (userMask : UserMask) : Bool :=
  userMask .location &&
    match storageScope with
    | .both | .editorOverGame | .gameOverEditor =>
        scenario.mrgnStringUsed stringId || scenario.ostrStringUsed stringId
    | .game => scenario.mrgnStringUsed stringId
    | .editor => scenario.ostrStringUsed stringId
    | .none => false

/-- `WavSection::stringUsed`. -/
def wavStringUsed (stringId : ℕ) : Bool :=
  holdsCast 32 (scenario.soundPath.toList.map UInt32.toNat) stringId

/-- `SwnmSection::stringUsed`. -/
def swnmStringUsed (stringId : ℕ) : Bool :=
  holdsCast 32 (scenario.switchName.toList.map UInt32.toNat) stringId

/-- `TrigSection::stringUsed`. -/
def trigStringUsed (stringId : ℕ) (userMask : UserMask) : Bool :=
  triggersHold actionUsesStringArg actionUsesSoundArg
    (userMask .triggerAction) (userMask .triggerActionSound) stringId
    scenario.trig

/-- `TrigSection::gameStringUsed`. -/
def trigGameStringUsed (stringId : ℕ) (userMask : UserMask) : Bool :=
  triggersHold actionUsesGameStringArg actionUsesSoundArg
    (userMask .triggerAction) (userMask .triggerActionSound) stringId
    scenario.trig

/-- `TrigSection::commentStringUsed`. -/
def trigCommentStringUsed (stringId : ℕ) : Bool :=
  triggersHold isComment usesNone true false stringId scenario.trig

/-- `MbrfSection::stringUsed`. -/
def mbrfStringUsed (stringId : ℕ) (userMask : UserMask) : Bool :=
  triggersHold briefingActionUsesStringArg briefingActionUsesSoundArg
    (userMask .briefingTriggerAction) (userMask .briefingTriggerActionSound)
    stringId scenario.mbrf

/-- `Triggers::stringUsed`. -/
def triggersStringUsed (stringId : ℕ) (storageScope : Scope) (userMask : UserMask) : Bool :=
  match storageScope with
  | .game =>
      userMask .sound && scenario.wavStringUsed stringId ||
        userMask .switch && scenario.swnmStringUsed stringId ||
        userMask.anyTrigger && scenario.trigStringUsed stringId userMask ||
        userMask.anyBriefingTrigger && scenario.mbrfStringUsed stringId userMask
  | .editor =>
      userMask.anyTriggerExtension && scenario.ktrgEditorStringUsed stringId userMask
  | _ => false

/-- `Triggers::gameStringUsed`; briefing triggers are asked without the mask. -/
def triggersGameStringUsed (stringId : ℕ) (userMask : UserMask) : Bool :=
  userMask.anyTrigger && scenario.trigGameStringUsed stringId userMask ||
    userMask.anyBriefingTrigger && scenario.mbrfStringUsed stringId .all

/-- `Triggers::editorStringUsed`, which asks KTRG for game storage too. -/
def triggersEditorStringUsed (stringId : ℕ) (storageScope : Scope) (userMask : UserMask) : Bool :=
  match storageScope with
  | .game =>
      userMask .sound && scenario.wavStringUsed stringId ||
        userMask .switch && scenario.swnmStringUsed stringId ||
        userMask .triggerAction && scenario.trigCommentStringUsed stringId ||
        userMask.anyTriggerExtension && scenario.ktrgEditorStringUsed stringId userMask
  | .editor =>
      userMask.anyTriggerExtension && scenario.ktrgEditorStringUsed stringId userMask
  | _ => false

/-- `Strings::stringUsed` for game storage and an id inside the bit set.  Every
usage scope that is neither `Game` nor `Editor` counts as both. -/
def narrowStringUsed (stringId : ℕ) (userMask : UserMask) : Scope → Bool
  | .editor =>
      scenario.layersStringUsed stringId .game userMask ||
        scenario.triggersEditorStringUsed stringId .game userMask
  | .game =>
      scenario.sprpStringUsed stringId userMask || scenario.playersStringUsed stringId userMask ||
        scenario.propertiesStringUsed stringId userMask ||
        scenario.triggersGameStringUsed stringId userMask
  | .none | .gameOverEditor | .editorOverGame | .both =>
      scenario.sprpStringUsed stringId userMask || scenario.playersStringUsed stringId userMask ||
        scenario.propertiesStringUsed stringId userMask ||
        scenario.layersStringUsed stringId .game userMask ||
        scenario.triggersStringUsed stringId .game userMask

/-- `Strings::stringUsed` for game storage and an id only 32-bit fields
hold. -/
def wideStringUsed (stringId : ℕ) (userMask : UserMask) : Scope → Bool
  | .both => scenario.triggersStringUsed stringId .game userMask
  | .game => scenario.triggersGameStringUsed stringId userMask
  | .editor => scenario.triggersEditorStringUsed stringId .game userMask
  | .none | .gameOverEditor | .editorOverGame => false

/-- `Strings::stringUsed`.  A game string with an id beyond 16 bits is looked for
in triggers only, an editor string in OSTR only. -/
def stringUsed (stringId : ℕ) (usageScope storageScope : Scope)
    (userMask : UserMask) (ensureStored : Bool) : Bool :=
  match storageScope with
  | .game =>
      ((scenario.str.strings.getD stringId none).isSome || !ensureStored) &&
        if stringId < maxStrings then
          scenario.narrowStringUsed stringId userMask usageScope
        else
          scenario.wideStringUsed stringId userMask usageScope
  | .editor =>
      ((scenario.kstr.strings.getD stringId none).isSome || !ensureStored) &&
        scenario.ostrStringUsed stringId
  | _ => false

end LoadedScenario

namespace LoadedScenario

variable (scenario : LoadedScenario)

/-- Mark the 16-bit ids the users of a kind hold. -/
def markGameIds (flag : StringUserFlag) (bits : Bits) : Except Hazard Bits :=
  markAll maxStrings nonZero (scenario.gameStringIds flag) bits

/-- Mark the ids users of editor strings hold.  They have 32 bits and are not
compared with the size of the bit set. -/
def markEditorIds (flag : StringUserFlag) (bits : Bits) : Except Hazard Bits :=
  markAll maxStrings nonZero (scenario.editorStringIds flag) bits

/-- `SprpSection::markUsedStrings`. -/
def sprpMarkUsedStrings (userMask : UserMask) (bits : Bits) : Except Hazard Bits := do
  let bits ← BitSet.when (userMask .scenarioName) (scenario.markGameIds .scenarioName) bits
  BitSet.when (userMask .scenarioDescription) (scenario.markGameIds .scenarioDescription) bits

/-- `Players::markUsedStrings`. -/
def playersMarkUsedStrings (userMask : UserMask) (bits : Bits) : Except Hazard Bits :=
  BitSet.when (userMask .force) (scenario.markGameIds .force) bits

/-- `Properties::markUsedStrings`. -/
def propertiesMarkUsedStrings (userMask : UserMask) (bits : Bits) : Except Hazard Bits := do
  let bits ← BitSet.when (userMask .originalUnitSettings)
    (scenario.markGameIds .originalUnitSettings) bits
  BitSet.when (userMask .expansionUnitSettings) (scenario.markGameIds .expansionUnitSettings) bits

/-- `Layers::markUsedStrings`. -/
def layersMarkUsedStrings (userMask : UserMask) (bits : Bits) : Except Hazard Bits :=
  BitSet.when (userMask .location) (scenario.markGameIds .location) bits

/-- `WavSection::markUsedStrings`. -/
def wavMarkUsedStrings (bits : Bits) : Except Hazard Bits :=
  markAll maxStrings insideSet (scenario.gameStringIds .sound) bits

/-- `SwnmSection::markUsedStrings`. -/
def swnmMarkUsedStrings (bits : Bits) : Except Hazard Bits :=
  markAll maxStrings insideSet (scenario.gameStringIds .switch) bits

/-- `TrigSection::markUsedStrings`. -/
def trigMarkUsedStrings (userMask : UserMask) (bits : Bits) : Except Hazard Bits :=
  markTriggers actionUsesStringArg actionUsesSoundArg
    (userMask .triggerAction) (userMask .triggerActionSound) scenario.trig bits

/-- `TrigSection::markUsedGameStrings`. -/
def trigMarkUsedGameStrings (userMask : UserMask) (bits : Bits) : Except Hazard Bits :=
  markTriggers actionUsesGameStringArg actionUsesSoundArg
    (userMask .triggerAction) (userMask .triggerActionSound) scenario.trig bits

/-- `TrigSection::markUsedCommentStrings`. -/
def trigMarkUsedCommentStrings (bits : Bits) : Except Hazard Bits :=
  markTriggers isComment usesNone true false scenario.trig bits

/-- `MbrfSection::markUsedStrings`. -/
def mbrfMarkUsedStrings (userMask : UserMask) (bits : Bits) : Except Hazard Bits :=
  markTriggers briefingActionUsesStringArg briefingActionUsesSoundArg
    (userMask .briefingTriggerAction) (userMask .briefingTriggerActionSound)
    scenario.mbrf bits

/-- `KtrgSection::markUsedEditorStrings`. -/
def ktrgMarkUsedEditorStrings (userMask : UserMask) (bits : Bits) : Except Hazard Bits :=
  scenario.ktrg.reduceOption.foldlM (fun bits extendedTrig => do
    let bits ← BitSet.when (userMask .extendedTriggerComment)
      (markAll maxStrings nonZero [extendedTrig.commentStringId.toNat]) bits
    BitSet.when (userMask .extendedTriggerNotes)
      (markAll maxStrings nonZero [extendedTrig.notesStringId.toNat]) bits) bits

/-- `Triggers::markUsedStrings`. -/
def triggersMarkUsedStrings (storageScope : Scope) (userMask : UserMask)
    (bits : Bits) : Except Hazard Bits :=
  match storageScope with
  | .game => do
      let bits ← BitSet.when (userMask .sound) scenario.wavMarkUsedStrings bits
      let bits ← BitSet.when (userMask .switch) scenario.swnmMarkUsedStrings bits
      let bits ← BitSet.when userMask.anyTrigger (scenario.trigMarkUsedStrings userMask) bits
      BitSet.when userMask.anyBriefingTrigger (scenario.mbrfMarkUsedStrings userMask) bits
  | .editor =>
      BitSet.when userMask.anyTriggerExtension (scenario.ktrgMarkUsedEditorStrings userMask) bits
  | _ => .ok bits

/-- `Triggers::markUsedGameStrings`, which passes its mask to neither
section. -/
def triggersMarkUsedGameStrings (userMask : UserMask) (bits : Bits) : Except Hazard Bits := do
  let bits ← BitSet.when userMask.anyTrigger (scenario.trigMarkUsedGameStrings .all) bits
  BitSet.when userMask.anyBriefingTrigger (scenario.mbrfMarkUsedStrings .all) bits

/-- `Triggers::markUsedEditorStrings`. -/
def triggersMarkUsedEditorStrings (storageScope : Scope) (userMask : UserMask)
    (bits : Bits) : Except Hazard Bits :=
  match storageScope with
  | .game => do
      let bits ← BitSet.when (userMask .sound) scenario.wavMarkUsedStrings bits
      let bits ← BitSet.when (userMask .switch) scenario.swnmMarkUsedStrings bits
      BitSet.when (userMask .triggerAction) scenario.trigMarkUsedCommentStrings bits
  | .editor =>
      BitSet.when userMask.anyTriggerExtension (scenario.ktrgMarkUsedEditorStrings userMask) bits
  | _ => .ok bits

/-- `OstrSection::markUsedStrings`. -/
def ostrMarkUsedStrings (userMask : UserMask) (bits : Bits) : Except Hazard Bits :=
  [StringUserFlag.scenarioName, .scenarioDescription, .force,
    .originalUnitSettings, .expansionUnitSettings, .sound, .switch,
    .location].foldlM (fun bits flag =>
      BitSet.when (userMask flag) (scenario.markEditorIds flag) bits) bits

/-- `Strings::markUsedStrings`. -/
def markUsedStrings (usageScope storageScope : Scope) (userMask : UserMask)
    (bits : Bits) : Except Hazard Bits :=
  match storageScope with
  | .game => do
      let bits ← BitSet.when usageScope.hasGame (fun bits => do
        let bits ← scenario.sprpMarkUsedStrings userMask bits
        let bits ← scenario.playersMarkUsedStrings userMask bits
        let bits ← scenario.propertiesMarkUsedStrings userMask bits
        if usageScope.hasEditor then
          scenario.triggersMarkUsedStrings .game userMask bits
        else
          scenario.triggersMarkUsedGameStrings userMask bits) bits
      BitSet.when usageScope.hasEditor (fun bits => do
        let bits ← scenario.layersMarkUsedStrings userMask bits
        if usageScope.hasGame then
          .ok bits
        else
          scenario.triggersMarkUsedEditorStrings .game userMask bits) bits
  | .editor => do
      let bits ← scenario.ostrMarkUsedStrings userMask bits
      scenario.triggersMarkUsedStrings .editor userMask bits
  | _ => .ok bits

end LoadedScenario

end Chkdraft.Scenario
