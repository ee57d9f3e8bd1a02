import Chkdraft.Chk.Records

/-!
# Conditions and actions by name

The names trigger text uses for conditions and actions, with the type each is
stored under, its default flags and the arguments it is written with.  The
virtual names `Custom` and `Memory` (`SetMemory`) have no type of their own.
-/

namespace Chkdraft.Chk

/-- `Condition::Flags::Disabled` and `Action::Flags::Disabled`. -/
def disabledFlag : UInt8 := 2

/-- `Action::Flags::AlwaysDisplay`. -/
def alwaysDisplayFlag : UInt8 := 4

/-- `Chk::Condition::VirtualType` without `NoCondition`. -/
inductive VirtualCondition where
  | accumulate | always | bring | command | commandTheLeast
  | commandTheLeastAt | commandTheMost | commandTheMostAt | countdownTimer
  | deaths | elapsedTime | highestScore | kill | leastKills | leastResources
  | lowestScore | mostKills | mostResources | never | opponents | score
  | switch | custom | memory
deriving DecidableEq, Repr

namespace VirtualCondition

/-- The stored type, with `extendedToRegularConditionType` for the virtual
names: `Memory` is based on `Deaths`, and `Custom` leaves the byte -1 until its
type argument is read. -/
def conditionType : VirtualCondition → UInt8
  | accumulate => 4
  | always => 22
  | bring => 3
  | command => 2
  | commandTheLeast => 16
  | commandTheLeastAt => 17
  | commandTheMost => 6
  | commandTheMostAt => 7
  | countdownTimer => 1
  | deaths => 15
  | elapsedTime => 12
  | highestScore => 9
  | kill => 5
  | leastKills => 18
  | leastResources => 20
  | lowestScore => 19
  | mostKills => 8
  | mostResources => 10
  | never => 23
  | opponents => 14
  | score => 21
  | switch => 11
  | custom => 255
  | memory => 15

/-- `Condition::getDefaultFlags`: `UnitTypeUsed` for the types with a unit. -/
def defaultFlags : VirtualCondition → UInt8
  | command | bring | kill | commandTheMost | commandTheMostAt | mostKills
  | deaths | commandTheLeast | commandTheLeastAt | leastKills | memory => 16
  | _ => 0

end VirtualCondition

/-- The arguments of conditions, named as in `Chk.cpp`. -/
inductive ConditionArgument where
  | amount | numericComparison | switchState | resource | score | switch
  | player | unit | location | comparison | conditionType | typeIndex | flags
  | maskFlag | memoryOffset
deriving DecidableEq, Repr

/-- `Condition::getTextArg` for a name: the arguments in the order of the
text. -/
def VirtualCondition.textArguments : VirtualCondition → List ConditionArgument
  | .countdownTimer | .elapsedTime => [.numericComparison, .amount]
  | .command | .kill | .deaths => [.player, .unit, .numericComparison, .amount]
  | .bring => [.player, .unit, .location, .numericComparison, .amount]
  | .accumulate => [.player, .numericComparison, .amount, .resource]
  | .commandTheMost | .mostKills | .commandTheLeast | .leastKills => [.unit]
  | .commandTheMostAt | .commandTheLeastAt => [.unit, .location]
  | .highestScore | .lowestScore => [.score]
  | .mostResources | .leastResources => [.resource]
  | .switch => [.switch, .switchState]
  | .opponents => [.player, .numericComparison, .amount]
  | .score => [.player, .score, .numericComparison, .amount]
  | .always | .never => []
  | .custom =>
      [.location, .player, .amount, .unit, .comparison, .conditionType,
        .typeIndex, .flags, .maskFlag]
  | .memory => [.memoryOffset, .numericComparison, .amount]

/-- `Chk::Action::VirtualType` without `NoAction`. -/
inductive VirtualAction where
  | centerView | comment | createUnit | createUnitWithProperties | defeat
  | displayTextMessage | draw | giveUnitsToPlayer | killUnit
  | killUnitAtLocation | leaderboardCtrlAtLoc | leaderboardCtrl
  | leaderboardGreed | leaderboardKills | leaderboardPoints
  | leaderboardResources | leaderboardCompPlayers | leaderboardGoalCtrlAtLoc
  | leaderboardGoalCtrl | leaderboardGoalKills | leaderboardGoalPoints
  | leaderboardGoalResources | minimapPing | modifyUnitEnergy
  | modifyUnitHangerCount | modifyUnitHitpoints | modifyUnitResourceAmount
  | modifyUnitShieldPoints | moveLocation | moveUnit | muteUnitSpeech | order
  | pauseGame | pauseTimer | playSound | preserveTrigger | removeUnit
  | removeUnitAtLocation | runAiScript | runAiScriptAtLocation
  | setAllianceStatus | setCountdownTimer | setDeaths | setDoodadState
  | setInvincibility | setMissionObjectives | setNextScenario | setResources
  | setScore | setSwitch | talkingPortrait | transmission | unmuteUnitSpeech
  | unpauseGame | unpauseTimer | victory | wait | custom | setMemory
deriving DecidableEq, Repr

namespace VirtualAction

/-- The stored type, with `extendedToRegularActionType` for the virtual
names. -/
def actionType : VirtualAction → UInt8
  | centerView => 10
  | comment => 47
  | createUnit => 44
  | createUnitWithProperties => 11
  | defeat => 2
  | displayTextMessage => 9
  | draw => 56
  | giveUnitsToPlayer => 48
  | killUnit => 22
  | killUnitAtLocation => 23
  | leaderboardCtrlAtLoc => 18
  | leaderboardCtrl => 17
  | leaderboardGreed => 40
  | leaderboardKills => 20
  | leaderboardPoints => 21
  | leaderboardResources => 19
  | leaderboardCompPlayers => 32
  | leaderboardGoalCtrlAtLoc => 34
  | leaderboardGoalCtrl => 33
  | leaderboardGoalKills => 36
  | leaderboardGoalPoints => 37
  | leaderboardGoalResources => 35
  | minimapPing => 28
  | modifyUnitEnergy => 50
  | modifyUnitHangerCount => 53
  | modifyUnitHitpoints => 49
  | modifyUnitResourceAmount => 52
  | modifyUnitShieldPoints => 51
  | moveLocation => 38
  | moveUnit => 39
  | muteUnitSpeech => 30
  | order => 46
  | pauseGame => 5
  | pauseTimer => 54
  | playSound => 8
  | preserveTrigger => 3
  | removeUnit => 24
  | removeUnitAtLocation => 25
  | runAiScript => 15
  | runAiScriptAtLocation => 16
  | setAllianceStatus => 57
  | setCountdownTimer => 14
  | setDeaths => 45
  | setDoodadState => 42
  | setInvincibility => 43
  | setMissionObjectives => 12
  | setNextScenario => 41
  | setResources => 26
  | setScore => 27
  | setSwitch => 13
  | talkingPortrait => 29
  | transmission => 7
  | unmuteUnitSpeech => 31
  | unpauseGame => 6
  | unpauseTimer => 55
  | victory => 1
  | wait => 4
  | custom => 255
  | setMemory => 45

end VirtualAction

/-- `Action::defaultFlags`, by type: `AlwaysDisplay` is 4, `UnitPropertiesUsed`
8 and `UnitTypeUsed` 16. -/
def actionDefaultFlags : List UInt8 :=
  [0, 4, 4, 4, 4, 4, 4, 20, 4, 4, 4, 28, 0, 4, 4, 4, 4, 16, 16, 0,
    16, 0, 20, 20, 20, 20, 4, 4, 4, 20,
    4, 4, 4, 16, 16, 0, 16, 0, 20, 20,
    4, 4, 20, 20, 20, 20, 20, 0, 20, 20,
    20, 20, 4, 20, 4, 4, 4, 4, 0, 0]

/-- `Action::getDefaultFlags`; a custom action starts without flags. -/
def VirtualAction.defaultFlags (action : VirtualAction) : UInt8 :=
  actionDefaultFlags.getD action.actionType.toNat 0

/-- The arguments of actions, named as in `Chk.cpp`.  Each stands for an
argument type and the field it is stored in: `amount` is in `number`,
`unitQuantity` in `type2`, and the secondary location and the destination
player in `number`. -/
inductive ActionArgument where
  | amount | percent | duration | numUnits | unitQuantity | numericMod
  | switchMod | stateMod | allyState | score | resource | script | textFlags
  | order | unit | location | player | destPlayer | secondaryLocation | cuwp
  | switch | string | sound | memoryOffset | number | typeIndex | actionType
  | secondaryTypeIndex | flags | padding | maskFlag
deriving DecidableEq, Repr

/-- `Action::textArguments`, by type. -/
def actionTextArguments : List (List ActionArgument) := [[], [], [], [], [.duration], [], [],
    [.textFlags, .string, .unit, .location, .numericMod, .amount, .sound, .duration],
    [.sound, .duration],
    [.textFlags, .string],
    [.location],
    [.player, .unit, .unitQuantity, .location, .cuwp],
    [.string],
    [.switch, .switchMod],
    [.numericMod, .duration],
    [.script],
    [.script, .location],
    [.string, .unit],
    [.string, .unit, .location],
    [.string, .resource],
    [.string, .unit],
    [.string, .score],
    [.player, .unit],
    [.player, .unit, .numUnits, .location],
    [.player, .unit],
    [.player, .unit, .numUnits, .location],
    [.player, .numericMod, .amount, .resource],
    [.player, .numericMod, .amount, .score],
    [.location],
    [.unit, .duration],
    [],
    [],
    [.stateMod],
    [.string, .unit, .amount],
    [.string, .unit, .amount, .location],
    [.string, .amount, .resource],
    [.string, .unit, .amount],
    [.string, .score, .amount],
    [.player, .unit, .location, .secondaryLocation],
    [.player, .unit, .numUnits, .location, .secondaryLocation],
    [.amount],
    [.string],
    [.player, .unit, .location, .stateMod],
    [.player, .unit, .location, .stateMod],
    [.player, .unit, .unitQuantity, .location],
    [.player, .unit, .numericMod, .amount],
    [.player, .unit, .location, .secondaryLocation, .order],
    [.string],
    [.player, .destPlayer, .unit, .numUnits, .location],
    [.player, .unit, .percent, .unitQuantity, .location],
    [.player, .unit, .percent, .unitQuantity, .location],
    [.player, .unit, .percent, .unitQuantity, .location],
    [.player, .amount, .unitQuantity, .location],
    [.player, .unit, .amount, .unitQuantity, .location],
    [],
    [],
    [],
    [.player, .allyState],
    [],
    []]

/-- `Action::getTextArg` for a name.  `Custom` has a text flag where the string
would be, and no type index. -/
def VirtualAction.textArguments (action : VirtualAction) : List ActionArgument :=
  match action with
  | .custom =>
      [.location, .textFlags, .sound, .duration, .player, .number, .actionType,
        .secondaryTypeIndex, .flags, .padding, .maskFlag]
  | .setMemory => [.memoryOffset, .numericMod, .amount]
  | _ => actionTextArguments.getD action.actionType.toNat []

/-- `Action::actionUsesStringArg` for a type below `NumActionTypes`. -/
def actionUsesStringArg (actionType : UInt8) : Bool :=
  actionType ∈ [7, 9, 12, 17, 18, 19, 20, 21, 33, 34, 35, 36, 37, 41, (47 : UInt8)]

/-- `Action::actionUsesSoundArg` for a type below `NumActionTypes`. -/
def actionUsesSoundArg (actionType : UInt8) : Bool := actionType ∈ [7, (8 : UInt8)]

/-- `Action::briefingActionUsesStringArg`. -/
def briefingActionUsesStringArg (actionType : UInt8) : Bool := actionType ∈ [3, 4, (8 : UInt8)]

/-- `Action::briefingActionUsesSoundArg`. -/
def briefingActionUsesSoundArg (actionType : UInt8) : Bool := actionType ∈ [2, (8 : UInt8)]

/-- `Condition::conditionUsesLocationArg` for a type below
`NumConditionTypes`. -/
def conditionUsesLocationArg (conditionType : UInt8) : Bool := conditionType ∈ [3, 7, (17 : UInt8)]

/-- `Action::actionUsesLocationArg` for a type below `NumActionTypes`. -/
def actionUsesLocationArg (actionType : UInt8) : Bool :=
  actionType ∈ [7, 10, 11, 16, 18, 23, 25, 28, 34, 38, 39, 42, 43, 44, 46, 48, 49, 50, 51,
      52, (53 : UInt8)]

/-- `Action::actionUsesSecondaryLocationArg` for a type below
`NumActionTypes`; the location is in `number`. -/
def actionUsesSecondaryLocationArg (actionType : UInt8) : Bool :=
  actionType ∈ [38, 39, (46 : UInt8)]

/-- A named action with a string in its text is stored under a type that uses
its string. -/
theorem actionUsesStringArg_of_mem {action : VirtualAction}
    (hmem : .string ∈ action.textArguments) :
    actionUsesStringArg action.actionType = true := by
  revert hmem
  cases action <;> decide

theorem textArguments_nodup (action : VirtualAction) : action.textArguments.Nodup := by
  cases action <;> decide

end Chkdraft.Chk
