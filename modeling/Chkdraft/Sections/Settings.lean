import Chkdraft.Core.Fault
import Chkdraft.Core.PackedLayout
import Chkdraft.Sections.Section

/-!
# Settings of units, upgrades and technologies

Eleven structure sections hold the settings, one array for each setting.  The
getters and setters of their classes differ in the array, in what it is indexed
by and in the texts of their errors only.
-/

namespace Chkdraft.Sections

variable {player type : ℕ}

/-- `Sc::Player::Total`. -/
def totalPlayers : ℕ := 12

/-- The arrays of UNIS and UNIx, for a number of weapons. -/
def unitArrays (weapons : ℕ) : List PackedArray :=
  [⟨1, 228⟩, ⟨4, 228⟩, ⟨2, 228⟩, ⟨1, 228⟩, ⟨2, 228⟩, ⟨2, 228⟩, ⟨2, 228⟩,
    ⟨2, 228⟩, ⟨2, weapons⟩, ⟨2, weapons⟩]

/-- The arrays of a structure with a row of players for each type. -/
def playerArrays (types : ℕ) : List PackedArray :=
  [⟨1, types * totalPlayers⟩, ⟨1, types * totalPlayers⟩, ⟨1, types⟩,
    ⟨1, types⟩, ⟨1, types * totalPlayers⟩]

/-- The arrays of a structure of settings.  UPGx has an unused byte behind its
first one. -/
def settingArrays : StructName → List PackedArray
  | .unis => unitArrays 100
  | .unix => unitArrays 130
  | .puni => [⟨1, 228 * totalPlayers⟩, ⟨1, 228⟩, ⟨1, 228 * totalPlayers⟩]
  | .upgs => ⟨1, 46⟩ :: List.replicate 6 ⟨2, 46⟩
  | .upgx => ⟨1, 61⟩ :: ⟨1, 1⟩ :: List.replicate 6 ⟨2, 61⟩
  | .upgr => playerArrays 46
  | .pupx => playerArrays 61
  | .tecs => ⟨1, 24⟩ :: List.replicate 4 ⟨2, 24⟩
  | .tecx => ⟨1, 44⟩ :: List.replicate 4 ⟨2, 44⟩
  | .ptec => playerArrays 24
  | .ptex => playerArrays 44
  | _ => []

theorem size_settingArrays_le (name : StructName) :
    PackedLayout.size (settingArrays name) ≤ name.size := by
  cases name <;> decide

/-- What the arrays of a setting are indexed by. -/
inductive SettingIndex where
  | unit | weapon | upgrade | tech
deriving DecidableEq

/-- The sections that hold the same settings, for the original and for the
expansion. -/
inductive SettingGroup where
  | unitSettings | unitBuildability | upgradeCosts | upgradeLeveling
  | techCosts | techAvailability
deriving DecidableEq

/-- The settings of `Properties`, under the name its getter and setter have in
common. -/
inductive Setting where
  | unitUsesDefaultSettings | unitHitpoints | unitShieldPoints
  | unitArmorLevel | unitBuildTime | unitMineralCost | unitGasCost
  | unitNameStringId | weaponBaseDamage | weaponUpgradeDamage
  | unitBuildable | unitDefaultBuildable | playerUsesDefaultUnitBuildability
  | upgradeUsesDefaultCosts | upgradeBaseMineralCost
  | upgradeMineralCostFactor | upgradeBaseGasCost | upgradeGasCostFactor
  | upgradeBaseResearchTime | upgradeResearchTimeFactor
  | maxUpgradeLevel | startUpgradeLevel | defaultMaxUpgradeLevel
  | defaultStartUpgradeLevel | playerUsesDefaultUpgradeLeveling
  | techUsesDefaultSettings | techMineralCost | techGasCost
  | techResearchTime | techEnergyCost
  | techAvailable | techResearched | techDefaultAvailable
  | techDefaultResearched | playerUsesDefaultTechSettings
deriving DecidableEq

/-- The number of types, and of original types. -/
def SettingIndex.total : SettingIndex → Bool → ℕ
  | .unit, _ => 228
  | .weapon, expansion => if expansion then 130 else 100
  | .upgrade, expansion => if expansion then 61 else 46
  | .tech, expansion => if expansion then 44 else 24

def SettingIndex.label : SettingIndex → String
  | .unit => "UnitType"
  | .weapon => "WeaponType"
  | .upgrade => "UpgradeType"
  | .tech => "TechType"

def SettingGroup.table : SettingGroup → Bool → StructName
  | .unitSettings, expansion => if expansion then .unix else .unis
  | .unitBuildability, _ => .puni
  | .upgradeCosts, expansion => if expansion then .upgx else .upgs
  | .upgradeLeveling, expansion => if expansion then .pupx else .upgr
  | .techCosts, expansion => if expansion then .tecx else .tecs
  | .techAvailability, expansion => if expansion then .ptex else .ptec

def SettingGroup.label : SettingGroup → Bool → String
  | .unitSettings, expansion => if expansion then "UNIx" else "UNIS"
  | .unitBuildability, _ => "PUNI"
  | .upgradeCosts, expansion => if expansion then "UPGx" else "UPGS"
  | .upgradeLeveling, expansion => if expansion then "PUPx" else "UPGR"
  | .techCosts, expansion => if expansion then "TECx" else "TECS"
  | .techAvailability, expansion => if expansion then "PTEx" else "PTEC"

variable {setting : Setting}

namespace Setting

def group : Setting → SettingGroup
  | unitUsesDefaultSettings | unitHitpoints | unitShieldPoints
  | unitArmorLevel | unitBuildTime | unitMineralCost | unitGasCost
  | unitNameStringId | weaponBaseDamage | weaponUpgradeDamage => .unitSettings
  | unitBuildable | unitDefaultBuildable
  | playerUsesDefaultUnitBuildability => .unitBuildability
  | upgradeUsesDefaultCosts | upgradeBaseMineralCost
  | upgradeMineralCostFactor | upgradeBaseGasCost | upgradeGasCostFactor
  | upgradeBaseResearchTime | upgradeResearchTimeFactor => .upgradeCosts
  | maxUpgradeLevel | startUpgradeLevel | defaultMaxUpgradeLevel
  | defaultStartUpgradeLevel
  | playerUsesDefaultUpgradeLeveling => .upgradeLeveling
  | techUsesDefaultSettings | techMineralCost | techGasCost
  | techResearchTime | techEnergyCost => .techCosts
  | techAvailable | techResearched | techDefaultAvailable
  | techDefaultResearched | playerUsesDefaultTechSettings => .techAvailability

def index : Setting → SettingIndex
  | weaponBaseDamage | weaponUpgradeDamage => .weapon
  | setting =>
      match setting.group with
      | .unitSettings | .unitBuildability => .unit
      | .upgradeCosts | .upgradeLeveling => .upgrade
      | .techCosts | .techAvailability => .tech

/-- The array of the setting in the structure of its section. -/
def array : Setting → Bool → ℕ
  | unitUsesDefaultSettings, _ => 0
  | unitHitpoints, _ => 1
  | unitShieldPoints, _ => 2
  | unitArmorLevel, _ => 3
  | unitBuildTime, _ => 4
  | unitMineralCost, _ => 5
  | unitGasCost, _ => 6
  | unitNameStringId, _ => 7
  | weaponBaseDamage, _ => 8
  | weaponUpgradeDamage, _ => 9
  | unitBuildable, _ => 0
  | unitDefaultBuildable, _ => 1
  | playerUsesDefaultUnitBuildability, _ => 2
  | upgradeUsesDefaultCosts, _ => 0
  | upgradeBaseMineralCost, expansion => if expansion then 2 else 1
  | upgradeMineralCostFactor, expansion => if expansion then 3 else 2
  | upgradeBaseGasCost, expansion => if expansion then 4 else 3
  | upgradeGasCostFactor, expansion => if expansion then 5 else 4
  | upgradeBaseResearchTime, expansion => if expansion then 6 else 5
  | upgradeResearchTimeFactor, expansion => if expansion then 7 else 6
  | maxUpgradeLevel, _ => 0
  | startUpgradeLevel, _ => 1
  | defaultMaxUpgradeLevel, _ => 2
  | defaultStartUpgradeLevel, _ => 3
  | playerUsesDefaultUpgradeLeveling, _ => 4
  | techUsesDefaultSettings, _ => 0
  | techMineralCost, _ => 1
  | techGasCost, _ => 2
  | techResearchTime, _ => 3
  | techEnergyCost, _ => 4
  | techAvailable, _ => 0
  | techResearched, _ => 1
  | techDefaultAvailable, _ => 2
  | techDefaultResearched, _ => 3
  | playerUsesDefaultTechSettings, _ => 4

def perPlayer : Setting → Bool
  | unitBuildable | playerUsesDefaultUnitBuildability | maxUpgradeLevel
  | startUpgradeLevel | playerUsesDefaultUpgradeLeveling | techAvailable
  | techResearched | playerUsesDefaultTechSettings => true
  | _ => false

/-- Settings that are a `bool`, here 0 or 1. -/
def isFlag : Setting → Bool
  | unitUsesDefaultSettings | unitBuildable | unitDefaultBuildable
  | playerUsesDefaultUnitBuildability | upgradeUsesDefaultCosts
  | playerUsesDefaultUpgradeLeveling | techUsesDefaultSettings
  | techAvailable | techResearched | techDefaultAvailable
  | techDefaultResearched | playerUsesDefaultTechSettings => true
  | _ => false

def table (setting : Setting) (expansion : Bool) : StructName := setting.group.table expansion

def width (setting : Setting) (expansion : Bool) : ℕ :=
  PackedLayout.width (settingArrays (setting.table expansion)) (setting.array expansion)

/-- The entry of a type, and of a player where each has one. -/
def item (setting : Setting) (expansion : Bool) (type player : ℕ) : PackedItem where
  array := setting.array expansion
  index :=
    if setting.perPlayer then totalPlayers * type + player else type

def encode (setting : Setting) (value : ℕ) : ℕ :=
  if setting.isFlag then (if value = 0 then 0 else 1) else value

def decode (setting : Setting) (stored : ℕ) : ℕ :=
  if setting.isFlag then (if stored = 0 then 0 else 1) else stored

def outOfRange (label : String) (index : ℕ) (table : String) : String :=
  label ++ ": " ++ toString index ++ " is out of range for the " ++ table ++
    " section!"

/-- The section an error of a getter names: `UnixSection` has the name of the
other section in one of them. -/
def readLabel (setting : Setting) (expansion : Bool) : String :=
  if setting = unitUsesDefaultSettings then "UNIS"
  else setting.group.label expansion

/-- The checks in front of every access of an entry. -/
def checkPlayer (setting : Setting) (table : String) (player : ℕ) : Except (Fault String) Unit :=
  if setting.perPlayer ∧ totalPlayers ≤ player then
    .error (.thrown (outOfRange "PlayerIndex" player table))
  else
    .ok ()

def checkRead (setting : Setting) (expansion : Bool) (type player : ℕ) :
    Except (Fault String) Unit :=
  if type < setting.index.total expansion then
    setting.checkPlayer (setting.readLabel expansion) player
  else
    .error (.thrown (outOfRange setting.index.label type (setting.readLabel expansion)))

/-- The checks of the setters.  `setPlayerUsesDefault` of PTEC and PTEx does
not look at the player, and leaves the row of the type. -/
def checkWrite (setting : Setting) (expansion : Bool) (type player : ℕ) :
    Except (Fault String) Unit :=
  if type < setting.index.total expansion then
    if setting = playerUsesDefaultTechSettings then
      if totalPlayers ≤ player then .error (.hazard .undefinedBehavior)
      else .ok ()
    else
      setting.checkPlayer (setting.group.label expansion) player
  else
    .error (.thrown (outOfRange setting.index.label type (setting.group.label expansion)))

def InRange (setting : Setting) (expansion : Bool) (type player : ℕ) : Prop :=
  type < setting.index.total expansion ∧ (setting.perPlayer = true → player < totalPlayers)

theorem checkPlayer_eq_ok_iff {label : String} : setting.checkPlayer label player = .ok () ↔
      (setting.perPlayer = true → player < totalPlayers) := by
  rw [checkPlayer]
  split
  · next h =>
      refine iff_of_false (fun heq => by cases heq) fun hlt => ?_
      exact Nat.not_lt.mpr h.2 (hlt h.1)
  · next h =>
      refine iff_of_true rfl fun hplayer => ?_
      exact Nat.lt_of_not_le fun hle => h ⟨hplayer, hle⟩

theorem checkRead_eq_ok_iff {expansion : Bool} : setting.checkRead expansion type player = .ok () ↔
      setting.InRange expansion type player := by
  rw [checkRead, InRange]
  split
  · next hlt => rw [checkPlayer_eq_ok_iff, and_iff_right hlt]
  · next hge => exact iff_of_false (fun heq => by cases heq) fun h => hge h.1

theorem checkWrite_eq_ok_iff {expansion : Bool} :
    setting.checkWrite expansion type player = .ok () ↔ setting.InRange expansion type player := by
  rw [checkWrite, InRange]
  split
  · next hlt =>
      rw [and_iff_right hlt]
      split
      · next hsetting =>
          subst hsetting
          split
          · next hle =>
              refine iff_of_false (fun heq => by cases heq) fun h => ?_
              exact Nat.not_lt.mpr hle (h rfl)
          · next hlt => exact iff_of_true rfl fun _ => Nat.lt_of_not_le hlt
      · exact checkPlayer_eq_ok_iff
  · next hge => exact iff_of_false (fun heq => by cases heq) fun h => hge h.1

/-- The arrays have an entry for every type, and for every player. -/
theorem count_array (setting : Setting) (expansion : Bool) :
    ((settingArrays (setting.table expansion)).getD (setting.array expansion) ⟨0, 0⟩).count =
      setting.index.total expansion *
        if setting.perPlayer then totalPlayers else 1 := by
  cases expansion <;> cases setting <;> rfl

theorem InRange.inside {expansion : Bool} (hrange : setting.InRange expansion type player) :
    PackedLayout.Inside (settingArrays (setting.table expansion))
      (setting.item expansion type player) := by
  obtain ⟨htype, hplayer⟩ := hrange
  rw [PackedLayout.Inside, item, count_array]
  split
  · next h =>
      have hlt : player < 12 := hplayer h
      change 12 * type + player < setting.index.total expansion * 12
      omega
  · rwa [Nat.mul_one]

/-- An index of the original section is one of the expansion's. -/
theorem InRange.expansion (hrange : setting.InRange false type player) :
    setting.InRange true type player := by
  refine ⟨Nat.lt_of_lt_of_le hrange.1 ?_, hrange.2⟩
  cases setting.index <;> decide

/-- The value a getter gives for a value that was set: a flag, or the low bytes
of a number. -/
def kept (setting : Setting) (value : ℕ) : ℕ :=
  setting.decode (setting.encode value % 256 ^ setting.width false)

theorem width_true (setting : Setting) : setting.width true = setting.width false := by
  cases setting <;> rfl

theorem width_eq (setting : Setting) (expansion : Bool) :
    setting.width expansion = setting.width false := by
  cases expansion
  · rfl
  · exact width_true setting

theorem eq_of_array_eq {other : Setting} {expansion more : Bool}
    (htable : setting.table expansion = other.table more)
    (harray : setting.array expansion = other.array more) :
    setting = other := by
  have hall : ∀ index < 35, ∀ second < 35, ∀ expansion more,
      (ofNat index).table expansion = (ofNat second).table more →
        (ofNat index).array expansion = (ofNat second).array more → index = second := by
    decide +kernel
  have hlt (setting : Setting) : setting.ctorIdx < 35 := by
    cases setting <;> decide
  rw [← ofNat_ctorIdx setting, ← ofNat_ctorIdx other] at htable harray ⊢
  rw [hall _ (hlt _) _ (hlt _) _ _ htable harray]

/-- An address of a setting: its type, and its player where players have it. -/
def SameEntry (setting other : Setting) (type otherType player otherPlayer : ℕ) : Prop :=
  setting = other ∧ type = otherType ∧ (setting.perPlayer = true → player = otherPlayer)

/-- Entries of one section are the same only for the same setting of the same
type and player. -/
theorem sameEntry_of_item_eq {other : Setting}
    {expansion otherExpansion : Bool} {otherType otherPlayer : ℕ}
    (hrange : setting.InRange expansion type player)
    (hotherRange : other.InRange otherExpansion otherType otherPlayer)
    (htable : setting.table expansion = other.table otherExpansion)
    (hitem : setting.item expansion type player = other.item otherExpansion otherType otherPlayer) :
    SameEntry setting other type otherType player otherPlayer := by
  have harray : setting.array expansion = other.array otherExpansion :=
    congrArg PackedItem.array hitem
  have hsetting : setting = other := eq_of_array_eq htable harray
  subst hsetting
  have hindex := congrArg PackedItem.index hitem
  simp only [item] at hindex
  cases hplayer : setting.perPlayer with
  | false =>
      simp only [hplayer, Bool.false_eq_true, if_false] at hindex
      exact ⟨rfl, hindex, fun h => by rw [hplayer] at h; cases h⟩
  | true =>
      have hlt : player < 12 := hrange.2 hplayer
      have hotherLt : otherPlayer < 12 := hotherRange.2 hplayer
      simp only [hplayer, if_true, totalPlayers] at hindex
      exact ⟨rfl, by omega, fun _ => by omega⟩

end Setting

end Chkdraft.Sections
