import Chkdraft.Scenario.SaveLoad
import Chkdraft.Scenario.UpgradeNames
import Chkdraft.Sections.Settings

/-!
# Reading and changing settings

`Properties` reads a setting from the section of the original or from that of
the expansion and writes it to one or both.  Its functions are stated for any
store of settings; a loaded scenario keeps them in the bytes of its sections,
and a plain table of numbers is the store this is compared with.
-/

namespace Chkdraft.Scenario

open Binary Sections

/-- `Chk::UseExpSection`. -/
inductive UseExpSection where
  | auto | yes | no | both | yesIfAvailable | noIfOrigAvailable
deriving DecidableEq

/-- What the functions of `Properties` do with the sections. -/
structure SettingsAccess (S : Type) where
  isHybridOrAbove : S → Except (Fault String) Bool
  available : S → SettingGroup → Bool → Bool
  read : S → Setting → Bool → ℕ → ℕ → Except (Fault String) ℕ
  write : S → Setting → Bool → ℕ → ℕ → ℕ → Except (Fault String) S
  assignDefault : S → SettingGroup → Bool → Except (Fault String) S

namespace Properties

variable {S : Type} (access : SettingsAccess S)

/-- The functions `useExpansionUnitSettings` and so on.  The cases `Yes` and
`No` lack their `return` and fall through to `NoIfOrigAvailable`. -/
def useExpansion (state : S) (group : SettingGroup) : UseExpSection → Except (Fault String) Bool
  | .auto => access.isHybridOrAbove state
  | .yes | .no | .noIfOrigAvailable =>
      .ok !access.available state group false
  | .yesIfAvailable | .both => .ok (access.available state group true)

/-- The getters.  Those of PUNI have no other section to read from. -/
def getSetting (state : S) (setting : Setting) (type player : ℕ)
    (useExp : UseExpSection) : Except (Fault String) ℕ :=
  if setting.group = .unitBuildability then
    access.read state setting false type player
  else
    (useExpansion access state setting.group useExp).bind fun expansion =>
      access.read state setting expansion type player

/-- The sections a setter writes to.  For a setting of units `Auto` does what
`Both` does. -/
def setterSections (state : S) (setting : Setting) (type : ℕ) : UseExpSection → List Bool
  | .auto =>
      if setting.group = .unitSettings ∧ setting.index = .unit then
        [false, true]
      else
        (if type < setting.index.total false ∧
            access.available state setting.group false then [false]
          else []) ++
          if access.available state setting.group true then [true] else []
  | .both => [false, true]
  | .yes => [true]
  | .no => [false]
  | .yesIfAvailable => [access.available state setting.group true]
  | .noIfOrigAvailable => [!access.available state setting.group false]

/-- Write to sections one after the other; the first fault ends it. -/
def writeAll (setting : Setting) (type player value : ℕ) (state : S) :
    List Bool → S × Except (Fault String) Unit
  | [] => (state, .ok ())
  | expansion :: rest =>
      match access.write state setting expansion type player value with
      | .ok after => writeAll setting type player value after rest
      | .error fault => (state, .error fault)

def setSetting (state : S) (setting : Setting) (type player value : ℕ)
    (useExp : UseExpSection) : S × Except (Fault String) Unit :=
  writeAll access setting type player value state <|
    if setting.group = .unitBuildability then [false]
    else setterSections access state setting type useExp

/-- `setUnitsToDefault`, `setUpgradesToDefault` and `setTechsToDefault`. -/
inductive Defaults where
  | units | upgrades | techs
deriving DecidableEq

/-- The sections of a group that are set to their defaults. -/
def groupSections (state : S) (group : SettingGroup) : UseExpSection → List (SettingGroup × Bool)
  | .auto | .both => [(group, false), (group, true)]
  | .yes => [(group, true)]
  | .no => [(group, false)]
  | .yesIfAvailable => [(group, access.available state group true)]
  | .noIfOrigAvailable => [(group, !access.available state group false)]

def defaultSections (state : S) (useExp : UseExpSection) : Defaults → List (SettingGroup × Bool)
  | .units => groupSections access state .unitSettings useExp ++
      [(.unitBuildability, false)]
  | .upgrades => groupSections access state .upgradeCosts useExp ++
      groupSections access state .upgradeLeveling useExp
  | .techs => groupSections access state .techCosts useExp ++
      groupSections access state .techAvailability useExp

def assignAll (state : S) : List (SettingGroup × Bool) → S × Except (Fault String) Unit
  | [] => (state, .ok ())
  | (group, expansion) :: rest =>
      match access.assignDefault state group expansion with
      | .ok after => assignAll after rest
      | .error fault => (state, .error fault)

def setToDefault (state : S) (which : Defaults) (useExp : UseExpSection) :
    S × Except (Fault String) Unit :=
  assignAll access state (defaultSections access state useExp which)

/-- A call of a function of `Properties`. -/
inductive Call where
  | get (setting : Setting) (type player : ℕ) (useExp : UseExpSection)
  | set (setting : Setting) (type player value : ℕ) (useExp : UseExpSection)
  | setToDefault (which : Defaults) (useExp : UseExpSection)

/-- What a call leaves behind, and its answer; setters have none. -/
def call (state : S) : Call → S × Except (Fault String) (Option ℕ)
  | .get setting type player useExp =>
      (state, (getSetting access state setting type player useExp).map some)
  | .set setting type player value useExp =>
      let (after, outcome) := setSetting access state setting type player value useExp
      (after, outcome.map fun _ => none)
  | .setToDefault which useExp =>
      let (after, outcome) := setToDefault access state which useExp
      (after, outcome.map fun _ => none)

/-- The answers of a run of calls and the state behind it.  Exceptions are
caught; nothing is said about what follows undefined behaviour. -/
def run (state : S) : List Call → List (Except (Fault String) (Option ℕ)) × S
  | [] => ([], state)
  | first :: calls =>
      match call access state first with
      | (after, .error (.hazard hazard)) => ([.error (.hazard hazard)], after)
      | (after, answer) =>
          let rest := run after calls
          (answer :: rest.1, rest.2)

/-- Every access of a store is that of the store seen in it. -/
structure Simulates {T : Type} (access : SettingsAccess S)
    (seen : SettingsAccess T) (view : S → T) (Good : S → Prop) : Prop where
  isHybridOrAbove : ∀ state, Good state →
    seen.isHybridOrAbove (view state) = access.isHybridOrAbove state
  available : ∀ state group expansion, Good state →
    seen.available (view state) group expansion = access.available state group expansion
  read : ∀ state setting expansion type player, Good state →
    seen.read (view state) setting expansion type player =
      access.read state setting expansion type player
  write : ∀ state setting expansion type player value, Good state →
    seen.write (view state) setting expansion type player value =
      (access.write state setting expansion type player value).map view
  good_write : ∀ {state setting expansion type player value after}, Good state →
    access.write state setting expansion type player value = .ok after →
    Good after
  assignDefault : ∀ state group expansion, Good state →
    seen.assignDefault (view state) group expansion =
      (access.assignDefault state group expansion).map view
  good_assignDefault : ∀ {state group expansion after}, Good state →
    access.assignDefault state group expansion = .ok after → Good after

/-- What was done in a store was done in the store seen in it. -/
def Sees {T B : Type} (view : S → T) (Good : S → Prop) (seen : T × B) (result : S × B) : Prop :=
  seen = (view result.1, result.2) ∧ Good result.1

namespace Simulates

variable {access} {T : Type} {seen : SettingsAccess T} {view : S → T}
  {Good : S → Prop} {state : S}

section

variable (hsim : Simulates access seen view Good)

include hsim

theorem getSetting_eq (hgood : Good state) (setting : Setting)
    (type player : ℕ) (useExp : UseExpSection) :
    getSetting seen (view state) setting type player useExp =
      getSetting access state setting type player useExp := by
  have huse : useExpansion seen (view state) setting.group useExp =
      useExpansion access state setting.group useExp := by
    cases useExp <;>
      simp only [useExpansion, hsim.isHybridOrAbove state hgood, hsim.available state _ _ hgood]
  simp only [getSetting, huse, hsim.read state _ _ _ _ hgood]

section

variable (hgood : Good state)

include hgood

theorem writeAll_eq (setting : Setting) (type player value : ℕ) (sections : List Bool) :
    Sees view Good (writeAll seen setting type player value (view state) sections)
      (writeAll access setting type player value state sections) := by
  induction sections generalizing state with
  | nil => exact ⟨rfl, hgood⟩
  | cons expansion rest ih =>
      rw [writeAll, writeAll, hsim.write state _ _ _ _ _ hgood]
      cases hwrite : access.write state setting expansion type player value with
      | ok after => exact ih (hsim.good_write hgood hwrite)
      | error fault => exact ⟨rfl, hgood⟩

theorem setSetting_eq (setting : Setting) (type player value : ℕ) (useExp : UseExpSection) :
    Sees view Good (setSetting seen (view state) setting type player value useExp)
      (setSetting access state setting type player value useExp) := by
  have hsections : setterSections seen (view state) setting type useExp =
      setterSections access state setting type useExp := by
    cases useExp <;>
      simp only [setterSections, hsim.available state _ _ hgood]
  rw [setSetting, setSetting, hsections]
  exact hsim.writeAll_eq hgood setting type player value _

theorem assignAll_eq (sections : List (SettingGroup × Bool)) :
    Sees view Good (assignAll seen (view state) sections) (assignAll access state sections) := by
  induction sections generalizing state with
  | nil => exact ⟨rfl, hgood⟩
  | cons first rest ih =>
      obtain ⟨group, expansion⟩ := first
      rw [assignAll, assignAll, hsim.assignDefault state _ _ hgood]
      cases hassign : access.assignDefault state group expansion with
      | ok after => exact ih (hsim.good_assignDefault hgood hassign)
      | error fault => exact ⟨rfl, hgood⟩

theorem setToDefault_eq (which : Defaults) (useExp : UseExpSection) :
    Sees view Good (setToDefault seen (view state) which useExp)
      (setToDefault access state which useExp) := by
  have hgroup : ∀ group, groupSections seen (view state) group useExp =
      groupSections access state group useExp := by
    intro group
    cases useExp <;> simp only [groupSections, hsim.available state _ _ hgood]
  have hsections : defaultSections seen (view state) useExp which =
      defaultSections access state useExp which := by
    cases which <;> simp only [defaultSections, hgroup]
  rw [setToDefault, setToDefault, hsections]
  exact hsim.assignAll_eq hgood _

theorem call_eq (first : Call) :
    Sees view Good (call seen (view state) first) (call access state first) := by
  cases first with
  | get setting type player useExp =>
      refine ⟨?_, hgood⟩
      rw [call, hsim.getSetting_eq hgood]
      rfl
  | set setting type player value useExp =>
      obtain ⟨heq, hafter⟩ := hsim.setSetting_eq hgood setting type player value useExp
      refine ⟨?_, hafter⟩
      rw [call, heq]
      rfl
  | setToDefault which useExp =>
      obtain ⟨heq, hafter⟩ := hsim.setToDefault_eq hgood which useExp
      refine ⟨?_, hafter⟩
      rw [call, heq]
      rfl

theorem run_eq (calls : List Call) : run seen (view state) calls =
        ((run access state calls).1, view (run access state calls).2) ∧
      Good (run access state calls).2 := by
  induction calls generalizing state with
  | nil => exact ⟨rfl, hgood⟩
  | cons first calls ih =>
      obtain ⟨heq, hafter⟩ := hsim.call_eq hgood first
      rw [run, run, heq]
      generalize call access state first = result at hafter
      obtain ⟨after, answer⟩ := result
      cases answer with
      | ok value => exact ⟨by simp only [(ih hafter).1], (ih hafter).2⟩
      | error fault =>
          cases fault with
          | thrown text => exact ⟨by simp only [(ih hafter).1], (ih hafter).2⟩
          | hazard hazard => exact ⟨rfl, hafter⟩

end

end

end Simulates

end Properties

end Chkdraft.Scenario
