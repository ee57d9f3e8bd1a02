import Chkdraft.Scenario.Completeness
import Chkdraft.Scenario.Properties
import Chkdraft.Scenario.VersionChange

/-!
# Settings in the bytes of a map

The settings of a loaded scenario are the words of eleven sections.  They form
a table of numbers: an access that returns reads or replaces one number and no
other, and any run of calls answers as it does for the plain table.
-/

namespace Chkdraft.Scenario

open Binary Sections

namespace LoadedFile

/-- `Versions::isHybridOrAbove`. -/
def isHybridOrAbove (file : LoadedFile) : Except (Fault String) Bool :=
  match file.struct? .ver with
  | some ver =>
      if ver.dataValid then
        .ok (decide (starCraftHybrid.toNat ≤ wordAt 2 ver.rawData 0))
      else
        .error (.hazard .undefinedBehavior)
  | none => .error (.hazard .undefinedBehavior)

def readSetting (file : LoadedFile) (setting : Setting) (expansion : Bool)
    (type player : ℕ) : Except (Fault String) ℕ :=
  match file.struct? (setting.table expansion) with
  | none => .error (.hazard .undefinedBehavior)
  | some content => do
      setting.checkRead expansion type player
      if content.dataValid then
        pure (setting.decode (wordAt (setting.width expansion) content.rawData
          (PackedLayout.position (settingArrays (setting.table expansion))
            (setting.item expansion type player))))
      else
        .error (.hazard .undefinedBehavior)

def writeSetting (file : LoadedFile) (setting : Setting) (expansion : Bool)
    (type player value : ℕ) : Except (Fault String) LoadedFile :=
  match file.struct? (setting.table expansion) with
  | none => .error (.hazard .undefinedBehavior)
  | some content => do
      setting.checkWrite expansion type player
      if content.dataValid then
        pure (file.setSection (.struct (setting.table expansion)) (.struct
          (setWord content (setting.width expansion)
            (PackedLayout.position (settingArrays (setting.table expansion))
              (setting.item expansion type player))
            (setting.encode value))))
      else
        .error (.hazard .undefinedBehavior)

end LoadedFile

/-- `GetDefault` of a section of settings. -/
def defaultSection (name : StructName) : StructSection :=
  structOf name (((structDefaults 0).lookup name).getD [])

/-- A section a temporary default was assigned to: the assignment copies the
pointer `data`, which leads to the bytes of the temporary. -/
def assignedDefault (name : StructName) : StructSection :=
  { defaultSection name with dataValid := false }

namespace LoadedFile

/-- `*section = *GetDefault()`. -/
def assignDefault (file : LoadedFile) (group : SettingGroup)
    (expansion : Bool) : Except (Fault String) LoadedFile :=
  match file.struct? (group.table expansion) with
  | none => .error (.hazard .undefinedBehavior)
  | some _ =>
      .ok (file.setSection (.struct (group.table expansion))
        (.struct (assignedDefault (group.table expansion))))

/-- The sections of a scenario as `Properties` uses them. -/
def settingsAccess : SettingsAccess LoadedFile where
  isHybridOrAbove := isHybridOrAbove
  available := fun file group expansion =>
    (file.struct? (group.table expansion)).isSome
  read := readSetting
  write := writeSetting
  assignDefault := assignDefault

end LoadedFile

/-- The settings of one section; `live` says whether they can be accessed. -/
structure SettingsTable where
  live : Bool
  value : PackedItem → ℕ

def SettingsTable.set (table : SettingsTable) (item : PackedItem) (value : ℕ) : SettingsTable :=
  { table with value := Function.update table.value item value }

namespace SettingsTable

variable (table : SettingsTable) (item : PackedItem) (value : ℕ)

theorem live_set : (table.set item value).live = table.live := rfl

theorem value_set_self : (table.set item value).value item = value := by
  simp only [set, Function.update_self]

theorem value_set_of_ne {other : PackedItem} (hne : other ≠ item) :
    (table.set item value).value other = table.value other := by
  simp only [set, Function.update_of_ne hne]

end SettingsTable

/-- The settings of a map. -/
structure SettingsStore where
  hybridOrAbove : Except (Fault String) Bool
  table : StructName → Option SettingsTable

namespace SettingsStore

def readSetting (store : SettingsStore) (setting : Setting) (expansion : Bool)
    (type player : ℕ) : Except (Fault String) ℕ :=
  match store.table (setting.table expansion) with
  | none => .error (.hazard .undefinedBehavior)
  | some table => do
      setting.checkRead expansion type player
      if table.live then
        pure (setting.decode (table.value (setting.item expansion type player)))
      else
        .error (.hazard .undefinedBehavior)

def writeSetting (store : SettingsStore) (setting : Setting) (expansion : Bool)
    (type player value : ℕ) : Except (Fault String) SettingsStore :=
  match store.table (setting.table expansion) with
  | none => .error (.hazard .undefinedBehavior)
  | some table => do
      setting.checkWrite expansion type player
      if table.live then
        pure { store with
          table := Function.update store.table (setting.table expansion)
            (some (table.set (setting.item expansion type player)
              (setting.encode value % 256 ^ setting.width expansion))) }
      else
        .error (.hazard .undefinedBehavior)

end SettingsStore

/-- The settings that the bytes of a section stand for. -/
def settingsOf (name : StructName) (content : StructSection) : SettingsTable where
  live := content.dataValid
  value := fun item =>
    if PackedLayout.Inside (settingArrays name) item then
      wordAt (PackedLayout.width (settingArrays name) item.array)
        content.rawData (PackedLayout.position (settingArrays name) item)
    else 0

namespace SettingsStore

def assignDefault (store : SettingsStore) (group : SettingGroup)
    (expansion : Bool) : Except (Fault String) SettingsStore :=
  match store.table (group.table expansion) with
  | none => .error (.hazard .undefinedBehavior)
  | some _ =>
      .ok { store with
        table := Function.update store.table (group.table expansion)
          (some (settingsOf (group.table expansion) (assignedDefault (group.table expansion)))) }

def access : SettingsAccess SettingsStore where
  isHybridOrAbove := hybridOrAbove
  available := fun store group expansion =>
    (store.table (group.table expansion)).isSome
  read := readSetting
  write := writeSetting
  assignDefault := assignDefault

end SettingsStore

def LoadedFile.settings (file : LoadedFile) : SettingsStore where
  hybridOrAbove := file.isHybridOrAbove
  table := fun name => (file.struct? name).map (settingsOf name)

/-- The word that was set is the number of its setting; the others stay. -/
theorem settingsOf_setWord {name : StructName} {content : StructSection}
    (hname : content.name = name) {item : PackedItem}
    (hinside : PackedLayout.Inside (settingArrays name) item) (value : ℕ) :
    settingsOf name (setWord content (PackedLayout.width (settingArrays name) item.array)
        (PackedLayout.position (settingArrays name) item) value) =
      (settingsOf name content).set item
        (value % 256 ^ PackedLayout.width (settingArrays name) item.array) := by
  have hfit : PackedLayout.position (settingArrays name) item +
      PackedLayout.width (settingArrays name) item.array ≤
        content.rawData.length := by
    have hsize := content.size_le
    rw [hname] at hsize
    exact (hinside.position_add_le_size.trans (size_settingArrays_le name)).trans hsize
  refine congrArg (SettingsTable.mk content.dataValid) ?_
  funext other
  by_cases heq : other = item
  · rw [heq, Function.update_self, if_pos hinside, wordAt_setWord_self value hfit]
  · rw [Function.update_of_ne heq]
    refine ite_congr rfl (fun hother => ?_) fun _ => rfl
    exact wordAt_setWord_of_disjoint value hfit (hother.disjoint hinside heq)

def settingTables : List StructName :=
  [.unis, .unix, .puni, .upgs, .upgx, .upgr, .pupx, .tecs, .tecx, .ptec, .ptex]

theorem table_mem (group : SettingGroup) (expansion : Bool) :
    group.table expansion ∈ settingTables := by
  cases group <;> cases expansion <;> decide

theorem proper_struct (name : StructName) :
    SectionName.ofCode (SectionName.struct name).code = .struct name := by
  cases name <;> decide

/-- What accesses of settings keep of a scenario: everything but the objects of
the sections of settings. -/
structure KeepsOthers (start file : LoadedFile) : Prop where
  others_eq : { file with objects := start.objects } = start
  length_eq : file.objects.length = start.objects.length
  objects_eq : ∀ handle, (∀ name ∈ settingTables, start.pointer (.struct name) ≠ some handle) →
      file.objects[handle]? = start.objects[handle]?

/-- A scenario reached from another one by accesses of settings. -/
structure Reached (start file : LoadedFile) : Prop extends KeepsOthers start file where
  classed : Classed file

theorem Reached.refl {file : LoadedFile} (hclassed : Classed file) : Reached file file where
  others_eq := rfl
  length_eq := rfl
  objects_eq := fun _ _ => rfl
  classed := hclassed

section

variable {start file : LoadedFile} {name : StructName}
  {content new : StructSection}

theorem Reached.pointer_eq (hreached : Reached start file) : file.pointer = start.pointer := by
  have hpointer := congrArg LoadedFile.pointer hreached.others_eq
  exact hpointer

theorem exists_handle (hcontent : file.struct? name = some content) :
    ∃ handle, file.pointer (.struct name) = some handle ∧
      file.objects[handle]? = some (.struct content) := by
  rw [LoadedFile.struct?_eq_some_iff] at hcontent
  cases hpointer : file.pointer (.struct name) with
  | none => rw [section_eq_none hpointer] at hcontent; cases hcontent
  | some handle =>
      rw [section_eq hpointer] at hcontent
      exact ⟨handle, rfl, hcontent⟩

theorem name_of_struct? (hclassed : Classed file)
    (hcontent : file.struct? name = some content) : content.name = name := by
  obtain ⟨handle, hpointer, hobject⟩ := exists_handle hcontent
  exact SectionName.struct.inj (hclassed.at (proper_struct name) hpointer hobject)

theorem setSection_eq {handle : ℕ} (hpointer : file.pointer (.struct name) = some handle) :
    file.setSection (.struct name) (.struct new) = file.setObject handle (.struct new) := by
  rw [LoadedFile.setSection, hpointer]

/-- The sections behind the pointers after one of them was replaced. -/
theorem struct?_setSection (hclassed : Classed file)
    (hcontent : file.struct? name = some content) (other : StructName) :
    (file.setSection (.struct name) (.struct new)).struct? other =
      if other = name then some new else file.struct? other := by
  obtain ⟨handle, hpointer, hobject⟩ := exists_handle hcontent
  rw [setSection_eq hpointer]
  split
  · next heq =>
      subst heq
      rw [LoadedFile.struct?_eq_some_iff, section_eq (by exact hpointer)]
      exact List.getElem?_set_self (List.getElem?_eq_some_iff.mp hobject).1
  · next hne =>
      have hother := pointer_ne_of_classed hclassed (proper_struct other)
        (proper_struct name) (fun h => hne (SectionName.struct.inj h)) hpointer
      rw [LoadedFile.struct?, section_setObject_of_ne hother]
      rfl

theorem Reached.setSection (hreached : Reached start file) (hname : name ∈ settingTables)
    (hcontent : file.struct? name = some content) (hnew : new.name = name) :
    Reached start (file.setSection (.struct name) (.struct new)) := by
  obtain ⟨handle, hpointer, hobject⟩ := exists_handle hcontent
  rw [setSection_eq hpointer]
  have hlt := (List.getElem?_eq_some_iff.mp hobject).1
  refine ⟨⟨hreached.others_eq, List.length_set.trans hreached.length_eq, ?_⟩, ?_⟩
  · intro other hother
    have hne : handle ≠ other := by
      rintro rfl
      exact hother name hname (hreached.pointer_eq ▸ hpointer)
    exact (List.getElem?_set_ne hne).trans (hreached.objects_eq other hother)
  · intro other found hproper hfound
    by_cases hsame : found = handle
    · subst hsame
      refine ⟨.struct new, List.getElem?_set_self hlt, ?_⟩
      have hold := hreached.classed.at hproper hfound hobject
      have hstruct := hreached.classed.at (proper_struct name) hpointer hobject
      rw [← hold, hstruct, Section.name, hnew]
    · obtain ⟨old, hold, holdName⟩ := hreached.classed other found hproper hfound
      exact ⟨old, (List.getElem?_set_ne (Ne.symm hsame)).trans hold, holdName⟩

theorem settings_setSection (hclassed : Classed file) (hcontent : file.struct? name = some content)
    (hname : name ∈ settingTables) :
    (file.setSection (.struct name) (.struct new)).settings =
      { file.settings with
        table := Function.update file.settings.table name (some (settingsOf name new)) } := by
  have hver : (file.setSection (.struct name) (.struct new)).struct? .ver = file.struct? .ver := by
    rw [struct?_setSection hclassed hcontent, if_neg]
    rintro rfl
    revert hname
    decide
  have hhybrid : (file.setSection (.struct name)
      (.struct new)).isHybridOrAbove = file.isHybridOrAbove := by
    rw [LoadedFile.isHybridOrAbove, hver, LoadedFile.isHybridOrAbove]
  refine congrArg₂ SettingsStore.mk hhybrid ?_
  funext other
  rw [struct?_setSection hclassed hcontent, Function.update_apply]
  split
  · next heq => rw [heq]; rfl
  · rfl

end

section

variable {start file : LoadedFile}

theorem table_settings (file : LoadedFile) (name : StructName) :
    file.settings.table name = (file.struct? name).map (settingsOf name) :=
  rfl

theorem readSetting_settings (file : LoadedFile) (setting : Setting)
    (expansion : Bool) (type player : ℕ) :
    file.settings.readSetting setting expansion type player =
      file.readSetting setting expansion type player := by
  rw [SettingsStore.readSetting, LoadedFile.readSetting, table_settings]
  cases file.struct? (setting.table expansion) with
  | none => rfl
  | some content =>
      rw [Option.map_some]
      cases hcheck : setting.checkRead expansion type player with
      | error fault => rfl
      | ok checked =>
          have hinside := (Setting.checkRead_eq_ok_iff.mp hcheck).inside
          have hvalue : (settingsOf (setting.table expansion) content).value
              (setting.item expansion type player) =
                wordAt (setting.width expansion) content.rawData _ :=
            if_pos hinside
          simp only [hvalue]
          rfl

section

variable (hreached : Reached start file)

include hreached

theorem writeSetting_settings (setting : Setting) (expansion : Bool) (type player value : ℕ) :
    file.settings.writeSetting setting expansion type player value =
      (file.writeSetting setting expansion type player value).map
        LoadedFile.settings := by
  rw [SettingsStore.writeSetting, LoadedFile.writeSetting, table_settings]
  cases hcontent : file.struct? (setting.table expansion) with
  | none => rfl
  | some content =>
      rw [Option.map_some]
      cases hcheck : setting.checkWrite expansion type player with
      | error fault => rfl
      | ok checked =>
          have hinside := (Setting.checkWrite_eq_ok_iff.mp hcheck).inside
          have hword : settingsOf (setting.table expansion)
              (setWord content (setting.width expansion) _ _) =
                SettingsTable.set _ _ (_ % 256 ^ setting.width expansion) :=
            settingsOf_setWord (name_of_struct? hreached.classed hcontent)
              hinside (setting.encode value)
          cases hvalid : content.dataValid with
          | false =>
              have hlive : (settingsOf (setting.table expansion) content).live = false := hvalid
              simp only [hlive, hvalid]
              rfl
          | true =>
              have hlive : (settingsOf (setting.table expansion) content).live = true := hvalid
              simp only [hlive, hvalid]
              refine congrArg Except.ok (Eq.trans ?_
                (settings_setSection hreached.classed hcontent (table_mem _ _)).symm)
              rw [hword]

theorem reached_writeSetting {setting : Setting} {expansion : Bool} {type player value : ℕ}
    {after : LoadedFile}
    (hwrite : file.writeSetting setting expansion type player value = .ok after) :
    Reached start after := by
  rw [LoadedFile.writeSetting] at hwrite
  split at hwrite
  · cases hwrite
  · next content hcontent =>
      rw [Fault.bind_eq_ok_iff] at hwrite
      obtain ⟨-, -, hwrite⟩ := hwrite
      split at hwrite
      · have hname := name_of_struct? hreached.classed hcontent
        cases hwrite
        exact hreached.setSection (table_mem _ _) hcontent hname
      · cases hwrite

theorem assignDefault_settings (group : SettingGroup) (expansion : Bool) :
    file.settings.assignDefault group expansion =
      (file.assignDefault group expansion).map LoadedFile.settings := by
  rw [SettingsStore.assignDefault, LoadedFile.assignDefault, table_settings]
  cases hcontent : file.struct? (group.table expansion) with
  | none => rfl
  | some content =>
      exact congrArg Except.ok (settings_setSection hreached.classed hcontent
        (table_mem group expansion)).symm

theorem reached_assignDefault {group : SettingGroup} {expansion : Bool} {after : LoadedFile}
    (hassign : file.assignDefault group expansion = .ok after) : Reached start after := by
  rw [LoadedFile.assignDefault] at hassign
  split at hassign
  · cases hassign
  · next content hcontent =>
      cases hassign
      exact hreached.setSection (table_mem group expansion) hcontent rfl

end

/-- The bytes of the sections behave as the table of numbers does. -/
theorem simulates_settings (start : LoadedFile) :
    Properties.Simulates LoadedFile.settingsAccess SettingsStore.access
      LoadedFile.settings (Reached start) where
  isHybridOrAbove := fun _ _ => rfl
  available := fun _ _ _ _ => Option.isSome_map
  read := fun state setting expansion type player _ =>
    readSetting_settings state setting expansion type player
  write := fun _ setting expansion type player value hreached =>
    writeSetting_settings hreached setting expansion type player value
  good_write := fun hreached hwrite => reached_writeSetting hreached hwrite
  assignDefault := fun _ group expansion hreached =>
    assignDefault_settings hreached group expansion
  good_assignDefault := fun hreached hassign =>
    reached_assignDefault hreached hassign

end

end Chkdraft.Scenario
