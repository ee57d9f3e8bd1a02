import Chkdraft.Scenario.Password
import Chkdraft.Scenario.SettingsStore

/-!
# What a setter of `Properties` changes

A setter that returns changes one setting of one type and player, and no getter
of another one notices.  Whether its own getter sees the new value depends on
the policy both are called with.
-/

namespace Chkdraft.Scenario

open Binary Sections

variable {text : String} {hazard : Hazard} {table : SettingsTable}
  {useExp : UseExpSection}

/-- What a getter gives behind a setter with the same policy, when every
section is there. -/
def Properties.readBack {S : Type} (access : SettingsAccess S) (state : S)
    (setting : Setting) (type player value : ℕ) (useExp : UseExpSection) :
    Except (Fault String) ℕ :=
  if setting.group = .unitBuildability then .ok (setting.kept value)
  else
    match useExp with
    | .yes => access.read state setting false type player
    | .auto => (access.isHybridOrAbove state).bind fun hybridOrAbove =>
        if hybridOrAbove = false ∧ setting.index.total false ≤ type then
          .error (.thrown (Setting.outOfRange setting.index.label type (setting.readLabel false)))
        else
          .ok (setting.kept value)
    | .no | .both | .yesIfAvailable | .noIfOrigAvailable =>
        .ok (setting.kept value)

namespace SettingsStore

variable {store after : SettingsStore} {setting other : Setting}
  {expansion : Bool} {type player value otherType otherPlayer : ℕ}

theorem writeSetting_eq_ok
    (hwrite : store.writeSetting setting expansion type player value = .ok after) :
    setting.InRange expansion type player ∧
      ∃ table, store.table (setting.table expansion) = some table ∧
        table.live = true ∧ after.hybridOrAbove = store.hybridOrAbove ∧
        after.table = Function.update store.table (setting.table expansion)
          (some (table.set (setting.item expansion type player)
            (setting.encode value % 256 ^ setting.width expansion))) := by
  rw [writeSetting] at hwrite
  split at hwrite
  · cases hwrite
  · next table htable =>
      rw [Fault.bind_eq_ok_iff] at hwrite
      obtain ⟨checked, hcheck, hwrite⟩ := hwrite
      split at hwrite
      · next hlive =>
          cases hwrite
          exact ⟨Setting.checkWrite_eq_ok_iff.mp hcheck, table, htable, hlive,
            rfl, rfl⟩
      · cases hwrite

/-- A setter throws before it changes anything, at an index its section does
not have. -/
theorem writeSetting_eq_thrown (hwrite : store.writeSetting setting expansion type player value =
      .error (.thrown text)) : ¬ setting.InRange expansion type player := by
  intro hrange
  have hcheck := Setting.checkWrite_eq_ok_iff.mpr hrange
  rw [writeSetting] at hwrite
  split at hwrite
  · cases hwrite
  · simp only [hcheck] at hwrite
    change (if _ then _ else _) = _ at hwrite
    split at hwrite <;> cases hwrite

/-- The player that two setters do not check. -/
def UncheckedPlayer (setting : Setting) (player : ℕ) : Prop :=
  setting = .playerUsesDefaultTechSettings ∧ totalPlayers ≤ player

theorem writeSetting_eq_hazard
    (hwrite : store.writeSetting setting expansion type player value = .error (.hazard hazard)) :
    UncheckedPlayer setting player ∨ ∀ table, store.table (setting.table expansion) = some table →
        table.live = false := by
  rw [writeSetting] at hwrite
  split at hwrite
  · next hnone =>
      right
      intro table htable
      rw [hnone] at htable
      cases htable
  · next table htable =>
      cases hcheck : setting.checkWrite expansion type player with
      | ok checked =>
          right
          intro found hfound
          rw [htable] at hfound
          cases hfound
          simp only [hcheck] at hwrite
          change (if _ then _ else _) = _ at hwrite
          split at hwrite
          · cases hwrite
          · next hdead => exact Bool.eq_false_of_not_eq_true hdead
      | error fault =>
          left
          simp only [hcheck] at hwrite
          change Except.error fault = _ at hwrite
          cases hwrite
          rw [Setting.checkWrite] at hcheck
          split at hcheck
          · split at hcheck
            · next hsetting =>
                split at hcheck
                · next hle => exact ⟨hsetting, hle⟩
                · cases hcheck
            · rw [Setting.checkPlayer] at hcheck
              split at hcheck <;> cases hcheck
          · cases hcheck

theorem readSetting_eq (htable : store.table (setting.table expansion) = some table)
    (hrange : setting.InRange expansion type player) :
    store.readSetting setting expansion type player =
      if table.live then
        .ok (setting.decode (table.value (setting.item expansion type player)))
      else .error (.hazard .undefinedBehavior) := by
  have hcheck := Setting.checkRead_eq_ok_iff.mpr hrange
  rw [readSetting, htable]
  simp only [hcheck]
  rfl

/-- Reads outside of the ranges depend on the pointer to the section only. -/
theorem readSetting_of_not_inRange (htable : store.table (setting.table expansion) = some table)
    (hrange : ¬ setting.InRange expansion type player) :
    store.readSetting setting expansion type player =
      (setting.checkRead expansion type player).map fun _ => 0 := by
  rw [readSetting, htable]
  cases hcheck : setting.checkRead expansion type player with
  | ok checked => exact absurd (Setting.checkRead_eq_ok_iff.mp hcheck) hrange
  | error fault => rfl

section

variable (hwrite : store.writeSetting setting expansion type player value = .ok after)

include hwrite

theorem readSetting_write_self : after.readSetting setting expansion type player =
      .ok (setting.kept value) := by
  obtain ⟨hrange, table, -, hlive, -, hafter⟩ := writeSetting_eq_ok hwrite
  have htable : after.table (setting.table expansion) = some _ :=
    (congrFun hafter _).trans (Function.update_self _ _ _)
  rw [readSetting_eq htable hrange, SettingsTable.live_set, if_pos hlive,
    SettingsTable.value_set_self, Setting.kept, Setting.width_eq]

theorem readSetting_write_of_ne {otherExpansion : Bool}
    (hne : setting.table expansion = other.table otherExpansion →
      ¬ Setting.SameEntry setting other type otherType player otherPlayer) :
    after.readSetting other otherExpansion otherType otherPlayer =
      store.readSetting other otherExpansion otherType otherPlayer := by
  obtain ⟨hrange, table, htable, -, -, hafter⟩ := writeSetting_eq_ok hwrite
  by_cases hsame : other.table otherExpansion = setting.table expansion
  · rw [← hsame] at htable hafter
    have hset : after.table (other.table otherExpansion) = some _ :=
      (congrFun hafter _).trans (Function.update_self _ _ _)
    by_cases hother : other.InRange otherExpansion otherType otherPlayer
    · have hitem : other.item otherExpansion otherType otherPlayer ≠
          setting.item expansion type player := by
        intro hitem
        exact hne hsame.symm (Setting.sameEntry_of_item_eq hrange hother hsame.symm hitem.symm)
      rw [readSetting_eq hset hother, readSetting_eq htable hother,
        SettingsTable.live_set, SettingsTable.value_set_of_ne _ _ _ hitem]
    · rw [readSetting_of_not_inRange hset hother, readSetting_of_not_inRange htable hother]
  · rw [readSetting, readSetting, hafter, Function.update_of_ne hsame]

/-- A setter leaves the sections usable or not as they were. -/
theorem live_write (name : StructName) : (after.table name).map SettingsTable.live =
      (store.table name).map SettingsTable.live := by
  obtain ⟨-, table, htable, -, -, hafter⟩ := writeSetting_eq_ok hwrite
  rw [hafter]
  by_cases hname : name = setting.table expansion
  · rw [hname, htable, Function.update_self, Option.map_some, Option.map_some,
      SettingsTable.live_set]
  · rw [Function.update_of_ne hname]

theorem isSome_write (name : StructName) :
    (after.table name).isSome = (store.table name).isSome := by
  have hlive := congrArg Option.isSome (live_write hwrite name)
  rwa [Option.isSome_map, Option.isSome_map] at hlive

end

theorem table_ne (hgroup : setting.group ≠ .unitBuildability)
    {expansion other : Bool} (hne : expansion ≠ other) :
    setting.table expansion ≠ setting.table other := by
  rw [Setting.table, Setting.table]
  cases hsetting : setting.group <;> cases expansion <;> cases other <;>
    first
      | exact absurd rfl hne
      | exact absurd hsetting hgroup
      | decide

/-- Behind the writes of a setter the setting is the new value where it was
written, and everything else is as it was. -/
theorem readSetting_writeAll {sections : List Bool}
    (hset : Properties.writeAll access setting type player value store sections = (after, .ok ())) :
    after.hybridOrAbove = store.hybridOrAbove ∧
      (∀ name, (after.table name).isSome = (store.table name).isSome) ∧
      (∀ expansion ∈ sections, setting.InRange expansion type player) ∧
      (setting.group ≠ .unitBuildability → ∀ expansion,
        after.readSetting setting expansion type player =
          if expansion ∈ sections then .ok (setting.kept value)
          else store.readSetting setting expansion type player) ∧
      ∀ other otherExpansion otherType otherPlayer,
        ¬ Setting.SameEntry setting other type otherType player otherPlayer →
        after.readSetting other otherExpansion otherType otherPlayer =
          store.readSetting other otherExpansion otherType otherPlayer := by
  induction sections generalizing store with
  | nil =>
      cases hset
      exact ⟨rfl, fun _ => rfl, fun _ hmem => absurd hmem List.not_mem_nil,
        fun _ _ => (if_neg List.not_mem_nil).symm, fun _ _ _ _ _ => rfl⟩
  | cons first rest ih =>
      rw [Properties.writeAll] at hset
      cases hwrite : store.writeSetting setting first type player value with
      | error fault =>
          simp only [access, hwrite] at hset
          cases hset
      | ok middle =>
          simp only [access, hwrite] at hset
          obtain ⟨hhybrid, hthere, hrange, hread, hother⟩ := ih hset
          refine ⟨hhybrid.trans (writeSetting_eq_ok hwrite).2.choose_spec.2.2.1,
            fun name => (hthere name).trans (isSome_write hwrite name),
            List.forall_mem_cons.mpr ⟨(writeSetting_eq_ok hwrite).1, hrange⟩,
            ?_, ?_⟩
          · intro hgroup expansion
            rw [hread hgroup]
            by_cases hrest : expansion ∈ rest
            · rw [if_pos hrest, if_pos (List.mem_cons_of_mem _ hrest)]
            · rw [if_neg hrest]
              by_cases hfirst : expansion = first
              · rw [hfirst, if_pos List.mem_cons_self, readSetting_write_self hwrite]
              · rw [if_neg (by simp [hfirst, hrest])]
                refine readSetting_write_of_ne hwrite fun htable => ?_
                exact absurd htable (table_ne hgroup (Ne.symm hfirst))
          · intro other otherExpansion otherType otherPlayer hne
            rw [hother other otherExpansion otherType otherPlayer hne]
            exact readSetting_write_of_ne hwrite fun _ => hne

/-- A setter that throws has changed nothing: the expansion has every index
of the original. -/
theorem setSetting_of_thrown (hset : Properties.setSetting access store setting type player value
      useExp = (after, .error (.thrown text))) : after = store := by
  have hone : ∀ expansion, Properties.writeAll access setting type player value
      store [expansion] = (after, .error (.thrown text)) → after = store := by
    intro expansion hwrite
    rw [Properties.writeAll] at hwrite
    split at hwrite
    · cases hwrite
    · cases hwrite
      rfl
  have hboth : Properties.writeAll access setting type player value store
      [false, true] = (after, .error (.thrown text)) → after = store := by
    intro hwrite
    rw [Properties.writeAll] at hwrite
    split at hwrite
    · next middle hfirst =>
        have hrange := (writeSetting_eq_ok hfirst).1.expansion
        rw [Properties.writeAll] at hwrite
        split at hwrite
        · cases hwrite
        · next fault hsecond =>
            cases hwrite
            exact absurd hrange (writeSetting_eq_thrown hsecond)
    · cases hwrite
      rfl
  rw [Properties.setSetting] at hset
  split at hset
  · exact hone false hset
  · cases useExp with
    | auto =>
        rw [Properties.setterSections] at hset
        split at hset
        · exact hboth hset
        · split at hset <;> split at hset
          exacts [hboth hset, hone _ hset, hone _ hset, by cases hset]
    | both => exact hboth hset
    | yes | no | yesIfAvailable | noIfOrigAvailable => exact hone _ hset

/-- A setter is undefined only where a section cannot be used, or for a player
it does not check. -/
theorem setSetting_of_hazard (hset : Properties.setSetting access store setting type player value
      useExp = (after, .error (.hazard hazard))) :
    UncheckedPlayer setting player ∨ ∃ expansion, ∀ table,
      store.table (setting.table expansion) = some table → table.live = false := by
  rw [Properties.setSetting] at hset
  generalize (if setting.group = .unitBuildability then [false]
    else Properties.setterSections access store setting type useExp) = sections at hset
  induction sections generalizing store with
  | nil => cases hset
  | cons first rest ih =>
      rw [Properties.writeAll] at hset
      split at hset
      · next middle hfirst =>
          refine (ih hset).imp_right ?_
          rintro ⟨expansion, hdead⟩
          refine ⟨expansion, fun table htable => ?_⟩
          have hlive := live_write hfirst (setting.table expansion)
          rw [htable, Option.map_some] at hlive
          obtain ⟨other, hother, heq⟩ := Option.map_eq_some_iff.mp hlive
          exact heq.symm.trans (hdead other hother)
      · next fault hfirst =>
          cases hset
          exact (writeSetting_eq_hazard hfirst).imp_right fun hdead => ⟨first, hdead⟩

theorem useExpansion_congr (hhybrid : after.hybridOrAbove = store.hybridOrAbove)
    (hthere : ∀ name, (after.table name).isSome = (store.table name).isSome)
    (group : SettingGroup) (useExp : UseExpSection) :
    Properties.useExpansion access after group useExp =
      Properties.useExpansion access store group useExp := by
  cases useExp <;> simp only [Properties.useExpansion, access, hhybrid, hthere]

/-- No getter of another setting, type or player notices a setter. -/
theorem getSetting_setSetting_of_ne
    (hset : Properties.setSetting access store setting type player value useExp = (after, .ok ()))
    (hne : ¬ Setting.SameEntry setting other type otherType player otherPlayer)
    (otherExp : UseExpSection) :
    Properties.getSetting access after other otherType otherPlayer otherExp =
      Properties.getSetting access store other otherType otherPlayer
        otherExp := by
  obtain ⟨hhybrid, hthere, -, -, hother⟩ := readSetting_writeAll hset
  have hread : ∀ otherExpansion, access.read after other otherExpansion otherType otherPlayer =
        access.read store other otherExpansion otherType otherPlayer :=
    fun otherExpansion => hother other otherExpansion _ _ hne
  simp only [Properties.getSetting, useExpansion_congr hhybrid hthere, hread]

theorem readSetting_of_total_le (htable : store.table (setting.table expansion) = some table)
    (hle : setting.index.total expansion ≤ type) :
    store.readSetting setting expansion type player =
      .error (.thrown (Setting.outOfRange setting.index.label type
        (setting.readLabel expansion))) := by
  have hnot : ¬ type < setting.index.total expansion := Nat.not_lt.mpr hle
  rw [readSetting_of_not_inRange htable fun hrange => hnot hrange.1, Setting.checkRead, if_neg hnot]
  rfl

section

variable (hall : ∀ (group : SettingGroup) (expansion : Bool),
  (store.table (group.table expansion)).isSome = true)

include hall

/-- With every section there, `Auto` writes to the expansion always and to the
original where it has the type. -/
theorem mem_setterSections_auto (hrange : ∀ expansion ∈
      Properties.setterSections access store setting type .auto,
        setting.InRange expansion type player) :
    true ∈ Properties.setterSections access store setting type .auto ∧
      (false ∈ Properties.setterSections access store setting type .auto ↔
        type < setting.index.total false) := by
  have hpresent : ∀ group expansion, access.available store group expansion = true := hall
  simp only [Properties.setterSections, hpresent, and_true, if_true] at hrange ⊢
  split at hrange
  · next hunit =>
      rw [if_pos hunit]
      exact ⟨by decide, iff_of_true (by decide) (hrange false (by decide)).1⟩
  · next hunit =>
      rw [if_neg hunit]
      split
      · next hlt => exact ⟨by decide, iff_of_true (by decide) hlt⟩
      · next hge => exact ⟨by decide, iff_of_false (by decide) hge⟩

theorem getSetting_setSetting
    (hset : Properties.setSetting access store setting type player value useExp = (after, .ok ())) :
    Properties.getSetting access after setting type player useExp =
      Properties.readBack access store setting type player value useExp := by
  obtain ⟨hhybrid, hthere, hrange, hread, -⟩ := readSetting_writeAll hset
  have hpresent : ∀ group expansion, access.available store group expansion = true := hall
  rw [Properties.setSetting] at hset
  unfold Properties.getSetting Properties.readBack
  by_cases hgroup : setting.group = .unitBuildability
  · rw [if_pos hgroup, Properties.writeAll] at hset
    rw [if_pos hgroup, if_pos hgroup]
    cases hwrite : store.writeSetting setting false type player value with
    | error fault =>
        simp only [access, hwrite] at hset
        cases hset
    | ok middle =>
        simp only [access, hwrite, Properties.writeAll] at hset
        cases hset
        exact readSetting_write_self hwrite
  · rw [if_neg hgroup] at hset
    rw [if_neg hgroup, if_neg hgroup, useExpansion_congr hhybrid hthere]
    have hafter : ∀ expansion, access.read after setting expansion type player =
          if expansion ∈ Properties.setterSections access store setting type useExp then
            .ok (setting.kept value)
          else store.readSetting setting expansion type player := by
      intro expansion
      have hsections := hread hgroup expansion
      rw [if_neg hgroup] at hsections
      exact hsections
    simp only [hafter]
    cases useExp with
    | auto =>
        rw [if_neg hgroup] at hrange
        obtain ⟨hexpansion, horiginal⟩ := mem_setterSections_auto hall hrange
        rw [Properties.useExpansion]
        cases hversion : store.hybridOrAbove with
        | error fault => simp only [access, hversion]; rfl
        | ok hybridOrAbove =>
            cases hybridOrAbove with
            | true =>
                simp only [access, hversion, Except.bind, Bool.true_eq_false, false_and, if_false]
                exact if_pos hexpansion
            | false =>
                simp only [access, hversion, Except.bind, true_and]
                by_cases hlt : type < setting.index.total false
                · rw [if_neg (Nat.not_le.mpr hlt)]
                  exact if_pos (horiginal.mpr hlt)
                · rw [if_pos (Nat.not_lt.mp hlt)]
                  obtain ⟨table, htable⟩ := Option.isSome_iff_exists.mp (hall setting.group false)
                  refine (if_neg fun h => hlt (horiginal.mp h)).trans ?_
                  exact readSetting_of_total_le htable (Nat.not_lt.mp hlt)
    | yes | no | both | yesIfAvailable | noIfOrigAvailable =>
        simp only [Properties.useExpansion, Properties.setterSections, hpresent,
          Bool.not_true, Except.bind]
        rfl

end

end SettingsStore

section

variable {bytes : List UInt8} {file : LoadedFile}

theorem defaultFor_setting (group : SettingGroup) (expansion : Bool) (version : ℕ) :
    defaultFor (plainDefaults version) (.struct (group.table expansion)) ≠
      none := by
  cases group <;> cases expansion <;> exact Option.some_ne_none _

theorem ReadsTo.reached (hreads : ReadsTo bytes file) : Reached file file := by
  obtain ⟨state, selected, hloaded⟩ := hreads.exists_loaded
  exact Reached.refl (hloaded.kept.classed hloaded.classed)

theorem ReadsTo.struct?_isSome (hreads : ReadsTo bytes file)
    (group : SettingGroup) (expansion : Bool) :
    (file.struct? (group.table expansion)).isSome = true := by
  obtain ⟨state, selected, hloaded⟩ := hreads.exists_loaded
  have hthere : selected.pointer (.struct (group.table expansion)) ≠ none := by
    have hparsed := LoadState.pointersInside_parsedFile hloaded.consistent.namesMatch
    rw [pointer_ne_none_iff hloaded.defaulted.pointersInside]
    obtain ⟨ver, -, rfl⟩ := hloaded.exists_ver
    rw [section_setMissing hparsed]
    intro hnone
    exact defaultFor_setting group expansion _ (Option.or_eq_none_iff.mp hnone).2
  rw [← hloaded.kept.pointer_eq] at hthere
  obtain ⟨handle, hpointer⟩ := Option.ne_none_iff_exists'.mp hthere
  obtain ⟨content, hcontent, hname⟩ := hloaded.kept.classed hloaded.classed _
    handle (proper_struct _) hpointer
  obtain ⟨inner, rfl, -⟩ := struct_of_name hname
  rw [LoadedFile.struct?, section_eq hpointer, hcontent]
  rfl

/-- Any run of getters, setters and resets on a loaded map answers as on the
table of its settings, leaves the settings of the table, and touches nothing but
the sections of settings. -/
theorem run_of_readsTo (hreads : ReadsTo bytes file) (calls : List Properties.Call) :
    Properties.run SettingsStore.access file.settings calls =
        ((Properties.run LoadedFile.settingsAccess file calls).1,
          (Properties.run LoadedFile.settingsAccess file calls).2.settings) ∧
      KeepsOthers file (Properties.run LoadedFile.settingsAccess file calls).2 := by
  obtain ⟨hrun, hreached⟩ := (simulates_settings file).run_eq hreads.reached calls
  exact ⟨hrun, hreached.toKeepsOthers⟩

/-- Hitpoints that are set are lost again when the units are reset. -/
theorem run_of_passwordFile : ∃ file, ReadsTo passwordFile file ∧
    let calls : List Properties.Call :=
      [.set .unitHitpoints 0 0 10240 .no, .setToDefault .units .both, .get .unitHitpoints 0 0 .auto]
    let result := Properties.run LoadedFile.settingsAccess file calls
    Properties.run SettingsStore.access file.settings calls = (result.1, result.2.settings) ∧
      KeepsOthers file result.2 := by
  obtain ⟨file, hreads, -⟩ := exists_passwordFile
  exact ⟨file, hreads, run_of_readsTo hreads _⟩

/-- What is promised of a setter.  If it returns, its getter with the same
policy answers as `readBack` says and all other getters answer as before; if it
throws, no setting has changed; undefined is only the use of a section whose
pointer `data` was lost when it was loaded, and a player that is not checked. -/
def SetterMeets (file : LoadedFile) (setting : Setting)
    (type player value : ℕ) (useExp : UseExpSection)
    (after : LoadedFile) : Except (Fault String) Unit → Prop
  | .ok () =>
      Properties.getSetting LoadedFile.settingsAccess after setting type player useExp =
        Properties.readBack LoadedFile.settingsAccess file setting type player value useExp ∧
        ∀ other otherType otherPlayer otherExp,
          ¬ setting.SameEntry other type otherType player otherPlayer →
          Properties.getSetting LoadedFile.settingsAccess after other otherType
              otherPlayer otherExp =
            Properties.getSetting LoadedFile.settingsAccess file other
              otherType otherPlayer otherExp
  | .error (.thrown _) => after.settings = file.settings
  | .error (.hazard _) =>
      SettingsStore.UncheckedPlayer setting player ∨ ∃ expansion content,
          file.struct? (setting.table expansion) = some content ∧ content.dataValid = false

/-- On a loaded map the getter gives the value that a setter with the same
policy set, except with `Yes`, which reads the original section, and with `Auto`
for types an old map's original section does not have. -/
theorem setterMeets_of_readsTo (hreads : ReadsTo bytes file)
    (setting : Setting) (type player value : ℕ) (useExp : UseExpSection) :
    SetterMeets file setting type player value useExp
      (Properties.setSetting LoadedFile.settingsAccess file setting type player value useExp).1
      (Properties.setSetting LoadedFile.settingsAccess file setting type player
        value useExp).2 := by
  have hsim := simulates_settings file
  have hall : ∀ (group : SettingGroup) (expansion : Bool),
      (file.settings.table (group.table expansion)).isSome = true := by
    intro group expansion
    rw [table_settings, Option.isSome_map]
    exact hreads.struct?_isSome group expansion
  obtain ⟨hstore, hafter⟩ := hsim.setSetting_eq hreads.reached setting type player value useExp
  generalize Properties.setSetting LoadedFile.settingsAccess file setting type
    player value useExp = result at hstore hafter
  obtain ⟨after, outcome⟩ := result
  cases outcome with
  | ok done =>
      refine ⟨?_, fun other otherType otherPlayer otherExp hne => ?_⟩
      · rw [← hsim.getSetting_eq hafter, SettingsStore.getSetting_setSetting hall hstore]
        simp only [Properties.readBack, hsim.read file _ _ _ _ hreads.reached,
          hsim.isHybridOrAbove file hreads.reached]
      · rw [← hsim.getSetting_eq hafter, ← hsim.getSetting_eq hreads.reached]
        exact SettingsStore.getSetting_setSetting_of_ne hstore hne otherExp
  | error fault =>
      cases fault with
      | thrown text => exact SettingsStore.setSetting_of_thrown hstore
      | hazard hazard =>
          refine (SettingsStore.setSetting_of_hazard hstore).imp_right ?_
          rintro ⟨expansion, hdead⟩
          obtain ⟨content, hcontent⟩ := Option.isSome_iff_exists.mp
            (hreads.struct?_isSome setting.group expansion)
          refine ⟨expansion, content, hcontent, ?_⟩
          have htable : file.settings.table (setting.table expansion) =
              some (settingsOf (setting.table expansion) content) := by
            rw [table_settings, Setting.table, hcontent, Option.map_some]
          exact hdead _ htable

theorem setterMeets_passwordFile : ∃ file, ReadsTo passwordFile file ∧
    let result := Properties.setSetting LoadedFile.settingsAccess file .maxUpgradeLevel 3 7 258 .both
    SetterMeets file .maxUpgradeLevel 3 7 258 .both result.1 result.2 := by
  obtain ⟨file, hreads, -⟩ := exists_passwordFile
  exact ⟨file, hreads, setterMeets_of_readsTo hreads .maxUpgradeLevel 3 7 258 .both⟩

def Abandoned (name : StructName) (file : LoadedFile) : Prop :=
  file.struct? name = some (assignedDefault name)

theorem Abandoned.setSection {name other : StructName}
    {content new : StructSection} (habandoned : Abandoned name file)
    (hclassed : Classed file) (hcontent : file.struct? other = some content)
    (hnew : other = name → new = assignedDefault name) :
    Abandoned name (file.setSection (.struct other) (.struct new)) := by
  rw [Abandoned, struct?_setSection hclassed hcontent]
  split
  · next heq => rw [hnew heq.symm]
  · exact habandoned

/-- No setter reaches the section again, and another reset leaves it as it
is. -/
theorem simulates_abandoned (start : LoadedFile) (name : StructName) :
    Properties.Simulates LoadedFile.settingsAccess LoadedFile.settingsAccess
      id fun file => Reached start file ∧ Abandoned name file where
  isHybridOrAbove := fun _ _ => rfl
  available := fun _ _ _ _ => rfl
  read := fun _ _ _ _ _ _ => rfl
  write := fun _ _ _ _ _ _ _ => (congrFun Except.map_id _).symm
  good_write := by
    intro file setting expansion type player value after hgood hwrite
    refine ⟨reached_writeSetting hgood.1 hwrite, ?_⟩
    simp only [LoadedFile.settingsAccess, LoadedFile.writeSetting] at hwrite
    split at hwrite
    · cases hwrite
    · next content hcontent =>
        rw [Fault.bind_eq_ok_iff] at hwrite
        obtain ⟨-, -, hwrite⟩ := hwrite
        split at hwrite
        · next hvalid =>
            cases hwrite
            refine hgood.2.setSection hgood.1.classed hcontent fun heq => ?_
            have hsame := hgood.2
            rw [Abandoned, ← heq, hcontent] at hsame
            rw [Option.some.inj hsame] at hvalid
            cases hvalid
        · cases hwrite
  assignDefault := fun _ _ _ _ => (congrFun Except.map_id _).symm
  good_assignDefault := by
    intro file group expansion after hgood hassign
    refine ⟨reached_assignDefault hgood.1 hassign, ?_⟩
    simp only [LoadedFile.settingsAccess, LoadedFile.assignDefault] at hassign
    split at hassign
    · cases hassign
    · next content hcontent =>
        cases hassign
        exact hgood.2.setSection hgood.1.classed hcontent fun heq => by
          rw [heq]

/-- Resetting sections that are there returns, and abandons them. -/
theorem assignAll_eq {start : LoadedFile} (hreached : Reached start file)
    (hall : ∀ (group : SettingGroup) (expansion : Bool),
      (file.struct? (group.table expansion)).isSome = true)
    (sections : List (SettingGroup × Bool)) :
    (Properties.assignAll LoadedFile.settingsAccess file sections).2 = .ok () ∧
      ∀ group expansion, (group, expansion) ∈ sections → Abandoned (group.table expansion)
          (Properties.assignAll LoadedFile.settingsAccess file sections).1 := by
  induction sections generalizing file with
  | nil => exact ⟨rfl, fun _ _ hmem => absurd hmem List.not_mem_nil⟩
  | cons first rest ih =>
      obtain ⟨group, expansion⟩ := first
      obtain ⟨content, hcontent⟩ := Option.isSome_iff_exists.mp (hall group expansion)
      have hassign : file.assignDefault group expansion =
          .ok (file.setSection (.struct (group.table expansion))
            (.struct (assignedDefault (group.table expansion)))) := by
        rw [LoadedFile.assignDefault, hcontent]
      generalize hnext : file.setSection (.struct (group.table expansion))
        (.struct (assignedDefault (group.table expansion))) = next at hassign
      have hnextReached := reached_assignDefault hreached hassign
      have hfound : ∀ other, next.struct? other =
          if other = group.table expansion then
            some (assignedDefault (group.table expansion))
          else file.struct? other := by
        intro other
        rw [← hnext, struct?_setSection hreached.classed hcontent]
      have hnextAll : ∀ (other : SettingGroup) (otherExpansion : Bool),
          (next.struct? (other.table otherExpansion)).isSome = true := by
        intro other otherExpansion
        rw [hfound]
        split
        · rfl
        · exact hall other otherExpansion
      obtain ⟨houtcome, hrest⟩ := ih hnextReached hnextAll
      simp only [Properties.assignAll, LoadedFile.settingsAccess, hassign]
      refine ⟨houtcome, fun other otherExpansion hmem => ?_⟩
      rcases List.mem_cons.mp hmem with heq | hmem
      · cases heq
        have habandoned : Abandoned (group.table expansion) next := by
          rw [Abandoned, hfound, if_pos rfl]
        exact ((simulates_abandoned start _).assignAll_eq ⟨hnextReached, habandoned⟩ rest).2.2
      · exact hrest other otherExpansion hmem

/-- `setUnitsToDefault` and its siblings return on every loaded map, and leave
sections behind that are saved as their defaults, whatever is called later, and
that no getter or setter can ever use again. -/
theorem unusable_of_setToDefault (hreads : ReadsTo bytes file)
    (which : Properties.Defaults) (useExp : UseExpSection)
    (calls : List Properties.Call) :
    (Properties.setToDefault LoadedFile.settingsAccess file which useExp).2 = .ok () ∧
      ∀ group expansion, (group, expansion) ∈ Properties.defaultSections
          LoadedFile.settingsAccess file useExp which →
        ∀ after, (Properties.run LoadedFile.settingsAccess
          (Properties.setToDefault LoadedFile.settingsAccess file which useExp).1 calls).2 = after →
        (after.struct? (group.table expansion)).map StructSection.write =
            some (defaultSection (group.table expansion)).write ∧
          ∀ (setting : Setting) (type player : ℕ), setting.group = group →
            setting.InRange expansion type player →
            after.readSetting setting expansion type player = .error (.hazard .undefinedBehavior) ∧
              ∀ value, after.writeSetting setting expansion type player value =
                .error (.hazard .undefinedBehavior) := by
  obtain ⟨houtcome, hsections⟩ := assignAll_eq hreads.reached
    hreads.struct?_isSome (Properties.defaultSections LoadedFile.settingsAccess file useExp which)
  refine ⟨houtcome, ?_⟩
  rintro group expansion hmem after rfl
  have hreached := ((simulates_settings file).setToDefault_eq hreads.reached which useExp).2
  have habandoned := ((simulates_abandoned file _).run_eq
    ⟨hreached, hsections group expansion hmem⟩ calls).2.2
  generalize (Properties.run LoadedFile.settingsAccess
    (Properties.setToDefault LoadedFile.settingsAccess file which useExp).1
      calls).2 = after at habandoned ⊢
  refine ⟨by rw [habandoned]; rfl, ?_⟩
  rintro setting type player rfl hrange
  have hfound : after.struct? (setting.table expansion) =
      some (assignedDefault (setting.table expansion)) := habandoned
  have hread := Setting.checkRead_eq_ok_iff.mpr hrange
  have hwrite := Setting.checkWrite_eq_ok_iff.mpr hrange
  constructor
  · rw [LoadedFile.readSetting, hfound]
    simp only [hread]
    rfl
  · intro value
    rw [LoadedFile.writeSetting, hfound]
    simp only [hwrite]
    rfl

/-- When the techs are reset and a price is set and read, both calls use a pointer
that dangles. -/
theorem unusable_of_passwordFile : ∃ file, ReadsTo passwordFile file ∧
    let reset := Properties.setToDefault LoadedFile.settingsAccess file .techs .both
    reset.2 = .ok () ∧ ∀ after, (Properties.run LoadedFile.settingsAccess reset.1
        [.set .techGasCost 3 0 150 .no, .get .techGasCost 3 0 .no]).2 = after →
      (after.struct? .tecs).map StructSection.write = some (defaultSection .tecs).write ∧
        after.readSetting .techGasCost false 3 0 = .error (.hazard .undefinedBehavior) ∧
        ∀ value, after.writeSetting .techGasCost false 3 0 value =
          .error (.hazard .undefinedBehavior) := by
  obtain ⟨file, hreads, -⟩ := exists_passwordFile
  obtain ⟨houtcome, hlost⟩ := unusable_of_setToDefault hreads .techs .both
    [.set .techGasCost 3 0 150 .no, .get .techGasCost 3 0 .no]
  refine ⟨file, hreads, houtcome, fun after hafter => ?_⟩
  obtain ⟨hwritten, hunusable⟩ := hlost .techCosts false List.mem_cons_self after hafter
  exact ⟨hwritten, hunusable .techGasCost 3 0 rfl ⟨by decide, fun _ => by decide⟩⟩

end

end Chkdraft.Scenario
