import Chkdraft.Scenario.Properties
import Chkdraft.Scenario.RescopeStrings

/-!
# Changing names

The setters of `Strings` store a text in one of the two tables and lead a name
to it.  The table may grow and ids that nobody refers to are used again; still
no other name and no text of a trigger changes, also if unused strings are
deleted in between.
-/

namespace Chkdraft.Scenario

open Chk Scan Sections

variable {target : StringUserFlag × ℕ} {targets : List (StringUserFlag × ℕ)}
  {strings : List (Option ScStr)} {newStringId : ℕ}

/-- A name that can be set. -/
inductive NameField where
  | scenarioName
  | scenarioDescription
  | force (index : ℕ)
  | unit (unitType : ℕ) (useExp : UseExpSection)
  | sound (soundIndex : ℕ)
  | switch (switchIndex : ℕ)
  | location (locationId : ℕ)

namespace NameField

/-- The names behind a field of the game; UNIS and UNIx are both there. -/
def gameTargets : NameField → List (StringUserFlag × ℕ)
  | .scenarioName => [(.scenarioName, 0)]
  | .scenarioDescription => [(.scenarioDescription, 0)]
  | .force index => [(.force, index)]
  | .unit unitType useExp =>
      match useExp with
      | .auto | .both =>
          [(.originalUnitSettings, unitType), (.expansionUnitSettings, unitType)]
      | .yes | .yesIfAvailable => [(.expansionUnitSettings, unitType)]
      | .no | .noIfOrigAvailable => [(.originalUnitSettings, unitType)]
  | .sound soundIndex => [(.sound, soundIndex)]
  | .switch switchIndex => [(.switch, switchIndex)]
  | .location locationId => [(.location, locationId - 1)]

/-- The names behind a field of OSTR.  Only the version and two policies tell
the unit names apart. -/
def editorTargets (hybridOrAbove : Bool) : NameField → List (StringUserFlag × ℕ)
  | .unit unitType useExp =>
      match useExp with
      | .auto =>
          if hybridOrAbove then [(.expansionUnitSettings, unitType)]
          else [(.originalUnitSettings, unitType)]
      | .yes => [(.expansionUnitSettings, unitType)]
      | .no => [(.originalUnitSettings, unitType)]
      | .both | .yesIfAvailable | .noIfOrigAvailable =>
          [(.originalUnitSettings, unitType), (.expansionUnitSettings, unitType)]
  | field => field.gameTargets

/-- The conditions on the scope and the index.  The index of a sound, switch or
location is compared for the editor only. -/
def accepted (field : NameField) (numLocations : ℕ) : Scope → Bool
  | .game =>
      match field with
      | .force index => index < 4
      | .unit unitType _ => unitType < 228
      | _ => true
  | .editor =>
      match field with
      | .force index => index < 4
      | .unit unitType _ => unitType < 228
      | .sound soundIndex => soundIndex < 512
      | .switch switchIndex => switchIndex < 256
      | .location locationId => 0 < locationId ∧ locationId ≤ numLocations
      | _ => true
  | _ => false

end NameField

/-- Fields with another value at an index; indices beyond the end are
ignored. -/
def setAt {A : Type} {count : ℕ} (fields : List.Vector A count) (index : ℕ)
    (value : A) : List.Vector A count :=
  ⟨fields.toList.set index value, List.length_set.trans fields.toList_length⟩

namespace LoadedScenario

def setGameId (stringId : ℕ) (scenario : LoadedScenario) : StringUserFlag × ℕ → LoadedScenario
  | (.scenarioName, _) =>
      { scenario with scenarioNameStringId := UInt16.ofNat stringId }
  | (.scenarioDescription, _) =>
      { scenario with scenarioDescriptionStringId := UInt16.ofNat stringId }
  | (.force, index) =>
      { scenario with
        forceString := setAt scenario.forceString index (UInt16.ofNat stringId) }
  | (.originalUnitSettings, index) =>
      { scenario with
        unisName := setAt scenario.unisName index (UInt16.ofNat stringId) }
  | (.expansionUnitSettings, index) =>
      { scenario with
        unixName := setAt scenario.unixName index (UInt16.ofNat stringId) }
  | (.sound, index) =>
      { scenario with
        soundPath := setAt scenario.soundPath index (UInt32.ofNat stringId) }
  | (.switch, index) =>
      { scenario with
        switchName := setAt scenario.switchName index (UInt32.ofNat stringId) }
  | (.location, index) =>
      { scenario with
        locations := scenario.locations.modify (index + 1) fun location =>
          { location with stringId := UInt16.ofNat stringId } }
  | _ => scenario

/-- Lead a name of OSTR to an editor string. -/
def setEditorId (stringId : ℕ) (scenario : LoadedScenario)
    (target : StringUserFlag × ℕ) : LoadedScenario :=
  let ostr := scenario.ostr
  let newStringId := UInt32.ofNat stringId
  { scenario with
    ostr :=
      match target with
      | (.scenarioName, _) => { ostr with scenarioName := newStringId }
      | (.scenarioDescription, _) =>
          { ostr with scenarioDescription := newStringId }
      | (.force, index) =>
          { ostr with forceName := setAt ostr.forceName index newStringId }
      | (.originalUnitSettings, index) =>
          { ostr with unitName := setAt ostr.unitName index newStringId }
      | (.expansionUnitSettings, index) =>
          { ostr with expUnitName := setAt ostr.expUnitName index newStringId }
      | (.sound, index) =>
          { ostr with soundPath := setAt ostr.soundPath index newStringId }
      | (.switch, index) =>
          { ostr with switchName := setAt ostr.switchName index newStringId }
      | (.location, index) =>
          { ostr with
            locationName := setAt ostr.locationName index newStringId }
      | _ => ostr }

/-- `Versions::isHybridOrAbove`. -/
def hybridOrAbove (scenario : LoadedScenario) : Bool := 63 ≤ scenario.version.toNat

/-- `Layers::numLocations`. -/
def numLocations (scenario : LoadedScenario) : ℕ := scenario.locations.length - 1

/-- The last step of a setter for the game.  A location is dereferenced without
a look at its id. -/
def assignGameName (scenario : LoadedScenario) (field : NameField)
    (stringId : ℕ) : LoadedScenario × Except (Fault Exception) PUnit :=
  match field with
  | .location locationId =>
      if 0 < locationId ∧ locationId < scenario.locations.length then
        (field.gameTargets.foldl (setGameId stringId) scenario, .ok ())
      else
        (scenario, .error (.hazard .undefinedBehavior))
  | _ => (field.gameTargets.foldl (setGameId stringId) scenario, .ok ())

/-- The last step of a setter for the editor.  OSTR has 255 locations. -/
def assignEditorName (scenario : LoadedScenario) (field : NameField)
    (stringId : ℕ) : LoadedScenario × Except (Fault Exception) PUnit :=
  match field with
  | .location locationId =>
      if locationId ≤ 255 then
        ((field.editorTargets scenario.hybridOrAbove).foldl (setEditorId stringId) scenario, .ok ())
      else
        (scenario, .error (.thrown .outOfRange))
  | _ =>
      ((field.editorTargets scenario.hybridOrAbove).foldl (setEditorId stringId) scenario, .ok ())

/-- The setters `setScenarioName` to `setLocationName` of `Strings`. -/
def setName (scenario : LoadedScenario) (field : NameField) (text : ScStr) (storageScope : Scope) :
    LoadedScenario × Except (Fault Exception) PUnit :=
  if field.accepted scenario.numLocations storageScope then
    if storageScope = .game then
      match scenario.addString text with
      | .error exception => (scenario, .error (.thrown exception))
      | .ok (newStringId, added) =>
          if newStringId ≠ 0 then added.assignGameName field newStringId
          else (added, .ok ())
    else
      match scenario.addEditorString text with
      | .error fault => (scenario, .error fault)
      | .ok (newStringId, added) =>
          if newStringId ≠ 0 then added.assignEditorName field newStringId
          else (added, .ok ())
  else
    (scenario, .ok ())

/-- A call of a setter, or of `deleteUnusedStrings` for both tables. -/
inductive NameCall where
  | setName (field : NameField) (text : ScStr) (storageScope : Scope)
  | deleteUnusedStrings

/-- What a call leaves behind, and how it ends. -/
def call (scenario : LoadedScenario) : NameCall → LoadedScenario × Except (Fault Exception) PUnit
  | .setName field text storageScope =>
      scenario.setName field text storageScope
  | .deleteUnusedStrings =>
      match scenario.deleteUnusedStrings with
      | .error hazard => (scenario, .error (.hazard hazard))
      | .ok after => (after, .ok ())

/-- How the calls of a run end, and the scenario behind it.  Exceptions are
caught; nothing is said about what follows undefined behaviour. -/
def runCalls (scenario : LoadedScenario) :
    List NameCall → List (Except (Fault Exception) PUnit) × LoadedScenario
  | [] => ([], scenario)
  | first :: calls =>
      match scenario.call first with
      | (after, .error (.hazard hazard)) => ([.error (.hazard hazard)], after)
      | (after, outcome) =>
          let (outcomes, final) := after.runCalls calls
          (outcome :: outcomes, final)

/-- The texts of the users of editor strings. -/
def editorTextsOf (scenario : LoadedScenario) (flag : StringUserFlag) : List (Option ScStr) :=
  (scenario.editorStringIds flag).map (resolve scenario.editorTexts)

end LoadedScenario

/-- What the users of strings show, for the game and in the editor. -/
@[ext]
structure MapTexts where
  hybridOrAbove : Bool
  numLocations : ℕ
  game : StringUserFlag → List (Option ScStr)
  editor : StringUserFlag → List (Option ScStr)

def LoadedScenario.mapTexts (scenario : LoadedScenario) : MapTexts where
  hybridOrAbove := scenario.hybridOrAbove
  numLocations := scenario.numLocations
  game := gameContents scenario
  editor := scenario.editorTextsOf

/-- Texts with another one for one user after the other. -/
def retext (text : ScStr) (texts : StringUserFlag → List (Option ScStr))
    (targets : List (StringUserFlag × ℕ)) :
    StringUserFlag → List (Option ScStr) :=
  targets.foldl (fun texts target =>
    Function.update texts target.1 ((texts target.1).set target.2 (some text))) texts

/-- A name of a location is set for the game only if there is one. -/
def LoadedScenario.NameCall.Inside (numLocations : ℕ) : LoadedScenario.NameCall → Prop
  | .setName (.location locationId) _ .game =>
      0 < locationId ∧ locationId ≤ numLocations
  | _ => True

namespace MapTexts

def setName (texts : MapTexts) (field : NameField) (text : ScStr)
    (storageScope : Scope) : MapTexts :=
  if field.accepted texts.numLocations storageScope then
    if storageScope = .game then
      { texts with
        game := retext (untilNul text) texts.game field.gameTargets }
    else
      { texts with
        editor := retext (untilNul text) texts.editor (field.editorTargets texts.hybridOrAbove) }
  else
    texts

def call (texts : MapTexts) : LoadedScenario.NameCall → MapTexts
  | .setName field text storageScope => texts.setName field text storageScope
  | .deleteUnusedStrings => texts

/-- The texts after calls that ended as given: one that did not return has
changed nothing. -/
def after (texts : MapTexts) (ended : List
      (LoadedScenario.NameCall × Except (Fault Exception) PUnit)) :
    MapTexts :=
  ended.foldl (fun texts (call, outcome) =>
    match outcome with
    | .ok _ => texts.call call
    | .error _ => texts) texts

theorem numLocations_call (texts : MapTexts) (call : LoadedScenario.NameCall) :
    (texts.call call).numLocations = texts.numLocations := by
  cases call with
  | setName field text storageScope =>
      rw [MapTexts.call, MapTexts.setName]
      split
      · split <;> rfl
      · rfl
  | deleteUnusedStrings => rfl

end MapTexts

section Assign

open LoadedScenario

/-- The users that have a field of their own in each table. -/
def Named (target : StringUserFlag × ℕ) : Prop := target.1 ∈ twoFieldFlags ∧
    (target.1 = .scenarioName ∨ target.1 = .scenarioDescription → target.2 = 0)

theorem named_gameTargets (field : NameField)
    (htarget : target ∈ field.gameTargets) : Named target := by
  cases field with
  | unit unitType useExp =>
      cases useExp <;> simp only [NameField.gameTargets, List.mem_cons,
        List.not_mem_nil, or_false] at htarget <;>
        rcases htarget with rfl | rfl <;>
        exact ⟨by simp [twoFieldFlags], by simp⟩
  | _ =>
      cases List.mem_singleton.mp htarget
      exact ⟨by simp [twoFieldFlags], by simp⟩

theorem named_editorTargets (hybridOrAbove : Bool) (field : NameField)
    (htarget : target ∈ field.editorTargets hybridOrAbove) : Named target := by
  cases field with
  | unit unitType useExp =>
      cases useExp <;> cases hybridOrAbove <;>
        simp [NameField.editorTargets] at htarget <;>
        rcases htarget with rfl | rfl <;>
        exact ⟨by simp [twoFieldFlags], by simp⟩
  | _ =>
      cases List.mem_singleton.mp htarget
      exact ⟨by simp [twoFieldFlags], by simp⟩

variable {A : Type} {stringId : ℕ} {text : ScStr}

/-- If a step gives one user an id under which a text is stored, the steps for
several users change the texts of these users. -/
theorem texts_foldl {ids : A → StringUserFlag → List ℕ}
    {assign : A → StringUserFlag × ℕ → A} {lookup : ℕ → Option ScStr}
    (hassign : ∀ state target, Named target →
      ids (assign state target) = Function.update (ids state) target.1
        ((ids state target.1).set target.2 stringId))
    (hlookup : lookup stringId = some text)
    (hnamed : ∀ target ∈ targets, Named target) (state : A) :
    (fun flag => (ids (targets.foldl assign state) flag).map lookup) =
      retext text (fun flag => (ids state flag).map lookup) targets := by
  induction targets generalizing state with
  | nil => rfl
  | cons target targets ih =>
      rw [List.foldl_cons, ih (fun other hother =>
        hnamed other (List.mem_cons_of_mem target hother))]
      rw [retext, retext, List.foldl_cons]
      congr 1
      funext flag
      rw [hassign state target (hnamed target List.mem_cons_self)]
      by_cases hflag : flag = target.1
      · subst hflag
        rw [Function.update_self, Function.update_self, List.map_set, hlookup]
      · rw [Function.update_of_ne hflag, Function.update_of_ne hflag]

end Assign

namespace LoadedScenario

variable {stringId : ℕ}

theorem toNat_ofNat16 (hlt : stringId < maxStrings) : (UInt16.ofNat stringId).toNat = stringId :=
  UInt16.toNat_ofNat_of_lt' hlt

theorem toNat_ofNat32 (hlt : stringId < maxStrings) : (UInt32.ofNat stringId).toNat = stringId :=
  UInt32.toNat_ofNat_of_lt' (Nat.lt_trans hlt (by decide))

theorem map_stringId_modify (locations : List Location) (index : ℕ) (hlt : stringId < maxStrings) :
    ((locations.modify (index + 1) fun location =>
        { location with stringId := UInt16.ofNat stringId }).tail.map
          fun location => location.stringId.toNat) =
      (locations.tail.map fun location => location.stringId.toNat).set index
        stringId := by
  cases locations with
  | nil => rfl
  | cons first rest =>
      rw [List.modify_succ_cons, List.tail_cons, List.tail_cons]
      induction rest generalizing index with
      | nil => cases index <;> rfl
      | cons location rest ih =>
          cases index with
          | zero =>
              rw [List.modify_zero_cons, List.map_cons, List.map_cons,
                List.set_cons_zero, toNat_ofNat16 hlt]
          | succ index =>
              rw [List.modify_succ_cons, List.map_cons, List.map_cons, List.set_cons_succ, ih]

theorem gameStringIds_setGameId (scenario : LoadedScenario)
    (hlt : stringId < maxStrings) (hnamed : Named target) :
    (scenario.setGameId stringId target).gameStringIds =
      Function.update scenario.gameStringIds target.1
        ((scenario.gameStringIds target.1).set target.2 stringId) := by
  funext flag
  by_cases hflag : flag = target.1
  · subst hflag
    rw [Function.update_self]
    obtain ⟨kind, index⟩ := target
    obtain ⟨hmem, hzero⟩ := hnamed
    have h16 := toNat_ofNat16 hlt
    have h32 := toNat_ofNat32 hlt
    cases kind with
    | scenarioName | scenarioDescription =>
        cases hzero (by simp)
        exact congrArg (fun id => [id]) h16
    | location => exact map_stringId_modify scenario.locations index hlt
    | force | originalUnitSettings | expansionUnitSettings =>
        simp only [setGameId, gameStringIds, setAt, List.Vector.toList_mk, List.map_set, h16]
    | sound | switch =>
        simp only [setGameId, gameStringIds, setAt, List.Vector.toList_mk, List.map_set, h32]
    | _ => exact absurd hmem (by simp [twoFieldFlags])
  · rw [Function.update_of_ne hflag]
    obtain ⟨kind, index⟩ := target
    cases kind <;> cases flag <;> first | rfl | exact absurd rfl hflag

theorem editorStringIds_setEditorId (scenario : LoadedScenario)
    (hlt : stringId < maxStrings) (hnamed : Named target) :
    (scenario.setEditorId stringId target).editorStringIds =
      Function.update scenario.editorStringIds target.1
        ((scenario.editorStringIds target.1).set target.2 stringId) := by
  funext flag
  by_cases hflag : flag = target.1
  · subst hflag
    rw [Function.update_self]
    obtain ⟨kind, index⟩ := target
    obtain ⟨hmem, hzero⟩ := hnamed
    have h32 := toNat_ofNat32 hlt
    cases kind with
    | scenarioName | scenarioDescription =>
        cases hzero (by simp)
        exact congrArg (fun id => [id]) h32
    | force | originalUnitSettings | expansionUnitSettings | sound | switch
    | location =>
        simp only [setEditorId, editorStringIds, setAt, List.Vector.toList_mk, List.map_set, h32]
    | _ => exact absurd hmem (by simp [twoFieldFlags])
  · rw [Function.update_of_ne hflag]
    obtain ⟨kind, index⟩ := target
    cases kind <;> cases flag <;> first | rfl | exact absurd rfl hflag

def EditorUnused (scenario : LoadedScenario) (unused : ℕ) : Prop :=
  0 < unused ∧ unused < maxStrings ∧ ∀ flag, unused ∉ scenario.editorStringIds flag

/-- What keeps strings apart: the tables have an entry for id 0, and neither
they nor the ids of the editor go beyond the bit set.  There may be no editor
strings yet. -/
structure TablesSound (scenario : LoadedScenario) : Prop where
  str_pos : 0 < scenario.str.strings.length
  str_le : scenario.str.strings.length ≤ maxStrings
  kstr_pos : 0 < scenario.kstr.strings.length ∨ ∃ unused, scenario.EditorUnused unused
  kstr_le : scenario.kstr.strings.length ≤ maxStrings
  editor_lt : ∀ flag, ∀ stringId ∈ scenario.editorStringIds flag, stringId < maxStrings

variable {scenario added : LoadedScenario} {text : ScStr}

theorem resolve_of_le (hle : strings.length ≤ stringId) : resolve strings stringId = none := by
  rw [resolve, getString, List.getD_eq_default _ _ hle, Option.map_none, ite_self]

theorem lt_of_resolve (hstored : resolve strings stringId = some text) :
    stringId < strings.length := by
  by_contra hle
  rw [resolve_of_le (Nat.le_of_not_lt hle)] at hstored
  cases hstored

theorem resolve_congr {others : List (Option ScStr)} (hsame : stringId ≠ 0 →
      strings.getD stringId none = others.getD stringId none) :
    resolve strings stringId = resolve others stringId := by
  rw [resolve, resolve, getString, getString]
  split
  · rfl
  · next hne => rw [hsame hne]

/-- What the users show does not change if the strings in use do not. -/
theorem gameContents_withStrings (hlength : scenario.str.strings.length ≤ maxStrings)
    (hafter : strings.length ≤ maxStrings)
    (hsame : ∀ other, scenario.marksGameString .all other →
      strings.getD other none = scenario.str.strings.getD other none) :
    gameContents (scenario.withStrings strings) = gameContents scenario := by
  funext flag
  rw [gameContents_eq, gameContents_eq, gameStringIds_withStrings]
  apply List.map_congr_left
  intro other hmem
  change resolve strings other = resolve scenario.str.strings other
  by_cases hlt : other < maxStrings
  · exact resolve_congr fun hne =>
      hsame other ⟨Nat.pos_of_ne_zero hne, hlt, flag, rfl, hmem⟩
  · rw [resolve_of_le (by omega), resolve_of_le (by omega)]

/-- A string that was added for the game is there, and nothing else shows. -/
theorem addString_sound (hsound : scenario.TablesSound)
    (hadd : scenario.addString text = .ok (newStringId, added)) :
    added.TablesSound ∧ added.mapTexts = scenario.mapTexts ∧
      newStringId ≠ 0 ∧ newStringId < maxStrings ∧
      resolve added.str.strings newStringId = some (untilNul text) := by
  have hne := addString_ne_zero hsound.str_pos hadd
  have hlonger := length_le_length_addString hadd
  obtain ⟨strings, rfl, hstored, hlength, hsame⟩ := addString_spec hadd
  change scenario.str.strings.length ≤ strings.length at hlonger
  have hpos := hsound.str_pos
  have hle := hsound.str_le
  have hlt := lt_length_of_getString hstored
  refine ⟨⟨by change 0 < strings.length; omega,
    by change strings.length ≤ _; omega, hsound.kstr_pos, hsound.kstr_le,
    hsound.editor_lt⟩, ?_, hne, by omega, ?_⟩
  · have hgame := gameContents_withStrings hle (by omega) hsame
    rw [mapTexts, hgame]
    rfl
  · exact (if_neg hne).trans hstored

/-- The next unused id is not used, and not 0 if there is one. -/
theorem nextUnusedEditorStringId_spec (scenario : LoadedScenario) :
    scenario.nextUnusedEditorStringId < maxStrings ∧
      ¬ scenario.marksEditorString .all scenario.nextUnusedEditorStringId ∧
      ∀ unused, scenario.EditorUnused unused → scenario.nextUnusedEditorStringId ≠ 0 := by
  rw [nextUnusedEditorStringId]
  cases hfind : (List.range' 1 (maxStrings - 1)).find? fun stringId =>
      ¬ scenario.marksEditorString .all stringId with
  | none =>
      refine ⟨by decide, fun hmarks => absurd hmarks.1 (Nat.lt_irrefl 0), ?_⟩
      rintro unused ⟨hpos, hlt, hnone⟩
      have hmarks := List.find?_eq_none.mp hfind unused (List.mem_range'_1.mpr (by omega))
      simp only [decide_eq_true_eq, not_not] at hmarks
      exact hmarks.2.elim fun flag hused => absurd hused.2 (hnone flag)
  | some stringId =>
      have hunused := List.find?_some hfind
      have hmem := List.mem_of_find?_eq_some hfind
      rw [List.mem_range'_1] at hmem
      have hmax : maxStrings = 65536 := rfl
      rw [Option.getD_some]
      exact ⟨by omega, by simpa using hunused, fun _ _ => by omega⟩

/-- What `addEditorString` returns: a stored string, or the first unused id of
a table that was grown up to it if necessary. -/
theorem addEditorString_cases (hsound : scenario.TablesSound)
    (hadd : scenario.addEditorString text = .ok (newStringId, added)) :
    newStringId = findString scenario.editorTexts text ∧ newStringId ≠ 0 ∧ added = scenario ∨
      newStringId = scenario.nextUnusedEditorStringId ∧ newStringId ≠ 0 ∧
        ∃ strings : List (Option EditorString), added = { scenario with
            kstr :=
              { scenario.kstr with
                strings := strings.set newStringId (some ⟨text, .default⟩) } } ∧
          newStringId < strings.length ∧
          scenario.kstr.strings.length ≤ strings.length ∧
          strings.length ≤ max scenario.kstr.strings.length maxStrings ∧
          ∀ other, strings.getD other none = scenario.kstr.strings.getD other none := by
  have hpos : 0 < scenario.kstr.strings.length ∨ scenario.nextUnusedEditorStringId ≠ 0 :=
    hsound.kstr_pos.imp_right fun ⟨unused, hunused⟩ =>
      scenario.nextUnusedEditorStringId_spec.2.2 unused hunused
  rw [addEditorString] at hadd
  simp only at hadd
  split at hadd
  case isTrue hfound =>
    cases hadd
    exact .inl ⟨rfl, hfound, rfl⟩
  case isFalse =>
    split at hadd
    · cases hadd
    · split at hadd
      · cases hadd
      · rename_i hroom
        obtain ⟨hlt, -⟩ := scenario.nextUnusedEditorStringId_spec
        cases hadd
        refine .inr ⟨rfl, by omega, _, rfl, ?_, ?_, ?_, fun other => ?_⟩
        · rw [List.length_append, List.length_replicate]
          omega
        · rw [List.length_append]
          omega
        · rw [List.length_append, List.length_replicate]
          omega
        · rw [List.getD_eq_getElem?_getD, List.getElem?_append, List.getD_eq_getElem?_getD]
          split
          · rfl
          · rename_i hbeyond
            rw [List.getElem?_eq_none (by omega : _ ≤ other), List.getElem?_replicate]
            split <;> rfl

theorem getD_map_chars (strings : List (Option EditorString)) (other : ℕ) :
    (strings.map (Option.map EditorString.chars)).getD other none =
      (strings.getD other none).map EditorString.chars := by
  rw [List.getD_eq_getElem?_getD, List.getElem?_map, List.getD_eq_getElem?_getD]
  cases strings[other]? <;> rfl

/-- A string that was added for the editor is there, and nothing else shows. -/
theorem addEditorString_sound (hsound : scenario.TablesSound)
    (hadd : scenario.addEditorString text = .ok (newStringId, added)) :
    added.TablesSound ∧ added.mapTexts = scenario.mapTexts ∧
      newStringId ≠ 0 ∧ newStringId < maxStrings ∧
      resolve added.editorTexts newStringId = some (untilNul text) := by
  have hle := hsound.kstr_le
  rcases addEditorString_cases hsound hadd with
    ⟨hfound, hne, rfl⟩ | ⟨hnext, hne, strings, rfl, hlt, hlonger, hlength, hsame⟩
  · have hstored := getString_findString (hfound ▸ hne)
    rw [← hfound] at hstored
    have hbelow := lt_length_of_getString hstored
    rw [editorTexts, List.length_map] at hbelow
    exact ⟨hsound, rfl, hne, by omega, (if_neg hne).trans hstored⟩
  · have hunmarked := scenario.nextUnusedEditorStringId_spec.2.1
    rw [← hnext] at hunmarked
    refine ⟨⟨hsound.str_pos, hsound.str_le, .inl ?_, ?_, hsound.editor_lt⟩, ?_, hne, by omega, ?_⟩
    · rw [List.length_set]
      omega
    · rw [List.length_set]
      omega
    · -- Only users that hold the new id could show the new string.
      have heditor : ∀ flag, ∀ other ∈ scenario.editorStringIds flag,
          resolve ((strings.set newStringId (some ⟨text, .default⟩)).map
            (Option.map EditorString.chars)) other =
          resolve scenario.editorTexts other := by
        intro flag other hmem
        have hother : newStringId ≠ other := by
          rintro rfl
          exact hunmarked ⟨Nat.pos_of_ne_zero hne, flag, rfl, hmem⟩
        apply resolve_congr
        rw [editorTexts, getD_map_chars, getD_map_chars, List.getD_eq_getElem?_getD,
          List.getElem?_set_ne hother, ← List.getD_eq_getElem?_getD, hsame other]
        exact fun _ => rfl
      have htexts : editorTextsOf { scenario with
          kstr :=
            { scenario.kstr with
              strings := strings.set newStringId (some ⟨text, .default⟩) } } =
          scenario.editorTextsOf := by
        funext flag
        exact List.map_congr_left (heditor flag)
      rw [mapTexts, htexts]
      rfl
    · rw [resolve, if_neg hne, getString, editorTexts, getD_map_chars,
        List.getD_eq_getElem?_getD, List.getElem?_set_self hlt]
      rfl

/-! ## Setting a name -/

/-- What no step changes, the steps for several users do not. -/
theorem keeps_foldl {B : Type} (kept : LoadedScenario → B)
    {assign : LoadedScenario → StringUserFlag × ℕ → LoadedScenario}
    (hassign : ∀ scenario target, kept (assign scenario target) = kept scenario)
    (targets : List (StringUserFlag × ℕ)) (scenario : LoadedScenario) :
    kept (targets.foldl assign scenario) = kept scenario := by
  induction targets generalizing scenario with
  | nil => rfl
  | cons target targets ih =>
      exact (ih (assign scenario target)).trans (hassign scenario target)

/-- What is left as it is if a name of the game is set. -/
def besideGame (scenario : LoadedScenario) :=
  (scenario.version, scenario.locations.length, scenario.str, scenario.kstr,
    scenario.editorStringIds)

def besideEditor (scenario : LoadedScenario) :=
  (scenario.version, scenario.locations.length, scenario.str, scenario.kstr, scenario.gameStringIds)

theorem besideGame_setGameId (stringId : ℕ) (scenario : LoadedScenario)
    (target : StringUserFlag × ℕ) :
    besideGame (scenario.setGameId stringId target) = besideGame scenario := by
  obtain ⟨kind, index⟩ := target
  cases kind with
  | location =>
      simp only [besideGame, setGameId, List.length_modify]
      rfl
  | _ => rfl

/-- A scenario with sound tables whose users show the texts. -/
structure Shows (texts : MapTexts) (scenario : LoadedScenario) : Prop where
  sound : scenario.TablesSound
  texts : scenario.mapTexts = texts

section

variable (hsound : scenario.TablesSound)

include hsound

theorem shows_gameTargets (hlt : stringId < maxStrings)
    (hstored : resolve scenario.str.strings stringId = some text)
    (hnamed : ∀ target ∈ targets, Named target) :
    Shows { scenario.mapTexts with
        game := retext text scenario.mapTexts.game targets }
      (targets.foldl (setGameId stringId) scenario) := by
  have hkeeps := keeps_foldl besideGame (besideGame_setGameId stringId) targets scenario
  simp only [besideGame, Prod.mk.injEq] at hkeeps
  obtain ⟨hversion, hlocations, hstr, hkstr, heditor⟩ := hkeeps
  constructor
  · refine ⟨hstr ▸ hsound.str_pos, hstr ▸ hsound.str_le, ?_, hkstr ▸ hsound.kstr_le, ?_⟩
    · simp only [EditorUnused, heditor, hkstr]
      exact hsound.kstr_pos
    · rw [heditor]
      exact hsound.editor_lt
  · apply MapTexts.ext
    · exact congrArg (fun version : UInt16 => decide (63 ≤ version.toNat)) hversion
    · exact congrArg (· - 1) hlocations
    · change (fun flag => ((targets.foldl (setGameId stringId)
        scenario).gameStringIds flag).map (resolve (targets.foldl
          (setGameId stringId) scenario).str.strings)) = _
      rw [hstr]
      exact texts_foldl (fun state target =>
        gameStringIds_setGameId state hlt) hstored hnamed scenario
    · funext flag
      change ((targets.foldl (setGameId stringId) scenario).editorStringIds flag).map _ = _
      rw [heditor, editorTexts, hkstr]
      rfl

theorem shows_editorTargets (hlt : stringId < maxStrings)
    (hstored : resolve scenario.editorTexts stringId = some text)
    (hnamed : ∀ target ∈ targets, Named target) :
    Shows { scenario.mapTexts with
        editor := retext text scenario.mapTexts.editor targets }
      (targets.foldl (setEditorId stringId) scenario) := by
  have hkeeps := @keeps_foldl _ besideEditor (setEditorId stringId)
    (fun _ _ => rfl) targets scenario
  simp only [besideEditor, Prod.mk.injEq] at hkeeps
  obtain ⟨hversion, hlocations, hstr, hkstr, hgame⟩ := hkeeps
  constructor
  · have hbelow := lt_of_resolve hstored
    rw [editorTexts, List.length_map] at hbelow
    refine ⟨hstr ▸ hsound.str_pos, hstr ▸ hsound.str_le,
      .inl (hkstr ▸ Nat.zero_lt_of_lt hbelow), hkstr ▸ hsound.kstr_le, ?_⟩
    have hids := hsound.editor_lt
    clear hversion hlocations hstr hkstr hgame hstored hsound hbelow
    induction targets generalizing scenario with
    | nil => exact hids
    | cons target targets ih =>
        rw [List.foldl_cons]
        refine ih (fun other hother =>
          hnamed other (List.mem_cons_of_mem target hother)) ?_
        intro flag other hmem
        rw [editorStringIds_setEditorId _ hlt (hnamed target List.mem_cons_self)] at hmem
        by_cases hflag : flag = target.1
        · subst hflag
          rw [Function.update_self] at hmem
          rcases List.mem_or_eq_of_mem_set hmem with hold | rfl
          · exact hids _ _ hold
          · exact hlt
        · rw [Function.update_of_ne hflag] at hmem
          exact hids _ _ hmem
  · apply MapTexts.ext
    · exact congrArg (fun version : UInt16 => decide (63 ≤ version.toNat)) hversion
    · exact congrArg (· - 1) hlocations
    · funext flag
      change ((targets.foldl (setEditorId stringId) scenario).gameStringIds flag).map _ = _
      rw [hgame, hstr]
      rfl
    · change (fun flag => ((targets.foldl (setEditorId stringId)
        scenario).editorStringIds flag).map (resolve (targets.foldl
          (setEditorId stringId) scenario).editorTexts)) = _
      rw [editorTexts, hkstr]
      exact texts_foldl (fun state target =>
        editorStringIds_setEditorId state hlt) hstored hnamed scenario

/-- How a call may end: it returns with its effect on the texts, it throws
without any, or it names a location that is not there. -/
def Ends (texts : MapTexts) (call : NameCall) :
    LoadedScenario × Except (Fault Exception) PUnit → Prop
  | (after, .ok _) => Shows (texts.call call) after
  | (after, .error (.thrown _)) => Shows texts after
  | (_, .error (.hazard _)) => ¬ call.Inside texts.numLocations

theorem ends_setName_game (field : NameField)
    (haccepted : field.accepted scenario.numLocations .game = true) :
    Ends scenario.mapTexts (.setName field text .game) (scenario.setName field text .game) := by
  have htexts : scenario.mapTexts.call (.setName field text .game) =
      { scenario.mapTexts with
        game := retext (untilNul text) scenario.mapTexts.game field.gameTargets } :=
    (if_pos haccepted).trans (if_pos rfl)
  rw [setName, if_pos haccepted, if_pos rfl]
  cases hadd : scenario.addString text with
  | error exception => exact ⟨hsound, rfl⟩
  | ok result =>
      obtain ⟨newStringId, added⟩ := result
      obtain ⟨hsafe, hsame, hne, hlt, hstored⟩ := addString_sound hsound hadd
      have hshows := shows_gameTargets hsafe hlt hstored (fun target => named_gameTargets field)
      rw [hsame, ← htexts] at hshows
      simp only [if_pos hne]
      cases field with
      | location locationId =>
          rw [assignGameName]
          split
          · exact hshows
          · rename_i hout
            intro hinside
            apply hout
            have hcount : added.numLocations = scenario.numLocations :=
              congrArg MapTexts.numLocations hsame
            change 0 < locationId ∧ locationId ≤ scenario.numLocations at hinside
            rw [← hcount, numLocations] at hinside
            omega
      | _ => exact hshows

theorem ends_setName_editor (field : NameField) {storageScope : Scope}
    (hscope : storageScope ≠ .game)
    (haccepted : field.accepted scenario.numLocations storageScope = true) :
    Ends scenario.mapTexts (.setName field text storageScope)
      (scenario.setName field text storageScope) := by
  rw [setName, if_pos haccepted, if_neg hscope]
  cases hadd : scenario.addEditorString text with
  | error fault =>
      cases fault with
      | thrown exception => exact ⟨hsound, rfl⟩
      | hazard hazard =>
          have hmarks := editorMarkOutOfRange_eq_false_iff.mpr hsound.editor_lt
          rw [addEditorString, hmarks] at hadd
          simp only [Bool.false_eq_true, if_false] at hadd
          split at hadd
          · cases hadd
          · split at hadd <;> cases hadd
  | ok result =>
      obtain ⟨newStringId, added⟩ := result
      obtain ⟨hsafe, hsame, hne, hlt, hstored⟩ := addEditorString_sound hsound hadd
      have hhybrid : added.hybridOrAbove = scenario.hybridOrAbove :=
        congrArg MapTexts.hybridOrAbove hsame
      have htexts : scenario.mapTexts.call (.setName field text storageScope) =
          { scenario.mapTexts with
            editor := retext (untilNul text) scenario.mapTexts.editor
              (field.editorTargets added.hybridOrAbove) } := by
        rw [hhybrid]
        exact (if_pos haccepted).trans (if_neg hscope)
      have hshows := shows_editorTargets hsafe hlt hstored
        (fun target => named_editorTargets added.hybridOrAbove field)
      rw [hsame, ← htexts] at hshows
      simp only [if_pos hne]
      cases field with
      | location locationId =>
          rw [assignEditorName]
          split
          · exact hshows
          · exact ⟨hsafe, hsame⟩
      | _ => exact hshows

theorem ends_call (call : NameCall) : Ends scenario.mapTexts call (scenario.call call) := by
  cases call with
  | setName field text storageScope =>
      by_cases haccepted : field.accepted scenario.numLocations storageScope = true
      · by_cases hscope : storageScope = .game
        · subst hscope
          exact ends_setName_game hsound field haccepted
        · exact ends_setName_editor hsound field hscope haccepted
      · have htexts : scenario.mapTexts.call
            (.setName field text storageScope) = scenario.mapTexts :=
          if_neg haccepted
        have hcall : scenario.call (.setName field text storageScope) =
            (scenario, .ok ()) := if_neg haccepted
        rw [hcall, Ends, htexts]
        exact ⟨hsound, rfl⟩
  | deleteUnusedStrings =>
      have hmarks := editorMarkOutOfRange_eq_false_iff.mpr hsound.editor_lt
      have hdelete : scenario.deleteUnusedStrings = .ok scenario.withoutUnusedStrings := by
        have hstr := hsound.str_le
        have hkstr := hsound.kstr_le
        rw [LoadedScenario.deleteUnusedStrings, if_neg]
        rw [hmarks]
        simp only [Bool.false_eq_true, or_false]
        omega
      rw [call, hdelete]
      refine ⟨⟨?_, ?_, ?_, ?_, hsound.editor_lt⟩, ?_⟩
      · exact (length_dropUnmarked _ _).symm ▸ hsound.str_pos
      · exact (length_dropUnmarked _ _).symm ▸ hsound.str_le
      · exact hsound.kstr_pos.imp_left fun hpos => (length_dropUnmarked _ _).symm ▸ hpos
      · exact (length_dropUnmarked _ _).symm ▸ hsound.kstr_le
      · apply MapTexts.ext
        · rfl
        · rfl
        · exact gameContents_withStrings hsound.str_le
            ((length_dropUnmarked _ _).trans_le hsound.str_le)
            fun other hmarked => getD_withoutUnusedStrings hmarked
        · funext flag
          apply List.map_congr_left
          intro other hmem
          apply resolve_congr
          intro hne
          have hmarked : scenario.marksEditorString .all other :=
            ⟨Nat.pos_of_ne_zero hne, flag, rfl, hmem⟩
          rw [editorTexts, editorTexts, getD_map_chars, getD_map_chars,
            getD_withoutUnusedEditorStrings hmarked]

end

/-- A run of setters and deletions of unused strings, on a map with sound
tables and with no name for a location that is not there: every call returns or
throws, and behind the run every user shows the text it was given last. -/
theorem runCalls_sound (hsound : scenario.TablesSound)
    {calls : List NameCall}
    (hinside : ∀ call ∈ calls, call.Inside scenario.numLocations) :
    (scenario.runCalls calls).1.length = calls.length ∧
      (∀ outcome ∈ (scenario.runCalls calls).1, ∀ hazard, outcome ≠ .error (.hazard hazard)) ∧
      (scenario.runCalls calls).2.TablesSound ∧
      (scenario.runCalls calls).2.mapTexts =
        scenario.mapTexts.after (calls.zip (scenario.runCalls calls).1) := by
  induction calls generalizing scenario with
  | nil => exact ⟨rfl, fun _ hmem => absurd hmem List.not_mem_nil, hsound, rfl⟩
  | cons first calls ih =>
      have hends := ends_call hsound first
      have hfirst := hinside first List.mem_cons_self
      have hrest : ∀ call ∈ calls, call.Inside scenario.numLocations :=
        fun call hcall => hinside call (List.mem_cons_of_mem first hcall)
      rw [runCalls]
      rcases hcall : scenario.call first with ⟨after, outcome⟩
      rw [hcall] at hends
      cases outcome with
      | ok value =>
          obtain ⟨hsafe, htexts⟩ := hends
          have hlocations : after.numLocations = scenario.numLocations :=
            (congrArg MapTexts.numLocations htexts).trans
              (scenario.mapTexts.numLocations_call first)
          obtain ⟨hlength, hreturns, hfinal, heq⟩ := ih hsafe (hlocations.symm ▸ hrest)
          rw [htexts] at heq
          exact ⟨congrArg Nat.succ hlength,
            List.forall_mem_cons.mpr ⟨fun _ => by simp, hreturns⟩, hfinal, heq⟩
      | error fault =>
          cases fault with
          | hazard hazard => exact absurd hfirst hends
          | thrown exception =>
              obtain ⟨hsafe, htexts⟩ := hends
              have hlocations : after.numLocations = scenario.numLocations :=
                congrArg MapTexts.numLocations htexts
              obtain ⟨hlength, hreturns, hfinal, heq⟩ := ih hsafe (hlocations.symm ▸ hrest)
              rw [htexts] at heq
              exact ⟨congrArg Nat.succ hlength,
                List.forall_mem_cons.mpr ⟨fun _ => by simp, hreturns⟩, hfinal,
                heq⟩

end LoadedScenario

/-- A force and a unit are named, unused strings are deleted, and the force is
named again. -/
def namingCalls : List LoadedScenario.NameCall := [.setName (.force 1) [82, 101, 100] .game,
    .setName (.unit 3 .both) [71, 0, 72] .editor, .deleteUnusedStrings,
    .setName (.force 1) [66] .game]

theorem tablesSound_bareScenario : (bareScenario [] []).TablesSound where
  str_pos := by decide
  str_le := by decide
  kstr_pos := .inr ⟨1, by decide, by decide, fun flag => by
    cases flag <;> decide +kernel⟩
  kstr_le := by decide
  editor_lt := LoadedScenario.editorMarkOutOfRange_eq_false_iff.mp (by decide +kernel)

theorem inside_namingCalls (numLocations : ℕ) : ∀ call ∈ namingCalls, call.Inside numLocations := by
  intro call hmem
  simp only [namingCalls, List.mem_cons, List.not_mem_nil, or_false] at hmem
  rcases hmem with rfl | rfl | rfl | rfl <;> trivial

theorem runCalls_sound_namingCalls : ((bareScenario [] []).runCalls namingCalls).2.mapTexts =
      (bareScenario [] []).mapTexts.after (namingCalls.zip
        ((bareScenario [] []).runCalls namingCalls).1) :=
  (LoadedScenario.runCalls_sound tablesSound_bareScenario (inside_namingCalls _)).2.2.2

def usersOf (texts : StringUserFlag → List (Option ScStr)) : ℕ :=
  (StringUserFlag.flags.flatMap texts).length

theorem length_users_congr {A B : Type} {texts : StringUserFlag → List A}
    {others : StringUserFlag → List B}
    (hsame : ∀ flag, (texts flag).length = (others flag).length) :
    (StringUserFlag.flags.flatMap texts).length = (StringUserFlag.flags.flatMap others).length := by
  rw [List.length_flatMap, List.length_flatMap]
  congr 1
  exact List.map_congr_left fun flag _ => hsame flag

theorem length_retext (text : ScStr) (texts : StringUserFlag → List (Option ScStr))
    (targets : List (StringUserFlag × ℕ)) (flag : StringUserFlag) :
    (retext text texts targets flag).length = (texts flag).length := by
  induction targets generalizing texts with
  | nil => rfl
  | cons target targets ih =>
      rw [retext, List.foldl_cons]
      refine (ih _).trans ?_
      by_cases hflag : flag = target.1
      · subst hflag
        rw [Function.update_self, List.length_set]
      · rw [Function.update_of_ne hflag]

/-- A map with few users: there is an id for every one of them in each table,
and OSTR has a field for every location. -/
structure MapTexts.Roomy (texts : MapTexts) : Prop where
  game : usersOf texts.game < maxStrings - 1
  editor : usersOf texts.editor < maxStrings - 1
  locations : texts.numLocations ≤ 255

theorem MapTexts.Roomy.call {texts : MapTexts} (hroomy : texts.Roomy)
    (call : LoadedScenario.NameCall) : (texts.call call).Roomy := by
  obtain ⟨hgame, heditor, hlocations⟩ := hroomy
  cases call with
  | deleteUnusedStrings => exact ⟨hgame, heditor, hlocations⟩
  | setName field text storageScope =>
      rw [MapTexts.call, MapTexts.setName]
      split
      · split
        · refine ⟨?_, heditor, hlocations⟩
          rwa [usersOf, length_users_congr (length_retext _ _ _)]
        · refine ⟨hgame, ?_, hlocations⟩
          rwa [usersOf, length_users_congr (length_retext _ _ _)]
      · exact ⟨hgame, heditor, hlocations⟩

/-- Fewer users than ids leave an id that none of them holds. -/
theorem exists_unused {ids : StringUserFlag → List ℕ}
    (hfew : (StringUserFlag.flags.flatMap ids).length < maxStrings - 1) :
    ∃ unused, 0 < unused ∧ unused < maxStrings ∧ ∀ flag, unused ∉ ids flag := by
  by_contra hall
  push Not at hall
  have hsubset : List.range' 1 (maxStrings - 1) ⊆ StringUserFlag.flags.flatMap ids := by
    intro stringId hmem
    rw [List.mem_range'_1] at hmem
    obtain ⟨flag, hused⟩ := hall stringId (by omega) (by omega)
    exact List.mem_flatMap.mpr ⟨flag, flag.mem_flags, hused⟩
  have hnodup : (List.range' 1 (maxStrings - 1)).Nodup := List.nodup_range' 1
  have hle := (hnodup.subperm hsubset).length_le
  rw [List.length_range'] at hle
  omega

namespace LoadedScenario

variable {scenario : LoadedScenario}

theorem usersOf_mapTexts (scenario : LoadedScenario) : usersOf scenario.mapTexts.game =
        (StringUserFlag.flags.flatMap scenario.gameStringIds).length ∧
      usersOf scenario.mapTexts.editor =
        (StringUserFlag.flags.flatMap scenario.editorStringIds).length :=
  ⟨length_users_congr fun _ => List.length_map _, length_users_congr fun _ => List.length_map _⟩

/-- An editor string can be added as long as some id is free. -/
theorem addEditorString_ne_thrown {unused : ℕ}
    (hunused : scenario.EditorUnused unused) (text : ScStr)
    (exception : Exception) :
    scenario.addEditorString text ≠ .error (.thrown exception) := by
  have hnext := scenario.nextUnusedEditorStringId_spec.2.2 unused hunused
  intro hadd
  rw [addEditorString] at hadd
  simp only [hnext, and_false, if_false] at hadd
  split at hadd
  · cases hadd
  · split at hadd <;> cases hadd

theorem setName_ne_thrown (hsound : scenario.TablesSound)
    (hroomy : scenario.mapTexts.Roomy) (field : NameField) (text : ScStr)
    (storageScope : Scope) (exception : Exception) :
    (scenario.setName field text storageScope).2 ≠ .error (.thrown exception) := by
  obtain ⟨hgame, heditor, hlocations⟩ := hroomy
  rw [(usersOf_mapTexts scenario).1] at hgame
  rw [(usersOf_mapTexts scenario).2] at heditor
  change scenario.numLocations ≤ 255 at hlocations
  rw [setName]
  split
  · rename_i haccepted
    split
    · have hadds : ∃ newStringId added, scenario.addString text = .ok (newStringId, added) := by
        obtain ⟨unused, hpos, hlt, hnone⟩ := exists_unused hgame
        refine (addString_returns_iff hsound.str_pos).mpr (.inr ⟨unused, hpos, hlt, ?_⟩)
        rintro ⟨-, -, flag, -, hused⟩
        exact hnone flag hused
      obtain ⟨newStringId, added, hadd⟩ := hadds
      simp only [hadd]
      split
      · cases field with
        | location locationId =>
            rw [assignGameName]
            split <;> simp
        | _ => simp [assignGameName]
      · simp
    · rename_i hscope
      obtain ⟨unused, hunused⟩ := exists_unused heditor
      cases hadd : scenario.addEditorString text with
      | error fault =>
          intro heq
          cases heq
          exact addEditorString_ne_thrown hunused _ _ hadd
      | ok result =>
          simp only
          split
          · cases field with
            | location locationId =>
                have hinside : locationId ≤ 255 := by
                  cases storageScope with
                  | editor =>
                      simp only [NameField.accepted, decide_eq_true_eq] at haccepted
                      omega
                  | game => exact absurd rfl hscope
                  | _ => cases haccepted
                simp [assignEditorName, hinside]
            | _ => simp [assignEditorName]
          · simp
  · simp

/-- On a map with room for all names every call of a run returns, and the texts
behind it are those the calls make of the texts before it. -/
theorem runCalls_returns (hsound : scenario.TablesSound)
    (hroomy : scenario.mapTexts.Roomy) {calls : List NameCall}
    (hinside : ∀ call ∈ calls, call.Inside scenario.numLocations) :
    (scenario.runCalls calls).1 = calls.map (fun _ => .ok ()) ∧
      (scenario.runCalls calls).2.mapTexts = calls.foldl MapTexts.call scenario.mapTexts := by
  induction calls generalizing scenario with
  | nil => exact ⟨rfl, rfl⟩
  | cons first calls ih =>
      have hends := ends_call hsound first
      have hrest : ∀ call ∈ calls, call.Inside scenario.numLocations :=
        fun call hcall => hinside call (List.mem_cons_of_mem first hcall)
      rw [runCalls]
      rcases hcall : scenario.call first with ⟨after, outcome⟩
      rw [hcall] at hends
      cases outcome with
      | ok value =>
          obtain ⟨hsafe, htexts⟩ := hends
          have hlocations : after.numLocations = scenario.numLocations :=
            (congrArg MapTexts.numLocations htexts).trans
              (scenario.mapTexts.numLocations_call first)
          obtain ⟨hreturns, heq⟩ := ih hsafe (htexts ▸ hroomy.call first) (hlocations.symm ▸ hrest)
          rw [htexts] at heq
          exact ⟨congrArg (List.cons (.ok value)) hreturns, heq⟩
      | error fault =>
          cases fault with
          | hazard hazard =>
              exact absurd (hinside first List.mem_cons_self) hends
          | thrown exception =>
              have hthrown := congrArg Prod.snd hcall
              cases first with
              | setName field text storageScope =>
                  exact absurd hthrown (setName_ne_thrown hsound hroomy _ _ _ _)
              | deleteUnusedStrings =>
                  rw [call] at hthrown
                  split at hthrown <;> cases hthrown

end LoadedScenario

theorem roomy_bareScenario : (bareScenario [] []).mapTexts.Roomy where
  game := by decide +kernel
  editor := by decide +kernel
  locations := by decide

/-- The second name of the force is there, and that of the unit as far as its
NUL. -/
theorem runCalls_returns_namingCalls : ((bareScenario [] []).runCalls namingCalls).1 =
        [.ok (), .ok (), .ok (), .ok ()] ∧
      ((bareScenario [] []).runCalls namingCalls).2.mapTexts.game .force =
        [none, some [66], none, none] ∧
      (((bareScenario [] []).runCalls namingCalls).2.mapTexts.editor
        .expansionUnitSettings)[3]? = some (some [71]) := by
  obtain ⟨hreturns, htexts⟩ := LoadedScenario.runCalls_returns
    tablesSound_bareScenario roomy_bareScenario (inside_namingCalls _)
  rw [hreturns, htexts]
  decide +kernel

end Chkdraft.Scenario
