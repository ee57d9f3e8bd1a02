import Chkdraft.Scenario.VersionChange

/-!
# The sections saved with a version

Each change of version adds and removes sections one by one.  Which sections are
saved behind a change does not depend on the changes before it, but UPGx is
never removed.
-/

namespace Chkdraft.Scenario

open Binary Chk Sections

variable {handle : ℕ} {content : Section} {autoDefragmentLocations : Bool}
  {versions : List UInt16}

variable {name other : SectionName} {lockAnywhere : Bool} {version : UInt16}

namespace LoadedFile

/-- The names of the sections to be saved. -/
def savedNames (file : LoadedFile) : List SectionName := file.allSections.filterMap file.objectName

/-- Successful calls of `changeVersionTo`, one after the other. -/
inductive Changes : LoadedFile → List UInt16 → LoadedFile → Prop
  | none (file : LoadedFile) : Changes file [] file
  | change {file changed after : LoadedFile} {version : UInt16}
      {rest : List UInt16} (lockAnywhere autoDefragmentLocations : Bool)
      (hcall : file.changeVersionTo version lockAnywhere
        autoDefragmentLocations = .ok (true, changed))
      (hrest : Changes changed rest after) :
      Changes file (version :: rest) after

def originalSections : List SectionName :=
  [.struct .iver, .struct .upgr, .struct .ptec, .struct .unis, .struct .upgs, .struct .tecs]

/-- Sections of the expansion only, apart from COLR. -/
def expansionSections : List SectionName :=
  [.struct .type, .struct .pupx, .struct .ptex, .struct .unix, .struct .upgx, .struct .tecx]

/-- The sections that depend on the version. -/
def versionSections : List SectionName := .struct .colr :: originalSections ++ expansionSections

/-- The sections a change to a version removes. -/
def removedSections (version : UInt16) : List SectionName :=
  if version < starCraftBroodWar then
    (if version < starCraftHybrid then
      [.struct .type, .struct .pupx, .struct .ptex, .struct .unix, .struct .tecx]
    else
      []) ++ [.struct .colr]
  else
    originalSections

/-- The sections a change to a version adds. -/
def addedSections (version : UInt16) : List SectionName :=
  (if version < starCraftBroodWar then originalSections
    else [.struct .colr]) ++
  if starCraftHybrid ≤ version then expansionSections else []

/-- What is saved behind a change to a version. -/
def sectionsOfVersion (version : UInt16) : List SectionName :=
  newSaveSections.filter (· ∉ versionSections) ++ addedSections version ++ [.struct .upgx]

/-- The names a version should not be saved with are not saved. -/
def SavesRight (file : LoadedFile) (version : UInt16) : Prop := (version < starCraftHybrid →
    ∀ name ∈ .struct .colr :: expansionSections, name ∉ file.savedNames) ∧
  (starCraftBroodWar ≤ version → ∀ name ∈ originalSections, name ∉ file.savedNames)

/-- The objects behind the section pointers have the names of a new scenario. -/
structure Standard (file : LoadedFile) : Prop where
  pointer : file.pointer = fun name =>
    if name ∈ newNames then some (newNames.idxOf name) else none
  names : file.objects.map Section.name = newNames

/-- Two scenarios with the same sections, which may have other contents. -/
structure SameSections (before after : LoadedFile) : Prop where
  pointer : after.pointer = before.pointer
  names : after.objects.map Section.name = before.objects.map Section.name
  allSections : after.allSections = before.allSections

variable {file middle after : LoadedFile}

theorem SameSections.refl (file : LoadedFile) : SameSections file file := ⟨rfl, rfl, rfl⟩

theorem SameSections.trans (hfirst : SameSections file middle)
    (hsecond : SameSections middle after) : SameSections file after :=
  ⟨hsecond.pointer.trans hfirst.pointer, hsecond.names.trans hfirst.names,
    hsecond.allSections.trans hfirst.allSections⟩

theorem SameSections.standard (hsame : SameSections file after)
    (hstandard : file.Standard) : after.Standard :=
  ⟨hsame.pointer.trans hstandard.pointer, hsame.names.trans hstandard.names⟩

theorem objectName_eq (file : LoadedFile) (handle : ℕ) :
    file.objectName handle = (file.objects.map Section.name)[handle]? := by
  rw [objectName, List.getElem?_map]

theorem SameSections.savedNames (hsame : SameSections file after) :
    after.savedNames = file.savedNames := by
  unfold LoadedFile.savedNames
  rw [hsame.allSections]
  congr 1
  funext handle
  rw [objectName_eq, objectName_eq, hsame.names]

theorem standard_newScenario (vcod : List UInt8) (tileset width height : UInt16) :
    (newScenario vcod tileset width height).Standard :=
  ⟨rfl, map_name_newScenario vcod tileset width height⟩

theorem sameSections_setObject (hname : file.objectName handle = some content.name) :
    SameSections file (file.setObject handle content) := by
  refine ⟨rfl, ?_, rfl⟩
  rw [objectName_eq] at hname
  obtain ⟨hlt, heq⟩ := List.getElem?_eq_some_iff.mp hname
  rw [setObject, List.map_set, ← heq, List.set_getElem_self]

theorem Standard.objectName (hstandard : file.Standard)
    (hpointer : file.pointer name = some handle) :
    file.objectName handle = some name := by
  rw [hstandard.pointer] at hpointer
  simp only at hpointer
  split at hpointer
  · rename_i hmem
    cases hpointer
    rw [objectName_eq, hstandard.names, List.getElem?_eq_getElem
      (List.idxOf_lt_length_iff.mpr hmem), List.getElem_idxOf]
  · cases hpointer

theorem Standard.setSection (hstandard : file.Standard) (hname : content.name = name) :
    SameSections file (file.setSection name content) := by
  unfold LoadedFile.setSection
  split
  · rename_i handle hpointer
    apply sameSections_setObject
    rw [hname]
    exact hstandard.objectName hpointer
  · exact SameSections.refl file

theorem sameSections_setStructWord {name : StructName} {width value : ℕ}
    (hmarked : file.setStructWord name width value = .ok after) :
    SameSections file after := by
  obtain ⟨content, handle, hcontent, hpointer, rfl⟩ := setStructWord_eq_ok_iff.mp hmarked
  apply sameSections_setObject
  have hobject := (structAt_eq_ok_iff.mp hcontent).1
  rw [section_eq hpointer] at hobject
  rw [LoadedFile.objectName, hobject]
  rfl

section

variable (hstandard : file.Standard)

include hstandard

theorem Standard.trimLocationsToOriginal {fits : Bool}
    (htrim : file.trimLocationsToOriginal lockAnywhere = .ok (fits, after)) :
    SameSections file after := by
  unfold LoadedFile.trimLocationsToOriginal at htrim
  split at htrim
  · rw [Fault.bind_eq_ok_iff] at htrim
    obtain ⟨⟨answer, trimmed, remapped⟩, -, hresult⟩ := htrim
    cases hresult
    have hmrgn : SameSections file (file.setSection .mrgn (.mrgn trimmed)) :=
      hstandard.setSection rfl
    exact hmrgn.trans ((hmrgn.standard hstandard).setSection rfl)
  · cases htrim

theorem Standard.expandToScHybridOrExpansion
    (hexpand : file.expandToScHybridOrExpansion = .ok after) :
    SameSections file after := by
  unfold LoadedFile.expandToScHybridOrExpansion at hexpand
  split at hexpand
  · cases hexpand
    exact hstandard.setSection rfl
  · cases hexpand

theorem Standard.changeToExpansion {scenarioType : ℕ}
    (hchange : file.changeToExpansion scenarioType = .ok after) :
    SameSections file after := by
  simp only [LoadedFile.changeToExpansion, Fault.bind_eq_ok_iff] at hchange
  obtain ⟨typed, htype, versioned, hiver, second, hive2, hexpand⟩ := hchange
  have hsame := (sameSections_setStructWord htype).trans
    ((sameSections_setStructWord hiver).trans (sameSections_setStructWord hive2))
  exact hsame.trans ((hsame.standard hstandard).expandToScHybridOrExpansion hexpand)

theorem Standard.changeTo {changed : Bool}
    (hchange : file.changeTo version lockAnywhere autoDefragmentLocations =
      .ok (changed, after)) : SameSections file after := by
  rw [LoadedFile.changeTo, Fault.bind_eq_ok_iff] at hchange
  obtain ⟨marked, hver, hrest⟩ := hchange
  have hmarked := sameSections_setStructWord hver
  have hmarkedStandard := hmarked.standard hstandard
  apply hmarked.trans
  split at hrest
  · rw [Fault.bind_eq_ok_iff] at hrest
    obtain ⟨⟨fits, trimmed⟩, htrim, hresult⟩ := hrest
    have htrimmed := hmarkedStandard.trimLocationsToOriginal htrim
    cases fits with
    | true =>
        simp only [if_true, Fault.bind_eq_ok_iff] at hresult
        obtain ⟨typed, htype, versioned, hiver, hresult⟩ := hresult
        cases hresult
        exact htrimmed.trans ((sameSections_setStructWord htype).trans
          (sameSections_setStructWord hiver))
    | false =>
        cases hresult
        exact htrimmed
  · split at hrest
    · rw [Fault.bind_eq_ok_iff] at hrest
      obtain ⟨expanded, hexpand, hresult⟩ := hrest
      cases hresult
      exact hmarkedStandard.changeToExpansion hexpand
    · rw [Fault.bind_eq_ok_iff] at hrest
      obtain ⟨expanded, hexpand, hresult⟩ := hrest
      cases hresult
      exact hmarkedStandard.changeToExpansion hexpand

theorem Standard.deleteUnusedStrings (hdelete : file.deleteUnusedStrings = .ok after) :
    SameSections file after := by
  simp only [LoadedFile.deleteUnusedStrings, Fault.bind_eq_ok_iff] at hdelete
  obtain ⟨users, -, remaining, -, hresult⟩ := hdelete
  cases hresult
  unfold setStrings
  split
  · rename_i strHandle kstrHandle hstr hkstr
    have hfirst : SameSections file (file.setObject strHandle (.str remaining.str)) :=
      sameSections_setObject (hstandard.objectName hstr)
    exact hfirst.trans (sameSections_setObject ((hfirst.standard hstandard).objectName hkstr))
  · exact SameSections.refl file

end

theorem mem_savedNames : name ∈ file.savedNames ↔
      ∃ handle ∈ file.allSections, file.objectName handle = some name :=
  List.mem_filterMap

theorem mem_removeSection : other ∈ (file.removeSection name).savedNames ↔
      other ∈ file.savedNames ∧ other ≠ name := by
  rw [mem_savedNames, mem_savedNames]
  constructor
  · rintro ⟨handle, hmem, hname⟩
    obtain ⟨hmem, hne⟩ := List.mem_filter.mp hmem
    refine ⟨⟨handle, hmem, hname⟩, ?_⟩
    rintro rfl
    exact of_decide_eq_true hne hname
  · rintro ⟨⟨handle, hmem, hname⟩, hne⟩
    refine ⟨handle, List.mem_filter.mpr ⟨hmem, decide_eq_true ?_⟩, hname⟩
    intro hsame
    rw [hname] at hsame
    exact hne (Option.some.inj hsame)

theorem Standard.removeSection (hstandard : file.Standard)
    (name : SectionName) : (file.removeSection name).Standard :=
  ⟨hstandard.pointer, hstandard.names⟩

theorem Standard.exists_pointer (hstandard : file.Standard) (hname : name ∈ newNames) :
    ∃ handle, file.pointer name = some handle ∧ file.objectName handle = some name := by
  have hpointer : file.pointer name = some (newNames.idxOf name) := by
    rw [hstandard.pointer]
    exact if_pos hname
  exact ⟨_, hpointer, hstandard.objectName hpointer⟩

theorem Standard.addSection (hstandard : file.Standard) (name : SectionName) :
    (file.addSection name).Standard := by
  unfold LoadedFile.addSection
  split
  · exact hstandard
  · split
    · exact hstandard
    · exact ⟨hstandard.pointer, hstandard.names⟩

theorem Standard.mem_addSection (hstandard : file.Standard) (hname : name ∈ newNames) :
    other ∈ (file.addSection name).savedNames ↔ other ∈ file.savedNames ∨ other = name := by
  obtain ⟨handle, hpointer, hobject⟩ := hstandard.exists_pointer hname
  simp only [LoadedFile.addSection, hpointer]
  split
  · rename_i hsaved
    constructor
    · exact .inl
    · rintro (hother | rfl)
      · exact hother
      · exact mem_savedNames.mpr ⟨handle, hsaved, hobject⟩
  · have happend : (({ file with
        allSections := file.allSections ++ [handle] } :
        LoadedFile).savedNames) = file.savedNames ++ [name] := by
      simp only [LoadedFile.savedNames, List.filterMap_append]
      congr 1
      rw [List.filterMap_cons_some (by exact hobject), List.filterMap_nil]
    rw [happend, List.mem_append, List.mem_singleton]

theorem mem_foldl_removeSection (names : List SectionName) :
    other ∈ (names.foldl LoadedFile.removeSection file).savedNames ↔
      other ∈ file.savedNames ∧ other ∉ names := by
  induction names generalizing file with
  | nil => simp
  | cons name rest ih =>
      rw [List.foldl_cons, ih, mem_removeSection, List.mem_cons, not_or, and_assoc]

theorem Standard.foldl_removeSection (hstandard : file.Standard) (names : List SectionName) :
    (names.foldl LoadedFile.removeSection file).Standard := by
  induction names generalizing file with
  | nil => exact hstandard
  | cons name rest ih => exact ih (hstandard.removeSection name)

theorem Standard.foldl_addSection (hstandard : file.Standard) (names : List SectionName) :
    (names.foldl LoadedFile.addSection file).Standard := by
  induction names generalizing file with
  | nil => exact hstandard
  | cons name rest ih => exact ih (hstandard.addSection name)

theorem Standard.mem_foldl_addSection (hstandard : file.Standard)
    {names : List SectionName} (hnames : ∀ name ∈ names, name ∈ newNames) :
    other ∈ (names.foldl LoadedFile.addSection file).savedNames ↔
      other ∈ file.savedNames ∨ other ∈ names := by
  induction names generalizing file with
  | nil => simp
  | cons name rest ih =>
      rw [List.foldl_cons, ih (hstandard.addSection name) fun other hmem =>
          hnames other (List.mem_cons_of_mem name hmem),
        hstandard.mem_addSection (hnames name List.mem_cons_self),
        List.mem_cons, or_assoc]

theorem changeSaveSections_eq (file : LoadedFile) (version : UInt16) :
    file.changeSaveSections version = (addedSections version).foldl LoadedFile.addSection
        ((removedSections version).foldl LoadedFile.removeSection file) := by
  unfold LoadedFile.changeSaveSections addedSections removedSections
  split
  · split
    · rename_i horiginal
      rw [if_neg (UInt16.not_le.mpr horiginal), if_neg (UInt16.not_le.mpr horiginal)]
      rfl
    · rename_i hhybrid
      rw [if_pos (UInt16.not_lt.mp hhybrid), if_pos (UInt16.not_lt.mp hhybrid)]
      rfl
  · rename_i hexpansion
    have hhybrid : starCraftHybrid ≤ version :=
      UInt16.le_trans (by decide) (UInt16.not_lt.mp hexpansion)
    rw [if_pos hhybrid, if_pos hhybrid]
    rfl

theorem addedSections_subset (version : UInt16) :
    ∀ name ∈ addedSections version, name ∈ newNames := by
  unfold addedSections
  split <;> split <;> decide

theorem addedSections_versionSections (version : UInt16) :
    ∀ name ∈ addedSections version, name ∈ versionSections := by
  unfold addedSections
  split <;> split <;> decide

/-- What is saved behind a change: some sections are removed, and then some are
added. -/
theorem Standard.mem_changeSaveSections (hstandard : file.Standard) (version : UInt16) :
    name ∈ (file.changeSaveSections version).savedNames ↔
      (name ∈ file.savedNames ∧ name ∉ removedSections version) ∨ name ∈ addedSections version := by
  rw [changeSaveSections_eq,
    (hstandard.foldl_removeSection (removedSections version)).mem_foldl_addSection (addedSections_subset version),
    mem_foldl_removeSection]

theorem Standard.changeSaveSections (hstandard : file.Standard)
    (version : UInt16) : (file.changeSaveSections version).Standard := by
  rw [changeSaveSections_eq]
  exact (hstandard.foldl_removeSection _).foldl_addSection _

/-- What holds behind every change: the sections that do not depend on the
version are saved, and so is UPGx. -/
structure Tracked (file : LoadedFile) : Prop where
  standard : file.Standard
  common : ∀ name, name ∉ versionSections → (name ∈ file.savedNames ↔ name ∈ newSaveSections)
  upgx : .struct .upgx ∈ file.savedNames

theorem savedNames_newScenario (vcod : List UInt8) (tileset width height : UInt16) :
    (newScenario vcod tileset width height).savedNames = newSaveSections := by
  rfl

theorem tracked_newScenario (vcod : List UInt8) (tileset width height : UInt16) :
    (newScenario vcod tileset width height).Tracked where
  standard := standard_newScenario vcod tileset width height
  common := by
    intro name _
    rw [savedNames_newScenario]
  upgx := by
    rw [savedNames_newScenario]
    decide

theorem removedSections_subset (version : UInt16) :
    ∀ name ∈ removedSections version, name ∈ versionSections := by
  unfold removedSections
  split
  · split <;> decide
  · decide

/-- A section that depends on the version is added or removed, unless it is
UPGx, which is never removed. -/
theorem versionSections_cases (version : UInt16) :
    (∀ name ∈ versionSections, name ∈ addedSections version ∨
      name ∈ removedSections version ∨ name = .struct .upgx) ∧
    .struct .upgx ∉ removedSections version := by
  unfold addedSections removedSections
  by_cases horiginal : version < starCraftHybrid
  · have hbelow : version < starCraftBroodWar := UInt16.lt_trans horiginal (by decide)
    rw [if_pos hbelow, if_neg (UInt16.not_le.mpr horiginal), if_pos hbelow, if_pos horiginal]
    decide
  · rw [if_pos (UInt16.not_lt.mp horiginal), if_neg horiginal]
    split <;> decide

theorem upgx_mem_sectionsOfVersion (version : UInt16) : .struct .upgx ∈ sectionsOfVersion version :=
  List.mem_append_right _ (List.mem_singleton.mpr rfl)

/-- From Brood War on no section of the original game is saved. -/
theorem not_mem_sectionsOfVersion (hexpansion : starCraftBroodWar ≤ version) :
    ∀ name ∈ originalSections, name ∉ sectionsOfVersion version := by
  have hhybrid : starCraftHybrid ≤ version := UInt16.le_trans (by decide) hexpansion
  rw [sectionsOfVersion, addedSections, if_neg (UInt16.not_lt.mpr hexpansion), if_pos hhybrid]
  decide

/-- What is saved behind one change from any such scenario. -/
theorem Tracked.mem_changeSaveSections (htracked : file.Tracked) (version : UInt16) :
    name ∈ (file.changeSaveSections version).savedNames ↔ name ∈ sectionsOfVersion version := by
  obtain ⟨hcases, hupgx⟩ := versionSections_cases version
  rw [htracked.standard.mem_changeSaveSections, sectionsOfVersion, List.mem_append,
    List.mem_append, List.mem_filter, List.mem_singleton, decide_eq_true_eq]
  by_cases hversion : name ∈ versionSections
  · constructor
    · rintro (⟨-, hkept⟩ | hadded)
      · rcases hcases name hversion with hadded | hremoved | hname
        · exact .inl (.inr hadded)
        · exact absurd hremoved hkept
        · exact .inr hname
      · exact .inl (.inr hadded)
    · rintro ((⟨-, hnot⟩ | hadded) | rfl)
      · exact absurd hversion hnot
      · exact .inr hadded
      · exact .inl ⟨htracked.upgx, hupgx⟩
  · have hkept : name ∉ removedSections version := fun hremoved =>
      hversion (removedSections_subset version name hremoved)
    have hne : name ≠ .struct .upgx := by
      rintro rfl
      exact hversion (by decide)
    rw [htracked.common name hversion]
    constructor
    · rintro (⟨hsaved, -⟩ | hadded)
      · exact .inl (.inl ⟨hsaved, hversion⟩)
      · exact .inl (.inr hadded)
    · rintro ((⟨hsaved, -⟩ | hadded) | hname)
      · exact .inl ⟨hsaved, hkept⟩
      · exact .inr hadded
      · exact absurd hname hne

/-- A successful call leaves the sections of its version. -/
theorem Tracked.changeVersionTo (htracked : file.Tracked)
    (hcall : file.changeVersionTo version lockAnywhere
      autoDefragmentLocations = .ok (true, after)) :
    after.Tracked ∧ ∀ name, name ∈ after.savedNames ↔ name ∈ sectionsOfVersion version := by
  rw [LoadedFile.changeVersionTo, Fault.bind_eq_ok_iff] at hcall
  obtain ⟨⟨changed, versioned⟩, hchange, hresult⟩ := hcall
  have hversioned := htracked.standard.changeTo hchange
  cases changed with
  | false => cases hresult
  | true =>
      simp only [if_true, Fault.bind_eq_ok_iff] at hresult
      obtain ⟨cleaned, hdelete, hresult⟩ := hresult
      cases hresult
      have hsame := hversioned.trans
        ((hversioned.standard htracked.standard).deleteUnusedStrings hdelete)
      have hcleaned : cleaned.Tracked := ⟨hsame.standard htracked.standard, by
          rw [hsame.savedNames]
          exact htracked.common, by
          rw [hsame.savedNames]
          exact htracked.upgx⟩
      have hnames : ∀ name, name ∈ (cleaned.changeSaveSections version).savedNames ↔
            name ∈ sectionsOfVersion version :=
        fun name => hcleaned.mem_changeSaveSections version
      refine ⟨⟨hcleaned.standard.changeSaveSections version, ?_, ?_⟩, hnames⟩
      · intro name hname
        rw [hcleaned.standard.mem_changeSaveSections, hcleaned.common name hname]
        have hkept : name ∉ removedSections version := fun hremoved =>
          hname (removedSections_subset version name hremoved)
        have hnew : name ∉ addedSections version := fun hadded =>
          hname (addedSections_versionSections version name hadded)
        simp only [hkept, hnew, not_false_eq_true, and_true, or_false]
      · rw [hnames]
        exact upgx_mem_sectionsOfVersion version

/-- Every sequence of changes ends with the sections of its last version. -/
theorem Changes.savedNames (hchanges : Changes file versions after)
    (htracked : file.Tracked) (hne : versions ≠ []) :
    ∀ name, name ∈ after.savedNames ↔ name ∈ sectionsOfVersion (versions.getLast hne) := by
  induction hchanges with
  | none => exact absurd rfl hne
  | change lockAnywhere autoDefragmentLocations hcall hrest ih =>
      rename_i changed after version rest
      obtain ⟨hchanged, hnames⟩ := htracked.changeVersionTo hcall
      cases hrest with
      | none => exact hnames
      | change lock auto hnext hlater =>
          rw [List.getLast_cons (List.cons_ne_nil _ _)]
          exact ih hchanged (List.cons_ne_nil _ _)

/-- The names saved behind a sequence of changes are a function of the last
version; they are right exactly from Hybrid on. -/
theorem savesRight_iff {vcod : List UInt8} {tileset width height : UInt16}
    {versions : List UInt16} {after : LoadedFile}
    (hchanges : Changes (newScenario vcod tileset width height) versions after)
    (hne : versions ≠ []) :
    (∀ name, name ∈ after.savedNames ↔ name ∈ sectionsOfVersion (versions.getLast hne)) ∧
    (after.SavesRight (versions.getLast hne) ↔ starCraftHybrid ≤ versions.getLast hne) := by
  have hnames := hchanges.savedNames (tracked_newScenario vcod tileset width height) hne
  refine ⟨hnames, ?_⟩
  constructor
  · intro hright
    by_contra hbelow
    apply hright.1 (UInt16.not_le.mp hbelow) (.struct .upgx) (by decide)
    rw [hnames]
    exact upgx_mem_sectionsOfVersion _
  · intro hhybrid
    constructor
    · intro hbelow
      exact absurd hhybrid (UInt16.not_le.mpr hbelow)
    · intro hexpansion name hname
      rw [hnames]
      exact not_mem_sectionsOfVersion hexpansion name hname

/-- A change of the version whose deletion of strings is checked. -/
def changed? (file : LoadedFile) (version : UInt16) : Option LoadedFile :=
  match file.changeTo version true false with
  | .ok (true, changed) =>
      match changed.stringUsers with
      | .ok users =>
          if changed.deletesStrings then
            some ((changed.setStrings users.withoutUnusedStrings.str
              users.withoutUnusedStrings.kstr).changeSaveSections version)
          else none
      | .error _ => none
  | _ => none

theorem changeVersionTo_of_changed {file after : LoadedFile}
    {version : UInt16} (hchanged : file.changed? version = some after) :
    file.changeVersionTo version true false = .ok (true, after) := by
  unfold changed? at hchanged
  split at hchanged
  · rename_i changed hcall
    split at hchanged
    · rename_i users husers
      split at hchanged
      · rename_i hcheck
        cases hchanged
        obtain ⟨_, hsame, hdelete⟩ := deleteUnusedStrings_of_check hcheck
        cases husers.symm.trans hsame
        rw [changeVersionTo, hcall]
        change Except.bind changed.deleteUnusedStrings _ = _
        rw [hdelete]
        rfl
      · cases hchanged
    · cases hchanged
  · cases hchanged

theorem exists_changes {file : LoadedFile}
    (hchanged : (versions.foldlM changed? file).isSome = true) :
    ∃ after, Changes file versions after := by
  induction versions generalizing file with
  | nil => exact ⟨file, .none file⟩
  | cons version rest ih =>
      rw [List.foldlM_cons] at hchanged
      cases hcall : file.changed? version with
      | none =>
          rw [hcall] at hchanged
          cases hchanged
      | some changed =>
          rw [hcall] at hchanged
          obtain ⟨after, hafter⟩ := ih hchanged
          exact ⟨after, .change true false (changeVersionTo_of_changed hcall) hafter⟩

/-- The names behind changes of a new scenario to the original version and to
the expansion. -/
theorem savesRight_iff_original : ∃ after, Changes (newScenario [] 0 64 64) [59, 205] after ∧
      (∀ name, name ∈ after.savedNames ↔ name ∈ sectionsOfVersion 205) ∧
      (after.SavesRight 205 ↔ starCraftHybrid ≤ 205) := by
  obtain ⟨after, hchanges⟩ := @exists_changes [59, 205] (newScenario [] 0 64 64) (by decide +kernel)
  exact ⟨after, hchanges, savesRight_iff hchanges (List.cons_ne_nil _ _)⟩

/-- A new scenario that becomes an original one is saved with UPGx. -/
theorem original_saves_upgx : ∃ after, Changes (newScenario [] 0 64 64) [59] after ∧
      ¬ after.SavesRight 59 := by
  obtain ⟨after, hchanges⟩ := @exists_changes [59] (newScenario [] 0 64 64) (by decide +kernel)
  refine ⟨after, hchanges, ?_⟩
  intro hright
  have hnames := hchanges.savedNames (tracked_newScenario [] 0 64 64) (List.cons_ne_nil _ _)
  apply hright.1 (by decide) (.struct .upgx) (by decide)
  rw [hnames]
  exact upgx_mem_sectionsOfVersion _

end LoadedFile

end Chkdraft.Scenario
