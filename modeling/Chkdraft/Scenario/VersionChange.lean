import Chkdraft.Scenario.KeptSections
import Chkdraft.Scenario.NewScenario
import Chkdraft.Scenario.TrimLocations

/-!
# Changing the version of a scenario

`Versions::changeTo` writes the new version into VER before it asks whether the
locations can be trimmed, and a refusal leaves it there.  `changeVersionTo` then
deletes unused strings and adjusts which sections are saved.
-/

namespace Chkdraft.Scenario

open Binary Chk Sections

variable {content : StructSection} {value width : ℕ} {name : StructName}

/-- `Chk::Version::StarCraft_Hybrid`. -/
def starCraftHybrid : UInt16 := 63

/-- `Chk::Version::StarCraft_BroodWar`. -/
def starCraftBroodWar : UInt16 := 205

namespace LoadedFile

def objectName (file : LoadedFile) (handle : ℕ) : Option SectionName :=
  file.objects[handle]?.map Section.name

/-- `Scenario::addSection` for a section of the scenario. -/
def addSection (file : LoadedFile) (name : SectionName) : LoadedFile :=
  match file.pointer name with
  | none => file
  | some handle =>
      if handle ∈ file.allSections then file
      else { file with allSections := file.allSections ++ [handle] }

/-- `Scenario::removeSection`. -/
def removeSection (file : LoadedFile) (name : SectionName) : LoadedFile :=
  { file with
    allSections := file.allSections.filter fun handle =>
      file.objectName handle ≠ some name }

/-- Store a number at the start of a structure section. -/
def setStructWord (file : LoadedFile) (name : StructName)
    (width value : ℕ) : Except (Fault Exception) LoadedFile := do
  let content ← file.structAt name
  match file.pointer (.struct name) with
  | some handle =>
      pure (file.setObject handle (.struct (setWord content width 0 value)))
  | none => .error (.hazard .undefinedBehavior)

/-- The scenario with other content behind a section pointer. -/
def setSection (file : LoadedFile) (name : SectionName) (content : Section) : LoadedFile :=
  match file.pointer name with
  | some handle => file.setObject handle content
  | none => file

/-- `Layers::trimLocationsToOriginal`. -/
def trimLocationsToOriginal (file : LoadedFile) (lockAnywhere : Bool) :
    Except (Fault Exception) (Bool × LoadedFile) :=
  match file.section? .mrgn, file.section? .trig with
  | some (.mrgn locations), some (.trig triggers) => do
      let (fits, locations, triggers) ←
        Fault.ofHazard (trimToOriginal locations triggers lockAnywhere)
      pure (fits, (file.setSection .mrgn (.mrgn locations)).setSection .trig (.trig triggers))
  | _, _ => .error (.hazard .undefinedBehavior)

/-- `Layers::expandToScHybridOrExpansion`. -/
def expandToScHybridOrExpansion (file : LoadedFile) : Except (Fault Exception) LoadedFile :=
  match file.section? .mrgn with
  | some (.mrgn locations) =>
      .ok (file.setSection .mrgn (.mrgn (locations ++ List.replicate
        (totalLocations + 1 - locations.length) (some blankLocation))))
  | _ => .error (.hazard .undefinedBehavior)

/-- The steps of `Versions::changeTo` for a version from Hybrid on, with the
scenario type of that version. -/
def changeToExpansion (file : LoadedFile) (scenarioType : ℕ) :
    Except (Fault Exception) LoadedFile := do
  let file ← file.setStructWord .type 4 scenarioType
  let file ← file.setStructWord .iver 2 10
  let file ← file.setStructWord .ive2 2 11
  file.expandToScHybridOrExpansion

/-- `Versions::changeTo`. -/
def changeTo (file : LoadedFile) (version : UInt16) (lockAnywhere _autoDefragmentLocations : Bool) :
    Except (Fault Exception) (Bool × LoadedFile) := do
  let file ← file.setStructWord .ver 2 version.toNat
  if version < starCraftHybrid then
    let (fits, file) ← file.trimLocationsToOriginal lockAnywhere
    if fits then
      let file ← file.setStructWord .type 4 0x53574152
      let file ← file.setStructWord .iver 2 10
      pure (true, file)
    else
      pure (false, file)
  else if version < starCraftBroodWar then
    let file ← file.changeToExpansion 0x53574152
    pure (true, file)
  else
    let file ← file.changeToExpansion 0x42574152
    pure (true, file)

/-- The sections `changeVersionTo` removes and then adds, in its order. -/
def changeSaveSections (file : LoadedFile) (version : UInt16) : LoadedFile :=
  let file :=
    if version < starCraftBroodWar then
      let file :=
        if version < starCraftHybrid then
          [SectionName.struct .type, .struct .pupx, .struct .ptex,
            .struct .unix, .struct .tecx].foldl removeSection file
        else
          file
      let file := file.removeSection (.struct .colr)
      [SectionName.struct .iver, .struct .upgr, .struct .ptec, .struct .unis,
        .struct .upgs, .struct .tecs].foldl addSection file
    else
      let file := [SectionName.struct .iver, .struct .upgr, .struct .ptec,
        .struct .unis, .struct .upgs, .struct .tecs].foldl removeSection file
      file.addSection (.struct .colr)
  if starCraftHybrid ≤ version then
    [SectionName.struct .type, .struct .pupx, .struct .ptex, .struct .unix,
      .struct .upgx, .struct .tecx].foldl addSection file
  else
    file

/-- `Scenario::changeVersionTo`.  Strings are deleted and the sections to save
changed only if `changeTo` succeeds. -/
def changeVersionTo (file : LoadedFile) (version : UInt16)
    (lockAnywhere autoDefragmentLocations : Bool) :
    Except (Fault Exception) (Bool × LoadedFile) := do
  let (changed, file) ← file.changeTo version lockAnywhere autoDefragmentLocations
  if changed then
    let file ← file.deleteUnusedStrings
    pure (true, file.changeSaveSections version)
  else
    pure (false, file)

/-! ## Refusals -/

/-- A refused change leaves the scenario as it was. -/
def ChangesAtomically (file : LoadedFile) (version : UInt16)
    (lockAnywhere autoDefragmentLocations : Bool) : Prop :=
  (∀ after, file.changeTo version lockAnywhere autoDefragmentLocations =
      .ok (false, after) → after = file) ∧
    ∀ after, file.changeVersionTo version lockAnywhere
      autoDefragmentLocations = .ok (false, after) → after = file

/-- The condition on a change to the original version: the locations can be
trimmed, or the scenario has that version already. -/
def AtomicWhen (file : LoadedFile) (version : UInt16) (lockAnywhere : Bool) : Prop :=
  version < starCraftHybrid → ∀ ver locations triggers, file.structAt .ver = .ok ver →
    file.section? .mrgn = some (.mrgn locations) →
    file.section? .trig = some (.trig triggers) →
    (totalOriginalLocations < locations.length ∧
      locationsFitOriginal locations triggers lockAnywhere = true) ∨
    wordAt 2 ver.rawData 0 = version.toNat

end LoadedFile

theorem setWord_eq_self_iff (hfits : width ≤ content.rawData.length)
    (hvalue : value < 256 ^ width) :
    setWord content width 0 value = content ↔ wordAt width content.rawData 0 = value := by
  have hlength : (overwrite content.rawData 0
      (littleEndian width value)).length = content.rawData.length :=
    length_overwrite (by rwa [length_littleEndian, Nat.zero_add])
  have hsplit : content.rawData = content.rawData.take width ++ content.rawData.drop width :=
    (List.take_append_drop width _).symm
  have hraw : (setWord content width 0 value).rawData =
      littleEndian width value ++ content.rawData.drop width := by
    rw [setWord]
    simp only
    rw [← hlength, List.take_length, overwrite_zero, length_littleEndian]
  have hself : setWord content width 0 value = content ↔
      (setWord content width 0 value).rawData = content.rawData := by
    constructor
    · intro heq
      rw [heq]
    · intro heq
      cases content
      simp only [setWord] at heq ⊢
      simp only [heq]
  rw [hself, hraw, wordAt, List.drop_zero]
  constructor
  · intro heq
    rw [hsplit] at heq
    have hfront := List.append_inj_left heq (by
      rw [length_littleEndian, List.length_take, Nat.min_eq_left hfits])
    rw [← hfront, littleEndianValue_littleEndian, Nat.mod_eq_of_lt hvalue]
  · intro heq
    have hbytes := littleEndian_littleEndianValue (content.rawData.take width)
    rw [heq, List.length_take, Nat.min_eq_left hfits] at hbytes
    rw [hbytes, ← hsplit]

namespace LoadedFile

variable {file marked after : LoadedFile} {version : UInt16}
  {lockAnywhere autoDefragmentLocations : Bool}

theorem setObject_eq_self_iff {handle : ℕ} {old new : Section}
    (hobject : file.objects[handle]? = some old) :
    file.setObject handle new = file ↔ new = old := by
  obtain ⟨hlt, heq⟩ := List.getElem?_eq_some_iff.mp hobject
  constructor
  · intro hsame
    have hnew : (file.setObject handle new).objects[handle]? = some new :=
      List.getElem?_set_self hlt
    rw [hsame, hobject] at hnew
    exact (Option.some.inj hnew).symm
  · rintro rfl
    rw [setObject, ← heq, List.set_getElem_self]

theorem setSection_eq_self {name : SectionName} {content : Section}
    (hcontent : file.section? name = some content) :
    file.setSection name content = file := by
  cases hpointer : file.pointer name with
  | none => rw [setSection, hpointer]
  | some handle =>
      rw [section_eq hpointer] at hcontent
      rw [setSection, hpointer]
      exact (setObject_eq_self_iff hcontent).mpr rfl

theorem struct?_eq_some_iff : file.struct? name = some content ↔
      file.section? (.struct name) = some (.struct content) := by
  unfold struct?
  split
  · rename_i other hother
    rw [hother, Option.some_inj, Option.some_inj, Section.struct.injEq]
  · rename_i hnone
    exact iff_of_false (fun h => by cases h) (hnone content)

theorem structAt_eq_ok_iff : file.structAt name = .ok content ↔
      file.section? (.struct name) = some (.struct content) ∧ content.dataValid = true := by
  rw [← struct?_eq_some_iff, structAt]
  split
  · rename_i other hother
    rw [hother]
    split
    · rename_i hvalid
      constructor
      · intro heq
        cases heq
        exact ⟨rfl, hvalid⟩
      · rintro ⟨heq, -⟩
        cases heq
        rfl
    · rename_i hinvalid
      apply iff_of_false
      · intro heq
        cases heq
      · rintro ⟨heq, hvalid⟩
        cases heq
        exact hinvalid hvalid
  · rename_i hnone
    rw [hnone]
    exact iff_of_false (fun h => by cases h) fun h => by cases h.1

theorem setStructWord_eq_ok_iff : file.setStructWord name width value = .ok marked ↔
      ∃ content handle, file.structAt name = .ok content ∧
        file.pointer (.struct name) = some handle ∧
        marked = file.setObject handle (.struct (setWord content width 0 value)) := by
  rw [setStructWord, Fault.bind_eq_ok_iff]
  constructor
  · rintro ⟨content, hcontent, hrest⟩
    split at hrest
    · rename_i handle hpointer
      cases hrest
      exact ⟨content, handle, hcontent, hpointer, rfl⟩
    · cases hrest
  · rintro ⟨content, handle, hcontent, hpointer, rfl⟩
    refine ⟨content, hcontent, ?_⟩
    rw [hpointer]
    rfl

theorem exists_setStructWord (hcontent : file.structAt name = .ok content) (width value : ℕ) :
    ∃ marked, file.setStructWord name width value = .ok marked := by
  cases hpointer : file.pointer (.struct name) with
  | some handle =>
      exact ⟨_, setStructWord_eq_ok_iff.mpr ⟨content, handle, hcontent, hpointer, rfl⟩⟩
  | none =>
      have hsection := (structAt_eq_ok_iff.mp hcontent).1
      rw [section?, hpointer] at hsection
      cases hsection

theorem section_setStructWord (hmarked : file.setStructWord name width value = .ok marked)
    {other : SectionName}
    (hclass : (∀ content, file.section? other ≠ some (.struct content)) ∨
      ∀ content, marked.section? other ≠ some (.struct content)) :
    marked.section? other = file.section? other := by
  obtain ⟨content, handle, hcontent, hpointer, rfl⟩ := setStructWord_eq_ok_iff.mp hmarked
  apply section_setObject_of_ne
  intro hsame
  rw [structAt_eq_ok_iff, section_eq hpointer] at hcontent
  rcases hclass with hclass | hclass
  · apply hclass content
    rw [section_eq hsame, hcontent.1]
  · apply hclass (setWord content width 0 value)
    rw [section_eq (by exact hsame)]
    exact List.getElem?_set_self (List.getElem?_eq_some_iff.mp hcontent.1).1

/-- Trimming refuses on few locations and on locations that do not fit. -/
theorem trimLocationsToOriginal_false_iff :
    file.trimLocationsToOriginal lockAnywhere = .ok (false, after) ↔
      after = file ∧ ∃ locations triggers, file.section? .mrgn = some (.mrgn locations) ∧
        file.section? .trig = some (.trig triggers) ∧
        ¬ (totalOriginalLocations < locations.length ∧
          locationsFitOriginal locations triggers lockAnywhere = true) := by
  unfold trimLocationsToOriginal
  split
  · rename_i locations triggers hmrgn htrig
    have hsame : (file.setSection .mrgn (.mrgn locations)).setSection .trig
        (.trig triggers) = file := by
      rw [setSection_eq_self hmrgn, setSection_eq_self htrig]
    rw [Fault.bind_eq_ok_iff]
    constructor
    · rintro ⟨⟨fits, trimmed, remapped⟩, hcall, hresult⟩
      cases hresult
      rw [Fault.ofHazard_eq_ok_iff, trimToOriginal_false_iff] at hcall
      obtain ⟨hrefuses, rfl, rfl⟩ := hcall
      exact ⟨hsame, trimmed, remapped, hmrgn, htrig, hrefuses⟩
    · rintro ⟨rfl, otherLocations, otherTriggers, hother, hotherTrig, hrefuses⟩
      rw [hmrgn, Option.some_inj, Section.mrgn.injEq] at hother
      rw [htrig, Option.some_inj, Section.trig.injEq] at hotherTrig
      subst hother
      subst hotherTrig
      refine ⟨(false, locations, triggers), ?_, ?_⟩
      · rw [Fault.ofHazard_eq_ok_iff, trimToOriginal_false_iff]
        exact ⟨hrefuses, rfl, rfl⟩
      · simp only [hsame]
        rfl
  · rename_i hnot
    apply iff_of_false
    · intro hcall
      cases hcall
    · rintro ⟨-, locations, triggers, hmrgn, htrig, -⟩
      exact hnot locations triggers hmrgn htrig

theorem changeToExpansion_ne_false {scenarioType : ℕ} : (do
      let file ← file.changeToExpansion scenarioType
      pure (true, file) : Except (Fault Exception) (Bool × LoadedFile)) ≠
      .ok (false, after) := by
  intro hcall
  rw [Fault.bind_eq_ok_iff] at hcall
  obtain ⟨expanded, -, hresult⟩ := hcall
  cases hresult

theorem changeTo_false_iff : file.changeTo version lockAnywhere autoDefragmentLocations =
        .ok (false, after) ↔
      version < starCraftHybrid ∧ ∃ marked, file.setStructWord .ver 2 version.toNat = .ok marked ∧
        marked.trimLocationsToOriginal lockAnywhere = .ok (false, after) := by
  rw [changeTo, Fault.bind_eq_ok_iff]
  constructor
  · rintro ⟨marked, hmarked, hrest⟩
    split at hrest
    · rename_i hversion
      rw [Fault.bind_eq_ok_iff] at hrest
      obtain ⟨⟨fits, trimmed⟩, htrim, hresult⟩ := hrest
      cases fits with
      | true =>
          simp only [if_true, Fault.bind_eq_ok_iff] at hresult
          obtain ⟨typed, -, versioned, -, hresult⟩ := hresult
          cases hresult
      | false =>
          cases hresult
          exact ⟨hversion, marked, hmarked, htrim⟩
    · split at hrest
      · exact absurd hrest changeToExpansion_ne_false
      · exact absurd hrest changeToExpansion_ne_false
  · rintro ⟨hversion, marked, hmarked, htrim⟩
    refine ⟨marked, hmarked, ?_⟩
    rw [if_pos hversion, Fault.bind_eq_ok_iff]
    exact ⟨(false, after), htrim, rfl⟩

theorem changeVersionTo_false_iff :
    file.changeVersionTo version lockAnywhere autoDefragmentLocations = .ok (false, after) ↔
      file.changeTo version lockAnywhere autoDefragmentLocations = .ok (false, after) := by
  rw [changeVersionTo, Fault.bind_eq_ok_iff]
  constructor
  · rintro ⟨⟨changed, middle⟩, hchange, hresult⟩
    cases changed with
    | true =>
        simp only [if_true, Fault.bind_eq_ok_iff] at hresult
        obtain ⟨cleaned, -, hresult⟩ := hresult
        cases hresult
    | false =>
        cases hresult
        exact hchange
  · intro hchange
    exact ⟨(false, after), hchange, rfl⟩

theorem two_le_rawData (content : StructSection) : 2 ≤ content.rawData.length := by
  have hname : 2 ≤ content.name.size := by
    cases content.name <;> decide
  exact hname.trans content.size_le

/-- Writing the version changes nothing if it is there already. -/
theorem setStructWord_ver_eq_self_iff
    (hmarked : file.setStructWord .ver 2 version.toNat = .ok marked) :
    marked = file ↔ ∀ ver, file.structAt .ver = .ok ver →
      wordAt 2 ver.rawData 0 = version.toNat := by
  obtain ⟨ver, handle, hver, hpointer, rfl⟩ := setStructWord_eq_ok_iff.mp hmarked
  have hobject := (structAt_eq_ok_iff.mp hver).1
  rw [section_eq hpointer] at hobject
  have hword := setWord_eq_self_iff (two_le_rawData ver)
    (show version.toNat < 256 ^ 2 from version.toNat_lt)
  rw [setObject_eq_self_iff hobject, Section.struct.injEq, hword]
  constructor
  · intro hsame other hother
    rw [hver] at hother
    cases hother
    exact hsame
  · intro hsame
    exact hsame ver hver

theorem changesAtomically_iff_changeTo :
    file.ChangesAtomically version lockAnywhere autoDefragmentLocations ↔
      ∀ after, file.changeTo version lockAnywhere autoDefragmentLocations =
        .ok (false, after) → after = file := by
  constructor
  · exact fun hatomic => hatomic.1
  · intro hatomic
    refine ⟨hatomic, fun after hcall => hatomic after ?_⟩
    exact changeVersionTo_false_iff.mp hcall

theorem atomicWhen_of_changesAtomically (hatomic : file.ChangesAtomically version lockAnywhere
      autoDefragmentLocations) : file.AtomicWhen version lockAnywhere := by
  intro hversion ver locations triggers hver hmrgn htrig
  by_contra hrefuses
  rw [not_or] at hrefuses
  obtain ⟨hrefuses, hdiffers⟩ := hrefuses
  obtain ⟨marked, hmarked⟩ := exists_setStructWord hver 2 version.toNat
  have hmrgnMarked : marked.section? .mrgn = some (.mrgn locations) := by
    rw [section_setStructWord hmarked (.inl (by simp [hmrgn])), hmrgn]
  have htrigMarked : marked.section? .trig = some (.trig triggers) := by
    rw [section_setStructWord hmarked (.inl (by simp [htrig])), htrig]
  have hsame : marked = file := by
    apply hatomic.1
    exact changeTo_false_iff.mpr ⟨hversion, marked, hmarked, trimLocationsToOriginal_false_iff.mpr
        ⟨rfl, locations, triggers, hmrgnMarked, htrigMarked, hrefuses⟩⟩
  exact hdiffers ((setStructWord_ver_eq_self_iff hmarked).mp hsame ver hver)

/-- Changing the version is atomic for exactly these scenarios. -/
theorem changesAtomically_iff (file : LoadedFile) (version : UInt16)
    (lockAnywhere autoDefragmentLocations : Bool) :
    file.ChangesAtomically version lockAnywhere autoDefragmentLocations ↔
      file.AtomicWhen version lockAnywhere := by
  constructor
  · exact atomicWhen_of_changesAtomically
  · intro hwhen
    rw [changesAtomically_iff_changeTo]
    intro after hcall
    obtain ⟨hversion, marked, hmarked, htrim⟩ := changeTo_false_iff.mp hcall
    obtain ⟨rfl, locations, triggers, hmrgn, htrig, hrefuses⟩ :=
      trimLocationsToOriginal_false_iff.mp htrim
    rw [setStructWord_ver_eq_self_iff hmarked]
    intro ver hver
    rw [section_setStructWord hmarked (.inr (by simp [hmrgn]))] at hmrgn
    rw [section_setStructWord hmarked (.inr (by simp [htrig]))] at htrig
    exact (hwhen hversion ver locations triggers hver hmrgn htrig).resolve_left hrefuses

/-- A new map of which every location is used. -/
def crowdedScenario : LoadedFile := (newScenario [] 0 64 64).setSection .mrgn
    (.mrgn (none :: List.replicate 255 (some ⟨0, 0, 32, 32, 0, 0⟩)))

/-- It cannot become an original map, and still gets that version. -/
theorem changeVersionTo_keeps_version : ¬ crowdedScenario.ChangesAtomically 59 true false := by
  intro hatomic
  have hwhen := atomicWhen_of_changesAtomically hatomic (by decide)
    (structOf .ver (littleEndian 2 63))
    (none :: List.replicate 255 (some ⟨0, 0, 32, 32, 0, 0⟩)) [] rfl rfl rfl
  revert hwhen
  decide +kernel

end LoadedFile

end Chkdraft.Scenario
