import Chkdraft.Scenario.SaveLoad

/-!
# Whether a loaded scenario is complete

`Scenario::read` demands a VER section and puts defaults in place of some other
sections, but not of all that the rest of the program follows pointers to.  Its
last steps look at the trigger a KTRG entry asks for without comparing the
number with the length of the list.
-/

namespace Chkdraft.Scenario

open Binary Chk Sections

variable {size sizeRead : ℕ} {chk : InputStream} {code : UInt32} {content : Section}
  {triggers : List Trigger} {entries : List (Option ExtendedTrigData)}
  {editor : EditorStrings} {hazard : Hazard}

variable {handle position : ℕ} {state : LoadState} {name : SectionName}

/-- The extended data of every section object is at usable indexes. -/
def UsableTables (objects : List Section) : Prop :=
  ∀ table, .ktrg table ∈ objects → UsableEntries table.extendedTrigData

theorem usableEntries_read {table : KtrgSection}
    (hresult : ((Section.allocate .ktrg).read size false chk).result =
      .ok (.ktrg table, sizeRead)) : UsableEntries table.extendedTrigData := by
  obtain ⟨inner, hinner, hsame⟩ := result_map_eq_ok hresult
  cases hsame
  unfold KtrgSection.read at hinner
  split at hinner
  · simp only at hinner
    split at hinner
    · split at hinner
      · cases hinner
      · rw [← eq_of_ok_eq_ok hinner]
        exact usableEntries_loadEntries _
    · rw [← eq_of_ok_eq_ok hinner]
      exact usableEntries_nil
  · rw [← eq_of_ok_eq_ok hinner]
    exact usableEntries_nil

/-- Only names that append or override are read into an object again. -/
theorem ofCode_ne_ktrg_of_existing {parsed : List (UInt32 × ℕ)}
    (hexisting : existingIn parsed code = some handle) :
    SectionName.ofCode code ≠ .ktrg := by
  intro hktrg
  rw [existingIn, if_pos (by rw [hktrg]; rfl)] at hexisting
  cases hexisting

theorem usableTables_addSection (hconsistent : Consistent state)
    (husable : UsableTables state.objects)
    (hresult : (state.readSection code size chk).2.result = .ok (content, sizeRead)) :
    UsableTables (state.addSection code size (state.readSection code size chk).1
      (state.readSection code size chk).2 content sizeRead).objects := by
  rcases readSection_cases hconsistent.namesMatch code size chk with
    ⟨handle, old, hexisting, hobject, hold, hread⟩ | ⟨hexisting, hread⟩
  · rw [hread] at hresult ⊢
    have hlt := (List.getElem?_eq_some_iff.mp hobject).1
    have hobjects : (state.addSection code size handle
        (old.read size true chk) content sizeRead).objects =
        state.objects.set handle content := if_pos hlt
    intro table htable
    rw [hobjects] at htable
    rcases List.mem_or_eq_of_mem_set htable with hbefore | rfl
    · exact husable table hbefore
    · have hname := (name_of_read hresult).trans hold
      exact absurd hname.symm (ofCode_ne_ktrg_of_existing hexisting)
  · rw [hread] at hresult ⊢
    have hobjects : (state.addSection code size state.objects.length
        ((Section.allocate (.ofCode code)).read size false chk) content
        sizeRead).objects = state.objects ++ [content] :=
      if_neg (lt_irrefl _)
    intro table htable
    rw [hobjects] at htable
    rcases List.mem_append.mp htable with hbefore | hnew
    · exact husable table hbefore
    · obtain rfl := List.mem_singleton.mp hnew
      have hname := (name_of_read hresult).trans (Section.name_allocate (.ofCode code))
      rw [← hname] at hresult
      exact usableEntries_read hresult

theorem usableTables_of_pass {following : LoadState}
    (hconsistent : Consistent state) (husable : UsableTables state.objects)
    (hpass : sectionPass state = .next following ∨ sectionPass state = .done (some following)) :
    UsableTables following.objects := by
  rcases sectionPass_cases hpass with ⟨hobjects, -, -⟩ |
    ⟨code, size, chk, content, sizeRead, hresult, rfl⟩
  · rw [hobjects]
    exact husable
  · exact usableTables_addSection hconsistent husable hresult

theorem usableTables_of_returns {bytes : List UInt8}
    (hreturns : Loop.Returns sectionPass (LoadState.start bytes) (some state)) :
    UsableTables state.objects := by
  obtain ⟨last, hreaches, hdone⟩ := Loop.returns_iff_reaches_done.mp hreturns
  have hstart : UsableTables (LoadState.start bytes).objects := by
    intro table htable
    cases htable
  have hlast : Consistent last ∧ UsableTables last.objects := by
    refine @Loop.Reaches.invariant _ _ _ _ _
      (fun state => Consistent state ∧ UsableTables state.objects) hreaches
      ⟨consistent_start bytes, hstart⟩ ?_
    intro state following hstate hnext
    exact ⟨consistent_of_pass hstate.1 (Or.inl hnext),
      usableTables_of_pass hstate.1 hstate.2 (Or.inl hnext)⟩
  exact usableTables_of_pass hlast.1 hlast.2 (Or.inr hdone)

/-- The sections `Strings::markUsedStrings` follows pointers to. -/
def markUsedStringsSections : List SectionName :=
  [.struct .sprp, .struct .forc, .struct .unis, .struct .unix, .struct .wav,
    .struct .swnm, .trig, .mbrf, .mrgn, .struct .ostr, .ktrg]

/-- The sections `Strings::deleteUnusedStrings` follows pointers to. -/
def deleteUnusedStringsSections : List SectionName := [.str, .kstr] ++ markUsedStringsSections

/-- The sections `Terrain::setDimensions` follows pointers to. -/
def setDimensionsSections : List SectionName := [.struct .dim, .isom, .tile, .mtxm]

/-- The sections `Layers::validateSizes` follows pointers to. -/
def validateSizesSections : List SectionName := [.struct .dim, .mrgn, .dd2, .unit, .thg2]

/-- The sections `Triggers::fixTriggerExtensions` follows pointers to. -/
def fixTriggerExtensionsSections : List SectionName := [.trig, .ktrg]

def followedSections : List SectionName := markUsedStringsSections ++ deleteUnusedStringsSections ++
    setDimensionsSections ++ validateSizesSections ++
    fixTriggerExtensionsSections

/-- The followed sections that have no default. -/
def undefaultedSections : List SectionName :=
  [.struct .sprp, .struct .forc, .struct .dim, .mtxm, .unit, .thg2]

theorem sound_setTriggerExtension (hlt : position < triggers.length) (stringId : ℕ)
    (change : ExtendedTrigData → ExtendedTrigData) :
    Fault.Sound (fun changed => changed.1.length = triggers.length)
      (setTriggerExtension triggers entries position stringId change) := by
  cases hresult : setTriggerExtension triggers entries position stringId
      change with
  | ok changed => exact length_setTriggerExtension hresult
  | error error =>
      cases error with
      | thrown exception => trivial
      | hazard hazard =>
          unfold setTriggerExtension at hresult
          simp only [List.getElem?_eq_getElem hlt] at hresult
          split at hresult
          · split at hresult
            · cases hresult
            · cases hresult
          · split at hresult
            · cases hresult
            · split at hresult
              · cases hresult
              · cases hresult

theorem sound_upgradeActionString (editor : EditorStrings) (index : ℕ)
    (action : Action) {state : TriggerUpgrade}
    (hlt : position < state.triggers.length) :
    Fault.Sound (fun later => later.triggers.length = state.triggers.length)
      (upgradeActionString editor position index action state) := by
  unfold upgradeActionString
  simp only
  split
  · split
    · refine (sound_setTriggerExtension hlt _ _).bind ?_
      intro changed _ hlength
      exact (length_changeAction _ _ _ _).trans hlength
    · split
      · refine (sound_setTriggerExtension hlt _ _).bind ?_
        intro changed _ hlength
        exact (length_changeAction _ _ _ _).trans hlength
      · exact length_changeAction _ _ _ _
  · rfl

theorem sound_upgradeAction (editor : EditorStrings) (index : ℕ)
    {state : TriggerUpgrade} (hlt : position < state.triggers.length) :
    Fault.Sound (fun later => later.triggers.length = state.triggers.length)
      (upgradeAction editor position state index) := by
  unfold upgradeAction
  refine (sound_upgradeActionString editor index _ hlt).bind ?_
  intro middle _ hmiddle
  split
  · exact (length_changeAction _ _ _ _).trans hmiddle
  · exact hmiddle

theorem sound_upgradeTrigger (editor : EditorStrings)
    {links : List Trigger × List (Option ExtendedTrigData)}
    (hlt : position < links.1.length) :
    Fault.Sound (fun later => later.1.length = links.1.length)
      (upgradeTrigger editor links position) := by
  unfold upgradeTrigger
  refine (Fault.sound_foldlM (fun state : TriggerUpgrade => state.triggers.length = links.1.length)
    rfl ?_).bind ?_
  · intro state index _ hstate
    have hinside : position < state.triggers.length := by omega
    have hsound := sound_upgradeAction editor index hinside
    rw [hstate] at hsound
    exact hsound
  · intro state _ hstate
    exact hstate

/-- Every structure section has its data where its pointer says. -/
def DataValid (file : LoadedFile) : Prop :=
  ∀ content, .struct content ∈ file.objects → content.dataValid = true

/-- The loop over `allSections` of `Scenario::upgradeKstrToCurrent`. -/
def LoadedFile.upgradeSections (file : LoadedFile) : Except (Fault Exception) LoadedFile :=
  file.allSections.foldlM (upgradeSection ⟨file.strStrings.length, file.kstrTable.strings⟩) file

section Upgrade

variable {start file : LoadedFile}

theorem DataValid.setObject (hvalid : DataValid file) (handle : ℕ)
    (hcontent : ∀ inner, content = .struct inner → inner.dataValid = true) :
    DataValid (file.setObject handle content) := by
  intro inner hmem
  rcases List.mem_or_eq_of_mem_set hmem with hbefore | heq
  · exact hvalid inner hbefore
  · exact hcontent inner heq.symm

theorem DataValid.setTriggers (hvalid : DataValid file)
    (triggers : List Trigger) (entries : List (Option ExtendedTrigData)) :
    DataValid (file.setTriggers triggers entries) := by
  unfold LoadedFile.setTriggers
  split
  · apply DataValid.setObject
    · exact hvalid.setObject _ fun inner h => by cases h
    · intro inner h
      cases h
  · exact hvalid

theorem DataValid.setKstr (hvalid : DataValid file) (kstr : KstrSection) :
    DataValid (file.setKstr kstr) := by
  unfold LoadedFile.setKstr
  split
  · exact hvalid.setObject _ fun inner h => by cases h
  · exact hvalid

/-- A structure section that is there can be dereferenced. -/
theorem DataValid.structAt (hvalid : DataValid file) (hclassed : Classed file)
    {name : StructName}
    (hproper : SectionName.ofCode (SectionName.struct name).code = .struct name)
    (hthere : file.pointer (.struct name) ≠ none) :
    ∃ content, file.structAt name = .ok content ∧ content.dataValid = true := by
  obtain ⟨handle, hpointer⟩ := Option.ne_none_iff_exists'.mp hthere
  obtain ⟨content, hcontent, hname⟩ := hclassed _ handle hproper hpointer
  obtain ⟨inner, rfl, -⟩ := struct_of_name hname
  have hdata := hvalid inner (List.mem_of_getElem? hcontent)
  refine ⟨inner, ?_, hdata⟩
  have hstruct : file.struct? name = some inner := by
    rw [LoadedFile.struct?, section_eq hpointer, hcontent]
  rw [LoadedFile.structAt, hstruct]
  exact if_pos hdata

/-- What the rounds of the upgrade keep. -/
structure Upgradable (start file : LoadedFile) : Prop where
  kept : Kept start file
  valid : DataValid file

theorem Upgradable.sound {result : Except (Fault Exception) LoadedFile}
    (hvalid : Fault.Sound DataValid result)
    (hkept : ∀ later, result = .ok later → Kept start later) :
    Fault.Sound (Upgradable start) result := by
  cases result with
  | ok later => exact ⟨hkept later rfl, hvalid⟩
  | error error =>
      cases error with
      | thrown exception => trivial
      | hazard hazard => exact hvalid

variable (hclassed : Classed start) (hostr : start.pointer (.struct .ostr) ≠ none)

include hclassed hostr

theorem Upgradable.setOstrWord (hupgradable : Upgradable start file) (offset value : ℕ) :
    Fault.Sound DataValid (file.setOstrWord offset value) := by
  have hthere : file.pointer (.struct .ostr) ≠ none := by
    rw [hupgradable.kept.pointer_eq]
    exact hostr
  obtain ⟨ostr, hfound, hdata⟩ := hupgradable.valid.structAt
    (hupgradable.kept.classed hclassed) (by decide) hthere
  obtain ⟨handle, hpointer⟩ := Option.ne_none_iff_exists'.mp hthere
  rw [LoadedFile.setOstrWord, hfound, hpointer]
  apply hupgradable.valid.setObject
  intro inner h
  cases h
  exact hdata

section

variable (hupgradable : Upgradable start file)

include hupgradable

theorem Upgradable.upgradeLocation (hhandle : handle ∈ start.allSections) (locationId : ℕ) :
    Fault.Sound (Upgradable start) (upgradeLocation editor handle file locationId) := by
  apply Upgradable.sound
  · unfold Scenario.upgradeLocation
    split
    · split
      · simp only
        split
        · split
          · refine (hupgradable.setOstrWord hclassed hostr _ _).bind ?_
            intro middle _ hmiddle
            exact hmiddle.setObject _ fun inner h => by cases h
          · trivial
        · exact hupgradable.valid
      · exact hupgradable.valid
    · exact hupgradable.valid
  · intro later hlater
    exact hupgradable.kept.upgradeLocation hclassed hhandle hlater

theorem Upgradable.upgradeName {fields : NameFields} (hhandle : handle ∈ start.allSections)
    (hfields : ∀ content, file.objects[handle]? = some (.struct content) →
      nameFields content.name = some fields) (index : ℕ) :
    Fault.Sound (Upgradable start) (upgradeName editor handle fields file index) := by
  apply Upgradable.sound
  · unfold Scenario.upgradeName
    split
    · rename_i content hcontent
      have hdata := hupgradable.valid content (List.mem_of_getElem? hcontent)
      rw [if_pos hdata]
      simp only
      split
      · refine (hupgradable.setOstrWord hclassed hostr _ _).bind ?_
        intro middle _ hmiddle
        apply hmiddle.setObject
        intro inner h
        cases h
        exact hdata
      · exact hupgradable.valid
    · exact hupgradable.valid
  · intro later hlater
    exact hupgradable.kept.upgradeName hclassed hhandle hfields hlater

theorem Upgradable.upgradeSection (editor : EditorStrings) (hhandle : handle ∈ start.allSections) :
    Fault.Sound (Upgradable start) (upgradeSection editor file handle) := by
  unfold Scenario.upgradeSection
  split
  · refine (Fault.sound_foldlM (fun links : List Trigger × List (Option ExtendedTrigData) =>
        links.1.length = file.trigTriggers.length) rfl ?_).bind ?_
    · intro links position hposition hlinks
      have hlt := List.mem_range.mp hposition
      have hsound := sound_upgradeTrigger editor (hlt.trans_eq hlinks.symm)
      rw [hlinks] at hsound
      exact hsound
    · intro links _ hlinks
      exact ⟨hupgradable.kept.setTriggers hclassed _ hlinks, hupgradable.valid.setTriggers _ _⟩
  · rename_i triggers htriggers
    refine ⟨hupgradable.kept.replace hupgradable.kept hhandle htriggers trivial ⟨rfl, rfl⟩, ?_⟩
    exact hupgradable.valid.setObject _ fun inner h => by cases h
  · apply Fault.sound_foldlM (Upgradable start) hupgradable
    intro state locationId _ hstate
    exact hstate.upgradeLocation hclassed hostr hhandle locationId
  · rename_i content hcontent
    split
    · rename_i fields hfields
      apply Fault.sound_foldlM (Upgradable start) hupgradable
      intro state index _ hstate
      apply hstate.upgradeName hclassed hostr hhandle
      intro current hcurrent
      have hname := (hupgradable.kept.adjusted_between hstate.kept hcontent hcurrent).1
      rw [SectionName.struct.inj hname]
      exact hfields
    · exact hupgradable
  · exact hupgradable

theorem Upgradable.upgradeSections : Fault.Sound (Upgradable start) file.upgradeSections := by
  apply Fault.sound_foldlM (Upgradable start) hupgradable
  intro state handle hhandle hstate
  rw [hupgradable.kept.allSections_eq] at hhandle
  exact hstate.upgradeSection hclassed hostr _ hhandle

end

omit hostr in
/-- The string users can be dereferenced if their sections are there. -/
theorem Upgradable.stringUsers (hupgradable : Upgradable start file)
    (hver : start.pointer (.struct .ver) ≠ none)
    (hthere : ∀ name ∈ deleteUnusedStringsSections, start.pointer name ≠ none) :
    ∃ users, file.stringUsers = .ok users := by
  have hfile := hupgradable.kept.classed hclassed
  have hpointer : ∀ name, start.pointer name ≠ none → file.pointer name ≠ none := by
    intro name hname
    rw [hupgradable.kept.pointer_eq]
    exact hname
  have hsection : ∀ name ∈ deleteUnusedStringsSections,
      ∃ content, file.section? name = some content ∧ content.name = name := by
    intro name hname
    have hproper : ∀ name ∈ deleteUnusedStringsSections,
        SectionName.ofCode name.code = name := by decide
    obtain ⟨handle, hhandle⟩ := Option.ne_none_iff_exists'.mp (hpointer name (hthere name hname))
    obtain ⟨content, hcontent, hclass⟩ := hfile name handle (hproper name hname) hhandle
    exact ⟨content, (section_eq hhandle).trans hcontent, hclass⟩
  have hstruct : ∀ name, SectionName.ofCode (SectionName.struct name).code =
        .struct name → .struct name ∈ deleteUnusedStringsSections →
      ∃ content, file.structAt name = .ok content := by
    intro name hproper hname
    obtain ⟨content, hfound, -⟩ := hupgradable.valid.structAt hfile hproper
      (hpointer _ (hthere _ hname))
    exact ⟨content, hfound⟩
  obtain ⟨ver, hver, -⟩ := hupgradable.valid.structAt hfile (by decide) (hpointer _ hver)
  obtain ⟨sprp, hsprp⟩ := hstruct .sprp (by decide) (by decide)
  obtain ⟨forc, hforc⟩ := hstruct .forc (by decide) (by decide)
  obtain ⟨unis, hunis⟩ := hstruct .unis (by decide) (by decide)
  obtain ⟨unix, hunix⟩ := hstruct .unix (by decide) (by decide)
  obtain ⟨wav, hwav⟩ := hstruct .wav (by decide) (by decide)
  obtain ⟨swnm, hswnm⟩ := hstruct .swnm (by decide) (by decide)
  obtain ⟨ostr, hostr⟩ := hstruct .ostr (by decide) (by decide)
  obtain ⟨mrgn, hmrgn, hmrgnName⟩ := hsection .mrgn (by decide)
  obtain ⟨mbrf, hmbrf, hmbrfName⟩ := hsection .mbrf (by decide)
  obtain ⟨str, hstr, hstrName⟩ := hsection .str (by decide)
  obtain ⟨locations, rfl⟩ := mrgn_of_name hmrgnName
  obtain ⟨briefing, rfl⟩ := mbrf_of_name hmbrfName
  obtain ⟨table, rfl⟩ := str_of_name hstrName
  simp only [LoadedFile.stringUsers, hver, hsprp, hforc, hunis, hunix, hwav,
    hswnm, hostr, hmrgn, hmbrf, hstr]
  exact ⟨_, rfl⟩

end Upgrade

/-- With string users that can be dereferenced, a hazard is an access outside the
set of used string ids. -/
theorem deleteUnusedStrings_hazard {file : LoadedFile} {users : LoadedScenario}
    (husers : file.stringUsers = .ok users)
    (hdelete : file.deleteUnusedStrings = .error (.hazard hazard)) :
    users.deleteUnusedStrings = .error hazard := by
  have hrest : (Fault.ofHazard users.deleteUnusedStrings).bind
      (fun cleaned => .ok (file.setStrings cleaned.str cleaned.kstr)) =
        (.error (.hazard hazard) : Except (Fault Exception) LoadedFile) := by
    rw [LoadedFile.deleteUnusedStrings, husers] at hdelete
    exact hdelete
  cases hcleaned : users.deleteUnusedStrings with
  | ok cleaned =>
      rw [hcleaned] at hrest
      cases hrest
  | error other =>
      rw [hcleaned] at hrest
      cases hrest
      rfl

theorem upgradeKstrToCurrent_eq (file : LoadedFile) : file.upgradeKstrToCurrent =
      if file.kstrTable.version = 0 ∨ file.kstrTable.version = 2 then
        file.upgradeSections >>= fun upgraded =>
          (upgraded.setKstr { upgraded.kstrTable with
            version := KstrSection.currentVersion }).deleteUnusedStrings
      else if file.kstrTable.version = 1 then
        .ok (file.setKstr KstrSection.default)
      else
        .ok file := rfl

theorem pointer_ne_none_iff {file : LoadedFile} (hinside : PointersInside file)
    (name : SectionName) :
    file.pointer name ≠ none ↔ file.section? name ≠ none := by
  cases hpointer : file.pointer name with
  | none =>
      rw [section_eq_none hpointer]
      exact iff_of_false (fun h => h rfl) fun h => h rfl
  | some handle =>
      have hlt := hinside name handle hpointer
      rw [section_eq hpointer, List.getElem?_eq_getElem hlt]
      exact iff_of_true (Option.some_ne_none _) (Option.some_ne_none _)

/-- The followed sections with a default that does not depend on the map. -/
def plainSections : List SectionName :=
  [.struct .unis, .struct .unix, .struct .wav, .struct .swnm, .trig, .mbrf,
    .struct .ostr, .ktrg, .str, .kstr, .dd2]

theorem defaultFor_plainSections (hname : name ∈ plainSections) (version : ℕ) :
    defaultFor (plainDefaults version) name ≠ none := by
  simp only [plainSections, List.mem_cons, List.not_mem_nil, or_false] at hname
  rcases hname with rfl | rfl | rfl | rfl | rfl | rfl | rfl | rfl | rfl | rfl |
    rfl <;> exact Option.some_ne_none _

theorem defaultFor_undefaulted (hname : name ∈ undefaultedSections)
    (version tileWidth tileHeight : ℕ) :
    defaultFor (plainDefaults version) name = none ∧
      defaultFor (dimensionDefaults tileWidth tileHeight) name = none := by
  simp only [undefaultedSections, List.mem_cons, List.not_mem_nil, or_false] at hname
  rcases hname with rfl | rfl | rfl | rfl | rfl | rfl <;> exact ⟨rfl, rfl⟩

theorem followedSections_cases (hname : name ∈ followedSections) :
    name ∈ undefaultedSections ∨ name ∈ plainSections ∨
      name ∈ [SectionName.tile, .isom, .mrgn] := by
  revert name
  decide

namespace Selects

variable {state : LoadState} {selected : LoadedFile}

/-- Sections without a default are there if they were in the file. -/
theorem pointer_undefaulted (hselects : Selects state selected)
    (hname : name ∈ undefaultedSections) :
    selected.pointer name ≠ none ↔ state.selected name ≠ none := by
  have hparsed := LoadState.pointersInside_parsedFile hselects.consistent.namesMatch
  have hselected := pointer_ne_none_iff hselects.defaulted.pointersInside name
  obtain ⟨ver, -, rfl⟩ := hselects.exists_ver
  have hdimension : dimensionDefault state.parsedFile name = none := by
    unfold dimensionDefault
    cases state.parsedFile.struct? .dim with
    | none => rfl
    | some dim => exact (defaultFor_undefaulted hname 0 _ _).2
  rw [hselected, section_setMissing hparsed, hdimension,
    (defaultFor_undefaulted hname _ 0 0).1, Option.or_none, Option.or_none,
    ← pointer_ne_none_iff hparsed]
  rfl

/-- Sections with a default that does not depend on the map are always there. -/
theorem pointer_plain (hselects : Selects state selected)
    (hname : name ∈ plainSections) : selected.pointer name ≠ none := by
  have hparsed := LoadState.pointersInside_parsedFile hselects.consistent.namesMatch
  rw [pointer_ne_none_iff hselects.defaulted.pointersInside]
  obtain ⟨ver, -, rfl⟩ := hselects.exists_ver
  rw [section_setMissing hparsed]
  intro hnone
  exact defaultFor_plainSections hname _ (Option.or_eq_none_iff.mp hnone).2

/-- All pointers that are followed are set exactly if the file has the sections
without a default. -/
theorem followed_iff (hselects : Selects state selected) :
    (∀ name ∈ followedSections, selected.pointer name ≠ none) ↔
      ∀ name ∈ undefaultedSections, state.selected name ≠ none := by
  have hparsed := LoadState.pointersInside_parsedFile hselects.consistent.namesMatch
  constructor
  · intro hfollowed name hname
    apply (hselects.pointer_undefaulted hname).mp
    apply hfollowed
    revert name
    decide
  · intro hthere name hname
    rcases followedSections_cases hname with hundefaulted | hplain | hdimension
    · exact (hselects.pointer_undefaulted hundefaulted).mpr (hthere name hundefaulted)
    · exact hselects.pointer_plain hplain
    · obtain ⟨handle, hdim⟩ := Option.ne_none_iff_exists'.mp (hthere (.struct .dim) (by decide))
      obtain ⟨content, hcontent, hdimName⟩ := LoadState.classed_parsedFile
        hselects.consistent.namesMatch (.struct .dim) handle (by decide) hdim
      obtain ⟨dim, rfl, -⟩ := struct_of_name hdimName
      have hstruct : state.parsedFile.struct? .dim = some dim := by
        rw [LoadedFile.struct?, section_eq (by exact hdim), hcontent]
      rw [pointer_ne_none_iff hselects.defaulted.pointersInside]
      obtain ⟨ver, -, rfl⟩ := hselects.exists_ver
      rw [section_setMissing hparsed, dimensionDefault, hstruct]
      intro hnone
      have hdefault := (Option.or_eq_none_iff.mp (Option.or_eq_none_iff.mp hnone).1).2
      simp only [List.mem_cons, List.not_mem_nil, or_false] at hdimension
      rcases hdimension with rfl | rfl | rfl <;> cases hdefault

end Selects

/-- A scenario before the last steps of its load has every section that is
followed later, and the last steps stay inside the lists of its sections: fixing
the links does, and a hazard of the upgrade, unless structure data lies elsewhere
than its pointer says, is an access outside the set of used string ids. -/
structure Complete (selected : LoadedFile) : Prop where
  followed : ∀ name ∈ followedSections, selected.pointer name ≠ none
  fixInside : ∀ hazard, fixTriggerExtensions selected.trigTriggers
    selected.ktrgEntries ≠ .error (.hazard hazard)
  upgradeInside : ∀ triggers entries hazard,
    fixTriggerExtensions selected.trigTriggers selected.ktrgEntries = .ok (triggers, entries) →
    (selected.setTriggers triggers entries).upgradeKstrToCurrent = .error (.hazard hazard) →
    DataValid selected →
    ∃ upgraded users, (selected.setTriggers triggers entries).upgradeSections = .ok upgraded ∧
      (upgraded.setKstr { upgraded.kstrTable with
        version := KstrSection.currentVersion }).stringUsers = .ok users ∧
      users.deleteUnusedStrings = .error hazard

namespace Selects

variable {state : LoadState} {selected : LoadedFile}

theorem usable (hselects : Selects state selected) (husable : UsableTables state.objects) :
    UsableEntries selected.ktrgEntries := by
  cases hktrg : state.selected .ktrg with
  | none =>
      rw [hselects.ktrg_of_missing hktrg]
      exact usableEntries_nil
  | some handle =>
      have hpointer := hselects.defaulted.pointer_some .ktrg handle hktrg
      have hlt := LoadState.pointersInside_parsedFile
        hselects.consistent.namesMatch .ktrg handle hktrg
      rw [LoadedFile.ktrgEntries, section_eq hpointer, hselects.defaulted.objects_eq handle hlt]
      cases hobject : state.parsedFile.objects[handle]? with
      | none => exact usableEntries_nil
      | some content =>
          cases content with
          | ktrg table => exact husable table (List.mem_of_getElem? hobject)
          | _ => exact usableEntries_nil

theorem pointer_ver (hselects : Selects state selected) :
    selected.pointer (.struct .ver) ≠ none := by
  obtain ⟨ver, hver, -⟩ := hselects.exists_ver
  rw [struct?_eq_some_iff] at hver
  obtain ⟨handle, hpointer, -⟩ := Option.bind_eq_some_iff.mp hver
  rw [hselects.defaulted.pointer_some _ handle hpointer]
  exact Option.some_ne_none handle

/-- With all pointers set the upgrade stays inside the lists of sections. -/
theorem upgradeInside (hselects : Selects state selected)
    (hfollowed : ∀ name ∈ followedSections, selected.pointer name ≠ none)
    (hfix : fixTriggerExtensions selected.trigTriggers selected.ktrgEntries =
      .ok (triggers, entries))
    (hupgrade : (selected.setTriggers triggers entries).upgradeKstrToCurrent =
      .error (.hazard hazard)) (hvalid : DataValid selected) :
    ∃ upgraded users, (selected.setTriggers triggers entries).upgradeSections = .ok upgraded ∧
      (upgraded.setKstr { upgraded.kstrTable with
        version := KstrSection.currentVersion }).stringUsers = .ok users ∧
      users.deleteUnusedStrings = .error hazard := by
  have hclassed := hselects.classed
  have hformed := hselects.defaulted.wellFormed hselects.consistent.wellFormed
  have hfixed : Upgradable selected (selected.setTriggers triggers entries) :=
    ⟨(Kept.refl hformed).setTriggers hclassed entries
      (length_fixTriggerExtensions hfix), hvalid.setTriggers _ _⟩
  have hostr := hfollowed (.struct .ostr) (by decide)
  have hsound := hfixed.upgradeSections hclassed hostr
  rw [upgradeKstrToCurrent_eq] at hupgrade
  split at hupgrade
  · cases hrun : (selected.setTriggers triggers entries).upgradeSections with
    | error error =>
        rw [hrun] at hupgrade hsound
        cases hupgrade
        exact absurd hsound id
    | ok upgraded =>
        rw [hrun] at hupgrade hsound
        have hcurrent : Upgradable selected (upgraded.setKstr
            { upgraded.kstrTable with
              version := KstrSection.currentVersion }) :=
          ⟨hsound.kept.setKstr hclassed hsound.kept.wellFormed_kstrTable, hsound.valid.setKstr _⟩
        obtain ⟨users, husers⟩ := hcurrent.stringUsers hclassed
          hselects.pointer_ver fun name hname => hfollowed name (by
            revert name
            decide)
        refine ⟨upgraded, users, rfl, husers, ?_⟩
        exact deleteUnusedStrings_hazard husers hupgrade
  · split at hupgrade
    · cases hupgrade
    · cases hupgrade

end Selects

/-- A load that reaches its last steps, and does not throw there, is complete
exactly if the file has SPRP, FORC, DIM, MTXM, UNIT and THG2 sections and every
KTRG entry that no trigger names asks for a trigger that is there, if for any. -/
theorem complete_iff {bytes : List UInt8} {state : LoadState}
    {selected : LoadedFile}
    (hreturns : Loop.Returns sectionPass (LoadState.start bytes) (some state))
    (hselect : state.selectSections = some selected)
    (hthrows : ∀ exception, selected.finish ≠ .error (.thrown exception)) :
    Complete selected ↔ (∀ name ∈ undefaultedSections, state.selected name ≠ none) ∧
      ∀ index position, wanted selected.trigTriggers selected.ktrgEntries index = some position →
        position < selected.trigTriggers.length := by
  have hselects : Selects state selected := ⟨consistent_of_returns hreturns, hselect⟩
  have husable := hselects.usable (usableTables_of_returns hreturns)
  constructor
  · intro hcomplete
    refine ⟨hselects.followed_iff.mp hcomplete.followed, ?_⟩
    intro index position hwanted
    rcases fixTriggerExtensions_cases husable with
      ⟨triggers, entries, -, hrepaired⟩ | ⟨hhazard, -⟩ | ⟨hthrown, -⟩
    · obtain ⟨trigger, htrigger, -⟩ := hrepaired.adoptable index position hwanted
      have hlt := (List.getElem?_eq_some_iff.mp htrigger).1
      rw [keptTriggers, claimTriggers, List.length_mapIdx] at hlt
      exact hlt
    · exact absurd hhazard (hcomplete.fixInside _)
    · exfalso
      apply hthrows .invalidArgument
      rw [LoadedFile.finish, hthrown]
      rfl
  · rintro ⟨hthere, hinside⟩
    have hfollowed := hselects.followed_iff.mpr hthere
    refine ⟨hfollowed, ?_, ?_⟩
    · intro hazard hhazard
      rcases fixTriggerExtensions_cases husable with
        ⟨triggers, entries, hok, -⟩ |
        ⟨-, index, position, hwanted, hle⟩ | ⟨hthrown, -⟩
      · rw [hhazard] at hok
        cases hok
      · exact absurd (hinside index position hwanted) (Nat.not_lt_of_le hle)
      · rw [hhazard] at hthrown
        cases hthrown
    · intro triggers entries hazard
      exact hselects.upgradeInside hfollowed

/-- A file with every section that has no default. -/
def completeBytes : List UInt8 := versionFrame ++ [83, 80, 82, 80, 4, 0, 0, 0, 0, 0, 0, 0] ++
    [70, 79, 82, 67, 20, 0, 0, 0] ++ List.replicate 20 0 ++
    [68, 73, 77, 32, 4, 0, 0, 0, 64, 0, 64, 0] ++
    [77, 84, 88, 77, 0, 0, 0, 0] ++ [85, 78, 73, 84, 0, 0, 0, 0] ++
    [84, 72, 71, 50, 0, 0, 0, 0]

/-- It is loaded completely. -/
theorem complete_of_sections : ∃ state selected,
      Loop.Returns sectionPass (LoadState.start completeBytes) (some state) ∧
      state.selectSections = some selected ∧ Complete selected := by
  obtain ⟨state, selected, hreturns, hselect, hcheck⟩ : ∃ state selected,
      Loop.Returns sectionPass (LoadState.start completeBytes) (some state) ∧
        state.selectSections = some selected ∧
        (selected.finish.toOption.isSome &&
          decide (∀ name ∈ undefaultedSections, state.selected name ≠ none) &&
          decide (selected.ktrgEntries = [])) = true :=
    exists_selected_of_eval 9 (by decide +kernel)
  simp only [Bool.and_eq_true, decide_eq_true_eq] at hcheck
  obtain ⟨⟨hfinish, hthere⟩, hentries⟩ := hcheck
  refine ⟨state, selected, hreturns, hselect, (complete_iff hreturns hselect ?_).mpr ⟨hthere, ?_⟩⟩
  · intro exception hthrown
    rw [hthrown] at hfinish
    cases hfinish
  · intro index position hwanted
    rw [hentries] at hwanted
    cases hwanted

/-- A file with nothing but its version is loaded without an error, and the
pointer to SPRP is null. -/
theorem load_incomplete : ∃ state selected file,
      Loop.Returns sectionPass (LoadState.start versionFrame) (some state) ∧
      state.selectSections = some selected ∧ selected.finish = .ok file ∧
      ¬ Complete selected := by
  obtain ⟨state, selected, hreturns, hselect, hcheck⟩ : ∃ state selected,
      Loop.Returns sectionPass (LoadState.start versionFrame) (some state) ∧
        state.selectSections = some selected ∧
        (selected.finish.toOption.isSome &&
          decide (state.selected (.struct .sprp) = none)) = true :=
    exists_selected_of_eval 3 (by decide +kernel)
  simp only [Bool.and_eq_true, decide_eq_true_eq] at hcheck
  obtain ⟨hfinish, hmissing⟩ := hcheck
  obtain ⟨file, hfile⟩ : ∃ file, selected.finish = .ok file := by
    cases hresult : selected.finish with
    | ok file => exact ⟨file, rfl⟩
    | error fault => rw [hresult] at hfinish; cases hfinish
  refine ⟨state, selected, file, hreturns, hselect, hfile, ?_⟩
  intro hcomplete
  exact (Selects.mk (consistent_of_returns hreturns) hselect).followed_iff.mp
    hcomplete.followed (.struct .sprp) (by decide) hmissing

end Chkdraft.Scenario
