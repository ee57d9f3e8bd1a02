import Chkdraft.Scenario.SavedFrames
import Chkdraft.Scenario.SavedLinks

/-!
# A scenario saved and loaded

What a scenario becomes when it is saved and the result is loaded.  Every
section that was parsed comes back in its own object, with its records as often
as it was saved; default sections are not saved and are set again.  The second
load finds no old editor strings, so all its last steps do is to repair the
links between the triggers and the extended data that were saved.
-/

namespace Chkdraft.Scenario

open Binary Chk Sections

variable {file : LoadedFile} {name : SectionName} {triggers : List Trigger}
  {entries : List (Option ExtendedTrigData)} {handle : ℕ}
  {content new old : Section} {written : List UInt8}

theorem section_setTriggers_of_ne (hclassed : Classed file)
    (hname : SectionName.ofCode name.code = name) (htrig : name ≠ .trig)
    (hktrg : name ≠ .ktrg) (triggers : List Trigger)
    (entries : List (Option ExtendedTrigData)) :
    (file.setTriggers triggers entries).section? name = file.section? name := by
  unfold LoadedFile.setTriggers
  split
  · rename_i trig ktrg htrigPointer hktrgPointer
    have hne : file.pointer name ≠ some trig :=
      pointer_ne_of_classed hclassed hname (by decide) htrig htrigPointer
    have hne' : file.pointer name ≠ some ktrg :=
      pointer_ne_of_classed hclassed hname (by decide) hktrg hktrgPointer
    rw [section_setObject_of_ne (by exact hne'), section_setObject_of_ne hne]
  · rfl

theorem section_setTriggers_trig (hclassed : Classed file) {trig ktrg : ℕ}
    (htrig : file.pointer .trig = some trig)
    (hktrg : file.pointer .ktrg = some ktrg) (triggers : List Trigger)
    (entries : List (Option ExtendedTrigData)) :
    (file.setTriggers triggers entries).section? .trig = some (.trig triggers) := by
  have hne : file.pointer .trig ≠ some ktrg :=
    pointer_ne_of_classed hclassed (by decide) (by decide) (by decide) hktrg
  obtain ⟨content, hcontent, -⟩ := hclassed .trig trig (by decide) htrig
  have hlt := (List.getElem?_eq_some_iff.mp hcontent).1
  simp only [LoadedFile.setTriggers, htrig, hktrg]
  rw [section_setObject_of_ne (by exact hne)]
  rw [section_eq (by exact htrig)]
  exact List.getElem?_set_self hlt

/-- With a current KSTR section, only the links of triggers are fixed. -/
theorem finish_of_currentVersion (hclassed : Classed file)
    (hversion : file.kstrTable.version = KstrSection.currentVersion)
    (hfix : fixTriggerExtensions file.trigTriggers file.ktrgEntries = .ok (triggers, entries)) :
    file.finish = .ok (file.setTriggers triggers entries) := by
  have hkstr : (file.setTriggers triggers entries).kstrTable =
      file.kstrTable := by
    rw [LoadedFile.kstrTable, LoadedFile.kstrTable,
      section_setTriggers_of_ne hclassed (by decide) (by decide) (by decide)]
  have hfinish : file.finish = (file.setTriggers triggers entries).upgradeKstrToCurrent := by
    rw [LoadedFile.finish, hfix]
    rfl
  rw [hfinish, LoadedFile.upgradeKstrToCurrent, hkstr, hversion]
  rfl

/-- A load up to the selection of its sections. -/
structure Selects (state : LoadState) (selected : LoadedFile) : Prop where
  consistent : Consistent state
  select : state.selectSections = some selected

/-- A load that returned. -/
structure Loaded (state : LoadState) (selected file : LoadedFile) : Prop
    extends Selects state selected where
  finish : selected.finish = .ok file

theorem proper_of_mem_contentNames (hname : name ∈ contentNames) :
    SectionName.ofCode name.code = name := by
  revert name
  decide

theorem LoadState.selected_of_mem {state : LoadState} (hconsistent : Consistent state)
    (hproper : SectionName.ofCode name.code = name)
    (hbehavior : name.loadBehavior ≠ .standard)
    (hmem : (name.code, handle) ∈ state.parsedSections) :
    state.selected name = some handle := by
  have hnumbered := congrArg Prod.fst hconsistent.numbered
  change state.parsedSections = _ at hnumbered
  rw [hnumbered] at hmem
  have hexisting := existingIn_of_mem (by rw [hproper]; exact hbehavior) hmem
  rw [← hnumbered, existingIn, hproper, if_neg hbehavior] at hexisting
  rw [LoadState.selected, if_neg hbehavior, List.head?_filter]
  exact hexisting

theorem section_eq_none (hpointer : file.pointer name = none) : file.section? name = none := by
  rw [LoadedFile.section?, hpointer, Option.bind_none]

namespace Selects

variable {state : LoadState} {selected : LoadedFile}

section

variable (hselects : Selects state selected)

include hselects

theorem exists_ver : ∃ ver, state.parsedFile.struct? .ver = some ver ∧
      selected = state.parsedFile.setMissing ver := by
  have hselect := hselects.select
  rw [LoadState.selectSections_eq] at hselect
  obtain ⟨ver, hver, hselected⟩ := Option.map_eq_some_iff.mp hselect
  exact ⟨ver, hver, hselected.symm⟩

theorem defaulted : Defaulted state.parsedFile selected := by
  obtain ⟨ver, -, rfl⟩ := hselects.exists_ver
  exact defaulted_setMissing
    (LoadState.pointersInside_parsedFile hselects.consistent.namesMatch) ver

theorem classed : Classed selected :=
  hselects.defaulted.classed (LoadState.classed_parsedFile hselects.consistent.namesMatch)

/-- The default of a section whose default does not depend on the map. -/
theorem section_of_missing (hmissing : state.selected name = none)
    (hdimension : name ∉ [SectionName.tile, .isom, .mask, .mrgn])
    (hplain : ∀ version, defaultFor (plainDefaults version) name =
      some content) : selected.section? name = some content := by
  obtain ⟨ver, -, rfl⟩ := hselects.exists_ver
  have hnone : dimensionDefault state.parsedFile name = none := by
    unfold dimensionDefault
    cases state.parsedFile.struct? .dim with
    | none => rfl
    | some dim =>
        simp only [List.mem_cons, List.not_mem_nil, or_false, not_or] at hdimension
        obtain ⟨htile, hisom, hmask, hmrgn⟩ := hdimension
        simp [defaultFor, dimensionDefaults, Ne.symm htile, Ne.symm hisom,
          Ne.symm hmask, Ne.symm hmrgn]
  rw [section_setMissing (LoadState.pointersInside_parsedFile hselects.consistent.namesMatch),
    section_eq_none hmissing, hnone, hplain]
  rfl

theorem ktrg_of_missing (hmissing : state.selected .ktrg = none) : selected.ktrgEntries = [] := by
  have hdefault : selected.section? .ktrg = some (.ktrg KtrgSection.default) :=
    hselects.section_of_missing hmissing (by decide) fun _ => rfl
  rw [LoadedFile.ktrgEntries, hdefault]
  rfl

theorem exists_pointer (hdimension : name ∉ [SectionName.tile, .isom, .mask, .mrgn])
    (hplain : ∀ version, defaultFor (plainDefaults version) name =
      some content) : ∃ handle, selected.pointer name = some handle := by
  cases hselected : state.selected name with
  | some handle =>
      exact ⟨handle, hselects.defaulted.pointer_some name handle hselected⟩
  | none =>
      obtain ⟨handle, hpointer, -⟩ := Option.bind_eq_some_iff.mp
        (hselects.section_of_missing hselected hdimension hplain)
      exact ⟨handle, hpointer⟩

theorem exists_links : (∃ trig, selected.pointer .trig = some trig) ∧
      ∃ ktrg, selected.pointer .ktrg = some ktrg :=
  ⟨hselects.exists_pointer (by decide) fun _ => rfl,
    hselects.exists_pointer (by decide) fun _ => rfl⟩

theorem kstr_of_missing (hmissing : state.selected .kstr = none) :
    selected.kstrTable.version = KstrSection.currentVersion := by
  have hdefault : selected.section? .kstr = some (.kstr KstrSection.default) :=
    hselects.section_of_missing hmissing (by decide) fun _ => rfl
  rw [LoadedFile.kstrTable, hdefault]
  rfl

end

end Selects

namespace Loaded

variable {state : LoadState} {selected file : LoadedFile}

section

variable (hloaded : Loaded state selected file)

include hloaded

theorem kept : Kept selected file :=
  Kept.finish hloaded.classed (hloaded.defaulted.wellFormed hloaded.consistent.wellFormed)
    hloaded.finish

theorem allSections_eq : file.allSections = state.parsedSections.map Prod.snd := by
  rw [hloaded.kept.allSections_eq, hloaded.defaulted.allSections_eq]
  exact hloaded.consistent.allSections_eq

theorem tailData_eq : file.tailData = state.tailData := by
  rw [hloaded.kept.tailData_eq, hloaded.defaulted.tailData_eq]
  rfl

theorem tailLength_eq : file.tailLength = state.tailLength := by
  rw [hloaded.kept.tailLength_eq, hloaded.defaulted.tailLength_eq]
  rfl

theorem exists_parsed (hcontent : state.objects[handle]? = some content) :
    ∃ later, file.objects[handle]? = some later ∧ Adjusted content later := by
  have hlt := (List.getElem?_eq_some_iff.mp hcontent).1
  apply hloaded.kept.exists_later
  rw [hloaded.defaulted.objects_eq handle hlt]
  exact hcontent

theorem section_of_selected (hselected : state.selected name = some handle) :
    file.section? name = file.objects[handle]? := by
  apply section_eq
  rw [hloaded.kept.pointer_eq]
  exact hloaded.defaulted.pointer_some name handle hselected

theorem savedSections_eq : file.savedSections = sectionsOf file state.parsedSections := by
  rw [LoadedFile.savedSections, hloaded.allSections_eq, List.filterMap_map]
  rfl

theorem savedAs : SavedAs file state.parsedSections where
  numbered := by
    rw [← hloaded.consistent.numbered]
  object := by
    intro entry hentry
    obtain ⟨content, hcontent, hname⟩ := hloaded.consistent.namesMatch entry hentry
    obtain ⟨later, hlater, hadjusted⟩ := hloaded.exists_parsed hcontent
    exact ⟨later, hlater, hadjusted.1.trans hname,
      hloaded.kept.wellFormed later (List.mem_of_getElem? hlater)⟩

/-- An object that was saved is parsed under its name, and it is the selected
one where all occurrences of a name are one object. -/
theorem selected_of_saved (hobject : file.objects[handle]? = some content)
    (hmem : handle ∈ file.allSections)
    (hproper : SectionName.ofCode content.name.code = content.name)
    (hbehavior : content.name.loadBehavior ≠ .standard) :
    state.selected content.name = some handle := by
  rw [hloaded.allSections_eq] at hmem
  obtain ⟨⟨code, saved⟩, hentry, rfl⟩ := List.mem_map.mp hmem
  obtain ⟨parsed, hparsed, hparsedName⟩ := hloaded.consistent.namesMatch _ hentry
  obtain ⟨later, hlater, hadjusted⟩ := hloaded.exists_parsed hparsed
  rw [hobject] at hlater
  obtain rfl := Option.some.inj hlater
  apply LoadState.selected_of_mem hloaded.consistent hproper hbehavior
  rw [hadjusted.1, hparsedName, SectionName.code_ofCode]
  exact hentry

/-- The handle of a default lies behind all that were parsed. -/
theorem not_mem_allSections (hmissing : state.selected name = none)
    (hpointer : selected.pointer name = some handle) :
    handle ∉ selected.allSections := by
  have hle := hloaded.defaulted.pointer_none name handle hmissing hpointer
  intro hsaved
  rw [hloaded.defaulted.allSections_eq] at hsaved
  change handle ∈ state.allSections at hsaved
  rw [hloaded.consistent.allSections_eq] at hsaved
  obtain ⟨entry, hentry, rfl⟩ := List.mem_map.mp hsaved
  obtain ⟨content, hcontent, -⟩ := hloaded.consistent.namesMatch entry hentry
  exact absurd (List.getElem?_eq_some_iff.mp hcontent).1 (not_lt.mpr hle)

theorem not_mem_touched (hname : SectionName.ofCode name.code = name)
    (hmissing : state.selected name = none)
    (hother : name ∉ [SectionName.trig, .ktrg, .struct .ostr, .str, .kstr])
    (hpointer : selected.pointer name = some handle) :
    handle ∉ touched selected := by
  intro hmem
  rcases List.mem_append.mp hmem with hsaved | hpointed
  · exact hloaded.not_mem_allSections hmissing hpointer hsaved
  · obtain ⟨other, hin, hsame⟩ := List.mem_filterMap.mp hpointed
    have hproper : ∀ other ∈ [SectionName.trig, .ktrg, .struct .ostr, .str, .kstr],
        SectionName.ofCode other.code = other := by
      decide
    have hne : name ≠ other := by
      rintro rfl
      exact hother hin
    exact pointer_ne_of_classed hloaded.classed hname (hproper other hin) hne hsame hpointer

theorem section_trig_of_missing (hmissing : state.selected .trig = none) :
    selected.section? .trig = some (.trig []) ∧ file.section? .trig = some (.trig []) := by
  have hdefault : selected.section? .trig = some (.trig []) :=
    hloaded.section_of_missing hmissing (by decide) fun _ => rfl
  obtain ⟨new, hnew, hname, hfixed⟩ := hloaded.kept.exists_section? hdefault
  obtain ⟨triggers, rfl⟩ := trig_of_name hname
  have hlength : triggers.length = 0 := congrArg Prod.fst hfixed
  rw [List.length_eq_zero_iff.mp hlength] at hnew
  exact ⟨hdefault, hnew⟩

theorem shown_str_of_missing (hmissing : state.selected .str = none) :
    (file.section? .str).map shown = (selected.section? .str).map shown := by
  have hdefault : selected.section? .str = some (.str StrSection.default) :=
    hloaded.section_of_missing hmissing (by decide) fun _ => rfl
  obtain ⟨new, hnew, hname, hfixed⟩ := hloaded.kept.exists_section? hdefault
  obtain ⟨table, rfl⟩ := str_of_name hname
  have hlength : table.strings.length = 1 := congrArg Prod.fst hfixed
  have htail : table.strings.tail = [] := by
    rw [← List.length_eq_zero_iff, List.length_tail, hlength]
  rw [hnew, hdefault]
  simp only [Option.map_some, shown, StrSection.characters, htail]
  rfl

theorem shown_kstr_of_missing (hmissing : state.selected .kstr = none) :
    (file.section? .kstr).map shown = (selected.section? .kstr).map shown := by
  obtain ⟨⟨triggers, entries⟩, hfix, -⟩ := Fault.bind_eq_ok_iff.mp hloaded.finish
  have hfinish := finish_of_currentVersion hloaded.classed (hloaded.kstr_of_missing hmissing) hfix
  rw [hloaded.finish] at hfinish
  rw [Except.ok.inj hfinish, section_setTriggers_of_ne hloaded.classed
    (by decide) (by decide) (by decide)]

/-- The last steps show missing sections as their defaults. -/
theorem shown_of_missing (hname : name ∈ contentNames) (hmissing : state.selected name = none) :
    (file.section? name).map shown = (selected.section? name).map shown := by
  have hproper := proper_of_mem_contentNames hname
  have hpointers := hloaded.kept.pointer_eq
  by_cases htouched : name ∈ [SectionName.trig, .ktrg, .struct .ostr, .str, .kstr]
  · have hthree : ∀ name ∈ contentNames,
        name ∈ [SectionName.trig, .ktrg, .struct .ostr, .str, .kstr] →
        name = .trig ∨ name = .str ∨ name = .kstr := by
      decide
    rcases hthree name hname htouched with rfl | rfl | rfl
    · obtain ⟨hselected, hfile⟩ := hloaded.section_trig_of_missing hmissing
      rw [hselected, hfile]
    · exact hloaded.shown_str_of_missing hmissing
    · exact hloaded.shown_kstr_of_missing hmissing
  · cases hpointer : selected.pointer name with
    | none =>
        rw [section_eq_none hpointer, section_eq_none (by rw [hpointers, hpointer])]
    | some handle =>
        have hkeep := hloaded.kept.untouched handle
          (hloaded.not_mem_touched hproper hmissing htouched hpointer)
        rw [section_eq hpointer, section_eq (by rw [hpointers, hpointer]), hkeep]

end

end Loaded

namespace LoadedFile

/-- The triggers a save emits: all of them as often as their section stands in
`allSections`. -/
def savedTriggers (file : LoadedFile) : List Trigger :=
  match file.pointer .trig with
  | some handle =>
      (List.replicate (file.allSections.count handle) file.trigTriggers).flatten
  | none => []

/-- The extended data that a load reads of a save: a KTRG section that was not
in the file is not saved, and null entries at usable indexes are read as blank
ones. -/
def savedEntries (file : LoadedFile) : List (Option ExtendedTrigData) :=
  match file.pointer .ktrg with
  | some handle =>
      if handle ∈ file.allSections then
        KtrgSection.loadEntries (KtrgSection.entries ⟨file.ktrgEntries⟩)
      else
        []
  | none => []

theorem usableEntries_savedEntries (file : LoadedFile) : UsableEntries file.savedEntries := by
  unfold savedEntries
  split
  · split
    · exact usableEntries_loadEntries _
    · exact usableEntries_nil
  · exact usableEntries_nil

/-- A KTRG section that announces its body has fewer than 2^32 entries. -/
theorem length_savedEntries_lt (file : LoadedFile) (hframed : Framed file.savedSections) :
    file.savedEntries.length < 2 ^ 32 := by
  unfold savedEntries
  split
  · rename_i handle hpointer
    split
    · rename_i hmem
      rw [KtrgSection.length_loadEntries, KtrgSection.length_entries,
        ktrgEntries, section_eq hpointer]
      cases hobject : file.objects[handle]? with
      | none => decide
      | some content =>
          have hannounces := hframed.announces content
            (List.mem_filterMap.mpr ⟨handle, hmem, hobject⟩)
          cases content with
          | ktrg table =>
              simp only [Section.AnnouncesBody] at hannounces ⊢
              omega
          | _ => exact Nat.two_pow_pos 32
    · decide
  · decide

end LoadedFile

/-! ## The second load -/

theorem struct?_eq_some_iff {file : LoadedFile} {name : StructName}
    {content : StructSection} :
    file.struct? name = some content ↔ file.section? (.struct name) = some (.struct content) := by
  unfold LoadedFile.struct?
  constructor
  · intro hstruct
    split at hstruct
    · rename_i inner hinner
      rw [hinner, Option.some.inj hstruct]
    · cases hstruct
  · intro hsection
    rw [hsection]

namespace Loaded

variable {state again : LoadState} {selected file : LoadedFile}

/-- The second load selects the objects the first one did. -/
theorem selected_again (hreread : RereadState file state.parsedSections again)
    (name : SectionName) : again.selected name = state.selected name := by
  unfold LoadState.selected
  rw [hreread.parsedSections_eq]

section

variable (hloaded : Loaded state selected file)

include hloaded

theorem pointer_of_selected (hselected : state.selected name = some handle) :
    file.pointer name = some handle := by
  rw [hloaded.kept.pointer_eq]
  exact hloaded.defaulted.pointer_some name handle hselected

theorem name_of_selected (hproper : SectionName.ofCode name.code = name)
    (hselected : state.selected name = some handle)
    (hcontent : file.objects[handle]? = some content) : content.name = name :=
  (hloaded.kept.classed hloaded.classed).at hproper (hloaded.pointer_of_selected hselected) hcontent

section

variable (hreread : RereadState file state.parsedSections again)

include hreread

/-- A section both loads have, as it was saved and as it was read again. -/
theorem exists_reread (hselected : state.selected name = some handle)
    (hproper : SectionName.ofCode name.code = name) (hktrg : name ≠ .ktrg) :
    ∃ old body new, file.section? name = some old ∧ old.name = name ∧
      again.parsedFile.section? name = some new ∧
      file.objects[handle]? = some old ∧
      0 < file.allSections.count handle ∧
      Reread (file.allSections.count handle) old body new := by
  have hagain : again.parsedFile.pointer name = some handle :=
    (selected_again hreread name).trans hselected
  have hlt := LoadState.pointersInside_parsedFile hreread.consistent.namesMatch name handle hagain
  rcases hreread.rereadObject handle hlt with
    ⟨old, body, new, hold, -, -, hnew, hpos, hobject⟩ | ⟨table, hold, -⟩
  · rw [← hloaded.allSections_eq] at hpos hobject
    refine ⟨old, body, new, ?_, hloaded.name_of_selected hproper hselected
      hold, ?_, hold, hpos, hobject⟩
    · rw [hloaded.section_of_selected hselected, hold]
    · rw [section_eq hagain]
      exact hnew
  · exact absurd (hloaded.name_of_selected hproper hselected hold).symm hktrg

/-- VER and DIM come back with the bytes of their structures. -/
theorem struct?_again {name : StructName} (hfixed : name = .ver ∨ name = .dim)
    {content : StructSection}
    (hcontent : state.parsedFile.struct? name = some content) :
    ∃ new, again.parsedFile.struct? name = some new ∧ new.rawData = content.rawData.take name.size ∧
      new.dataValid = true := by
  obtain ⟨handle, hselected, hobject⟩ := Option.bind_eq_some_iff.mp
    (struct?_eq_some_iff.mp hcontent)
  change state.selected (.struct name) = some handle at hselected
  have hproper : SectionName.ofCode (SectionName.struct name).code = .struct name := by
    rcases hfixed with rfl | rfl <;> decide
  obtain ⟨old, body, new, -, -, hnew, hold, -, hagain⟩ :=
    hloaded.exists_reread hreread hselected hproper nofun
  obtain ⟨later, hlater, hadjusted⟩ := hloaded.exists_parsed hobject
  rw [hold] at hlater
  obtain rfl := Option.some.inj hlater
  have hname : content.name = name := SectionName.struct.inj
    ((LoadState.classed_parsedFile hloaded.consistent.namesMatch).at hproper hselected hobject)
  obtain ⟨inner, rfl, hinner⟩ := struct_of_name hadjusted.1
  have hwrite : inner.write = content.write := by
    have hparts := hadjusted.2
    simp only [fixedPart, hinner, hname, hfixed, if_true] at hparts
    exact congrArg Prod.snd hparts
  have hreload := (hagain.reload (Or.inr rfl)).reloadsTo
  obtain ⟨back, rfl, -⟩ := struct_of_name hagain.name_eq
  obtain ⟨-, hraw, hvalid⟩ := hreload
  refine ⟨back, struct?_eq_some_iff.mpr hnew, ?_, hvalid⟩
  rw [hraw, hwrite, StructSection.write, hname]

/-- Without a DIM section in the first file there is none in the second. -/
theorem struct?_dim_again_eq_none (hdim : state.parsedFile.struct? .dim = none) :
    again.parsedFile.struct? .dim = none := by
  have hmissing : state.selected (.struct .dim) = none := by
    cases hselected : state.selected (.struct .dim) with
    | none => rfl
    | some handle =>
        obtain ⟨content, hcontent, hname⟩ :=
          LoadState.classed_parsedFile hloaded.consistent.namesMatch
            (.struct .dim) handle (by decide) hselected
        obtain ⟨inner, rfl, -⟩ := struct_of_name hname
        have hfound : state.parsedFile.struct? .dim = some inner := by
          rw [struct?_eq_some_iff, section_eq hselected, hcontent]
        rw [hdim] at hfound
        cases hfound
  rw [LoadedFile.struct?, section_eq_none]
  exact (selected_again hreread _).trans hmissing

theorem dimensionDefault_again (name : SectionName) :
    dimensionDefault again.parsedFile name = dimensionDefault state.parsedFile name := by
  unfold dimensionDefault
  cases hdim : state.parsedFile.struct? .dim with
  | none => rw [hloaded.struct?_dim_again_eq_none hreread hdim]
  | some dim =>
      obtain ⟨new, hnew, hraw, -⟩ := hloaded.struct?_again hreread (Or.inr rfl) hdim
      rw [hnew]
      simp only [Option.bind_some, hraw, wordAt_take (show 0 + 2 ≤ StructName.dim.size by decide),
        wordAt_take (show 2 + 2 ≤ StructName.dim.size by decide)]

theorem dataValid_dim_again {dim : StructSection}
    (hdim : again.parsedFile.struct? .dim = some dim) :
    dim.dataValid = true := by
  cases hbefore : state.parsedFile.struct? .dim with
  | none =>
      rw [hloaded.struct?_dim_again_eq_none hreread hbefore] at hdim
      cases hdim
  | some before =>
      obtain ⟨new, hnew, -, hvalid⟩ := hloaded.struct?_again hreread (Or.inr rfl) hbefore
      rw [hdim] at hnew
      rw [Option.some.inj hnew]
      exact hvalid

/-- What the second load selects before its last steps: what it read again, and
for missing sections the defaults of the first. -/
structure SelectsAgain (state again : LoadState) (selected selectedAgain : LoadedFile) : Prop
    extends Selects again selectedAgain where
  memorySafe_eq : selectedAgain.memorySafe = true
  parsed : ∀ name content, again.parsedFile.section? name = some content →
    selectedAgain.section? name = some content
  missing : ∀ name, state.selected name = none →
    selectedAgain.section? name = selected.section? name

theorem exists_selectsAgain : ∃ selectedAgain, SelectsAgain state again selected selectedAgain := by
  obtain ⟨ver, hver, rfl⟩ := hloaded.exists_ver
  obtain ⟨verAgain, hverAgain, hraw, hvalid⟩ := hloaded.struct?_again hreread (Or.inl rfl) hver
  have hinside := LoadState.pointersInside_parsedFile hloaded.consistent.namesMatch
  have hinsideAgain := LoadState.pointersInside_parsedFile hreread.consistent.namesMatch
  have hversion : wordAt 2 verAgain.rawData 0 = wordAt 2 ver.rawData 0 := by
    rw [hraw, wordAt_take (by decide)]
  refine ⟨again.parsedFile.setMissing verAgain, ⟨hreread.consistent, ?_⟩, ?_, ?_, ?_⟩
  · rw [LoadState.selectSections_eq, hverAgain, Option.map_some]
  · exact memorySafe_setMissing hreread.memorySafe_eq hvalid
      fun dim hdim => hloaded.dataValid_dim_again hreread hdim
  · intro name content hcontent
    rw [section_setMissing hinsideAgain, hcontent, Option.some_or, Option.some_or]
  · intro name hmissing
    have hnone : state.parsedFile.section? name = none := section_eq_none hmissing
    have hnoneAgain : again.parsedFile.section? name = none :=
      section_eq_none ((selected_again hreread name).trans hmissing)
    rw [section_setMissing hinsideAgain, section_setMissing hinside, hnone,
      hnoneAgain, hversion, hloaded.dimensionDefault_again hreread]

end

theorem section_trig_eq : file.section? .trig = some (.trig file.trigTriggers) := by
  obtain ⟨content, hcontent⟩ : ∃ content, file.section? .trig = some content := by
    cases hselected : state.selected .trig with
    | none => exact ⟨_, (hloaded.section_trig_of_missing hselected).2⟩
    | some handle =>
        obtain ⟨parsed, hparsed, -⟩ := hloaded.consistent.namesMatch _
          (LoadState.mem_of_selected hselected)
        obtain ⟨later, hlater, -⟩ := hloaded.exists_parsed hparsed
        exact ⟨later, (hloaded.section_of_selected hselected).trans hlater⟩
  obtain ⟨handle, hpointer, hobject⟩ := Option.bind_eq_some_iff.mp hcontent
  obtain ⟨triggers, rfl⟩ := trig_of_name
    ((hloaded.kept.classed hloaded.classed).at (by decide) hpointer hobject)
  rw [LoadedFile.trigTriggers, hcontent]

end

namespace SelectsAgain

variable {selectedAgain : LoadedFile}

section

variable (hagain : SelectsAgain state again selected selectedAgain)

include hagain

section

variable (hloaded : Loaded state selected file)
  (hreread : RereadState file state.parsedSections again)

include hloaded hreread

/-- The KSTR section of the second load is current: it was just written, or it
is the default. -/
theorem version_eq : selectedAgain.kstrTable.version = KstrSection.currentVersion := by
  cases hselected : state.selected .kstr with
  | none =>
      exact hagain.kstr_of_missing ((selected_again hreread .kstr).trans hselected)
  | some handle =>
      obtain ⟨old, body, new, -, hname, hnew, -, -, hobject⟩ :=
        hloaded.exists_reread hreread hselected (by decide) (by decide)
      obtain ⟨table, rfl⟩ := kstr_of_name hname
      obtain ⟨back, rfl⟩ := kstr_of_name (hobject.name_eq.trans hname)
      rw [LoadedFile.kstrTable, hagain.parsed .kstr _ hnew]
      exact (hobject.reload (Or.inr rfl)).reloadsTo.2

/-- The triggers of the scenario, as often as their section was saved. -/
theorem trigTriggers_eq : selectedAgain.trigTriggers = file.savedTriggers := by
  cases hselected : state.selected .trig with
  | none =>
      obtain ⟨hdefault, hfile⟩ := hloaded.section_trig_of_missing hselected
      have htriggers : file.trigTriggers = [] := by
        rw [LoadedFile.trigTriggers, hfile]
      rw [LoadedFile.trigTriggers, hagain.missing .trig hselected, hdefault,
        LoadedFile.savedTriggers, htriggers]
      cases file.pointer .trig <;> simp
  | some handle =>
      obtain ⟨old, body, new, hsection, hname, hnew, -, -, hobject⟩ :=
        hloaded.exists_reread hreread hselected (by decide) (by decide)
      obtain ⟨triggers, rfl⟩ := trig_of_name hname
      have htriggers : file.trigTriggers = triggers := by
        rw [LoadedFile.trigTriggers, hsection]
      rw [LoadedFile.trigTriggers, hagain.parsed .trig new hnew,
        hobject.triggers triggers rfl, LoadedFile.savedTriggers,
        hloaded.pointer_of_selected hselected, htriggers]

/-- Extended data is there again if the KTRG section was saved. -/
theorem ktrgEntries_eq : selectedAgain.ktrgEntries = file.savedEntries := by
  cases hselected : state.selected .ktrg with
  | none =>
      have hnone : file.savedEntries = [] := by
        unfold LoadedFile.savedEntries
        cases hpointer : file.pointer .ktrg with
        | none => rfl
        | some handle =>
            rw [hloaded.kept.pointer_eq] at hpointer
            have hnot := hloaded.not_mem_allSections hselected hpointer
            rw [← hloaded.kept.allSections_eq] at hnot
            exact if_neg hnot
      rw [hnone]
      exact hagain.ktrg_of_missing ((selected_again hreread .ktrg).trans hselected)
  | some handle =>
      have hpointer : again.parsedFile.pointer .ktrg = some handle :=
        (selected_again hreread .ktrg).trans hselected
      have hlt := LoadState.pointersInside_parsedFile
        hreread.consistent.namesMatch .ktrg handle hpointer
      have hmem : handle ∈ file.allSections := by
        rw [hloaded.allSections_eq]
        exact List.mem_map.mpr ⟨_, LoadState.mem_of_selected hselected, rfl⟩
      rcases hreread.rereadObject handle hlt with
        ⟨old, -, -, hold, hktrg, -⟩ | ⟨table, hold, hnew⟩
      · exact absurd (hloaded.name_of_selected (by decide) hselected hold) hktrg
      · have hsection : again.parsedFile.section? .ktrg =
            some (.ktrg ⟨KtrgSection.loadEntries table.entries⟩) := by
          rw [section_eq hpointer]
          exact hnew
        have hentries : file.ktrgEntries = table.extendedTrigData := by
          rw [LoadedFile.ktrgEntries, hloaded.section_of_selected hselected, hold]
        rw [LoadedFile.ktrgEntries, hagain.parsed .ktrg _ hsection,
          LoadedFile.savedEntries, hloaded.pointer_of_selected hselected, hentries]
        exact (if_pos hmem).symm

/-- The last steps of the second load replace the triggers and the extended
data. -/
theorem loaded (hfix : fixTriggerExtensions file.savedTriggers file.savedEntries =
      .ok (triggers, entries)) :
    Loaded again selectedAgain (selectedAgain.setTriggers triggers entries) :=
  ⟨hagain.toSelects, finish_of_currentVersion hagain.classed (hagain.version_eq hloaded hreread)
    (by rw [hagain.trigTriggers_eq hloaded hreread, hagain.ktrgEntries_eq hloaded hreread, hfix])⟩

end

theorem section_trig_set (triggers : List Trigger) (entries : List (Option ExtendedTrigData)) :
    (selectedAgain.setTriggers triggers entries).section? .trig = some (.trig triggers) := by
  obtain ⟨⟨trig, htrig⟩, ⟨ktrg, hktrg⟩⟩ := hagain.exists_links
  exact section_setTriggers_trig hagain.classed htrig hktrg triggers entries

theorem section_set (hname : name ∈ contentNames) (htrig : name ≠ .trig)
    (triggers : List Trigger) (entries : List (Option ExtendedTrigData)) :
    (selectedAgain.setTriggers triggers entries).section? name = selectedAgain.section? name := by
  have hktrg : name ≠ .ktrg := by
    rintro rfl
    revert hname
    decide
  exact section_setTriggers_of_ne hagain.classed
    (proper_of_mem_contentNames hname) htrig hktrg triggers entries

end

end SelectsAgain

end Loaded

/-- Strings of a STR section are what is read at their 16-bit starts. -/
def StringsReachable : Section → Prop
  | .str table => StrSection.ReadsAtStarts table.strings
  | _ => True

theorem shown_eq_iff_of_reloadsTo (hname : new.name = old.name) (hreload : ReloadsTo old new) :
    shown new = shown old ↔ StringsReachable old := by
  cases old with
  | struct =>
      cases new with
      | struct => exact iff_of_true rfl trivial
      | _ => cases hname
  | str =>
      cases new with
      | str => exact (Shown.strings.injEq _ _).to_iff.trans hreload
      | _ => cases hname
  | kstr =>
      cases new with
      | kstr => exact iff_of_true (congrArg Shown.strings hreload.1) trivial
      | _ => cases hname
  | _ =>
      rw [show new = _ from hreload]
      exact iff_of_true rfl trivial

theorem appendedRecords_of_shown (hname : new.name = old.name) (hshown : shown new = shown old) :
    appendedRecords new = appendedRecords old := by
  cases old with
  | unit =>
      cases new with
      | unit => exact congrArg List.length (Shown.units.inj hshown)
      | _ => cases hname
  | thg2 =>
      cases new with
      | thg2 => exact congrArg List.length (Shown.sprites.inj hshown)
      | _ => cases hname
  | trig =>
      cases new with
      | trig => exact congrArg List.length (Shown.triggers.inj hshown)
      | _ => cases hname
  | mbrf =>
      cases new with
      | mbrf => exact congrArg List.length (Shown.triggers.inj hshown)
      | _ => cases hname
  | _ =>
      cases new with
      | unit | thg2 | trig | mbrf => cases hname
      | _ => rfl

/-- The sections with records to append are among those with content, and all
occurrences of their names are one object. -/
theorem name_of_appendedRecords (hrecords : appendedRecords content ≠ 0) :
    content.name ∈ contentNames ∧ content.name.loadBehavior ≠ .standard := by
  cases content with
  | unit | thg2 | trig | mbrf =>
      simp [Section.name, contentNames, SectionName.loadBehavior]
  | _ => exact absurd rfl hrecords

/-- No section is saved twice with records that the second copy appends. -/
def RecordsSavedOnce (file : LoadedFile) : Prop :=
  ∀ handle content, file.objects[handle]? = some content →
    2 ≤ file.allSections.count handle → appendedRecords content = 0

namespace Loaded

variable {state again : LoadState} {selected selectedAgain file : LoadedFile}

theorem reload_of_savedOnce (honce : RecordsSavedOnce file)
    {body : List UInt8} (hold : file.objects[handle]? = some old)
    (hpos : 0 < file.allSections.count handle)
    (hreread : Reread (file.allSections.count handle) old body new) :
    Reload old body new := by
  apply hreread.reload
  by_cases hone : file.allSections.count handle = 1
  · exact Or.inl hone
  · exact Or.inr (honce handle old hold (by omega))

section

variable (hloaded : Loaded state selected file)

include hloaded

theorem savedTriggers_of_savedOnce (hreread : RereadState file state.parsedSections again)
    (honce : RecordsSavedOnce file) :
    file.savedTriggers = file.trigTriggers := by
  cases hselected : state.selected .trig with
  | none =>
      have hnone : file.trigTriggers = [] := by
        rw [LoadedFile.trigTriggers, (hloaded.section_trig_of_missing hselected).2]
      rw [LoadedFile.savedTriggers, hnone]
      cases file.pointer .trig <;> simp
  | some handle =>
      obtain ⟨old, -, -, hsection, -, -, hold, hpos, -⟩ :=
        hloaded.exists_reread hreread hselected (by decide) (by decide)
      rw [hloaded.section_trig_eq] at hsection
      obtain rfl := Option.some.inj hsection
      rw [LoadedFile.savedTriggers, hloaded.pointer_of_selected hselected]
      by_cases hone : file.allSections.count handle = 1
      · simp [hone]
      · have hnone := honce handle _ hold (by omega)
        rw [List.length_eq_zero_iff.mp hnone]
        simp

theorem length_savedTriggers (hselected : state.selected .trig = some handle) :
    file.savedTriggers.length = file.allSections.count handle * file.trigTriggers.length := by
  rw [LoadedFile.savedTriggers, hloaded.pointer_of_selected hselected]
  simp

section

variable (hreread : RereadState file state.parsedSections again)
  (hagain : SelectsAgain state again selected selectedAgain)

include hreread hagain

/-- Content that is saved once and read at its starts comes back, and the
triggers as the last steps leave them. -/
theorem content_eq (honce : RecordsSavedOnce file)
    (hreaches : ∀ content ∈ file.savedSections, StringsReachable content)
    (entries : List (Option ExtendedTrigData)) :
    (selectedAgain.setTriggers file.trigTriggers entries).content =
      file.content := by
  apply List.map_congr_left
  intro name hname
  by_cases htrig : name = .trig
  · subst htrig
    rw [hagain.section_trig_set, hloaded.section_trig_eq]
  · rw [hagain.section_set hname htrig]
    cases hselected : state.selected name with
    | none =>
        rw [hagain.missing name hselected, hloaded.shown_of_missing hname hselected]
    | some handle =>
        have hktrg : name ≠ .ktrg := by
          rintro rfl
          revert hname
          decide
        obtain ⟨old, body, new, hsection, -, hnew, hold, hpos, hobject⟩ :=
          hloaded.exists_reread hreread hselected (proper_of_mem_contentNames hname) hktrg
        have hreload := reload_of_savedOnce honce hold hpos hobject
        have hsaved : old ∈ file.savedSections :=
          List.mem_filterMap.mpr ⟨handle, List.count_pos_iff.mp hpos, hold⟩
        rw [hagain.parsed name new hnew, hsection]
        exact congrArg some ((shown_eq_iff_of_reloadsTo hreload.name_eq
          hreload.reloadsTo).mpr (hreaches old hsaved))

/-- What the second load shows of a saved section, triggers apart. -/
theorem shown_eq_of_content_eq
    (hcontent : (selectedAgain.setTriggers triggers entries).content = file.content)
    (hobject : file.objects[handle]? = some content) (hmem : handle ∈ file.allSections)
    (hname : content.name ∈ contentNames) (htrig : content.name ≠ .trig)
    (hbehavior : content.name.loadBehavior ≠ .standard) :
    ∃ body new, Reread (file.allSections.count handle) content body new ∧
      shown new = shown content := by
  have hproper := proper_of_mem_contentNames hname
  have hselected := hloaded.selected_of_saved hobject hmem hproper hbehavior
  have hktrg : content.name ≠ .ktrg := by
    intro heq
    rw [heq] at hbehavior
    exact hbehavior rfl
  obtain ⟨old, body, new, hsection, -, hnew, hold, -, hreads⟩ :=
    hloaded.exists_reread hreread hselected hproper hktrg
  rw [hobject] at hold
  obtain rfl := Option.some.inj hold
  have hshown := List.map_inj_left.mp hcontent content.name hname
  rw [hagain.section_set hname htrig, hagain.parsed _ new hnew, hsection] at hshown
  exact ⟨body, new, hreads, Option.some.inj hshown⟩

end

theorem triggers_of_content_eq (hagain : SelectsAgain state again selected selectedAgain)
    (hcontent : (selectedAgain.setTriggers triggers entries).content =
      file.content) : triggers = file.trigTriggers := by
  have hshown := List.map_inj_left.mp hcontent .trig (by decide)
  rw [hagain.section_trig_set, hloaded.section_trig_eq] at hshown
  exact Shown.triggers.inj (Option.some.inj hshown)

section

variable (hreread : RereadState file state.parsedSections again)
  (hagain : SelectsAgain state again selected selectedAgain)

include hreread hagain

theorem savedOnce_of_content_eq (hfix : fixTriggerExtensions file.savedTriggers file.savedEntries =
      .ok (triggers, entries))
    (hcontent : (selectedAgain.setTriggers triggers entries).content = file.content) :
    RecordsSavedOnce file := by
  intro handle content hobject htwice
  by_contra hrecords
  obtain ⟨hname, hbehavior⟩ := name_of_appendedRecords hrecords
  have hmem : handle ∈ file.allSections := List.count_pos_iff.mp (by omega)
  have hdouble := Nat.mul_le_mul_right (appendedRecords content) htwice
  by_cases htrig : content.name = .trig
  · have hselected := hloaded.selected_of_saved hobject hmem
      (proper_of_mem_contentNames hname) hbehavior
    rw [htrig] at hselected
    have hlength := length_fixTriggerExtensions hfix
    rw [hloaded.length_savedTriggers hselected,
      hloaded.triggers_of_content_eq hagain hcontent] at hlength
    have hsection := hloaded.section_of_selected hselected
    rw [hobject, hloaded.section_trig_eq] at hsection
    obtain rfl := Option.some.inj hsection
    simp only [appendedRecords] at hrecords hdouble
    omega
  · obtain ⟨body, new, hreads, hshown⟩ := hloaded.shown_eq_of_content_eq
      hreread hagain hcontent hobject hmem hname htrig hbehavior
    have hequal := appendedRecords_of_shown hreads.name_eq hshown
    rw [hreads.records_eq] at hequal
    omega

/-- Strings that come back are those read at their starts. -/
theorem reachable_of_content_eq
    (hcontent : (selectedAgain.setTriggers triggers entries).content = file.content)
    (hsaved : content ∈ file.savedSections) : StringsReachable content := by
  obtain ⟨handle, hmem, hobject⟩ := List.mem_filterMap.mp hsaved
  cases content with
  | str table =>
      obtain ⟨body, new, hreads, hshown⟩ := hloaded.shown_eq_of_content_eq
        hreread hagain hcontent hobject hmem
        (show SectionName.str ∈ contentNames by decide) nofun nofun
      have hreload := hreads.reload (Or.inr rfl)
      exact (shown_eq_iff_of_reloadsTo hreload.name_eq hreload.reloadsTo).mp hshown
  | _ => trivial

end

/-- The second load of a scenario that is framed as it is read. -/
theorem exists_selectsAgain_of_write (hframed : Framed file.savedSections)
    (hwrite : file.write = .ok written) :
    ∃ again selectedAgain, Loop.Returns sectionPass (LoadState.start written) (some again) ∧
      RereadState file state.parsedSections again ∧
      SelectsAgain state again selected selectedAgain := by
  have hne : state.parsedSections ≠ [] := by
    intro hnil
    obtain ⟨ver, hver, -⟩ := hloaded.exists_ver
    obtain ⟨handle, hselected, -⟩ := Option.bind_eq_some_iff.mp (struct?_eq_some_iff.mp hver)
    change state.selected (.struct .ver) = some handle at hselected
    have hmem := LoadState.mem_of_selected hselected
    rw [hnil] at hmem
    cases hmem
  rw [hloaded.savedSections_eq] at hframed
  rw [LoadedFile.write, hloaded.savedSections_eq] at hwrite
  obtain ⟨again, hreturns, hreread⟩ := exists_rereadState hloaded.savedAs hframed hne hwrite
  obtain ⟨selectedAgain, hagain⟩ := hloaded.exists_selectsAgain hreread
  exact ⟨again, selectedAgain, hreturns, hreread, hagain⟩

/-- What the second load returns, if the links of what was saved can be
repaired. -/
theorem readsTo_iff (hreturns : Loop.Returns sectionPass (LoadState.start written)
      (some again)) (hreread : RereadState file state.parsedSections again)
    (hagain : SelectsAgain state again selected selectedAgain)
    (reloaded : LoadedFile) :
    ReadsTo written reloaded ↔ ∃ triggers entries,
      fixTriggerExtensions file.savedTriggers file.savedEntries = .ok (triggers, entries) ∧
      reloaded = selectedAgain.setTriggers triggers entries := by
  constructor
  · rintro ⟨other, otherSelected, hother, hselect, hfinish, -⟩
    obtain rfl := Option.some.inj (hreturns.unique hother)
    rw [hagain.select] at hselect
    obtain rfl := Option.some.inj hselect
    obtain ⟨⟨triggers, entries⟩, hfix, -⟩ := Fault.bind_eq_ok_iff.mp hfinish
    rw [hagain.trigTriggers_eq hloaded hreread, hagain.ktrgEntries_eq hloaded hreread] at hfix
    have hsame := (hagain.loaded hloaded hreread hfix).finish
    rw [hfinish] at hsame
    exact ⟨triggers, entries, hfix, Except.ok.inj hsame⟩
  · rintro ⟨triggers, entries, hfix, rfl⟩
    have hsecond := hagain.loaded hloaded hreread hfix
    refine ⟨again, selectedAgain, hreturns, hagain.select, hsecond.finish, ?_⟩
    rw [hsecond.kept.memorySafe_eq, hagain.memorySafe_eq]

end

end Loaded

theorem ReadsTo.exists_loaded {bytes : List UInt8} {file : LoadedFile}
    (hreads : ReadsTo bytes file) :
    ∃ state selected, Loaded state selected file := by
  obtain ⟨state, selected, hreturns, hselect, hfinish, -⟩ := hreads
  exact ⟨state, selected, ⟨consistent_of_returns hreturns, hselect⟩, hfinish⟩

/-- A save whose sections are framed as they are read is loaded exactly if the
links of what was saved can be repaired, and then without trailing bytes. -/
theorem reloads_iff {bytes : List UInt8} {file : LoadedFile}
    (hreads : ReadsTo bytes file) (hwrite : file.write = .ok written)
    (hframed : Framed file.savedSections) :
    ((∃ reloaded, ReadsTo written reloaded) ↔
        ∀ index, Adoptable file.savedTriggers file.savedEntries index) ∧
      ∀ reloaded, ReadsTo written reloaded →
        reloaded.tailLength = 0 ∧ reloaded.tailData = List.replicate 7 0 := by
  obtain ⟨state, selected, hloaded⟩ := hreads.exists_loaded
  obtain ⟨again, selectedAgain, hreturns, hreread, hagain⟩ :=
    hloaded.exists_selectsAgain_of_write hframed hwrite
  have hiff := hloaded.readsTo_iff hreturns hreread hagain
  refine ⟨?_, fun reloaded hreloaded => ?_⟩
  · rw [← fixTriggerExtensions_returns_iff file.usableEntries_savedEntries]
    constructor
    · rintro ⟨reloaded, hreloaded⟩
      obtain ⟨triggers, entries, hfix, -⟩ := (hiff reloaded).mp hreloaded
      exact ⟨triggers, entries, hfix⟩
    · rintro ⟨triggers, entries, hfix⟩
      exact ⟨_, (hiff _).mpr ⟨triggers, entries, hfix, rfl⟩⟩
  · obtain ⟨triggers, entries, hfix, rfl⟩ := (hiff reloaded).mp hreloaded
    have hsecond := hagain.loaded hloaded hreread hfix
    exact ⟨hsecond.tailLength_eq.trans hreread.tailLength_eq,
      hsecond.tailData_eq.trans hreread.tailData_eq⟩

/-- A loaded scenario whose sections are framed as they are read is saved and
loaded without a change of its content exactly when no section with records to
append occurs twice among the saved ones, the extended data that is saved keeps
the links of the triggers, and every string is what is read at its start. -/
theorem saveLoad_keeps_content_iff {bytes written : List UInt8}
    {file : LoadedFile} (hreads : ReadsTo bytes file)
    (hwrite : file.write = .ok written)
    (hframed : Framed file.savedSections) :
    (∃ reloaded, ReadsTo written reloaded ∧ reloaded.content = file.content) ↔
      RecordsSavedOnce file ∧ LinksKept file.trigTriggers file.savedEntries ∧
        ∀ content ∈ file.savedSections, StringsReachable content := by
  obtain ⟨state, selected, hloaded⟩ := hreads.exists_loaded
  obtain ⟨again, selectedAgain, hreturns, hreread, hagain⟩ :=
    hloaded.exists_selectsAgain_of_write hframed hwrite
  have hiff := hloaded.readsTo_iff hreturns hreread hagain
  have hkeeps := @fixTriggerExtensions_keeps_iff file.trigTriggers
    file.savedEntries file.usableEntries_savedEntries
    (file.length_savedEntries_lt hframed)
  constructor
  · rintro ⟨reloaded, hreloaded, hcontent⟩
    obtain ⟨triggers, entries, hfix, rfl⟩ := (hiff reloaded).mp hreloaded
    have honce := hloaded.savedOnce_of_content_eq hreread hagain hfix hcontent
    refine ⟨honce, hkeeps.mp ⟨entries, ?_⟩, fun content hsaved =>
      hloaded.reachable_of_content_eq hreread hagain hcontent hsaved⟩
    rwa [hloaded.savedTriggers_of_savedOnce hreread honce,
      hloaded.triggers_of_content_eq hagain hcontent] at hfix
  · rintro ⟨honce, hlinks, hreaches⟩
    obtain ⟨entries, hfix⟩ := hkeeps.mpr hlinks
    refine ⟨_, (hiff _).mpr ⟨file.trigTriggers, entries, ?_, rfl⟩,
      hloaded.content_eq hreread hagain honce hreaches entries⟩
    rwa [hloaded.savedTriggers_of_savedOnce hreread honce]

def versionFrame : List UInt8 := [86, 69, 82, 32, 2, 0, 0, 0, 59, 0]

def versionSection : StructSection := ⟨.ver, [59, 0], true, by decide⟩

/-- A UNIT section of one unit whose fields are zero. -/
def unitFrame : List UInt8 := [85, 78, 73, 84, 36, 0, 0, 0] ++ List.replicate 36 0

def blankUnit : Chk.Unit := unitCodec.decode (List.replicate 36 0)

/-- A trigger that names the extended data of index 2, the first usable one. -/
def linkedTrigger : Trigger := withIndexWord blankTrigger 2

def linkedData : ExtendedTrigData :=
  { ExtendedTrigData.blank with trigNum := 0 }

/-- A unit, two STR and two MTXM sections, and a trigger with extended data. -/
def linkedFrames : List UInt8 :=
  versionFrame ++ unitFrame ++ [83, 84, 82, 32, 7, 0, 0, 0, 1, 0, 5, 0, 0, 65, 0] ++
    [83, 84, 82, 32, 7, 0, 0, 0, 1, 0, 5, 0, 0, 66, 0] ++
    [77, 84, 88, 77, 2, 0, 0, 0, 1, 0] ++
    [77, 84, 88, 77, 2, 0, 0, 0, 2, 0] ++
    [84, 82, 73, 71, 96, 9, 0, 0] ++ triggerCodec.encode linkedTrigger ++
    [75, 84, 82, 71, 64, 0, 0, 0, 2, 0, 0, 0] ++
    extendedTrigDataCodec.encodeAll [.blank, .blank, linkedData]

/-- What is saved of them: the second STR and MTXM sections have overridden
the first ones, and are saved twice. -/
def linkedSections : List Section := [.struct versionSection, .unit [blankUnit],
    .str (StrSection.syncBytesToStrings [1, 0, 5, 0, 0, 66, 0]),
    .str (StrSection.syncBytesToStrings [1, 0, 5, 0, 0, 66, 0]),
    .mtxm [2], .mtxm [2], .trig [linkedTrigger],
    .ktrg ⟨[none, none, some linkedData]⟩]

theorem exists_linkedFile : ∃ file, ReadsTo linkedFrames file ∧
      file.savedSections = linkedSections ∧
      file.trigTriggers = [linkedTrigger] ∧
      file.savedEntries = [none, none, some linkedData] ∧
      RecordsSavedOnce file := by
  obtain ⟨file, hreads, hcheck⟩ : ∃ file, ReadsTo linkedFrames file ∧
      (decide (file.savedSections = linkedSections) &&
        decide (file.trigTriggers = [linkedTrigger]) &&
        decide (file.savedEntries = [none, none, some linkedData]) &&
        file.allSections.all fun handle =>
          decide (file.allSections.count handle < 2) ||
            (file.objects[handle]?.elim 0 appendedRecords == 0)) = true :=
    exists_readsTo_of_eval 10 (by decide +kernel)
  simp only [Bool.and_eq_true, decide_eq_true_eq] at hcheck
  obtain ⟨⟨⟨hsaved, htriggers⟩, hentries⟩, honce⟩ := hcheck
  refine ⟨file, hreads, hsaved, htriggers, hentries, ?_⟩
  intro handle content hobject htwice
  have hmem : handle ∈ file.allSections := List.count_pos_iff.mp (by omega)
  have hhandle := List.all_eq_true.mp honce handle hmem
  rw [hobject] at hhandle
  simpa [not_lt.mpr htwice] using hhandle

/-- The file keeps its unit, its tiles, its string and its linked trigger,
although what is written is not what was read. -/
theorem saveLoad_keeps_linked : ∃ file written reloaded, ReadsTo linkedFrames file ∧
      file.savedSections = linkedSections ∧ file.write = .ok written ∧
      written ≠ linkedFrames ∧ ReadsTo written reloaded ∧
      reloaded.content = file.content := by
  obtain ⟨file, hreads, hsaved, htriggers, hentries, honce⟩ := exists_linkedFile
  have hother : (writeSections linkedSections).map
      (fun written => decide (written = linkedFrames)) = .ok false := by
    decide +kernel
  obtain ⟨written, hwritten, hne⟩ := Fault.map_eq_ok_iff.mp hother
  have hframed : Framed file.savedSections := by
    rw [hsaved]
    simp [linkedSections, Framed, Section.AnnouncesBody, Section.name]
  have hlinks : LinksKept file.trigTriggers file.savedEntries := by
    apply (fixTriggerExtensions_keeps_iff file.usableEntries_savedEntries
      (file.length_savedEntries_lt hframed)).mp
    rw [htriggers, hentries]
    exact ⟨[none, none, some linkedData], by decide +kernel⟩
  have hreaches : ∀ content ∈ file.savedSections, StringsReachable content := by
    have hstr : StrSection.ReadsAtStarts (StrSection.syncBytesToStrings
        [1, 0, 5, 0, 0, 66, 0]).strings :=
      (StrSection.characters_syncBytesToStrings_iff (by decide) []).mp (by decide)
    rw [hsaved]
    simpa [linkedSections, StringsReachable] using hstr
  have hwrite : file.write = .ok written := by
    rw [LoadedFile.write, hsaved, hwritten]
  obtain ⟨reloaded, hagain, hcontent⟩ :=
    (saveLoad_keeps_content_iff hreads hwrite hframed).mpr ⟨honce, hlinks, hreaches⟩
  exact ⟨file, written, reloaded, hreads, hsaved, hwrite, of_decide_eq_false hne, hagain, hcontent⟩

/-- A file with two UNIT sections of one unit each: both are one object of two
units, which is saved twice and loaded as four. -/
theorem saveLoad_doubles_units :
    ∃ bytes file written, ReadsTo bytes file ∧ file.write = .ok written ∧
      ¬ ∃ reloaded, ReadsTo written reloaded ∧ reloaded.content = file.content := by
  obtain ⟨file, hreads, hcheck⟩ : ∃ file, ReadsTo (versionFrame ++ unitFrame ++ unitFrame) file ∧
        (decide (file.savedSections = [.struct versionSection,
            .unit [blankUnit, blankUnit], .unit [blankUnit, blankUnit]]) &&
          decide (file.objects[1]? = some (Section.unit [blankUnit, blankUnit])) &&
          decide (1 < file.allSections.count 1)) = true :=
    exists_readsTo_of_eval 5 (by decide +kernel)
  simp only [Bool.and_eq_true, decide_eq_true_eq] at hcheck
  obtain ⟨⟨hsaved, hobject⟩, htwice⟩ := hcheck
  obtain ⟨written, hwrite⟩ : ∃ written, file.write = .ok written := by
    rw [LoadedFile.write, hsaved]
    exact ⟨_, rfl⟩
  have hframed : Framed file.savedSections := by
    rw [hsaved]
    simp [Framed, Section.AnnouncesBody, Section.name]
  refine ⟨_, file, written, hreads, hwrite, fun hkept => ?_⟩
  have hnone := ((saveLoad_keeps_content_iff hreads hwrite hframed).mp hkept).1 1 _ hobject htwice
  cases hnone

end Chkdraft.Scenario
