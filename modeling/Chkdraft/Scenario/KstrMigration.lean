import Chkdraft.Scenario.UpgradeSections
import Chkdraft.Scenario.UpgradeTriggers

/-!
# Old editor strings after an upgrade

A load upgrades KSTR sections of version 0 and 2.  Every name and every comment
that stood for an editor string should then have that string in OSTR or KTRG, and
the string should still be there.  The loop over the locations leaves out the
last one, and sections that were not in the file are left out altogether.
-/

namespace Chkdraft.Scenario

open Binary Chk Sections

variable {content : Section} {name : SectionName} {index offset stringId : ℕ}
  {bytes : List UInt8}

section Links

variable {start file later : LoadedFile} {editor : EditorStrings}

theorem links_setTriggers (hclassed : Classed file) {trig ktrg : ℕ}
    (htrig : file.pointer .trig = some trig)
    (hktrg : file.pointer .ktrg = some ktrg) (triggers : List Trigger)
    (entries : List (Option ExtendedTrigData)) :
    (file.setTriggers triggers entries).trigTriggers = triggers ∧
      (file.setTriggers triggers entries).ktrgEntries = entries := by
  constructor
  · rw [LoadedFile.trigTriggers, section_setTriggers_trig hclassed htrig hktrg]
  · obtain ⟨content, hcontent, -⟩ := hclassed .ktrg ktrg (by decide) hktrg
    have hlt := (List.getElem?_eq_some_iff.mp hcontent).1
    have hsection : (file.setTriggers triggers entries).section? .ktrg =
        some (.ktrg ⟨entries⟩) := by
      simp only [LoadedFile.setTriggers, htrig, hktrg]
      rw [section_eq (by exact hktrg)]
      exact List.getElem?_set_self (by
        rw [LoadedFile.setObject, List.length_set]
        exact hlt)
    rw [LoadedFile.ktrgEntries, hsection]

theorem links_of_objects (hpointer : later.pointer = file.pointer)
    (hobject : ∀ name ∈ [SectionName.trig, .ktrg], ∀ handle, file.pointer name = some handle →
      later.objects[handle]? = file.objects[handle]?) :
    later.trigTriggers = file.trigTriggers ∧ later.ktrgEntries = file.ktrgEntries := by
  have hsection : ∀ name ∈ [SectionName.trig, .ktrg], later.section? name = file.section? name := by
    intro name hname
    rw [LoadedFile.section?, LoadedFile.section?, hpointer]
    cases hhandle : file.pointer name with
    | none => rfl
    | some handle =>
        rw [Option.bind_some, Option.bind_some]
        exact hobject name hname handle hhandle
  constructor
  · rw [LoadedFile.trigTriggers, LoadedFile.trigTriggers, hsection .trig (by simp)]
  · rw [LoadedFile.ktrgEntries, LoadedFile.ktrgEntries, hsection .ktrg (by simp)]

variable {ostr trig ktrg handle : ℕ} (hkept : Kept start file) (hclassed : Classed start)
  (hpointer : start.pointer (.struct .ostr) = some ostr)
  (htrig : start.pointer .trig = some trig)
  (hktrg : start.pointer .ktrg = some ktrg)

include hkept hclassed hpointer

theorem upgradeSection_links_of_ne (hhandle : handle ∈ start.allSections)
    (hcontent : file.objects[handle]? = some content)
    (hname : content.name ≠ .trig)
    (hupgrade : upgradeSection editor file handle = .ok later) :
    later.trigTriggers = file.trigTriggers ∧ later.ktrgEntries = file.ktrgEntries := by
  have hlater := hkept.upgradeSection hclassed hhandle hupgrade
  apply links_of_objects
  · rw [hlater.pointer_eq, hkept.pointer_eq]
  · intro name hlink other hother
    have hproper : ∀ name ∈ [SectionName.trig, .ktrg],
        SectionName.ofCode name.code = name := by decide
    obtain ⟨old, hold, hclass⟩ := hkept.classed hclassed name other (hproper name hlink) hother
    rw [hold]
    refine upgradeSection_object hkept hclassed hpointer hhandle hcontent hold
      (.inr (.inr ⟨hname, ?_⟩)) hupgrade
    rw [hclass]
    simpa using hlink

include htrig hktrg

omit hpointer in
theorem upgradeSection_links {triggers : List Trigger}
    (hcontent : file.objects[handle]? = some (.trig triggers))
    (hupgrade : upgradeSection editor file handle = .ok later) :
    (List.range file.trigTriggers.length).foldlM (upgradeTrigger editor)
      (file.trigTriggers, file.ktrgEntries) = .ok (later.trigTriggers, later.ktrgEntries) := by
  simp only [Scenario.upgradeSection, hcontent] at hupgrade
  obtain ⟨⟨upgraded, entries⟩, hrun, hresult⟩ := Fault.bind_eq_ok_iff.mp hupgrade
  cases hresult
  have hlinks := links_setTriggers (hkept.classed hclassed)
    (by rw [hkept.pointer_eq, htrig]) (by rw [hkept.pointer_eq, hktrg])
    upgraded entries
  rw [hlinks.1, hlinks.2]
  exact hrun

variable {handles : List ℕ} (hhandles : ∀ handle ∈ handles, handle ∈ start.allSections)
  (hthere : ∀ handle ∈ handles, ∃ content, start.objects[handle]? = some content)
  (hrun : handles.foldlM (upgradeSection editor) file = .ok later)

include hhandles hthere hrun

theorem foldlM_upgradeSection_again {triggers : List Trigger}
    {entries : List (Option ExtendedTrigData)}
    (hmoves : MovesComments editor triggers entries file.trigTriggers file.ktrgEntries) :
    MovesComments editor triggers entries later.trigTriggers
      later.ktrgEntries := by
  induction handles generalizing file with
  | nil =>
      cases hrun
      exact hmoves
  | cons first rest ih =>
      rw [List.foldlM_cons, Fault.bind_eq_ok_iff] at hrun
      obtain ⟨middle, hfirst, hrest⟩ := hrun
      have hmem := hhandles first List.mem_cons_self
      obtain ⟨old, hold⟩ := hthere first List.mem_cons_self
      obtain ⟨content, hcontent, -⟩ := hkept.exists_later hold
      refine ih (hkept.upgradeSection hclassed hmem hfirst)
        (fun handle hin => hhandles handle (List.mem_cons_of_mem first hin))
        (fun handle hin => hthere handle (List.mem_cons_of_mem first hin))
        hrest ?_
      by_cases hname : content.name = .trig
      · obtain ⟨behind, rfl⟩ := trig_of_name hname
        exact hmoves.again (upgradeSection_links hkept hclassed htrig hktrg hcontent hfirst)
      · have hsame := upgradeSection_links_of_ne hkept hclassed hpointer hmem hcontent hname hfirst
        rw [hsame.1, hsame.2]
        exact hmoves

theorem foldlM_upgradeSection_comments
    (hkeeps : KeepsEntries editor file.trigTriggers file.ktrgEntries)
    (hthereTrig : ∃ handle ∈ handles, ∃ content,
      start.objects[handle]? = some content ∧ content.name = .trig) :
    MovesComments editor file.trigTriggers file.ktrgEntries
      later.trigTriggers later.ktrgEntries := by
  induction handles generalizing file with
  | nil =>
      obtain ⟨handle, hin, -⟩ := hthereTrig
      cases hin
  | cons first rest ih =>
      rw [List.foldlM_cons, Fault.bind_eq_ok_iff] at hrun
      obtain ⟨middle, hfirst, hrest⟩ := hrun
      have hmem := hhandles first List.mem_cons_self
      have hmems := fun handle hin =>
        hhandles handle (List.mem_cons_of_mem first hin)
      have hobjects := fun handle hin =>
        hthere handle (List.mem_cons_of_mem first hin)
      obtain ⟨old, hold⟩ := hthere first List.mem_cons_self
      obtain ⟨content, hcontent, hadjusted⟩ := hkept.exists_later hold
      have hmiddle := hkept.upgradeSection hclassed hmem hfirst
      by_cases hname : content.name = .trig
      · obtain ⟨behind, rfl⟩ := trig_of_name hname
        exact foldlM_upgradeSection_again hmiddle hclassed hpointer htrig hktrg
          hmems hobjects hrest (movesComments_of_pass hkeeps
            (upgradeSection_links hkept hclassed htrig hktrg hcontent hfirst))
      · have hsame := upgradeSection_links_of_ne hkept hclassed hpointer hmem hcontent hname hfirst
        rw [← hsame.1, ← hsame.2] at hkeeps ⊢
        refine ih hmiddle hmems hobjects hrest hkeeps ?_
        obtain ⟨handle, hin, found, hfound, hclass⟩ := hthereTrig
        rcases List.mem_cons.mp hin with rfl | hbehind
        · rw [hold] at hfound
          cases hfound
          exact absurd (hadjusted.1.trans hclass) hname
        · exact ⟨handle, hbehind, found, hfound, hclass⟩

omit htrig hktrg in
theorem foldlM_upgradeSection_table {table : Section} {other : ℕ}
    (hname : name = .str ∨ name = .kstr) (hclass : table.name = name)
    (htable : file.objects[other]? = some table) :
    later.objects[other]? = some table := by
  induction handles generalizing file with
  | nil =>
      cases hrun
      exact htable
  | cons first rest ih =>
      rw [List.foldlM_cons, Fault.bind_eq_ok_iff] at hrun
      obtain ⟨middle, hfirst, hrest⟩ := hrun
      have hmem := hhandles first List.mem_cons_self
      obtain ⟨old, hold⟩ := hthere first List.mem_cons_self
      obtain ⟨content, hcontent, -⟩ := hkept.exists_later hold
      refine ih (hkept.upgradeSection hclassed hmem hfirst)
        (fun handle hin => hhandles handle (List.mem_cons_of_mem first hin))
        (fun handle hin => hthere handle (List.mem_cons_of_mem first hin))
        hrest ?_
      refine upgradeSection_object hkept hclassed hpointer hmem hcontent htable ?_ hfirst
      rw [hclass]
      rcases hname with rfl | rfl
      · exact .inl rfl
      · exact .inr (.inl rfl)

end Links

section Users

variable {file later : LoadedFile} {users : LoadedScenario}

theorem mem_words32 {content : StructSection} {count : ℕ} (hindex : index < count) :
    wordAt 4 content.rawData (offset + 4 * index) ∈
      (LoadedFile.words32 content offset count).toList.map UInt32.toNat := by
  have hlt := KtgpSection.wordAt_four_lt content.rawData (offset + 4 * index)
  simp only [LoadedFile.words32, List.Vector.toList_mk, structWords, List.map_map]
  refine List.mem_map.mpr ⟨index, List.mem_range.mpr hindex, ?_⟩
  simp only [Function.comp_apply, UInt32.toNat_ofNat']
  exact Nat.mod_eq_of_lt hlt

/-- The object behind the pointer of a structure that can be dereferenced. -/
theorem object_of_structAt {name : StructName} {content : StructSection}
    {handle : ℕ} (hpointer : file.pointer (.struct name) = some handle)
    (hat : file.structAt name = .ok content) :
    file.objects[handle]? = some (.struct content) := by
  unfold LoadedFile.structAt at hat
  split at hat
  · rename_i found hfound
    split at hat
    · cases hat
      rw [struct?_eq_some_iff, section_eq hpointer] at hfound
      exact hfound
    · cases hat
  · cases hat

theorem marks_of_ostrAt (husers : file.stringUsers = .ok users) {ostr : ℕ}
    (hpointer : file.pointer (.struct .ostr) = some ostr) {value : ℕ}
    (hword : file.ostrAt ostr offset = some value) (hdvd : 4 ∣ offset)
    (hle : 4 ≤ offset) (hlt : offset < 5944) (hpos : 0 < value) :
    users.marksEditorString .all value := by
  unfold LoadedFile.stringUsers at husers
  iterate 7
    obtain ⟨_, -, husers⟩ := Fault.bind_eq_ok_iff.mp husers
  obtain ⟨content, hcontent, husers⟩ := Fault.bind_eq_ok_iff.mp husers
  split at husers
  · cases husers
    rw [LoadedFile.ostrAt, object_of_structAt hpointer hcontent,
      Option.bind_some, ostrWord, Option.some.injEq] at hword
    have hword32 := KtgpSection.wordAt_four_lt content.rawData
    have hsingle : ∀ place, (UInt32.ofNat (wordAt 4 content.rawData place)).toNat =
          wordAt 4 content.rawData place := by
      intro place
      rw [UInt32.toNat_ofNat']
      exact Nat.mod_eq_of_lt (hword32 place)
    have hmem : ∀ {base count : ℕ}, base ≤ offset → 4 ∣ base → offset < base + 4 * count → value ∈
          (LoadedFile.words32 content base count).toList.map UInt32.toNat := by
      intro base count hbase hdvd' hend
      have hplace : offset = base + 4 * ((offset - base) / 4) := by omega
      rw [← hword, hplace]
      exact mem_words32 (by omega)
    refine ⟨hpos, ?_⟩
    rcases Nat.lt_or_ge offset 12 with hfirst | hforce
    · rcases (by omega : offset = 4 ∨ offset = 8) with rfl | rfl
      · refine ⟨.scenarioName, rfl, List.mem_singleton.mpr ?_⟩
        exact hword.symm.trans (hsingle 4).symm
      · refine ⟨.scenarioDescription, rfl, List.mem_singleton.mpr ?_⟩
        exact hword.symm.trans (hsingle 8).symm
    rcases Nat.lt_or_ge offset 28 with hlt' | hunit
    · exact ⟨.force, rfl, hmem hforce (by decide) (by omega)⟩
    rcases Nat.lt_or_ge offset 940 with hlt' | hexpansion
    · exact ⟨.originalUnitSettings, rfl, hmem hunit (by decide) (by omega)⟩
    rcases Nat.lt_or_ge offset 1852 with hlt' | hsound
    · exact ⟨.expansionUnitSettings, rfl, hmem hexpansion (by decide) (by omega)⟩
    rcases Nat.lt_or_ge offset 3900 with hlt' | hswitch
    · exact ⟨.sound, rfl, hmem hsound (by decide) (by omega)⟩
    rcases Nat.lt_or_ge offset 4924 with hlt' | hlocation
    · exact ⟨.switch, rfl, hmem hswitch (by decide) (by omega)⟩
    · exact ⟨.location, rfl, hmem hlocation (by decide) (by omega)⟩
  · cases husers

theorem ktrg_of_stringUsers (husers : file.stringUsers = .ok users) :
    users.ktrg = file.ktrgEntries := by
  unfold LoadedFile.stringUsers at husers
  iterate 8
    obtain ⟨_, -, husers⟩ := Fault.bind_eq_ok_iff.mp husers
  split at husers
  · cases husers
    rfl
  · cases husers

theorem marks_of_slotsAt (husers : file.stringUsers = .ok users)
    {position : ℕ} {slot : CommentSlot}
    (hpos : 0 < (slotsAt file.trigTriggers file.ktrgEntries position).get slot) :
    users.marksEditorString .all
      ((slotsAt file.trigTriggers file.ktrgEntries position).get slot) := by
  refine ⟨hpos, ?_⟩
  rw [slotsAt_eq, entryData] at hpos ⊢
  cases hextension : triggerExtension? file.trigTriggers file.ktrgEntries position with
  | none =>
      rw [hextension] at hpos
      cases slot <;> cases hpos
  | some found =>
      obtain ⟨index, extension⟩ := found
      have hentry := (triggerExtension_eq_some_iff.mp hextension).2
      have hmem : extension ∈ users.ktrg.reduceOption := by
        rw [ktrg_of_stringUsers husers, List.reduceOption_mem_iff]
        have hlt : index < file.ktrgEntries.length := by
          by_contra hge
          rw [List.getD_eq_default _ _ (Nat.le_of_not_lt hge)] at hentry
          cases hentry
        rw [List.getD_eq_getElem _ _ hlt] at hentry
        rw [← hentry]
        exact List.getElem_mem hlt
      cases slot with
      | comment =>
          exact ⟨.extendedTriggerComment, rfl, List.mem_map.mpr ⟨extension, hmem, rfl⟩⟩
      | notes =>
          exact ⟨.extendedTriggerNotes, rfl, List.mem_map.mpr ⟨extension, hmem, rfl⟩⟩

end Users

section Tail

variable {start file later : LoadedFile}

theorem deleteUnusedStrings_eq (hdelete : file.deleteUnusedStrings = .ok later) :
    ∃ users, file.stringUsers = .ok users ∧ later = file.setStrings users.withoutUnusedStrings.str
        users.withoutUnusedStrings.kstr := by
  unfold LoadedFile.deleteUnusedStrings at hdelete
  obtain ⟨users, husers, hrest⟩ := Fault.bind_eq_ok_iff.mp hdelete
  obtain ⟨cleaned, hcleaned, hresult⟩ := Fault.bind_eq_ok_iff.mp hrest
  rw [Fault.ofHazard_eq_ok_iff] at hcleaned
  unfold LoadedScenario.deleteUnusedStrings at hcleaned
  split at hcleaned
  · cases hcleaned
  · cases hcleaned
    cases hresult
    exact ⟨users, husers, rfl⟩

variable {str kstr : ℕ} (hkept : Kept start file) (hclassed : Classed start)
  (hstr : start.pointer .str = some str)
  (hkstr : start.pointer .kstr = some kstr)

include hkept hclassed hstr hkstr

/-- The objects behind the pointers to the string tables are replaced. -/
theorem setStrings_objects (table : StrSection) (editorTable : KstrSection) :
    (∀ other, other ≠ str → other ≠ kstr →
      (file.setStrings table editorTable).objects[other]? = file.objects[other]?) ∧
      (file.setStrings table editorTable).kstrTable = editorTable := by
  rw [← hkept.pointer_eq] at hstr hkstr
  obtain ⟨content, hcontent, -⟩ := hkept.classed hclassed .kstr kstr (by decide) hkstr
  have hlt := (List.getElem?_eq_some_iff.mp hcontent).1
  simp only [LoadedFile.setStrings, hstr, hkstr]
  constructor
  · intro other hother hother'
    rw [LoadedFile.setObject, List.getElem?_set_ne hother'.symm,
      LoadedFile.setObject, List.getElem?_set_ne hother.symm]
  · rw [LoadedFile.kstrTable, section_eq (by exact hkstr),
      LoadedFile.setObject, List.getElem?_set_self (by
        rw [LoadedFile.setObject, List.length_set]
        exact hlt)]

omit hstr in
theorem setKstr_objects (editorTable : KstrSection) : (∀ other, other ≠ kstr →
      (file.setKstr editorTable).objects[other]? = file.objects[other]?) ∧
      (file.setKstr editorTable).kstrTable = editorTable := by
  rw [← hkept.pointer_eq] at hkstr
  obtain ⟨content, hcontent, -⟩ := hkept.classed hclassed .kstr kstr (by decide) hkstr
  have hlt := (List.getElem?_eq_some_iff.mp hcontent).1
  simp only [LoadedFile.setKstr, hkstr]
  constructor
  · intro other hother
    rw [LoadedFile.setObject, List.getElem?_set_ne hother.symm]
  · rw [LoadedFile.kstrTable, section_eq (by exact hkstr),
      LoadedFile.setObject, List.getElem?_set_self hlt]

/-- Names, words of OSTR and triggers do not depend on the string tables. -/
theorem same_of_tables (hlater : Kept start later) (hsame : ∀ other, other ≠ str → other ≠ kstr →
      later.objects[other]? = file.objects[other]?) {ostr : ℕ}
    (hostr : start.pointer (.struct .ostr) = some ostr) :
    (∀ handle index, later.heldAt handle index = file.heldAt handle index) ∧
      (∀ offset, later.ostrAt ostr offset = file.ostrAt ostr offset) ∧
      later.trigTriggers = file.trigTriggers ∧
      later.ktrgEntries = file.ktrgEntries := by
  -- No section of another name is behind the pointers to the tables.
  have hne : ∀ name ∈ [SectionName.trig, .ktrg, .struct .ostr], ∀ handle,
      start.pointer name = some handle → handle ≠ str ∧ handle ≠ kstr := by
    intro name hname handle hpointer
    have hproper : ∀ name ∈ [SectionName.trig, .ktrg, .struct .ostr],
        SectionName.ofCode name.code = name ∧ name ≠ .str ∧ name ≠ .kstr := by
      decide
    obtain ⟨hcode, hnotStr, hnotKstr⟩ := hproper name hname
    constructor
    · rintro rfl
      exact pointer_ne_of_classed hclassed hcode (by decide) hnotStr hstr hpointer
    · rintro rfl
      exact pointer_ne_of_classed hclassed hcode (by decide) hnotKstr hkstr hpointer
  refine ⟨fun handle index => ?_, fun offset => ?_, ?_⟩
  · by_cases htable : handle = str ∨ handle = kstr
    · have hunnamed : Unnamed start handle := by
        rcases htable with rfl | rfl
        · exact unnamed_of_pointer hclassed (by simp [unnamedSections]) hstr
        · exact unnamed_of_pointer hclassed (by simp [unnamedSections]) hkstr
      rw [(heldAt_of_unnamed hlater hunnamed).1, (heldAt_of_unnamed hkept hunnamed).1]
    · rw [not_or] at htable
      rw [LoadedFile.heldAt, hsame handle htable.1 htable.2, LoadedFile.heldAt]
  · obtain ⟨hleft, hright⟩ := hne (.struct .ostr) (by simp) ostr hostr
    rw [LoadedFile.ostrAt, hsame ostr hleft hright, LoadedFile.ostrAt]
  · apply links_of_objects
    · rw [hlater.pointer_eq, hkept.pointer_eq]
    · intro name hname handle hpointer
      rw [hkept.pointer_eq] at hpointer
      have hmem : name ∈ [SectionName.trig, .ktrg, .struct .ostr] :=
        List.mem_append_left [SectionName.struct .ostr] hname
      obtain ⟨hleft, hright⟩ := hne name hmem handle hpointer
      exact hsame handle hleft hright

end Tail

/-- What is left of the loop over the sections behind it: the ids, the words of
OSTR and the triggers, and the editor strings these name. -/
structure AfterLoop (start file upgraded later : LoadedFile) (ostr : ℕ) : Prop where
  kept : Kept start later
  held : ∀ handle index, later.heldAt handle index = upgraded.heldAt handle index
  words : ∀ offset, later.ostrAt ostr offset = upgraded.ostrAt ostr offset
  triggers : later.trigTriggers = upgraded.trigTriggers
  entries : later.ktrgEntries = upgraded.ktrgEntries
  storedWord : ∀ offset value, later.ostrAt ostr offset = some value →
    4 ∣ offset → 4 ≤ offset → offset < 5944 → 0 < value →
    later.kstrTable.strings.getD value none = file.kstrTable.strings.getD value none
  storedSlot : ∀ position slot value,
    (slotsAt later.trigTriggers later.ktrgEntries position).get slot = value →
    0 < value →
    later.kstrTable.strings.getD value none = file.kstrTable.strings.getD value none

namespace Selects

variable {state : LoadState} {selected file upgraded later : LoadedFile}
  {ostr : ℕ}

section

variable (hselects : Selects state selected) (hkept : Kept selected file)
  (hostr : selected.pointer (.struct .ostr) = some ostr)
  (hrun : file.upgradeSections = .ok upgraded)

include hselects hkept hostr hrun

theorem upgradeSections_kstrTable : upgraded.kstrTable = file.kstrTable := by
  obtain ⟨kstr, hkstr⟩ := Option.ne_none_iff_exists'.mp
    (hselects.pointer_plain (show SectionName.kstr ∈ plainSections by decide))
  have hupgraded := (hselects.upgradeSections_held hkept hostr hrun).1
  rw [LoadedFile.upgradeSections, hkept.allSections_eq] at hrun
  have hbefore : file.pointer .kstr = some kstr := by
    rw [hkept.pointer_eq, hkstr]
  have hbehind : upgraded.pointer .kstr = some kstr := by
    rw [hupgraded.pointer_eq, hkstr]
  obtain ⟨table, htable, hclass⟩ := hkept.classed hselects.classed .kstr kstr (by decide) hbefore
  rw [LoadedFile.kstrTable, LoadedFile.kstrTable, section_eq hbefore, section_eq hbehind, htable,
    foldlM_upgradeSection_table hkept hselects.classed hostr
      (fun _ hmem => hmem) hselects.exists_object hrun (.inr rfl) hclass htable]

/-- The version is set and the strings that are not in use are deleted. -/
theorem afterLoop (hdelete : (upgraded.setKstr { upgraded.kstrTable with
      version := KstrSection.currentVersion }).deleteUnusedStrings = .ok later) :
    AfterLoop selected file upgraded later ostr := by
  have hclassed := hselects.classed
  obtain ⟨str, hstr⟩ := Option.ne_none_iff_exists'.mp
    (hselects.pointer_plain (show SectionName.str ∈ plainSections by decide))
  obtain ⟨kstr, hkstr⟩ := Option.ne_none_iff_exists'.mp
    (hselects.pointer_plain (show SectionName.kstr ∈ plainSections by decide))
  have hupgraded := (hselects.upgradeSections_held hkept hostr hrun).1
  have htable := hselects.upgradeSections_kstrTable hkept hostr hrun
  obtain ⟨hversion, hversionTable⟩ := setKstr_objects hupgraded hclassed hkstr
    { upgraded.kstrTable with version := KstrSection.currentVersion }
  have hcurrent : Kept selected (upgraded.setKstr { upgraded.kstrTable with
      version := KstrSection.currentVersion }) :=
    hupgraded.setKstr hclassed hupgraded.wellFormed_kstrTable
  have hlater := hcurrent.deleteUnusedStrings hclassed hdelete
  obtain ⟨users, husers, hresult⟩ := deleteUnusedStrings_eq hdelete
  obtain ⟨hstrings, hstringsTable⟩ := setStrings_objects hcurrent hclassed hstr
    hkstr users.withoutUnusedStrings.str users.withoutUnusedStrings.kstr
  rw [← hresult] at hstrings hstringsTable
  obtain ⟨hheld, hwords, htriggers, hentries⟩ := same_of_tables hupgraded
    hclassed hstr hkstr hcurrent (fun other _ => hversion other) hostr
  obtain ⟨hheld', hwords', htriggers', hentries'⟩ := same_of_tables hcurrent
    hclassed hstr hkstr hlater hstrings hostr
  have hstored : ∀ value, users.marksEditorString .all value →
      later.kstrTable.strings.getD value none = file.kstrTable.strings.getD value none := by
    intro value hmarks
    rw [hstringsTable, LoadedScenario.getD_withoutUnusedEditorStrings hmarks,
      (Kept.tables_of_stringUsers husers).2, hversionTable, htable]
  refine ⟨hlater, fun handle index => ?_, fun offset => ?_, ?_, ?_,
    fun offset value hword hdvd hle hlt hpos => ?_,
    fun position slot value hslot hpos => ?_⟩
  · rw [hheld', hheld]
  · rw [hwords', hwords]
  · rw [htriggers', htriggers]
  · rw [hentries', hentries]
  · apply hstored
    rw [hwords'] at hword
    exact marks_of_ostrAt husers (by rw [hcurrent.pointer_eq, hostr]) hword hdvd hle hlt hpos
  · apply hstored
    rw [htriggers', hentries'] at hslot
    rw [← hslot] at hpos ⊢
    exact marks_of_slotsAt husers hpos

end

end Selects

/-! ## Migration -/

namespace LoadedFile

/-- The editor strings of a scenario as its upgrade sees them. -/
def editorStrings (file : LoadedFile) : EditorStrings :=
  ⟨file.strStrings.length, file.kstrTable.strings⟩

/-- The string id of a name in the section that is in use. -/
def nameId (file : LoadedFile) (name : SectionName) (index : ℕ) : Option ℕ :=
  (file.pointer name).bind fun handle => file.heldAt handle index

def ostrId (file : LoadedFile) (name : SectionName) (index : ℕ) : Option ℕ :=
  (file.pointer (.struct .ostr)).bind fun handle =>
    file.ostrAt handle (ostrOffset name index)

/-- The string an id stands for is stored as it was. -/
def KeepsString (file later : LoadedFile) (stringId : ℕ) : Prop :=
  later.kstrTable.strings.getD (65536 - stringId) none =
    file.kstrTable.strings.getD (65536 - stringId) none

end LoadedFile

/-- Every name that stands for an editor string is moved to OSTR, and no other
name changes. -/
def MigratesNames (file later : LoadedFile) : Prop :=
  ∀ name ∈ namedSections, ∀ index stringId, file.nameId name index = some stringId →
    if file.editorStrings.refersTo stringId then
      later.nameId name index = some 0 ∧ later.ostrId name index = some (65536 - stringId) ∧
        file.KeepsString later stringId
    else later.nameId name index = some stringId

/-- Every comment that stands for an editor string and has a free slot is moved
to that slot, and no other comment changes. -/
def MigratesComments (file later : LoadedFile) : Prop :=
  ∀ (position : ℕ) (trigger : Trigger), file.trigTriggers[position]? = some trigger →
    ∀ (index : ℕ) (action : Action), trigger.actions.toList[index]? = some action →
      action.actionType = VirtualAction.comment.actionType →
      ∃ (now : Trigger) (moved : Action), later.trigTriggers[position]? = some now ∧
        now.actions.toList[index]? = some moved ∧
        if file.editorStrings.refersTo action.stringId.toNat then
          ∀ slot, (slotsAt file.trigTriggers file.ktrgEntries
              position).free[(commentIds file.editorStrings
                (trigger.actions.toList.take index)).length]? = some slot →
            moved = { action with stringId := 0 } ∧ (slotsAt later.trigTriggers later.ktrgEntries
                position).get slot = 65536 - action.stringId.toNat ∧
              file.KeepsString later action.stringId.toNat
        else moved = action

/-- Old editor strings are where their users look for them now. -/
structure Migrates (file later : LoadedFile) : Prop where
  names : MigratesNames file later
  comments : MigratesComments file later

/-- No name that stands for an editor string is left out: its section was in the
file, and it is not the name of the last location. -/
def VisitsNames (file : LoadedFile) : Prop :=
  ∀ name ∈ namedSections, ∀ index stringId, file.nameId name index = some stringId →
    file.editorStrings.refersTo stringId = true →
    (∃ handle ∈ file.allSections, file.pointer name = some handle) ∧
      (name = .mrgn → file.nameId .mrgn (index + 1) ≠ none)

/-- Every comment keeps the entry of the KTRG section it is moved to. -/
def KeepsCommentEntries (file : LoadedFile) : Prop :=
  KeepsEntries file.editorStrings file.trigTriggers file.ktrgEntries

/-- A load up to the end of the upgrade of an old KSTR section. -/
def UpgradesKstr (bytes : List UInt8) (file later : LoadedFile) : Prop :=
  ∃ state selected triggers entries, Loop.Returns sectionPass (LoadState.start bytes) (some state) ∧
    state.selectSections = some selected ∧
    fixTriggerExtensions selected.trigTriggers selected.ktrgEntries = .ok (triggers, entries) ∧
    file = selected.setTriggers triggers entries ∧
    (file.kstrTable.version = 0 ∨ file.kstrTable.version = 2) ∧
    file.upgradeKstrToCurrent = .ok later

theorem UpgradesKstr.exists_loop {file later : LoadedFile}
    (hupgrades : UpgradesKstr bytes file later) :
    ∃ state selected upgraded ostr, Selects state selected ∧ Kept selected file ∧
      selected.pointer (.struct .ostr) = some ostr ∧
      file.upgradeSections = .ok upgraded ∧
      AfterLoop selected file upgraded later ostr := by
  obtain ⟨state, selected, triggers, entries, hreturns, hselect, hfix, rfl,
    hversion, hupgrade⟩ := hupgrades
  have hselects : Selects state selected := ⟨consistent_of_returns hreturns, hselect⟩
  have hformed := hselects.defaulted.wellFormed hselects.consistent.wellFormed
  have hkept := (Kept.refl hformed).setTriggers hselects.classed entries
    (length_fixTriggerExtensions hfix)
  obtain ⟨ostr, hostr⟩ := Option.ne_none_iff_exists'.mp (hselects.pointer_plain
      (show SectionName.struct .ostr ∈ plainSections by decide))
  rw [upgradeKstrToCurrent_eq, if_pos hversion] at hupgrade
  obtain ⟨upgraded, hrun, hdelete⟩ := Fault.bind_eq_ok_iff.mp hupgrade
  exact ⟨state, selected, upgraded, ostr, hselects, hkept, hostr, hrun,
    hselects.afterLoop hkept hostr hrun hdelete⟩

theorem lt_visitedCount_iff (hformed : WellFormed content)
    (hheld : heldId content index = some stringId) :
    index < visitedCount content ↔ (content.name = .mrgn → heldId content (index + 1) ≠ none) := by
  cases content with
  | struct inner =>
      cases hfields : nameFields inner.name with
      | none => simp [heldId, hfields] at hheld
      | some fields =>
          have hlt : index < fields.count := by
            by_contra hge
            simp [heldId, hfields, hge] at hheld
          rw [visitedCount, hfields, Option.elim_some]
          exact iff_of_true hlt fun hname => by cases hname
  | mrgn locations =>
      obtain ⟨rest, rfl⟩ := hformed
      have hnext : heldId (.mrgn (none :: rest.map some)) (index + 1) =
          rest[index]?.map fun location => location.stringId.toNat := by
        simp only [heldId, List.getD_eq_getElem?_getD, List.getElem?_cons_succ, List.getElem?_map]
        cases rest[index]? <;> rfl
      rw [visitedCount, List.length_cons, List.length_map, hnext]
      simp [Section.name]
  | _ => cases hheld

theorem four_le_ostrOffset (hformed : WellFormed content)
    (hheld : heldId content index = some stringId) :
    4 ≤ ostrOffset content.name index := by
  rcases ostrOffset_cases hformed hheld with
    ⟨name, fields, -, hfields, -, hoffset⟩ | ⟨-, hoffset⟩
  · have hle : 4 ≤ fields.ostrOffset := by
      rcases nameFields_cases hfields with ⟨-, rfl⟩ | ⟨-, rfl⟩ | ⟨-, rfl⟩ |
        ⟨-, rfl⟩ | ⟨-, rfl⟩ | ⟨-, rfl⟩ <;> decide
    omega
  · omega

section Migrates

variable {state : LoadState} {selected file upgraded later : LoadedFile}
  {ostr : ℕ} (hselects : Selects state selected) (hkept : Kept selected file)
  (hostr : selected.pointer (.struct .ostr) = some ostr)
  (hrun : file.upgradeSections = .ok upgraded)
  (hafter : AfterLoop selected file upgraded later ostr)

include hselects hkept hostr hrun hafter

theorem nameId_of_afterLoop (hid : file.nameId name index = some stringId) :
    ∃ handle, file.pointer name = some handle ∧ file.heldAt handle index = some stringId ∧
      later.nameId name index =
        if handle ∈ selected.allSections ∧ index < file.visitedAt handle then
          some (file.editorStrings.leaves stringId)
        else some stringId := by
  obtain ⟨handle, hpointer, hheld⟩ := Option.bind_eq_some_iff.mp hid
  have hbehind : later.pointer name = some handle := by
    rw [hafter.kept.pointer_eq, ← hkept.pointer_eq, hpointer]
  refine ⟨handle, hpointer, hheld, ?_⟩
  rw [LoadedFile.nameId, hbehind, Option.bind_some, hafter.held,
    (hselects.upgradeSections_held hkept hostr hrun).2, hheld]
  rfl

omit hostr hrun hafter in
theorem lt_visitedAt_iff (hname : name ∈ namedSections) {handle : ℕ}
    (hpointer : file.pointer name = some handle)
    (hheld : file.heldAt handle index = some stringId) :
    index < file.visitedAt handle ↔ (name = .mrgn → file.nameId .mrgn (index + 1) ≠ none) := by
  obtain ⟨content, hcontent, hid⟩ := Option.bind_eq_some_iff.mp hheld
  have hclass : content.name = name :=
    (hkept.classed hselects.classed).at (proper_of_namedSections hname).1 hpointer hcontent
  have hat : file.visitedAt handle = visitedCount content := by
    rw [LoadedFile.visitedAt, hcontent]
    rfl
  rw [hat, lt_visitedCount_iff
    (hkept.wellFormed content (List.mem_of_getElem? hcontent)) hid, hclass]
  constructor
  · rintro hnext rfl
    rw [LoadedFile.nameId, hpointer, Option.bind_some, LoadedFile.heldAt, hcontent]
    exact hnext rfl
  · rintro hnext rfl
    have hlater := hnext rfl
    rw [LoadedFile.nameId, hpointer, Option.bind_some, LoadedFile.heldAt, hcontent] at hlater
    exact hlater

theorem visitsNames_of_migratesNames (hmigrates : MigratesNames file later) : VisitsNames file := by
  intro name hname index stringId hid hrefers
  obtain ⟨handle, hpointer, hheld, hlater⟩ :=
    nameId_of_afterLoop hselects hkept hostr hrun hafter hid
  have hmoved := hmigrates name hname index stringId hid
  rw [if_pos hrefers, hlater] at hmoved
  obtain ⟨hzero, -, -⟩ := hmoved
  have hvisited : handle ∈ selected.allSections ∧ index < file.visitedAt handle := by
    by_contra hleft
    rw [if_neg hleft, Option.some.injEq] at hzero
    exact (EditorStrings.refersTo_iff.mp hrefers).2.1 hzero
  refine ⟨⟨handle, by rw [hkept.allSections_eq]; exact hvisited.1, hpointer⟩, ?_⟩
  exact (lt_visitedAt_iff hselects hkept hname hpointer hheld).mp hvisited.2

theorem migratesNames_of_visitsNames (hvisits : VisitsNames file) : MigratesNames file later := by
  intro name hname index stringId hid
  obtain ⟨handle, hpointer, hheld, hlater⟩ :=
    nameId_of_afterLoop hselects hkept hostr hrun hafter hid
  split
  · rename_i hrefers
    obtain ⟨⟨other, hmem, hother⟩, hnext⟩ := hvisits name hname index stringId hid hrefers
    rw [hpointer] at hother
    cases hother
    rw [hkept.allSections_eq] at hmem
    have hlt := (lt_visitedAt_iff hselects hkept hname hpointer hheld).mpr hnext
    have hselected : selected.pointer name = some handle := by
      rw [← hkept.pointer_eq, hpointer]
    obtain ⟨hgiven, hinside⟩ := hselects.upgradeSections_given hkept hostr hrun
      hname hselected hmem hlt hheld hrefers
    rw [← hafter.words] at hgiven
    obtain ⟨content, hcontent, hcontentId⟩ := Option.bind_eq_some_iff.mp hheld
    have hclass : content.name = name :=
      (hkept.classed hselects.classed).at (proper_of_namedSections hname).1 hpointer hcontent
    have hle := four_le_ostrOffset
      (hkept.wellFormed content (List.mem_of_getElem? hcontent)) hcontentId
    rw [hclass] at hle
    obtain ⟨-, -, hsmall, -⟩ := EditorStrings.refersTo_iff.mp hrefers
    refine ⟨?_, ?_, ?_⟩
    · rw [hlater, if_pos ⟨hmem, hlt⟩, EditorStrings.leaves, if_pos hrefers]
    · rw [LoadedFile.ostrId, hafter.kept.pointer_eq, hostr, Option.bind_some, hgiven]
    · exact hafter.storedWord _ _ hgiven (dvd_ostrOffset name index) hle hinside (by omega)
  · rename_i hstays
    rw [hlater]
    split
    · rw [EditorStrings.leaves, if_neg hstays]
    · rfl

omit hafter in
theorem movesComments_of_upgradeSections
    (hkeeps : KeepsCommentEntries file) (hsome : file.trigTriggers ≠ []) :
    MovesComments file.editorStrings file.trigTriggers file.ktrgEntries
      upgraded.trigTriggers upgraded.ktrgEntries := by
  obtain ⟨ktrg, hktrg⟩ := Option.ne_none_iff_exists'.mp
    (hselects.pointer_plain (show SectionName.ktrg ∈ plainSections by decide))
  cases hparsed : state.selected .trig with
  | none =>
      -- A default TRIG section has no triggers.
      have hdefault : selected.section? .trig = some (.trig []) :=
        hselects.section_of_missing hparsed (by decide) fun _ => rfl
      obtain ⟨new, hnew, hname, hfixed⟩ := hkept.exists_section? hdefault
      obtain ⟨triggers, rfl⟩ := trig_of_name hname
      have hlength : triggers.length = 0 := congrArg Prod.fst hfixed
      rw [LoadedFile.trigTriggers, hnew] at hsome
      exact absurd (List.length_eq_zero_iff.mp hlength) hsome
  | some trig =>
      have htrig := hselects.defaulted.pointer_some .trig trig hparsed
      have hmem : trig ∈ selected.allSections := by
        rw [hselects.defaulted.allSections_eq]
        change trig ∈ state.allSections
        rw [hselects.consistent.allSections_eq]
        exact List.mem_map.mpr ⟨_, LoadState.mem_of_selected hparsed, rfl⟩
      obtain ⟨content, hcontent, hclass⟩ := hselects.classed .trig trig (by decide) htrig
      rw [LoadedFile.upgradeSections, hkept.allSections_eq] at hrun
      exact foldlM_upgradeSection_comments hkept hselects.classed hostr htrig
        hktrg (fun _ hin => hin) hselects.exists_object hrun hkeeps
        ⟨trig, hmem, content, hcontent, hclass⟩

theorem migratesComments_of_keeps (hkeeps : KeepsCommentEntries file) :
    MigratesComments file later := by
  intro position trigger htrigger index action haction hcomment
  have hsome : file.trigTriggers ≠ [] := List.ne_nil_of_mem (List.mem_of_getElem? htrigger)
  have hmoves := movesComments_of_upgradeSections hselects hkept hostr hrun hkeeps hsome
  rw [← hafter.triggers, ← hafter.entries] at hmoves
  obtain ⟨now, hnow, hactions⟩ := hmoves.actions position trigger htrigger
  have hmoved : now.actions.toList[index]? = some (upgradedAction file.editorStrings action) := by
    rw [hactions, List.getElem?_map, haction]
    rfl
  have huses : actionUsesStringArg action.actionType = true := by
    rw [hcomment]
    decide
  have hupgraded : upgradedAction file.editorStrings action =
      withoutText file.editorStrings action := by
    rw [upgradedAction, if_neg]
    rw [hcomment]
    rintro ⟨hsound, -⟩
    revert hsound
    decide
  refine ⟨now, _, hnow, hmoved, ?_⟩
  rw [hupgraded]
  split
  · rename_i hrefers
    intro slot hfree
    have hid := @getElem?_commentIds file.editorStrings _ _ _ haction
      (by rw [refersComment, hrefers, hcomment]; decide)
    have hids : commentIdsAt file.editorStrings file.trigTriggers position =
        commentIds file.editorStrings trigger.actions.toList := by
      rw [commentIdsAt, htrigger]
      rfl
    have hne : commentIdsAt file.editorStrings file.trigTriggers position ≠ [] := by
      rw [hids]
      exact List.ne_nil_of_mem (List.mem_of_getElem? hid)
    have hslot : (slotsAt later.trigTriggers later.ktrgEntries
        position).get slot = 65536 - action.stringId.toNat := by
      rw [hmoves.slots position hne, hids]
      apply CommentSlots.get_foldl_fill_of_free _ hid hfree
      intro stringId hmem
      exact (EditorStrings.refersTo_iff.mp (lt_of_mem_commentIds hmem)).2.2.1
    obtain ⟨-, -, hsmall, -⟩ := EditorStrings.refersTo_iff.mp hrefers
    refine ⟨if_pos ⟨huses, hrefers⟩, hslot, ?_⟩
    exact hafter.storedSlot position slot _ hslot (by omega)
  · rename_i hstays
    exact if_neg fun hboth => hstays hboth.2

end Migrates

/-- An upgrade moves every old editor string to where its user looks for it, if
no name that stands for one is left out and every comment keeps its entry.  A
name that is left out is not moved. -/
theorem upgradeKstrToCurrent_migrates {bytes : List UInt8}
    {file later : LoadedFile} (hupgrades : UpgradesKstr bytes file later) :
    (VisitsNames file → KeepsCommentEntries file → Migrates file later) ∧
      (Migrates file later → VisitsNames file) := by
  obtain ⟨state, selected, upgraded, ostr, hselects, hkept, hostr, hrun,
    hafter⟩ := hupgrades.exists_loop
  constructor
  · intro hvisits hkeeps
    exact ⟨migratesNames_of_visitsNames hselects hkept hostr hrun hafter hvisits,
      migratesComments_of_keeps hselects hkept hostr hrun hafter hkeeps⟩
  · intro hmigrates
    exact visitsNames_of_migratesNames hselects hkept hostr hrun hafter hmigrates.names

/-- The bytes of a structure from an offset on are zero. -/
def LoadedFile.zeroFrom (file : LoadedFile) (name : StructName) (offset : ℕ) : Bool :=
  (file.struct? name).elim false fun content =>
    (content.rawData.drop offset).all (· = 0)

/-- A file whose upgrade is seen to return. -/
def LoadedFile.upgradeReady (file : LoadedFile) : Bool :=
  decide (file.kstrTable.version = 2) &&
    match file.upgradeSections with
    | .ok upgraded => (upgraded.setKstr { upgraded.kstrTable with
        version := KstrSection.currentVersion }).deletesStrings
    | .error _ => false

/-- SPRP and FORC were in the file, and the other structures have no names. -/
def LoadedFile.namesInFile (file : LoadedFile) : Bool :=
  [SectionName.struct .sprp, .struct .forc].all (fun name =>
      (file.pointer name).elim false fun handle =>
        decide (handle ∈ file.allSections)) &&
    [StructName.wav, .swnm].all (fun name => file.zeroFrom name 0) &&
    [StructName.unis, .unix].all (fun name => file.zeroFrom name 3192)

def upgradeRun (fuel : ℕ) (bytes : List UInt8) (facts : LoadedFile → Bool) : Bool :=
  match Loop.run sectionPass fuel (LoadState.start bytes) with
  | some (some state) => state.selectSections.elim false fun selected =>
      match fixTriggerExtensions selected.trigTriggers selected.ktrgEntries with
      | .ok (triggers, entries) =>
          (selected.setTriggers triggers entries).upgradeReady &&
            facts (selected.setTriggers triggers entries)
      | .error _ => false
  | _ => false

theorem exists_upgradesKstr_of_run {fuel : ℕ} {facts : LoadedFile → Bool}
    (hrun : upgradeRun fuel bytes facts = true) :
    ∃ file later, UpgradesKstr bytes file later ∧ facts file = true := by
  unfold upgradeRun at hrun
  split at hrun
  · rename_i state hresult
    cases hselect : state.selectSections with
    | none =>
        rw [hselect] at hrun
        cases hrun
    | some selected =>
        rw [hselect, Option.elim_some] at hrun
        split at hrun
        · rename_i triggers entries hfix
          rw [Bool.and_eq_true, LoadedFile.upgradeReady, Bool.and_eq_true,
            decide_eq_true_eq] at hrun
          obtain ⟨⟨hversion, hready⟩, hfacts⟩ := hrun
          split at hready
          · rename_i upgraded hupgrade
            obtain ⟨users, -, hdelete⟩ := LoadedFile.deleteUnusedStrings_of_check hready
            have hlater := upgradeKstrToCurrent_eq (selected.setTriggers triggers entries)
            rw [if_pos (.inr hversion), hupgrade] at hlater
            exact ⟨_, _, ⟨state, selected, triggers, entries, ⟨fuel, hresult⟩,
              hselect, hfix, rfl, .inr hversion, hlater.trans hdelete⟩, hfacts⟩
          · cases hready
        · cases hrun
  · cases hrun

/-- An old KSTR section with the strings A and B. -/
def oldKstrFrame : List UInt8 := [75, 83, 84, 82, 28, 0, 0, 0, 2, 0, 0, 0, 2, 0, 0, 0, 24, 0, 0, 0,
    26, 0, 0, 0, 0, 0, 0, 0, 0, 0, 0, 0, 65, 0, 66, 0]

/-- A trigger whose comment stands for the second of them. -/
def oldComment : Trigger :=
  { blankTrigger with
    actions := List.Vector.ofFn fun index : Fin maxActions =>
      if index.val = 0 then
        { (default : Action) with
          actionType := VirtualAction.comment.actionType
          stringId := 65534 }
      else default }

/-- A file whose scenario name stands for the first string. -/
def oldNameBytes : List UInt8 :=
  versionFrame ++ oldKstrFrame ++ [83, 80, 82, 80, 4, 0, 0, 0, 255, 255, 0, 0] ++
    [70, 79, 82, 67, 20, 0, 0, 0] ++ List.replicate 20 0 ++
    [68, 73, 77, 32, 4, 0, 0, 0, 64, 0, 64, 0] ++
    [84, 82, 73, 71, 96, 9, 0, 0] ++ triggerCodec.encode oldComment

/-- A file with one location, whose name stands for the first string. -/
def oldLocationBytes : List UInt8 :=
  versionFrame ++ oldKstrFrame ++ [83, 80, 82, 80, 4, 0, 0, 0, 0, 0, 0, 0] ++
    [70, 79, 82, 67, 20, 0, 0, 0] ++ List.replicate 20 0 ++
    [68, 73, 77, 32, 4, 0, 0, 0, 64, 0, 64, 0] ++
    [77, 82, 71, 78, 20, 0, 0, 0] ++ List.replicate 16 0 ++ [255, 255, 0, 0]

theorem nameId_of_zeros {file : LoadedFile} (hclassed : Classed file)
    {name : StructName} (hnamed : .struct name ∈ namedSections)
    {fields : NameFields} (hfields : nameFields name = some fields)
    {start : ℕ} (hzeros : file.zeroFrom name start = true)
    (hle : start ≤ fields.offset)
    (hid : file.nameId (.struct name) index = some stringId) :
    stringId = 0 := by
  obtain ⟨handle, hpointer, hheld⟩ := Option.bind_eq_some_iff.mp hid
  obtain ⟨content, hcontent, hword⟩ := Option.bind_eq_some_iff.mp hheld
  have hclass := hclassed.at (proper_of_namedSections hnamed).1 hpointer hcontent
  obtain ⟨inner, rfl, hname⟩ := struct_of_name hclass
  have hstruct : file.struct? name = some inner := by
    rw [struct?_eq_some_iff, section_eq hpointer, hcontent]
  rw [LoadedFile.zeroFrom, hstruct, Option.elim_some] at hzeros
  simp only [heldId, hname, hfields, Option.bind_some] at hword
  split at hword
  · rw [wordAt_of_zeros hzeros (by omega)] at hword
    exact (Option.some.inj hword).symm
  · cases hword

/-- The scenario name and the comment stand for the strings, no location does,
and the comment keeps its entry. -/
def LoadedFile.oldNameFacts (file : LoadedFile) : Bool :=
  file.namesInFile && decide (file.nameId (.struct .sprp) 0 = some 65535) &&
    decide (commentIdsAt file.editorStrings file.trigTriggers 0 = [65534]) &&
    (match file.section? .mrgn with
    | some (.mrgn locations) => locations.all fun location =>
        location.elim true fun found =>
          !file.editorStrings.refersTo found.stringId.toNat
    | _ => true) &&
    decide (file.trigTriggers.length = 1) &&
    file.trigTriggers.all fun trigger =>
      decide (linkTarget trigger (plannedIndex file.editorStrings
        file.trigTriggers file.ktrgEntries 0) =
          plannedIndex file.editorStrings file.trigTriggers file.ktrgEntries 0)

theorem visitsNames_of_facts {file : LoadedFile} (hclassed : Classed file)
    (hfacts : file.oldNameFacts = true) : VisitsNames file := by
  simp only [LoadedFile.oldNameFacts, LoadedFile.namesInFile,
    Bool.and_eq_true, List.all_cons, List.all_nil, and_true] at hfacts
  obtain ⟨⟨⟨⟨⟨⟨⟨⟨hsprp, hforc⟩, hwav, hswnm⟩, hunis, hunix⟩, -⟩, -⟩, hmrgn⟩, -⟩, -⟩ := hfacts
  have hthere : ∀ {name : SectionName}, ((file.pointer name).elim false
      fun handle => decide (handle ∈ file.allSections)) = true →
      ∃ handle ∈ file.allSections, file.pointer name = some handle := by
    intro name helim
    cases hpointer : file.pointer name with
    | none =>
        rw [hpointer] at helim
        cases helim
    | some handle =>
        rw [hpointer] at helim
        exact ⟨handle, of_decide_eq_true helim, rfl⟩
  intro name hname index stringId hid hrefers
  have hne := (EditorStrings.refersTo_iff.mp hrefers).2.1
  simp only [namedSections, List.mem_cons, List.not_mem_nil, or_false] at hname
  rcases hname with rfl | rfl | rfl | rfl | rfl | rfl | rfl
  · exact ⟨hthere hsprp, fun h => by cases h⟩
  · exact ⟨hthere hforc, fun h => by cases h⟩
  · exact absurd (nameId_of_zeros hclassed (by decide) rfl hwav le_rfl hid) hne
  · exact absurd (nameId_of_zeros hclassed (by decide) rfl hswnm le_rfl hid) hne
  · exact absurd (nameId_of_zeros hclassed (by decide) rfl hunis le_rfl hid) hne
  · exact absurd (nameId_of_zeros hclassed (by decide) rfl hunix le_rfl hid) hne
  · obtain ⟨handle, hpointer, hheld⟩ := Option.bind_eq_some_iff.mp hid
    obtain ⟨content, hcontent, hlocation⟩ := Option.bind_eq_some_iff.mp hheld
    obtain ⟨locations, rfl⟩ := mrgn_of_name (hclassed.at (by decide) hpointer hcontent)
    rw [section_eq hpointer, hcontent] at hmrgn
    obtain ⟨location, hfound, rfl⟩ := Option.map_eq_some_iff.mp hlocation
    have hmem : some location ∈ locations := by
      have hinside : index < locations.length := by
        by_contra hge
        rw [List.getD_eq_default _ _ (Nat.le_of_not_lt hge)] at hfound
        cases hfound
      rw [List.getD_eq_getElem _ _ hinside] at hfound
      exact hfound ▸ List.getElem_mem hinside
    have hnot := List.all_eq_true.mp hmrgn (some location) hmem
    rw [Option.elim_some, hrefers] at hnot
    cases hnot

theorem keepsCommentEntries_of_facts {file : LoadedFile}
    (hfacts : file.oldNameFacts = true) : KeepsCommentEntries file := by
  simp only [LoadedFile.oldNameFacts, Bool.and_eq_true, decide_eq_true_eq] at hfacts
  obtain ⟨⟨-, hlength⟩, hkept⟩ := hfacts
  have hbehind : ∀ {position : ℕ}, 0 < position →
      commentIdsAt file.editorStrings file.trigTriggers position = [] := by
    intro position hpos
    rw [commentIdsAt, List.getElem?_eq_none (by omega)]
    rfl
  intro position hids
  obtain rfl : position = 0 := by
    by_contra hne
    exact hids (hbehind (Nat.pos_of_ne_zero hne))
  refine ⟨fun _ trigger htrigger => ?_, fun other hlt hother =>
    absurd (hbehind hlt) hother⟩
  exact of_decide_eq_true (List.all_eq_true.mp hkept trigger (List.mem_of_getElem? htrigger))

/-- The name of a scenario and a comment are moved. -/
theorem upgradeKstrToCurrent_migrates_name : ∃ file later, UpgradesKstr oldNameBytes file later ∧
      file.nameId (.struct .sprp) 0 = some 65535 ∧
      file.editorStrings.refersTo 65535 = true ∧
      commentIdsAt file.editorStrings file.trigTriggers 0 = [65534] ∧
      Migrates file later := by
  obtain ⟨file, later, hupgrades, hboth⟩ := exists_upgradesKstr_of_run
    (show upgradeRun 10 oldNameBytes (fun file => file.oldNameFacts &&
      file.editorStrings.refersTo 65535) = true by decide +kernel)
  obtain ⟨hfacts, hrefers⟩ := Bool.and_eq_true_iff.mp hboth
  obtain ⟨state, selected, -, -, hselects, hkept, -⟩ := hupgrades.exists_loop
  have hmigrates := (upgradeKstrToCurrent_migrates hupgrades).1
    (visitsNames_of_facts (hkept.classed hselects.classed) hfacts)
    (keepsCommentEntries_of_facts hfacts)
  simp only [LoadedFile.oldNameFacts, Bool.and_eq_true, decide_eq_true_eq] at hfacts
  exact ⟨file, later, hupgrades, hfacts.1.1.1.1.2, hrefers, hfacts.1.1.1.2, hmigrates⟩

/-- The name of the last location is left as it was. -/
theorem upgradeKstrToCurrent_leaves_last : ∃ file later, UpgradesKstr oldLocationBytes file later ∧
      file.nameId .mrgn 1 = some 65535 ∧
      file.editorStrings.refersTo 65535 = true ∧ ¬ Migrates file later := by
  obtain ⟨file, later, hupgrades, hfacts⟩ := exists_upgradesKstr_of_run
    (show upgradeRun 10 oldLocationBytes (fun file =>
      decide (file.nameId .mrgn 1 = some 65535 ∧ file.nameId .mrgn 2 = none) &&
        file.editorStrings.refersTo 65535) = true by decide +kernel)
  simp only [Bool.and_eq_true, decide_eq_true_eq] at hfacts
  obtain ⟨⟨hid, hlast⟩, hrefers⟩ := hfacts
  refine ⟨file, later, hupgrades, hid, hrefers, fun hmigrates => ?_⟩
  obtain ⟨state, selected, upgraded, ostr, hselects, hkept, hostr, hloop,
    hafter⟩ := hupgrades.exists_loop
  have hvisits := visitsNames_of_migratesNames hselects hkept hostr hloop hafter hmigrates.names
  exact (hvisits .mrgn (by decide) 1 65535 hid hrefers).2 rfl hlast

end Chkdraft.Scenario
