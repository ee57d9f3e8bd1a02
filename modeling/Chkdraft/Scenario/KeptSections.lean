import Chkdraft.Scenario.ReadWrite
import Chkdraft.Scenario.SectionReload

/-!
# What the last steps of a load keep

Fixing trigger links and upgrading editor strings change the content of section
objects, but neither their number, their classes, the pointers to them, nor the
lengths of the trigger list and the game string table.  Objects other than the
saved ones and those behind a few pointers are not touched at all.
-/

namespace Chkdraft.Scenario

open Binary Chk Sections

variable {entries : List (Option ExtendedTrigData)} {state upgraded : TriggerUpgrade}
  {offset value : ℕ} {kstr : KstrSection} {fields : NameFields}

variable {handle index position : ℕ} {triggers : List Trigger}
  {editor : EditorStrings} {content new old : Section} {later : LoadedFile}
  {name : SectionName}

theorem length_fixTrigger (links : Links) (position : ℕ) :
    (fixTrigger links position).triggers.length = links.triggers.length := by
  unfold fixTrigger
  split
  · rfl
  · split
    · rfl
    · split
      · split <;> simp
      · simp

theorem length_fixEntry {links fixed : Links} (hfix : fixEntry links index = .ok fixed) :
    fixed.triggers.length = links.triggers.length := by
  unfold fixEntry at hfix
  split at hfix
  · rw [← Except.ok.inj hfix]
  · split at hfix
    · rw [← Except.ok.inj hfix]
    · split at hfix
      · rw [← Except.ok.inj hfix]
      · split at hfix
        · cases hfix
        · split at hfix
          · rw [← Except.ok.inj hfix]
          · split at hfix
            · cases hfix
            · rw [← Except.ok.inj hfix, List.length_set]

theorem length_fixTriggerExtensions {fixedTriggers : List Trigger}
    {fixedEntries : List (Option ExtendedTrigData)}
    (hfix : fixTriggerExtensions triggers entries = .ok (fixedTriggers, fixedEntries)) :
    fixedTriggers.length = triggers.length := by
  unfold fixTriggerExtensions at hfix
  obtain ⟨links, hlinks, hresult⟩ := Fault.bind_eq_ok_iff.mp hfix
  have hpair := Prod.mk.inj (Except.ok.inj hresult)
  rw [← hpair.1]
  have hfirst : ∀ (positions : List ℕ) (start : Links),
      (positions.foldl fixTrigger start).triggers.length =
        start.triggers.length := by
    intro positions
    induction positions with
    | nil => exact fun _ => rfl
    | cons position rest ih =>
        intro start
        rw [List.foldl_cons, ih, length_fixTrigger]
  have hrun := Fault.foldlM_invariant (fun links : Links => links.triggers.length = triggers.length)
    (hfirst _ _) (fun state index following _ hstate hstep =>
      (length_fixEntry hstep).trans hstate) hlinks
  exact hrun

theorem length_setTriggerExtension {newTriggers : List Trigger}
    {newEntries : List (Option ExtendedTrigData)} {stringId : ℕ}
    {change : ExtendedTrigData → ExtendedTrigData}
    (hset : setTriggerExtension triggers entries position stringId change =
      .ok (newTriggers, newEntries)) : newTriggers.length = triggers.length := by
  unfold setTriggerExtension at hset
  split at hset
  · cases hset
  · split at hset
    · split at hset
      · rw [← (Prod.mk.inj (Except.ok.inj hset)).1, List.length_set]
      · rw [← (Prod.mk.inj (Except.ok.inj hset)).1]
    · split at hset
      · rw [← (Prod.mk.inj (Except.ok.inj hset)).1]
      · simp only at hset
        split at hset
        · cases hset
        · rw [← (Prod.mk.inj (Except.ok.inj hset)).1, List.length_set]

@[simp]
theorem length_changeAction (triggers : List Trigger) (position action : ℕ)
    (change : Action → Action) :
    (changeAction triggers position action change).length =
      triggers.length := by
  rw [changeAction, List.length_modify]

theorem length_upgradeActionString {action : Action}
    (hupgrade : upgradeActionString editor position index action state = .ok upgraded) :
    upgraded.triggers.length = state.triggers.length := by
  unfold upgradeActionString at hupgrade
  simp only at hupgrade
  split at hupgrade
  · split at hupgrade
    · obtain ⟨⟨triggers, entries⟩, hset, hresult⟩ := Fault.bind_eq_ok_iff.mp hupgrade
      rw [← Except.ok.inj hresult]
      exact (length_changeAction _ _ _ _).trans (length_setTriggerExtension hset)
    · split at hupgrade
      · obtain ⟨⟨triggers, entries⟩, hset, hresult⟩ := Fault.bind_eq_ok_iff.mp hupgrade
        rw [← Except.ok.inj hresult]
        exact (length_changeAction _ _ _ _).trans (length_setTriggerExtension hset)
      · rw [← Except.ok.inj hupgrade]
        exact length_changeAction _ _ _ _
  · rw [← Except.ok.inj hupgrade]

theorem length_upgradeAction (hupgrade : upgradeAction editor position state index = .ok upgraded) :
    upgraded.triggers.length = state.triggers.length := by
  unfold upgradeAction at hupgrade
  obtain ⟨middle, hstring, hsound⟩ := Fault.bind_eq_ok_iff.mp hupgrade
  have hlength := length_upgradeActionString hstring
  split at hsound
  · rw [← Except.ok.inj hsound]
    exact (length_changeAction _ _ _ _).trans hlength
  · rw [← Except.ok.inj hsound]
    exact hlength

theorem length_upgradeTrigger
    {links upgraded : List Trigger × List (Option ExtendedTrigData)}
    (hupgrade : upgradeTrigger editor links position = .ok upgraded) :
    upgraded.1.length = links.1.length := by
  unfold upgradeTrigger at hupgrade
  obtain ⟨state, hstate, hresult⟩ := Fault.bind_eq_ok_iff.mp hupgrade
  rw [← Except.ok.inj hresult]
  exact Fault.foldlM_invariant
    (fun state : TriggerUpgrade => state.triggers.length = links.1.length)
    rfl (fun state index following _ hstate hstep =>
      (length_upgradeAction hstep).trans hstate) hstate

/-- What of a section the last steps never change: the number of its triggers
or game string ids, and the version and the dimensions of a map. -/
def fixedPart : Section → ℕ × List UInt8
  | .trig triggers => (triggers.length, [])
  | .str table => (table.strings.length, [])
  | .struct content =>
      if content.name = .ver ∨ content.name = .dim then (0, content.write)
      else (0, [])
  | _ => (0, [])

/-- A section object before and after the last steps. -/
def Adjusted (old new : Section) : Prop := new.name = old.name ∧ fixedPart new = fixedPart old

theorem Adjusted.refl (content : Section) : Adjusted content content := ⟨rfl, rfl⟩

theorem Adjusted.symm (hadjusted : Adjusted old new) : Adjusted new old :=
  ⟨hadjusted.1.symm, hadjusted.2.symm⟩

theorem Adjusted.trans {first second third : Section}
    (hleft : Adjusted first second) (hright : Adjusted second third) :
    Adjusted first third :=
  ⟨hright.1.trans hleft.1, hright.2.trans hleft.2⟩

theorem adjusted_setWord {content : StructSection} (hver : content.name ≠ .ver)
    (hdim : content.name ≠ .dim) (width offset value : ℕ) :
    Adjusted (.struct content) (.struct (setWord content width offset value)) := by
  refine ⟨rfl, ?_⟩
  simp only [fixedPart, setWord, hver, hdim, or_self, if_false]

/-- Every pointer to a section class leads to an object of that class. -/
def Classed (file : LoadedFile) : Prop :=
  ∀ name handle, SectionName.ofCode name.code = name → file.pointer name = some handle →
    ∃ content, file.objects[handle]? = some content ∧ content.name = name

/-- The objects the last steps may change. -/
def touched (file : LoadedFile) : List ℕ :=
  file.allSections ++ [SectionName.trig, .ktrg, .struct .ostr, .str, .kstr].filterMap file.pointer

/-- What the last steps keep of a scenario that was just selected. -/
structure Kept (start file : LoadedFile) : Prop where
  allSections_eq : file.allSections = start.allSections
  pointer_eq : file.pointer = start.pointer
  tailData_eq : file.tailData = start.tailData
  tailLength_eq : file.tailLength = start.tailLength
  memorySafe_eq : file.memorySafe = start.memorySafe
  adjusted : List.Forall₂ Adjusted start.objects file.objects
  wellFormed : ∀ content ∈ file.objects, WellFormed content
  untouched : ∀ handle, handle ∉ touched start → file.objects[handle]? = start.objects[handle]?

namespace Kept

variable {start file : LoadedFile}

theorem refl (hformed : ∀ content ∈ start.objects, WellFormed content) : Kept start start where
  allSections_eq := rfl
  pointer_eq := rfl
  tailData_eq := rfl
  tailLength_eq := rfl
  memorySafe_eq := rfl
  adjusted := List.forall₂_same.mpr fun content _ => Adjusted.refl content
  wellFormed := hformed
  untouched := fun _ _ => rfl

section

variable (hkept : Kept start file)

include hkept

theorem adjusted_at (hnew : file.objects[handle]? = some new) :
    ∃ old, start.objects[handle]? = some old ∧ Adjusted old new := by
  obtain ⟨hlt, hget⟩ := List.getElem?_eq_some_iff.mp hnew
  have hlength := hkept.adjusted.length_eq
  refine ⟨start.objects[handle], List.getElem?_eq_getElem (by omega), ?_⟩
  have hpair := hkept.adjusted.get (i := handle) (by omega) hlt
  rw [← hget]
  exact hpair

theorem exists_later (hold : start.objects[handle]? = some old) :
    ∃ new, file.objects[handle]? = some new ∧ Adjusted old new := by
  have hlt := (List.getElem?_eq_some_iff.mp hold).1
  have hlength := hkept.adjusted.length_eq
  have hnew : file.objects[handle]? = some (file.objects[handle]) :=
    List.getElem?_eq_getElem (by omega)
  obtain ⟨other, hother, hadjusted⟩ := hkept.adjusted_at hnew
  rw [hold] at hother
  rw [← Option.some.inj hother] at hadjusted
  exact ⟨_, hnew, hadjusted⟩

theorem classed (hclassed : Classed start) : Classed file := by
  intro name handle hproper hpointer
  rw [hkept.pointer_eq] at hpointer
  obtain ⟨old, hold, hname⟩ := hclassed name handle hproper hpointer
  obtain ⟨new, hnew, hadjusted⟩ := hkept.exists_later hold
  exact ⟨new, hnew, hadjusted.1.trans hname⟩

theorem setObject (htouched : handle ∈ touched start) (hformed : WellFormed content)
    (hadjusted : ∀ old, file.objects[handle]? = some old → Adjusted old content) :
    Kept start (file.setObject handle content) where
  allSections_eq := hkept.allSections_eq
  pointer_eq := hkept.pointer_eq
  tailData_eq := hkept.tailData_eq
  tailLength_eq := hkept.tailLength_eq
  memorySafe_eq := hkept.memorySafe_eq
  adjusted := by
    have hlength := hkept.adjusted.length_eq
    rw [List.forall₂_iff_get]
    refine ⟨by simpa [LoadedFile.setObject] using hlength, ?_⟩
    intro index hstart hset
    have hfile : index < file.objects.length := by omega
    have hpair : Adjusted (start.objects[index]) (file.objects[index]) :=
      hkept.adjusted.get hstart hfile
    simp only [List.get_eq_getElem, LoadedFile.setObject, List.getElem_set]
    split
    · rename_i heq
      subst heq
      exact hpair.trans (hadjusted _ (List.getElem?_eq_getElem hfile))
    · exact hpair
  wellFormed := by
    intro other hother
    rcases List.mem_or_eq_of_mem_set hother with hbefore | rfl
    · exact hkept.wellFormed other hbefore
    · exact hformed
  untouched := by
    intro other hother
    have hne : handle ≠ other := by
      rintro rfl
      exact hother htouched
    rw [LoadedFile.setObject, List.getElem?_set_ne hne]
    exact hkept.untouched other hother

/-- Two stages of one load have objects of the same class behind a number. -/
theorem adjusted_between (hlater : Kept start later) (hold : file.objects[handle]? = some old)
    (hnew : later.objects[handle]? = some new) : Adjusted old new := by
  obtain ⟨first, hfirst, hadjusted⟩ := hkept.adjusted_at hold
  obtain ⟨second, hsecond, hadjusted'⟩ := hlater.adjusted_at hnew
  rw [hfirst] at hsecond
  rw [← Option.some.inj hsecond] at hadjusted'
  exact hadjusted.symm.trans hadjusted'

theorem exists_between (hlater : Kept start later) (hold : file.objects[handle]? = some old) :
    ∃ new, later.objects[handle]? = some new ∧ Adjusted old new := by
  obtain ⟨first, hfirst, -⟩ := hkept.adjusted_at hold
  obtain ⟨new, hnew, -⟩ := hlater.exists_later hfirst
  exact ⟨new, hnew, hkept.adjusted_between hlater hold hnew⟩

theorem handle_mem_touched (hname : name ∈ [SectionName.trig, .ktrg, .struct .ostr, .str, .kstr])
    (hpointer : file.pointer name = some handle) : handle ∈ touched start := by
  rw [hkept.pointer_eq] at hpointer
  exact List.mem_append_right _ (List.mem_filterMap.mpr ⟨name, hname, hpointer⟩)

end

end Kept

theorem trig_of_name (hname : content.name = .trig) : ∃ triggers, content = .trig triggers := by
  cases content with
  | trig triggers => exact ⟨triggers, rfl⟩
  | _ => cases hname

theorem str_of_name (hname : content.name = .str) : ∃ table, content = .str table := by
  cases content with
  | str table => exact ⟨table, rfl⟩
  | _ => cases hname

theorem kstr_of_name (hname : content.name = .kstr) : ∃ table, content = .kstr table := by
  cases content with
  | kstr table => exact ⟨table, rfl⟩
  | _ => cases hname

theorem mrgn_of_name (hname : content.name = .mrgn) : ∃ locations, content = .mrgn locations := by
  cases content with
  | mrgn locations => exact ⟨locations, rfl⟩
  | _ => cases hname

theorem mbrf_of_name (hname : content.name = .mbrf) : ∃ triggers, content = .mbrf triggers := by
  cases content with
  | mbrf triggers => exact ⟨triggers, rfl⟩
  | _ => cases hname

theorem struct_of_name {name : StructName} (hname : content.name = .struct name) :
    ∃ inner : StructSection, content = .struct inner ∧ inner.name = name := by
  cases content with
  | struct inner => exact ⟨inner, rfl, SectionName.struct.inj hname⟩
  | _ => cases hname

theorem adjusted_of_name (hname : name ∈ [SectionName.ktrg, .kstr, .mbrf, .mrgn])
    (hold : old.name = name) (hnew : new.name = name) : Adjusted old new := by
  have hfixed : ∀ content : Section, content.name = name → fixedPart content = (0, []) := by
    rintro content rfl
    cases content with
    | trig | str | struct => simp [Section.name] at hname
    | _ => rfl
  exact ⟨hnew.trans hold.symm, (hfixed new hnew).trans (hfixed old hold).symm⟩

theorem section_eq {file : LoadedFile} (hpointer : file.pointer name = some handle) :
    file.section? name = file.objects[handle]? := by
  rw [LoadedFile.section?, hpointer, Option.bind_some]

theorem section_setObject_of_ne {file : LoadedFile}
    (hne : file.pointer name ≠ some handle) (content : Section) :
    (file.setObject handle content).section? name = file.section? name := by
  unfold LoadedFile.section? LoadedFile.setObject
  simp only
  cases hpointer : file.pointer name with
  | none => rfl
  | some other =>
      have hother : handle ≠ other := by
        rintro rfl
        exact hne hpointer
      exact List.getElem?_set_ne hother

theorem Classed.at {file : LoadedFile} (hclassed : Classed file)
    (hproper : SectionName.ofCode name.code = name)
    (hpointer : file.pointer name = some handle)
    (hcontent : file.objects[handle]? = some content) :
    content.name = name := by
  obtain ⟨other, hother, hname⟩ := hclassed name handle hproper hpointer
  rw [hcontent] at hother
  rw [Option.some.inj hother, hname]

theorem pointer_ne_of_classed {file : LoadedFile} (hclassed : Classed file)
    {other : SectionName} (hname : SectionName.ofCode name.code = name)
    (hother : SectionName.ofCode other.code = other) (hne : name ≠ other)
    (hpointer : file.pointer other = some handle) :
    file.pointer name ≠ some handle := by
  intro hsame
  obtain ⟨content, hcontent, hcontentName⟩ := hclassed name handle hname hsame
  exact hne (hcontentName.symm.trans (hclassed.at hother hpointer hcontent))

/-- A word of OSTR is set in the object its pointer leads to. -/
theorem setOstrWord_eq {file : LoadedFile} (hset : file.setOstrWord offset value = .ok later) :
    ∃ handle ostr, file.pointer (.struct .ostr) = some handle ∧
      file.objects[handle]? = some (.struct ostr) ∧
      later = file.setObject handle (.struct (setWord ostr 4 offset value)) := by
  unfold LoadedFile.setOstrWord at hset
  obtain ⟨ostr, hostr, hrest⟩ := Fault.bind_eq_ok_iff.mp hset
  split at hrest
  · rename_i handle hpointer
    refine ⟨handle, ostr, hpointer, ?_, (Except.ok.inj hrest).symm⟩
    unfold LoadedFile.structAt at hostr
    split at hostr
    · rename_i content hcontent
      split at hostr
      · rw [← Except.ok.inj hostr]
        unfold LoadedFile.struct? at hcontent
        split at hcontent
        · rename_i inner hinner
          rw [← Option.some.inj hcontent, ← hinner, section_eq hpointer]
        · cases hcontent
      · cases hostr
    · cases hostr
  · cases hrest

namespace Kept

variable {start file : LoadedFile}

section

variable (hkept : Kept start file)

include hkept

/-- Other triggers, as many as before, and any extended data. -/
theorem setTriggers (hclassed : Classed start) (entries : List (Option ExtendedTrigData))
    (hlength : triggers.length = file.trigTriggers.length) :
    Kept start (file.setTriggers triggers entries) := by
  unfold LoadedFile.setTriggers
  split
  · rename_i trig ktrg htrig hktrg
    have hfirst : Kept start (file.setObject trig (.trig triggers)) := by
      refine hkept.setObject (hkept.handle_mem_touched (by simp) htrig) trivial ?_
      intro old hold
      have hname := (hkept.classed hclassed).at (by decide) htrig hold
      obtain ⟨before, rfl⟩ := trig_of_name hname
      have hbefore : file.trigTriggers = before := by
        simp only [LoadedFile.trigTriggers, section_eq htrig, hold]
      rw [hbefore] at hlength
      exact ⟨rfl, congrArg (·, []) hlength⟩
    refine hfirst.setObject (hfirst.handle_mem_touched (by simp) hktrg)
      trivial ?_
    intro old hold
    exact adjusted_of_name (by simp) ((hfirst.classed hclassed).at (by decide) hktrg hold) rfl
  · exact hkept

theorem setOstrWord (hclassed : Classed start)
    (hset : file.setOstrWord offset value = .ok later) : Kept start later := by
  obtain ⟨handle, ostr, hpointer, hcontent, rfl⟩ := setOstrWord_eq hset
  have hname := (hkept.classed hclassed).at (by decide) hpointer hcontent
  have hostrName : ostr.name = .ostr := SectionName.struct.inj hname
  refine hkept.setObject (hkept.handle_mem_touched (by simp) hpointer)
    trivial ?_
  intro old hold
  rw [hcontent] at hold
  rw [← Option.some.inj hold]
  exact adjusted_setWord (by rw [hostrName]; decide) (by rw [hostrName]; decide) _ _ _

/-- Other string tables, with as many game string ids as before. -/
theorem setStrings (hclassed : Classed start) {str before : StrSection}
    (hbefore : file.section? .str = some (.str before))
    (hlength : str.strings.length = before.strings.length)
    (hstr : WellFormed (.str str)) (hkstr : WellFormed (.kstr kstr)) :
    Kept start (file.setStrings str kstr) := by
  unfold LoadedFile.setStrings
  split
  · rename_i strHandle kstrHandle hstrPointer hkstrPointer
    have hfirst : Kept start (file.setObject strHandle (.str str)) := by
      apply hkept.setObject (hkept.handle_mem_touched (by simp) hstrPointer) hstr
      intro old hold
      rw [section_eq hstrPointer, hold] at hbefore
      rw [Option.some.inj hbefore]
      exact ⟨rfl, congrArg (·, []) hlength⟩
    apply hfirst.setObject (hfirst.handle_mem_touched (by simp) hkstrPointer) hkstr
    intro old hold
    exact adjusted_of_name (by simp)
      ((hfirst.classed hclassed).at (by decide) hkstrPointer hold) rfl
  · exact hkept

theorem setKstr (hclassed : Classed start) (hkstr : WellFormed (.kstr kstr)) :
    Kept start (file.setKstr kstr) := by
  unfold LoadedFile.setKstr
  split
  · rename_i handle hpointer
    apply hkept.setObject (hkept.handle_mem_touched (by simp) hpointer) hkstr
    intro old hold
    exact adjusted_of_name (by simp) ((hkept.classed hclassed).at (by decide) hpointer hold) rfl
  · exact hkept

/-- A saved object is replaced by an adjusted form of what an earlier stage had
in its place. -/
theorem replace {earlier : LoadedFile} (hearlier : Kept start earlier)
    (hhandle : handle ∈ start.allSections)
    (hold : earlier.objects[handle]? = some old) (hformed : WellFormed new)
    (hadjusted : Adjusted old new) :
    Kept start (file.setObject handle new) := by
  apply hkept.setObject (List.mem_append_left _ hhandle) hformed
  intro current hcurrent
  exact (hkept.adjusted_between hearlier hcurrent hold).trans hadjusted

theorem upgradeLocation (hclassed : Classed start) {locationId : ℕ}
    (hhandle : handle ∈ start.allSections)
    (hupgrade : upgradeLocation editor handle file locationId = .ok later) :
    Kept start later := by
  unfold Scenario.upgradeLocation at hupgrade
  split at hupgrade
  · rename_i locations hlocations
    split at hupgrade
    · rename_i location hlocation
      simp only at hupgrade
      split at hupgrade
      · split at hupgrade
        · rename_i hid
          obtain ⟨middle, hmiddle, hresult⟩ := Fault.bind_eq_ok_iff.mp hupgrade
          rw [← Except.ok.inj hresult]
          have hset := hkept.setOstrWord hclassed hmiddle
          apply hset.replace hkept hhandle hlocations
          · -- The first entry stays null, the others stay locations.
            obtain ⟨rest, rfl⟩ := hkept.wellFormed _ (List.mem_of_getElem? hlocations)
            obtain ⟨index, rfl⟩ := Nat.exists_eq_succ_of_ne_zero hid.1.ne'
            refine ⟨rest.set index { location with stringId := 0 }, ?_⟩
            rw [List.set_cons_succ, List.map_set]
          · exact ⟨rfl, rfl⟩
        · cases hupgrade
      · rw [← Except.ok.inj hupgrade]
        exact hkept
    · rw [← Except.ok.inj hupgrade]
      exact hkept
  · rw [← Except.ok.inj hupgrade]
    exact hkept

end

theorem ne_of_nameFields {name : StructName} (hfields : nameFields name = some fields) :
    name ≠ .ver ∧ name ≠ .dim := by
  constructor
  · rintro rfl
    cases hfields
  · rintro rfl
    cases hfields

theorem upgradeName (hkept : Kept start file) (hclassed : Classed start)
    (hhandle : handle ∈ start.allSections)
    (hfields : ∀ content, file.objects[handle]? = some (.struct content) →
      nameFields content.name = some fields)
    (hupgrade : upgradeName editor handle fields file index = .ok later) :
    Kept start later := by
  unfold Scenario.upgradeName at hupgrade
  split at hupgrade
  · rename_i content hcontent
    split at hupgrade
    · simp only at hupgrade
      split at hupgrade
      · obtain ⟨middle, hmiddle, hresult⟩ := Fault.bind_eq_ok_iff.mp hupgrade
        rw [← Except.ok.inj hresult]
        obtain ⟨hver, hdim⟩ := ne_of_nameFields (hfields content hcontent)
        exact (hkept.setOstrWord hclassed hmiddle).replace hkept hhandle
          hcontent trivial (adjusted_setWord hver hdim _ _ _)
      · rw [← Except.ok.inj hupgrade]
        exact hkept
    · cases hupgrade
  · rw [← Except.ok.inj hupgrade]
    exact hkept

theorem upgradeSection (hkept : Kept start file) (hclassed : Classed start)
    (hhandle : handle ∈ start.allSections)
    (hupgrade : upgradeSection editor file handle = .ok later) :
    Kept start later := by
  unfold Scenario.upgradeSection at hupgrade
  split at hupgrade
  · obtain ⟨⟨triggers, entries⟩, hrun, hresult⟩ := Fault.bind_eq_ok_iff.mp hupgrade
    rw [← Except.ok.inj hresult]
    apply hkept.setTriggers hclassed
    exact Fault.foldlM_invariant (fun links : List Trigger × List (Option ExtendedTrigData) =>
        links.1.length = file.trigTriggers.length)
      rfl (fun links position upgraded _ hlinks hstep =>
        (length_upgradeTrigger hstep).trans hlinks) hrun
  · rename_i triggers htriggers
    rw [← Except.ok.inj hupgrade]
    exact hkept.replace hkept hhandle htriggers trivial ⟨rfl, rfl⟩
  · exact Fault.foldlM_invariant (Kept start) hkept (fun state locationId upgraded _ hstate hstep =>
        hstate.upgradeLocation hclassed hhandle hstep) hupgrade
  · rename_i content hcontent
    split at hupgrade
    · rename_i fields hfields
      -- The loop may change the words of the section, not its name.
      refine Fault.foldlM_invariant (Kept start) hkept ?_ hupgrade
      intro state index upgraded _ hstate hstep
      refine hstate.upgradeName hclassed hhandle ?_ hstep
      intro current hcurrent
      have hname := (hkept.adjusted_between hstate hcontent hcurrent).1
      rw [SectionName.struct.inj hname]
      exact hfields
    · rw [← Except.ok.inj hupgrade]
      exact hkept
  · rw [← Except.ok.inj hupgrade]
    exact hkept

theorem mem_of_mem_dropUnmarked {A : Type*} {marked : ℕ → Bool}
    {strings : List (Option A)} {string : A}
    (hmem : some string ∈ dropUnmarked marked strings) :
    some string ∈ strings := by
  obtain ⟨stringId, hlt, hget⟩ := List.getElem_of_mem hmem
  simp only [dropUnmarked, List.getElem_mapIdx] at hget
  split at hget
  · rw [← hget]
    exact List.getElem_mem _
  · cases hget

theorem tables_of_stringUsers {users : LoadedScenario} (husers : file.stringUsers = .ok users) :
    file.section? .str = some (.str users.str) ∧ users.kstr = file.kstrTable := by
  unfold LoadedFile.stringUsers at husers
  iterate 8
    obtain ⟨_, _, husers⟩ := Fault.bind_eq_ok_iff.mp husers
  split at husers
  · rename_i hstr
    rw [← Except.ok.inj husers]
    exact ⟨hstr, rfl⟩
  · cases husers

section

variable (hkept : Kept start file)

include hkept

theorem exists_section? (hold : start.section? name = some old) :
    ∃ new, file.section? name = some new ∧ Adjusted old new := by
  obtain ⟨handle, hpointer, hobject⟩ := Option.bind_eq_some_iff.mp hold
  obtain ⟨new, hnew, hadjusted⟩ := hkept.exists_later hobject
  refine ⟨new, ?_, hadjusted⟩
  rw [section_eq (by rw [hkept.pointer_eq, hpointer]), hnew]

theorem wellFormed_section? (hcontent : file.section? name = some content) :
    WellFormed content := by
  obtain ⟨handle, -, hobject⟩ := Option.bind_eq_some_iff.mp hcontent
  exact hkept.wellFormed content (List.mem_of_getElem? hobject)

theorem wellFormed_kstrTable : WellFormed (.kstr file.kstrTable) := by
  unfold LoadedFile.kstrTable
  split
  · rename_i table htable
    exact hkept.wellFormed_section? htable
  · intro chars hmem
    cases hmem

theorem deleteUnusedStrings (hclassed : Classed start)
    (hdelete : file.deleteUnusedStrings = .ok later) : Kept start later := by
  unfold LoadedFile.deleteUnusedStrings at hdelete
  obtain ⟨users, husers, hrest⟩ := Fault.bind_eq_ok_iff.mp hdelete
  obtain ⟨cleaned, hcleaned, hresult⟩ := Fault.bind_eq_ok_iff.mp hrest
  rw [Fault.ofHazard_eq_ok_iff] at hcleaned
  rw [← Except.ok.inj hresult]
  obtain ⟨hstr, hkstr⟩ := tables_of_stringUsers husers
  unfold LoadedScenario.deleteUnusedStrings at hcleaned
  split at hcleaned
  · cases hcleaned
  · rw [← Except.ok.inj hcleaned]
    apply hkept.setStrings hclassed hstr
    · exact length_dropUnmarked _ _
    · intro chars hmem
      exact hkept.wellFormed_section? hstr chars (mem_of_mem_dropUnmarked hmem)
    · intro chars hmem
      obtain ⟨entry, hentry, hchars⟩ := List.mem_map.mp hmem
      obtain ⟨string, rfl, -⟩ := Option.map_eq_some_iff.mp hchars
      apply hkept.wellFormed_kstrTable chars
      rw [← hkstr]
      exact List.mem_map.mpr ⟨_, mem_of_mem_dropUnmarked hentry, hchars⟩

theorem upgradeKstrToCurrent (hclassed : Classed start)
    (hupgrade : file.upgradeKstrToCurrent = .ok later) : Kept start later := by
  unfold LoadedFile.upgradeKstrToCurrent at hupgrade
  simp only at hupgrade
  split at hupgrade
  · obtain ⟨middle, hrun, hdelete⟩ := Fault.bind_eq_ok_iff.mp hupgrade
    have hmiddle : Kept start middle := by
      refine Fault.foldlM_invariant (Kept start) hkept ?_ hrun
      intro state handle upgraded hhandle hstate hstep
      rw [hkept.allSections_eq] at hhandle
      exact hstate.upgradeSection hclassed hhandle hstep
    refine Kept.deleteUnusedStrings ?_ hclassed hdelete
    exact hmiddle.setKstr hclassed hmiddle.wellFormed_kstrTable
  · split at hupgrade
    · rw [← Except.ok.inj hupgrade]
      apply hkept.setKstr hclassed
      intro chars hmem
      cases hmem
    · rw [← Except.ok.inj hupgrade]
      exact hkept

end

/-- The last steps of a load keep what `Kept` says. -/
theorem finish {file : LoadedFile} (hclassed : Classed start)
    (hformed : ∀ content ∈ start.objects, WellFormed content)
    (hfinish : start.finish = .ok file) : Kept start file := by
  unfold LoadedFile.finish at hfinish
  obtain ⟨⟨triggers, entries⟩, hfix, hupgrade⟩ := Fault.bind_eq_ok_iff.mp hfinish
  have hfixed := (Kept.refl hformed).setTriggers hclassed entries (length_fixTriggerExtensions hfix)
  exact hfixed.upgradeKstrToCurrent hclassed hupgrade

end Kept

theorem wordAt_of_zeros {bytes : List UInt8} {start width : ℕ}
    (hzeros : (bytes.drop start).all (· = 0) = true) (hle : start ≤ offset) :
    wordAt width bytes offset = 0 := by
  have hword : ∀ byte ∈ (bytes.drop offset).take width, byte = 0 := by
    intro byte hmem
    rw [← Nat.add_sub_cancel' hle, ← List.drop_drop] at hmem
    exact of_decide_eq_true (List.all_eq_true.mp hzeros byte
      (List.mem_of_mem_drop (List.mem_of_mem_take hmem)))
  rw [wordAt, List.eq_replicate_of_mem hword]
  exact littleEndianValue_append_zeros [] _

namespace LoadedFile

variable {file : LoadedFile}

/-- A check with which deleting the unused strings returns: the tables fit the
bit set, and OSTR has no string but that of the scenario name. -/
def deletesStrings (file : LoadedFile) : Bool :=
  match file.stringUsers, file.structAt .ostr with
  | .ok users, .ok ostr =>
      decide (users.str.strings.length ≤ maxStrings) &&
        decide (users.kstr.strings.length ≤ maxStrings) &&
        users.ktrg.reduceOption.all (fun data =>
          decide (data.commentStringId.toNat < maxStrings) &&
            decide (data.notesStringId.toNat < maxStrings)) &&
        decide (users.ostr.scenarioName.toNat < maxStrings) &&
        (ostr.rawData.drop 8).all (· = 0)
  | _, _ => false

theorem deleteUnusedStrings_of_check (hcheck : file.deletesStrings = true) :
    ∃ users, file.stringUsers = .ok users ∧ file.deleteUnusedStrings = .ok (file.setStrings
        users.withoutUnusedStrings.str users.withoutUnusedStrings.kstr) := by
  unfold deletesStrings at hcheck
  split at hcheck
  · rename_i users ostr husers hostr
    simp only [Bool.and_eq_true, decide_eq_true_eq] at hcheck
    obtain ⟨⟨⟨⟨hstr, hkstr⟩, hktrg⟩, hname⟩, hzeros⟩ := hcheck
    have hwords : ∀ {base count stringId : ℕ}, 8 ≤ base →
        stringId ∈ (words32 ostr base count).toList.map UInt32.toNat →
        stringId < maxStrings := by
      intro base count stringId hle hmem
      simp only [words32, List.Vector.toList_mk, structWords, List.map_map] at hmem
      obtain ⟨index, -, rfl⟩ := List.mem_map.mp hmem
      rw [Function.comp_apply, Function.comp_apply, wordAt_of_zeros hzeros (by omega)]
      decide
    have hmarks : users.editorMarkOutOfRange = false := by
      rw [LoadedScenario.editorMarkOutOfRange, List.any_eq_false]
      intro flag _
      rw [Bool.not_eq_true, List.any_eq_false]
      intro stringId hmem
      rw [decide_eq_true_eq, not_le]
      unfold stringUsers at husers
      iterate 7
        obtain ⟨_, -, husers⟩ := Fault.bind_eq_ok_iff.mp husers
      obtain ⟨_, hread, husers⟩ := Fault.bind_eq_ok_iff.mp husers
      cases hostr.symm.trans hread
      split at husers
      · cases husers
        have hextended := fun data hdata =>
          List.all_eq_true.mp hktrg data hdata
        simp only [Bool.and_eq_true, decide_eq_true_eq] at hextended
        cases flag with
        | scenarioName =>
            rw [List.mem_singleton.mp hmem]
            exact hname
        | scenarioDescription =>
            rw [List.mem_singleton.mp hmem, wordAt_of_zeros hzeros le_rfl]
            exact Nat.zero_lt_succ _
        | force | location | originalUnitSettings | expansionUnitSettings |
          sound | switch => exact hwords (by decide) hmem
        | extendedTriggerComment =>
            obtain ⟨data, hdata, rfl⟩ := List.mem_map.mp hmem
            exact (hextended data hdata).1
        | extendedTriggerNotes =>
            obtain ⟨data, hdata, rfl⟩ := List.mem_map.mp hmem
            exact (hextended data hdata).2
        | _ => cases hmem
      · cases husers
    refine ⟨users, husers, ?_⟩
    rw [deleteUnusedStrings, husers]
    change Except.bind (Fault.ofHazard users.deleteUnusedStrings) _ = _
    rw [LoadedScenario.deleteUnusedStrings, if_neg (by simp [hstr, hkstr, hmarks])]
    rfl
  · cases hcheck
end LoadedFile

end Chkdraft.Scenario
