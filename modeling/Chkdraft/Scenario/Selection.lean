import Chkdraft.Scenario.KeptSections
import Chkdraft.Scenario.LoadInvariants

/-!
# The sections a load selects

Behind the loop every pointer leads to an object of its class: to a parsed one,
or to a default put behind all parsed objects.  What a pointer leads to is the
parsed section if there is one and the default for its name otherwise.
-/

namespace Chkdraft.Scenario

open Binary Chk Sections

variable {file : LoadedFile} {name : SectionName} {state : LoadState}

def PointersInside (file : LoadedFile) : Prop :=
  ∀ name handle, file.pointer name = some handle → handle < file.objects.length

/-- Defaults stand under their own names and are well formed. -/
def ProperDefaults (defaults : List (SectionName × Section)) : Prop :=
  ∀ entry ∈ defaults, entry.2.name = entry.1 ∧ WellFormed entry.2

/-- What adding defaults does to a scenario. -/
structure Defaulted (before after : LoadedFile) : Prop where
  allSections_eq : after.allSections = before.allSections
  pointersInside : PointersInside after
  objects_eq : ∀ handle, handle < before.objects.length →
    after.objects[handle]? = before.objects[handle]?
  length_le : before.objects.length ≤ after.objects.length
  pointer_some : ∀ name handle, before.pointer name = some handle → after.pointer name = some handle
  pointer_none : ∀ name handle, before.pointer name = none →
    after.pointer name = some handle → before.objects.length ≤ handle
  classed : Classed before → Classed after
  wellFormed : (∀ content ∈ before.objects, WellFormed content) →
    ∀ content ∈ after.objects, WellFormed content
  tailData_eq : after.tailData = before.tailData
  tailLength_eq : after.tailLength = before.tailLength

namespace Defaulted

/-- No default added, whatever is noted about the accesses on the way. -/
theorem marked (hinside : PointersInside file) (safe : Bool) :
    Defaulted file { file with memorySafe := safe } where
  allSections_eq := rfl
  pointersInside := hinside
  objects_eq := fun _ _ => rfl
  length_le := le_rfl
  pointer_some := fun _ _ => id
  pointer_none := by
    intro name handle hnone hsome
    rw [hnone] at hsome
    cases hsome
  classed := id
  wellFormed := id
  tailData_eq := rfl
  tailLength_eq := rfl

theorem refl (hinside : PointersInside file) : Defaulted file file := marked hinside file.memorySafe

theorem trans {first second third : LoadedFile}
    (hleft : Defaulted first second) (hright : Defaulted second third) :
    Defaulted first third where
  allSections_eq := hright.allSections_eq.trans hleft.allSections_eq
  pointersInside := hright.pointersInside
  objects_eq := by
    intro handle hlt
    rw [hright.objects_eq handle (hlt.trans_le hleft.length_le), hleft.objects_eq handle hlt]
  length_le := hleft.length_le.trans hright.length_le
  pointer_some := fun name handle hpointer =>
    hright.pointer_some name handle (hleft.pointer_some name handle hpointer)
  pointer_none := by
    intro name handle hnone hsome
    cases hsecond : second.pointer name with
    | none =>
        exact hleft.length_le.trans (hright.pointer_none name handle hsecond hsome)
    | some middle =>
        have hmiddle := hright.pointer_some name middle hsecond
        rw [hsome] at hmiddle
        rw [Option.some.inj hmiddle]
        exact hleft.pointer_none name middle hnone hsecond
  classed := fun hclassed => hright.classed (hleft.classed hclassed)
  wellFormed := fun hformed => hright.wellFormed (hleft.wellFormed hformed)
  tailData_eq := hright.tailData_eq.trans hleft.tailData_eq
  tailLength_eq := hright.tailLength_eq.trans hleft.tailLength_eq

end Defaulted

theorem addDefault_of_some {handle : ℕ}
    (hpointer : file.pointer name = some handle) (content : Section) :
    file.addDefault name content = file := by
  rw [LoadedFile.addDefault, hpointer]

theorem addDefault_of_none (hpointer : file.pointer name = none) (content : Section) :
    file.addDefault name content =
      { file with
        objects := file.objects ++ [content]
        pointer := Function.update file.pointer name (some file.objects.length) } := by
  rw [LoadedFile.addDefault, hpointer]

theorem pointer_addDefault_of_ne (file : LoadedFile) {other : SectionName}
    (hne : other ≠ name) (content : Section) :
    (file.addDefault name content).pointer other = file.pointer other := by
  cases hpointer : file.pointer name with
  | some handle => rw [addDefault_of_some hpointer]
  | none =>
      rw [addDefault_of_none hpointer]
      exact Function.update_of_ne hne _ _

theorem pointer_addDefault_self (hpointer : file.pointer name = none) (content : Section) :
    (file.addDefault name content).pointer name = some file.objects.length := by
  rw [addDefault_of_none hpointer]
  exact Function.update_self _ _ _

theorem defaulted_addDefault {content : Section}
    (hinside : PointersInside file) (hname : content.name = name)
    (hformed : WellFormed content) :
    Defaulted file (file.addDefault name content) := by
  cases hpointer : file.pointer name with
  | some handle =>
      rw [addDefault_of_some hpointer]
      exact Defaulted.refl hinside
  | none =>
      have hself := pointer_addDefault_self hpointer content
      have hother := fun other (hne : other ≠ name) =>
        pointer_addDefault_of_ne file hne content
      have hobjects : (file.addDefault name content).objects = file.objects ++ [content] := by
        rw [addDefault_of_none hpointer]
      have hlength : (file.addDefault name content).objects.length = file.objects.length + 1 := by
        rw [hobjects, List.length_append, List.length_singleton]
      refine
        { allSections_eq := by rw [addDefault_of_none hpointer]
          pointersInside := ?_
          objects_eq := ?_
          length_le := by omega
          pointer_some := ?_
          pointer_none := ?_
          classed := ?_
          wellFormed := ?_
          tailData_eq := by rw [addDefault_of_none hpointer]
          tailLength_eq := by rw [addDefault_of_none hpointer] }
      · intro other handle hsome
        rw [hlength]
        by_cases heq : other = name
        · rw [heq, hself] at hsome
          rw [← Option.some.inj hsome]
          exact Nat.lt_succ_self _
        · rw [hother other heq] at hsome
          exact (hinside other handle hsome).trans (Nat.lt_succ_self _)
      · intro handle hlt
        rw [hobjects, List.getElem?_append_left hlt]
      · intro other handle hsome
        have hne : other ≠ name := by
          rintro rfl
          rw [hpointer] at hsome
          cases hsome
        rw [hother other hne, hsome]
      · intro other handle hnone hsome
        by_cases heq : other = name
        · rw [heq, hself] at hsome
          exact (Option.some.inj hsome).le
        · rw [hother other heq, hnone] at hsome
          cases hsome
      · intro hclassed other handle hproper hsome
        rw [hobjects]
        by_cases heq : other = name
        · rw [heq, hself] at hsome
          rw [← Option.some.inj hsome]
          exact ⟨content, List.getElem?_concat_length, hname.trans heq.symm⟩
        · rw [hother other heq] at hsome
          obtain ⟨old, hold, holdName⟩ := hclassed other handle hproper hsome
          refine ⟨old, ?_, holdName⟩
          rw [List.getElem?_append_left (hinside other handle hsome)]
          exact hold
      · intro hall other hmem
        rw [hobjects] at hmem
        rcases List.mem_append.mp hmem with hbefore | hnew
        · exact hall other hbefore
        · rw [List.mem_singleton.mp hnew]
          exact hformed

theorem defaulted_addDefaults {defaults : List (SectionName × Section)}
    (hproper : ProperDefaults defaults) (hinside : PointersInside file) :
    Defaulted file (file.addDefaults defaults) := by
  induction defaults generalizing file with
  | nil => exact Defaulted.refl hinside
  | cons entry rest ih =>
      obtain ⟨hname, hformed⟩ := hproper entry List.mem_cons_self
      have hfirst := defaulted_addDefault hinside hname hformed
      exact hfirst.trans (ih (fun other hmem =>
        hproper other (List.mem_cons_of_mem entry hmem)) hfirst.pointersInside)

theorem memorySafe_addDefaults (file : LoadedFile) (defaults : List (SectionName × Section)) :
    (file.addDefaults defaults).memorySafe = file.memorySafe := by
  induction defaults generalizing file with
  | nil => rfl
  | cons entry rest ih =>
      have hrest := ih (file.addDefault entry.1 entry.2)
      refine hrest.trans ?_
      cases hpointer : file.pointer entry.1 with
      | some handle => rw [addDefault_of_some hpointer]
      | none => rw [addDefault_of_none hpointer]

theorem section_addDefault (hinside : PointersInside file)
    (name other : SectionName) (content : Section) :
    (file.addDefault name content).section? other = (file.section? other).or
        (if name = other then some content else none) := by
  cases hother : file.pointer other with
  | some handle =>
      have hlt := hinside other handle hother
      have hfound : (file.addDefault name content).pointer other = some handle ∧
          (file.addDefault name content).objects[handle]? = file.objects[handle]? := by
        cases hname : file.pointer name with
        | some _ =>
            rw [addDefault_of_some hname]
            exact ⟨hother, rfl⟩
        | none =>
            have hne : other ≠ name := by
              rintro rfl
              rw [hname] at hother
              cases hother
            rw [pointer_addDefault_of_ne file hne, addDefault_of_none hname]
            exact ⟨hother, List.getElem?_append_left hlt⟩
      rw [section_eq hfound.1, hfound.2, section_eq hother,
        List.getElem?_eq_getElem hlt, Option.some_or]
  | none =>
      have hnone : file.section? other = none := by
        rw [LoadedFile.section?, hother, Option.bind_none]
      rw [hnone, Option.none_or]
      by_cases heq : name = other
      · subst heq
        rw [if_pos rfl, section_eq (pointer_addDefault_self hother content),
          addDefault_of_none hother]
        exact List.getElem?_concat_length
      · rw [if_neg heq, LoadedFile.section?, pointer_addDefault_of_ne file (Ne.symm heq),
          hother, Option.bind_none]

def defaultFor (defaults : List (SectionName × Section)) (name : SectionName) : Option Section :=
  (defaults.find? fun entry => entry.1 = name).map Prod.snd

theorem section_addDefaults {defaults : List (SectionName × Section)}
    (hproper : ProperDefaults defaults) (hinside : PointersInside file)
    (name : SectionName) :
    (file.addDefaults defaults).section? name =
      (file.section? name).or (defaultFor defaults name) := by
  induction defaults generalizing file with
  | nil => exact (Option.or_none).symm
  | cons entry rest ih =>
      obtain ⟨hname, hformed⟩ := hproper entry List.mem_cons_self
      have hfirst := defaulted_addDefault hinside hname hformed
      have hrest := ih (fun other hmem =>
        hproper other (List.mem_cons_of_mem entry hmem)) hfirst.pointersInside
      calc (file.addDefaults (entry :: rest)).section? name
          = ((file.addDefault entry.1 entry.2).addDefaults rest).section?
              name := rfl
        _ = ((file.section? name).or (if entry.1 = name then some entry.2 else none)).or
                (defaultFor rest name) := by
            rw [hrest, section_addDefault hinside]
        _ = (file.section? name).or (defaultFor (entry :: rest) name) := by
            rw [Option.or_assoc, defaultFor, defaultFor, List.find?_cons]
            by_cases heq : entry.1 = name <;> simp [heq]

theorem wellFormed_defaultMrgn (tileWidth tileHeight : ℕ) :
    WellFormed (.mrgn (defaultMrgn tileWidth tileHeight)) := by
  refine ⟨List.replicate 63 blankLocation ++ ({ blankLocation with
        right := UInt32.ofNat (tileWidth * 32)
        bottom := UInt32.ofNat (tileHeight * 32)
        stringId := 3 } :: List.replicate 191 blankLocation), ?_⟩
  simp only [defaultMrgn, List.map_append, List.map_cons, List.map_replicate, List.cons_append]

theorem properDefaults_dimensionDefaults (tileWidth tileHeight : ℕ) :
    ProperDefaults (dimensionDefaults tileWidth tileHeight) := by
  intro entry hmem
  simp only [dimensionDefaults, List.mem_cons, List.not_mem_nil, or_false] at hmem
  rcases hmem with rfl | rfl | rfl | rfl
  · exact ⟨rfl, trivial⟩
  · exact ⟨rfl, trivial⟩
  · exact ⟨rfl, trivial⟩
  · exact ⟨rfl, wellFormed_defaultMrgn tileWidth tileHeight⟩

theorem properDefaults_plainDefaults (version : ℕ) : ProperDefaults (plainDefaults version) := by
  intro entry hmem
  rcases List.mem_append.mp hmem with hfirst | hstruct
  · have hempty : WellFormed (.str StrSection.default) := by
      intro chars hchars
      cases List.mem_singleton.mp hchars
    have hkstr : WellFormed (.kstr KstrSection.default) := by
      intro chars hchars
      cases hchars
    simp only [List.mem_cons, List.not_mem_nil, or_false] at hfirst
    rcases hfirst with rfl | rfl | rfl | rfl | rfl | rfl | rfl
    · exact ⟨rfl, hempty⟩
    · exact ⟨rfl, hkstr⟩
    all_goals exact ⟨rfl, trivial⟩
  · obtain ⟨pair, -, rfl⟩ := List.mem_map.mp hstruct
    exact ⟨rfl, trivial⟩

/-- The default for a name that depends on the dimensions of the map. -/
def dimensionDefault (file : LoadedFile) (name : SectionName) : Option Section :=
  (file.struct? .dim).bind fun dim =>
    defaultFor (dimensionDefaults (wordAt 2 dim.rawData 0) (wordAt 2 dim.rawData 2)) name

section

variable (hinside : PointersInside file)

include hinside

theorem defaulted_addDimensionDefaults : Defaulted file file.addDimensionDefaults := by
  unfold LoadedFile.addDimensionDefaults
  split
  · exact Defaulted.refl hinside
  · rename_i dim hdim
    have hmarked := Defaulted.marked hinside
      (file.memorySafe && (dim.dataValid || !file.lacksDimensionDefault))
    exact hmarked.trans (defaulted_addDefaults
      (properDefaults_dimensionDefaults _ _) hmarked.pointersInside)

theorem section_addDimensionDefaults (name : SectionName) :
    file.addDimensionDefaults.section? name =
      (file.section? name).or (dimensionDefault file name) := by
  unfold LoadedFile.addDimensionDefaults dimensionDefault
  cases hdim : file.struct? .dim with
  | none => exact (Option.or_none).symm
  | some dim =>
      have hmarked := Defaulted.marked hinside
        (file.memorySafe && (dim.dataValid || !file.lacksDimensionDefault))
      exact section_addDefaults (properDefaults_dimensionDefaults _ _) hmarked.pointersInside name

theorem defaulted_setMissing (ver : StructSection) : Defaulted file (file.setMissing ver) := by
  have hmarked := Defaulted.marked hinside (file.memorySafe && ver.dataValid)
  have hdimension := defaulted_addDimensionDefaults hmarked.pointersInside
  exact (hmarked.trans hdimension).trans (defaulted_addDefaults
    (properDefaults_plainDefaults _) hdimension.pointersInside)

/-- A selected section is the parsed one or else its default. -/
theorem section_setMissing (ver : StructSection) (name : SectionName) :
    (file.setMissing ver).section? name = ((file.section? name).or (dimensionDefault file name)).or
        (defaultFor (plainDefaults (wordAt 2 ver.rawData 0)) name) := by
  have hmarked := Defaulted.marked hinside (file.memorySafe && ver.dataValid)
  have hdimension := defaulted_addDimensionDefaults hmarked.pointersInside
  have hplain := section_addDefaults (properDefaults_plainDefaults (wordAt 2 ver.rawData 0))
    hdimension.pointersInside name
  rw [section_addDimensionDefaults hmarked.pointersInside] at hplain
  exact hplain

end

/-- The defaults are set without an access through an invalid pointer when VER
and DIM hold their structures where they were allocated. -/
theorem memorySafe_setMissing {ver : StructSection}
    (hsafe : file.memorySafe = true) (hver : ver.dataValid = true)
    (hdim : ∀ dim, file.struct? .dim = some dim → dim.dataValid = true) :
    (file.setMissing ver).memorySafe = true := by
  rw [LoadedFile.setMissing, memorySafe_addDefaults, LoadedFile.addDimensionDefaults]
  split
  · simp [hsafe, hver]
  · rename_i dim hfound
    have hvalid : dim.dataValid = true := hdim dim hfound
    simp [memorySafe_addDefaults, hsafe, hver, hvalid]

namespace LoadState

/-- The scenario behind the loop, before missing sections are set. -/
def parsedFile (state : LoadState) : LoadedFile where
  objects := state.objects
  allSections := state.allSections
  pointer := state.selected
  tailData := state.tailData
  tailLength := state.tailLength
  mapIsProtected := state.mapIsProtected
  jumpCompress := state.jumpCompress
  memorySafe := state.memorySafe

theorem selectSections_eq (state : LoadState) : state.selectSections =
      (state.parsedFile.struct? .ver).map state.parsedFile.setMissing := rfl

theorem mem_of_selected {handle : ℕ} (hselected : state.selected name = some handle) :
    (name.code, handle) ∈ state.parsedSections := by
  have hentry : ∀ entry, entry ∈ state.parsedSections.filter
      (fun entry => entry.1 = name.code) → entry.2 = handle →
      (name.code, handle) ∈ state.parsedSections := by
    intro entry hmem hhandle
    obtain ⟨hparsed, hcode⟩ := List.mem_filter.mp hmem
    rw [← of_decide_eq_true hcode, ← hhandle]
    exact hparsed
  unfold selected at hselected
  simp only at hselected
  split at hselected
  · obtain ⟨entry, hlast, hhandle⟩ := Option.map_eq_some_iff.mp hselected
    exact hentry entry (List.mem_of_getLast? hlast) hhandle
  · obtain ⟨entry, hhead, hhandle⟩ := Option.map_eq_some_iff.mp hselected
    exact hentry entry (List.mem_of_head? hhead) hhandle

theorem classed_parsedFile (hnames : NamesMatch state) : Classed state.parsedFile := by
  intro name handle hproper hpointer
  obtain ⟨content, hcontent, hname⟩ := hnames _ (mem_of_selected hpointer)
  exact ⟨content, hcontent, hname.trans hproper⟩

theorem pointersInside_parsedFile (hnames : NamesMatch state) :
    PointersInside state.parsedFile := by
  intro name handle hpointer
  obtain ⟨content, hcontent, -⟩ := hnames _ (mem_of_selected hpointer)
  exact (List.getElem?_eq_some_iff.mp hcontent).1

end LoadState

end Chkdraft.Scenario
