import Chkdraft.Core.Table
import Chkdraft.Scenario.KeptSections

/-!
# The names an upgrade moves

The loops of `Scenario::upgradeKstrToCurrent` over the names of structures and
the names of locations do the same to each id they visit: one that stands for an
editor string goes to the word of OSTR that belongs to it, and nothing is left in
its place.  No other id and no other word of OSTR changes.
-/

namespace Chkdraft.Scenario

open Binary Chk Sections

variable {name : SectionName} {locations : List (Option Location)} {value : ℕ}

variable {content : Section} {index offset other width : ℕ}
  {fields : NameFields} {inner : StructSection}

theorem rawData_setWord {content : StructSection} (value : ℕ)
    (hfit : offset + width ≤ content.rawData.length) :
    (setWord content width offset value).rawData =
      overwrite content.rawData offset (littleEndian width value) := by
  have hlength : (overwrite content.rawData offset
      (littleEndian width value)).length = content.rawData.length :=
    length_overwrite (by rwa [length_littleEndian])
  exact List.take_of_length_le hlength.le

theorem wordAt_setWord_self {content : StructSection} (value : ℕ)
    (hfit : offset + width ≤ content.rawData.length) :
    wordAt width (setWord content width offset value).rawData offset = value % 256 ^ width := by
  have hfront : (content.rawData.take offset).length = offset := by
    rw [List.length_take]
    omega
  rw [wordAt, rawData_setWord value hfit, overwrite, List.append_assoc,
    List.drop_left' hfront, List.take_left' (length_littleEndian width value),
    littleEndianValue_littleEndian]

theorem wordAt_setWord_of_disjoint {content : StructSection} {wordWidth : ℕ}
    (value : ℕ) (hfit : offset + width ≤ content.rawData.length)
    (hdisjoint : other + wordWidth ≤ offset ∨ offset + width ≤ other) :
    wordAt wordWidth (setWord content width offset value).rawData other =
      wordAt wordWidth content.rawData other := by
  rw [wordAt, wordAt, rawData_setWord value hfit]
  rcases hdisjoint with hbefore | hbehind
  · rw [List.take_drop, List.take_drop, take_overwrite _ (by omega) (by omega)]
  · rw [drop_overwrite (by rwa [length_littleEndian]) (by omega)]

theorem nameFields_fit {name : StructName} (hfields : nameFields name = some fields) :
    fields.offset + fields.width * fields.count ≤ name.size ∧
      fields.ostrOffset + 4 * fields.count ≤ 4924 ∧
      4 ∣ fields.ostrOffset ∧ 0 < fields.width := by
  cases name <;> cases hfields <;> decide

/-- The string id at an index: a name of a structure or of a location. -/
def heldId (content : Section) (index : ℕ) : Option ℕ :=
  match content with
  | .struct inner => (nameFields inner.name).bind fun fields =>
      if index < fields.count then
        some (wordAt fields.width inner.rawData (fields.offset + fields.width * index))
      else
        none
  | .mrgn locations => (locations.getD index none).map fun location =>
      location.stringId.toNat
  | _ => none

/-- How many ids the upgrade looks at; the last location is left out. -/
def visitedCount : Section → ℕ
  | .struct inner => (nameFields inner.name).elim 0 NameFields.count
  | .mrgn locations => locations.length - 1
  | _ => 0

theorem heldId_setWord {content : StructSection} (hfields : nameFields content.name = some fields)
    (hindex : index < fields.count) (other : ℕ) :
    heldId (.struct (setWord content fields.width (fields.offset + fields.width * index) 0)) other =
      if other = index then some 0 else heldId (.struct content) other := by
  obtain ⟨hfit, -, -, -⟩ := nameFields_fit hfields
  have hname : (setWord content fields.width
      (fields.offset + fields.width * index) 0).name = content.name := rfl
  have hend : fields.offset + fields.width * index + fields.width ≤
      content.rawData.length := by
    have hmul := Nat.mul_le_mul_left fields.width hindex
    have hsize := content.size_le
    rw [Nat.mul_succ] at hmul
    omega
  simp only [heldId, hname, hfields, Option.bind_some]
  by_cases hother : other = index
  · rw [if_pos (by omega), if_pos hother, hother, wordAt_setWord_self 0 hend, Nat.zero_mod]
  · rw [if_neg hother]
    split
    · rw [wordAt_setWord_of_disjoint 0 hend]
      rcases Nat.lt_or_gt_of_ne hother with hlt | hgt
      · have hmul := Nat.mul_le_mul_left fields.width hlt
        rw [Nat.mul_succ] at hmul
        omega
      · have hmul := Nat.mul_le_mul_left fields.width hgt
        rw [Nat.mul_succ] at hmul
        omega
    · rfl

theorem heldId_set_location {location : Location}
    (hlocation : locations.getD index none = some location) (other : ℕ) :
    heldId (.mrgn (locations.set index (some { location with stringId := 0 }))) other =
      if other = index then some 0 else heldId (.mrgn locations) other := by
  have hlt : index < locations.length := by
    by_contra hge
    rw [List.getD_eq_default _ _ (Nat.le_of_not_lt hge)] at hlocation
    cases hlocation
  have hset := Table.getD_set locations index other (some { location with stringId := 0 }) hlt
  simp only [heldId, hset]
  split
  · rfl
  · rfl

/-- The word of OSTR that belongs to an index of a section. -/
def ostrOffset (name : SectionName) (index : ℕ) : ℕ :=
  match name with
  | .struct name => (nameFields name).elim 0 NameFields.ostrOffset + 4 * index
  | _ => 4920 + 4 * index

def ostrWord (content : Section) (offset : ℕ) : Option ℕ :=
  match content with
  | .struct inner => some (wordAt 4 inner.rawData offset)
  | _ => none

namespace LoadedFile

def heldAt (file : LoadedFile) (handle index : ℕ) : Option ℕ :=
  file.objects[handle]?.bind fun content => heldId content index

def visitedAt (file : LoadedFile) (handle : ℕ) : ℕ := file.objects[handle]?.elim 0 visitedCount

def ostrAt (file : LoadedFile) (handle offset : ℕ) : Option ℕ :=
  file.objects[handle]?.bind fun content => ostrWord content offset

end LoadedFile

namespace EditorStrings

def leaves (editor : EditorStrings) (stringId : ℕ) : ℕ :=
  if editor.refersTo stringId then 0 else stringId

/-- What an id makes of the word of OSTR that belongs to it. -/
def gives (editor : EditorStrings) (held word : Option ℕ) : Option ℕ :=
  held.elim word fun stringId =>
    if editor.refersTo stringId then some (65536 - stringId) else word

end EditorStrings

/-- An id is visited: what stands for an editor string moves, everything else
stays. -/
structure Moves (editor : EditorStrings) (ostr handle : ℕ)
    (name : SectionName) (index : ℕ) (file later : LoadedFile) : Prop where
  objects : ∀ other, other ≠ handle → other ≠ ostr → later.objects[other]? = file.objects[other]?
  held : ∀ other, later.heldAt handle other =
    if other = index then (file.heldAt handle other).map editor.leaves
    else file.heldAt handle other
  visited : later.visitedAt handle = file.visitedAt handle
  given : ∀ offset, 4 ∣ offset → later.ostrAt ostr offset =
    if offset = ostrOffset name index then
      editor.gives (file.heldAt handle index) (file.ostrAt ostr offset)
    else file.ostrAt ostr offset
  inside : ∀ stringId, file.heldAt handle index = some stringId →
    editor.refersTo stringId = true → ostrOffset name index < 5944

theorem Moves.of_not_refersTo {editor : EditorStrings} {ostr handle : ℕ}
    {file : LoadedFile}
    (hstays : ∀ stringId, file.heldAt handle index = some stringId →
      editor.refersTo stringId = false) :
    Moves editor ostr handle name index file file := by
  refine ⟨fun _ _ _ => rfl, fun other => ?_, rfl, fun offset _ => ?_,
    fun stringId hheld hrefers => ?_⟩
  · split
    · rename_i heq
      rw [heq]
      cases hheld : file.heldAt handle index with
      | none => rfl
      | some stringId =>
          simp [EditorStrings.leaves, hstays stringId hheld]
    · rfl
  · split
    · cases hheld : file.heldAt handle index with
      | none => rfl
      | some stringId =>
          simp [EditorStrings.gives, hstays stringId hheld]
    · rfl
  · rw [hstays stringId hheld] at hrefers
    cases hrefers

section Visit

variable {start file later : LoadedFile} {editor : EditorStrings}
  {ostr handle index : ℕ}

theorem ostr_size_le (hname : inner.name = .ostr) (hlt : offset < 5944)
    (hdvd : 4 ∣ offset) : offset + 4 ≤ inner.rawData.length := by
  have hsize : StructName.ostr.size = 5944 := rfl
  have hle := inner.size_le
  rw [hname, hsize] at hle
  omega

theorem ostrAt_setObject {target : ℕ} (hne : handle ≠ ostr)
    (hcontent : file.objects[ostr]? = some (.struct inner)) (hname : inner.name = .ostr)
    (htarget : 4 ∣ target) (hlt : target < 5944) (hvalue : value < 256 ^ 4)
    (hoffset : 4 ∣ offset) :
    ((file.setObject ostr (.struct (setWord inner 4 target
      value))).setObject handle content).ostrAt ostr offset =
        if offset = target then some value else file.ostrAt ostr offset := by
  have hinside := (List.getElem?_eq_some_iff.mp hcontent).1
  have hfit := ostr_size_le hname hlt htarget
  have hword : ((file.setObject ostr (.struct (setWord inner 4 target
      value))).setObject handle content).ostrAt ostr offset =
        some (wordAt 4 (setWord inner 4 target value).rawData offset) := by
    rw [LoadedFile.ostrAt, LoadedFile.setObject, List.getElem?_set_ne hne,
      LoadedFile.setObject, List.getElem?_set_self hinside]
    rfl
  rw [hword]
  split
  · rename_i heq
    rw [heq, wordAt_setWord_self value hfit, Nat.mod_eq_of_lt hvalue]
  · rename_i hother
    rw [wordAt_setWord_of_disjoint value hfit (by omega), LoadedFile.ostrAt, hcontent]
    rfl

/-- An id that stands for an editor string was moved to OSTR. -/
theorem Moves.of_setObject {moved : Section} {stringId : ℕ} (hne : handle ≠ ostr)
    (hostr : file.objects[ostr]? = some (.struct inner)) (hname : inner.name = .ostr)
    (hcontent : file.objects[handle]? = some content)
    (hheld : heldId content index = some stringId)
    (hrefers : editor.refersTo stringId = true) (hdvd : 4 ∣ ostrOffset name index)
    (hlt : ostrOffset name index < 5944)
    (hmoved : ∀ other, heldId moved other =
      if other = index then some 0 else heldId content other)
    (hcount : visitedCount moved = visitedCount content) :
    Moves editor ostr handle name index file
      ((file.setObject ostr (.struct (setWord inner 4 (ostrOffset name index)
        (65536 - stringId)))).setObject handle moved) := by
  have hinside := (List.getElem?_eq_some_iff.mp hcontent).1
  have hat : file.heldAt handle index = some stringId := by
    rw [LoadedFile.heldAt, hcontent]
    exact hheld
  have hset : ((file.setObject ostr (.struct (setWord inner 4
      (ostrOffset name index) (65536 - stringId)))).setObject handle
        moved).objects[handle]? = some moved := by
    rw [LoadedFile.setObject, List.getElem?_set_self
      (by rwa [LoadedFile.setObject, List.length_set])]
  refine ⟨fun other hhandle hother => ?_, fun other => ?_, ?_,
    fun offset hoffset => ?_, fun _ _ _ => hlt⟩
  · rw [LoadedFile.setObject, List.getElem?_set_ne hhandle.symm,
      LoadedFile.setObject, List.getElem?_set_ne hother.symm]
  · rw [LoadedFile.heldAt, hset, Option.bind_some, hmoved, LoadedFile.heldAt,
      hcontent, Option.bind_some]
    split
    · rename_i heq
      rw [heq, hheld, Option.map_some, EditorStrings.leaves, if_pos hrefers]
    · rfl
  · rw [LoadedFile.visitedAt, hset, LoadedFile.visitedAt, hcontent]
    exact hcount
  · rw [ostrAt_setObject hne hostr hname hdvd hlt (by omega) hoffset, hat,
      EditorStrings.gives, Option.elim_some, if_pos hrefers]

variable (hkept : Kept start file) (hclassed : Classed start)
  (hpointer : start.pointer (.struct .ostr) = some ostr)

include hkept hclassed hpointer

theorem setOstrWord_at (hset : file.setOstrWord offset value = .ok later) :
    ∃ inner, file.objects[ostr]? = some (.struct inner) ∧ inner.name = .ostr ∧
      later = file.setObject ostr (.struct (setWord inner 4 offset value)) := by
  obtain ⟨handle, inner, hhandle, hinner, hlater⟩ := setOstrWord_eq hset
  have hsame : handle = ostr := by
    rw [hkept.pointer_eq, hpointer] at hhandle
    exact (Option.some.inj hhandle).symm
  rw [hsame] at hinner hlater hhandle
  have hname := (hkept.classed hclassed).at (by decide) hhandle hinner
  exact ⟨inner, hinner, SectionName.struct.inj hname, hlater⟩

theorem upgradeName_moves {content : StructSection}
    (hcontent : file.objects[handle]? = some (.struct content))
    (hfields : nameFields content.name = some fields)
    (hindex : index < fields.count)
    (hupgrade : upgradeName editor handle fields file index = .ok later) :
    Moves editor ostr handle (.struct content.name) index file later := by
  obtain ⟨hfit, hostrFit, hdvd, hwidth⟩ := nameFields_fit hfields
  have hheld : ∀ other < fields.count, heldId (.struct content) other =
      some (wordAt fields.width content.rawData (fields.offset + fields.width * other)) := by
    intro other hother
    simp only [heldId, hfields, Option.bind_some, if_pos hother]
  simp only [upgradeName, hcontent] at hupgrade
  split at hupgrade
  · split at hupgrade
    · rename_i hrefers
      obtain ⟨middle, hset, hresult⟩ := Fault.bind_eq_ok_iff.mp hupgrade
      obtain ⟨inner, hinner, hname, rfl⟩ := setOstrWord_at hkept hclassed hpointer hset
      cases hresult
      have hne : handle ≠ ostr := by
        rintro rfl
        rw [hcontent] at hinner
        cases hinner
        rw [hname] at hfields
        cases hfields
      have hoffset : ostrOffset (.struct content.name) index = fields.ostrOffset + 4 * index := by
        rw [ostrOffset, hfields]
        rfl
      rw [← hoffset]
      refine Moves.of_setObject hne hinner hname hcontent (hheld index hindex)
        hrefers (by omega) (by omega) ?_ rfl
      exact heldId_setWord hfields hindex
    · rename_i hstays
      cases hupgrade
      apply Moves.of_not_refersTo
      intro stringId hid
      rw [LoadedFile.heldAt, hcontent, Option.bind_some, hheld index hindex,
        Option.some.injEq] at hid
      rw [← hid]
      exact Bool.eq_false_iff.mpr hstays
  · cases hupgrade

theorem upgradeLocation_moves (hcontent : file.objects[handle]? = some (.mrgn locations))
    (hupgrade : upgradeLocation editor handle file index = .ok later) :
    Moves editor ostr handle .mrgn index file later := by
  simp only [upgradeLocation, hcontent] at hupgrade
  split at hupgrade
  · rename_i location hlocation
    have hheld : heldId (.mrgn locations) index = some location.stringId.toNat := by
      simp only [heldId, hlocation, Option.map_some]
    split at hupgrade
    · rename_i hrefers
      split at hupgrade
      · rename_i hid
        obtain ⟨middle, hset, hresult⟩ := Fault.bind_eq_ok_iff.mp hupgrade
        have hoffset : 4924 + 4 * (index - 1) = ostrOffset .mrgn index := by
          change 4924 + 4 * (index - 1) = 4920 + 4 * index
          omega
        rw [hoffset] at hset
        obtain ⟨inner, hinner, hname, rfl⟩ := setOstrWord_at hkept hclassed hpointer hset
        cases hresult
        have hne : handle ≠ ostr := by
          rintro rfl
          rw [hcontent] at hinner
          cases hinner
        refine Moves.of_setObject hne hinner hname hcontent hheld hrefers
          (by omega) (by omega) (heldId_set_location hlocation) ?_
        rw [visitedCount, visitedCount, List.length_set]
      · cases hupgrade
    · rename_i hstays
      cases hupgrade
      apply Moves.of_not_refersTo
      intro stringId hid
      rw [LoadedFile.heldAt, hcontent, Option.bind_some, hheld, Option.some.injEq] at hid
      rw [← hid]
      exact Bool.eq_false_iff.mpr hstays
  · rename_i hlocation
    cases hupgrade
    apply Moves.of_not_refersTo
    intro stringId hid
    rw [LoadedFile.heldAt, hcontent, Option.bind_some, heldId, hlocation] at hid
    cases hid

end Visit

/-- The first ids of a section are visited. -/
structure MovesAll (editor : EditorStrings) (ostr handle : ℕ)
    (name : SectionName) (count : ℕ) (file later : LoadedFile) : Prop where
  objects : ∀ other, other ≠ handle → other ≠ ostr → later.objects[other]? = file.objects[other]?
  held : ∀ index, later.heldAt handle index =
    if index < count then (file.heldAt handle index).map editor.leaves
    else file.heldAt handle index
  visited : later.visitedAt handle = file.visitedAt handle
  given : ∀ index < count, later.ostrAt ostr (ostrOffset name index) =
    editor.gives (file.heldAt handle index) (file.ostrAt ostr (ostrOffset name index))
  rest : ∀ offset, 4 ∣ offset → (∀ index < count, offset = ostrOffset name index →
      file.heldAt handle index = none) →
    later.ostrAt ostr offset = file.ostrAt ostr offset
  inside : ∀ index < count, ∀ stringId, file.heldAt handle index = some stringId →
    editor.refersTo stringId = true → ostrOffset name index < 5944

theorem dvd_ostrOffset (name : SectionName) (index : ℕ) : 4 ∣ ostrOffset name index := by
  unfold ostrOffset
  split
  · rename_i name
    cases hfields : nameFields name with
    | none => exact ⟨index, by simp⟩
    | some fields =>
        obtain ⟨-, -, hdvd, -⟩ := nameFields_fit hfields
        exact Nat.dvd_add hdvd (Nat.dvd_mul_right 4 index)
  · omega

theorem ostrOffset_injective (name : SectionName) : Function.Injective (ostrOffset name) := by
  intro first second heq
  unfold ostrOffset at heq
  split at heq
  · omega
  · omega

section Loop

variable {start file later : LoadedFile} {editor : EditorStrings}
  {ostr handle count : ℕ} {name : SectionName}
  {visit : LoadedFile → ℕ → Except (Fault Exception) LoadedFile}

theorem MovesAll.zero : MovesAll editor ostr handle name 0 file file := by
  refine ⟨fun _ _ _ => rfl, fun index => ?_, rfl, fun index hindex => ?_,
    fun _ _ _ => rfl, fun index hindex => ?_⟩
  · rw [if_neg (Nat.not_lt_zero index)]
  · exact absurd hindex (Nat.not_lt_zero index)
  · exact absurd hindex (Nat.not_lt_zero index)

theorem MovesAll.step {middle : LoadedFile}
    (hmoves : MovesAll editor ostr handle name count file middle)
    (hstep : Moves editor ostr handle name count middle later) :
    MovesAll editor ostr handle name (count + 1) file later := by
  have hcount : middle.heldAt handle count = file.heldAt handle count := by
    rw [hmoves.held, if_neg (lt_irrefl count)]
  have hoffset : middle.ostrAt ostr (ostrOffset name count) =
      file.ostrAt ostr (ostrOffset name count) := by
    apply hmoves.rest _ (dvd_ostrOffset name count)
    intro index hindex heq
    exact absurd (ostrOffset_injective name heq) (by omega)
  refine ⟨fun other hhandle hostr => ?_, fun index => ?_,
    hstep.visited.trans hmoves.visited, fun index hindex => ?_,
    fun offset hdvd hnone => ?_, fun index hindex stringId hheld hrefers => ?_⟩
  · rw [hstep.objects other hhandle hostr, hmoves.objects other hhandle hostr]
  · rw [hstep.held]
    rcases Nat.lt_trichotomy index count with hlt | rfl | hgt
    · rw [if_neg (by omega), hmoves.held, if_pos hlt, if_pos (by omega)]
    · rw [if_pos rfl, hcount, if_pos (by omega)]
    · rw [if_neg (by omega), hmoves.held, if_neg (by omega), if_neg (by omega)]
  · rw [hstep.given _ (dvd_ostrOffset name index)]
    rcases Nat.lt_or_eq_of_le (Nat.le_of_lt_succ hindex) with hlt | rfl
    · have hne : ostrOffset name index ≠ ostrOffset name count :=
        fun heq => absurd (ostrOffset_injective name heq) (by omega)
      rw [if_neg hne, hmoves.given index hlt]
    · rw [if_pos rfl, hcount, hoffset]
  · have hbefore := hmoves.rest offset hdvd fun index hindex =>
      hnone index (by omega)
    rw [hstep.given offset hdvd]
    split
    · rename_i heq
      rw [hcount, hnone count (by omega) heq]
      exact hbefore
    · exact hbefore
  · rcases Nat.lt_or_eq_of_le (Nat.le_of_lt_succ hindex) with hlt | rfl
    · exact hmoves.inside index hlt stringId hheld hrefers
    · rw [← hcount] at hheld
      exact hstep.inside stringId hheld hrefers

theorem MovesAll.of_range (hvisit : ∀ state index next, Kept start state → index < count →
      visit state index = .ok next →
        Kept start next ∧ Moves editor ostr handle name index state next)
    (hkept : Kept start file)
    (hrun : (List.range count).foldlM visit file = .ok later) :
    Kept start later ∧ MovesAll editor ostr handle name count file later := by
  induction count generalizing later with
  | zero =>
      cases hrun
      exact ⟨hkept, MovesAll.zero⟩
  | succ count ih =>
      rw [List.range_succ, List.foldlM_append, Fault.bind_eq_ok_iff] at hrun
      obtain ⟨middle, hmiddle, hlast⟩ := hrun
      rw [List.foldlM_cons, Fault.bind_eq_ok_iff] at hlast
      obtain ⟨next, hnext, hresult⟩ := hlast
      cases hresult
      obtain ⟨hkept, hmoves⟩ := ih (fun state index next hstate hindex =>
        hvisit state index next hstate (by omega)) hmiddle
      obtain ⟨hlater, hstep⟩ := hvisit middle count later hkept (by omega) hnext
      exact ⟨hlater, hmoves.step hstep⟩

end Loop

/-! ## One section -/

def unnamedSections : List SectionName := [.struct .ostr, .trig, .ktrg, .mbrf, .str, .kstr]

/-- Structures and locations, the sections that may have names. -/
def mayName : Section → Bool
  | .mrgn _ | .struct _ => true
  | _ => false

def Unnamed (file : LoadedFile) (handle : ℕ) : Prop :=
  ∀ content : Section, file.objects[handle]? = some content → content.name ∈ unnamedSections

theorem heldId_of_unnamed (hname : content.name ∈ unnamedSections) :
    (∀ index, heldId content index = none) ∧ visitedCount content = 0 := by
  cases content with
  | mrgn => simp [unnamedSections, Section.name] at hname
  | struct inner =>
      have hostr : inner.name = .ostr := by
        simpa [unnamedSections, Section.name] using hname
      simp [heldId, visitedCount, hostr, nameFields]
  | _ => exact ⟨fun _ => rfl, rfl⟩

/-- A section is visited: its names move, no other section loses one. -/
structure Visits (editor : EditorStrings) (ostr handle : ℕ)
    (name : SectionName) (file later : LoadedFile) : Prop where
  others : ∀ other, other ≠ handle → ∀ index, later.heldAt other index = file.heldAt other index
  held : ∀ index, later.heldAt handle index =
    if index < file.visitedAt handle then
      (file.heldAt handle index).map editor.leaves
    else file.heldAt handle index
  visited : ∀ other, later.visitedAt other = file.visitedAt other
  given : ∀ index < file.visitedAt handle, later.ostrAt ostr (ostrOffset name index) =
      editor.gives (file.heldAt handle index) (file.ostrAt ostr (ostrOffset name index))
  rest : ∀ offset, 4 ∣ offset → (∀ index < file.visitedAt handle, offset = ostrOffset name index →
      file.heldAt handle index = none) →
    later.ostrAt ostr offset = file.ostrAt ostr offset
  inside : ∀ index < file.visitedAt handle, ∀ stringId, file.heldAt handle index = some stringId →
    editor.refersTo stringId = true → ostrOffset name index < 5944

section Pass

variable {start file later : LoadedFile} {editor : EditorStrings}
  {ostr handle : ℕ} {name : SectionName}

theorem heldAt_of_unnamed (hkept : Kept start file) (hunnamed : Unnamed start other) :
    (∀ index, file.heldAt other index = none) ∧ file.visitedAt other = 0 := by
  rw [LoadedFile.visitedAt]
  cases hcontent : file.objects[other]? with
  | none =>
      refine ⟨fun index => ?_, rfl⟩
      rw [LoadedFile.heldAt, hcontent]
      rfl
  | some content =>
      obtain ⟨old, hold, hadjusted⟩ := hkept.adjusted_at hcontent
      have hname := hunnamed old hold
      rw [← hadjusted.1] at hname
      obtain ⟨hheld, hcount⟩ := heldId_of_unnamed hname
      refine ⟨fun index => ?_, hcount⟩
      rw [LoadedFile.heldAt, hcontent]
      exact hheld index

/-- What is behind the pointer of a section without names. -/
theorem unnamed_of_pointer (hclassed : Classed start) {name : SectionName}
    (hname : name ∈ unnamedSections)
    (hpointer : start.pointer name = some other) : Unnamed start other := by
  intro content hcontent
  have hproper : SectionName.ofCode name.code = name := by
    simp only [unnamedSections, List.mem_cons, List.not_mem_nil, or_false] at hname
    rcases hname with rfl | rfl | rfl | rfl | rfl | rfl <;> decide
  rw [hclassed.at hproper hpointer hcontent]
  exact hname

/-- A visit to a section without names that changes only such sections. -/
theorem Visits.of_unnamed (hkept : Kept start file) (hlater : Kept start later)
    (hhandle : Unnamed start handle)
    (hchanged : ∀ other, later.objects[other]? = file.objects[other]? ∨ Unnamed start other)
    (hostr : later.objects[ostr]? = file.objects[ostr]?) :
    Visits editor ostr handle name file later := by
  obtain ⟨hnone, hzero⟩ := heldAt_of_unnamed hkept hhandle
  have hsame : ∀ other, (∀ index, later.heldAt other index = file.heldAt other index) ∧
        later.visitedAt other = file.visitedAt other := by
    intro other
    rcases hchanged other with heq | hunnamed
    · simp only [LoadedFile.heldAt, LoadedFile.visitedAt, heq, implies_true, and_self]
    · obtain ⟨hbefore, hcount⟩ := heldAt_of_unnamed hkept hunnamed
      obtain ⟨hafter, hcount'⟩ := heldAt_of_unnamed hlater hunnamed
      simp only [hbefore, hafter, hcount, hcount', implies_true, and_self]
  have hwords : ∀ offset, later.ostrAt ostr offset = file.ostrAt ostr offset := by
    intro offset
    rw [LoadedFile.ostrAt, hostr, LoadedFile.ostrAt]
  refine ⟨fun other _ => (hsame other).1, fun index => ?_,
    fun other => (hsame other).2, fun index hindex => ?_,
    fun offset _ _ => hwords offset, fun index hindex => ?_⟩
  · rw [(hsame handle).1, hzero, if_neg (Nat.not_lt_zero index)]
  · rw [hzero] at hindex
    exact absurd hindex (Nat.not_lt_zero index)
  · rw [hzero] at hindex
    exact absurd hindex (Nat.not_lt_zero index)

variable (hkept : Kept start file) (hclassed : Classed start)
  (hpointer : start.pointer (.struct .ostr) = some ostr)

include hkept hclassed hpointer

theorem MovesAll.visits (hlater : Kept start later)
    (hmoves : MovesAll editor ostr handle name (file.visitedAt handle) file
      later) : Visits editor ostr handle name file later := by
  have hunnamed := unnamed_of_pointer hclassed (by simp [unnamedSections]) hpointer
  obtain ⟨hbefore, hcount⟩ := heldAt_of_unnamed hkept hunnamed
  obtain ⟨hafter, hcount'⟩ := heldAt_of_unnamed hlater hunnamed
  refine ⟨fun other hne index => ?_, hmoves.held, fun other => ?_,
    hmoves.given, hmoves.rest, hmoves.inside⟩
  · by_cases hostr : other = ostr
    · rw [hostr, hbefore, hafter]
    · rw [LoadedFile.heldAt, hmoves.objects other hne hostr, LoadedFile.heldAt]
  · by_cases hhandle : other = handle
    · rw [hhandle, hmoves.visited]
    · by_cases hostr : other = ostr
      · rw [hostr, hcount, hcount']
      · rw [LoadedFile.visitedAt, hmoves.objects other hhandle hostr, LoadedFile.visitedAt]

theorem visits_setTriggers {triggers : List Trigger}
    {entries : List (Option ExtendedTrigData)}
    (hlater : Kept start (file.setTriggers triggers entries))
    (hhandle : Unnamed start handle) :
    Visits editor ostr handle name file (file.setTriggers triggers entries) := by
  unfold LoadedFile.setTriggers at hlater ⊢
  split
  · rename_i trig ktrg htrig hktrg
    simp only [htrig, hktrg] at hlater
    rw [hkept.pointer_eq] at htrig hktrg
    have hsame : ∀ other, other ≠ trig → other ≠ ktrg →
        ((file.setObject trig (.trig triggers)).setObject ktrg
          (.ktrg ⟨entries⟩)).objects[other]? = file.objects[other]? := by
      intro other hother hother'
      rw [LoadedFile.setObject, List.getElem?_set_ne hother'.symm,
        LoadedFile.setObject, List.getElem?_set_ne hother.symm]
    refine Visits.of_unnamed hkept hlater hhandle (fun other => ?_) ?_
    · by_cases hother : other = trig ∨ other = ktrg
      · right
        rcases hother with rfl | rfl
        · exact unnamed_of_pointer hclassed (by simp [unnamedSections]) htrig
        · exact unnamed_of_pointer hclassed (by simp [unnamedSections]) hktrg
      · left
        rw [not_or] at hother
        exact hsame other hother.1 hother.2
    · have hne : ∀ other, SectionName.ofCode other.code = other → SectionName.struct .ostr ≠ other →
          ∀ handle, start.pointer other = some handle → ostr ≠ handle := by
        rintro other hproper hother handle hhandle rfl
        exact pointer_ne_of_classed hclassed (by decide) hproper hother hhandle hpointer
      exact hsame ostr (hne .trig (by decide) (by decide) trig htrig)
        (hne .ktrg (by decide) (by decide) ktrg hktrg)
  · exact Visits.of_unnamed hkept hkept hhandle (fun _ => .inl rfl) rfl

section

variable (hhandle : handle ∈ start.allSections) (hcontent : file.objects[handle]? = some content)

include hhandle hcontent

theorem upgradeSection_movesAll (hnames : mayName content = true)
    (hupgrade : upgradeSection editor file handle = .ok later) :
    MovesAll editor ostr handle content.name (visitedCount content) file
      later := by
  unfold Scenario.upgradeSection at hupgrade
  cases content with
  | mrgn locations =>
      simp only [hcontent] at hupgrade
      refine (MovesAll.of_range ?_ hkept hupgrade).2
      intro state index next hstate hindex hstep
      refine ⟨hstate.upgradeLocation hclassed hhandle hstep, ?_⟩
      obtain ⟨current, hcurrent, hadjusted⟩ := hkept.exists_between hstate hcontent
      obtain ⟨now, rfl⟩ := mrgn_of_name hadjusted.1
      exact upgradeLocation_moves hstate hclassed hpointer hcurrent hstep
  | struct inner =>
      simp only [hcontent] at hupgrade
      cases hfields : nameFields inner.name with
      | none =>
          rw [hfields] at hupgrade
          cases hupgrade
          rw [visitedCount, hfields]
          exact MovesAll.zero
      | some fields =>
          rw [hfields] at hupgrade
          rw [visitedCount, hfields]
          refine (MovesAll.of_range ?_ hkept hupgrade).2
          intro state index next hstate hindex hstep
          obtain ⟨current, hcurrent, hadjusted⟩ := hkept.exists_between hstate hcontent
          obtain ⟨now, rfl, hname⟩ := struct_of_name hadjusted.1
          rw [← hname] at hfields
          constructor
          · refine hstate.upgradeName hclassed hhandle ?_ hstep
            intro other hother
            rw [hcurrent] at hother
            cases hother
            exact hfields
          · have hmoves := upgradeName_moves hstate hclassed hpointer hcurrent hfields hindex hstep
            rwa [hname] at hmoves
  | _ => cases hnames

theorem upgradeSection_visits (hupgrade : upgradeSection editor file handle = .ok later) :
    Kept start later ∧ Visits editor ostr handle content.name file later := by
  have hlater := hkept.upgradeSection hclassed hhandle hupgrade
  refine ⟨hlater, ?_⟩
  have hat : file.visitedAt handle = visitedCount content := by
    rw [LoadedFile.visitedAt, hcontent]
    rfl
  by_cases hnames : mayName content = true
  · apply MovesAll.visits hkept hclassed hpointer hlater
    rw [hat]
    exact upgradeSection_movesAll hkept hclassed hpointer hhandle hcontent hnames hupgrade
  have hunnamed : content.name ∈ unnamedSections → Unnamed start handle := by
    intro hname old hold
    obtain ⟨new, hnew, hadjusted⟩ := hkept.exists_later hold
    rw [hcontent] at hnew
    cases hnew
    rw [← hadjusted.1]
    exact hname
  unfold Scenario.upgradeSection at hupgrade
  cases content with
  | mrgn | struct => exact absurd rfl hnames
  | trig triggers =>
      simp only [hcontent] at hupgrade
      obtain ⟨⟨upgraded, entries⟩, -, hresult⟩ := Fault.bind_eq_ok_iff.mp hupgrade
      cases hresult
      exact visits_setTriggers hkept hclassed hpointer hlater
        (hunnamed (by simp [unnamedSections, Section.name]))
  | mbrf triggers =>
      simp only [hcontent] at hupgrade
      cases hupgrade
      have hmbrf := hunnamed (by simp [unnamedSections, Section.name])
      have hsame : ∀ other, other ≠ handle → (file.setObject handle
          (.mbrf (triggers.map (upgradeBriefingTrigger editor)))).objects[
            other]? = file.objects[other]? := by
        intro other hne
        rw [LoadedFile.setObject, List.getElem?_set_ne hne.symm]
      refine Visits.of_unnamed hkept hlater hmbrf (fun other => ?_) ?_
      · by_cases hother : other = handle
        · rw [hother]
          exact .inr hmbrf
        · exact .inl (hsame other hother)
      · apply hsame
        rintro rfl
        have hbehind : file.pointer (.struct .ostr) = some ostr := by
          rw [hkept.pointer_eq, hpointer]
        have hname := (hkept.classed hclassed).at (by decide) hbehind hcontent
        cases hname
  | _ =>
      simp only [hcontent] at hupgrade
      cases hupgrade
      apply MovesAll.visits hkept hclassed hpointer hkept
      rw [hat]
      exact MovesAll.zero

/-- The string tables are no part of the loop, and only a TRIG section changes
the triggers and their extended data. -/
theorem upgradeSection_object {old : Section} (hold : file.objects[other]? = some old)
    (hother : old.name = .str ∨ old.name = .kstr ∨
      content.name ≠ .trig ∧ (old.name = .trig ∨ old.name = .ktrg))
    (hupgrade : upgradeSection editor file handle = .ok later) :
    later.objects[other]? = some old := by
  have hfile := hkept.classed hclassed
  have hne : old.name ≠ content.name → other ≠ handle := by
    rintro hname rfl
    rw [hcontent] at hold
    cases hold
    exact hname rfl
  have hat : ∀ {name : SectionName} {pointed : ℕ},
      SectionName.ofCode name.code = name → file.pointer name = some pointed →
      old.name ≠ name → other ≠ pointed := by
    rintro name pointed hproper hpointed hname rfl
    exact hname (hfile.at hproper hpointed hold)
  have hclass : old.name ∈ [SectionName.str, .kstr, .trig, .ktrg] := by
    rcases hother with hname | hname | ⟨-, hname | hname⟩ <;> simp [hname]
  by_cases hnames : mayName content = true
  · have hmoves := upgradeSection_movesAll hkept hclassed hpointer hhandle hcontent hnames hupgrade
    have hostr : file.pointer (.struct .ostr) = some ostr := by
      rw [hkept.pointer_eq, hpointer]
    rw [hmoves.objects, hold]
    · apply hne
      intro hname
      rw [hname] at hclass
      cases content with
      | mrgn | struct => simp [Section.name] at hclass
      | _ => cases hnames
    · apply hat (by decide) hostr
      intro hname
      rw [hname] at hclass
      simp at hclass
  unfold Scenario.upgradeSection at hupgrade
  cases content with
  | mrgn | struct => exact absurd rfl hnames
  | trig triggers =>
      simp only [hcontent] at hupgrade
      obtain ⟨⟨upgraded, entries⟩, -, hresult⟩ := Fault.bind_eq_ok_iff.mp hupgrade
      cases hresult
      unfold LoadedFile.setTriggers
      split
      · rename_i trig ktrg htrig hktrg
        have hname : old.name ≠ .trig ∧ old.name ≠ .ktrg := by
          rcases hother with hname | hname | ⟨hname, -⟩
          · rw [hname]
            decide
          · rw [hname]
            decide
          · exact absurd rfl hname
        rw [LoadedFile.setObject, List.getElem?_set_ne
          (hat (by decide) hktrg hname.2).symm, LoadedFile.setObject,
          List.getElem?_set_ne (hat (by decide) htrig hname.1).symm, hold]
      · exact hold
  | mbrf triggers =>
      simp only [hcontent] at hupgrade
      cases hupgrade
      have hbriefing : old.name ≠ .mbrf := by
        intro hname
        rw [hname] at hclass
        simp at hclass
      rw [LoadedFile.setObject, List.getElem?_set_ne (hne hbriefing).symm, hold]
  | _ =>
      simp only [hcontent] at hupgrade
      cases hupgrade
      exact hold

end

end Pass

end Chkdraft.Scenario
