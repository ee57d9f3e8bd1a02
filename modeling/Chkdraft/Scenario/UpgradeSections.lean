import Chkdraft.Scenario.Completeness
import Chkdraft.Scenario.UpgradeNames

/-!
# The loop of an upgrade over the sections

Sections of one name share the words of OSTR that belong to their ids, so the
last of them decides what these words hold.  That is the one a load selects, if
the file has one; a default section is not in the list the loop goes over.
-/

namespace Chkdraft.Scenario

open Binary Chk Sections

variable {name : SectionName} {content : Section} {handle index stringId : ℕ}

theorem EditorStrings.leaves_leaves (editor : EditorStrings) (stringId : ℕ) :
    editor.leaves (editor.leaves stringId) = editor.leaves stringId := by
  have hzero : editor.leaves 0 = 0 := by simp [leaves]
  by_cases hrefers : editor.refersTo stringId = true
  · have hleaves : editor.leaves stringId = 0 := if_pos hrefers
    rw [hleaves, hzero]
  · have hleaves : editor.leaves stringId = stringId := if_neg hrefers
    rw [hleaves, hleaves]

theorem nameFields_cases {name : StructName} {fields : NameFields}
    (hfields : nameFields name = some fields) :
    name = .sprp ∧ fields = ⟨2, 0, 2, 4⟩ ∨ name = .forc ∧ fields = ⟨2, 8, 4, 12⟩ ∨
      name = .wav ∧ fields = ⟨4, 0, 512, 1852⟩ ∨
      name = .swnm ∧ fields = ⟨4, 0, 256, 3900⟩ ∨
      name = .unis ∧ fields = ⟨2, 3192, 228, 28⟩ ∨
      name = .unix ∧ fields = ⟨2, 3192, 228, 940⟩ := by
  cases name <;> cases hfields <;> simp

theorem ostrOffset_cases (hformed : WellFormed content)
    (hheld : heldId content index = some stringId) :
    (∃ name fields, content.name = .struct name ∧
      nameFields name = some fields ∧ index < fields.count ∧
      ostrOffset content.name index = fields.ostrOffset + 4 * index) ∨
    content.name = .mrgn ∧ 4924 ≤ ostrOffset content.name index := by
  cases content with
  | struct inner =>
      left
      cases hfields : nameFields inner.name with
      | none => simp [heldId, hfields] at hheld
      | some fields =>
          refine ⟨inner.name, fields, rfl, hfields, ?_, ?_⟩
          · by_contra hge
            simp [heldId, hfields, hge] at hheld
          · simp only [Section.name, ostrOffset, hfields, Option.elim_some]
  | mrgn locations =>
      right
      refine ⟨rfl, ?_⟩
      obtain ⟨rest, rfl⟩ := hformed
      cases index with
      | zero => cases hheld
      | succ index =>
          simp only [Section.name, ostrOffset]
          omega
  | _ => cases hheld

theorem ostrOffset_ne {first second : Section} (hfirst : WellFormed first)
    (hsecond : WellFormed second) (hne : first.name ≠ second.name)
    {other otherId : ℕ} (hheld : heldId first index = some stringId)
    (hother : heldId second other = some otherId) :
    ostrOffset first.name index ≠ ostrOffset second.name other := by
  rcases ostrOffset_cases hfirst hheld with
    ⟨name, fields, hname, hfields, hindex, hoffset⟩ | ⟨hname, hoffset⟩
  · rcases ostrOffset_cases hsecond hother with
      ⟨name', fields', hname', hfields', hindex', hoffset'⟩ | ⟨hname', hoffset'⟩
    · rw [hoffset, hoffset']
      rw [hname, hname'] at hne
      rcases nameFields_cases hfields with ⟨rfl, rfl⟩ | ⟨rfl, rfl⟩ | ⟨rfl, rfl⟩ |
        ⟨rfl, rfl⟩ | ⟨rfl, rfl⟩ | ⟨rfl, rfl⟩ <;>
      rcases nameFields_cases hfields' with ⟨rfl, rfl⟩ | ⟨rfl, rfl⟩ |
        ⟨rfl, rfl⟩ | ⟨rfl, rfl⟩ | ⟨rfl, rfl⟩ | ⟨rfl, rfl⟩ <;>
      first
      | exact absurd rfl hne
      | (simp only at hindex hindex' ⊢; omega)
    · obtain ⟨-, hfit, -, -⟩ := nameFields_fit hfields
      omega
  · rcases ostrOffset_cases hsecond hother with
      ⟨name', fields', hname', hfields', hindex', hoffset'⟩ | ⟨hname', -⟩
    · obtain ⟨-, hfit, -, -⟩ := nameFields_fit hfields'
      omega
    · exact absurd (hname.trans hname'.symm) hne

section Loop

variable {start file later : LoadedFile} {editor : EditorStrings} {ostr : ℕ}
  {handles : List ℕ} (hkept : Kept start file) (hclassed : Classed start)
  (hpointer : start.pointer (.struct .ostr) = some ostr)
  (hhandles : ∀ handle ∈ handles, handle ∈ start.allSections)
  (hthere : ∀ handle ∈ handles, ∃ content, start.objects[handle]? = some content)
  (hrun : handles.foldlM (upgradeSection editor) file = .ok later)

include hkept hclassed hpointer hhandles hthere hrun

/-- The ids of the sections the loop goes over are moved, those of other sections
and those it leaves out stay. -/
theorem foldlM_upgradeSection_held : Kept start later ∧
      ∀ handle, later.visitedAt handle = file.visitedAt handle ∧
        ∀ index, later.heldAt handle index =
          if handle ∈ handles ∧ index < file.visitedAt handle then
            (file.heldAt handle index).map editor.leaves
          else file.heldAt handle index := by
  induction handles generalizing file with
  | nil =>
      cases hrun
      refine ⟨hkept, fun handle => ⟨rfl, fun index => ?_⟩⟩
      rw [if_neg fun h => List.not_mem_nil h.1]
  | cons first rest ih =>
      rw [List.foldlM_cons, Fault.bind_eq_ok_iff] at hrun
      obtain ⟨middle, hfirst, hrest⟩ := hrun
      obtain ⟨old, hold⟩ := hthere first List.mem_cons_self
      obtain ⟨content, hcontent, -⟩ := hkept.exists_later hold
      obtain ⟨hmiddle, hvisits⟩ := upgradeSection_visits hkept hclassed hpointer
        (hhandles first List.mem_cons_self) hcontent hfirst
      obtain ⟨hlater, hheld⟩ := ih hmiddle
        (fun handle hmem => hhandles handle (List.mem_cons_of_mem first hmem))
        (fun handle hmem => hthere handle (List.mem_cons_of_mem first hmem))
        hrest
      refine ⟨hlater, fun handle => ⟨?_, fun index => ?_⟩⟩
      · rw [(hheld handle).1, hvisits.visited]
      · rw [(hheld handle).2, hvisits.visited]
        by_cases hsame : handle = first
        · -- A section that comes again has nothing left to move.
          rw [hsame, hvisits.held]
          by_cases hindex : index < file.visitedAt first
          · simp only [hindex, and_true, if_true, List.mem_cons_self]
            split
            · rw [Option.map_map]
              congr 1
              exact funext editor.leaves_leaves
            · rfl
          · simp only [hindex, and_false, if_false]
        · rw [hvisits.others handle hsame]
          simp only [List.mem_cons, hsame, false_or]

/-- A word of OSTR stays as long as no section of its name comes. -/
theorem foldlM_upgradeSection_ostr (hformed : WellFormed content)
    (hheld : heldId content index = some stringId)
    (hnames : ∀ handle ∈ handles, ∀ other,
      start.objects[handle]? = some other → other.name ≠ content.name) :
    later.ostrAt ostr (ostrOffset content.name index) =
      file.ostrAt ostr (ostrOffset content.name index) := by
  induction handles generalizing file with
  | nil =>
      cases hrun
      rfl
  | cons first rest ih =>
      rw [List.foldlM_cons, Fault.bind_eq_ok_iff] at hrun
      obtain ⟨middle, hfirst, hrest⟩ := hrun
      obtain ⟨old, hold⟩ := hthere first List.mem_cons_self
      obtain ⟨other, hother, hadjusted⟩ := hkept.exists_later hold
      obtain ⟨hmiddle, hvisits⟩ := upgradeSection_visits hkept hclassed hpointer
        (hhandles first List.mem_cons_self) hother hfirst
      have hstep : middle.ostrAt ostr (ostrOffset content.name index) =
          file.ostrAt ostr (ostrOffset content.name index) := by
        apply hvisits.rest _ (dvd_ostrOffset _ _)
        intro position _ heq
        by_contra hsome
        obtain ⟨otherId, hid⟩ := Option.ne_none_iff_exists'.mp hsome
        rw [LoadedFile.heldAt, hother, Option.bind_some] at hid
        have hname : content.name ≠ other.name := by
          rw [hadjusted.1]
          exact (hnames first List.mem_cons_self old hold).symm
        exact ostrOffset_ne hformed
          (hkept.wellFormed other (List.mem_of_getElem? hother)) hname hheld hid
          heq
      rw [← hstep]
      exact ih hmiddle (fun handle hmem => hhandles handle (List.mem_cons_of_mem first hmem))
        (fun handle hmem => hthere handle (List.mem_cons_of_mem first hmem))
        hrest
        (fun handle hmem => hnames handle (List.mem_cons_of_mem first hmem))

/-- The word of an id holds the editor string it stood for, if its section is
the last of its name. -/
theorem foldlM_upgradeSection_given {front rest : List ℕ}
    (hsplit : handles = front ++ handle :: rest) (hfront : handle ∉ front)
    (hcontent : file.objects[handle]? = some content)
    (hheld : heldId content index = some stringId)
    (hindex : index < file.visitedAt handle)
    (hrefers : editor.refersTo stringId = true)
    (hnames : ∀ other ∈ rest, ∀ old, start.objects[other]? = some old → old.name ≠ content.name) :
    later.ostrAt ostr (ostrOffset content.name index) = some (65536 - stringId) ∧
      ostrOffset content.name index < 5944 := by
  subst hsplit
  rw [List.foldlM_append, Fault.bind_eq_ok_iff] at hrun
  obtain ⟨before, hbefore, hrun⟩ := hrun
  rw [List.foldlM_cons, Fault.bind_eq_ok_iff] at hrun
  obtain ⟨behind, hvisit, hrest⟩ := hrun
  have hin : handle ∈ front ++ handle :: rest := List.mem_append_right front List.mem_cons_self
  obtain ⟨hkeptBefore, hsame⟩ := foldlM_upgradeSection_held hkept hclassed
    hpointer (fun other hmem => hhandles other (List.mem_append_left _ hmem))
    (fun other hmem => hthere other (List.mem_append_left _ hmem)) hbefore
  obtain ⟨current, hcurrent, hadjusted⟩ := hkept.exists_between hkeptBefore hcontent
  obtain ⟨hkeptBehind, hvisits⟩ := upgradeSection_visits hkeptBefore hclassed
    hpointer (hhandles handle hin) hcurrent hvisit
  have hat : before.heldAt handle index = some stringId := by
    rw [(hsame handle).2, if_neg fun h => hfront h.1, LoadedFile.heldAt, hcontent]
    exact hheld
  have hgiven : behind.ostrAt ostr (ostrOffset content.name index) = some (65536 - stringId) := by
    rw [← hadjusted.1, hvisits.given index (by rwa [(hsame handle).1]), hat,
      EditorStrings.gives, Option.elim_some, if_pos hrefers]
  have htail : ∀ other ∈ rest, other ∈ front ++ handle :: rest :=
    fun other hmem => List.mem_append_right front (List.mem_cons_of_mem handle hmem)
  constructor
  · rw [← hgiven]
    exact foldlM_upgradeSection_ostr hkeptBehind hclassed hpointer
      (fun other hmem => hhandles other (htail other hmem))
      (fun other hmem => hthere other (htail other hmem)) hrest
      (hkept.wellFormed content (List.mem_of_getElem? hcontent)) hheld hnames
  · rw [← hadjusted.1]
    exact hvisits.inside index (by rwa [(hsame handle).1]) stringId hat hrefers

end Loop

theorem lt_of_mem_numberNames {codes : List UInt32} {entry : UInt32 × ℕ}
    (hentry : entry ∈ (numberNames codes).1) :
    entry.2 < (numberNames codes).2 := by
  induction codes using List.reverseRecOn generalizing entry with
  | nil => cases hentry
  | append_singleton codes code ih =>
      rw [numberNames_append] at hentry ⊢
      unfold numberNext at hentry ⊢
      cases hexisting : existingIn (numberNames codes).1 code with
      | some handle =>
          simp only [hexisting, List.mem_append, List.mem_singleton] at hentry ⊢
          rcases hentry with hbefore | rfl
          · exact ih hbefore
          · unfold existingIn at hexisting
            split at hexisting
            · cases hexisting
            · obtain ⟨found, hfound, rfl⟩ := Option.map_eq_some_iff.mp hexisting
              have hlt := ih (List.mem_of_find?_eq_some hfound)
              exact hlt
      | none =>
          simp only [hexisting, List.mem_append, List.mem_singleton] at hentry ⊢
          rcases hentry with hbefore | rfl
          · exact (ih hbefore).trans (Nat.lt_succ_self _)
          · exact Nat.lt_succ_self _

/-- Where a section of a name that neither appends nor overrides stands: no
other section is the same object, and none behind it has its name. -/
theorem Consistent.exists_split {state : LoadState} (hconsistent : Consistent state)
    (hbehavior : name.loadBehavior = .standard)
    (hproper : SectionName.ofCode name.code = name)
    (hselected : state.selected name = some handle) :
    ∃ front rest, state.allSections = front ++ handle :: rest ∧ handle ∉ front ∧
      ∀ other ∈ rest, ∀ content, state.objects[other]? = some content → content.name ≠ name := by
  rw [LoadState.selected, if_pos hbehavior] at hselected
  obtain ⟨entry, hlast, rfl⟩ := Option.map_eq_some_iff.mp hselected
  obtain ⟨earlier, hfilter⟩ := List.getLast?_eq_some_iff.mp hlast
  obtain ⟨before, behind, hparsed, -, hbehind⟩ := List.filter_eq_append_iff.mp hfilter
  obtain ⟨between, after, rfl, -, hcode, hafter⟩ := List.filter_eq_cons_iff.mp hbehind
  have hentry : entry.1 = name.code := of_decide_eq_true hcode
  rw [← List.append_assoc] at hparsed
  have hnumbered := hconsistent.numbered
  rw [hparsed] at hnumbered
  have hfirst := congrArg Prod.fst hnumbered.symm
  -- The section got the next number, which no section before it has.
  have hnext : entry.2 = (numberNames ((before ++ between).map Prod.fst)).2 := by
    rcases existingIn_of_numberNames hfirst (Prod.ext (fst_numberNames_of_append hfirst) rfl) with
        hexisting | ⟨-, hcount⟩
    · rw [existingIn, hentry, hproper, if_pos hbehavior] at hexisting
      cases hexisting
    · exact hcount
  refine ⟨(before ++ between).map Prod.snd, after.map Prod.snd, ?_, ?_, ?_⟩
  · rw [hconsistent.allSections_eq, hparsed, List.map_append, List.map_cons]
  · intro hmem
    obtain ⟨other, hother, hsame⟩ := List.mem_map.mp hmem
    rw [← fst_numberNames_of_append hfirst] at hother
    have hlt := lt_of_mem_numberNames hother
    omega
  · intro other hmem content hcontent heq
    obtain ⟨following, hfollowing, rfl⟩ := List.mem_map.mp hmem
    have hparsedToo : following ∈ state.parsedSections := by
      rw [hparsed]
      exact List.mem_append_right _ (List.mem_cons_of_mem entry hfollowing)
    obtain ⟨object, hobject, hname⟩ := hconsistent.namesMatch following hparsedToo
    rw [hcontent] at hobject
    cases hobject
    rw [heq] at hname
    have hsameCode : following.1 = name.code := by
      rw [hname, SectionName.code_ofCode]
    exact List.filter_eq_nil_iff.mp hafter following hfollowing (decide_eq_true hsameCode)

/-- The sections whose ids the upgrade moves to OSTR. -/
def namedSections : List SectionName :=
  [.struct .sprp, .struct .forc, .struct .wav, .struct .swnm, .struct .unis, .struct .unix, .mrgn]

theorem proper_of_namedSections (hname : name ∈ namedSections) :
    SectionName.ofCode name.code = name ∧ name.loadBehavior = .standard := by
  revert name
  decide

namespace Selects

variable {state : LoadState} {selected file upgraded : LoadedFile}

theorem exists_object (hselects : Selects state selected) :
    ∀ handle ∈ selected.allSections, ∃ content, selected.objects[handle]? = some content := by
  intro handle hmem
  rw [hselects.defaulted.allSections_eq] at hmem
  change handle ∈ state.allSections at hmem
  rw [hselects.consistent.allSections_eq] at hmem
  obtain ⟨entry, hentry, rfl⟩ := List.mem_map.mp hmem
  obtain ⟨content, hcontent, -⟩ := hselects.consistent.namesMatch entry hentry
  have hlt := (List.getElem?_eq_some_iff.mp hcontent).1
  refine ⟨content, ?_⟩
  rw [hselects.defaulted.objects_eq entry.2 hlt]
  exact hcontent

/-- A section in the list that a pointer leads to was in the file. -/
theorem selected_of_mem (hselects : Selects state selected)
    (hpointer : selected.pointer name = some handle)
    (hmem : handle ∈ selected.allSections) :
    state.selected name = some handle := by
  cases hparsed : state.selected name with
  | some other =>
      rw [hselects.defaulted.pointer_some name other hparsed] at hpointer
      exact hpointer
  | none =>
      have hle := hselects.defaulted.pointer_none name handle hparsed hpointer
      rw [hselects.defaulted.allSections_eq] at hmem
      change handle ∈ state.allSections at hmem
      rw [hselects.consistent.allSections_eq] at hmem
      obtain ⟨entry, hentry, rfl⟩ := List.mem_map.mp hmem
      obtain ⟨content, hcontent, -⟩ := hselects.consistent.namesMatch entry hentry
      have hlt := (List.getElem?_eq_some_iff.mp hcontent).1
      exact absurd hlt (not_lt.mpr hle)

theorem exists_split (hselects : Selects state selected) (hname : name ∈ namedSections)
    (hpointer : selected.pointer name = some handle)
    (hmem : handle ∈ selected.allSections) :
    ∃ front rest, selected.allSections = front ++ handle :: rest ∧ handle ∉ front ∧
      ∀ other ∈ rest, ∀ content, selected.objects[other]? = some content → content.name ≠ name := by
  obtain ⟨hproper, hbehavior⟩ := proper_of_namedSections hname
  obtain ⟨front, rest, hsplit, hfront, hrest⟩ :=
    hselects.consistent.exists_split hbehavior hproper (hselects.selected_of_mem hpointer hmem)
  refine ⟨front, rest, ?_, hfront, ?_⟩
  · rw [hselects.defaulted.allSections_eq]
    exact hsplit
  · intro other hother content hcontent
    have hin : other ∈ state.allSections := by
      rw [hsplit]
      exact List.mem_append_right _ (List.mem_cons_of_mem _ hother)
    rw [hselects.consistent.allSections_eq] at hin
    obtain ⟨entry, hentry, rfl⟩ := List.mem_map.mp hin
    obtain ⟨object, hobject, -⟩ := hselects.consistent.namesMatch entry hentry
    have hlt := (List.getElem?_eq_some_iff.mp hobject).1
    rw [hselects.defaulted.objects_eq entry.2 hlt] at hcontent
    exact hrest entry.2 hother content hcontent

variable (hselects : Selects state selected) (hkept : Kept selected file)
  {ostr : ℕ} (hostr : selected.pointer (.struct .ostr) = some ostr)
  (hrun : file.upgradeSections = .ok upgraded)

include hselects hkept hostr hrun

theorem upgradeSections_held : Kept selected upgraded ∧
      ∀ handle index, upgraded.heldAt handle index =
        if handle ∈ selected.allSections ∧ index < file.visitedAt handle then
          (file.heldAt handle index).map (EditorStrings.leaves
            ⟨file.strStrings.length, file.kstrTable.strings⟩)
        else file.heldAt handle index := by
  rw [LoadedFile.upgradeSections, hkept.allSections_eq] at hrun
  obtain ⟨hlater, hheld⟩ := foldlM_upgradeSection_held hkept hselects.classed
    hostr (fun _ hmem => hmem) hselects.exists_object hrun
  exact ⟨hlater, fun handle => (hheld handle).2⟩

theorem upgradeSections_given (hname : name ∈ namedSections)
    (hpointer : selected.pointer name = some handle)
    (hmem : handle ∈ selected.allSections)
    (hindex : index < file.visitedAt handle)
    (hheld : file.heldAt handle index = some stringId)
    (hrefers : EditorStrings.refersTo
      ⟨file.strStrings.length, file.kstrTable.strings⟩ stringId = true) :
    upgraded.ostrAt ostr (ostrOffset name index) = some (65536 - stringId) ∧
      ostrOffset name index < 5944 := by
  obtain ⟨front, rest, hsplit, hfront, hrest⟩ := hselects.exists_split hname hpointer hmem
  obtain ⟨content, hcontent, hid⟩ := Option.bind_eq_some_iff.mp hheld
  have hproper := (proper_of_namedSections hname).1
  have hclass : content.name = name :=
    (hkept.classed hselects.classed).at hproper (by rw [hkept.pointer_eq, hpointer]) hcontent
  rw [LoadedFile.upgradeSections, hkept.allSections_eq] at hrun
  rw [← hclass] at hrest ⊢
  exact foldlM_upgradeSection_given hkept hselects.classed hostr
    (fun _ hmem => hmem) hselects.exists_object hrun hsplit hfront hcontent hid
    hindex hrefers hrest

end Selects

end Chkdraft.Scenario
