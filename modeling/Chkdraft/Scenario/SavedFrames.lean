import Chkdraft.Scenario.Selection

/-!
# Reading saved frames

A saved scenario is the frames of its sections in the order they were parsed
in.  The loop takes them one by one: the objects get the numbers they had in the
first load, and each holds what its body becomes when it is read as often as the
section was saved.  A KTRG section at the end is read into the end of the file.
-/

namespace Chkdraft.Scenario

open Binary Chk Sections

variable {bytes frames : List UInt8} {size sizeRead : ℕ} {outcome : ReadOutcome Section}

variable {content new old : Section} {body frame written : List UInt8}
  {state : LoadState} {code : UInt32} {handle other : ℕ}
  {front : List (UInt32 × ℕ)} {file : LoadedFile}

theorem writeSections_cons_eq_ok {rest : List Section}
    (hwrite : writeSections (content :: rest) = .ok bytes) :
    ∃ frame frames, content.writeWithHeader = .ok frame ∧
      writeSections rest = .ok frames ∧ bytes = frame ++ frames := by
  rw [writeSections, Fault.bind_eq_ok_iff] at hwrite
  obtain ⟨frame, hframe, hrest⟩ := hwrite
  obtain ⟨frames, hframes, hbytes⟩ := Fault.bind_eq_ok_iff.mp hrest
  exact ⟨frame, frames, hframe, hframes, (Except.ok.inj hbytes).symm⟩

theorem eight_le_length_of_writeWithHeader
    (hwrite : content.writeWithHeader = .ok frame) : 8 ≤ frame.length := by
  unfold Section.writeWithHeader at hwrite
  split at hwrite
  · cases hwrite
  · split at hwrite
    · cases hwrite
    · rw [← Except.ok.inj hwrite]
      simp only [List.length_append, length_littleEndian]
      omega

/-- Sections framed as they are read: every size field is the length of the
body, and only the last section may be KTRG, whose reader runs into the end of
the file. -/
def Framed : List Section → Prop
  | [] => True
  | content :: rest =>
      content.AnnouncesBody ∧ (content.name = .ktrg → rest = []) ∧ Framed rest

theorem Framed.announces {sections : List Section} (hframed : Framed sections) :
    ∀ content ∈ sections, content.AnnouncesBody := by
  induction sections with
  | nil => exact fun content hmem => absurd hmem List.not_mem_nil
  | cons content rest ih =>
      intro other hmem
      rcases List.mem_cons.mp hmem with rfl | hrest
      · exact hframed.1
      · exact ih hframed.2.2 other hrest

/-- The frame of a section whose size field is the length of its body. -/
theorem frame_of_announces (hannounces : content.AnnouncesBody)
    (hwrite : content.writeWithHeader = .ok frame) :
    ∃ body, content.write = .ok body ∧ frame.drop 8 = body ∧
      SectionHeader.decode frame = ⟨content.name.code, body.length⟩ := by
  obtain ⟨size, body, hsize, hbody, hdrop, hheader⟩ := Section.writeWithHeader_eq_ok hwrite
  have heq := (Section.getSize_eq_length_write_iff hsize hbody).mpr hannounces
  rw [heq] at hheader
  exact ⟨body, hbody, hdrop, hheader⟩

theorem name_ne_ktgp_of_announces (hannounces : content.AnnouncesBody) : content.name ≠ .ktgp := by
  intro hname
  cases content with
  | ktgp table => exact hannounces
  | _ => cases hname

/-- What an object has become when the sections `front` were read back. -/
def RereadObject (file : LoadedFile) (front : List (UInt32 × ℕ))
    (state : LoadState) (handle : ℕ) : Prop :=
  ∃ old body new, file.objects[handle]? = some old ∧ old.name ≠ .ktrg ∧
    old.write = .ok body ∧ state.objects[handle]? = some new ∧
    0 < (front.map Prod.snd).count handle ∧
    Reread ((front.map Prod.snd).count handle) old body new

/-- The loop stands behind the frames of `front`. -/
structure Resumed (file : LoadedFile) (written : List UInt8)
    (front : List (UInt32 × ℕ)) (state : LoadState) : Prop where
  atHeader : AtHeader written state
  consistent : Consistent state
  parsedSections_eq : state.parsedSections = front
  memorySafe_eq : state.memorySafe = true
  tailData_eq : state.tailData = List.replicate 7 0
  tailLength_eq : state.tailLength = 0
  rereadObject : ∀ handle, handle < state.objects.length → RereadObject file front state handle

/-- A pass over the header of a regular section whose body is taken. -/
theorem sectionPass_of_takesBody {overrideOrAppend : Bool}
    (hat : AtHeader written state) (hheader : state.chk.position + 8 ≤ written.length)
    (hdecode : SectionHeader.decode (written.drop state.chk.position) = ⟨code, body.length⟩)
    (hbody : written.drop (state.chk.position + 8) = body ++ frames)
    (hread : state.readSection code body.length (streamAt written (state.chk.position + 8)) =
      (handle, old.read body.length overrideOrAppend (streamAt written (state.chk.position + 8))))
    (htakes : TakesBody body (old.read body.length overrideOrAppend) new) :
    sectionPass state = .next (state.addSection code body.length handle
      ⟨streamAt written (state.chk.position + 8 + body.length),
        .ok (new, body.length), true⟩ new body.length) := by
  rw [sectionPass_of_header hat hheader]
  simp only [hdecode, Int.natCast_nonneg, if_true, Int.toNat_natCast]
  rw [LoadState.regularSection, hread, htakes written _ frames hbody]
  simp only [good_streamAt, Bool.true_or, if_true]
  exact if_pos (good_streamAt _ _)

theorem getElem?_addSection (hhandle : handle ≤ state.objects.length)
    (code : UInt32) (size sizeRead : ℕ) (outcome : ReadOutcome Section)
    (content : Section) (other : ℕ) :
    (state.addSection code size handle outcome content sizeRead).objects[other]? =
      if other = handle then some content else state.objects[other]? := by
  unfold LoadState.addSection
  simp only
  split
  · rename_i hlt
    rw [List.getElem?_set]
    by_cases heq : other = handle
    · simp [heq, hlt]
    · rw [if_neg (Ne.symm heq), if_neg heq]
  · have hend : handle = state.objects.length := by omega
    by_cases heq : other = handle
    · rw [if_pos heq, heq, hend]
      exact List.getElem?_concat_length
    · rw [if_neg heq, List.getElem?_append]
      split
      · rfl
      · rename_i hge
        rw [List.getElem?_singleton, if_neg (by omega), List.getElem?_eq_none (by omega)]

theorem count_concat_of_ne (hne : handle ≠ other) :
    ((front ++ [(code, handle)]).map Prod.snd).count other = (front.map Prod.snd).count other := by
  rw [List.map_append, List.count_append, List.map_singleton, List.count_singleton]
  simp [hne]

section

variable (hbefore : ∀ other, other < state.objects.length → RereadObject file front state other)
  (hhandle : handle ≤ state.objects.length)

include hbefore hhandle

theorem rereadObject_of_ne (hlt : other < (state.addSection code size handle outcome new
      sizeRead).objects.length) (hne : handle ≠ other) :
    RereadObject file (front ++ [(code, handle)])
      (state.addSection code size handle outcome new sizeRead) other := by
  have hobject := getElem?_addSection hhandle code size sizeRead outcome new other
  unfold RereadObject
  rw [count_concat_of_ne hne, hobject, if_neg (Ne.symm hne)]
  apply hbefore
  rw [if_neg (Ne.symm hne), List.getElem?_eq_getElem hlt] at hobject
  exact (List.getElem?_eq_some_iff.mp hobject.symm).1

theorem rereadObject_addSection (hold : file.objects[handle]? = some old)
    (hktrg : old.name ≠ .ktrg) (hbody : old.write = .ok body)
    (hreread : Reread ((front.map Prod.snd).count handle + 1) old body new)
    (hlt : other < (state.addSection code size handle outcome new sizeRead).objects.length) :
    RereadObject file (front ++ [(code, handle)])
      (state.addSection code size handle outcome new sizeRead) other := by
  by_cases heq : handle = other
  · subst heq
    have hcount : ((front ++ [(code, handle)]).map Prod.snd).count handle =
        (front.map Prod.snd).count handle + 1 := by
      simp
    refine ⟨old, body, new, hold, hktrg, hbody, ?_, ?_, hcount ▸ hreread⟩
    · rw [getElem?_addSection hhandle, if_pos rfl]
    · rw [hcount]
      exact Nat.succ_pos _
  · exact rereadObject_of_ne hbefore hhandle hlt heq

end

/-- The object a saved section is read into again is the one it was saved
from: one that exists, or a new one. -/
theorem Resumed.exists_source {fresh : Section} (hresumed : Resumed file written front state)
    (hold : file.objects[handle]? = some old) (hbody : old.write = .ok body)
    (hname : old.name = .ofCode code) (hreload : Reload old body fresh)
    (hnumber : existingIn front code = some handle ∨
      existingIn front code = none ∧ handle = state.objects.length)
    (chk : InputStream) :
    ∃ (source new : Section) (overrideOrAppend : Bool), state.readSection code body.length chk =
        (handle, source.read body.length overrideOrAppend chk) ∧
      TakesBody body (source.read body.length overrideOrAppend) new ∧
      handle ≤ state.objects.length ∧
      Reread ((front.map Prod.snd).count handle + 1) old body new := by
  have hcases := readSection_cases hresumed.consistent.namesMatch code body.length chk
  rw [hresumed.parsedSections_eq] at hcases
  rcases hnumber with hsome | ⟨hnone, hhandle⟩
  · rcases hcases with
      ⟨found, current, hfound, hcurrent, -, hread⟩ | ⟨hnone, -⟩
    · rw [hsome] at hfound
      obtain rfl := Option.some.inj hfound
      have hlt := (List.getElem?_eq_some_iff.mp hcurrent).1
      obtain ⟨saved, savedBody, before, hsaved, -, hsavedBody, hbefore,
        hpos, hreread⟩ := hresumed.rereadObject handle hlt
      rw [hold] at hsaved
      obtain rfl := Option.some.inj hsaved
      rw [hbody] at hsavedBody
      obtain rfl := Except.ok.inj hsavedBody
      rw [hcurrent] at hbefore
      obtain rfl := Option.some.inj hbefore
      have hbehavior : old.name.loadBehavior ≠ .standard := by
        intro hstandard
        rw [hname] at hstandard
        rw [existingIn, if_pos hstandard] at hsome
        cases hsome
      obtain ⟨new, htakes, hagain⟩ := hreread.again hpos hbody hbehavior
      exact ⟨current, new, true, hread, htakes, hlt.le, hagain⟩
    · rw [hsome] at hnone
      cases hnone
  · rcases hcases with ⟨found, -, hfound, -⟩ | ⟨-, hread⟩
    · rw [hnone] at hfound
      cases hfound
    · -- No section in front was read into an object of this number.
      have hcount : (front.map Prod.snd).count handle = 0 := by
        rw [List.count_eq_zero]
        intro hmem
        obtain ⟨entry, hentry, hsnd⟩ := List.mem_map.mp hmem
        rw [← hresumed.parsedSections_eq] at hentry
        obtain ⟨content, hcontent, -⟩ := hresumed.consistent.namesMatch entry hentry
        have hlt := (List.getElem?_eq_some_iff.mp hcontent).1
        omega
      rw [← hhandle] at hread
      refine ⟨_, fresh, false, hread, ?_, hhandle.le, ?_⟩
      · rw [← hname]
        exact hreload.takesBody
      · rw [hcount]
        exact hreload.reread

/-- One more frame: its section is read into the object it was saved from. -/
theorem Resumed.step (hresumed : Resumed file written front state)
    (hformed : WellFormed old) (hannounces : old.AnnouncesBody)
    (hktrg : old.name ≠ .ktrg) (hold : file.objects[handle]? = some old)
    (hname : old.name = .ofCode code)
    (hnumber : existingIn front code = some handle ∨
      existingIn front code = none ∧ handle = state.objects.length)
    (hwrite : old.writeWithHeader = .ok frame)
    (hrest : written.drop state.chk.position = frame ++ frames) :
    ∃ following, sectionPass state = .next following ∧
      Resumed file written (front ++ [(code, handle)]) following ∧
      written.drop following.chk.position = frames := by
  obtain ⟨body, hbody, hdrop, hheader⟩ := frame_of_announces hannounces hwrite
  obtain ⟨fresh, hreload⟩ := exists_reload hformed hktrg
    (name_ne_ktgp_of_announces hannounces) hbody
  have height := eight_le_length_of_writeWithHeader hwrite
  have hlength := congrArg List.length hrest
  rw [List.length_drop, List.length_append] at hlength
  have hin : state.chk.position + 8 ≤ written.length := by omega
  have hdecode : SectionHeader.decode (written.drop state.chk.position) = ⟨code, body.length⟩ := by
    rw [hrest, ← decode_take_eight, List.take_append_of_le_length height,
      decode_take_eight, hheader, hname, SectionName.code_ofCode]
  have hbehind : written.drop (state.chk.position + 8) = body ++ frames := by
    rw [← List.drop_drop, hrest, List.drop_append_of_le_length height, hdrop]
  have hposition : written.drop (state.chk.position + 8 + body.length) =
      frames := by
    rw [← List.drop_drop, hbehind, List.drop_left]
  obtain ⟨source, new, overrideOrAppend, hread, htakes, hle, hreread⟩ :=
    hresumed.exists_source hold hbody hname hreload hnumber
      (streamAt written (state.chk.position + 8))
  have hpass := sectionPass_of_takesBody hresumed.atHeader hin hdecode hbehind hread htakes
  refine ⟨_, hpass, ?_, hposition⟩
  exact
    { atHeader := (nextHeader_of_next hresumed.atHeader hpass).2
      consistent := consistent_of_pass hresumed.consistent (Or.inl hpass)
      parsedSections_eq := by
        rw [LoadState.addSection, hresumed.parsedSections_eq]
      memorySafe_eq := by
        rw [LoadState.addSection, hresumed.memorySafe_eq]
        rfl
      tailData_eq := hresumed.tailData_eq
      tailLength_eq := hresumed.tailLength_eq
      rereadObject := fun other hlt =>
        rereadObject_addSection hresumed.rereadObject hle hold hktrg hbody hreread hlt }

/-- The sections parsed under these entries, as a scenario holds them now. -/
structure SavedAs (file : LoadedFile) (parsed : List (UInt32 × ℕ)) : Prop where
  numbered : (numberNames (parsed.map Prod.fst)).1 = parsed
  object : ∀ entry ∈ parsed, ∃ content, file.objects[entry.2]? = some content ∧
      content.name = .ofCode entry.1 ∧ WellFormed content

/-- The sections of the entries from some point on. -/
def sectionsOf (file : LoadedFile) (entries : List (UInt32 × ℕ)) : List Section :=
  entries.filterMap fun entry => file.objects[entry.2]?

/-- The KTRG section as the loop leaves it: its null entries at usable indexes
are blank ones now. -/
def RereadKtrg (file : LoadedFile) (state : LoadState) (handle : ℕ) : Prop :=
  ∃ table, file.objects[handle]? = some (.ktrg table) ∧ state.objects[handle]? =
      some (.ktrg ⟨KtrgSection.loadEntries table.entries⟩)

/-- What the loop leaves behind when it has read a saved scenario. -/
structure RereadState (file : LoadedFile) (parsed : List (UInt32 × ℕ))
    (state : LoadState) : Prop where
  consistent : Consistent state
  parsedSections_eq : state.parsedSections = parsed
  memorySafe_eq : state.memorySafe = true
  tailData_eq : state.tailData = List.replicate 7 0
  tailLength_eq : state.tailLength = 0
  rereadObject : ∀ handle, handle < state.objects.length →
    RereadObject file parsed state handle ∨ RereadKtrg file state handle

/-- At the end of the file the loop leaves without adding anything. -/
theorem sectionPass_of_end (hat : AtHeader bytes state)
    (hend : bytes.drop state.chk.position = []) :
    ∃ chk, sectionPass state = .done (some { state with chk := chk }) := by
  have hempty : (streamAt bytes state.chk.position).remaining = [] := hend
  have hread := InputStream.read_of_lt (good_streamAt bytes state.chk.position)
    (show _ < 8 by rw [hempty]; decide)
  rw [hempty, ← hat.chk_eq] at hread
  refine ⟨(state.chk.read 8).2, ?_⟩
  unfold sectionPass
  rw [hread]
  rfl

theorem Resumed.done (hresumed : Resumed file written front state)
    (hend : written.drop state.chk.position = []) :
    ∃ last, sectionPass state = .done (some last) ∧ RereadState file front last := by
  obtain ⟨chk, hdone⟩ := sectionPass_of_end hresumed.atHeader hend
  refine ⟨_, hdone, ?_⟩
  exact
    { consistent := consistent_of_pass hresumed.consistent (Or.inr hdone)
      parsedSections_eq := hresumed.parsedSections_eq
      memorySafe_eq := hresumed.memorySafe_eq
      tailData_eq := hresumed.tailData_eq
      tailLength_eq := hresumed.tailLength_eq
      rereadObject := fun handle hlt =>
        Or.inl (hresumed.rereadObject handle hlt) }

/-- A KTRG section in front of the end is read into a new object, and the loop
ends with it. -/
theorem Resumed.done_ktrg {table : KtrgSection} (hresumed : Resumed file written front state)
    (hold : file.objects[handle]? = some (.ktrg table))
    (hname : SectionName.ktrg = .ofCode code)
    (hnumber : existingIn front code = some handle ∨
      existingIn front code = none ∧ handle = state.objects.length)
    (hannounces : (Section.ktrg table).AnnouncesBody)
    (hwrite : (Section.ktrg table).writeWithHeader = .ok (written.drop state.chk.position)) :
    ∃ last, sectionPass state = .done (some last) ∧
      RereadState file (front ++ [(code, handle)]) last := by
  obtain ⟨body, hbody, hdrop, hheader⟩ := frame_of_announces hannounces hwrite
  have height := eight_le_length_of_writeWithHeader hwrite
  rw [List.length_drop] at height
  rw [← Except.ok.inj hbody, List.drop_drop] at hdrop
  rw [← Except.ok.inj hbody] at hheader
  have hnone : existingIn front code = none := by
    rw [existingIn, ← hname]
    rfl
  obtain rfl : handle = state.objects.length := by
    rcases hnumber with hsome | ⟨-, hhandle⟩
    · rw [hnone] at hsome
      cases hsome
    · exact hhandle
  have hexisting : state.existing code = none := by
    rw [LoadState.existing, ← hname]
    rfl
  have hread : state.readSection code table.write.length
      (streamAt written (state.chk.position + 8)) =
      (state.objects.length, ⟨⟨written, state.chk.position + 8 + table.write.length, true, true⟩,
        .ok (.ktrg ⟨KtrgSection.loadEntries table.entries⟩, table.write.length), true⟩) := by
    have hktrg := KtrgSection.read_of_remaining
      (good_streamAt written (state.chk.position + 8)) hdrop
    simp only [LoadState.readSection, hexisting, ← hname, Section.allocate, Section.read, hktrg]
    rfl
  have hdone : sectionPass state = .done (some (state.addSection code
      table.write.length state.objects.length
      ⟨⟨written, state.chk.position + 8 + table.write.length, true, true⟩,
        .ok (.ktrg ⟨KtrgSection.loadEntries table.entries⟩, table.write.length), true⟩
      (.ktrg ⟨KtrgSection.loadEntries table.entries⟩)
      table.write.length)) := by
    have hcode : (Section.ktrg table).name.code = code := by
      rw [Section.name, hname, SectionName.code_ofCode]
    rw [sectionPass_of_header hresumed.atHeader (by omega), hheader, hcode]
    simp only [Int.natCast_nonneg, if_true, Int.toNat_natCast, LoadState.regularSection, hread]
    rfl
  refine ⟨_, hdone, ?_⟩
  exact
    { consistent := consistent_of_pass hresumed.consistent (Or.inr hdone)
      parsedSections_eq := by
        rw [LoadState.addSection, hresumed.parsedSections_eq]
      memorySafe_eq := by
        rw [LoadState.addSection, hresumed.memorySafe_eq]
        rfl
      tailData_eq := hresumed.tailData_eq
      tailLength_eq := hresumed.tailLength_eq
      rereadObject := by
        intro other hlt
        by_cases heq : state.objects.length = other
        · subst heq
          right
          refine ⟨table, hold, ?_⟩
          rw [getElem?_addSection le_rfl, if_pos rfl]
        · exact Or.inl (rereadObject_of_ne hresumed.rereadObject le_rfl hlt heq) }

theorem Resumed.run {rest : List (UInt32 × ℕ)} {start : LoadState}
    (hsaved : SavedAs file (front ++ rest))
    (hframed : Framed (sectionsOf file rest))
    (hresumed : Resumed file written front state)
    (hreaches : Loop.Reaches sectionPass start state)
    (hwrite : writeSections (sectionsOf file rest) = .ok (written.drop state.chk.position)) :
    ∃ last, Loop.Returns sectionPass start (some last) ∧ RereadState file (front ++ rest) last := by
  induction rest generalizing front state with
  | nil =>
      rw [List.append_nil]
      obtain ⟨last, hdone, hreread⟩ := hresumed.done (Except.ok.inj hwrite).symm
      exact ⟨last, Loop.returns_iff_reaches_done.mpr ⟨state, hreaches, hdone⟩, hreread⟩
  | cons entry rest ih =>
      obtain ⟨code, handle⟩ := entry
      obtain ⟨content, hcontent, hname, hformed⟩ :=
        hsaved.object (code, handle) (List.mem_append_right _ List.mem_cons_self)
      rw [sectionsOf, List.filterMap_cons, hcontent] at hwrite hframed
      obtain ⟨hannounces, hlast, hframed⟩ := hframed
      obtain ⟨frame, frames, hframe, hframes, hbytes⟩ := writeSections_cons_eq_ok hwrite
      have hnumber : existingIn front code = some handle ∨
          existingIn front code = none ∧ handle = state.objects.length := by
        apply existingIn_of_numberNames hsaved.numbered
        rw [← hresumed.parsedSections_eq]
        exact hresumed.consistent.numbered.symm
      by_cases hktrg : content.name = .ktrg
      · -- Nothing was saved behind a KTRG section.
        have hnothing : rest = [] := by
          by_contra hne
          obtain ⟨next, others, rfl⟩ := List.exists_cons_of_ne_nil hne
          obtain ⟨other, hother, -⟩ := hsaved.object next (by simp)
          have hnil := hlast hktrg
          rw [List.filterMap_cons, hother] at hnil
          cases hnil
        subst hnothing
        obtain rfl := Except.ok.inj hframes
        rw [List.append_nil] at hbytes
        cases content with
        | ktrg table =>
            obtain ⟨last, hdone, hreread⟩ := hresumed.done_ktrg hcontent
              hname hnumber hannounces (hbytes ▸ hframe)
            exact ⟨last, Loop.returns_iff_reaches_done.mpr ⟨state, hreaches, hdone⟩, hreread⟩
        | _ => cases hktrg
      · obtain ⟨following, hpass, hfollowing, hposition⟩ := hresumed.step
          hformed hannounces hktrg hcontent hname hnumber hframe hbytes
        have hsplit : front ++ (code, handle) :: rest = front ++ [(code, handle)] ++ rest := by
          rw [List.append_assoc, List.singleton_append]
        rw [hsplit] at hsaved ⊢
        apply ih hsaved hframed hfollowing (hreaches.next hpass)
        rw [hposition]
        exact hframes

theorem exists_rereadState {parsed : List (UInt32 × ℕ)}
    (hsaved : SavedAs file parsed) (hframed : Framed (sectionsOf file parsed))
    (hne : parsed ≠ [])
    (hwrite : writeSections (sectionsOf file parsed) = .ok written) :
    ∃ state, Loop.Returns sectionPass (LoadState.start written) (some state) ∧
      RereadState file parsed state := by
  have hwritten : written ≠ [] := by
    obtain ⟨entry, rest, rfl⟩ := List.exists_cons_of_ne_nil hne
    obtain ⟨content, hcontent, -⟩ := hsaved.object entry List.mem_cons_self
    rw [sectionsOf, List.filterMap_cons, hcontent] at hwrite
    obtain ⟨frame, frames, hframe, -, rfl⟩ := writeSections_cons_eq_ok hwrite
    have height := eight_le_length_of_writeWithHeader hframe
    apply List.ne_nil_of_length_pos
    rw [List.length_append]
    omega
  have hstart : Resumed file written [] (LoadState.start written) :=
    { atHeader := atHeader_start hwritten
      consistent := consistent_start written
      parsedSections_eq := rfl
      memorySafe_eq := rfl
      tailData_eq := rfl
      tailLength_eq := rfl
      rereadObject := fun handle hlt => absurd hlt (Nat.not_lt_zero handle) }
  exact hstart.run hsaved hframed .start hwrite

end Chkdraft.Scenario
