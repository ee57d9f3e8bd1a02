import Chkdraft.Core.Loop
import Chkdraft.Sections.Framing

/-!
# The section loop of `Scenario::read`

A scenario file is copied into a buffer and read section by section.  A header
with a negative size is a jump section: the read position moves back by that
much from the end of the header.  The state of the loop is the stream, the
section objects with the names they were parsed under, and the order in which
they will be saved.  Sections are shared: a repeated appended or overridden
variable {state : LoadState}

section is the same object again.
-/

namespace Chkdraft.Scenario

open Binary Sections

variable {content : Section} {count handle : ℕ} {code : UInt32}

variable {offset size sizeRead : ℕ} {bytes : List UInt8}

/-- What the loop has built so far.  Section objects are numbered in the order
of their allocation; `parsedSections` is the multimap from names to objects in
insertion order. -/
structure LoadState where
  chk : InputStream
  objects : List Section
  parsedSections : List (UInt32 × ℕ)
  allSections : List ℕ
  tailData : List UInt8
  tailLength : ℕ
  mapIsProtected : Bool
  jumpCompress : Bool
  memorySafe : Bool

/-- The cleared scenario and the stream over the copied bytes.  Inserting an
empty buffer with `<<` sets `failbit`. -/
def LoadState.start (bytes : List UInt8) : LoadState where
  chk := ⟨bytes, 0, false, bytes.isEmpty⟩
  objects := []
  parsedSections := []
  allSections := []
  tailData := List.replicate 7 0
  tailLength := 0
  mapIsProtected := false
  jumpCompress := false
  memorySafe := true

/-- The object a section of this name is read into again, if any. -/
def LoadState.existing (state : LoadState) (code : UInt32) : Option ℕ :=
  if (SectionName.ofCode code).loadBehavior = .standard then
    none
  else
    (state.parsedSections.find? fun entry => entry.1 = code).map Prod.snd

/-- `ChkSection::read`: the section object, its number, and what reading the
body into it does. -/
def LoadState.readSection (state : LoadState) (code : UInt32) (size : ℕ)
    (chk : InputStream) : ℕ × ReadOutcome Section :=
  match state.existing code with
  | some handle =>
      (handle, (state.objects.getD handle (.allocate (.ofCode code))).read size true chk)
  | none =>
      (state.objects.length, (Section.allocate (.ofCode code)).read size false chk)

/-- The state after a section was read: a new object or an old one's new
content. -/
def LoadState.addSection (state : LoadState) (code : UInt32) (size : ℕ)
    (handle : ℕ) (outcome : ReadOutcome Section) (content : Section)
    (sizeRead : ℕ) : LoadState :=
  { state with
    chk := outcome.stream
    objects :=
      if handle < state.objects.length then state.objects.set handle content
      else state.objects ++ [content]
    parsedSections := state.parsedSections ++ [(code, handle)]
    allSections := state.allSections ++ [handle]
    mapIsProtected := state.mapIsProtected || sizeRead ≠ size
    memorySafe := state.memorySafe && outcome.memorySafe }

/-- The test `while ( chk.good() )`. -/
def LoadState.continue (state : LoadState) : Loop.Control LoadState (Option LoadState) :=
  if state.chk.good then .next state else .done (some state)

/-- The branch for a regular section header. -/
def LoadState.regularSection (state : LoadState) (code : UInt32) (size : ℕ)
    (chk : InputStream) : Loop.Control LoadState (Option LoadState) :=
  let (handle, outcome) := state.readSection code size chk
  match outcome.result with
  | .error _ => .done none
  | .ok (content, sizeRead) =>
      if outcome.stream.good || outcome.stream.eof then
        (state.addSection code size handle outcome content sizeRead).continue
      else
        .done none

def LoadState.jumpSection (state : LoadState) (size : ℤ)
    (chk : InputStream) : Loop.Control LoadState (Option LoadState) :=
  let chk := chk.seekCurrent size
  if chk.good then
    LoadState.continue { state with chk := chk, jumpCompress := true }
  else
    .done none

/-- One pass of the `do … while` loop.  `none` stands for `parsingFailed`. -/
def sectionPass (state : LoadState) : Loop.Control LoadState (Option LoadState) :=
  let (headerBytes, chk) := state.chk.read 8
  let headerBytesRead :=
    if chk.good then 8 else if chk.eof then headerBytes.length else 0
  if headerBytesRead = 0 ∧ chk.eof = true then
    .done (some { state with chk := chk })
  else if headerBytesRead = 0 then
    .done none
  else if headerBytesRead = 8 then
    let header := SectionHeader.decode headerBytes
    if 0 ≤ header.sizeInBytes then
      state.regularSection header.name header.sizeInBytes.toNat chk
    else
      state.jumpSection header.sizeInBytes chk
  else
    LoadState.continue
      { state with
        chk := chk
        tailData := headerBytes ++ List.replicate (7 - headerBytesRead) 0
        tailLength := headerBytesRead
        mapIsProtected := true }

/-- Bytes a section's body takes from the stream, unless reading it throws. -/
def bodyExtent (name : SectionName) (size : ℕ) (body : List UInt8) : Option ℕ :=
  match name with
  | .ktrg =>
      if size = 0 then some 0 else if size < 4 then none else some (size + 4)
  | .ktgp =>
      if size = 0 ∨ wordAt 4 (body.take size) 0 = 1 then some size else none
  | _ => some size

/-- The offset of the header read after the one at `offset`, if the loop goes
on: behind the body of a regular section that lies inside the file, or at the
target of a jump. -/
def nextHeader (bytes : List UInt8) (offset : ℕ) : Option ℕ :=
  if offset + 8 ≤ bytes.length then
    let header := SectionHeader.decode (bytes.drop offset)
    if 0 ≤ header.sizeInBytes then
      match bodyExtent (.ofCode header.name) header.sizeInBytes.toNat (bytes.drop (offset + 8)) with
      | some extent =>
          if offset + 8 + extent ≤ bytes.length then
            some (offset + 8 + extent)
          else
            none
      | none => none
    else if 0 ≤ (offset : ℤ) + 8 + header.sizeInBytes then
      some ((offset : ℤ) + 8 + header.sizeInBytes).toNat
    else
      none
  else
    none

theorem result_map_eq_ok {S T : Type*} {embed : S → T}
    {outcome : ReadOutcome S} {content : T}
    (hresult : (outcome.map embed).result = .ok (content, sizeRead)) :
    ∃ inner, outcome.result = .ok (inner, sizeRead) ∧ embed inner = content := by
  unfold ReadOutcome.map at hresult
  cases hinner : outcome.result with
  | error error =>
      rw [hinner] at hresult
      cases hresult
  | ok value =>
      obtain ⟨inner, innerSize⟩ := value
      rw [hinner] at hresult
      have hpair := Except.ok.inj hresult
      rw [Prod.mk.injEq] at hpair
      exact ⟨inner, by rw [hpair.2], hpair.1⟩

/-- Reading never turns a section into one of another class. -/
theorem name_of_read {content' : Section} {overrideOrAppend : Bool} {chk : InputStream}
    (hresult : (content.read size overrideOrAppend chk).result =
      .ok (content', sizeRead)) : content'.name = content.name := by
  cases content with
  | struct old =>
      obtain ⟨inner, hinner, rfl⟩ := result_map_eq_ok hresult
      have hpair := Except.ok.inj hinner
      rw [Prod.mk.injEq] at hpair
      rw [← hpair.1]
      rfl
  | _ =>
      obtain ⟨inner, -, rfl⟩ := result_map_eq_ok hresult
      rfl

/-- The stream at an offset of the file, in a good state. -/
def streamAt (bytes : List UInt8) (offset : ℕ) : InputStream := ⟨bytes, offset, false, false⟩

theorem good_streamAt (bytes : List UInt8) (offset : ℕ) : (streamAt bytes offset).good = true := rfl

theorem remaining_streamAt (bytes : List UInt8) (offset : ℕ) :
    (streamAt bytes offset).remaining = bytes.drop offset := rfl

theorem read_streamAt_of_le (hle : offset + count ≤ bytes.length) :
    (streamAt bytes offset).read count =
      ((bytes.drop offset).take count, streamAt bytes (offset + count)) := by
  rw [InputStream.read_of_le (good_streamAt _ _)
    (by rw [remaining_streamAt, List.length_drop]; omega)]
  rfl

theorem good_read_streamAt_of_lt (hin : offset ≤ bytes.length)
    (hlt : bytes.length < offset + count) :
    ((streamAt bytes offset).read count).2.good = false := by
  rw [Bool.eq_false_iff, Ne, InputStream.good_read_iff (good_streamAt _ _),
    remaining_streamAt, List.length_drop]
  omega

/-- The loop goes on behind a section that was read completely. -/
def GoesOn {S : Type*} (outcome : ReadOutcome S) : Prop :=
  (∃ value, outcome.result = .ok value) ∧ outcome.stream.good = true

/-- How far a section was read, when the loop goes on behind it. -/
def ReadsExtent {S : Type*} (bytes : List UInt8) (offset : ℕ)
    (extent : Option ℕ) (outcome : ReadOutcome S) : Prop :=
  (∀ count, extent = some count → offset + count ≤ bytes.length →
    GoesOn outcome ∧ outcome.stream = streamAt bytes (offset + count)) ∧
  ((∀ count, extent = some count → bytes.length < offset + count) → ¬ GoesOn outcome)

theorem readsExtent_map {S T : Type*} {extent : Option ℕ}
    {outcome : ReadOutcome S}
    (hreads : ReadsExtent bytes offset extent outcome) (embed : S → T) :
    ReadsExtent bytes offset extent (outcome.map embed) := by
  have hgoes : GoesOn (outcome.map embed) ↔ GoesOn outcome := by
    simp only [GoesOn, ReadOutcome.map]
    cases outcome.result <;> simp [Except.map]
  simpa only [ReadsExtent, hgoes, ReadOutcome.stream_map] using hreads

/-- A class that extracts the announced bytes and does not throw. -/
theorem readsExtent_of_readsBody {S : Type*} {outcome : ReadOutcome S} (hin : offset ≤ bytes.length)
    (hreads : ReadsBody size (streamAt bytes offset) outcome) :
    ReadsExtent bytes offset (some size) outcome := by
  obtain ⟨hconsumes, hok⟩ := hreads
  constructor
  · rintro count ⟨⟩ hle
    have hstream : outcome.stream = streamAt bytes (offset + size) := by
      rw [hconsumes, read_streamAt_of_le hle]
    refine ⟨⟨hok, ?_⟩, hstream⟩
    rw [hstream]
    exact good_streamAt _ _
  · intro hshort hgoes
    have hbad := good_read_streamAt_of_lt hin (hshort size rfl)
    rw [← hconsumes, hgoes.2] at hbad
    cases hbad

theorem readsExtent_ktrg (hin : offset ≤ bytes.length) (size : ℕ)
    (table : KtrgSection) (body : List UInt8) :
    ReadsExtent bytes offset (bodyExtent .ktrg size body)
      (table.read size (streamAt bytes offset)) := by
  unfold bodyExtent
  rcases Nat.eq_zero_or_pos size with rfl | hpos
  · exact readsExtent_of_readsBody hin ⟨consumesBody_of_zero (good_streamAt _ _) rfl, _, rfl⟩
  rw [if_neg hpos.ne', KtrgSection.read, if_pos hpos]
  by_cases hversion : offset + 4 ≤ bytes.length
  · have hfour : ((bytes.drop offset).take 4).length = 4 := by
      rw [List.length_take, List.length_drop]
      omega
    simp only [read_streamAt_of_le hversion, hfour, if_true]
    by_cases hsmall : size < 4
    · -- The allocation throws.
      simp only [if_pos hsmall]
      refine ⟨fun count hcount => (by cases hcount), fun _ hgoes => ?_⟩
      obtain ⟨value, hvalue⟩ := hgoes.1
      cases hvalue
    · simp only [if_neg hsmall]
      constructor
      · rintro count ⟨⟩ hle
        rw [read_streamAt_of_le (by omega)]
        refine ⟨⟨⟨_, rfl⟩, good_streamAt _ _⟩, ?_⟩
        rw [show offset + (size + 4) = offset + 4 + size by omega]
      · intro hshort hgoes
        have hbad := good_read_streamAt_of_lt hversion (show bytes.length < offset + 4 + size by
            have := hshort (size + 4) rfl
            omega)
        rw [hgoes.2] at hbad
        cases hbad
  · have hbad : ((streamAt bytes offset).read 4).2.good = false :=
      good_read_streamAt_of_lt hin (by omega)
    have hshortVersion : ((streamAt bytes offset).read 4).1.length ≠ 4 := by
      rw [InputStream.fst_read_of_good (good_streamAt _ _),
        remaining_streamAt, List.length_take, List.length_drop]
      omega
    simp only [if_neg hshortVersion]
    constructor
    · intro count hcount hle
      split at hcount
      · cases hcount
      · have hcount := Option.some.inj hcount
        omega
    · intro _ hgoes
      rw [hgoes.2] at hbad
      cases hbad

theorem wordAt_padTo (length : ℕ) (bytes : List UInt8) :
    wordAt 4 (KtgpSection.padTo length bytes) 0 = wordAt 4 bytes 0 :=
  wordAt_append_zeros 4 bytes _ 0

theorem readsExtent_ktgp (hin : offset ≤ bytes.length) (size : ℕ) :
    ReadsExtent bytes offset (bodyExtent .ktgp size (bytes.drop offset))
      (KtgpSection.read size (streamAt bytes offset)) := by
  have hconsumes := Section.consumesBody_ktgp size (good_streamAt bytes offset)
  by_cases hfits : offset + size ≤ bytes.length
  · -- The whole body is there, so the version is the one in the file.
    have hbody : overwrite (List.replicate size 0) 0 ((streamAt bytes offset).read size).1 =
        (bytes.drop offset).take size := by
      rw [read_streamAt_of_le hfits, overwrite_zero_of_length_eq]
      rw [List.length_take, List.length_drop, List.length_replicate]
      omega
    unfold bodyExtent
    by_cases hvalid : size = 0 ∨ wordAt 4 ((bytes.drop offset).take size) 0 = 1
    · simp only [if_pos hvalid]
      refine readsExtent_of_readsBody hin ⟨hconsumes, ?_⟩
      unfold KtgpSection.read
      rcases Nat.eq_zero_or_pos size with rfl | hpos
      · exact ⟨_, rfl⟩
      · have hversion := hvalid.resolve_left hpos.ne'
        simp only [if_pos hpos, hbody, wordAt_padTo, hversion, ne_eq, not_true_eq_false, if_false]
        exact ⟨_, rfl⟩
    · simp only [if_neg hvalid]
      refine ⟨fun count hcount => (by cases hcount), fun _ hgoes => ?_⟩
      obtain ⟨value, hvalue⟩ := hgoes.1
      have hpos : 0 < size := by omega
      have hversion : wordAt 4 ((bytes.drop offset).take size) 0 ≠ 1 := fun h => hvalid (Or.inr h)
      simp only [KtgpSection.read, if_pos hpos, hbody, wordAt_padTo, ne_eq,
        hversion, not_false_eq_true, if_true] at hvalue
      cases hvalue
  · constructor
    · intro count hcount hle
      unfold bodyExtent at hcount
      simp only at hcount
      split at hcount
      · have hcount := Option.some.inj hcount
        omega
      · cases hcount
    · intro _ hgoes
      have hbad := good_read_streamAt_of_lt hin (not_le.mp hfits)
      rw [← hconsumes, hgoes.2] at hbad
      cases hbad

theorem readsExtent_read (hin : offset ≤ bytes.length) (size : ℕ)
    (overrideOrAppend : Bool) (content : Section) :
    ReadsExtent bytes offset (bodyExtent content.name size (bytes.drop offset))
      (content.read size overrideOrAppend (streamAt bytes offset)) := by
  by_cases hktrg : content.name = .ktrg
  · cases content with
    | ktrg table => exact readsExtent_map (readsExtent_ktrg hin size table _) _
    | _ => cases hktrg
  by_cases hktgp : content.name = .ktgp
  · cases content with
    | ktgp table => exact readsExtent_map (readsExtent_ktgp hin size) _
    | _ => cases hktgp
  have hextent : bodyExtent content.name size (bytes.drop offset) = some size := by
    unfold bodyExtent
    split
    · exact absurd ‹_› hktrg
    · exact absurd ‹_› hktgp
    · rfl
  rw [hextent]
  exact readsExtent_of_readsBody hin
    (Section.readsBody_read hktrg hktgp size overrideOrAppend (good_streamAt _ _))

/-- Every parsed entry refers to an object of the class its name selects. -/
def NamesMatch (state : LoadState) : Prop := ∀ entry ∈ state.parsedSections, ∃ content,
    state.objects[entry.2]? = some content ∧ content.name = .ofCode entry.1

/-- What holds at the start of every pass over `bytes`. -/
structure AtHeader (bytes : List UInt8) (state : LoadState) : Prop where
  chk_eq : state.chk = streamAt bytes state.chk.position
  position_le : state.chk.position ≤ bytes.length
  namesMatch : NamesMatch state

theorem exists_of_existing (hnames : NamesMatch state)
    (hexisting : state.existing code = some handle) :
    ∃ content, state.objects[handle]? = some content ∧ content.name = .ofCode code := by
  unfold LoadState.existing at hexisting
  split at hexisting
  · cases hexisting
  · obtain ⟨entry, hfind, rfl⟩ := Option.map_eq_some_iff.mp hexisting
    have hcode : entry.1 = code := by
      simpa using List.find?_some hfind
    rw [← hcode]
    exact hnames entry (List.mem_of_find?_eq_some hfind)

/-- The object a section is read into, new or already there, has the class its
name selects. -/
theorem readSection_eq (hnames : NamesMatch state) (code : UInt32) (size : ℕ) (chk : InputStream) :
    ∃ (content : Section) (overrideOrAppend : Bool) (handle : ℕ), content.name = .ofCode code ∧
      state.readSection code size chk = (handle, content.read size overrideOrAppend chk) ∧
      (handle = state.objects.length ∨ state.objects[handle]? = some content) := by
  cases hexisting : state.existing code with
  | none =>
      refine ⟨_, false, _, Section.name_allocate _, ?_, Or.inl rfl⟩
      rw [LoadState.readSection, hexisting]
  | some handle =>
      obtain ⟨content, hobject, hname⟩ := exists_of_existing hnames hexisting
      refine ⟨content, true, handle, hname, ?_, Or.inr hobject⟩
      simp only [LoadState.readSection, hexisting,
        List.getD_eq_getElem?_getD, hobject, Option.getD_some]

theorem namesMatch_addSection (hnames : NamesMatch state)
    {outcome : ReadOutcome Section} {old : Section}
    (hname : content.name = .ofCode code) (hold : old.name = .ofCode code)
    (hhandle : handle = state.objects.length ∨ state.objects[handle]? = some old) :
    NamesMatch (state.addSection code size handle outcome content sizeRead) := by
  intro entry hentry
  have hobjects : ∀ index, index = handle → (state.addSection code size handle outcome content
        sizeRead).objects[index]? = some content := by
    rintro index rfl
    simp only [LoadState.addSection]
    rcases hhandle with hfresh | hobject
    · simp [hfresh]
    · have hlt := (List.getElem?_eq_some_iff.mp hobject).1
      simp [hlt]
  rcases List.mem_append.mp hentry with hparsed | hnew
  · obtain ⟨other, hother, hotherName⟩ := hnames entry hparsed
    by_cases heq : entry.2 = handle
    · refine ⟨content, hobjects entry.2 heq, ?_⟩
      rcases hhandle with hfresh | hobject
      · have hlt := (List.getElem?_eq_some_iff.mp hother).1
        omega
      · rw [heq, hobject] at hother
        rw [hname, ← hold, ← hotherName, Option.some.inj hother]
    · refine ⟨other, ?_, hotherName⟩
      have hlt := (List.getElem?_eq_some_iff.mp hother).1
      simp only [LoadState.addSection]
      split
      · rw [List.getElem?_set_ne (Ne.symm heq)]
        exact hother
      · rw [List.getElem?_append_left hlt]
        exact hother
  · rw [List.mem_singleton.mp hnew]
    exact ⟨content, hobjects handle rfl, hname⟩

/-- Behind a regular header the loop goes on exactly when the body was read
completely, and then stands behind it. -/
theorem regularSection_next (hnames : NamesMatch state)
    (hin : offset ≤ bytes.length) (code : UInt32) (size : ℕ) :
    (∀ following, state.regularSection code size (streamAt bytes offset) = .next following →
      AtHeader bytes following ∧
        ∃ extent, bodyExtent (.ofCode code) size (bytes.drop offset) = some extent ∧
          offset + extent ≤ bytes.length ∧
          following.chk.position = offset + extent) ∧
    (∀ result, state.regularSection code size (streamAt bytes offset) = .done result →
      ∀ extent, bodyExtent (.ofCode code) size (bytes.drop offset) = some extent →
        bytes.length < offset + extent) := by
  obtain ⟨old, overrideOrAppend, handle, hold, hread, hhandle⟩ :=
    readSection_eq hnames code size (streamAt bytes offset)
  obtain ⟨hreads, hstops⟩ := readsExtent_read hin size overrideOrAppend old
  rw [hold] at hreads hstops
  unfold LoadState.regularSection
  simp only [hread]
  cases hresult : (old.read size overrideOrAppend (streamAt bytes offset)).result with
  | error error =>
      refine ⟨fun following hnext => (by cases hnext), ?_⟩
      intro result _ extent hextent
      by_contra hfits
      obtain ⟨⟨⟨value, hvalue⟩, -⟩, -⟩ := hreads extent hextent (by omega)
      rw [hresult] at hvalue
      cases hvalue
  | ok value =>
      obtain ⟨content, sizeRead⟩ := value
      have hname : content.name = .ofCode code := (name_of_read hresult).trans hold
      cases hgood : (old.read size overrideOrAppend (streamAt bytes offset)).stream.good with
      | true =>
          -- Complete: some extent fits, and the stream stands behind it.
          have hextent : ∃ extent, bodyExtent (.ofCode code) size
              (bytes.drop offset) = some extent ∧
              offset + extent ≤ bytes.length := by
            by_contra hnone
            push Not at hnone
            exact hstops hnone ⟨⟨_, hresult⟩, hgood⟩
          obtain ⟨extent, hextent, hfits⟩ := hextent
          obtain ⟨-, hstream⟩ := hreads extent hextent hfits
          simp only [Bool.true_or, if_true, LoadState.continue, LoadState.addSection, hgood]
          refine ⟨?_, fun result hdone => (by cases hdone)⟩
          rintro following ⟨⟩
          refine ⟨⟨?_, ?_, ?_⟩, extent, hextent, hfits, ?_⟩
          · simp only [hstream]
            rfl
          · simp only [hstream]
            exact hfits
          · exact namesMatch_addSection hnames hname hold hhandle
          · simp only [hstream]
            rfl
      | false =>
          have hshort : ∀ extent, bodyExtent (.ofCode code) size (bytes.drop offset) = some extent →
              bytes.length < offset + extent := by
            intro extent hextent
            by_contra hfits
            obtain ⟨⟨-, hstill⟩, -⟩ := hreads extent hextent (by omega)
            rw [hgood] at hstill
            cases hstill
          refine ⟨?_, fun result _ => hshort⟩
          intro following hnext
          simp only [Bool.false_or, LoadState.continue, LoadState.addSection, hgood] at hnext
          split at hnext
          · cases hnext
          · cases hnext

theorem decode_take_eight (bytes : List UInt8) :
    SectionHeader.decode (bytes.take 8) = SectionHeader.decode bytes := by
  simp [SectionHeader.decode, wordAt, List.take_take, List.drop_take]

theorem seekCurrent_streamAt (bytes : List UInt8) (offset : ℕ) (size : ℤ) :
    ((streamAt bytes offset).seekCurrent size = streamAt bytes ((offset : ℤ) + size).toNat ∧
      0 ≤ (offset : ℤ) + size ∧ (offset : ℤ) + size ≤ bytes.length) ∨
    (((streamAt bytes offset).seekCurrent size).good = false ∧
      ¬ (0 ≤ (offset : ℤ) + size ∧ (offset : ℤ) + size ≤ bytes.length)) := by
  unfold InputStream.seekCurrent
  by_cases hinside : 0 ≤ (offset : ℤ) + size ∧ (offset : ℤ) + size ≤ bytes.length
  · left
    refine ⟨?_, hinside⟩
    simp [streamAt, hinside]
  · right
    refine ⟨?_, hinside⟩
    simp [streamAt, hinside, InputStream.good]

/-- A pass that finds no complete header is the last one. -/
theorem sectionPass_of_short (hat : AtHeader bytes state)
    (hshort : bytes.length < state.chk.position + 8) :
    ∃ result, sectionPass state = .done result := by
  have hlength : (streamAt bytes state.chk.position).remaining.length < 8 := by
    rw [remaining_streamAt, List.length_drop]
    omega
  have hread := InputStream.read_of_lt (good_streamAt bytes _) hlength
  rw [← hat.chk_eq] at hread hlength
  unfold sectionPass
  simp only [hread]
  have hbad : InputStream.good
      { state.chk with
        position := state.chk.position + state.chk.remaining.length
        eof := true
        fail := true } = false := rfl
  simp only [hbad, if_true]
  by_cases hzero : state.chk.remaining.length = 0
  · simp [hzero]
  · have height : state.chk.remaining.length ≠ 8 := by omega
    simp [hzero, height, LoadState.continue, InputStream.good]

/-- A pass that finds a complete header branches on its size. -/
theorem sectionPass_of_header (hat : AtHeader bytes state)
    (hheader : state.chk.position + 8 ≤ bytes.length) :
    sectionPass state =
      let header := SectionHeader.decode (bytes.drop state.chk.position)
      if 0 ≤ header.sizeInBytes then
        state.regularSection header.name header.sizeInBytes.toNat
          (streamAt bytes (state.chk.position + 8))
      else
        state.jumpSection header.sizeInBytes (streamAt bytes (state.chk.position + 8)) := by
  have hread : state.chk.read 8 = ((bytes.drop state.chk.position).take 8,
        streamAt bytes (state.chk.position + 8)) := by
    rw [hat.chk_eq]
    exact read_streamAt_of_le hheader
  unfold sectionPass
  simp only [hread, good_streamAt, if_true, decode_take_eight]
  rfl

theorem jumpSection_next (hnames : NamesMatch state) (offset : ℕ) (size : ℤ) :
    (∀ following, state.jumpSection size (streamAt bytes offset) = .next following →
      AtHeader bytes following ∧ 0 ≤ (offset : ℤ) + size ∧
        following.chk.position = ((offset : ℤ) + size).toNat) ∧
    (∀ result, state.jumpSection size (streamAt bytes offset) = .done result →
      ¬ (0 ≤ (offset : ℤ) + size ∧ (offset : ℤ) + size ≤ bytes.length)) := by
  unfold LoadState.jumpSection
  rcases seekCurrent_streamAt bytes offset size with
    ⟨hseek, hlow, hhigh⟩ | ⟨hbad, houtside⟩
  · simp only [hseek, good_streamAt, if_true, LoadState.continue]
    refine ⟨?_, fun result hdone => (by cases hdone)⟩
    rintro following ⟨⟩
    refine ⟨⟨rfl, ?_, hnames⟩, hlow, rfl⟩
    simp only [streamAt]
    omega
  · simp only [hbad, Bool.false_eq_true, if_false]
    exact ⟨fun following hnext => (by cases hnext), fun result _ => houtside⟩

theorem nextHeader_of_next {following : LoadState}
    (hat : AtHeader bytes state) (hpass : sectionPass state = .next following) :
    nextHeader bytes state.chk.position = some following.chk.position ∧
      AtHeader bytes following := by
  by_cases hheader : state.chk.position + 8 ≤ bytes.length
  · rw [sectionPass_of_header hat hheader] at hpass
    simp only at hpass
    rw [nextHeader, if_pos hheader]
    simp only
    split at hpass
    · rename_i hsize
      obtain ⟨hfollowing, extent, hextent, hfits, hposition⟩ :=
        (regularSection_next hat.namesMatch hheader _ _).1 following hpass
      simp only [if_pos hsize, hextent, if_pos hfits, hposition]
      exact ⟨trivial, hfollowing⟩
    · rename_i hsize
      obtain ⟨hfollowing, hlow, hposition⟩ :=
        (jumpSection_next hat.namesMatch _ _).1 following hpass
      push_cast at hlow hposition
      simp only [if_neg hsize, if_pos hlow, hposition]
      exact ⟨trivial, hfollowing⟩
  · obtain ⟨result, hdone⟩ := sectionPass_of_short hat (by omega)
    rw [hpass] at hdone
    cases hdone

theorem nextHeader_of_done {result : Option LoadState}
    (hat : AtHeader bytes state) (hpass : sectionPass state = .done result) :
    nextHeader bytes state.chk.position = none := by
  by_cases hheader : state.chk.position + 8 ≤ bytes.length
  · rw [sectionPass_of_header hat hheader] at hpass
    simp only at hpass
    rw [nextHeader, if_pos hheader]
    simp only
    split at hpass
    · rename_i hsize
      have hshort := (regularSection_next hat.namesMatch hheader _ _).2 result hpass
      rw [if_pos hsize]
      split
      · rename_i extent hextent
        have hlt := hshort extent hextent
        exact if_neg (by omega)
      · rfl
    · rename_i hsize
      have houtside := (jumpSection_next hat.namesMatch _ _).2 result hpass
      push_cast at houtside
      rw [if_neg hsize]
      apply if_neg
      intro hlow
      exact houtside ⟨hlow, by omega⟩
  · exact if_neg hheader

/-- The offset of the header read in a pass, if the loop gets that far. -/
def headerOffset (bytes : List UInt8) : ℕ → Option ℕ := Loop.visit (nextHeader bytes) 0

theorem atHeader_start (hbytes : bytes ≠ []) : AtHeader bytes (LoadState.start bytes) where
  chk_eq := by
    cases bytes with
    | nil => exact absurd rfl hbytes
    | cons head tail => rfl
  position_le := Nat.zero_le _
  namesMatch := by
    intro entry hentry
    cases hentry

theorem terminates_iff_headers_end (bytes : List UInt8) :
    Loop.Terminates sectionPass (LoadState.start bytes) ↔
      ∃ count, headerOffset bytes count = none := by
  by_cases hbytes : bytes = []
  · subst hbytes
    constructor
    · intro _
      exact ⟨1, by decide⟩
    · intro _
      exact ⟨none, Loop.returns_of_done rfl⟩
  · exact Loop.terminates_iff_visit_ends
      (fun state hat following hpass => nextHeader_of_next hat hpass)
      (fun state hat result hpass => nextHeader_of_done hat hpass)
      (atHeader_start hbytes)

theorem nextHeader_le {following : ℕ} (hnext : nextHeader bytes offset = some following) :
    following < bytes.length + 1 := by
  unfold nextHeader at hnext
  split at hnext
  · simp only at hnext
    split at hnext
    · split at hnext
      · split at hnext
        · have hfollowing := Option.some.inj hnext
          omega
        · cases hnext
      · cases hnext
    · split at hnext
      · have hfollowing := Option.some.inj hnext
        omega
      · cases hnext
  · cases hnext

/-- The section loop ends exactly on the files in which no header is reached
twice when each header is followed to the next one, behind its body or at the
target of its jump. -/
theorem sectionLoop_terminates_iff (bytes : List UInt8) :
    Loop.Terminates sectionPass (LoadState.start bytes) ↔
      ∀ early late, early < late → headerOffset bytes early ≠ none →
        headerOffset bytes early ≠ headerOffset bytes late := by
  rw [terminates_iff_headers_end]
  exact Loop.visit_ends_iff (nextHeader bytes) 0 (bytes.length + 1)
    (Nat.succ_pos _) (fun _ _ hnext => nextHeader_le hnext)

/-- A single header of size -8 jumps back to itself. -/
theorem sectionLoop_runs_forever : ¬ Loop.Terminates sectionPass
      (LoadState.start [74, 85, 77, 80, 248, 255, 255, 255]) := by
  rw [terminates_iff_headers_end]
  rintro ⟨count, hend⟩
  exact Loop.visit_ne_none_of_revisit Nat.zero_lt_one (by decide) (by decide) count hend

end Chkdraft.Scenario
