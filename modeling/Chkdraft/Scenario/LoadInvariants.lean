import Chkdraft.Scenario.ReadWrite
import Chkdraft.Scenario.SectionReload

/-!
# What a load establishes

The numbers of the section objects follow from the sequence of section names
alone: a name whose sections append or override takes the object it had before,
any other takes the next number.  The loop keeps this, and the steps behind the
loop keep the number, the class and the well-formedness of every object.
-/

namespace Chkdraft.Scenario

open Binary Chk Sections

variable {front rest : List (UInt32 × ℕ)} {count : ℕ} {following : LoadState}

variable {code : UInt32} {handle : ℕ} {state : LoadState}

/-- The object a name is read into again, given the sections parsed so far. -/
def existingIn (parsed : List (UInt32 × ℕ)) (code : UInt32) : Option ℕ :=
  if (SectionName.ofCode code).loadBehavior = .standard then
    none
  else
    (parsed.find? fun entry => entry.1 = code).map Prod.snd

/-- One more name: the entry it gets and the number of objects then. -/
def numberNext (numbered : List (UInt32 × ℕ) × ℕ) (code : UInt32) : List (UInt32 × ℕ) × ℕ :=
  match existingIn numbered.1 code with
  | some handle => (numbered.1 ++ [(code, handle)], numbered.2)
  | none => (numbered.1 ++ [(code, numbered.2)], numbered.2 + 1)

/-- The entries of a sequence of names and the number of their objects. -/
def numberNames (codes : List UInt32) : List (UInt32 × ℕ) × ℕ := codes.foldl numberNext ([], 0)

theorem numberNames_append (codes : List UInt32) (code : UInt32) :
    numberNames (codes ++ [code]) = numberNext (numberNames codes) code := by
  rw [numberNames, List.foldl_append]
  rfl

theorem map_fst_numberNext (numbered : List (UInt32 × ℕ) × ℕ) (code : UInt32) :
    (numberNext numbered code).1.map Prod.fst = numbered.1.map Prod.fst ++ [code] := by
  unfold numberNext
  split <;> simp

theorem map_fst_numberNames (codes : List UInt32) : (numberNames codes).1.map Prod.fst = codes := by
  induction codes using List.reverseRecOn with
  | nil => rfl
  | append_singleton codes code ih =>
      rw [numberNames_append, map_fst_numberNext, ih]

theorem numberNames_isPrefix (codes more : List UInt32) :
    (numberNames codes).1 <+: (numberNames (codes ++ more)).1 := by
  induction more using List.reverseRecOn with
  | nil => rw [List.append_nil]
  | append_singleton more code ih =>
      rw [← List.append_assoc, numberNames_append]
      refine ih.trans ?_
      unfold numberNext
      split
      · exact List.prefix_append _ _
      · exact List.prefix_append _ _

/-- The entries of the first names do not depend on those behind. -/
theorem fst_numberNames_of_append
    (hnumbered : (numberNames ((front ++ rest).map Prod.fst)).1 = front ++ rest) :
    (numberNames (front.map Prod.fst)).1 = front := by
  have hprefix := numberNames_isPrefix (front.map Prod.fst) (rest.map Prod.fst)
  rw [← List.map_append, hnumbered] at hprefix
  have hlength : (numberNames (front.map Prod.fst)).1.length =
      front.length := by
    have hnames := congrArg List.length (map_fst_numberNames (front.map Prod.fst))
    rwa [List.length_map, List.length_map] at hnames
  exact (List.prefix_of_prefix_length_le hprefix (List.prefix_append front rest)
    hlength.le).eq_of_length hlength

/-- The object of the next name: the one it had before or a new one. -/
theorem existingIn_of_numberNames (hnumbered : (numberNames ((front ++ (code, handle) :: rest).map
      Prod.fst)).1 = front ++ (code, handle) :: rest)
    (hfront : numberNames (front.map Prod.fst) = (front, count)) :
    existingIn front code = some handle ∨ existingIn front code = none ∧ handle = count := by
  have hnext : (numberNames ((front ++ [(code, handle)]).map Prod.fst)).1 =
      front ++ [(code, handle)] := by
    have hsplit : front ++ (code, handle) :: rest = front ++ [(code, handle)] ++ rest := by
      rw [List.append_assoc, List.singleton_append]
    rw [hsplit] at hnumbered
    exact fst_numberNames_of_append hnumbered
  rw [List.map_append, List.map_singleton, numberNames_append, hfront, numberNext] at hnext
  cases hexisting : existingIn front code with
  | some found =>
      left
      rw [hexisting] at hnext
      have hlast := List.append_cancel_left hnext
      rw [(Prod.mk.inj (List.cons.inj hlast).1).2]
  | none =>
      right
      rw [hexisting] at hnext
      have hlast := List.append_cancel_left hnext
      exact ⟨rfl, (Prod.mk.inj (List.cons.inj hlast).1).2.symm⟩

/-- All sections of a name that appends or overrides are one object. -/
theorem existingIn_of_mem {codes : List UInt32}
    (hbehavior : (SectionName.ofCode code).loadBehavior ≠ .standard)
    (hmem : (code, handle) ∈ (numberNames codes).1) :
    existingIn (numberNames codes).1 code = some handle := by
  induction codes using List.reverseRecOn with
  | nil => cases hmem
  | append_singleton codes next ih =>
      rw [numberNames_append] at hmem ⊢
      have hfound : ∀ (parsed more : List (UInt32 × ℕ)) (found : ℕ),
          existingIn parsed code = some found →
          existingIn (parsed ++ more) code = some found := by
        intro parsed more found hexisting
        rw [existingIn, if_neg hbehavior] at hexisting ⊢
        obtain ⟨entry, hentry, hhandle⟩ := Option.map_eq_some_iff.mp hexisting
        rw [List.find?_append, hentry, Option.some_or, Option.map_some, hhandle]
      unfold numberNext at hmem ⊢
      cases hexisting : existingIn (numberNames codes).1 next with
      | some found =>
          rw [hexisting] at hmem
          apply hfound
          rcases List.mem_append.mp hmem with hbefore | hlast
          · exact ih hbefore
          · obtain ⟨rfl, rfl⟩ := Prod.mk.inj (List.mem_singleton.mp hlast)
            exact hexisting
      | none =>
          rw [hexisting] at hmem
          rcases List.mem_append.mp hmem with hbefore | hlast
          · exact hfound _ _ _ (ih hbefore)
          · obtain ⟨rfl, rfl⟩ := Prod.mk.inj (List.mem_singleton.mp hlast)
            rw [existingIn, if_neg hbehavior, Option.map_eq_none_iff] at hexisting
            rw [existingIn, if_neg hbehavior, List.find?_append, hexisting,
              Option.none_or, List.find?_singleton]
            simp

/-- The trailing bytes: seven, of which a partial header takes some or none. -/
structure TailWhole (tailData : List UInt8) (tailLength : ℕ) : Prop where
  length_eq : tailData.length = 7
  length_le : tailLength ≤ 7
  blank : tailLength = 0 → tailData = List.replicate 7 0

theorem tailWhole_of_partialHeader {headerBytes : List UInt8}
    (hpos : headerBytes.length ≠ 0) (hlt : headerBytes.length < 8) :
    TailWhole (headerBytes ++ List.replicate (7 - headerBytes.length) 0) headerBytes.length where
  length_eq := by
    rw [List.length_append, List.length_replicate]
    omega
  length_le := by omega
  blank := fun hzero => absurd hzero hpos

/-- What every pass of the loop keeps. -/
structure Consistent (state : LoadState) : Prop where
  numbered : (state.parsedSections, state.objects.length) =
    numberNames (state.parsedSections.map Prod.fst)
  allSections_eq : state.allSections = state.parsedSections.map Prod.snd
  namesMatch : NamesMatch state
  wellFormed : ∀ content ∈ state.objects, WellFormed content
  tailWhole : TailWhole state.tailData state.tailLength

/-- Everything a pass can do to the sections, whether the loop goes on or
leaves: nothing, apart from keeping a partial header, or adding one section. -/
theorem sectionPass_cases (hpass : sectionPass state = .next following ∨
      sectionPass state = .done (some following)) :
    (following.objects = state.objects ∧ following.parsedSections = state.parsedSections ∧
      following.allSections = state.allSections ∧
      (TailWhole state.tailData state.tailLength →
        TailWhole following.tailData following.tailLength)) ∨
    ∃ code size chk content sizeRead,
      (state.readSection code size chk).2.result = .ok (content, sizeRead) ∧
      following = state.addSection code size (state.readSection code size chk).1
        (state.readSection code size chk).2 content sizeRead := by
  have hcontinue : ∀ middle : LoadState, middle.continue = .next following ∨
        middle.continue = .done (some following) → following = middle := by
    intro middle hmiddle
    unfold LoadState.continue at hmiddle
    split at hmiddle
    · rcases hmiddle with hnext | hdone
      · exact (Loop.Control.next.inj hnext).symm
      · cases hdone
    · rcases hmiddle with hnext | hdone
      · cases hnext
      · exact (Option.some.inj (Loop.Control.done.inj hdone)).symm
  have hregular : ∀ (code : UInt32) (size : ℕ) (chk : InputStream),
      state.regularSection code size chk = .next following ∨
        state.regularSection code size chk = .done (some following) →
      ∃ content sizeRead, (state.readSection code size chk).2.result = .ok (content, sizeRead) ∧
        following = state.addSection code size (state.readSection code size chk).1
          (state.readSection code size chk).2 content sizeRead := by
    intro code size chk hbranch
    unfold LoadState.regularSection at hbranch
    simp only at hbranch
    cases hresult : (state.readSection code size chk).2.result with
    | error error =>
        simp only [hresult] at hbranch
        rcases hbranch with hnext | hdone
        · cases hnext
        · cases hdone
    | ok value =>
        obtain ⟨content, sizeRead⟩ := value
        simp only [hresult] at hbranch
        split at hbranch
        · exact ⟨content, sizeRead, rfl, hcontinue _ hbranch⟩
        · rcases hbranch with hnext | hdone
          · cases hnext
          · cases hdone
  unfold sectionPass at hpass
  simp only at hpass
  generalize hcount : (if (state.chk.read 8).2.good = true then 8
    else if (state.chk.read 8).2.eof = true then (state.chk.read 8).1.length
    else 0) = headerBytesRead at hpass
  split at hpass
  · -- The end of the file.
    left
    rcases hpass with hnext | hdone
    · cases hnext
    · rw [← Option.some.inj (Loop.Control.done.inj hdone)]
      exact ⟨rfl, rfl, rfl, id⟩
  · split at hpass
    · rcases hpass with hnext | hdone
      · cases hnext
      · cases hdone
    · split at hpass
      · split at hpass
        · obtain ⟨content, sizeRead, hresult, hfollowing⟩ := hregular _ _ _ hpass
          exact Or.inr ⟨_, _, _, content, sizeRead, hresult, hfollowing⟩
        · left
          unfold LoadState.jumpSection at hpass
          simp only at hpass
          split at hpass
          · rw [hcontinue _ hpass]
            exact ⟨rfl, rfl, rfl, id⟩
          · rcases hpass with hnext | hdone
            · cases hnext
            · cases hdone
      · left
        rename_i hpos height
        have hlength : headerBytesRead = (state.chk.read 8).1.length := by
          split at hcount
          · exact absurd hcount.symm height
          · split at hcount
            · exact hcount.symm
            · exact absurd hcount.symm hpos
        have hle := InputStream.length_fst_read_le 8 state.chk
        rw [hcontinue _ hpass]
        refine ⟨rfl, rfl, rfl, fun _ => ?_⟩
        rw [hlength] at hpos height ⊢
        exact tailWhole_of_partialHeader hpos (by omega)

/-- The object a section was read into: the one its name had before, or a new
one. -/
theorem readSection_cases (hnames : NamesMatch state) (code : UInt32)
    (size : ℕ) (chk : InputStream) :
    (∃ handle old, existingIn state.parsedSections code = some handle ∧
      state.objects[handle]? = some old ∧ old.name = .ofCode code ∧
      state.readSection code size chk = (handle, old.read size true chk)) ∨
    (existingIn state.parsedSections code = none ∧ state.readSection code size chk =
        (state.objects.length, (Section.allocate (.ofCode code)).read size false chk)) := by
  cases hexisting : state.existing code with
  | none =>
      right
      refine ⟨hexisting, ?_⟩
      rw [LoadState.readSection, hexisting]
  | some handle =>
      left
      obtain ⟨old, hobject, hname⟩ := exists_of_existing hnames hexisting
      refine ⟨handle, old, hexisting, hobject, hname, ?_⟩
      simp only [LoadState.readSection, hexisting,
        List.getD_eq_getElem?_getD, hobject, Option.getD_some]

theorem numbered_addSection (hconsistent : Consistent state)
    (hnext : numberNext (state.parsedSections, state.objects.length) code =
      (state.parsedSections ++ [(code, handle)], count)) :
    (state.parsedSections ++ [(code, handle)], count) =
      numberNames ((state.parsedSections ++ [(code, handle)]).map Prod.fst) := by
  rw [List.map_append, List.map_singleton, numberNames_append, ← hconsistent.numbered, hnext]

theorem consistent_addSection (hconsistent : Consistent state)
    {size sizeRead : ℕ} {chk : InputStream} {content : Section}
    (hresult : (state.readSection code size chk).2.result = .ok (content, sizeRead)) :
    Consistent (state.addSection code size (state.readSection code size chk).1
      (state.readSection code size chk).2 content sizeRead) := by
  have hsaved : ∀ handle outcome, (state.addSection code size handle outcome content
        sizeRead).allSections =
      (state.addSection code size handle outcome content sizeRead).parsedSections.map Prod.snd := by
    intro handle outcome
    simp only [LoadState.addSection, List.map_append, List.map_singleton,
      hconsistent.allSections_eq]
  rcases readSection_cases hconsistent.namesMatch code size chk with
    ⟨handle, old, hexisting, hobject, hold, hread⟩ | ⟨hexisting, hread⟩
  · rw [hread] at hresult ⊢
    have hlt := (List.getElem?_eq_some_iff.mp hobject).1
    have hobjects : (state.addSection code size handle
        (old.read size true chk) content sizeRead).objects =
        state.objects.set handle content := if_pos hlt
    refine ⟨?_, hsaved _ _, ?_, ?_, hconsistent.tailWhole⟩
    · rw [hobjects, List.length_set]
      apply numbered_addSection hconsistent
      simp only [numberNext, hexisting]
    · exact namesMatch_addSection hconsistent.namesMatch
        ((name_of_read hresult).trans hold) hold (Or.inr hobject)
    · intro other hother
      rw [hobjects] at hother
      rcases List.mem_or_eq_of_mem_set hother with hbefore | rfl
      · exact hconsistent.wellFormed other hbefore
      · exact wellFormed_read (fun _ => hconsistent.wellFormed old (List.mem_of_getElem? hobject))
          hresult
  · rw [hread] at hresult ⊢
    have hname := Section.name_allocate (.ofCode code)
    have hobjects : (state.addSection code size state.objects.length
        ((Section.allocate (.ofCode code)).read size false chk) content
        sizeRead).objects = state.objects ++ [content] :=
      if_neg (lt_irrefl _)
    refine ⟨?_, hsaved _ _, ?_, ?_, hconsistent.tailWhole⟩
    · rw [hobjects, List.length_append, List.length_singleton]
      apply numbered_addSection hconsistent
      simp only [numberNext, hexisting]
    · exact namesMatch_addSection hconsistent.namesMatch
        ((name_of_read hresult).trans hname) hname (Or.inl rfl)
    · intro other hother
      rw [hobjects] at hother
      rcases List.mem_append.mp hother with hbefore | hnew
      · exact hconsistent.wellFormed other hbefore
      · rw [List.mem_singleton.mp hnew]
        exact wellFormed_read (fun h => by cases h) hresult

theorem consistent_of_pass (hconsistent : Consistent state)
    (hpass : sectionPass state = .next following ∨
      sectionPass state = .done (some following)) : Consistent following := by
  rcases sectionPass_cases hpass with ⟨hobjects, hparsed, hsaved, htail⟩ |
    ⟨code, size, chk, content, sizeRead, hresult, rfl⟩
  · refine ⟨?_, ?_, ?_, ?_, htail hconsistent.tailWhole⟩
    · rw [hobjects, hparsed]
      exact hconsistent.numbered
    · rw [hsaved, hparsed]
      exact hconsistent.allSections_eq
    · intro entry hentry
      rw [hparsed] at hentry
      rw [hobjects]
      exact hconsistent.namesMatch entry hentry
    · rw [hobjects]
      exact hconsistent.wellFormed
  · exact consistent_addSection hconsistent hresult

theorem consistent_start (bytes : List UInt8) : Consistent (LoadState.start bytes) := by
  refine ⟨rfl, rfl, ?_, ?_, ⟨rfl, Nat.zero_le 7, fun _ => rfl⟩⟩
  · intro entry hentry
    cases hentry
  · intro content hcontent
    cases hcontent

theorem consistent_of_returns {bytes : List UInt8}
    (hreturns : Loop.Returns sectionPass (LoadState.start bytes) (some state)) :
    Consistent state := by
  obtain ⟨last, hreaches, hdone⟩ := Loop.returns_iff_reaches_done.mp hreturns
  have hlast : Consistent last := by
    apply hreaches.invariant (consistent_start bytes)
    intro state following hstate hnext
    exact consistent_of_pass hstate (Or.inl hnext)
  exact consistent_of_pass hlast (Or.inr hdone)

end Chkdraft.Scenario
