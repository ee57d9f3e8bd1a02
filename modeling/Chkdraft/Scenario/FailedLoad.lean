import Chkdraft.Scenario.ReadWrite

/-!
# Loads that fail

`Scenario::read` starts on whatever scenario is there.  It clears it, fills it
in while the sections are read, and clears it again when it fails: at a header,
at a section, at a jump, or when all sections are set and VER is missing.  The
parts of a scenario each have a list of section pointers to forget and a list
of section pointers that have to be null in an empty scenario.
-/

namespace Chkdraft.Scenario

open Binary Chk Sections

variable {after file : LoadedFile} {state : LoadState}

namespace LoadedFile

def clearPointers (names : List SectionName) (file : LoadedFile) : LoadedFile :=
  { file with
    pointer := fun name => if name ∈ names then none else file.pointer name }

def nullPointers (names : List SectionName) (file : LoadedFile) : Bool :=
  names.all fun name => (file.pointer name).isNone

/-- `Versions::clear`. -/
def versionsClear : LoadedFile → LoadedFile :=
  clearPointers [.struct .ver, .struct .type, .struct .iver, .struct .ive2, .struct .vcod]

/-- `Versions::empty`. -/
def versionsEmpty : LoadedFile → Bool :=
  nullPointers [.struct .ver, .struct .type, .struct .iver, .struct .ive2, .struct .vcod]

/-- `Strings::clear`. -/
def stringsClear : LoadedFile → LoadedFile :=
  clearPointers [.struct .sprp, .str, .struct .ostr, .kstr]

/-- `Strings::empty`. -/
def stringsEmpty : LoadedFile → Bool := nullPointers [.struct .sprp, .str, .struct .ostr, .kstr]

/-- `Players::clear`. -/
def playersClear : LoadedFile → LoadedFile :=
  clearPointers [.struct .side, .struct .colr, .struct .forc, .struct .ownr, .struct .iown]

/-- `Players::empty`. -/
def playersEmpty : LoadedFile → Bool :=
  nullPointers [.struct .side, .struct .colr, .struct .forc, .struct .ownr, .struct .iown]

/-- `Terrain::clear`. -/
def terrainClear : LoadedFile → LoadedFile :=
  clearPointers [.struct .era, .struct .dim, .mtxm, .tile, .isom]

/-- `Terrain::empty`. -/
def terrainEmpty : LoadedFile → Bool :=
  nullPointers [.struct .era, .struct .dim, .mtxm, .tile, .isom]

/-- `Layers::clear`. -/
def layersClear (file : LoadedFile) : LoadedFile :=
  file.terrainClear.clearPointers [.mask, .thg2, .dd2, .unit, .mrgn]

/-- `Layers::empty`. -/
def layersEmpty (file : LoadedFile) : Bool :=
  file.terrainEmpty && file.nullPointers [.mask, .thg2, .dd2, .unit, .mrgn]

/-- `Properties::clear`. -/
def propertiesClear : LoadedFile → LoadedFile :=
  clearPointers [.struct .unis, .struct .unix, .struct .puni, .struct .upgs,
    .struct .upgx, .struct .upgr, .struct .pupx, .struct .tecs,
    .struct .tecx, .struct .ptec, .struct .ptex]

/-- `Properties::empty`. -/
def propertiesEmpty : LoadedFile → Bool :=
  nullPointers [.struct .unis, .struct .unix, .struct .puni, .struct .upgs,
    .struct .upgx, .struct .upgr, .struct .pupx, .struct .tecs,
    .struct .tecx, .struct .ptec, .struct .ptex]

/-- `Triggers::clear`. -/
def triggersClear : LoadedFile → LoadedFile :=
  clearPointers [.struct .uprp, .struct .upus, .trig, .mbrf, .struct .swnm,
    .struct .wav, .ktrg, .ktgp]

/-- `Triggers::empty`. -/
def triggersEmpty : LoadedFile → Bool :=
  nullPointers [.struct .uprp, .struct .upus, .trig, .mbrf, .struct .swnm,
    .struct .wav, .ktrg, .ktgp]

/-- The calls of `clear` on the parts of a scenario. -/
def clearParts (file : LoadedFile) : LoadedFile :=
  file.stringsClear.triggersClear.layersClear.propertiesClear.playersClear
    |>.versionsClear

/-- `Scenario::clear`.  The section objects are freed with the last pointers
to them. -/
def clear (file : LoadedFile) : LoadedFile :=
  { file.clearParts with
    objects := []
    allSections := []
    tailData := file.tailData.map fun _ => 0
    tailLength := 0
    jumpCompress := false
    mapIsProtected := false }

/-- `Scenario::empty`. -/
def empty (file : LoadedFile) : Bool :=
  file.allSections.isEmpty && file.tailLength == 0 && file.versionsEmpty &&
    file.stringsEmpty && file.playersEmpty && file.layersEmpty &&
    file.propertiesEmpty && file.triggersEmpty

theorem clearPointers_clearPointers (first second : List SectionName) (file : LoadedFile) :
    (file.clearPointers first).clearPointers second = file.clearPointers (first ++ second) := by
  simp only [clearPointers, LoadedFile.mk.injEq, true_and, and_true]
  funext name
  by_cases hfirst : name ∈ first <;> by_cases hsecond : name ∈ second <;>
    simp [hfirst, hsecond]

/-- The parts forget the pointer to a section of every class. -/
theorem pointer_clearParts (file : LoadedFile) {name : SectionName}
    (hname : name ∈ SectionName.known) :
    file.clearParts.pointer name = none := by
  simp only [clearParts, stringsClear, triggersClear, layersClear, terrainClear,
    propertiesClear, playersClear, versionsClear, clearPointers_clearPointers]
  exact if_pos ((show SectionName.known ⊆ _ by decide) hname)

theorem nullPointers_iff {names : List SectionName} :
    file.nullPointers names = true ↔ ∀ name ∈ names, file.pointer name = none := by
  simp [nullPointers]

/-- What `Scenario::empty` looks at. -/
theorem empty_of_null (hsections : file.allSections = []) (htail : file.tailLength = 0)
    (hnull : ∀ name ∈ SectionName.known, file.pointer name = none) :
    file.empty = true := by
  have hparts : ∀ names ⊆ SectionName.known, file.nullPointers names = true := by
    intro names hnames
    exact nullPointers_iff.mpr fun name hname => hnull name (hnames hname)
  simp only [empty, versionsEmpty, stringsEmpty, playersEmpty, layersEmpty, terrainEmpty,
    propertiesEmpty, triggersEmpty, hsections, htail, Bool.and_eq_true]
  refine ⟨⟨⟨⟨⟨⟨⟨rfl, rfl⟩, ?_⟩, ?_⟩, ?_⟩, ?_, ?_⟩, ?_⟩, ?_⟩ <;>
    exact hparts _ (by decide)

/-- A cleared scenario is empty and has neither flag. -/
structure Blank (file : LoadedFile) : Prop where
  empty_eq : file.empty = true
  mapIsProtected_eq : file.mapIsProtected = false
  jumpCompress_eq : file.jumpCompress = false

theorem blank_clear (file : LoadedFile) : file.clear.Blank where
  empty_eq := empty_of_null rfl rfl fun _ hname => file.pointer_clearParts hname
  mapIsProtected_eq := rfl
  jumpCompress_eq := rfl

/-- `Scenario::parsingFailed`. -/
def parsingFailed (file : LoadedFile) : Bool × LoadedFile := (false, file.clear)

/-- The members of the scenario as the section loop has left them. -/
def loading (file : LoadedFile) (state : LoadState) : LoadedFile :=
  { file with
    objects := state.objects
    allSections := state.allSections
    tailData := state.tailData
    tailLength := state.tailLength
    mapIsProtected := state.mapIsProtected
    jumpCompress := state.jumpCompress
    memorySafe := state.memorySafe }

/-- The defaults that are set when there is no VER section. -/
def unversionedDefaults : List (SectionName × Section) := (plainDefaults 0).filter fun entry =>
    entry.1 ∉ [.struct .type, .struct .iver, .struct .ive2]

/-- `Scenario::read` behind the section loop: every part gets its sections and
its defaults before VER is looked for. -/
def finishRead (file : LoadedFile) (state : LoadState) :
    Except (Fault Exception) (Bool × LoadedFile) :=
  let set := { file with pointer := state.selected }
  match set.struct? .ver with
  | none =>
      .ok (set.addDimensionDefaults.addDefaults unversionedDefaults).parsingFailed
  | some ver => (set.setMissing ver).finish.map fun finished => (true, finished)

/-- What `Scenario::read` returns and leaves once the loop is left: a pass that
fails has not changed the scenario. -/
def leaveLoop (file : LoadedFile) (state : LoadState) :
    Option LoadState → Except (Fault Exception) (Bool × LoadedFile)
  | none => .ok (file.loading state).parsingFailed
  | some last => (file.loading last).finishRead last

/-- The loop starts with the members of the cleared scenario. -/
def loadState (file : LoadedFile) (bytes : List UInt8) : LoadState :=
  { LoadState.start bytes with
    objects := file.objects
    allSections := file.allSections
    tailData := file.tailData
    tailLength := file.tailLength
    mapIsProtected := file.mapIsProtected
    jumpCompress := file.jumpCompress }

/-- `Scenario::read` over any scenario, if `fuel` passes are enough: the value
it returns with the scenario it leaves, or the exception it ends with. -/
def read (fuel : ℕ) (file : LoadedFile) (is : InputStream) :
    Option (Except (Fault Exception) (Bool × LoadedFile)) :=
  if is.good = false ∧ is.eof = false then
    some (.ok (false, file.clear))
  else
    Loop.run (Loop.mapDone file.clear.leaveLoop sectionPass) fuel
      (file.clear.loadState is.remaining)

/-- An attempt whose success counts as true does not end with false. -/
theorem map_true_ne_false (attempt : Except (Fault Exception) LoadedFile) (after : LoadedFile) :
    attempt.map (fun finished => (true, finished)) ≠ .ok (false, after) := by
  cases attempt <;> simp [Except.map]

theorem finishRead_eq_false (hfinish : file.finishRead state = .ok (false, after)) :
    ∃ failed : LoadedFile, after = failed.clear := by
  unfold finishRead at hfinish
  dsimp only at hfinish
  split at hfinish
  · simp only [parsingFailed, Except.ok.injEq, Prod.mk.injEq] at hfinish
    exact ⟨_, hfinish.2.symm⟩
  · exact absurd hfinish (map_true_ne_false _ after)

/-- However the loop is left, a load that fails clears the scenario last. -/
theorem leaveLoop_eq_false {result : Option LoadState}
    (hleave : file.leaveLoop state result = .ok (false, after)) :
    ∃ failed : LoadedFile, after = failed.clear := by
  cases result with
  | none =>
      simp only [leaveLoop, parsingFailed, Except.ok.injEq, Prod.mk.injEq] at hleave
      exact ⟨_, hleave.2.symm⟩
  | some last => exact finishRead_eq_false hleave

/-- Wherever a load fails, nothing of the scenario that was there before or of
the sections read so far is left. -/
theorem blank_of_read_false {fuel : ℕ} {file after : LoadedFile}
    {is : InputStream}
    (hread : file.read fuel is = some (.ok (false, after))) :
    after.empty = true ∧ after.mapIsProtected = false ∧ after.jumpCompress = false := by
  obtain ⟨failed, rfl⟩ : ∃ failed : LoadedFile, after = failed.clear := by
    unfold read at hread
    split at hread
    · simp only [Option.some.injEq, Except.ok.injEq, Prod.mk.injEq] at hread
      exact ⟨file, hread.2.symm⟩
    · obtain ⟨state, result, -, -, hleave⟩ := Loop.returns_mapDone_iff.mp ⟨fuel, hread⟩
      exact leaveLoop_eq_false hleave
  obtain ⟨hempty, hprotected, hjump⟩ := failed.blank_clear
  exact ⟨hempty, hprotected, hjump⟩

/-- A scenario whose every pointer is set, and a file with one section and a
jump to in front of its start. -/
theorem blank_of_read_jump : ∃ after : LoadedFile,
      LoadedFile.read 2 ⟨[.dd2 []], [0], fun _ => some 0,
        [1, 2, 3, 0, 0, 0, 0], 3, true, true, true⟩
        (InputStream.ofBytes [68, 68, 50, 32, 0, 0, 0, 0,
          74, 85, 77, 80, 239, 255, 255, 255]) = some (.ok (false, after)) ∧
      after.empty = true ∧ after.mapIsProtected = false ∧
      after.jumpCompress = false := by
  refine Iff.mpr (exists_congr fun after => and_iff_left_of_imp ?_) ⟨_, rfl⟩
  exact blank_of_read_false

end LoadedFile

end Chkdraft.Scenario
