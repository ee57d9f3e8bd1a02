import Chkdraft.Scenario.KstrUpgrade

/-!
# Loading and saving a scenario

`Scenario::read` runs the section loop, selects the sections it uses, and fixes
the links of triggers and old editor strings.  `Scenario::write` emits every
section of `allSections` with its header.  A section object that occurs twice
in a file is emitted twice.
-/

namespace Chkdraft.Scenario

open Binary Chk Sections

namespace LoadedFile

/-- The last steps of `Scenario::read`. -/
def finish (file : LoadedFile) : Except (Fault Exception) LoadedFile := do
  let (triggers, entries) ← fixTriggerExtensions file.trigTriggers file.ktrgEntries
  (file.setTriggers triggers entries).upgradeKstrToCurrent

/-- The section objects in the order they are saved in. -/
def savedSections (file : LoadedFile) : List Section :=
  file.allSections.filterMap fun handle => file.objects[handle]?

end LoadedFile

/-- Emit sections one after the other; the first that throws ends it. -/
def writeSections : List Section → Except SectionError (List UInt8)
  | [] => .ok []
  | content :: rest => do
      let frame ← content.writeWithHeader
      let frames ← writeSections rest
      pure (frame ++ frames)

/-- `Scenario::write`, when it does not set `failbit`. -/
def LoadedFile.write (file : LoadedFile) : Except SectionError (List UInt8) :=
  writeSections file.savedSections

/-- `Scenario::read` returns true and leaves this scenario, with every access on
the way inside its object. -/
def ReadsTo (bytes : List UInt8) (file : LoadedFile) : Prop :=
  ∃ state selected, Loop.Returns sectionPass (LoadState.start bytes) (some state) ∧
    state.selectSections = some selected ∧ selected.finish = .ok file ∧
    file.memorySafe = true

section Evaluation

variable {bytes : List UInt8} (fuel : ℕ)

/-- What an evaluation of the loop and of the selection shows. -/
theorem exists_selected_of_eval {check : LoadState → LoadedFile → Bool}
    (heval : ((Loop.run sectionPass fuel (LoadState.start bytes)).join.bind
      fun state => state.selectSections.map (check state)) = some true) :
    ∃ state selected, Loop.Returns sectionPass (LoadState.start bytes) (some state) ∧
        state.selectSections = some selected ∧
        check state selected = true := by
  obtain ⟨state, hstate, hselected⟩ := Option.bind_eq_some_iff.mp heval
  obtain ⟨selected, hselect, hcheck⟩ := Option.map_eq_some_iff.mp hselected
  exact ⟨state, selected, ⟨fuel, Option.join_eq_some_iff.mp hstate⟩, hselect, hcheck⟩

theorem exists_readsTo_of_eval {check : LoadedFile → Bool}
    (heval : ((Loop.run sectionPass fuel (LoadState.start bytes)).join.bind
      fun state => state.selectSections.map fun selected =>
        match selected.finish with
        | .ok file => file.memorySafe && check file
        | .error _ => false) = some true) :
    ∃ file, ReadsTo bytes file ∧ check file = true := by
  obtain ⟨state, selected, hreturns, hselect, hcheck⟩ := exists_selected_of_eval fuel heval
  cases hfinish : selected.finish with
  | error fault =>
      rw [hfinish] at hcheck
      cases hcheck
  | ok file =>
      rw [hfinish, Bool.and_eq_true] at hcheck
      exact ⟨file, ⟨state, selected, hreturns, hselect, hfinish, hcheck.1⟩, hcheck.2⟩

end Evaluation

/-- What a scenario shows of one of its sections. -/
inductive Shown where
  | units (units : List Chk.Unit)
  | sprites (sprites : List Sprite)
  | doodads (doodads : List Doodad)
  | triggers (triggers : List Trigger)
  | locations (locations : List (Option Location))
  | tiles (tiles : List UInt16)
  | strings (characters : List ScStr)
  | other
deriving DecidableEq

/-- The records, tiles or characters of a section. -/
def shown : Section → Shown
  | .unit units => .units units
  | .thg2 sprites => .sprites sprites
  | .dd2 doodads => .doodads doodads
  | .trig triggers => .triggers triggers
  | .mbrf triggers => .triggers triggers
  | .mrgn locations => .locations locations
  | .mtxm tiles => .tiles tiles
  | .tile tiles => .tiles tiles
  | .str table => .strings table.characters
  | .kstr table => .strings table.characters
  | _ => .other

/-- The sections whose content a save and a load should keep: units, sprites,
doodads, triggers, briefing triggers, locations, tiles and strings. -/
def contentNames : List SectionName :=
  [.unit, .thg2, .dd2, .trig, .mbrf, .mrgn, .mtxm, .tile, .str, .kstr]

/-- The content of a scenario; `none` for a section it does not have. -/
def LoadedFile.content (file : LoadedFile) : List (Option Shown) :=
  contentNames.map fun name => (file.section? name).map shown

end Chkdraft.Scenario
