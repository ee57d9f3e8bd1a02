import Chkdraft.Editor.MapActions

/-!
# The flag for unsaved changes

The counters say how many edits of each type the map is ahead of the saved
content, or how many undone edits behind.  An edit behind the saved content
counts forward as if it led to the saved content, and so does the redo of an
action from before the last edit.
-/

namespace Chkdraft.Editor

open Undo

variable {K E : Type} {R : Reversibles K E}

namespace GuiMap

theorem getD_adjustedCounter (counter : Option ℤ) (adjustBy : ℤ) :
    (adjustedCounter counter adjustBy).getD 0 = counter.getD 0 + adjustBy := by
  cases counter with
  | none => simp [adjustedCounter]
  | some count =>
      by_cases hzero : count + adjustBy = 0
      · simp [adjustedCounter, hzero]
      · simp [adjustedCounter, hzero]

theorem adjustedCounter_ne_zero (counter : Option ℤ) {adjustBy : ℤ}
    (hadjust : adjustBy ≠ 0) : adjustedCounter counter adjustBy ≠ some 0 := by
  cases counter with
  | none => simpa [adjustedCounter] using hadjust
  | some count =>
      by_cases hzero : count + adjustBy = 0
      · simp [adjustedCounter, hzero]
      · simp [adjustedCounter, hzero]

end GuiMap

variable [DecidableEq K] [Fintype K]

/-- An action takes an edit back if reversing it does. -/
def exactSwappings (R : Reversibles K E) : Swappings R := fun type => exactly (R.reverse type)

namespace Session

/-- Edits are not made behind the saved content. -/
def Ahead (session : Session R) : Command R → Prop
  | .edit type change => ∀ after action,
      change (session.map.content type) = .ok (after, action) →
        0 < R.count action → 0 ≤ (session.map.changeCounters type).getD 0
  | _ => True

/-- The edits are undoable and not made behind the saved content, and what is
redone was undone since the last edit of its type. -/
def Meets (session : Session R) (command : Command R) : Prop :=
  session.Replayable (exactSwappings R) command ∧ session.Ahead command

/-- The counters lead to the saved content, and the flag says whether there is
one. -/
structure Counted (session : Session R) : Prop where
  balanced : ∀ type, Balanced (exactSwappings R type) ((session.map.changeCounters type).getD 0)
    (ofType type session.map.undos) (ofType type session.map.redos)
    (session.fresh type) (session.map.content type) (session.saved type)
  nonzero : ∀ type, session.map.changeCounters type ≠ some 0
  flagged : session.map.unsavedChanges = true ↔ ∃ type, session.map.changeCounters type ≠ none
  unlocked : session.map.changeLock = false

variable {session next : Session R}

theorem Counted.replaced (hcounted : session.Counted) {type : K}
    {content : R.Content type} {undos redos : List (Σ type, R.Action type)}
    {fresh : ℕ} {adjustBy : ℤ} (hadjust : adjustBy ≠ 0)
    (hundos : ∀ other ≠ type, ofType other undos = ofType other session.map.undos)
    (hredos : ∀ other ≠ type, ofType other redos = ofType other session.map.redos)
    (hbalanced : Balanced (exactSwappings R type)
      ((session.map.changeCounters type).getD 0 + adjustBy) (ofType type undos)
      (ofType type redos) fresh content (session.saved type)) :
    (session.setFresh type fresh (session.map.replaced type content undos redos
      adjustBy)).Counted := by
  constructor
  · intro other
    simp only [setFresh, GuiMap.replaced_undos, GuiMap.replaced_redos,
      GuiMap.replaced_content, GuiMap.replaced_changeCounters]
    by_cases hother : other = type
    · subst hother
      simpa [GuiMap.getD_adjustedCounter] using hbalanced
    · rw [Function.update_of_ne hother, Function.update_of_ne hother,
        Function.update_of_ne hother, hundos other hother, hredos other hother]
      exact hcounted.balanced other
  · intro other
    simp only [setFresh, GuiMap.replaced_changeCounters]
    by_cases hother : other = type
    · subst hother
      rw [Function.update_self]
      exact GuiMap.adjustedCounter_ne_zero _ hadjust
    · rw [Function.update_of_ne hother]
      exact hcounted.nonzero other
  · have hlock := hcounted.unlocked
    simp only [setFresh, GuiMap.replaced, GuiMap.adjustChangeCount,
      GuiMap.notifyObserver_changeCounters]
    exact GuiMap.notifyObserver_unsavedChanges hlock
  · simpa [setFresh] using hcounted.unlocked

omit [Fintype K] in
theorem Counted.save (hcounted : session.Counted) : ({ session with
      map := session.map.saveFile
      saved := session.map.content } : Session R).Counted := by
  have hnone : session.map.saveFile.changeCounters = fun _ => none := by
    unfold GuiMap.saveFile
    split
    · rfl
    · rename_i hsaved
      have hnone := mt hcounted.flagged.mpr hsaved
      simp only [not_exists, not_not] at hnone
      exact funext hnone
  have hflag : session.map.saveFile.unsavedChanges = false := by
    unfold GuiMap.saveFile
    split
    · rfl
    · rename_i hsaved
      exact Bool.eq_false_iff.mpr hsaved
  refine ⟨fun type => ?_, fun type => ?_, ?_, ?_⟩
  · simp only [hnone, GuiMap.saveFile_content, Option.getD_none]
    exact balanced_zero_iff.mpr rfl
  · simp [hnone]
  · simp [hnone, hflag]
  · change session.map.saveFile.changeLock = false
    unfold GuiMap.saveFile
    split <;> rfl

theorem Counted.moves {command : Command R} (hcounted : session.Counted)
    (hahead : session.Ahead command)
    (hmoves : session.Moves (exactSwappings R) command next) :
    next.Counted := by
  cases hmoves with
  | idle => exact hcounted
  | @edit type action back content change hchange hcount hswaps =>
      apply hcounted.replaced one_ne_zero
      · exact fun other hother => ofType_cons_of_ne hother.symm _ _
      · exact fun _ _ => rfl
      · rw [ofType_cons_self]
        exact (hcounted.balanced type).edit (hahead content action hchange hcount) hswaps
  | @undo type action back content undos hpop hswaps =>
      obtain ⟨hcons, hkept⟩ := ofType_of_pop hpop
      apply hcounted.replaced (by decide)
      · exact hkept
      · exact fun other hother => ofType_cons_of_ne hother.symm _ _
      · rw [ofType_cons_self]
        exact (hcons ▸ hcounted.balanced type).undo hswaps
  | @redo type action back content redos hpop hfresh hswaps =>
      obtain ⟨hcons, hkept⟩ := ofType_of_pop hpop
      apply hcounted.replaced one_ne_zero
      · exact fun other hother => ofType_cons_of_ne hother.symm _ _
      · exact hkept
      · have hbalanced := hcounted.balanced type
        rw [hcons, ← Nat.sub_add_cancel hfresh] at hbalanced
        rw [ofType_cons_self]
        exact hbalanced.redo hswaps
  | save => exact hcounted.save

omit [Fintype K] in
theorem counted_opened (start : (type : K) → R.Content type) : (opened start).Counted where
  balanced _ := balanced_zero_iff.mpr rfl
  nonzero _ := by simp [opened, GuiMap.opened]
  flagged := by simp [opened, GuiMap.opened]
  unlocked := rfl

/-- The flag never lies in a run: whenever it is not set, the content is that of
the last save, or of the start. -/
def FlagHolds (start : (type : K) → R.Content type) (commands : List (Command R)) : Prop :=
  ∀ done rest, commands = done ++ rest → ∃ session, (opened start).run done = .ok session ∧
      (session.map.unsavedChanges = false → session.map.content = session.saved)

/-- In a run whose steps meet their conditions the flag never lies. -/
theorem flagHolds_of_meets {start : (type : K) → R.Content type}
    {commands : List (Command R)}
    (hmeets : Fault.MeetsAlong step Meets (opened start) commands) :
    FlagHolds start commands := by
  rintro done rest rfl
  have hstep : ∀ (session : Session R) command,
      session.Replays (exactSwappings R) start ∧ session.Counted →
        session.Meets command → ∃ next, session.step command = .ok next ∧
          next.Replays (exactSwappings R) start ∧ next.Counted := by
    rintro session command ⟨hreplays, hcounted⟩ ⟨hreplayable, hahead⟩
    obtain ⟨next, hnext, hmoves⟩ := step_moves hreplays hreplayable
    exact ⟨next, hnext, hreplays.moves hmoves, hcounted.moves hahead hmoves⟩
  obtain ⟨session, hsession, -, hcounted⟩ := hmeets.of_append.run hstep
    ⟨replays_opened (exactSwappings R) start, counted_opened start⟩
  refine ⟨session, hsession, fun hflag => funext fun type => ?_⟩
  have hnone : session.map.changeCounters type = none := by
    by_contra hsome
    rw [hcounted.flagged.mpr ⟨type, hsome⟩] at hflag
    cases hflag
  have hbalanced := hcounted.balanced type
  rw [hnone, Option.getD_none] at hbalanced
  exact balanced_zero_iff.mp hbalanced

end Session

/-! ### Tiles set one after the other -/

/-- `GuiMap::SetTile`, without the drawing. -/
def setTileCommand (x y : UInt16) (tileNum : UInt16) : Command reversibles :=
  .edit .tileChange fun (layers : Scenario.Layers) => do
    if layers.tileWidth < x ∨ layers.tileHeight < y then
      return (layers, .actions (.make []))
    else
      let tileValue ← getTile layers x.toNat y.toNat
      let changed ← setTile layers x.toNat y.toNat tileNum
      return (changed, .action ⟨x, y, tileValue⟩)

/-- A tile is set, the map is saved, and another change is undone. -/
theorem flagHolds_setTile :
    Fault.MeetsAlong Session.step Session.Meets (Session.opened (smallMap []))
        [setTileCommand 0 0 1, .save, setTileCommand 0 0 2, .undo .tileChange] ∧
      Session.FlagHolds (smallMap [])
        [setTileCommand 0 0 1, .save, setTileCommand 0 0 2, .undo .tileChange] := by
  have hmeets : Fault.MeetsAlong Session.step Session.Meets (Session.opened (smallMap []))
      [setTileCommand 0 0 1, .save, setTileCommand 0 0 2, .undo .tileChange] := by
    refine ⟨⟨⟨_, _, rfl, nofun, fun _ => ⟨_, rfl, rfl⟩⟩, fun _ _ _ _ =>
      Int.le_refl 0⟩, ?_⟩
    rintro first ⟨⟩
    refine ⟨⟨trivial, trivial⟩, ?_⟩
    rintro second ⟨⟩
    refine ⟨⟨⟨_, _, rfl, nofun, fun _ => ⟨_, rfl, rfl⟩⟩, fun _ _ _ _ =>
      Int.le_refl 0⟩, ?_⟩
    rintro third ⟨⟩
    exact ⟨⟨trivial, trivial⟩, fun _ _ => trivial⟩
  exact ⟨hmeets, Session.flagHolds_of_meets hmeets⟩

/-- The saved tile is undone and another one set: the edit counts as if it led
back to the saved tile. -/
theorem setTile_behind_save : Fault.MeetsAlong Session.step
        (Session.Replayable (exactSwappings reversibles))
        (Session.opened (smallMap []))
        [setTileCommand 0 0 1, .save, .undo .tileChange, setTileCommand 0 0 2] ∧
      ¬ Session.FlagHolds (smallMap [])
        [setTileCommand 0 0 1, .save, .undo .tileChange, setTileCommand 0 0 2] := by
  constructor
  · refine ⟨⟨_, _, rfl, nofun, fun _ => ⟨_, rfl, rfl⟩⟩, ?_⟩
    rintro first ⟨⟩
    refine ⟨trivial, ?_⟩
    rintro second ⟨⟩
    refine ⟨trivial, ?_⟩
    rintro third ⟨⟩
    exact ⟨⟨_, _, rfl, nofun, fun _ => ⟨_, rfl, rfl⟩⟩, fun _ _ => trivial⟩
  · intro hholds
    obtain ⟨session, hsession, hflag⟩ := hholds _ [] (List.append_nil _).symm
    cases hsession
    have hcontent := congrFun (hflag rfl) .tileChange
    have htiles := congrArg Scenario.Layers.mtxm hcontent
    revert htiles
    decide

end Chkdraft.Editor
