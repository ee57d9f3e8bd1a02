import Chkdraft.Editor.SelectionGroups
import Chkdraft.Editor.UnitOrder

/-!
# Runs of commands on selected units

The groups the edits record are orderly, so that undo and redo keep the
selection valid if the selected units are still there.
-/

namespace Chkdraft.Editor

open Chk Scenario Sections Undo Selection

variable {after units : List Chk.Unit} {actions : List UnitAction}
  {selection : List ℕ}

/-! ## What the edits record -/

theorem pasteUnits_actions {sizes : List UnitSize} {allowStack : Bool}
    {mapClickX mapClickY : ℤ} {clipboard : List PasteUnitNode}
    (hpaste : pasteUnits sizes allowStack mapClickX mapClickY clipboard units =
      .ok (after, actions)) :
    ∀ action ∈ actions, ∃ index, action = .unitCreateDel index none := by
  induction clipboard generalizing units actions with
  | nil =>
      cases hpaste
      simp
  | cons node rest ih =>
      rw [pasteUnits] at hpaste
      split at hpaste
      · rw [Fault.bind_eq_ok_iff] at hpaste
        obtain ⟨canPaste, -, hpaste⟩ := hpaste
        split at hpaste
        · rw [Fault.bind_eq_ok_iff] at hpaste
          obtain ⟨⟨pasted, others⟩, hrest, hpaste⟩ := hpaste
          cases hpaste
          rw [List.forall_mem_cons]
          exact ⟨⟨_, rfl⟩, ih hrest⟩
        · exact ih hpaste
      · exact ih hpaste

theorem deleteHighest_actions {rounds : ℕ}
    (hdelete : deleteHighest rounds selection units = .ok (after, actions)) :
    ∀ action ∈ actions, action.Neutral := by
  induction rounds generalizing selection units actions with
  | zero =>
      cases hdelete
      simp
  | succ rounds ih =>
      rw [deleteHighest] at hdelete
      split at hdelete
      · cases hdelete
        simp
      · rw [Fault.bind_eq_ok_iff] at hdelete
        obtain ⟨unit, -, hdelete⟩ := hdelete
        rw [Fault.bind_eq_ok_iff] at hdelete
        obtain ⟨⟨deleted, others⟩, hrest, hdelete⟩ := hdelete
        cases hdelete
        rw [List.forall_mem_cons]
        exact ⟨trivial, ih hrest⟩

theorem moveDownFrom_moves {done : List ℕ} (hsorted : selection.Pairwise (· > ·))
    (hfits : ∀ index ∈ selection, index + 1 < 65536)
    (hmoveDown : moveDownFrom done selection units = .ok (after, actions)) :
    ∃ moves, actions = moves.map Move.action ∧ MovesSettle moves ∧
      ∀ move ∈ moves, move.oldIndex ∈ selection ∧ move.newIndex = move.oldIndex + 1 := by
  induction selection generalizing done units actions with
  | nil =>
      cases hmoveDown
      exact ⟨[], rfl, .nil, by simp⟩
  | cons unitIndex rest ih =>
      obtain ⟨hfirst, hrestSorted⟩ := List.pairwise_cons.mp hsorted
      have hu16 : u16 (unitIndex + 1) = unitIndex + 1 :=
        u16_of_lt (hfits unitIndex List.mem_cons_self)
      have hrestFits : ∀ index ∈ rest, index + 1 < 65536 :=
        fun index hindex => hfits index (List.mem_cons_of_mem _ hindex)
      rw [moveDownFrom, hu16] at hmoveDown
      split at hmoveDown
      · rw [Fault.bind_eq_ok_iff] at hmoveDown
        obtain ⟨preserve, -, hmoveDown⟩ := hmoveDown
        rw [Fault.bind_eq_ok_iff] at hmoveDown
        obtain ⟨⟨others, otherActions⟩, hrest, hmoveDown⟩ := hmoveDown
        cases hmoveDown
        obtain ⟨moves, rfl, hsettle, hmoves⟩ := ih hrestSorted hrestFits hrest
        refine ⟨⟨unitIndex, unitIndex + 1⟩ :: moves, rfl, ?_, ?_⟩
        · refine .cons (fun later hlater => ?_) hsettle
          obtain ⟨hold, hnew⟩ := hmoves later hlater
          have hgt := hfirst later.oldIndex hold
          simp only [Move.Passes]
          omega
        · rw [List.forall_mem_cons]
          exact ⟨⟨List.mem_cons_self, rfl⟩, fun move hmove =>
            ⟨List.mem_cons_of_mem _ (hmoves move hmove).1, (hmoves move hmove).2⟩⟩
      · obtain ⟨moves, hactions, hsettle, hmoves⟩ := ih hrestSorted hrestFits hmoveDown
        exact ⟨moves, hactions, hsettle, fun move hmove =>
          ⟨List.mem_cons_of_mem _ (hmoves move hmove).1, (hmoves move hmove).2⟩⟩

theorem growth_deletions (removed : List (ℕ × Chk.Unit)) :
    totalGrowth (deletions removed) = removed.length := by
  induction removed with
  | nil => rfl
  | cons first rest ih =>
      rw [totalGrowth, deletions] at ih ⊢
      rw [List.map_cons, List.map_cons, List.sum_cons, ih, List.length_cons]
      simp only [UnitAction.growth]
      push_cast
      ring

theorem growth_insertFrom (index : ℕ) (inserted units : List Chk.Unit) :
    totalGrowth (insertFrom index inserted units).2 = -(inserted.length : ℤ) := by
  induction inserted generalizing index units with
  | nil => rfl
  | cons unit rest ih =>
      have hrest := ih (index + 1) (insertUnit units index unit)
      rw [totalGrowth] at hrest ⊢
      change UnitAction.growth (.unitCreateDel (u16 index) none) +
        ((insertFrom (index + 1) rest (insertUnit units index unit)).2.map
          UnitAction.growth).sum = _
      rw [hrest, List.length_cons]
      simp only [UnitAction.growth]
      push_cast
      ring

theorem neutral_insertFrom (index : ℕ) (inserted units : List Chk.Unit) :
    ∀ action ∈ (insertFrom index inserted units).2, action.Neutral := by
  induction inserted generalizing index units with
  | nil => exact fun _ haction => nomatch haction
  | cons unit rest ih =>
      intro action haction
      rcases List.mem_cons.mp haction with rfl | haction
      · trivial
      · exact ih _ _ action haction

/-! ### Whole edits -/

/-- The group an edit records is orderly, and takes no more units back than it
brings. -/
def Tidy (edited : UnitEdited) : Prop := ∀ after group, edited = .ok (after, group) →
    Orderly (.actions group) ∧ totalGrowth group.actions ≤ 0

theorem orderly_nil : Orderly (.actions (.make [])) := .neutral fun _ hsingle => nomatch hsingle

theorem tidy_moves {loop : UnitLoop} (hloop : ∀ after actions, loop = .ok (after, actions) →
      ∃ moves, actions = List.map Move.action moves ∧ MovesSettle moves) :
    Tidy (recordedMoves loop) := by
  intro after group hedited
  rw [recordedMoves, Fault.bind_eq_ok_iff] at hedited
  obtain ⟨⟨units, actions⟩, hunits, heq⟩ := hedited
  cases heq
  obtain ⟨moves, rfl, hsettle⟩ := hloop after actions hunits
  rw [bounded]
  split
  · exact ⟨orderly_nil, le_refl 0⟩
  · rename_i hne
    have hgroup : UnitAction.unitIndexMoveBoundary ::
        List.map Move.action moves ++ [.unitIndexMoveBoundary] = moveGroup moves := rfl
    rw [hgroup]
    constructor
    · refine .moves ?_ (reverse_moveGroup moves) hsettle.reverse
      rintro hnil
      rw [List.reverse_eq_nil_iff] at hnil
      exact hne (by rw [hnil, List.map_nil])
    · exact (totalGrowth_moves fun _ => not_neutral_of_mem_moveGroup).le

theorem orderly_of_neutral (hneutral : ∀ action ∈ actions, action.Neutral) :
    Orderly (.actions (.make actions)) :=
  .neutral fun action haction => hneutral action (List.mem_reverse.mp haction)

theorem totalGrowth_nonpos (hactions : ∀ action ∈ actions, action.growth ≤ 0) :
    totalGrowth actions ≤ 0 := by
  induction actions with
  | nil => exact le_refl 0
  | cons action rest ih =>
      rw [List.forall_mem_cons] at hactions
      exact add_nonpos hactions.1 (ih hactions.2)

theorem tidy_paste (sizes : List UnitSize) (allowStack : Bool)
    (mapClickX mapClickY : ℤ) (clipboard : List PasteUnitNode)
    (units : List Chk.Unit) :
    Tidy (recorded (pasteUnits sizes allowStack mapClickX mapClickY clipboard units)) := by
  intro after group hedited
  rw [recorded, Fault.bind_eq_ok_iff] at hedited
  obtain ⟨⟨pasted, actions⟩, hpasted, heq⟩ := hedited
  cases heq
  have hactions := pasteUnits_actions hpasted
  constructor
  · apply orderly_of_neutral
    intro action haction
    obtain ⟨index, rfl⟩ := hactions action haction
    trivial
  · apply totalGrowth_nonpos
    intro action haction
    obtain ⟨index, rfl⟩ := hactions action haction
    simp [UnitAction.growth]

theorem orderly_delete {group : ReversibleActions UnitAction}
    (hedited : deleteSelection selection units = .ok (after, group)) :
    Orderly (.actions group) := by
  rw [deleteSelection, recorded, Fault.bind_eq_ok_iff] at hedited
  obtain ⟨⟨deleted, actions⟩, hdeleted, heq⟩ := hedited
  cases heq
  exact orderly_of_neutral (deleteHighest_actions hdeleted)

section Moves

variable {units : List Chk.Unit} {selUnits : Selection}

theorem tidy_performed {moves : List Move} (hsettle : MovesSettle moves) :
    Tidy (recordedMoves (.ok (performed moves units))) := by
  apply tidy_moves
  intro after actions hmoved
  cases hmoved
  exact ⟨moves, rfl, hsettle⟩

section

variable (hselects : UnitEdit.Selects units selUnits)

include hselects

theorem tidy_moveTop : Tidy (notifyMoveTopPressed (indices selUnits) units) := by
  have hsorted := UnitEdit.pairwise_lt_sortUnits hselects.nodup
  rw [notifyMoveTopPressed, moveTopFrom_eq hsorted (fun _ _ => Nat.zero_le _)
    fun index hindex => hselects.lt index (UnitEdit.mem_sortUnits.mp hindex)]
  exact tidy_performed (List.Pairwise.filter _ (movesSettle_top hsorted))

theorem tidy_moveEnd (hfits : selUnits = [] ∨ units.length ≤ 65536) :
    Tidy (notifyMoveEndPressed (indices selUnits) units) := by
  rcases hfits with rfl | hfits
  · exact tidy_performed List.Pairwise.nil
  · have hsorted := UnitEdit.pairwise_gt_sortUnits hselects.nodup
    have hlt : ∀ index ∈ sortUnits false (indices selUnits),
        index < units.length := fun index hindex =>
      hselects.lt index (UnitEdit.mem_sortUnits.mp hindex)
    rw [notifyMoveEndPressed, @moveEndFrom_eq 0 units.length _ units hsorted rfl hfits hlt]
    exact tidy_performed (List.Pairwise.filter _ (movesSettle_end hsorted hlt))

theorem tidy_moveUp : Tidy (notifyMoveUpPressed (indices selUnits) units) := by
  have hsorted := UnitEdit.pairwise_lt_sortUnits hselects.nodup
  rw [notifyMoveUpPressed, (moveUpFrom_eq (upDone_nil _) hsorted
    (fun _ _ => Nat.zero_le _) fun index hindex =>
      hselects.lt index (UnitEdit.mem_sortUnits.mp hindex)).1]
  exact tidy_performed (List.Pairwise.filter _ (movesSettle_up hsorted))

theorem tidy_moveDown (hfits : ∀ index ∈ selUnits, index.toNat + 1 < 65536) :
    Tidy (notifyMoveDownPressed (indices selUnits) units) := by
  apply tidy_moves
  intro after actions hmoved
  have hsorted : ∀ index ∈ sortUnits false (indices selUnits), index + 1 < 65536 := by
    intro index hindex
    obtain ⟨selected, hselected, rfl⟩ := List.mem_map.mp (UnitEdit.mem_sortUnits.mp hindex)
    exact hfits selected hselected
  obtain ⟨moves, hactions, hsettle, -⟩ := moveDownFrom_moves
    (UnitEdit.pairwise_gt_sortUnits hselects.nodup) hsorted hmoved
  exact ⟨moves, hactions, hsettle⟩

theorem tidy_moveTo {unitMoveTo : ℕ}
    (hfits : unitMoveTo = 0 ∨ units.length ≤ unitMoveTo ∨ selUnits = [] ∨
      min units.length (unitMoveTo + selUnits.length) ≤ 65536) :
    Tidy (notifyMoveToPressed unitMoveTo (indices selUnits) units) := by
  have hidle : Tidy (.ok (units, .make [])) := by
    intro after group hedited
    cases hedited
    exact ⟨orderly_nil, le_refl 0⟩
  rw [notifyMoveToPressed, numSelected, UnitEdit.length_indices]
  split
  · rename_i hmoveTo
    split
    · exact tidy_moveTop hselects
    · rename_i hpos
      split
      · rename_i hlast
        apply tidy_moveEnd hselects
        rcases hfits with hzero | hge | hnil | hsize
        · exact absurd hzero hpos
        · exact absurd hge (Nat.not_le.mpr hmoveTo)
        · exact .inl hnil
        · exact .inr (by omega)
      · split
        · intro after group hedited
          cases hedited
        · intro after group hedited
          rw [Fault.bind_eq_ok_iff] at hedited
          obtain ⟨⟨others, removed⟩, -, heq⟩ := hedited
          cases heq
          constructor
          · apply orderly_of_neutral
            intro action haction
            rcases List.mem_append.mp haction with hdeleted | hcreated
            · obtain ⟨pair, -, rfl⟩ := List.mem_map.mp hdeleted
              trivial
            · exact neutral_insertFrom _ _ _ action hcreated
          · have hdeletions := growth_deletions removed
            have hcreates := growth_insertFrom unitMoveTo (removed.map Prod.snd).reverse others
            rw [List.length_reverse, List.length_map] at hcreates
            rw [totalGrowth] at hdeletions hcreates
            change (List.map UnitAction.growth (deletions removed ++ _)).sum ≤ 0
            rw [List.map_append, List.sum_append, hdeletions, hcreates]
            omega
  · exact hidle

end

end Moves

/-! ## Runs -/

namespace SelectionCommand

/-- What a command needs: an index that is added is one of a unit, `selectAll`
can count the units, an edit meets what its record needs, the last unit is not
moved down and at most 32768 units move to the middle of the list; what is
undone or redone leaves the selected units in the list, and what is redone was
undone since the last edit. -/
def Meets (sizes : List UnitSize) (editing : Editing) : SelectionCommand → Prop
  | add index => index.toNat < editing.units.length
  | remove _ => True
  | selectAll => editing.units.length ≤ 65535
  | paste allowStack _ _ clipboard =>
      editing.units.length + clipboard.length ≤ 65536 ∧ ∀ node ∈ clipboard,
          allowStack = true ∨ node.unit.type.toNat < sizes.length
  | delete => True
  | moveTop => True
  | moveEnd => editing.selUnits = [] ∨ editing.units.length ≤ 65536
  | moveUp => True
  | moveDown => ∀ index ∈ editing.selUnits,
      index.toNat + 1 < editing.units.length ∧ index.toNat + 1 < 65536
  | moveTo unitMoveTo =>
      (unitMoveTo = 0 ∨ editing.units.length ≤ unitMoveTo ∨ editing.selUnits = [] ∨
        min editing.units.length (unitMoveTo + editing.selUnits.length) ≤ 65536) ∧
      (unitMoveTo = 0 ∨ editing.units.length ≤ unitMoveTo + editing.selUnits.length ∨
        editing.selUnits.length ≤ 32768)
  | undo => ∀ action, nextUnitAction editing.session.map.undos = some action →
      KeepsSelection editing.units.length editing.selUnits action
  | redo => (ofType .unitChange editing.session.map.redos = [] ∨
        0 < editing.session.fresh .unitChange) ∧
      ∀ action, nextUnitAction editing.session.map.redos = some action →
        KeepsSelection editing.units.length editing.selUnits action

end SelectionCommand

/-- What every command keeps: the stacks are consistent, the actions on units
are orderly, and the selection is valid. -/
structure Editing.Sound (start : (type : UndoTypes) → reversibles.Content type)
    (editing : Editing) : Prop where
  replays : editing.session.Replays mapSwappings start
  undos : ∀ action ∈ ofType UndoTypes.unitChange editing.session.map.undos, Orderly action
  redos : ∀ action ∈ ofType UndoTypes.unitChange editing.session.map.redos, Orderly action
  within : Within editing.units.length editing.selUnits

section Runs

variable {sizes : List UnitSize}
  {start : (type : UndoTypes) → reversibles.Content type} {editing : Editing}

/-- A command on the units that replaces them, and the stacks. -/
theorem sound_replaced {session : Session reversibles}
    {units : List Chk.Unit} {selUnits : Selection}
    {undos redos : List (Σ type, reversibles.Action type)} {fresh : ℕ}
    {adjustBy : ℤ}
    (hreplays : (session.setFresh .unitChange fresh
      (session.map.replaced UndoTypes.unitChange units undos redos
        adjustBy)).Replays mapSwappings start)
    (hundos : ∀ action ∈ ofType UndoTypes.unitChange undos, Orderly action)
    (hredos : ∀ action ∈ ofType UndoTypes.unitChange redos, Orderly action)
    (hwithin : Within units.length selUnits) :
    Editing.Sound start ⟨session.setFresh .unitChange fresh
      (session.map.replaced UndoTypes.unitChange units undos redos adjustBy),
      selUnits⟩ := by
  generalize hnext : session.setFresh .unitChange fresh
    (session.map.replaced UndoTypes.unitChange units undos redos adjustBy) =
      next at hreplays ⊢
  have hundosNext : next.map.undos = undos := by
    rw [← hnext]
    exact GuiMap.replaced_undos _ _ _ _ _ _
  have hredosNext : next.map.redos = redos := by
    rw [← hnext]
    exact GuiMap.replaced_redos _ _ _ _ _ _
  have hunits : next.map.content .unitChange = units := by
    rw [← hnext]
    exact (congrFun (GuiMap.replaced_content _ _ _ _ _ _) _).trans (Function.update_self _ _ _)
  refine ⟨hreplays, ?_, ?_, ?_⟩
  · rw [hundosNext]
    exact hundos
  · rw [hredosNext]
    exact hredos
  · rw [Editing.units, hunits]
    exact hwithin

theorem Editing.Sound.edit {edit : UnitEdit} {selUnits : Selection} (hsound : editing.Sound start)
    (hmeets : edit.Meets sizes editing.units)
    (horderly : ∀ after group, edit.change sizes editing.units = .ok (after, group) →
        Orderly (.actions group))
    (hselects : ∀ after actions backs,
      edit.change sizes editing.units = .ok (after, .make actions) →
        Recorded unitSwaps actions backs editing.units after → Within after.length selUnits) :
    ∃ session, editing.session.step (.edit .unitChange (edit.recordedChange sizes)) = .ok session ∧
      Editing.Sound start ⟨session, selUnits⟩ := by
  obtain ⟨after, actions, backs, hchange, hrecorded⟩ := UnitEdit.change_records hmeets
  have hwithin := hselects after actions backs hchange hrecorded
  have hgroup := horderly after _ hchange
  have hrecords : edit.recordedChange sizes editing.units =
      .ok (after, .actions (.make actions)) := by
    rw [UnitEdit.recordedChange, hchange]
    rfl
  by_cases hnil : actions = []
  · subst hnil
    cases hrecorded
    exact ⟨editing.session, Session.step_edit_idle hrecords rfl,
      hsound.replays, hsound.undos, hsound.redos, hwithin⟩
  · have hcount : 0 < Reversible.count (.actions (.make actions)) := List.length_pos_iff.mpr hnil
    refine ⟨_, Session.step_edit_of_pos hrecords hcount, ?_⟩
    apply sound_replaced
    · exact hsound.replays.moves (.edit hrecords hcount (.undone hrecorded))
    · exact forall_ofType_cons hgroup hsound.undos
    · exact hsound.redos
    · exact hwithin

theorem within_of_tidy {edited : UnitEdited} {units : List Chk.Unit}
    {backs : List UnitAction} {selUnits : Selection} (htidy : Tidy edited)
    (hedited : edited = .ok (after, .make actions))
    (hrecorded : Recorded unitSwaps actions backs units after)
    (hwithin : Within units.length selUnits) :
    Within after.length selUnits := by
  have hgrowth : totalGrowth actions ≤ 0 := (htidy _ _ hedited).2
  have hlength := length_of_recorded hrecorded
  exact hwithin.mono (by omega)

section

variable (hsound : editing.Sound start)

include hsound

theorem Editing.Sound.tidyEdit {edit : UnitEdit} {selUnits : Selection}
    (hmeets : edit.Meets sizes editing.units) (htidy : Tidy (edit.change sizes editing.units))
    (hwithin : Within editing.units.length selUnits) :
    ∃ session, editing.session.step (.edit .unitChange (edit.recordedChange sizes)) = .ok session ∧
      Editing.Sound start ⟨session, selUnits⟩ :=
  hsound.edit hmeets (fun _ _ hchange => (htidy _ _ hchange).1)
    fun _ _ _ hchange hrecorded => within_of_tidy htidy hchange hrecorded hwithin

theorem Editing.Sound.undo (hkeeps : SelectionCommand.undo.Meets sizes editing) :
    ∃ session, editing.session.step (.undo .unitChange) = .ok session ∧
      Editing.Sound start ⟨session, SelectionCommand.undo.select editing⟩ := by
  cases hpop : pop UndoTypes.unitChange editing.session.map.undos with
  | none =>
      have hnone : nextUnitAction editing.session.map.undos = none := by
        rw [nextUnitAction, hpop]
      have hselect : SelectionCommand.undo.select editing =
          editing.selUnits := by
        simp only [SelectionCommand.select, hnone]
      rw [hselect]
      exact ⟨editing.session, Session.step_undo_of_none hpop, hsound⟩
  | some taken =>
      obtain ⟨action, undos⟩ := taken
      have hnext : nextUnitAction editing.session.map.undos = some action := by
        rw [nextUnitAction, hpop]
        rfl
      have hselect : SelectionCommand.undo.select editing = reselected action editing.selUnits := by
        simp only [SelectionCommand.select, hnext]
      obtain ⟨hcons, -⟩ := ofType_of_pop hpop
      have horderly := hsound.undos
      have hstacks := hsound.replays .unitChange
      rw [hcons] at hstacks horderly
      obtain ⟨back, before, hswaps⟩ := hstacks.undoes
      obtain ⟨hfirst, hrest⟩ := List.forall_mem_cons.mp horderly
      rw [hselect]
      refine ⟨_, Session.step_undo_of_pop hpop hswaps, ?_⟩
      apply sound_replaced
      · exact hsound.replays.moves (.undo hpop hswaps)
      · exact hrest
      · exact forall_ofType_cons (Orderly.back hfirst hswaps) hsound.redos
      · exact within_reselected hfirst hswaps hsound.within (hkeeps action hnext)

theorem Editing.Sound.redo (hmeets : SelectionCommand.redo.Meets sizes editing) :
    ∃ session, editing.session.step (.redo .unitChange) = .ok session ∧
      Editing.Sound start ⟨session, SelectionCommand.redo.select editing⟩ := by
  obtain ⟨hfresh, hkeeps⟩ := hmeets
  cases hpop : pop UndoTypes.unitChange editing.session.map.redos with
  | none =>
      have hnone : nextUnitAction editing.session.map.redos = none := by
        rw [nextUnitAction, hpop]
      have hselect : SelectionCommand.redo.select editing =
          editing.selUnits := by
        simp only [SelectionCommand.select, hnone]
      rw [hselect]
      exact ⟨editing.session, Session.step_redo_of_none hpop, hsound⟩
  | some taken =>
      obtain ⟨action, redos⟩ := taken
      have hnext : nextUnitAction editing.session.map.redos = some action := by
        rw [nextUnitAction, hpop]
        rfl
      have hselect : SelectionCommand.redo.select editing = reselected action editing.selUnits := by
        simp only [SelectionCommand.select, hnext]
      obtain ⟨hcons, -⟩ := ofType_of_pop hpop
      have horderly := hsound.redos
      rw [hcons] at horderly
      obtain ⟨hpositive, back, after, hswaps⟩ := hsound.replays.redoes hfresh hpop
      obtain ⟨hfirst, hrest⟩ := List.forall_mem_cons.mp horderly
      rw [hselect]
      refine ⟨_, Session.step_redo_of_pop hpop hswaps, ?_⟩
      apply sound_replaced
      · exact hsound.replays.moves (.redo hpop hpositive hswaps)
      · exact forall_ofType_cons (Orderly.back hfirst hswaps) hsound.undos
      · exact hrest
      · exact within_reselected hfirst hswaps hsound.within (hkeeps action hnext)

theorem Editing.Sound.reselect {selUnits : Selection}
    (hwithin : Within editing.units.length selUnits) :
    Editing.Sound start { editing with selUnits := selUnits } :=
  ⟨hsound.replays, hsound.undos, hsound.redos, hwithin⟩

end

theorem Editing.step_of_session {command : SelectionCommand}
    {unitCommand : UnitCommand} (hfinite : ¬ command.endless editing)
    (hcommand : command.unitCommand editing.selUnits = some unitCommand)
    (hstep : ∃ session, editing.session.step (unitCommand.command sizes) = .ok session ∧
        Editing.Sound start ⟨session, command.select editing⟩) :
    ∃ next, editing.step sizes command = .ok next ∧ next.Sound start := by
  obtain ⟨session, hsession, hsound⟩ := hstep
  refine ⟨_, ?_, hsound⟩
  simp only [Editing.step, if_neg hfinite, hcommand, hsession]
  rfl

theorem Editing.Sound.step {command : SelectionCommand}
    (hsound : editing.Sound start) (hmeets : command.Meets sizes editing) :
    ∃ next, editing.step sizes command = .ok next ∧ next.Sound start := by
  have hwithin := hsound.within
  have hselects : UnitEdit.Selects editing.units editing.selUnits := hwithin
  cases command with
  | add index =>
      exact ⟨_, rfl, hsound.reselect (hwithin.addUnit hmeets)⟩
  | remove index =>
      exact ⟨_, rfl, hsound.reselect (hwithin.removeUnit index)⟩
  | selectAll =>
      have hfinite : ¬ SelectionCommand.selectAll.endless editing := Nat.not_lt.mpr hmeets
      refine ⟨_, ?_, hsound.reselect (hwithin.selectAll hmeets)⟩
      rw [Editing.step, if_neg hfinite]
      rfl
  | paste allowStack mapClickX mapClickY clipboard =>
      exact Editing.step_of_session id rfl (hsound.tidyEdit hmeets (tidy_paste _ _ _ _ _ _) hwithin)
  | delete =>
      exact Editing.step_of_session id rfl (hsound.edit hselects
        (fun _ _ => orderly_delete) fun _ _ _ _ _ => within_nil _)
  | moveTop =>
      exact Editing.step_of_session id rfl (hsound.tidyEdit hselects
        (tidy_moveTop hselects) hwithin.topSelection)
  | moveEnd =>
      exact Editing.step_of_session id rfl (hsound.tidyEdit ⟨hselects, hmeets⟩
        (tidy_moveEnd hselects hmeets) (hwithin.endSelection hmeets))
  | moveUp =>
      exact Editing.step_of_session id rfl (hsound.tidyEdit hselects
        (tidy_moveUp hselects) hwithin.upSelection)
  | moveDown =>
      exact Editing.step_of_session id rfl (hsound.tidyEdit ⟨hselects, hmeets⟩
        (tidy_moveDown hselects fun index hindex => (hmeets index hindex).2)
        (hwithin.downSelection hmeets))
  | moveTo unitMoveTo =>
      obtain ⟨hfits, hmiddle⟩ := hmeets
      refine Editing.step_of_session id rfl (hsound.tidyEdit ⟨hselects, hfits⟩
        (tidy_moveTo hselects hfits) (hwithin.toSelection ?_ hmiddle))
      rcases hfits with hzero | hge | hnil | hsize
      · exact .inr (.inl hzero)
      · exact .inr (.inr (.inl hge))
      · exact .inl hnil
      · by_cases hlt : unitMoveTo + editing.selUnits.length < editing.units.length
        · exact .inr (.inr (.inr (.inl hlt)))
        · exact .inr (.inr (.inr (.inr (by omega))))
  | undo => exact Editing.step_of_session id rfl (hsound.undo hmeets)
  | redo => exact Editing.step_of_session id rfl (hsound.redo hmeets)

end Runs

end Chkdraft.Editor
