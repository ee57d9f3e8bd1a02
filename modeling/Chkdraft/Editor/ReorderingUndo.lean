import Chkdraft.Editor.Reordering

/-!
# Undoing a reordering

The moves recorded for a command are reversed from the last one on.  They send
every selected index to where the command took its unit from, whatever is
selected by then, and redo sends it back.
-/

namespace Chkdraft.Editor

open Chk Scenario Sections Undo Selection

/-- Reversing gives the units before and an action that goes back, and every
selected index changes to the same unit's, without the flag of a moved unit. -/
structure RestoresUnits (action back : Reversible UnitAction)
    (content before : List Chk.Unit) (same : ℕ → ℕ → Prop) : Prop where
  reverses : Reversible.reverse UnitAction.reverse action content = .ok (before, back)
  keeps : ∀ selUnits, UnitEdit.Selects content selUnits →
    List.Forall₂ (fun index after => same index.toNat after.toNat) selUnits
      (reselected action selUnits)
  bare : ∀ selUnits, UnitEdit.Selects content selUnits →
    ∀ index ∈ reselected action selUnits, index &&& Selection.moved = 0

/-- A reordering that is undone, and redone after that, keeps any selection. -/
def UndoKeeps (command : MoveCommand) (units : List Chk.Unit) (selUnits : Selection) : Prop :=
  ∃ after group order back, command.change units selUnits = .ok (after, group) ∧
    command.Orders units.length selUnits order ∧
    InOrder units after order ∧
    RestoresUnits (.actions group) back after units
      (fun index before => order[index]? = some before) ∧
    RestoresUnits back (.actions group) units after (fun index after => order[after]? = some index)

section Groups

variable {action : Reversible UnitAction} {moves : List Move}
  {numUnits : ℕ} {selUnits : Selection}

/-- The selected indices behind a group of moves, or behind one without any. -/
theorem map_toNat_reselected (hactions : reversedActions action = moveGroup moves ∨
      reversedActions action = [] ∧ moves = [])
    (hsettles : Settles moves) (hsmall : numUnits ≤ 32768)
    (hfits : ∀ move ∈ moves, move.Fits numUnits)
    (hwithin : Within numUnits selUnits) :
    (reselected action selUnits).map UInt16.toNat = selUnits.map (sent moves ∘ UInt16.toNat) := by
  rcases hactions with hactions | ⟨hactions, rfl⟩
  · rw [reselected, hactions]
    exact map_toNat_moveGroup hsettles hfits
      (fun move hmove => ⟨(hfits move hmove).1.trans_le hsmall,
        (hfits move hmove).2.trans_le hsmall⟩)
      hwithin fun index hindex => (hwithin.2 index hindex).trans_le hsmall
  · rw [reselected, hactions]
    rfl

theorem restoresUnits_of_moves {back : Reversible UnitAction}
    {content before : List Chk.Unit} {same : ℕ → ℕ → Prop}
    (hreverses : Reversible.reverse UnitAction.reverse action content = .ok (before, back))
    (hactions : reversedActions action = moveGroup moves ∨ reversedActions action = [] ∧ moves = [])
    (hsettles : Settles moves) (hsmall : content.length ≤ 32768)
    (hfits : ∀ move ∈ moves, move.Fits content.length)
    (hsame : ∀ index < content.length, same index (sent moves index)) :
    RestoresUnits action back content before same := by
  refine ⟨hreverses, fun selUnits hselects => ?_, fun selUnits hselects index hindex => ?_⟩
  · have hsent := map_toNat_reselected hactions hsettles hsmall hfits hselects
    have hall : List.Forall₂ (fun (index : UInt16) after =>
        same index.toNat after) selUnits (selUnits.map (sent moves ∘ UInt16.toNat)) :=
      List.forall₂_map_right_iff.mpr (List.forall₂_same.mpr
        fun index hindex => hsame _ (hselects.2 index hindex))
    rw [← hsent] at hall
    exact List.forall₂_map_right_iff.mp hall
  · have hsent := map_toNat_reselected hactions hsettles hsmall hfits hselects
    have hmem : index.toNat ∈ _ := List.mem_map_of_mem hindex
    rw [hsent] at hmem
    obtain ⟨selected, hselected, hindexSent⟩ := List.mem_map.mp hmem
    rw [and_moved_eq_zero_iff, ← hindexSent]
    exact (sent_lt (hselects.2 selected hselected) hfits).trans_le hsmall

end Groups

theorem actions_bounded (moves : List Move) :
    bounded (moves.map Move.action) = .make (moveGroup moves) ∨
      bounded (moves.map Move.action) = .make [] ∧ moves = [] := by
  rw [bounded]
  split
  · rename_i hnil
    exact .inr ⟨rfl, List.map_eq_nil_iff.mp hnil⟩
  · exact .inl rfl

section Recorded

variable {moves : List Move} {units after : List Chk.Unit}
  {actions backs : List UnitAction}

theorem getElem?_applyMoves_range {numUnits index : ℕ} (hfits : ∀ move ∈ moves, move.Fits numUnits)
    (horigin : origin moves index < numUnits) :
    (applyMoves moves (List.range numUnits))[index]? = some (origin moves index) := by
  rw [getElem?_applyMoves (by rwa [List.length_range]), List.getElem?_range horigin]

theorem restoresUnits_undo (hsettle : MovesSettle moves)
    (hsmall : units.length ≤ 32768) (hlength : after.length = units.length)
    (hfits : ∀ move ∈ moves, move.Fits units.length)
    (hactions : actions = moveGroup moves ∨ actions = [] ∧ moves = [])
    (hrecorded : Undo.Recorded unitSwaps actions backs units after) :
    RestoresUnits (.actions (.make actions)) (.actions (.turned backs)) after
      units fun index before =>
        (applyMoves moves (List.range units.length))[index]? = some before := by
  have hreversed : reversedActions (.actions (.make actions)) = moveGroup moves.reverse ∨
      reversedActions (.actions (.make actions)) = [] ∧ moves.reverse = [] := by
    rcases hactions with rfl | ⟨rfl, rfl⟩
    · exact .inl (reverse_moveGroup moves)
    · exact .inr ⟨rfl, rfl⟩
  have hfitsAfter : ∀ move ∈ moves.reverse, move.Fits after.length := by
    intro move hmove
    rw [hlength]
    exact hfits move (List.mem_reverse.mp hmove)
  refine restoresUnits_of_moves ((Reversible.swapping unitSwaps).reverses
    (.undone hrecorded)) hreversed hsettle.reverse (hlength ▸ hsmall) hfitsAfter
    fun index hindex => ?_
  rw [sent_reverse]
  exact getElem?_applyMoves_range hfits (origin_lt hfits (hlength ▸ hindex))

/-- Redo makes the moves again, in the order of the command. -/
theorem restoresUnits_redo (hsettle : MovesSettle moves) (hsmall : units.length ≤ 32768)
    (hfits : ∀ move ∈ moves, move.Fits units.length)
    (hactions : actions = moveGroup moves ∨ actions = [] ∧ moves = [])
    (hrecorded : Undo.Recorded unitSwaps actions backs units after) :
    RestoresUnits (.actions (.turned backs)) (.actions (.make actions)) units
      after fun index place =>
        (applyMoves moves (List.range units.length))[place]? = some index := by
  have hreversed : reversedActions (.actions (.turned backs)) = moveGroup (moves.map Move.back) ∨
      reversedActions (.actions (.turned backs)) = [] ∧ moves.map Move.back = [] := by
    rcases hactions with rfl | ⟨rfl, rfl⟩
    · refine .inl ?_
      rw [← turned_moveGroup]
      exact turned_of_recorded hrecorded fun _ => not_neutral_of_mem_moveGroup
    · cases hrecorded
      exact .inr ⟨rfl, rfl⟩
  have hsettles : Settles (moves.map Move.back) := by
    have hbacks := hsettle.reverse.backs
    rwa [List.map_reverse, List.reverse_reverse] at hbacks
  have hfitsBack : ∀ move ∈ moves.map Move.back, move.Fits units.length := by
    intro move hmove
    obtain ⟨other, hother, rfl⟩ := List.mem_map.mp hmove
    exact (hfits other hother).symm
  refine restoresUnits_of_moves ((Reversible.swapping unitSwaps).reverses
    (.redone hrecorded)) hreversed hsettles hsmall hfitsBack
    fun index hindex => ?_
  have horigin := origin_sent_back moves index
  rw [getElem?_applyMoves_range hfits (horigin.symm ▸ hindex), horigin]

end Recorded

section Commands

variable {command : MoveCommand} {units : List Chk.Unit} {selUnits : Selection}
  {target : ℕ → ℕ → ℕ} {picked : List ℕ} {kept : Move → Bool}

theorem GoesBy.undoKeeps (hgoes : GoesBy command units selUnits target picked kept)
    (hsmall : units.length ≤ 32768)
    (hrecords : GroupRecords (command.change units selUnits) units)
    (horders : ∀ order, Places units.length picked target order →
      command.Orders units.length selUnits order) :
    UndoKeeps command units selUnits := by
  obtain ⟨after, actions, backs, hchange, hrecorded⟩ := hrecords
  have hfits : ∀ move ∈ (plan target 0 picked).filter kept,
      move.Fits units.length := fun move hmove =>
    hgoes.fits move (List.mem_of_mem_filter hmove)
  have hsettle : MovesSettle ((plan target 0 picked).filter kept) :=
    List.Pairwise.filter _ hgoes.settle
  have hplaces := places_order hgoes.settle hgoes.fits hgoes.stays
  obtain ⟨hafter, hgroup⟩ := Prod.mk.inj (Except.ok.inj (hchange.symm.trans hgoes.change))
  have hlength : after.length = units.length := by
    rw [hafter]
    exact (perm_applyMoves hfits).length_eq
  have hactions : actions = moveGroup ((plan target 0 picked).filter kept) ∨
      actions = [] ∧ (plan target 0 picked).filter kept = [] := by
    rcases actions_bounded ((plan target 0 picked).filter kept) with
      hmoves | ⟨hnone, hnil⟩
    · exact .inl (congrArg ReversibleActions.actions (hgroup.trans hmoves))
    · exact .inr ⟨congrArg ReversibleActions.actions (hgroup.trans hnone), hnil⟩
  refine ⟨after, .make actions, _, .actions (.turned backs), hchange,
    horders _ hplaces, hafter ▸ inOrder_applyMoves hfits,
    restoresUnits_undo hsettle hsmall hlength hfits hactions hrecorded,
    restoresUnits_redo hsettle hsmall hfits hactions hrecorded⟩

/-- Undoing a move to the top, to the end or up keeps any selection on its
units, and so does redo. -/
theorem undoKeeps_moves (hcommand : command ∈ [MoveCommand.moveTop, .moveEnd, .moveUp])
    (hsmall : units.length ≤ 32768)
    (hselects : UnitEdit.Selects units selUnits) :
    UndoKeeps command units selUnits := by
  have hfits : units.length ≤ 65536 := hsmall.trans (by decide)
  simp only [List.mem_cons, List.not_mem_nil, or_false] at hcommand
  rcases hcommand with rfl | rfl | rfl
  · exact (goesBy_moveTop hselects).undoKeeps hsmall
      (UnitEdit.records_moveTop hselects) fun _ hplaces =>
        orders_moveTop hselects hplaces
  · exact (goesBy_moveEnd hselects hfits).undoKeeps hsmall
      (UnitEdit.records_moveEnd hselects (.inr hfits)) fun _ hplaces =>
        orders_moveEnd hselects hplaces
  · exact (goesBy_moveUp hselects).undoKeeps hsmall
      (UnitEdit.records_moveUp hselects) fun _ hplaces => hplaces

end Commands

/-- The second of two units is moved to the top. -/
theorem undoKeeps_second : UnitEdit.Selects twoUnits [1] ∧ UndoKeeps .moveTop twoUnits [1] := by
  have hselects : UnitEdit.Selects twoUnits [1] := selects_twoUnits (by decide)
  exact ⟨hselects, undoKeeps_moves (by decide) (by decide) hselects⟩

end Chkdraft.Editor
