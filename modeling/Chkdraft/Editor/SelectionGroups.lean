import Chkdraft.Editor.SelectionMoves

/-!
# Groups of actions and the selection

A recorded group either leaves the selection, or is a group of moves that
settle.  What an action turns into when it is reversed is of the same kind, and
the number of units changes by what the group creates and deletes.
-/

namespace Chkdraft.Editor

open Chk Scenario Sections Undo Selection

namespace UnitAction

def Neutral : UnitAction → Prop
  | unitChange _ _ _ => True
  | unitCreateDel _ _ => True
  | unitIndexMove _ _ => False
  | unitIndexMoveBoundary => False

def growth : UnitAction → ℤ
  | unitCreateDel _ none => -1
  | unitCreateDel _ (some _) => 1
  | _ => 0

def turned : UnitAction → UnitAction
  | unitIndexMove oldIndex newIndex => unitIndexMove newIndex oldIndex
  | other => other

variable {action back : UnitAction} {content before : List Chk.Unit}

theorem reselect_neutral (hneutral : action.Neutral) (selUnits : Selection) :
    action.reselect selUnits = selUnits := by
  cases action with
  | unitIndexMove _ _ => cases hneutral
  | unitIndexMoveBoundary => cases hneutral
  | _ => rfl

/-- An action that leaves the selection turns into one that does, and a move
into the move back. -/
theorem turns (hswaps : unitSwaps.swaps action content back before) :
    (action.Neutral → back.Neutral) ∧ (¬ action.Neutral → back = action.turned) := by
  obtain ⟨hreverse, -⟩ := hswaps
  cases action with
  | unitChange unitIndex field data =>
      obtain ⟨unit, -, hrest⟩ := lt_of_reverse_bind hreverse
      cases hrest
      exact ⟨fun _ => trivial, fun hmoves => absurd trivial hmoves⟩
  | unitCreateDel index created =>
      cases created with
      | none =>
          obtain ⟨unit, -, hrest⟩ := lt_of_reverse_bind hreverse
          cases hrest
          exact ⟨fun _ => trivial, fun hmoves => absurd trivial hmoves⟩
      | some unit =>
          cases hreverse
          exact ⟨fun _ => trivial, fun hmoves => absurd trivial hmoves⟩
  | unitIndexMove oldIndex newIndex =>
      obtain ⟨unit, -, hrest⟩ := lt_of_reverse_bind hreverse
      cases hrest
      exact ⟨fun hneutral => hneutral.elim, fun _ => rfl⟩
  | unitIndexMoveBoundary =>
      cases hreverse
      exact ⟨fun hneutral => hneutral.elim, fun _ => rfl⟩

theorem length_of_swaps (hswaps : unitSwaps.swaps action content back before) :
    (before.length : ℤ) = content.length + action.growth := by
  have hvalid := validAt_of_swaps hswaps
  obtain ⟨hreverse, -⟩ := hswaps
  cases action with
  | unitChange unitIndex field data =>
      obtain ⟨unit, -, hrest⟩ := lt_of_reverse_bind hreverse
      cases hrest
      simp [growth]
  | unitCreateDel index created =>
      cases created with
      | none =>
          have hunit : content[index]? = some content[index] := List.getElem?_eq_getElem hvalid
          rw [reverse_delete hunit] at hreverse
          cases hreverse
          have hlength := List.length_eraseIdx_add_one hvalid
          simp only [growth]
          omega
      | some unit =>
          rw [reverse_create hvalid] at hreverse
          cases hreverse
          rw [List.length_insertIdx_of_le_length hvalid, growth]
          rfl
  | unitIndexMove oldIndex newIndex =>
      obtain ⟨hold, hnew⟩ := hvalid
      have hunit : content[newIndex]? = some content[newIndex] := List.getElem?_eq_getElem hnew
      have hle : oldIndex ≤ (content.eraseIdx newIndex).length := by
        rw [List.length_eraseIdx_of_lt hnew]
        omega
      rw [reverse_unitIndexMove hunit hold] at hreverse
      cases hreverse
      have hstays : (unitIndexMove oldIndex newIndex).growth = 0 := rfl
      rw [List.length_insertIdx_of_le_length hle, List.length_eraseIdx_of_lt hnew, hstays]
      omega
  | unitIndexMoveBoundary =>
      cases hreverse
      simp [growth]

theorem growth_of_not_neutral (hmoves : ¬ action.Neutral) : action.growth = 0 := by
  cases action with
  | unitIndexMove _ _ => rfl
  | unitIndexMoveBoundary => rfl
  | _ => exact absurd trivial hmoves

end UnitAction

/-- What the actions create, less what they delete. -/
def totalGrowth (actions : List UnitAction) : ℤ := (actions.map UnitAction.growth).sum

section Recorded

variable {actions backs : List UnitAction} {before after : List Chk.Unit}

theorem length_of_recorded (hrecorded : Recorded unitSwaps actions backs before after) :
    (before.length : ℤ) = after.length + totalGrowth actions := by
  induction hrecorded with
  | nil content => simp [totalGrowth]
  | cons hswaps _ ih =>
      have hlength := UnitAction.length_of_swaps hswaps
      rw [totalGrowth] at ih ⊢
      rw [List.map_cons, List.sum_cons]
      omega

theorem length_of_recorded_backs (hrecorded : Recorded unitSwaps actions backs before after) :
    (after.length : ℤ) = before.length + totalGrowth backs := by
  induction hrecorded with
  | nil content => simp [totalGrowth]
  | cons hswaps _ ih =>
      have hlength := UnitAction.length_of_swaps (unitSwaps.symm hswaps)
      rw [totalGrowth] at ih ⊢
      rw [List.map_cons, List.sum_cons]
      omega

theorem totalGrowth_reverse (actions : List UnitAction) :
    totalGrowth actions.reverse = totalGrowth actions := by
  rw [totalGrowth, totalGrowth, List.map_reverse, List.sum_reverse]

section

variable (hrecorded : Recorded unitSwaps actions backs before after)

include hrecorded

theorem neutral_of_recorded :
    (∀ action ∈ actions, action.Neutral) ↔ ∀ back ∈ backs, back.Neutral := by
  induction hrecorded with
  | nil content => simp
  | cons hswaps _ ih =>
      rw [List.forall_mem_cons, List.forall_mem_cons, ih]
      refine and_congr_left fun _ => ⟨(UnitAction.turns hswaps).1, ?_⟩
      exact (UnitAction.turns (unitSwaps.symm hswaps)).1

theorem turned_of_recorded (hmoves : ∀ action ∈ actions, ¬ action.Neutral) :
    backs = actions.map UnitAction.turned := by
  induction hrecorded with
  | nil content => rfl
  | cons hswaps _ ih =>
      rw [List.forall_mem_cons] at hmoves
      rw [List.map_cons, (UnitAction.turns hswaps).2 hmoves.1, ih hmoves.2]

theorem turned_of_recorded_backs (hmoves : ∀ back ∈ backs, ¬ back.Neutral) :
    actions = backs.map UnitAction.turned := by
  induction hrecorded with
  | nil content => rfl
  | cons hswaps _ ih =>
      rw [List.forall_mem_cons] at hmoves
      rw [List.map_cons, (UnitAction.turns (unitSwaps.symm hswaps)).2 hmoves.1, ih hmoves.2]

end

theorem totalGrowth_moves (hmoves : ∀ action ∈ actions, ¬ action.Neutral) :
    totalGrowth actions = 0 := by
  apply List.sum_eq_zero
  intro growth hgrowth
  obtain ⟨action, haction, rfl⟩ := List.mem_map.mp hgrowth
  exact UnitAction.growth_of_not_neutral (hmoves action haction)

theorem valid_moves (hrecorded : Recorded unitSwaps actions backs before after)
    (hmoves : ∀ action ∈ actions, ¬ action.Neutral) {oldIndex newIndex : ℕ}
    (hmem : UnitAction.unitIndexMove oldIndex newIndex ∈ actions) :
    oldIndex < before.length ∧ newIndex < before.length := by
  induction hrecorded with
  | nil content => cases hmem
  | @cons action back rest backs before middle after hswaps hrest ih =>
      rw [List.forall_mem_cons] at hmoves
      have hlength := UnitAction.length_of_swaps hswaps
      rw [UnitAction.growth_of_not_neutral hmoves.1] at hlength
      have hsame : before.length = middle.length := by omega
      rcases List.mem_cons.mp hmem with rfl | hmem
      · have hvalid := UnitAction.validAt_of_swaps hswaps
        rw [hsame]
        exact hvalid
      · rw [hsame]
        exact ih hmoves.2 hmem

end Recorded

/-- How an action or a group changes the selection. -/
inductive Orderly (action : Reversible UnitAction) : Prop
  | neutral (hneutral : ∀ single ∈ reversedActions action, single.Neutral)
  | moves {moves : List Move} (hne : moves ≠ [])
      (hactions : reversedActions action = moveGroup moves)
      (hsettles : Settles moves)

theorem not_neutral_of_mem_moveGroup {moves : List Move} {action : UnitAction}
    (haction : action ∈ moveGroup moves) : ¬ action.Neutral := by
  simp only [moveGroup, List.mem_append, List.mem_cons, List.mem_map,
    List.not_mem_nil, or_false] at haction
  rcases haction with (rfl | ⟨move, -, rfl⟩) | rfl
  · exact id
  · exact id
  · exact id

theorem reverse_moveGroup (moves : List Move) :
    (moveGroup moves).reverse = moveGroup moves.reverse := by
  simp [moveGroup]

theorem turned_moveGroup (moves : List Move) :
    (moveGroup moves).map UnitAction.turned = moveGroup (moves.map Move.back) := by
  simp only [moveGroup, List.map_append, List.map_cons, List.map_map, List.map_nil]
  rfl

theorem Orderly.back {action back : Reversible UnitAction}
    {content before : List Chk.Unit} (horderly : Orderly action)
    (hswaps : (Reversible.swapping unitSwaps).swaps action content back before) : Orderly back := by
  cases hswaps with
  | @action single back _ _ hswaps =>
      refine .neutral fun other hother => ?_
      rw [List.mem_singleton.mp hother]
      cases horderly with
      | neutral hneutral =>
          exact (UnitAction.turns hswaps).1 (hneutral single List.mem_cons_self)
      | moves _ hactions _ =>
          have hlength := congrArg List.length hactions
          simp [reversedActions, moveGroup] at hlength
  | @undone actions backs _ _ hrecorded =>
      have hreversed : reversedActions (.actions (.make actions)) =
          actions.reverse := rfl
      cases horderly with
      | neutral hneutral =>
          refine .neutral ((neutral_of_recorded hrecorded).mp ?_)
          intro action haction
          exact hneutral action (by rwa [hreversed, List.mem_reverse])
      | @moves moves hne hactions hsettles =>
          have hmake : actions = moveGroup moves.reverse := by
            rw [← reverse_moveGroup, ← hactions, hreversed, List.reverse_reverse]
          have hbacks := turned_of_recorded hrecorded fun action haction =>
            not_neutral_of_mem_moveGroup (hmake ▸ haction)
          rw [hmake, turned_moveGroup, List.map_reverse] at hbacks
          refine .moves ?_ hbacks hsettles.backs
          simpa using hne
  | @redone actions backs _ _ hrecorded =>
      have hreversed : reversedActions (.actions (.make actions)) =
          actions.reverse := rfl
      cases horderly with
      | neutral hneutral =>
          refine .neutral fun action haction => ?_
          rw [hreversed, List.mem_reverse] at haction
          exact (neutral_of_recorded hrecorded).mpr hneutral action haction
      | @moves moves hne hactions hsettles =>
          have hturned : backs = moveGroup moves := hactions
          have hmake := turned_of_recorded_backs hrecorded fun back hback =>
            not_neutral_of_mem_moveGroup (hturned ▸ hback)
          rw [hturned, turned_moveGroup] at hmake
          refine .moves ?_ ?_ hsettles.backs
          · simpa using hne
          · rw [hreversed, hmake, reverse_moveGroup]

/-- The selected units are still there, and the indices below the flag of
moved units. -/
def KeepsSelection (numUnits : ℕ) (selUnits : Selection) (action : Reversible UnitAction) : Prop :=
  (∀ index ∈ selUnits, (index.toNat : ℤ) < numUnits + totalGrowth (reversedActions action)) ∧
  ∀ oldIndex newIndex, UnitAction.unitIndexMove oldIndex newIndex ∈ reversedActions action →
      (oldIndex < 32768 ∧ newIndex < 32768) ∧ ∀ index ∈ selUnits, index.toNat < 32768

section

variable {action back : Reversible UnitAction} {content before : List Chk.Unit}
  (hswaps : (Reversible.swapping unitSwaps).swaps action content back before)

include hswaps

theorem length_of_reversible_swaps :
    (before.length : ℤ) = content.length + totalGrowth (reversedActions action) := by
  cases hswaps with
  | action hswaps =>
      have hlength := UnitAction.length_of_swaps hswaps
      simpa [reversedActions, totalGrowth] using hlength
  | @undone actions backs _ _ hrecorded =>
      have hreversed : reversedActions (.actions (.make actions)) =
          actions.reverse := rfl
      rw [hreversed, totalGrowth_reverse]
      exact length_of_recorded hrecorded
  | redone hrecorded => exact length_of_recorded_backs hrecorded

/-- The moves of a group that is reversed are between units. -/
theorem valid_moves_of_swaps {moves : List Move}
    (hactions : reversedActions action = moveGroup moves) :
    ∀ move ∈ moves, move.oldIndex < content.length ∧ move.newIndex < content.length := by
  intro move hmove
  have hmem : move.action ∈ moveGroup moves := by
    simp only [moveGroup, List.mem_append, List.mem_cons, List.mem_map]
    exact .inl (.inr ⟨move, hmove, rfl⟩)
  have hnot (single : UnitAction) (hsingle : single ∈ reversedActions action) : ¬ single.Neutral :=
    not_neutral_of_mem_moveGroup (hactions ▸ hsingle)
  have hlength := length_of_reversible_swaps hswaps
  rw [totalGrowth_moves hnot] at hlength
  rw [← hactions] at hmem
  cases hswaps with
  | action hswaps =>
      have hlength := congrArg List.length hactions
      simp [reversedActions, moveGroup] at hlength
  | @undone actions backs _ _ hrecorded =>
      have hreversed : reversedActions (.actions (.make actions)) =
          actions.reverse := rfl
      rw [hreversed, List.mem_reverse] at hmem
      have hvalid := valid_moves hrecorded
        (fun single hsingle => hnot single (List.mem_reverse.mpr hsingle)) hmem
      omega
  | @redone actions backs _ _ hrecorded =>
      -- The actions hold the same indices the other way round.
      have hbacks := turned_of_recorded_backs hrecorded hnot
      have hturned : UnitAction.unitIndexMove move.newIndex move.oldIndex ∈
          actions := by
        rw [hbacks]
        exact List.mem_map.mpr ⟨move.action, hmem, rfl⟩
      have hmakes : ∀ single ∈ actions, ¬ single.Neutral := by
        intro single hsingle
        rw [hbacks] at hsingle
        obtain ⟨back, hback, rfl⟩ := List.mem_map.mp hsingle
        have hbackNot := hnot back hback
        cases back with
        | unitIndexMove _ _ => exact id
        | unitIndexMoveBoundary => exact id
        | _ => exact absurd trivial hbackNot
      have hvalid := valid_moves hrecorded hmakes hturned
      exact ⟨hvalid.2, hvalid.1⟩

end

theorem within_reselected {action back : Reversible UnitAction}
    {content before : List Chk.Unit} {selUnits : Selection}
    (horderly : Orderly action)
    (hswaps : (Reversible.swapping unitSwaps).swaps action content back before)
    (hwithin : Within content.length selUnits)
    (hkeeps : KeepsSelection content.length selUnits action) :
    Within before.length (reselected action selUnits) := by
  have hlength := length_of_reversible_swaps hswaps
  cases horderly with
  | neutral hneutral =>
      have hstays : reselected action selUnits = selUnits := by
        rw [reselected]
        generalize reversedActions action = actions at hneutral
        induction actions with
        | nil => rfl
        | cons single rest ih =>
            rw [List.foldl_cons, UnitAction.reselect_neutral (hneutral single List.mem_cons_self)]
            exact ih fun other hother =>
              hneutral other (List.mem_cons_of_mem _ hother)
      rw [hstays]
      refine ⟨hwithin.1, fun index hindex => ?_⟩
      have hlt := hkeeps.1 index hindex
      omega
  | @moves moves hne hactions hsettles =>
      have hmem (move : Move) (hmove : move ∈ moves) :
          UnitAction.unitIndexMove move.oldIndex move.newIndex ∈ reversedActions action := by
        rw [hactions]
        simp only [moveGroup, List.mem_append, List.mem_cons, List.mem_map]
        exact .inl (.inr ⟨move, hmove, rfl⟩)
      have hsame : before.length = content.length := by
        rw [hactions, totalGrowth_moves fun _ => not_neutral_of_mem_moveGroup] at hlength
        omega
      obtain ⟨first, hfirst⟩ := List.exists_mem_of_ne_nil moves hne
      rw [hsame, reselected, hactions]
      exact within_moveGroup hsettles (valid_moves_of_swaps hswaps hactions)
        (fun move hmove => (hkeeps.2 _ _ (hmem move hmove)).1) hwithin
        (hkeeps.2 _ _ (hmem first hfirst)).2

end Chkdraft.Editor
