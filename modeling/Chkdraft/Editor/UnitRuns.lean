import Chkdraft.Editor.MapActions
import Chkdraft.Editor.UnitRecords

/-!
# Runs of unit edits, undo and redo

A redo is only right for what was undone since the last edit of the units:
`AddUndo` leaves the redo stack as it is, so an action undone before the edit is
replayed on units it was not recorded for.
-/

namespace Chkdraft.Editor

open Chk Scenario Sections Undo

variable {before content : List Chk.Unit} {actions backs : List UnitAction}

/-- The actions in the order in which they are reversed. -/
def reversedActions : Reversible UnitAction → List UnitAction
  | .action action => [action]
  | .actions group =>
      if group.reversed then group.actions.reverse else group.actions

/-- A unit edit, or undo or redo in the unit layer. -/
inductive UnitCommand where
  | edit (edit : UnitEdit)
  | undo
  | redo

/-- The change and the record of an edit. -/
def UnitEdit.recordedChange (sizes : List UnitSize) (edit : UnitEdit) (units : List Chk.Unit) :
    Except (Fault Exception) (List Chk.Unit × Reversible UnitAction) := do
  let (after, group) ← edit.change sizes units
  return (after, .actions group)

namespace UnitCommand

def command (sizes : List UnitSize) : UnitCommand → Command reversibles
  | edit change => .edit .unitChange (change.recordedChange sizes)
  | undo => .undo .unitChange
  | redo => .redo .unitChange

/-- The edits meet their conditions, and what is redone was undone since the
last edit. -/
def Meets (sizes : List UnitSize) (session : Session reversibles) : UnitCommand → Prop
  | edit change => change.Meets sizes (session.map.content .unitChange)
  | undo => True
  | redo => ofType .unitChange session.map.redos = [] ∨
      0 < session.fresh .unitChange

end UnitCommand

section Runs

variable {sizes : List UnitSize}
  {start : (type : UndoTypes) → reversibles.Content type}
  {session : Session reversibles}

section

variable {command : UnitCommand} (hreplays : session.Replays mapSwappings start)
  (hmeets : command.Meets sizes session)

include hreplays hmeets

end

end Runs

def oneUnit : Chk.Unit := ⟨0, 64, 64, 0, 0, 0, 0, 0, 100, 100, 100, 0, 0, 0, 0, 0⟩

end Chkdraft.Editor
