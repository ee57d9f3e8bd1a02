import Chkdraft.Editor.UnitRuns

/-!
# The selected units

The selection is a list of indices of its own.  Each command changes it besides
the units, and so do the moves among the actions that are reversed; creating or
deleting a unit by undo or redo leaves it.
-/

namespace Chkdraft.Editor

open Chk Scenario Sections Undo

/-- `selUnits`. -/
abbrev Selection : Type := List UInt16

namespace Selection

/-- `Selections::addUnit`; the latest unit comes first. -/
def addUnit (selUnits : Selection) (index : UInt16) : Selection :=
  if index ∈ selUnits then selUnits else index :: selUnits

def removeUnit (selUnits : Selection) (index : UInt16) : Selection := selUnits.erase index

def ensureFirst (selUnits : Selection) (index : UInt16) : Selection :=
  if 0 < selUnits.length ∧ selUnits.head? ≠ some index ∧ index ∈ selUnits then
    index :: selUnits.erase index
  else
    selUnits

/-- `getFirstUnit`, 0 if there is none. -/
def getFirstUnit (selUnits : Selection) : UInt16 := selUnits.head?.getD 0

/-- `UnitSortFlags::Moved`. -/
def moved : UInt16 := 32768

/-- The index of a selected unit when the unit at `newIndex` is moved back to
`oldIndex`. -/
def sentIndex (oldIndex newIndex unitIndex : UInt16) : UInt16 :=
  if unitIndex = newIndex then
    oldIndex ||| moved
  else if newIndex > unitIndex ∧ oldIndex ≤ unitIndex then
    unitIndex + 1
  else if newIndex < unitIndex ∧ oldIndex ≥ unitIndex then
    unitIndex - 1
  else
    unitIndex

/-- `Selections::sendMove`.  The moved unit is marked until `finishMove`, so that
no later move of the same group takes its index for another unit's. -/
def sendMove (selUnits : Selection) (oldIndex newIndex : UInt16) : Selection :=
  selUnits.map (sentIndex oldIndex newIndex)

def finishedIndex (unitIndex : UInt16) : UInt16 :=
  if unitIndex &&& moved ≠ 0 then unitIndex &&& ~~~moved else unitIndex

def finishMove (selUnits : Selection) : Selection := selUnits.map finishedIndex

/-- Indices written to the selection, which holds 16 bits of each. -/
def ofIndices (unitIndices : List ℕ) : Selection := unitIndices.map UInt16.ofNat

end Selection

open Selection

/-- `selectAll`, for as many units. -/
def selectAll (numUnits : ℕ) (selUnits : Selection) : Selection :=
  (List.range numUnits).foldl (fun selUnits index => addUnit selUnits (UInt16.ofNat index)) selUnits

/-- The indices `moveTopFrom` writes, with the unit on top of the stack. -/
def topIndices (i unitStackTopIndex : ℕ) : List ℕ → List ℕ × ℕ
  | [] => ([], unitStackTopIndex)
  | unitIndex :: rest =>
      if unitIndex ≠ 0 then
        let (others, top) := topIndices (i + 1)
          (if unitIndex = unitStackTopIndex then i else unitStackTopIndex) rest
        (i :: others, top)
      else
        let (others, top) := topIndices (i + 1) unitStackTopIndex rest
        (unitIndex :: others, top)

/-- The indices `moveEndFrom` writes. -/
def endIndices (numUnits i unitStackTopIndex : ℕ) : List ℕ → List ℕ × ℕ
  | [] => ([], unitStackTopIndex)
  | unitIndex :: rest =>
      if unitIndex + 1 ≠ numUnits then
        let (others, top) := endIndices numUnits (i + 1)
          (if unitIndex = unitStackTopIndex then u16 (numUnits - i)
            else unitStackTopIndex) rest
        ((numUnits - i) :: others, top)
      else
        let (others, top) := endIndices numUnits (i + 1) unitStackTopIndex rest
        (unitIndex :: others, top)

/-- The indices `moveUpFrom` leaves. -/
def upIndices (done : List ℕ) : List ℕ → List ℕ
  | [] => done
  | unitIndex :: rest =>
      if 0 < unitIndex ∧ unitIndex - 1 ∉ done ++ unitIndex :: rest then
        upIndices (done ++ [unitIndex - 1]) rest
      else
        upIndices (done ++ [unitIndex]) rest

/-- The indices `moveDownFrom` leaves. -/
def downIndices (numUnits : ℕ) (done : List ℕ) : List ℕ → List ℕ
  | [] => done
  | unitIndex :: rest =>
      if unitIndex < numUnits ∧ u16 (unitIndex + 1) ∉ done ++ unitIndex :: rest then
        downIndices numUnits (done ++ [u16 (unitIndex + 1)]) rest
      else
        downIndices numUnits (done ++ [unitIndex]) rest

/-- The selection with the unit on top of the stack first. -/
def stacked (moved : List ℕ × ℕ) : Selection :=
  ensureFirst (ofIndices moved.1) (UInt16.ofNat moved.2)

def topSelection (selUnits : Selection) : Selection :=
  stacked (topIndices 0 (getFirstUnit selUnits).toNat (sortUnits true (indices selUnits)))

def endSelection (numUnits : ℕ) (selUnits : Selection) : Selection :=
  stacked (endIndices numUnits 1 (getFirstUnit selUnits).toNat (sortUnits false (indices selUnits)))

/-- The indices of `NotifyMoveToPressed`, from the highest one down.  The unit
on top of the stack keeps the index it had. -/
def betweenSelection (unitMoveTo : ℕ) (selUnits : Selection) : Selection :=
  ensureFirst (finishMove (ofIndices ((List.range selUnits.length).map fun i =>
    unitMoveTo + (selUnits.length - 1) - i))) (getFirstUnit selUnits)

def toSelection (numUnits unitMoveTo : ℕ) (selUnits : Selection) : Selection :=
  if unitMoveTo < numUnits then
    if unitMoveTo = 0 then
      topSelection selUnits
    else if unitMoveTo + numSelected (indices selUnits) ≥ numUnits then
      endSelection numUnits selUnits
    else
      betweenSelection unitMoveTo selUnits
  else
    selUnits

/-- The part of `Reverse` that changes the selection. -/
def UnitAction.reselect (selUnits : Selection) : UnitAction → Selection
  | unitIndexMove oldIndex newIndex =>
      sendMove selUnits (UInt16.ofNat oldIndex) (UInt16.ofNat newIndex)
  | unitIndexMoveBoundary => finishMove selUnits
  | _ => selUnits

/-- The selection behind an action or a group that is reversed. -/
def reselected (action : Reversible UnitAction) (selUnits : Selection) : Selection :=
  (reversedActions action).foldl UnitAction.reselect selUnits

/-- The action on units a stack gives next. -/
def nextUnitAction (stack : List (Σ type, reversibles.Action type)) :
    Option (Reversible UnitAction) :=
  match pop UndoTypes.unitChange stack with
  | some (action, _) => some action
  | none => none

/-- The units with their undo stacks, and the selected ones. -/
structure Editing where
  session : Session reversibles
  selUnits : Selection

namespace Editing

def units (editing : Editing) : List Chk.Unit := editing.session.map.content .unitChange

end Editing

/-- The commands on units and on their selection. -/
inductive SelectionCommand where
  | add (index : UInt16)
  | remove (index : UInt16)
  | selectAll
  | paste (allowStack : Bool) (mapClickX mapClickY : ℤ)
      (clipboard : List PasteUnitNode)
  | delete
  | moveTop
  | moveEnd
  | moveUp
  | moveDown
  | moveTo (unitMoveTo : ℕ)
  | undo
  | redo

namespace SelectionCommand

/-- The edit of the units, undo or redo a command makes, if any. -/
def unitCommand (selUnits : Selection) : SelectionCommand → Option UnitCommand
  | add _ => none
  | remove _ => none
  | selectAll => none
  | paste allowStack mapClickX mapClickY clipboard =>
      some (.edit (.paste allowStack mapClickX mapClickY clipboard))
  | delete => some (.edit (.delete selUnits))
  | moveTop => some (.edit (.moveTop selUnits))
  | moveEnd => some (.edit (.moveEnd selUnits))
  | moveUp => some (.edit (.moveUp selUnits))
  | moveDown => some (.edit (.moveDown selUnits))
  | moveTo unitMoveTo => some (.edit (.moveTo unitMoveTo selUnits))
  | undo => some .undo
  | redo => some .redo

def select (editing : Editing) : SelectionCommand → Selection
  | add index => addUnit editing.selUnits index
  | remove index => removeUnit editing.selUnits index
  | selectAll => Editor.selectAll editing.units.length editing.selUnits
  | paste _ _ _ _ => editing.selUnits
  | delete => []
  | moveTop => topSelection editing.selUnits
  | moveEnd => endSelection editing.units.length editing.selUnits
  | moveUp => ofIndices
      (upIndices [] (sortUnits true (indices editing.selUnits)))
  | moveDown => ofIndices (downIndices editing.units.length []
      (sortUnits false (indices editing.selUnits)))
  | moveTo unitMoveTo =>
      toSelection editing.units.length unitMoveTo editing.selUnits
  | undo =>
      match nextUnitAction editing.session.map.undos with
      | some action => reselected action editing.selUnits
      | none => editing.selUnits
  | redo =>
      match nextUnitAction editing.session.map.redos with
      | some action => reselected action editing.selUnits
      | none => editing.selUnits

/-- `selectAll` counts in 16 bits, and never ends for more units. -/
def endless (editing : Editing) : SelectionCommand → Prop
  | selectAll => 65535 < editing.units.length
  | _ => False

instance (editing : Editing) (command : SelectionCommand) :
    Decidable (command.endless editing) := by
  unfold endless
  split <;> infer_instance

end SelectionCommand

namespace Editing

def opened (start : (type : UndoTypes) → reversibles.Content type) : Editing where
  session := .opened start
  selUnits := []

def step (sizes : List UnitSize) (editing : Editing)
    (command : SelectionCommand) : Except (Fault Exception) Editing :=
  if command.endless editing then
    .error (.hazard .endlessLoop)
  else
    match command.unitCommand editing.selUnits with
    | none => .ok { editing with selUnits := command.select editing }
    | some unitCommand => do
        let session ← editing.session.step (unitCommand.command sizes)
        return ⟨session, command.select editing⟩

def run (sizes : List UnitSize) (start : (type : UndoTypes) → reversibles.Content type)
    (commands : List SelectionCommand) : Except (Fault Exception) Editing :=
  commands.foldlM (step sizes) (opened start)

end Editing

end Chkdraft.Editor
