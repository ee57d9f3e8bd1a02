import Chkdraft.Editor.UnitActions

/-!
# The unit edits

Pasting, deleting, reordering and changing units, each with the group of actions
that is recorded for it.  An edit that records nothing returns an empty group,
which `AddUndo` ignores.
-/

namespace Chkdraft.Editor

open Chk Scenario Sections Undo

/-- What a loop over units returns: the units and the actions inserted. -/
abbrev UnitLoop : Type := Except (Fault Exception) (List Chk.Unit × List UnitAction)

/-- The extent of a unit type, of the entry in the units data file. -/
structure UnitSize where
  unitSizeLeft : UInt16
  unitSizeUp : UInt16
  unitSizeRight : UInt16
  unitSizeDown : UInt16

/-- A unit on the clipboard, placed relative to the cursor. -/
structure PasteUnitNode where
  unit : Chk.Unit
  xc : ℤ
  yc : ℤ

/-- The unit where it is pasted; its coordinates are cut to 16 bits. -/
def PasteUnitNode.placed (node : PasteUnitNode) (mapClickX mapClickY : ℤ) : Chk.Unit :=
  { node.unit with
    xc := UInt16.ofInt (mapClickX + node.xc)
    yc := UInt16.ofInt (mapClickY + node.yc) }

/-- `Sc::Unit::getUnit`. -/
def getUnitSize (sizes : List UnitSize) (type : UInt16) : Except (Fault Exception) UnitSize :=
  match sizes[type.toNat]? with
  | some size => .ok size
  | none => .error (.thrown .outOfRange)

/-- Both extents are those of the type that is pasted. -/
def overlaps (size : UnitSize) (pasted unit : Chk.Unit) : Bool :=
  let left : ℤ := size.unitSizeLeft.toNat
  let right : ℤ := size.unitSizeRight.toNat
  let up : ℤ := size.unitSizeUp.toNat
  let down : ℤ := size.unitSizeDown.toNat
  (pasted.xc.toNat + right ≥ unit.xc.toNat - left) &&
    (pasted.xc.toNat - left ≤ unit.xc.toNat + right) &&
    (pasted.yc.toNat + down ≥ unit.yc.toNat - up) &&
    (pasted.yc.toNat - up ≤ unit.yc.toNat + down)

def canPaste (sizes : List UnitSize) (allowStack : Bool) (pasted : Chk.Unit)
    (units : List Chk.Unit) : Except (Fault Exception) Bool :=
  if allowStack then
    .ok true
  else do
    let size ← getUnitSize sizes pasted.type
    return !units.any (overlaps size pasted)

/-- The loop of `Clipboard::pasteUnits`.  A unit that lands on the map and may
stand there is added behind all others and recorded. -/
def pasteUnits (sizes : List UnitSize) (allowStack : Bool)
    (mapClickX mapClickY : ℤ) : List PasteUnitNode → List Chk.Unit → UnitLoop
  | [], units => .ok (units, [])
  | node :: rest, units =>
      if 0 ≤ mapClickX + node.xc ∧ 0 ≤ mapClickY + node.yc then do
        if ← canPaste sizes allowStack (node.placed mapClickX mapClickY) units then
          let (pasted, actions) ← pasteUnits sizes allowStack mapClickX
            mapClickY rest (addUnit units (node.placed mapClickX mapClickY))
          return (pasted, .unitCreateDel (u16 units.length) none :: actions)
        else
          pasteUnits sizes allowStack mapClickX mapClickY rest units
      else
        pasteUnits sizes allowStack mapClickX mapClickY rest units

/-- The loop that deletes the highest selected index until none is left, one a
round. -/
def deleteHighest : ℕ → List ℕ → List Chk.Unit → UnitLoop
  | 0, _, units => .ok (units, [])
  | rounds + 1, selection, units =>
      match selection.max? with
      | none => .ok (units, [])
      | some index => do
          let unit ← getUnit units index
          let (after, actions) ← deleteHighest rounds (selection.erase index)
            (deleteUnit units index)
          return (after, .unitCreateDel index (some unit) :: actions)

/-- `selections.sortUnits`. -/
def sortUnits (ascending : Bool) (selection : List ℕ) : List ℕ :=
  if ascending then
    selection.insertionSort (· ≤ ·)
  else
    selection.insertionSort (· ≥ ·)

def moveTopFrom (i : ℕ) : List ℕ → List Chk.Unit → UnitLoop
  | [], units => .ok (units, [])
  | unitIndex :: rest, units =>
      if unitIndex ≠ 0 then do
        let preserve ← getUnit units unitIndex
        let (after, actions) ← moveTopFrom (i + 1) rest
          (insertUnit (deleteUnit units unitIndex) i preserve)
        return (after, .unitIndexMove unitIndex i :: actions)
      else
        moveTopFrom (i + 1) rest units

/-- `numUnits` is read before the loop. -/
def moveEndFrom (numUnits i : ℕ) : List ℕ → List Chk.Unit → UnitLoop
  | [], units => .ok (units, [])
  | unitIndex :: rest, units =>
      if unitIndex + 1 ≠ numUnits then do
        let preserve ← getUnit units unitIndex
        let (after, actions) ← moveEndFrom numUnits (i + 1) rest
          (insertUnit (deleteUnit units unitIndex) (numUnits - i) preserve)
        return (after, .unitIndexMove unitIndex (u16 (numUnits - i)) :: actions)
      else
        moveEndFrom numUnits (i + 1) rest units

/-- The selection changes with the loop: `done` are its indices so far. -/
def moveUpFrom (done : List ℕ) : List ℕ → List Chk.Unit → UnitLoop
  | [], units => .ok (units, [])
  | unitIndex :: rest, units =>
      if 0 < unitIndex ∧ unitIndex - 1 ∉ done ++ unitIndex :: rest then do
        let moved ← Fault.ofHazard (moveUnit units unitIndex (unitIndex - 1))
        let (after, actions) ← moveUpFrom (done ++ [unitIndex - 1]) rest moved
        return (after, .unitIndexMove unitIndex (unitIndex - 1) :: actions)
      else
        moveUpFrom (done ++ [unitIndex]) rest units

/-- The last unit passes the check too, although there is no unit after it. -/
def moveDownFrom (done : List ℕ) : List ℕ → List Chk.Unit → UnitLoop
  | [], units => .ok (units, [])
  | unitIndex :: rest, units =>
      if unitIndex < units.length ∧ u16 (unitIndex + 1) ∉ done ++ unitIndex :: rest then do
        let moved ← Fault.ofHazard (moveUnit units unitIndex (unitIndex + 1))
        let (after, actions) ← moveDownFrom (done ++ [u16 (unitIndex + 1)]) rest moved
        return (after, .unitIndexMove unitIndex (u16 (unitIndex + 1)) :: actions)
      else
        moveDownFrom (done ++ [unitIndex]) rest units

/-- Delete the units of a selection, and return them with their indices. -/
def removeEach : List ℕ → List Chk.Unit →
    Except (Fault Exception) (List Chk.Unit × List (ℕ × Chk.Unit))
  | [], units => .ok (units, [])
  | unitIndex :: rest, units => do
      let unit ← getUnit units unitIndex
      let (after, removed) ← removeEach rest (deleteUnit units unitIndex)
      return (after, (unitIndex, unit) :: removed)

/-- What the units removed by a move are recorded as. -/
def deletions (removed : List (ℕ × Chk.Unit)) : List UnitAction :=
  removed.map fun (unitIndex, unit) => .unitCreateDel unitIndex (some unit)

/-- Insert units one after the other from an index on. -/
def insertFrom (index : ℕ) : List Chk.Unit → List Chk.Unit → List Chk.Unit × List UnitAction
  | [], units => (units, [])
  | unit :: rest, units =>
      let (after, actions) := insertFrom (index + 1) rest (insertUnit units index unit)
      (after, .unitCreateDel (u16 index) none :: actions)

/-- The moves between their two boundaries; without a move nothing is
recorded. -/
def bounded (moves : List UnitAction) : ReversibleActions UnitAction :=
  if moves = [] then
    .make []
  else
    .make (.unitIndexMoveBoundary :: moves ++ [.unitIndexMoveBoundary])

/-- What an edit leaves, with the group it records. -/
abbrev UnitEdited : Type := Except (Fault Exception) (List Chk.Unit × ReversibleActions UnitAction)

def recorded (loop : UnitLoop) : UnitEdited := do
  let (units, actions) ← loop
  return (units, .make actions)

def recordedMoves (loop : UnitLoop) : UnitEdited := do
  let (units, moves) ← loop
  return (units, bounded moves)

def deleteSelection (selection : List ℕ) (units : List Chk.Unit) : UnitEdited :=
  recorded (deleteHighest selection.length selection units)

/-- `UnitPropertiesWindow::NotifyMoveTopPressed`.  Here and in the next handlers
the units are moved one by one, and their moves make one undo entry. -/
def notifyMoveTopPressed (selection : List ℕ) (units : List Chk.Unit) : UnitEdited :=
  recordedMoves (moveTopFrom 0 (sortUnits true selection) units)

def notifyMoveEndPressed (selection : List ℕ) (units : List Chk.Unit) : UnitEdited :=
  recordedMoves (moveEndFrom units.length 1 (sortUnits false selection) units)

def notifyMoveUpPressed (selection : List ℕ) (units : List Chk.Unit) : UnitEdited :=
  recordedMoves (moveUpFrom [] (sortUnits true selection) units)

def notifyMoveDownPressed (selection : List ℕ) (units : List Chk.Unit) : UnitEdited :=
  recordedMoves (moveDownFrom [] (sortUnits false selection) units)

/-- `selections.numUnits`. -/
def numSelected (selection : List ℕ) : ℕ := min selection.length 65535

def notifyMoveToPressed (unitMoveTo : ℕ) (selection : List ℕ)
    (units : List Chk.Unit) : UnitEdited :=
  if unitMoveTo < units.length then
    if unitMoveTo = 0 then
      notifyMoveTopPressed selection units
    else if unitMoveTo + numSelected selection ≥ units.length then
      notifyMoveEndPressed selection units
    else if numSelected selection < selection.length then
      -- The array of the removed units has an entry less than the selection.
      .error (.hazard .undefinedBehavior)
    else do
      let (others, removed) ← removeEach (sortUnits false selection) units
      let (after, creates) := insertFrom unitMoveTo (removed.map Prod.snd).reverse others
      return (after, .make (deletions removed ++ creates))
  else
    .ok (units, .make [])

/-- Change a field of each selected unit for which `changes` holds. -/
def changeEach (field : UnitField) (changes : Chk.Unit → Bool)
    (value : Chk.Unit → UInt32) : List ℕ → List Chk.Unit → UnitLoop
  | [], units => .ok (units, [])
  | unitIndex :: rest, units => do
      let unit ← getUnit units unitIndex
      if changes unit then
        let (after, actions) ← changeEach field changes value rest
          (units.set unitIndex (field.set unit (value unit)))
        return (after, .unitChange unitIndex field (field.get unit) :: actions)
      else
        changeEach field changes value rest units

/-- `GuiMap::PlayerChanged`. -/
def playerChanged (newPlayer : UInt8) (selection : List ℕ) (units : List Chk.Unit) : UnitEdited :=
  recorded (changeEach .owner (fun _ => true) (fun _ => newPlayer.toUInt32) selection units)

/-- `UnitPropertiesWindow::ChangeCurrOwner`. -/
def changeCurrOwner (newOwner : UInt8) (selection : List ℕ) (units : List Chk.Unit) : UnitEdited :=
  recorded (changeEach .owner (fun unit => unit.owner != newOwner)
    (fun _ => newOwner.toUInt32) selection units)

/-- The five check boxes for the state of a unit. -/
inductive UnitState where
  | cloak | burrow | inTransit | hallucinated | invincible
deriving DecidableEq, Repr

def UnitState.flag : UnitState → UInt16
  | cloak => 1
  | burrow => 2
  | inTransit => 4
  | hallucinated => 8
  | invincible => 16

def notifyStateClicked (state : UnitState) (checked : Bool)
    (selection : List ℕ) (units : List Chk.Unit) : UnitEdited :=
  recorded (changeEach .stateFlags (fun _ => true) (fun unit =>
    (if checked then unit.stateFlags ||| state.flag
      else unit.stateFlags &&& ~~~state.flag).toUInt32) selection units)

def updateEach (field : UnitField) (value : UInt32) : List ℕ →
    List Chk.Unit → Except (Fault Exception) (List Chk.Unit)
  | [], units => .ok units
  | unitIndex :: rest, units => do
      let unit ← getUnit units unitIndex
      updateEach field value rest (units.set unitIndex (field.set unit value))

/-- A field edited in its text box: the values are preserved when the box gets
the focus, every number typed is set, and the changes are recorded when the box
loses the focus. -/
def editStats (field : UnitField) (typed : List UInt32) (selection : List ℕ)
    (units : List Chk.Unit) : UnitEdited := do
  let preservedValues ← selection.mapM fun unitIndex =>
    field.get <$> getUnit units unitIndex
  let edited ← typed.foldlM (fun units value => updateEach field value selection units) units
  return (edited, .make (List.zipWith (fun unitIndex value =>
    .unitChange unitIndex field value) selection preservedValues))

/-- A unit edit with the selection it is made on. -/
inductive UnitEdit where
  | paste (allowStack : Bool) (mapClickX mapClickY : ℤ)
      (clipboard : List PasteUnitNode)
  | delete (selection : List UInt16)
  | moveTop (selection : List UInt16)
  | moveEnd (selection : List UInt16)
  | moveUp (selection : List UInt16)
  | moveDown (selection : List UInt16)
  | moveTo (unitMoveTo : ℕ) (selection : List UInt16)
  | player (newPlayer : UInt8) (selection : List UInt16)
  | owner (newOwner : UInt8) (selection : List UInt16)
  | state (flag : UnitState) (checked : Bool) (selection : List UInt16)
  | stats (field : UnitField) (typed : List UInt32) (selection : List UInt16)

def indices (selection : List UInt16) : List ℕ := selection.map UInt16.toNat

namespace UnitEdit

def change (sizes : List UnitSize) (edit : UnitEdit) (units : List Chk.Unit) : UnitEdited :=
  match edit with
  | paste allowStack mapClickX mapClickY clipboard =>
      recorded (pasteUnits sizes allowStack mapClickX mapClickY clipboard units)
  | delete selection => deleteSelection (indices selection) units
  | moveTop selection => notifyMoveTopPressed (indices selection) units
  | moveEnd selection => notifyMoveEndPressed (indices selection) units
  | moveUp selection => notifyMoveUpPressed (indices selection) units
  | moveDown selection => notifyMoveDownPressed (indices selection) units
  | moveTo unitMoveTo selection =>
      notifyMoveToPressed unitMoveTo (indices selection) units
  | player newPlayer selection =>
      playerChanged newPlayer (indices selection) units
  | owner newOwner selection =>
      changeCurrOwner newOwner (indices selection) units
  | state flag checked selection =>
      notifyStateClicked flag checked (indices selection) units
  | stats field typed selection =>
      editStats field typed (indices selection) units

end UnitEdit

end Chkdraft.Editor
