import Chkdraft.Editor.Undos
import Chkdraft.Scenario.Strings
import Chkdraft.Sections.ItemLists

/-!
# Edits of the units and what they record

The unit edits work on the selected units, one after the other, and insert an
action for each of them into a group.  The actions hold indices of 16 bits, which
mean a place in the list the action was recorded at.
-/

namespace Chkdraft.Editor

open Chk Scenario Sections Undo

variable {units : List Chk.Unit} {unitIndex : ℕ} {unit : Chk.Unit}

/-- A conversion to `u16`. -/
def u16 (value : ℕ) : ℕ := value % 65536

theorem u16_of_lt {value : ℕ} (hlt : value < 65536) : u16 value = value := Nat.mod_eq_of_lt hlt

/-- `UnitSection::getUnit` does not check its index. -/
def getUnit (units : List Chk.Unit) (unitIndex : ℕ) : Except (Fault Exception) Chk.Unit :=
  match units[unitIndex]? with
  | some unit => .ok unit
  | none => .error (.hazard .undefinedBehavior)

/-- `Chk::Unit::Field`. -/
inductive UnitField where
  | classId | xc | yc | type | relationFlags | validStateFlags | validFieldFlags
  | owner | hitpointPercent | shieldPercent | energyPercent | resourceAmount
  | hangerAmount | stateFlags | unused | relationClassId
deriving DecidableEq, Repr

namespace UnitField

def get (unit : Chk.Unit) : UnitField → UInt32
  | classId => unit.classId
  | xc => unit.xc.toUInt32
  | yc => unit.yc.toUInt32
  | type => unit.type.toUInt32
  | relationFlags => unit.relationFlags.toUInt32
  | validStateFlags => unit.validStateFlags.toUInt32
  | validFieldFlags => unit.validFieldFlags.toUInt32
  | owner => unit.owner.toUInt32
  | hitpointPercent => unit.hitpointPercent.toUInt32
  | shieldPercent => unit.shieldPercent.toUInt32
  | energyPercent => unit.energyPercent.toUInt32
  | resourceAmount => unit.resourceAmount
  | hangerAmount => unit.hangerAmount.toUInt32
  | stateFlags => unit.stateFlags.toUInt32
  | unused => unit.unused
  | relationClassId => unit.relationClassId

def set (unit : Chk.Unit) (data : UInt32) : UnitField → Chk.Unit
  | classId => { unit with classId := data }
  | xc => { unit with xc := data.toUInt16 }
  | yc => { unit with yc := data.toUInt16 }
  | type => { unit with type := data.toUInt16 }
  | relationFlags => { unit with relationFlags := data.toUInt16 }
  | validStateFlags => { unit with validStateFlags := data.toUInt16 }
  | validFieldFlags => { unit with validFieldFlags := data.toUInt16 }
  | owner => { unit with owner := data.toUInt8 }
  | hitpointPercent => { unit with hitpointPercent := data.toUInt8 }
  | shieldPercent => { unit with shieldPercent := data.toUInt8 }
  | energyPercent => { unit with energyPercent := data.toUInt8 }
  | resourceAmount => { unit with resourceAmount := data }
  | hangerAmount => { unit with hangerAmount := data.toUInt16 }
  | stateFlags => { unit with stateFlags := data.toUInt16 }
  | unused => { unit with unused := data }
  | relationClassId => { unit with relationClassId := data }

@[simp]
theorem set_get (field : UnitField) (unit : Chk.Unit) : field.set unit (field.get unit) = unit := by
  cases field <;> simp [set, get]

@[simp]
theorem set_set (field : UnitField) (unit : Chk.Unit) (data other : UInt32) :
    field.set (field.set unit data) other = field.set unit other := by
  cases field <;> rfl

@[simp]
theorem set_get_set (field : UnitField) (unit : Chk.Unit) (data : UInt32) :
    field.set unit (field.get (field.set unit data)) = field.set unit data := by
  rw [← set_set field unit data, set_get]

end UnitField

inductive UnitAction where
  | unitChange (unitIndex : ℕ) (field : UnitField) (data : UInt32)
  | unitCreateDel (index : ℕ) (unit : Option Chk.Unit)
  | unitIndexMove (oldIndex newIndex : ℕ)
  | unitIndexMoveBoundary
deriving DecidableEq

namespace UnitAction

/-- `Reverse`, up to the selection, which the boundaries and moves also
change. -/
def reverse (action : UnitAction) (units : List Chk.Unit) :
    Except (Fault Exception) (List Chk.Unit × UnitAction) :=
  match action with
  | unitChange unitIndex field data => do
      let unit ← getUnit units unitIndex
      return (units.set unitIndex (field.set unit data),
        unitChange unitIndex field (field.get unit))
  | unitCreateDel index none => do
      let unit ← getUnit units index
      return (deleteUnit units index, unitCreateDel index (some unit))
  | unitCreateDel index (some unit) =>
      .ok (insertUnit units index unit, unitCreateDel index none)
  | unitIndexMove oldIndex newIndex => do
      let preserve ← getUnit units newIndex
      return (insertUnit (deleteUnit units newIndex) oldIndex preserve,
        unitIndexMove newIndex oldIndex)
  | unitIndexMoveBoundary => .ok (units, unitIndexMoveBoundary)

/-- The indices an action uses are those of units, or of a place to insert
one. -/
def ValidAt (units : List Chk.Unit) : UnitAction → Prop
  | unitChange unitIndex _ _ => unitIndex < units.length
  | unitCreateDel index none => index < units.length
  | unitCreateDel index (some _) => index ≤ units.length
  | unitIndexMove oldIndex newIndex =>
      oldIndex < units.length ∧ newIndex < units.length
  | unitIndexMoveBoundary => True

end UnitAction

theorem getUnit_of_getElem? (hunit : units[unitIndex]? = some unit) :
    getUnit units unitIndex = .ok unit := by
  rw [getUnit, hunit]

theorem getUnit_eq_ok_iff : getUnit units unitIndex = .ok unit ↔ units[unitIndex]? = some unit := by
  unfold getUnit
  split <;> simp_all

/-- Two contents and two actions that reversing takes to each other. -/
abbrev unitSwaps : Swapping UnitAction.reverse := exactly UnitAction.reverse

namespace UnitAction

variable {units : List Chk.Unit} {unit : Chk.Unit} {index other : ℕ}

theorem reverse_unitChange {field : UnitField} (data : UInt32) (hunit : units[index]? = some unit) :
    reverse (unitChange index field data) units = .ok (units.set index (field.set unit data),
        unitChange index field (field.get unit)) := by
  rw [reverse, getUnit_of_getElem? hunit]
  rfl

theorem reverse_delete (hunit : units[index]? = some unit) :
    reverse (unitCreateDel index none) units =
      .ok (units.eraseIdx index, unitCreateDel index (some unit)) := by
  have hlt := (List.getElem?_eq_some_iff.mp hunit).1
  rw [reverse, getUnit_of_getElem? hunit, deleteUnit, deleteItem, if_pos hlt]
  rfl

theorem reverse_create (hle : index ≤ units.length) (unit : Chk.Unit) :
    reverse (unitCreateDel index (some unit)) units =
      .ok (units.insertIdx index unit, unitCreateDel index none) := by
  rw [reverse, insertUnit, insertItem_of_le hle]

theorem reverse_unitIndexMove (hunit : units[index]? = some unit) (hother : other < units.length) :
    reverse (unitIndexMove other index) units =
      .ok ((units.eraseIdx index).insertIdx other unit, unitIndexMove index other) := by
  have hlt := (List.getElem?_eq_some_iff.mp hunit).1
  have hle : other ≤ (units.eraseIdx index).length := by
    rw [List.length_eraseIdx_of_lt hlt]
    omega
  rw [reverse, getUnit_of_getElem? hunit]
  change Except.ok (insertUnit (deleteUnit units index) other unit, _) = _
  rw [deleteUnit, deleteItem, if_pos hlt, insertUnit, insertItem_of_le hle]

theorem insertIdx_eraseIdx (hunit : units[index]? = some unit) :
    (units.eraseIdx index).insertIdx index unit = units := by
  obtain ⟨hlt, rfl⟩ := List.getElem?_eq_some_iff.mp hunit
  exact List.insertIdx_eraseIdx_getElem hlt

theorem swaps_unitChange (field : UnitField) (data : UInt32) (hunit : units[index]? = some unit) :
    unitSwaps.swaps (unitChange index field (field.get unit))
      (units.set index (field.set unit data))
      (unitChange index field (field.get (field.set unit data))) units := by
  obtain ⟨hlt, -⟩ := List.getElem?_eq_some_iff.mp hunit
  have hset : (units.set index (field.set unit data))[index]? = some (field.set unit data) := by
    simp [hlt]
  have hback : units.set index unit = units := by
    rw [← Option.some_inj.mp (hunit.symm.trans (List.getElem?_eq_getElem hlt)).symm]
    exact List.set_getElem_self hlt
  constructor
  · rw [reverse_unitChange _ hset, UnitField.set_set, UnitField.set_get, List.set_set, hback]
  · rw [reverse_unitChange _ hunit, UnitField.set_get_set]

theorem swaps_delete (hunit : units[index]? = some unit) :
    unitSwaps.swaps (unitCreateDel index (some unit)) (units.eraseIdx index)
      (unitCreateDel index none) units := by
  have hlt := (List.getElem?_eq_some_iff.mp hunit).1
  have hle : index ≤ (units.eraseIdx index).length := by
    rw [List.length_eraseIdx_of_lt hlt]
    omega
  constructor
  · rw [reverse_create hle, insertIdx_eraseIdx hunit]
  · rw [reverse_delete hunit]

theorem swaps_create (hle : index ≤ units.length) (unit : Chk.Unit) :
    unitSwaps.swaps (unitCreateDel index none) (units.insertIdx index unit)
      (unitCreateDel index (some unit)) units := by
  have hunit : (units.insertIdx index unit)[index]? = some unit := by
    rw [List.getElem?_insertIdx_self, if_pos hle]
  constructor
  · rw [reverse_delete hunit, List.eraseIdx_insertIdx_self]
  · rw [reverse_create hle]

theorem swaps_unitIndexMove (hunit : units[index]? = some unit) (hother : other < units.length) :
    unitSwaps.swaps (unitIndexMove index other) ((units.eraseIdx index).insertIdx other unit)
      (unitIndexMove other index) units := by
  have hlt := (List.getElem?_eq_some_iff.mp hunit).1
  have hle : other ≤ (units.eraseIdx index).length := by
    rw [List.length_eraseIdx_of_lt hlt]
    omega
  have hmoved : ((units.eraseIdx index).insertIdx other unit)[other]? = some unit := by
    rw [List.getElem?_insertIdx_self, if_pos hle]
  have hlength : index < ((units.eraseIdx index).insertIdx other unit).length := by
    rw [List.length_insertIdx_of_le_length hle, List.length_eraseIdx_of_lt hlt]
    omega
  constructor
  · rw [reverse_unitIndexMove hmoved hlength, List.eraseIdx_insertIdx_self,
      insertIdx_eraseIdx hunit]
  · rw [reverse_unitIndexMove hunit hother]

theorem swaps_unitIndexMoveBoundary (units : List Chk.Unit) :
    unitSwaps.swaps unitIndexMoveBoundary units unitIndexMoveBoundary units :=
  ⟨rfl, rfl⟩

/-- What `getUnit` returned was in the list. -/
theorem lt_of_reverse_bind {B : Type} {rest : Chk.Unit → Except (Fault Exception) B} {value : B}
    (hreverse : (getUnit units index >>= rest) = .ok value) :
    ∃ unit, index < units.length ∧ rest unit = .ok value := by
  obtain ⟨unit, hunit, hrest⟩ := Fault.bind_eq_ok_iff.mp hreverse
  have hlt := (List.getElem?_eq_some_iff.mp (getUnit_eq_ok_iff.mp hunit)).1
  exact ⟨unit, hlt, hrest⟩

/-- An action that can be taken back was reversed at valid indices. -/
theorem validAt_of_swaps {action back : UnitAction}
    {content before : List Chk.Unit}
    (hswaps : unitSwaps.swaps action content back before) :
    action.ValidAt content := by
  obtain ⟨hreverse, hback⟩ := hswaps
  cases action with
  | unitChange unitIndex field data =>
      obtain ⟨unit, hlt, -⟩ := lt_of_reverse_bind hreverse
      exact hlt
  | unitCreateDel index created =>
      cases created with
      | none =>
          obtain ⟨unit, hlt, -⟩ := lt_of_reverse_bind hreverse
          exact hlt
      | some unit =>
          cases hreverse
          obtain ⟨-, hlt, -⟩ := lt_of_reverse_bind hback
          -- Past the end nothing would have been inserted.
          by_contra hinvalid
          have hgt : content.length < index := Nat.lt_of_not_le hinvalid
          rw [insertUnit, insertItem_of_lt hgt] at hlt
          exact absurd hlt (Nat.not_lt.mpr hgt.le)
  | unitIndexMove oldIndex newIndex =>
      obtain ⟨unit, hnew, hrest⟩ := lt_of_reverse_bind hreverse
      cases hrest
      obtain ⟨-, hold, -⟩ := lt_of_reverse_bind hback
      refine ⟨?_, hnew⟩
      by_contra hinvalid
      have hlength : (deleteUnit content newIndex).length + 1 =
          content.length := by
        rw [deleteUnit, deleteItem, if_pos hnew]
        exact List.length_eraseIdx_add_one hnew
      have hgt : (deleteUnit content newIndex).length < oldIndex := by omega
      rw [insertUnit, insertItem_of_lt hgt] at hold
      omega
  | unitIndexMoveBoundary => trivial

end UnitAction

end Chkdraft.Editor
