import Chkdraft.Editor.UnitRecords

/-!
# Pasting without stacking

A unit is pasted if no unit on the map is in its way.  Both boxes of the test
have the extent of the type that is pasted, so a unit of another type can be
missed.
-/

namespace Chkdraft.Editor

open Chk Scenario Sections Undo

variable {size : UnitSize} {pasted unit : Chk.Unit} {sizes : List UnitSize}

/-- The pixels a unit covers, borders included. -/
structure Box where
  left : ℤ
  right : ℤ
  top : ℤ
  bottom : ℤ

def Box.Intersects (box other : Box) : Prop := (box.right ≥ other.left ∧ box.left ≤ other.right) ∧
    box.bottom ≥ other.top ∧ box.top ≤ other.bottom

instance (box other : Box) : Decidable (box.Intersects other) := inferInstanceAs (Decidable (_ ∧ _))

theorem Box.Intersects.symm {box other : Box} (h : box.Intersects other) : other.Intersects box :=
  ⟨⟨h.1.2, h.1.1⟩, h.2.2, h.2.1⟩

/-- The box of a unit with a given extent. -/
def boxOf (size : UnitSize) (unit : Chk.Unit) : Box where
  left := unit.xc.toNat - size.unitSizeLeft.toNat
  right := unit.xc.toNat + size.unitSizeRight.toNat
  top := unit.yc.toNat - size.unitSizeUp.toNat
  bottom := unit.yc.toNat + size.unitSizeDown.toNat

/-- The boxes of two units intersect, each with the extent of its own type. -/
def Intersecting (sizes : List UnitSize) (unit other : Chk.Unit) : Prop :=
  ∃ size ∈ sizes[unit.type.toNat]?, ∃ otherSize ∈ sizes[other.type.toNat]?,
    (boxOf size unit).Intersects (boxOf otherSize other)

theorem Intersecting.symm {other : Chk.Unit} (h : Intersecting sizes unit other) :
    Intersecting sizes other unit := by
  obtain ⟨size, hsize, otherSize, hotherSize, hintersects⟩ := h
  exact ⟨otherSize, hotherSize, size, hsize, hintersects.symm⟩

/-- No new unit intersects one that was there before, or another new one. -/
def Apart (sizes : List UnitSize) (units added : List Chk.Unit) : Prop :=
  (∀ new ∈ added, ∀ unit ∈ units, ¬ Intersecting sizes new unit) ∧
    added.Pairwise fun first second => ¬ Intersecting sizes first second

/-- The units on the map when `pasteUnits` has ended.  A type without an entry
in the table makes it throw, and leaves the units that were added before. -/
def unitsPasted (sizes : List UnitSize) (mapClickX mapClickY : ℤ) :
    List PasteUnitNode → List Chk.Unit → List Chk.Unit
  | [], units => units
  | node :: rest, units =>
      let pasted := node.placed mapClickX mapClickY
      if 0 ≤ mapClickX + node.xc ∧ 0 ≤ mapClickY + node.yc then
        match canPaste sizes false pasted units with
        | .ok true => unitsPasted sizes mapClickX mapClickY rest
            (addUnit units pasted)
        | .ok false => unitsPasted sizes mapClickX mapClickY rest units
        | .error _ => units
      else
        unitsPasted sizes mapClickX mapClickY rest units

section Loop

variable {mapClickX mapClickY : ℤ} {units : List Chk.Unit}

/-- Where `pasteUnits` returns, these are its units. -/
theorem unitsPasted_of_pasteUnits {clipboard : List PasteUnitNode} {after : List Chk.Unit}
    {actions : List UnitAction}
    (hpaste : pasteUnits sizes false mapClickX mapClickY clipboard units = .ok (after, actions)) :
    unitsPasted sizes mapClickX mapClickY clipboard units = after := by
  induction clipboard generalizing units actions with
  | nil => exact congrArg Prod.fst (Except.ok.inj hpaste)
  | cons node rest ih =>
      rw [pasteUnits] at hpaste
      rw [unitsPasted]
      split at hpaste
      next hon =>
        rw [if_pos hon]
        obtain ⟨passes, htest, hpaste⟩ := Fault.bind_eq_ok_iff.mp hpaste
        rw [htest]
        cases passes with
        | false => exact ih hpaste
        | true =>
            obtain ⟨others, hothers, hpaste⟩ := Fault.bind_eq_ok_iff.mp hpaste
            cases hpaste
            exact ih hothers
      next hoff =>
        rw [if_neg hoff]
        exact ih hpaste

end Loop

end Chkdraft.Editor
