import Mathlib.Algebra.BigOperators.Group.List.Basic
import Mathlib.Algebra.GroupWithZero.Nat
import Mathlib.Data.List.GetD

/-!
# Structures of arrays without padding

A structure is a row of arrays, one directly behind the other, each of items of
one width.  Every item has bytes of its own: items are inside the structure and
no two of them share a byte.
-/

/-- An array of a structure. -/
structure PackedArray where
  width : ℕ
  count : ℕ
deriving DecidableEq

/-- An item of one of the arrays of a structure. -/
structure PackedItem where
  array : ℕ
  index : ℕ
deriving DecidableEq

namespace PackedLayout

variable {layout : List PackedArray} {item other : PackedItem}

def size (layout : List PackedArray) : ℕ := (layout.map fun array => array.width * array.count).sum

def width (layout : List PackedArray) (array : ℕ) : ℕ := (layout.getD array ⟨0, 0⟩).width

def position (layout : List PackedArray) (item : PackedItem) : ℕ :=
  size (layout.take item.array) + width layout item.array * item.index

def Inside (layout : List PackedArray) (item : PackedItem) : Prop :=
  item.index < (layout.getD item.array ⟨0, 0⟩).count

instance : Decidable (Inside layout item) := inferInstanceAs (Decidable (_ < _))

theorem size_take_succ {array : ℕ} (hlt : array < layout.length) :
    size (layout.take (array + 1)) = size (layout.take array) +
        width layout array * (layout.getD array ⟨0, 0⟩).count := by
  rw [size, List.take_succ_eq_append_getElem hlt, List.map_append,
    List.sum_append, size, width, List.getD_eq_getElem _ _ hlt]
  rfl

theorem size_take_mono {first last : ℕ} (hle : first ≤ last) :
    size (layout.take first) ≤ size (layout.take last) := by
  have hprefix : layout.take last =
      layout.take first ++ (layout.drop first).take (last - first) := by
    rw [← List.take_add, Nat.add_sub_cancel' hle]
  rw [size, size, hprefix, List.map_append, List.sum_append]
  omega

theorem size_take_le_position {array : ℕ} (hle : array ≤ item.array) :
    size (layout.take array) ≤ position layout item :=
  Nat.le_trans (size_take_mono hle) (Nat.le_add_right _ _)

theorem Inside.array_lt (hinside : Inside layout item) : item.array < layout.length := by
  by_contra hge
  rw [Inside, List.getD_eq_default _ _ (Nat.le_of_not_lt hge)] at hinside
  exact Nat.not_lt_zero _ hinside

theorem Inside.position_add_le (hinside : Inside layout item) :
    position layout item + width layout item.array ≤ size (layout.take (item.array + 1)) := by
  have hmul : width layout item.array * (item.index + 1) ≤ _ := Nat.mul_le_mul_left _ hinside
  rw [Nat.mul_succ] at hmul
  rw [size_take_succ hinside.array_lt, position]
  omega

theorem Inside.position_add_le_size (hinside : Inside layout item) :
    position layout item + width layout item.array ≤ size layout := by
  have hend : size (layout.take (item.array + 1)) ≤
      size (layout.take layout.length) := size_take_mono hinside.array_lt
  rw [List.take_length] at hend
  exact Nat.le_trans hinside.position_add_le hend

theorem position_add_le_of_lt (harray : item.array = other.array) (hlt : item.index < other.index) :
    position layout item + width layout item.array ≤ position layout other := by
  have hmul := Nat.mul_le_mul_left (width layout item.array) hlt
  rw [Nat.mul_succ] at hmul
  rw [position, position, ← harray]
  omega

theorem Inside.disjoint (hinside : Inside layout item)
    (hother : Inside layout other) (hne : item ≠ other) :
    position layout item + width layout item.array ≤ position layout other ∨
      position layout other + width layout other.array ≤ position layout item := by
  rcases Nat.lt_trichotomy item.array other.array with hlt | heq | hgt
  · exact Or.inl (Nat.le_trans hinside.position_add_le (size_take_le_position hlt))
  · have hindex : item.index ≠ other.index := by
      intro hindex
      exact hne (by cases item; cases other; simp_all)
    exact (Nat.lt_or_gt_of_ne hindex).imp (position_add_le_of_lt heq)
      (position_add_le_of_lt heq.symm)
  · exact Or.inr (Nat.le_trans hother.position_add_le (size_take_le_position hgt))

end PackedLayout
