import Chkdraft.Core.Fault
import Mathlib.Data.List.Basic

/-!
# Checked writes to an array

A write through a pointer into an array is a call that returns only when the
position is one of the array.  Writes to consecutive positions replace one
stretch of the array and leave the rest of it.
-/

namespace Memory

variable {A : Type}

/-- `array[index] = value`. -/
def store (array : List A) (index : ℕ) (value : A) : Except Hazard (List A) :=
  if index < array.length then
    .ok (array.set index value)
  else
    .error .undefinedBehavior

/-- Writes of the given values to consecutive positions. -/
def storeAll (array : List A) (index : ℕ) : List A → Except Hazard (List A)
  | [] => .ok array
  | value :: values => do
      let array ← store array index value
      storeAll array (index + 1) values

theorem store_of_lt {array : List A} {index : ℕ} (hlt : index < array.length)
    (value : A) : store array index value = .ok (array.set index value) :=
  if_pos hlt

/-- Consecutive writes inside the array return, and replace one stretch. -/
theorem storeAll_of_le {array values : List A} {index : ℕ}
    (hle : index + values.length ≤ array.length) :
    storeAll array index values = .ok (array.take index ++ values ++
        array.drop (index + values.length)) := by
  induction values generalizing array index with
  | nil => simp [storeAll]
  | cons value values ih =>
      rw [List.length_cons] at hle ⊢
      have hlt : index < array.length := by omega
      have hrest : index + 1 + values.length ≤ (array.set index value).length := by
        rw [List.length_set]
        omega
      have htake : (array.set index value).take (index + 1) = array.take index ++ [value] := by
        rw [List.take_add_one, List.take_set_of_le (Nat.le_refl index), List.getElem?_set_self hlt]
        rfl
      have hdrop : (array.set index value).drop (index + 1 + values.length) =
            array.drop (index + (values.length + 1)) := by
        rw [List.drop_set_of_lt (by omega)]
        congr 1
        omega
      rw [storeAll, store_of_lt hlt]
      change storeAll (array.set index value) (index + 1) values = _
      rw [ih hrest, htake, hdrop, List.append_assoc _ [value], List.singleton_append]

end Memory
