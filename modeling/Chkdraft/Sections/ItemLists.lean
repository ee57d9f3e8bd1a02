import Chkdraft.Chk.Records
import Chkdraft.Core.Fault

/-!
# Lists of triggers, units, sprites and doodads

The sections that hold a list of records keep them in a deque with the same
functions to add, insert, delete and move one.  Moving by more than one erases
the record and inserts it before `indexTo - 1`, wherever it came from, which for
`indexTo = 0` is a place before the first.
-/

namespace Chkdraft.Sections

open Chk

variable {A B : Type}

def insertItem (items : List A) (index : ℕ) (item : A) : List A :=
  if index < items.length then
    items.insertIdx index item
  else if index = items.length then
    items ++ [item]
  else
    items

def deleteItem (items : List A) (index : ℕ) : List A :=
  if index < items.length then items.eraseIdx index else items

def moveItem (items : List A) (indexFrom indexTo : ℕ) : Except Hazard (List A) :=
  if h : max indexFrom indexTo < items.length ∧ indexFrom ≠ indexTo then
    if max indexFrom indexTo - min indexFrom indexTo = 1 then
      .ok ((items.set (min indexFrom indexTo)
          items[max indexFrom indexTo]).set (max indexFrom indexTo)
        items[min indexFrom indexTo])
    else if indexTo = 0 then
      -- `std::next(begin, 0 - 1)` lies before the first element.
      .error .undefinedBehavior
    else
      .ok ((items.eraseIdx indexFrom).insertIdx (indexTo - 1) items[indexFrom])
  else
    .ok items

/-- `TrigSection::addTrigger`. -/
def addTrigger (triggers : List Trigger) (trigger : Trigger) : List Trigger := triggers ++ [trigger]

/-- `TrigSection::insertTrigger`. -/
def insertTrigger (triggers : List Trigger) (triggerIndex : ℕ) (trigger : Trigger) : List Trigger :=
  insertItem triggers triggerIndex trigger

/-- `TrigSection::deleteTrigger`. -/
def deleteTrigger (triggers : List Trigger) (triggerIndex : ℕ) : List Trigger :=
  deleteItem triggers triggerIndex

/-- `TrigSection::moveTrigger`. -/
def moveTrigger (triggers : List Trigger)
    (triggerIndexFrom triggerIndexTo : ℕ) : Except Hazard (List Trigger) :=
  moveItem triggers triggerIndexFrom triggerIndexTo

/-- `UnitSection::addUnit`. -/
def addUnit (units : List Chk.Unit) (unit : Chk.Unit) : List Chk.Unit := units ++ [unit]

/-- `UnitSection::insertUnit`. -/
def insertUnit (units : List Chk.Unit) (unitIndex : ℕ) (unit : Chk.Unit) : List Chk.Unit :=
  insertItem units unitIndex unit

/-- `UnitSection::deleteUnit`. -/
def deleteUnit (units : List Chk.Unit) (unitIndex : ℕ) : List Chk.Unit := deleteItem units unitIndex

/-- `UnitSection::moveUnit`. -/
def moveUnit (units : List Chk.Unit) (unitIndexFrom unitIndexTo : ℕ) :
    Except Hazard (List Chk.Unit) :=
  moveItem units unitIndexFrom unitIndexTo

/-- `Thg2Section::deleteSprite`. -/
def deleteSprite (sprites : List Sprite) (spriteIndex : ℕ) : List Sprite :=
  deleteItem sprites spriteIndex

/-- `Thg2Section::moveSprite`. -/
def moveSprite (sprites : List Sprite) (spriteIndexFrom spriteIndexTo : ℕ) :
    Except Hazard (List Sprite) :=
  moveItem sprites spriteIndexFrom spriteIndexTo

/-- `Dd2Section::deleteDoodad`. -/
def deleteDoodad (doodads : List Doodad) (doodadIndex : ℕ) : List Doodad :=
  deleteItem doodads doodadIndex

/-- `Dd2Section::moveDoodad`. -/
def moveDoodad (doodads : List Doodad) (doodadIndexFrom doodadIndexTo : ℕ) :
    Except Hazard (List Doodad) :=
  moveItem doodads doodadIndexFrom doodadIndexTo

/-- `MbrfSection::moveBriefingTrigger`. -/
def moveBriefingTrigger (briefingTriggers : List Trigger)
    (briefingTriggerIndexFrom briefingTriggerIndexTo : ℕ) :
    Except Hazard (List Trigger) :=
  moveItem briefingTriggers briefingTriggerIndexFrom briefingTriggerIndexTo

theorem insertItem_of_le {items : List A} {index : ℕ} (hle : index ≤ items.length) (item : A) :
    insertItem items index item = items.insertIdx index item := by
  unfold insertItem
  split
  · rfl
  · rename_i hge
    have heq : index = items.length := by omega
    rw [if_pos heq, heq, List.insertIdx_length_self]

theorem insertItem_of_lt {items : List A} {index : ℕ} (hlt : items.length < index) (item : A) :
    insertItem items index item = items := by
  rw [insertItem, if_neg (by omega), if_neg (by omega)]

theorem insertItem_map (change : A → B) (items : List A) (index : ℕ) (item : A) :
    insertItem (items.map change) index (change item) =
      (insertItem items index item).map change := by
  rcases Nat.lt_or_ge items.length index with hlt | hge
  · rw [insertItem_of_lt (by simpa using hlt), insertItem_of_lt hlt]
  · rw [insertItem_of_le (by simpa using hge), insertItem_of_le hge, List.map_insertIdx]

theorem deleteItem_map (change : A → B) (items : List A) (index : ℕ) :
    deleteItem (items.map change) index = (deleteItem items index).map change := by
  unfold deleteItem
  rw [List.length_map]
  split
  · rw [List.eraseIdx_map]
  · rfl

theorem moveItem_map (change : A → B) (items : List A) (indexFrom indexTo : ℕ) :
    moveItem (items.map change) indexFrom indexTo =
      (moveItem items indexFrom indexTo).map (List.map change) := by
  unfold moveItem
  by_cases hinside : max indexFrom indexTo < items.length ∧ indexFrom ≠ indexTo
  · have hinside' : max indexFrom indexTo < (items.map change).length ∧ indexFrom ≠ indexTo := by
      rw [List.length_map]
      exact hinside
    rw [dif_pos hinside, dif_pos hinside']
    split
    · simp [Except.map, List.map_set]
    · split
      · rfl
      · simp [Except.map, List.map_insertIdx, List.eraseIdx_map]
  · rw [dif_neg hinside, dif_neg]
    · rfl
    · rw [List.length_map]
      exact hinside

theorem deleteItem_sublist (items : List A) (index : ℕ) :
    (deleteItem items index).Sublist items := by
  unfold deleteItem
  split
  · exact List.eraseIdx_sublist items index
  · exact List.Sublist.refl items

theorem insertItem_perm (items : List A) (index : ℕ) (item : A) :
    (insertItem items index item).Perm (item :: items) ∨ insertItem items index item = items := by
  rcases Nat.lt_or_ge items.length index with hlt | hge
  · exact .inr (insertItem_of_lt hlt item)
  · rw [insertItem_of_le hge]
    exact .inl (List.perm_insertIdx item items hge)

theorem moveItem_perm {items moved : List A} {indexFrom indexTo : ℕ}
    (hmove : moveItem items indexFrom indexTo = .ok moved) :
    moved.Perm items := by
  unfold moveItem at hmove
  split at hmove
  · rename_i hinside
    have hfrom : indexFrom < items.length := by omega
    split at hmove
    · cases hmove
      exact List.set_set_perm (by omega) (by omega)
    · split at hmove
      · cases hmove
      · cases hmove
        have hle : indexTo - 1 ≤ (items.eraseIdx indexFrom).length := by
          rw [List.length_eraseIdx_of_lt hfrom]
          omega
        exact (List.perm_insertIdx _ _ hle).trans (List.getElem_cons_eraseIdx_perm hfrom)
  · cases hmove
    exact List.Perm.refl items

section

variable {items : List A} {index : ℕ} (hlt : index + 1 < items.length)

include hlt

/-- Swapping two neighbours moves the first one behind the second, or the
second one before the first. -/
theorem set_set_eq : (items.set index items[index + 1]).set (index + 1) items[index] =
        (items.eraseIdx index).insertIdx (index + 1) items[index] ∧
      (items.set index items[index + 1]).set (index + 1) items[index] =
        (items.eraseIdx (index + 1)).insertIdx index items[index + 1] := by
  induction items generalizing index with
  | nil => cases hlt
  | cons item rest ih =>
      cases index with
      | zero =>
          cases rest with
          | nil => exact absurd hlt (Nat.lt_irrefl 1)
          | cons other rest => exact ⟨rfl, rfl⟩
      | succ index =>
          obtain ⟨hbehind, hbefore⟩ := ih (Nat.lt_of_succ_lt_succ hlt)
          simp only [List.getElem_cons_succ, List.set_cons_succ,
            List.eraseIdx_cons_succ, List.insertIdx_succ_cons]
          exact ⟨congrArg (item :: ·) hbehind, congrArg (item :: ·) hbefore⟩

theorem moveItem_succ : moveItem items index (index + 1) =
      .ok ((items.eraseIdx index).insertIdx (index + 1) items[index]) := by
  have hmax : max index (index + 1) = index + 1 := by omega
  have hmin : min index (index + 1) = index := by omega
  simp only [moveItem, hmax, hmin, hlt, ne_eq, Nat.left_eq_add, one_ne_zero,
    not_false_eq_true, and_self, ↓reduceDIte, Nat.add_sub_cancel_left, ↓reduceIte]
  rw [(set_set_eq hlt).1]

theorem moveItem_pred : moveItem items (index + 1) index =
      .ok ((items.eraseIdx (index + 1)).insertIdx index items[index + 1]) := by
  have hmax : max (index + 1) index = index + 1 := by omega
  have hmin : min (index + 1) index = index := by omega
  simp only [moveItem, hmax, hmin, hlt, ne_eq, Nat.add_eq_left, one_ne_zero,
    not_false_eq_true, and_self, ↓reduceDIte, Nat.add_sub_cancel_left, ↓reduceIte]
  rw [(set_set_eq hlt).2]

end

/-- Moving within the list fails exactly for a move to the front by more than
one. -/
theorem moveItem_returns_iff (items : List A) (indexFrom indexTo : ℕ) :
    (∃ moved, moveItem items indexFrom indexTo = .ok moved) ↔
      ¬ (indexTo = 0 ∧ 2 ≤ indexFrom ∧ indexFrom < items.length) := by
  unfold moveItem
  split
  · rename_i hinside
    split
    · apply iff_of_true ⟨_, rfl⟩
      omega
    · split
      · apply iff_of_false
        · rintro ⟨moved, hmoved⟩
          cases hmoved
        · omega
      · apply iff_of_true ⟨_, rfl⟩
        omega
  · apply iff_of_true ⟨_, rfl⟩
    omega

end Chkdraft.Sections
