import Chkdraft.Sections.ItemLists

/-!
# Moving a record to an index

A record that is moved should end at the index it was moved to.  Moves by one
place do that.  A longer move inserts the record one place before the index, so
it is right only where the record stands beside an equal one.
-/

namespace Chkdraft.Sections

open Chk

variable {A : Type} {items : List A} {indexFrom indexTo : ℕ}

/-- The call returns the list without the item, which is then put at its new
index. -/
def MovesTo (items : List A) (indexFrom indexTo : ℕ) (moved : Except Hazard (List A)) : Prop :=
  ∃ item, items[indexFrom]? = some item ∧
    moved = .ok ((items.eraseIdx indexFrom).insertIdx indexTo item)

/-- The condition: a move by one place, or one to an index where the item that
should end before the moved one is equal to it. -/
def MeetsMove (items : List A) (indexFrom indexTo : ℕ) : Prop :=
  indexTo = indexFrom + 1 ∨ indexFrom = indexTo + 1 ∨
    (indexFrom < indexTo ∧ items[indexTo]? = items[indexFrom]?) ∨
    (0 < indexTo ∧ indexTo < indexFrom ∧ items[indexTo - 1]? = items[indexFrom]?)

/-- One place earlier is the same place exactly before an equal item. -/
theorem insertIdx_eq_succ_iff {index : ℕ} (hlt : index < items.length) (item : A) :
    items.insertIdx index item = items.insertIdx (index + 1) item ↔ items[index]? = some item := by
  induction items generalizing index with
  | nil => cases hlt
  | cons head rest ih =>
      cases index with
      | zero =>
          simp only [List.insertIdx_zero, List.insertIdx_succ_cons,
            List.cons.injEq, List.getElem?_cons_zero, Option.some.injEq]
          constructor
          · intro h
            exact h.1.symm
          · rintro rfl
            exact ⟨rfl, rfl, trivial⟩
      | succ index =>
          rw [List.insertIdx_succ_cons, List.insertIdx_succ_cons, List.cons.injEq,
            List.getElem?_cons_succ, ← ih (Nat.lt_of_succ_lt_succ hlt)]
          exact and_iff_right rfl

theorem moveItem_of_far (hmax : max indexFrom indexTo < items.length)
    (hfar : 2 ≤ max indexFrom indexTo - min indexFrom indexTo) :
    moveItem items indexFrom indexTo =
      if indexTo = 0 then .error .undefinedBehavior
      else .ok ((items.eraseIdx indexFrom).insertIdx (indexTo - 1) items[indexFrom]) := by
  have hne : indexFrom ≠ indexTo := by
    rintro rfl
    omega
  unfold moveItem
  rw [dif_pos ⟨hmax, hne⟩, if_neg (by omega)]

theorem movesTo_succ_iff_of_far (hmax : max indexFrom (indexTo + 1) < items.length)
    (hfar : 2 ≤ max indexFrom (indexTo + 1) - min indexFrom (indexTo + 1)) :
    MovesTo items indexFrom (indexTo + 1) (moveItem items indexFrom (indexTo + 1)) ↔
      (items.eraseIdx indexFrom)[indexTo]? = items[indexFrom]? := by
  have hfrom : indexFrom < items.length := by omega
  have hinside : indexTo < (items.eraseIdx indexFrom).length := by
    rw [List.length_eraseIdx_of_lt hfrom]
    omega
  rw [moveItem_of_far hmax hfar, if_neg (Nat.succ_ne_zero indexTo), MovesTo,
    List.getElem?_eq_getElem hfrom, ← insertIdx_eq_succ_iff hinside]
  simp only [Option.some.injEq, exists_eq_left', Except.ok.injEq, Nat.add_sub_cancel]

/-- A move of any list does what it should exactly under the condition. -/
theorem moveItem_movesTo_iff (hmax : max indexFrom indexTo < items.length)
    (hne : indexFrom ≠ indexTo) :
    MovesTo items indexFrom indexTo (moveItem items indexFrom indexTo) ↔
      MeetsMove items indexFrom indexTo := by
  have hfrom : indexFrom < items.length := by omega
  have hitem := List.getElem?_eq_getElem hfrom
  by_cases hup : indexTo = indexFrom + 1
  · subst hup
    exact iff_of_true ⟨_, hitem, moveItem_succ (by omega)⟩ (.inl rfl)
  by_cases hdown : indexFrom = indexTo + 1
  · subst hdown
    exact iff_of_true ⟨_, hitem, moveItem_pred (by omega)⟩ (.inr (.inl rfl))
  have hfar : 2 ≤ max indexFrom indexTo - min indexFrom indexTo := by omega
  rw [MeetsMove, or_iff_right hup, or_iff_right hdown]
  cases indexTo with
  | zero =>
      rw [moveItem_of_far hmax hfar, if_pos rfl]
      apply iff_of_false
      · rintro ⟨item, -, hmoved⟩
        cases hmoved
      · omega
  | succ indexTo =>
      rw [movesTo_succ_iff_of_far hmax hfar, List.getElem?_eraseIdx, Nat.add_sub_cancel]
      split
      · rename_i hlt
        constructor
        · intro heq
          exact .inr ⟨Nat.succ_pos indexTo, by omega, heq⟩
        · rintro (⟨hbehind, -⟩ | ⟨-, -, heq⟩)
          · omega
          · exact heq
      · rename_i hge
        constructor
        · intro heq
          exact .inl ⟨by omega, heq⟩
        · rintro (⟨-, heq⟩ | ⟨-, hbefore, -⟩)
          · exact heq
          · omega

/-- The five functions move a record to its index exactly under the
condition. -/
theorem moves_iff (hne : indexFrom ≠ indexTo) :
    (∀ units : List Chk.Unit, max indexFrom indexTo < units.length →
      (MovesTo units indexFrom indexTo (moveUnit units indexFrom indexTo) ↔
        MeetsMove units indexFrom indexTo)) ∧
    (∀ doodads : List Doodad, max indexFrom indexTo < doodads.length →
      (MovesTo doodads indexFrom indexTo (moveDoodad doodads indexFrom indexTo) ↔
        MeetsMove doodads indexFrom indexTo)) ∧
    (∀ sprites : List Sprite, max indexFrom indexTo < sprites.length →
      (MovesTo sprites indexFrom indexTo (moveSprite sprites indexFrom indexTo) ↔
        MeetsMove sprites indexFrom indexTo)) ∧
    (∀ triggers : List Trigger, max indexFrom indexTo < triggers.length →
      (MovesTo triggers indexFrom indexTo (moveTrigger triggers indexFrom indexTo) ↔
        MeetsMove triggers indexFrom indexTo)) ∧
    ∀ briefingTriggers : List Trigger, max indexFrom indexTo < briefingTriggers.length →
      (MovesTo briefingTriggers indexFrom indexTo
          (moveBriefingTrigger briefingTriggers indexFrom indexTo) ↔
        MeetsMove briefingTriggers indexFrom indexTo) :=
  ⟨fun _ hmax => moveItem_movesTo_iff hmax hne, fun _ hmax => moveItem_movesTo_iff hmax hne,
    fun _ hmax => moveItem_movesTo_iff hmax hne,
    fun _ hmax => moveItem_movesTo_iff hmax hne,
    fun _ hmax => moveItem_movesTo_iff hmax hne⟩

/-- The first of two doodads is moved to the second place. -/
theorem moves_iff_neighbours : MovesTo [⟨0, 0, 0, 0, 0⟩, ⟨1, 0, 0, 0, 0⟩] 0 1
      (moveDoodad [⟨0, 0, 0, 0, 0⟩, ⟨1, 0, 0, 0, 0⟩] 0 1) :=
  ((moves_iff (by decide)).2.1 _ (by decide)).mpr (.inl rfl)

/-- The first of three doodads, moved to the third place, gets the second. -/
theorem moveDoodad_one_short : ¬ MovesTo [⟨0, 0, 0, 0, 0⟩, ⟨1, 0, 0, 0, 0⟩, ⟨2, 0, 0, 0, 0⟩] 0 2
      (moveDoodad [⟨0, 0, 0, 0, 0⟩, ⟨1, 0, 0, 0, 0⟩, ⟨2, 0, 0, 0, 0⟩] 0 2) := by
  rintro ⟨item, hitem, hmoved⟩
  cases hitem
  revert hmoved
  decide

end Chkdraft.Sections
