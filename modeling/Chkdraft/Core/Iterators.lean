import Chkdraft.Core.Fault
import Mathlib.Data.List.Basic
import Mathlib.Data.List.InsertIdx

/-!
# Iterators into a vector that is erased from

A loop remembers iterators into a vector and then erases what they point to,
one after the other.  Erasing an element invalidates its own iterator and those
behind it, so that only iterators in descending order could be used up this
way; the ones a loop finds ascend.
-/

namespace Iterators

variable {A : Type*}

/-- Erase at each position in turn; only iterators before `valid` may still be
used. -/
def eraseEach (valid : ℕ) (items : List A) : List ℕ → Except Hazard (List A)
  | [] => .ok items
  | position :: rest =>
      if position < valid then
        eraseEach position (items.eraseIdx position) rest
      else
        .error .undefinedBehavior

/-- Without a second position there is nothing to go wrong. -/
theorem eraseEach_singleton {items : List A} {position : ℕ} (hlt : position < items.length) :
    eraseEach items.length items [position] = .ok (items.eraseIdx position) := by
  rw [eraseEach, if_pos hlt, eraseEach]

theorem eraseEach_ascending {valid first second : ℕ} {items : List A}
    {rest : List ℕ} (hlt : first < second) :
    eraseEach valid items (first :: second :: rest) = .error .undefinedBehavior := by
  rw [eraseEach, eraseEach, if_neg (Nat.lt_asymm hlt), ite_self]

theorem eraseEach_map {B : Type*} (change : A → B) (valid : ℕ)
    (items : List A) (positions : List ℕ) :
    eraseEach valid (items.map change) positions =
      (eraseEach valid items positions).map (List.map change) := by
  induction positions generalizing valid items with
  | nil => rfl
  | cons position rest ih =>
      rw [eraseEach, eraseEach, List.eraseIdx_map, ih]
      split
      · rfl
      · rfl

theorem eraseIdx_eq_filter {found : A → Bool} {items : List A}
    {position : ℕ} (hfound : items.findIdxs found = [position]) :
    items.eraseIdx position = items.filter fun item => !found item := by
  induction items generalizing position with
  | nil => cases hfound
  | cons item items ih =>
      rw [List.findIdxs_cons, Nat.zero_add] at hfound
      cases hitem : found item with
      | true =>
          rw [if_pos hitem, List.cons.injEq, List.findIdxs_eq_nil_iff] at hfound
          obtain ⟨rfl, hothers⟩ := hfound
          have hkept : items.filter (fun item => !found item) = items :=
            List.filter_eq_self.mpr fun other hother => by
              rw [hothers other hother, Bool.not_false]
          rw [List.filter_cons_of_neg (by simp [hitem]), hkept]
          rfl
      | false =>
          rw [if_neg (by simp [hitem]), List.findIdxs_start, List.map_eq_singleton_iff] at hfound
          obtain ⟨before, hbefore, rfl⟩ := hfound
          rw [List.eraseIdx_cons_succ, ih hbefore, List.filter_cons_of_pos (by simp [hitem])]

/-- Erasing what a loop found works for at most one element. -/
theorem eraseEach_findIdxs (found : A → Bool) (items : List A) :
    eraseEach items.length items (items.findIdxs found) =
      if items.countP found ≤ 1 then
        .ok (items.filter fun item => !found item)
      else
        .error .undefinedBehavior := by
  have hcount : (items.findIdxs found).length = items.countP found := List.length_findIdxs
  cases hpositions : items.findIdxs found with
  | nil =>
      rw [hpositions, List.length_nil] at hcount
      rw [← hcount, if_pos (Nat.zero_le 1), eraseEach]
      refine congrArg Except.ok (Eq.symm (List.filter_eq_self.mpr ?_))
      intro item hitem
      rw [List.findIdxs_eq_nil_iff.mp hpositions item hitem, Bool.not_false]
  | cons first rest =>
      cases rest with
      | nil =>
          rw [hpositions, List.length_singleton] at hcount
          have hlt := List.lt_add_of_mem_findIdxs first (hpositions ▸ List.mem_singleton_self first)
          rw [← hcount, if_pos (Nat.le_refl 1), eraseEach_singleton hlt,
            eraseIdx_eq_filter hpositions]
      | cons second rest =>
          rw [hpositions, List.length_cons, List.length_cons] at hcount
          have hascending : (items.findIdxs found).Pairwise (· < ·) := List.pairwise_findIdxs
          rw [hpositions, List.pairwise_cons] at hascending
          rw [if_neg (by omega), eraseEach_ascending (hascending.1 second List.mem_cons_self)]

theorem eraseEach_flags (entries : List (A × Bool)) :
    eraseEach entries.length (entries.map Prod.fst) ((entries.map Prod.snd).findIdxs id) =
      if (entries.map Prod.snd).count true ≤ 1 then
        .ok ((entries.filter fun entry => !entry.2).map Prod.fst)
      else
        .error .undefinedBehavior := by
  have hcount : (entries.map Prod.snd).count true = entries.countP Prod.snd := by
    rw [List.count, List.countP_map]
    exact List.countP_congr fun entry _ => by simp
  rw [List.findIdxs_map, Function.id_comp, eraseEach_map, eraseEach_findIdxs, hcount]
  split
  · rfl
  · rfl

end Iterators
