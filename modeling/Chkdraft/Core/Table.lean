import Mathlib.Data.List.GetD
import Mathlib.Data.List.ReduceOption
import Mathlib.Data.List.Perm.Basic

/-!
# Tables with holes

A list of optional entries, looked up by index: an index beyond the end is a
hole like any other.  `packed` is the lowest index that only holes separate from
an index, the place where the entry ends up when holes are filled from below.
-/

namespace Table

variable {A : Type*}

theorem getD_set (table : List (Option A)) (index other : ℕ)
    (entry : Option A) (hlt : index < table.length) :
    (table.set index entry).getD other none =
      if other = index then entry else table.getD other none := by
  rw [List.getD_eq_getElem?_getD, List.getElem?_set, List.getD_eq_getElem?_getD]
  by_cases heq : index = other
  · subst heq
    simp [hlt]
  · simp [heq, Ne.symm heq]

/-- Overwriting an entry keeps the stored values exactly if it keeps the
entry. -/
theorem perm_reduceOption_set_iff {table : List (Option A)} {index : ℕ}
    (hlt : index < table.length) (entry : Option A) :
    (table.set index entry).reduceOption.Perm table.reduceOption ↔
      entry = table.getD index none := by
  have hsplit : table = table.take index ++ table.getD index none :: table.drop (index + 1) := by
    rw [List.getD_eq_getElem _ _ hlt, List.getElem_cons_drop, List.take_append_drop]
  have hset : table.set index entry = table.take index ++ entry :: table.drop (index + 1) := by
    rw [List.set_eq_take_append_cons_drop, if_pos hlt]
  have hcons : ∀ first : Option A, (first :: table.drop (index + 1)).reduceOption =
        [first].reduceOption ++ (table.drop (index + 1)).reduceOption := by
    intro first
    rw [← List.reduceOption_append, List.singleton_append]
  rw [hset]
  nth_rewrite 3 [hsplit]
  rw [List.reduceOption_append, List.reduceOption_append, hcons, hcons,
    List.perm_append_left_iff, List.perm_append_right_iff]
  constructor
  · generalize table.getD index none = old
    intro hperm
    have hlength := hperm.length_eq
    cases entry with
    | none =>
        cases old with
        | none => rfl
        | some value => cases hlength
    | some value =>
        cases old with
        | none => cases hlength
        | some other =>
            have hsame : [value] = [other] := List.perm_singleton.mp hperm
            rw [(List.cons.inj hsame).1]
  · rintro rfl
    exact List.Perm.refl _

/-- The lowest index with only holes between it and the given one. -/
def packed (table : List (Option A)) : ℕ → ℕ
  | 0 => 0
  | index + 1 =>
      match table.getD index none with
      | none => packed table index
      | some _ => index + 1

theorem packed_succ_of_hole {table : List (Option A)} {index : ℕ}
    (hhole : table.getD index none = none) :
    packed table (index + 1) = packed table index := by
  rw [packed, hhole]

theorem packed_succ_of_stored {table : List (Option A)} {index : ℕ}
    (hstored : table.getD index none ≠ none) :
    packed table (index + 1) = index + 1 := by
  obtain ⟨entry, hentry⟩ := Option.ne_none_iff_exists'.mp hstored
  rw [packed, hentry]

theorem packed_le (table : List (Option A)) (index : ℕ) : packed table index ≤ index := by
  induction index with
  | zero => exact Nat.le_refl 0
  | succ index ih =>
      by_cases hhole : table.getD index none = none
      · rw [packed_succ_of_hole hhole]
        exact Nat.le_succ_of_le ih
      · exact Nat.le_of_eq (packed_succ_of_stored hhole)

/-- The packed index is the lowest one with only holes in between. -/
theorem packed_le_iff (table : List (Option A)) {lower index : ℕ} (hle : lower ≤ index) :
    packed table index ≤ lower ↔ ∀ between, lower ≤ between → between < index →
        table.getD between none = none := by
  induction index with
  | zero =>
      apply iff_of_true (Nat.zero_le lower)
      intro between _ hlt
      exact absurd hlt (Nat.not_lt_zero between)
  | succ index ih =>
      rcases Nat.lt_or_eq_of_le hle with hlt | rfl
      · have hlower : lower ≤ index := Nat.le_of_lt_succ hlt
        by_cases hhole : table.getD index none = none
        · rw [packed_succ_of_hole hhole, ih hlower]
          constructor
          · intro hholes between hfrom hto
            rcases Nat.lt_succ_iff_lt_or_eq.mp hto with hto | rfl
            · exact hholes between hfrom hto
            · exact hhole
          · intro hholes between hfrom hto
            exact hholes between hfrom (Nat.lt_succ_of_lt hto)
        · rw [packed_succ_of_stored hhole]
          apply iff_of_false (by omega)
          intro hholes
          exact hhole (hholes index hlower (Nat.lt_succ_self index))
      · apply iff_of_true (packed_le table (index + 1))
        intro between hfrom hto
        omega

/-- The packed index lies right above the nearest stored entry below. -/
theorem packed_eq_succ_iff (table : List (Option A)) {below index : ℕ} :
    packed table index = below + 1 ↔ below < index ∧ table.getD below none ≠ none ∧
        ∀ between, below < between → between < index → table.getD between none = none := by
  constructor
  · intro hpacked
    have hlt : below < index := by
      have hle := packed_le table index
      omega
    have hholes := (packed_le_iff table hlt).mp (Nat.le_of_eq hpacked)
    refine ⟨hlt, fun hhole => ?_, hholes⟩
    have hlower : packed table index ≤ below := by
      apply (packed_le_iff table (Nat.le_of_lt hlt)).mpr
      intro between hfrom hto
      rcases Nat.eq_or_lt_of_le hfrom with rfl | hfrom
      · exact hhole
      · exact hholes between hfrom hto
    omega
  · rintro ⟨hlt, hstored, hholes⟩
    have hle : packed table index ≤ below + 1 := (packed_le_iff table hlt).mpr hholes
    have hgt : ¬ packed table index ≤ below := by
      intro hlower
      exact hstored ((packed_le_iff table (Nat.le_of_lt hlt)).mp hlower below
          (Nat.le_refl below) hlt)
    omega

end Table
