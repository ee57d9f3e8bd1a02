import Mathlib.Data.List.Infix

/-!
# The last place of a pattern in a text

`std::string::rfind` and `find` give a position, or `npos` where there is none.
Positions and the differences of lengths they are compared with are unsigned
and wrap around; read as integers, `npos` is −1, which is also what a
difference one below zero wraps to.
-/

namespace Positions

variable {A : Type*} [DecidableEq A]

/-- The last position a pattern stands at. -/
def last? (pattern : List A) : List A → Option ℕ
  | [] => if pattern = [] then some 0 else none
  | head :: tail =>
      match last? pattern tail with
      | some position => some (position + 1)
      | none => if pattern.isPrefixOf (head :: tail) then some 0 else none

def npos : ℤ := -1

/-- `std::string::rfind`. -/
def rfind (pattern text : List A) : ℤ :=
  match last? pattern text with
  | some position => position
  | none => npos

/-- `find(pattern) == 0`. -/
def startsWith (pattern text : List A) : Bool := pattern.isPrefixOf text

/-- A pattern stands where it is found, and ends inside the text. -/
theorem exists_of_last? {pattern text : List A} {position : ℕ}
    (hlast : last? pattern text = some position) :
    ∃ before rest, text = before ++ (pattern ++ rest) ∧ before.length = position := by
  induction text generalizing position with
  | nil =>
      rw [last?] at hlast
      split at hlast
      · next hnil =>
          cases hlast
          exact ⟨[], [], by simp [hnil], rfl⟩
      · cases hlast
  | cons head tail ih =>
      rw [last?] at hlast
      split at hlast
      · next later hlater =>
          cases hlast
          obtain ⟨before, rest, rfl, rfl⟩ := ih hlater
          exact ⟨head :: before, rest, rfl, rfl⟩
      · split at hlast
        · next hstarts =>
            cases hlast
            obtain ⟨rest, hrest⟩ := List.isPrefixOf_iff_prefix.mp hstarts
            exact ⟨[], rest, hrest.symm, rfl⟩
        · cases hlast

theorem last?_eq_none_of_length_lt {pattern text : List A}
    (hlt : text.length < pattern.length) : last? pattern text = none := by
  cases hlast : last? pattern text with
  | none => rfl
  | some position =>
      obtain ⟨before, rest, rfl, -⟩ := exists_of_last? hlast
      rw [List.length_append, List.length_append] at hlt
      omega

theorem last?_append {pattern text : List A} {position : ℕ}
    (hlast : last? pattern text = some position) (before : List A) :
    last? pattern (before ++ text) = some (before.length + position) := by
  induction before with
  | nil => rw [List.nil_append, hlast, List.length_nil, Nat.zero_add]
  | cons head before ih =>
      rw [List.cons_append, last?, ih, List.length_cons, Nat.add_right_comm]

theorem last?_self (pattern : List A) : last? pattern pattern = some 0 := by
  cases pattern with
  | nil => rfl
  | cons head tail =>
      rw [last?, last?_eq_none_of_length_lt (Nat.lt_succ_self tail.length)]
      simp

theorem last?_append_self (before pattern : List A) :
    last? pattern (before ++ pattern) = some before.length :=
  last?_append (last?_self pattern) before

theorem exists_last?_append (pattern rest : List A) :
    ∃ position, last? pattern (pattern ++ rest) = some position := by
  cases pattern with
  | nil =>
      induction rest with
      | nil => exact ⟨0, rfl⟩
      | cons head rest ih =>
          obtain ⟨position, hposition⟩ := ih
          rw [List.nil_append] at hposition
          refine ⟨position + 1, ?_⟩
          rw [List.nil_append, last?, hposition]
  | cons head tail =>
      rw [List.cons_append, last?]
      cases last? (head :: tail) (tail ++ rest) with
      | some position => exact ⟨position + 1, rfl⟩
      | none =>
          refine ⟨0, if_pos ?_⟩
          rw [List.isPrefixOf_iff_prefix, ← List.cons_append]
          exact List.prefix_append _ _

theorem exists_last?_of_mem {character : A} {text : List A} (hmem : character ∈ text) :
    ∃ position, last? [character] text = some position := by
  obtain ⟨before, rest, rfl⟩ := List.append_of_mem hmem
  obtain ⟨position, hposition⟩ := exists_last?_append [character] rest
  exact ⟨before.length + position, last?_append hposition before⟩

/-- A single character is not found behind its last place. -/
theorem last?_singleton_cons {character : A} {rest : List A} (hnone : character ∉ rest) :
    last? [character] (character :: rest) = some 0 := by
  have hrest : last? [character] rest = none := by
    cases hlast : last? [character] rest with
    | none => rfl
    | some position =>
        obtain ⟨before, behind, rfl, -⟩ := exists_of_last? hlast
        simp at hnone
  rw [last?, hrest]
  simp

theorem not_mem_of_last? {character : A} {before rest : List A}
    (hlast : last? [character] (before ++ ([character] ++ rest)) =
      some before.length) : character ∉ rest := by
  intro hmem
  obtain ⟨later, hlater⟩ := exists_last?_of_mem hmem
  have hbehind := last?_append hlater (before ++ [character])
  rw [List.append_assoc, hlast, Option.some_inj, List.length_append,
    List.length_singleton] at hbehind
  omega

end Positions
