import Mathlib.Data.List.Infix
import Mathlib.Data.List.TakeWhile

/-!
# Run lengths

Runs of repeated values, and a decoder that puts whole runs until it has as
many values as it was asked for.  It gives exactly that many if and only if the
end of a run falls on the last of them.
-/

namespace RunLength

variable {V : Type*}

/-- A value and how often it is repeated, which may be never. -/
structure Run (V : Type*) where
  count : ℕ
  value : V

def Run.expand (run : Run V) : List V := List.replicate run.count run.value

def expand (runs : List (Run V)) : List V := runs.flatMap Run.expand

@[simp]
theorem expand_cons (run : Run V) (runs : List (Run V)) :
    expand (run :: runs) = run.expand ++ expand runs := rfl

theorem expand_append (first rest : List (Run V)) :
    expand (first ++ rest) = expand first ++ expand rest :=
  List.flatMap_append

@[simp]
theorem Run.length_expand (run : Run V) : run.expand.length = run.count := List.length_replicate

/-- Runs are put until there are `count` values. -/
def fill : ℕ → List (Run V) → Option (List V)
  | 0, _ => some []
  | _ + 1, [] => none
  | count + 1, run :: runs =>
      (fill (count + 1 - run.count) runs).map (run.expand ++ ·)

/-- The first runs hold exactly `count` values. -/
def Fits (count : ℕ) (runs : List (Run V)) : Prop :=
  ∃ first, first <+: runs ∧ (expand first).length = count

section

variable {count : ℕ} {runs : List (Run V)} {values : List V} (hfill : fill count runs = some values)

include hfill

theorem exists_prefix_of_fill : ∃ first, first <+: runs ∧ values = expand first := by
  induction runs generalizing count values with
  | nil =>
      cases count with
      | zero =>
          cases hfill
          exact ⟨[], List.nil_prefix, rfl⟩
      | succ count => cases hfill
  | cons run runs ih =>
      cases count with
      | zero =>
          cases hfill
          exact ⟨[], List.nil_prefix, rfl⟩
      | succ count =>
          rw [fill, Option.map_eq_some_iff] at hfill
          obtain ⟨others, hothers, rfl⟩ := hfill
          obtain ⟨first, hfirst, rfl⟩ := ih hothers
          exact ⟨run :: first, List.cons_prefix_cons.mpr ⟨rfl, hfirst⟩, rfl⟩

theorem le_length_of_fill : count ≤ values.length := by
  induction runs generalizing count values with
  | nil =>
      cases count with
      | zero => exact Nat.zero_le _
      | succ count => cases hfill
  | cons run runs ih =>
      cases count with
      | zero => exact Nat.zero_le _
      | succ count =>
          rw [fill, Option.map_eq_some_iff] at hfill
          obtain ⟨others, hothers, rfl⟩ := hfill
          have hle := ih hothers
          rw [List.length_append, Run.length_expand]
          omega

end

theorem Fits.fill_eq {count : ℕ} {runs : List (Run V)} (hfits : Fits count runs) :
    fill count runs = some ((expand runs).take count) := by
  obtain ⟨first, hfirst, hlength⟩ := hfits
  induction first generalizing count runs with
  | nil =>
      rw [← hlength]
      cases runs <;> rfl
  | cons run first ih =>
      obtain ⟨rest, rfl⟩ := hfirst
      rw [expand_cons, List.length_append, Run.length_expand] at hlength
      cases count with
      | zero => rfl
      | succ count =>
          have hrest : (expand first).length = count + 1 - run.count := by
            omega
          have hwhole : run.expand.take (count + 1) = run.expand :=
            List.take_of_length_le (by rw [Run.length_expand]; omega)
          rw [List.cons_append, fill, ih (List.prefix_append first rest) hrest,
            Option.map_some, expand_cons, List.take_append, hwhole, Run.length_expand]

theorem Fits.length_take {count : ℕ} {runs : List (Run V)} (hfits : Fits count runs) :
    ((expand runs).take count).length = count := by
  obtain ⟨first, ⟨rest, rfl⟩, rfl⟩ := hfits
  rw [expand_append, List.take_left]

/-- Exactly as many values as were asked for are put if and only if runs
fit. -/
theorem fill_length_iff {count : ℕ} {runs : List (Run V)} :
    (∃ values, fill count runs = some values ∧ values.length = count) ↔ Fits count runs := by
  constructor
  · rintro ⟨values, hfill, hlength⟩
    obtain ⟨first, hfirst, rfl⟩ := exists_prefix_of_fill hfill
    exact ⟨first, hfirst, hlength⟩
  · intro hfits
    exact ⟨_, hfits.fill_eq, hfits.length_take⟩

end RunLength
