import Chkdraft.Core.Grid

/-!
# Lists that are spread out

A list is spread over a longer one when its entries stand there in their order
and a filling value stands everywhere else.  Inserting the filling spreads a
list further.  Two ways to spread a list give the same result exactly if every
entry but the filling has the same place in both.  A grid that stands in a
window of a larger one is spread over it.
-/

variable {A : Type} {fill : A} {items spread : List A} {place : ℕ → ℕ}

/-- The entries stand at their places in order, and the filling elsewhere. -/
structure Spreads (fill : A) (items spread : List A) (place : ℕ → ℕ) : Prop where
  ordered : ∀ i j, i < j → j < items.length → place i < place j
  at_place : ∀ i < items.length, spread[place i]? = items[i]?
  elsewhere : ∀ j value, spread[j]? = some value → value ≠ fill → ∃ i < items.length, place i = j

namespace Spreads

theorem refl (fill : A) (items : List A) : Spreads fill items items id where
  ordered := fun _ _ hlt _ => hlt
  at_place := fun _ _ => rfl
  elsewhere := by
    intro j value hvalue _
    exact ⟨j, (List.getElem?_eq_some_iff.mp hvalue).1, rfl⟩

theorem place_lt (hspreads : Spreads fill items spread place) {i : ℕ}
    (hlt : i < items.length) : place i < spread.length := by
  have hplace := hspreads.at_place i hlt
  rw [List.getElem?_eq_getElem hlt] at hplace
  exact (List.getElem?_eq_some_iff.mp hplace).1

theorem congr (hspreads : Spreads fill items spread place) {other : ℕ → ℕ}
    (hsame : ∀ i < items.length, place i = other i) :
    Spreads fill items spread other where
  ordered := by
    intro i j hlt hj
    rw [← hsame i (hlt.trans hj), ← hsame j hj]
    exact hspreads.ordered i j hlt hj
  at_place := by
    intro i hi
    rw [← hsame i hi]
    exact hspreads.at_place i hi
  elsewhere := by
    intro j value hvalue hne
    obtain ⟨i, hi, hplace⟩ := hspreads.elsewhere j value hvalue hne
    exact ⟨i, hi, (hsame i hi).symm.trans hplace⟩

theorem getElem?_inserted {start : ℕ} (hstart : start ≤ spread.length) (count index : ℕ) :
    (spread.take start ++ List.replicate count fill ++ spread.drop start)[index]? =
      if index < start then spread[index]?
      else if index < start + count then some fill
      else spread[index - count]? := by
  rw [List.append_assoc, List.getElem?_append, List.length_take, Nat.min_eq_left hstart]
  split
  · rename_i hlt
    rw [List.getElem?_take_of_lt hlt]
  · rename_i hge
    rw [List.getElem?_append, List.length_replicate]
    split
    · rename_i hinside
      rw [if_pos (by omega), List.getElem?_replicate_of_lt hinside]
    · rename_i hbehind
      rw [if_neg (by omega), List.getElem?_drop]
      congr 1
      omega

section

variable (hspreads : Spreads fill items spread place)

include hspreads

/-- Filling that is inserted moves the entries behind it. -/
theorem insert {start : ℕ} (hstart : start ≤ spread.length) (count : ℕ) :
    Spreads fill items (spread.take start ++ List.replicate count fill ++ spread.drop start)
      (fun i => if place i < start then place i else place i + count) where
  ordered := by
    intro i j hlt hj
    have hplaces := hspreads.ordered i j hlt hj
    split
    · split
      · exact hplaces
      · omega
    · rw [if_neg (by omega)]
      omega
  at_place := by
    intro i hi
    rw [getElem?_inserted hstart, ← hspreads.at_place i hi]
    by_cases hlt : place i < start
    · rw [if_pos hlt, if_pos hlt]
    · rw [if_neg hlt, if_neg (by omega), if_neg (by omega), Nat.add_sub_cancel]
  elsewhere := by
    intro j value hvalue hne
    rw [getElem?_inserted hstart] at hvalue
    split at hvalue
    · rename_i hlt
      obtain ⟨i, hi, rfl⟩ := hspreads.elsewhere j value hvalue hne
      exact ⟨i, hi, if_pos hlt⟩
    · split at hvalue
      · exact absurd (Option.some.inj hvalue).symm hne
      · obtain ⟨i, hi, hplace⟩ := hspreads.elsewhere _ value hvalue hne
        exact ⟨i, hi, by rw [if_neg (by omega)]; omega⟩

/-- If the entries before have the same places, an entry does not stand earlier
in one of two ways to spread. -/
theorem not_place_lt {other : ℕ → ℕ} (hother : Spreads fill items spread other) {i : ℕ}
    {value : A} (hvalue : items[i]? = some value) (hne : value ≠ fill)
    (hearlier : ∀ j < i, ∀ earlier, items[j]? = some earlier → earlier ≠ fill → place j = other j) :
    ¬ place i < other i := by
  intro hlt
  have hi := (List.getElem?_eq_some_iff.mp hvalue).1
  have hplace := hspreads.at_place i hi
  rw [hvalue] at hplace
  obtain ⟨j, hj, hjplace⟩ := hother.elsewhere _ value hplace hne
  have hji : j < i := by
    by_contra hle
    rcases Nat.lt_or_eq_of_le (Nat.le_of_not_lt hle) with hij | rfl
    · have hafter := hother.ordered i j hij hj
      omega
    · omega
  have hjvalue := hother.at_place j hj
  rw [hjplace, hplace] at hjvalue
  have hsame := hearlier j hji value hjvalue.symm hne
  have hbefore := hspreads.ordered j i hji hi
  omega

/-- A list is also spread by other places exactly if every entry but the
filling has its place there. -/
theorem other_iff {target : ℕ → ℕ}
    (hordered : ∀ i j, i < j → j < items.length → target i < target j)
    (hinside : ∀ i < items.length, target i < spread.length) :
    Spreads fill items spread target ↔
      ∀ i value, items[i]? = some value → value ≠ fill → place i = target i := by
  have hinjective : ∀ i < items.length, ∀ j < items.length, target i = target j → i = j := by
    intro i hi j hj heq
    rcases Nat.lt_trichotomy i j with hlt | rfl | hgt
    · have hbefore := hordered i j hlt hj
      omega
    · rfl
    · have hbefore := hordered j i hgt hi
      omega
  constructor
  · intro hother i
    induction i using Nat.strong_induction_on with
    | _ i ih =>
        intro value hvalue hne
        have hnotBefore := not_place_lt hspreads hother hvalue hne ih
        have hnotBehind := not_place_lt hother hspreads hvalue hne
          fun j hj earlier hearlier hfill =>
            (ih j hj earlier hearlier hfill).symm
        omega
  · intro hsame
    refine ⟨hordered, ?_, ?_⟩
    · intro i hi
      have hlt := hinside i hi
      rw [List.getElem?_eq_getElem hi, List.getElem?_eq_getElem hlt, Option.some.injEq]
      by_contra hdiffers
      by_cases hfill : items[i] = fill
      · rw [hfill] at hdiffers
        obtain ⟨j, hj, hjplace⟩ := hspreads.elsewhere (target i) _
          (List.getElem?_eq_getElem hlt) hdiffers
        have hjvalue := hspreads.at_place j hj
        rw [hjplace, List.getElem?_eq_getElem hlt] at hjvalue
        have hjtarget := hsame j _ hjvalue.symm hdiffers
        obtain rfl := hinjective j hj i hi (hjtarget.symm.trans hjplace)
        rw [List.getElem?_eq_getElem hj, Option.some.injEq, hfill] at hjvalue
        exact hdiffers hjvalue
      · have hplace := hspreads.at_place i hi
        rw [hsame i _ (List.getElem?_eq_getElem hi) hfill, List.getElem?_eq_getElem hlt,
          List.getElem?_eq_getElem hi, Option.some.injEq] at hplace
        exact hdiffers hplace
    · intro j value hvalue hne
      obtain ⟨i, hi, rfl⟩ := hspreads.elsewhere j value hvalue hne
      refine ⟨i, hi, (hsame i value ?_ hne).symm⟩
      rw [← hspreads.at_place i hi]
      exact hvalue

end

end Spreads

section Window

variable {width height columns rows left top : ℕ}

/-- The index in a grid of an entry that stands in a window of it. -/
def windowPlace (width columns left top i : ℕ) : ℕ :=
  (top + i / columns) * width + (left + i % columns)

theorem windowPlace_lt_windowPlace (hwide : columns ≤ width) (left top : ℕ)
    {i j : ℕ} (hlt : i < j) :
    windowPlace width columns left top i < windowPlace width columns left top j := by
  obtain ⟨more, rfl⟩ := Nat.exists_eq_add_of_le hwide
  have hplace : ∀ k, windowPlace (columns + more) columns left top k =
      k + k / columns * more + (top * (columns + more) + left) := by
    intro k
    have hk := Nat.div_add_mod' k columns
    calc windowPlace (columns + more) columns left top k
        = (k / columns * columns + k % columns) + k / columns * more +
            (top * (columns + more) + left) := by
          rw [windowPlace]
          ring
      _ = _ := by rw [hk]
  rw [hplace, hplace]
  have hrows : i / columns * more ≤ j / columns * more :=
    Nat.mul_le_mul_right _ (Nat.div_le_div_right hlt.le)
  omega

theorem windowPlace_of_lt (width left top : ℕ) {x : ℕ} (hx : x < columns) (y : ℕ) :
    windowPlace width columns left top (y * columns + x) = (top + y) * width + (left + x) := by
  rw [windowPlace, grid_index_div hx, grid_index_mod hx]

/-- A grid is spread over its window of a larger grid exactly if its entries
stand there and the filling stands around them. -/
theorem Spreads.window_iff (hwide : left + columns ≤ width)
    (hlength : spread.length = width * height) (entry : ℕ → ℕ → A) :
    Spreads fill (grid columns entry rows) spread (windowPlace width columns left top) ↔
      (∀ x < columns, ∀ y < rows, spread[(top + y) * width + (left + x)]? = some (entry x y)) ∧
      ∀ x < width, ∀ y < height, (∀ column < columns, ∀ row < rows,
          ¬ (left + column = x ∧ top + row = y)) →
        spread[y * width + x]? = some fill := by
  have hindex : ∀ i < (grid columns entry rows).length,
      i % columns < columns ∧ i / columns < rows := by
    intro i hi
    rw [length_grid] at hi
    exact grid_mod_div_lt hi
  constructor
  · intro hspreads
    constructor
    · intro x hx y hy
      rw [← windowPlace_of_lt width left top hx, hspreads.at_place _
        (by rw [length_grid]; exact grid_index_lt hx hy),
        getElem?_grid entry hx hy]
    · intro x hx y hy houtside
      have hlt : y * width + x < spread.length := by
        rw [hlength]
        exact grid_index_lt hx hy
      rw [List.getElem?_eq_getElem hlt, Option.some.injEq]
      by_contra hne
      obtain ⟨i, hi, hplace⟩ := hspreads.elsewhere _ _ (List.getElem?_eq_getElem hlt) hne
      obtain ⟨hcolumn, hrow⟩ := hindex i hi
      have hleft : left + i % columns < width := by omega
      have hx' := congrArg (· % width) hplace
      have hy' := congrArg (· / width) hplace
      simp only [windowPlace, grid_index_mod hleft, grid_index_div hleft,
        grid_index_mod hx, grid_index_div hx] at hx' hy'
      exact houtside _ hcolumn _ hrow ⟨hx', hy'⟩
  · rintro ⟨hinside, houtside⟩
    refine ⟨?_, ?_, ?_⟩
    · intro i j hlt _
      exact windowPlace_lt_windowPlace (by omega) left top hlt
    · intro i hi
      obtain ⟨hcolumn, hrow⟩ := hindex i hi
      have hentry := getElem?_grid entry hcolumn hrow
      rw [Nat.div_add_mod'] at hentry
      rw [hentry]
      exact hinside _ hcolumn _ hrow
    · intro j value hvalue hne
      have hlt : j < width * height := by
        rw [← hlength]
        exact (List.getElem?_eq_some_iff.mp hvalue).1
      obtain ⟨hcolumn, hrow⟩ := grid_mod_div_lt hlt
      by_contra hnone
      have hfill := houtside _ hcolumn _ hrow (by
          rintro column hcolumn row hrow ⟨hx, hy⟩
          refine hnone ⟨row * columns + column, ?_, ?_⟩
          · rw [length_grid]
            exact grid_index_lt hcolumn hrow
          · rw [windowPlace_of_lt width left top hcolumn, hx, hy, Nat.div_add_mod'])
      rw [Nat.div_add_mod', hvalue, Option.some.injEq] at hfill
      exact hne hfill

end Window
