import Mathlib.Data.List.Range
import Mathlib.Tactic.Ring

/-!
# Lists that hold a grid

The rows of a grid one after the other.  Taking and dropping whole rows, and
cutting the same columns out of every row, gives a grid again.
-/

variable {A : Type}

/-- The rows of a grid whose entries are given by column and row. -/
def grid (width : ℕ) (entry : ℕ → ℕ → A) : ℕ → List A
  | 0 => []
  | height + 1 =>
      grid width entry height ++ (List.range width).map (entry · height)

@[simp]
theorem length_grid (width : ℕ) (entry : ℕ → ℕ → A) (height : ℕ) :
    (grid width entry height).length = width * height := by
  induction height with
  | zero => rfl
  | succ height ih =>
      rw [grid, List.length_append, ih, List.length_map, List.length_range, Nat.mul_succ]

theorem grid_congr {width height : ℕ} {entry other : ℕ → ℕ → A}
    (hsame : ∀ x < width, ∀ y < height, entry x y = other x y) :
    grid width entry height = grid width other height := by
  induction height with
  | zero => rfl
  | succ height ih =>
      rw [grid, grid, ih fun x hx y hy => hsame x hx y (Nat.lt_succ_of_lt hy)]
      congr 1
      apply List.map_congr_left
      intro x hx
      exact hsame x (List.mem_range.mp hx) height (Nat.lt_succ_self height)

theorem grid_add (width : ℕ) (entry : ℕ → ℕ → A) (rows more : ℕ) :
    grid width entry (rows + more) = grid width entry rows ++
      grid width (fun x y => entry x (rows + y)) more := by
  induction more with
  | zero => exact (List.append_nil _).symm
  | succ more ih =>
      rw [← Nat.add_assoc, grid, ih, List.append_assoc]
      rfl

theorem grid_index_lt {width height x y : ℕ} (hx : x < width)
    (hy : y < height) : y * width + x < width * height := by
  calc y * width + x < y * width + width := Nat.add_lt_add_left hx _
    _ = width * (y + 1) := by ring
    _ ≤ width * height := Nat.mul_le_mul_left _ hy

theorem grid_index_mod {width x : ℕ} (hx : x < width) (y : ℕ) : (y * width + x) % width = x := by
  rw [Nat.add_comm, Nat.add_mul_mod_self_right, Nat.mod_eq_of_lt hx]

theorem grid_index_div {width x : ℕ} (hx : x < width) (y : ℕ) : (y * width + x) / width = y := by
  rw [Nat.add_comm, Nat.add_mul_div_right _ _ (Nat.zero_lt_of_lt hx),
    Nat.div_eq_of_lt hx, Nat.zero_add]

theorem grid_mod_div_lt {width height index : ℕ} (hlt : index < width * height) :
    index % width < width ∧ index / width < height := by
  have hpos : 0 < width := Nat.pos_of_mul_pos_right (Nat.zero_lt_of_lt hlt)
  exact ⟨Nat.mod_lt index hpos, Nat.div_lt_of_lt_mul hlt⟩

theorem getElem?_grid {width x y height : ℕ} (entry : ℕ → ℕ → A)
    (hx : x < width) (hy : y < height) :
    (grid width entry height)[y * width + x]? = some (entry x y) := by
  obtain ⟨more, rfl⟩ := Nat.exists_eq_add_of_lt hy
  have hsplit : grid width entry (y + more + 1) =
      grid width entry y ++ ((List.range width).map (entry · y) ++
        grid width (fun x rest => entry x (y + 1 + rest)) more) := by
    rw [Nat.add_right_comm, grid_add, grid, List.append_assoc]
  have hstart : (grid width entry y).length ≤ y * width + x := by
    rw [length_grid, Nat.mul_comm]
    exact Nat.le_add_right _ _
  rw [hsplit, List.getElem?_append_right hstart, length_grid,
    Nat.mul_comm width, Nat.add_sub_cancel_left, List.getElem?_append_left
      (by rw [List.length_map, List.length_range]; exact hx),
    List.getElem?_map, List.getElem?_range hx, Option.map_some]

theorem eq_grid {width height : ℕ} {items : List A}
    (hlength : items.length = width * height) (default : A) :
    items = grid width (fun x y => items.getD (y * width + x) default)
      height := by
  apply List.ext_getElem?
  intro index
  by_cases hlt : index < width * height
  · obtain ⟨hcolumn, hrow⟩ := grid_mod_div_lt hlt
    have hentry := getElem?_grid (fun x y => items.getD (y * width + x) default) hcolumn hrow
    rw [Nat.div_add_mod'] at hentry
    rw [hentry, List.getD_eq_getElem?_getD,
      List.getElem?_eq_getElem (hlength ▸ hlt), Option.getD_some]
  · rw [List.getElem?_eq_none (by omega), List.getElem?_eq_none (by rw [length_grid]; omega)]

theorem take_append_drop_row {width first count : ℕ}
    (hfits : first + count ≤ width) (entry : ℕ → A) :
    ((List.range width).map entry).take first ++
        ((List.range width).map entry).drop (first + count) =
      (List.range (width - count)).map fun x =>
        entry (if x < first then x else x + count) := by
  apply List.ext_getElem?
  intro index
  have hlength : (((List.range width).map entry).take first).length =
      first := by
    rw [List.length_take, List.length_map, List.length_range]
    omega
  rw [List.getElem?_append, hlength, List.getElem?_map]
  split
  · rename_i hlt
    rw [List.getElem?_take_of_lt hlt, List.getElem?_map,
      List.getElem?_range (by omega), List.getElem?_range (by omega)]
    simp [hlt]
  · rename_i hge
    rw [List.getElem?_drop, List.getElem?_map]
    by_cases hinside : index < width - count
    · rw [List.getElem?_range (by omega), List.getElem?_range hinside]
      simp only [Option.map_some, if_neg hge, Option.some.injEq]
      congr 1
      omega
    · rw [List.getElem?_eq_none (by rw [List.length_range]; omega),
        List.getElem?_eq_none (by rw [List.length_range]; omega)]
      rfl
