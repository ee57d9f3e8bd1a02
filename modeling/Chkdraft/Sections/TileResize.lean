import Mathlib.Data.UInt
import Mathlib.Tactic.Linarith
import Chkdraft.Core.Fault
import Chkdraft.Core.Grid

/-!
# Resizing a list of tiles

Two functions cut and extend the rows and columns of a list with one entry for
each tile: `MaskSection::setDimensions` its own list, and
`setMtxmOrTileDimensions` a list that it takes by value, so that its callers
keep the list they had.  This is about what is kept of the tiles, and whether
all positions lie inside the list.
-/

namespace Chkdraft.Sections

variable {columns rows : ℕ}

variable {A : Type}

/-- What `std::vector` throws when it is asked for too many elements. -/
inductive LengthError where
  | lengthError
deriving DecidableEq

/-- `std::vector::erase` of a range. -/
def eraseTiles (tiles : List A) (start count : ℤ) : Except (Fault LengthError) (List A) :=
  if 0 ≤ start ∧ 0 ≤ count ∧ start + count ≤ tiles.length then
    .ok (tiles.take start.toNat ++ tiles.drop (start + count).toNat)
  else
    .error (.hazard .undefinedBehavior)

/-- `std::vector::insert` of zeros. -/
def insertTiles [Zero A] (tiles : List A) (start count : ℤ) : Except (Fault LengthError) (List A) :=
  if 0 ≤ start ∧ start ≤ tiles.length then
    if 0 ≤ count then
      .ok (tiles.take start.toNat ++ List.replicate count.toNat 0 ++ tiles.drop start.toNat)
    else
      .error (.thrown .lengthError)
  else
    .error (.hazard .undefinedBehavior)

/-- Change every row of a list of tiles, from the last row to the first. -/
def eachRow (change : List A → ℕ → Except (Fault LengthError)
    (List A)) (height : ℤ) (tiles : List A) :
    Except (Fault LengthError) (List A) :=
  (List.range height.toNat).reverse.foldlM change tiles

/-- The variables of `setMtxmOrTileDimensions`. -/
structure TileCopy (A : Type) where
  tiles : List A
  currTileWidth : ℤ
  currTileHeight : ℤ

namespace TileCopy

def cleared : TileCopy A := ⟨[], 0, 0⟩

def Shown (copy : TileCopy A) : Prop := 0 < copy.currTileWidth ∧ 0 < copy.currTileHeight

instance (copy : TileCopy A) : Decidable copy.Shown := inferInstanceAs (Decidable (_ ∧ _))

def removeBottom (copy : TileCopy A) (numRowsRemoved : ℤ) : TileCopy A :=
  let numTilesRemoved := numRowsRemoved * copy.currTileWidth
  if copy.tiles.length ≤ numTilesRemoved then
    cleared
  else
    { copy with
      tiles := copy.tiles.take (copy.tiles.length - numTilesRemoved).toNat
      currTileHeight := copy.currTileHeight - numRowsRemoved }

def removeTop (copy : TileCopy A) (numRowsRemoved : ℤ) : TileCopy A :=
  let numTilesRemoved := numRowsRemoved * copy.currTileWidth
  if copy.tiles.length ≤ numTilesRemoved then
    cleared
  else
    { copy with
      tiles := copy.tiles.drop numTilesRemoved.toNat
      currTileHeight := copy.currTileHeight - numRowsRemoved }

def removeRight (copy : TileCopy A) (numColumnsRemoved : ℤ) :
    Except (Fault LengthError) (TileCopy A) :=
  if copy.currTileWidth ≤ numColumnsRemoved then
    .ok cleared
  else do
    let firstRemovedColumn := copy.currTileWidth - numColumnsRemoved
    let tiles ← eachRow (fun tiles row => eraseTiles tiles
      (row * copy.currTileWidth + firstRemovedColumn) numColumnsRemoved)
      copy.currTileHeight copy.tiles
    pure ⟨tiles, copy.currTileWidth - numColumnsRemoved, copy.currTileHeight⟩

/-- The columns on the left; their number is compared with the height. -/
def removeLeft (copy : TileCopy A) (numColumnsRemoved : ℤ) :
    Except (Fault LengthError) (TileCopy A) :=
  if copy.currTileHeight ≤ numColumnsRemoved then
    .ok cleared
  else do
    let tiles ← eachRow (fun tiles row => eraseTiles tiles
      (row * copy.currTileWidth) numColumnsRemoved)
      copy.currTileHeight copy.tiles
    pure ⟨tiles, copy.currTileWidth - numColumnsRemoved, copy.currTileHeight⟩

/-- The columns on the right; each row gets them `numColumnsAdded` behind its
start, not behind its end. -/
def addRight [Zero A] (copy : TileCopy A) (numColumnsAdded : ℤ) :
    Except (Fault LengthError) (TileCopy A) := do
  let tiles ← eachRow (fun tiles row => insertTiles tiles
    (row * copy.currTileWidth + numColumnsAdded) numColumnsAdded)
    copy.currTileHeight copy.tiles
  pure ⟨tiles, copy.currTileWidth + numColumnsAdded, copy.currTileHeight⟩

/-- The columns on the left; the rows are taken to be as wide as what is
added. -/
def addLeft [Zero A] (copy : TileCopy A) (numColumnsAdded : ℤ) :
    Except (Fault LengthError) (TileCopy A) := do
  let tiles ← eachRow (fun tiles row => insertTiles tiles
    (row * numColumnsAdded) numColumnsAdded) copy.currTileHeight copy.tiles
  pure ⟨tiles, copy.currTileWidth + numColumnsAdded, copy.currTileHeight⟩

def addTop [Zero A] (copy : TileCopy A) (numRowsAdded : ℤ) :
    Except (Fault LengthError) (TileCopy A) := do
  let tiles ← insertTiles copy.tiles 0 (copy.currTileWidth * numRowsAdded)
  pure { copy with
    tiles := tiles
    currTileHeight := copy.currTileHeight + numRowsAdded }

def addBottom [Zero A] (copy : TileCopy A) (numRowsAdded : ℤ) :
    Except (Fault LengthError) (TileCopy A) := do
  let tiles ← insertTiles copy.tiles copy.tiles.length (copy.currTileWidth * numRowsAdded)
  pure { copy with tiles := tiles }

/-- Rows are removed from the bottom and from the top. -/
def removeRows (copy : TileCopy A) (newTileHeight oldTileHeight topEdge : ℤ) : TileCopy A :=
  let copy :=
    if topEdge + newTileHeight < oldTileHeight ∧ copy.Shown then
      copy.removeBottom (oldTileHeight - (topEdge + newTileHeight))
    else
      copy
  if 0 < topEdge ∧ copy.Shown then copy.removeTop topEdge else copy

/-- A change that is made under a condition. -/
def applyIf (condition : Prop) [Decidable condition]
    (change : TileCopy A → Except (Fault LengthError) (TileCopy A))
    (copy : TileCopy A) : Except (Fault LengthError) (TileCopy A) :=
  if condition then change copy else .ok copy

/-- Columns are removed from the right and from the left. -/
def removeColumns (copy : TileCopy A) (newTileWidth oldTileWidth leftEdge : ℤ) :
    Except (Fault LengthError) (TileCopy A) := do
  let copy ← applyIf (leftEdge + newTileWidth < oldTileWidth ∧ copy.Shown)
    (removeRight · (oldTileWidth - (leftEdge + newTileWidth))) copy
  applyIf (0 < leftEdge ∧ copy.Shown) (removeLeft · leftEdge) copy

/-- Tiles are added to the right, the left, the top and the bottom. -/
def addTiles [Zero A] (copy : TileCopy A) (newTileWidth newTileHeight
    oldTileWidth oldTileHeight leftEdge topEdge : ℤ) :
    Except (Fault LengthError) (TileCopy A) := do
  let copy ← applyIf (oldTileWidth < leftEdge + newTileWidth)
    (addRight · (leftEdge + newTileWidth - oldTileWidth)) copy
  let copy ← applyIf (leftEdge < 0) (addLeft · (-leftEdge)) copy
  let copy ← applyIf (topEdge < 0) (addTop · (-topEdge)) copy
  applyIf (oldTileHeight < topEdge + newTileHeight)
    (addBottom · (topEdge + newTileHeight - oldTileHeight)) copy

end TileCopy

/-- The body of the two functions: what becomes of the list. -/
def resizeTiles [Zero A] (tiles : List A) (newTileWidth newTileHeight
    oldTileWidth oldTileHeight : UInt16) (leftEdge topEdge : ℤ) :
    Except (Fault LengthError) (List A) := do
  let copy : TileCopy A := ⟨tiles, oldTileWidth.toNat, oldTileHeight.toNat⟩
  let copy := copy.removeRows newTileHeight.toNat oldTileHeight.toNat topEdge
  let copy ← copy.removeColumns newTileWidth.toNat oldTileWidth.toNat leftEdge
  if copy.currTileWidth = 0 ∨ copy.currTileHeight = 0 then
    pure []
  else
    let copy ← copy.addTiles newTileWidth.toNat newTileHeight.toNat
      oldTileWidth.toNat oldTileHeight.toNat leftEdge topEdge
    pure copy.tiles

/-- `setMtxmOrTileDimensions`: what becomes of its copy of the tiles. -/
def setMtxmOrTileDimensions (tiles : List UInt16) (newTileWidth newTileHeight
    oldTileWidth oldTileHeight : UInt16) (leftEdge topEdge : ℤ) :
    Except (Fault LengthError) (List UInt16) :=
  resizeTiles tiles newTileWidth newTileHeight oldTileWidth oldTileHeight leftEdge topEdge

/-- `MaskSection::setDimensions`. -/
def maskSetDimensions (fogTiles : List UInt8) (newTileWidth newTileHeight
    oldTileWidth oldTileHeight : UInt16) (leftEdge topEdge : ℤ) :
    Except (Fault LengthError) (List UInt8) :=
  resizeTiles fogTiles newTileWidth newTileHeight oldTileWidth oldTileHeight leftEdge topEdge

section Rows

variable {change : List A → ℕ → Except (Fault LengthError) (List A)}

theorem eachRow_succ (count : ℕ) (tiles : List A) : eachRow change (count + 1 : ℕ) tiles =
      (change tiles count >>= eachRow change count) := by
  unfold eachRow
  rw [Int.toNat_natCast, List.range_succ, List.reverse_append,
    List.reverse_singleton, List.singleton_append, List.foldlM_cons]
  rfl

theorem eraseTiles_row {front row rest : List A} {first count : ℕ}
    (hfits : first + count ≤ row.length) :
    eraseTiles (front ++ (row ++ rest)) ((front.length : ℤ) + first) count =
      .ok (front ++ (row.take first ++ row.drop (first + count) ++ rest)) := by
  have hstart : (front.length : ℤ) + first = ((front.length + first : ℕ) : ℤ) := by
    push_cast
    rfl
  have hend : ((front.length + first : ℕ) : ℤ) + count =
      ((front.length + (first + count) : ℕ) : ℤ) := by
    push_cast
    ring
  have hinside : ((front.length + (first + count) : ℕ) : ℤ) ≤ (front ++ (row ++ rest)).length := by
    rw [List.length_append, List.length_append]
    omega
  rw [eraseTiles, hstart, hend, if_pos ⟨by omega, by omega, hinside⟩,
    Int.toNat_natCast, Int.toNat_natCast, List.take_length_add_append,
    List.drop_length_add_append, List.take_append_of_le_length (by omega),
    List.drop_append_of_le_length hfits, List.append_assoc, List.append_assoc]

theorem eachRow_eraseTiles_grid {width first count : ℕ}
    (hfits : first + count ≤ width) (entry : ℕ → ℕ → A) (height : ℕ)
    (rest : List A) :
    eachRow (fun tiles row => eraseTiles tiles ((row : ℤ) * width + first)
        count) height (grid width entry height ++ rest) =
      .ok (grid (width - count)
        (fun x y => entry (if x < first then x else x + count) y) height ++ rest) := by
  induction height generalizing rest with
  | zero => rfl
  | succ height ih =>
      have hstart : (height : ℤ) * width = ((grid width entry height).length : ℤ) := by
        rw [length_grid]
        push_cast
        ring
      have hrow := @eraseTiles_row A (grid width entry height)
        ((List.range width).map (entry · height)) rest first count
        (by rw [List.length_map, List.length_range]; exact hfits)
      rw [take_append_drop_row hfits] at hrow
      rw [eachRow_succ, grid, List.append_assoc, hstart, hrow]
      refine (ih _).trans ?_
      rw [grid, List.append_assoc]

/-- Inserting into every row, where each has the place to insert at. -/
theorem eachRow_insertTiles [Zero A] {place : ℕ → ℕ} (count height : ℕ)
    {tiles : List A}
    (hplaces : ∀ row < height, place row ≤ tiles.length) :
    ∃ filled, eachRow (fun tiles row => insertTiles tiles (place row) count)
        height tiles = .ok filled ∧
      filled.length = tiles.length + count * height := by
  induction height generalizing tiles with
  | zero => exact ⟨tiles, rfl, by simp⟩
  | succ height ih =>
      have hplace := hplaces height (Nat.lt_succ_self height)
      have hinsert : insertTiles tiles (place height) count =
          .ok (tiles.take (place height) ++ List.replicate count 0 ++
            tiles.drop (place height)) := by
        rw [insertTiles, if_pos (by omega), if_pos (by omega)]
        rfl
      have hlonger : (tiles.take (place height) ++ List.replicate count 0 ++
          tiles.drop (place height)).length = tiles.length + count := by
        rw [List.length_append, List.length_append, List.length_take,
          List.length_replicate, List.length_drop]
        omega
      obtain ⟨filled, hrest, hcount⟩ := @ih (tiles.take (place height) ++
          List.replicate count 0 ++ tiles.drop (place height)) (by
        intro row hrow
        have hbelow := hplaces row (Nat.lt_succ_of_lt hrow)
        omega)
      refine ⟨filled, ?_, ?_⟩
      · rw [eachRow_succ, hinsert]
        exact hrest
      · have hexpand : count * (height + 1) = count * height + count := by ring
        omega

theorem eachRow_ne_ok {height : ℕ} (hpos : 0 < height) {tiles : List A}
    (hlast : ∀ changed, change tiles (height - 1) ≠ .ok changed)
    (changed : List A) : eachRow change height tiles ≠ .ok changed := by
  obtain ⟨count, rfl⟩ := Nat.exists_eq_succ_of_ne_zero (Nat.ne_of_gt hpos)
  intro hrun
  rw [Nat.succ_eq_add_one, eachRow_succ, Fault.bind_eq_ok_iff] at hrun
  obtain ⟨middle, hmiddle, -⟩ := hrun
  exact hlast middle hmiddle

/-- Where later rows have later places, the last one decides. -/
theorem eachRow_insertTiles_of_monotone [Zero A] {place : ℕ → ℕ}
    (hmono : Monotone place) {height : ℕ} (hpos : 0 < height) (count : ℕ)
    (tiles : List A) :
    (place (height - 1) ≤ tiles.length →
        ∃ filled, eachRow (fun tiles row => insertTiles tiles (place row) count)
            height tiles = .ok filled ∧
          filled.length = tiles.length + count * height) ∧
      (tiles.length < place (height - 1) → ∀ filled,
        eachRow (fun tiles row => insertTiles tiles (place row) count)
          height tiles ≠ .ok filled) := by
  constructor
  · intro hlast
    exact eachRow_insertTiles count height fun row hrow =>
      (hmono (Nat.le_sub_one_of_lt hrow)).trans hlast
  · intro hlast
    refine eachRow_ne_ok hpos fun changed => ?_
    rw [insertTiles, if_neg]
    · simp
    · rintro ⟨-, hinside⟩
      exact absurd (Int.ofNat_le.mp hinside) (Nat.not_le.mpr hlast)

end Rows

namespace TileCopy

/-- A copy that has all its tiles. -/
structure Full (width height : ℕ) (copy : TileCopy A) : Prop where
  width_eq : copy.currTileWidth = width
  height_eq : copy.currTileHeight = height
  area : copy.tiles.length = width * height

variable {width height : ℕ} {copy : TileCopy A}

theorem Full.shown_iff (hfull : Full width height copy) : copy.Shown ↔ 0 < width ∧ 0 < height := by
  rw [Shown, hfull.width_eq, hfull.height_eq, Int.natCast_pos, Int.natCast_pos]

/-- Rows are all of the tiles if they are all of the rows. -/
theorem Full.length_le_iff (hfull : Full width height copy) (hpos : 0 < width) (rows : ℕ) :
    (copy.tiles.length : ℤ) ≤ rows * copy.currTileWidth ↔ height ≤ rows := by
  rw [hfull.area, hfull.width_eq, ← Nat.cast_mul, Nat.cast_le, Nat.mul_comm rows]
  exact Nat.mul_le_mul_left_iff hpos

def ofGrid (width height : ℕ) (entry : ℕ → ℕ → A) : TileCopy A :=
  ⟨grid width entry height, width, height⟩

variable {entry : ℕ → ℕ → A}

theorem full_ofGrid (width height : ℕ) (entry : ℕ → ℕ → A) :
    Full width height (ofGrid width height entry) :=
  ⟨rfl, rfl, length_grid width entry height⟩

theorem eq_ofGrid [Zero A] {tiles : List A} (harea : tiles.length = width * height) :
    (⟨tiles, width, height⟩ : TileCopy A) = ofGrid width height
      (fun x y => tiles.getD (y * width + x) 0) := by
  rw [ofGrid, ← eq_grid harea]

theorem removeBottom_cleared (hpos : 0 < width) (hle : height ≤ rows) :
    (ofGrid width height entry).removeBottom rows = cleared := by
  have hall := (full_ofGrid width height entry).length_le_iff hpos rows
  exact if_pos (hall.mpr hle)

theorem removeBottom_ofGrid (hpos : 0 < width) (hlt : rows < height) :
    (ofGrid width height entry).removeBottom rows = ofGrid width (height - rows) entry := by
  have hall := (full_ofGrid width height entry).length_le_iff hpos rows
  obtain ⟨more, rfl⟩ := Nat.exists_eq_add_of_le' hlt.le
  have hkept : ((ofGrid width (more + rows) entry).tiles.length : ℤ) -
      rows * (ofGrid width (more + rows) entry).currTileWidth =
      ((width * more : ℕ) : ℤ) := by
    rw [ofGrid, length_grid]
    push_cast
    ring
  rw [TileCopy.removeBottom, if_neg fun h => Nat.not_le_of_lt hlt (hall.mp h),
    hkept, Int.toNat_natCast, Nat.add_sub_cancel]
  simp only [ofGrid, mk.injEq, true_and]
  constructor
  · rw [grid_add, List.take_left' (length_grid width entry more)]
  · push_cast
    ring

theorem removeTop_cleared (hpos : 0 < width) (hle : height ≤ rows) :
    (ofGrid width height entry).removeTop rows = cleared := by
  have hall := (full_ofGrid width height entry).length_le_iff hpos rows
  exact if_pos (hall.mpr hle)

theorem removeTop_ofGrid (hpos : 0 < width) (hlt : rows < height) :
    (ofGrid width height entry).removeTop rows =
      ofGrid width (height - rows) (fun x y => entry x (rows + y)) := by
  have hall := (full_ofGrid width height entry).length_le_iff hpos rows
  obtain ⟨more, rfl⟩ := Nat.exists_eq_add_of_le hlt.le
  have hremoved : (rows : ℤ) * (ofGrid width (rows + more) entry).currTileWidth =
      ((width * rows : ℕ) : ℤ) := by
    rw [ofGrid]
    push_cast
    ring
  rw [TileCopy.removeTop, if_neg fun h => Nat.not_le_of_lt hlt (hall.mp h),
    hremoved, Int.toNat_natCast, Nat.add_sub_cancel_left]
  simp only [ofGrid, mk.injEq, true_and]
  constructor
  · rw [grid_add, List.drop_left' (length_grid width entry rows)]
  · push_cast
    ring

theorem removeRight_cleared (hle : width ≤ columns) :
    (ofGrid width height entry).removeRight columns = .ok cleared :=
  if_pos (Nat.cast_le.mpr hle)

theorem removeRight_ofGrid (hlt : columns < width) :
    (ofGrid width height entry).removeRight columns =
      .ok (ofGrid (width - columns) height entry) := by
  have hfirst : (width : ℤ) - columns = ((width - columns : ℕ) : ℤ) := by
    omega
  have hrows := @eachRow_eraseTiles_grid A width (width - columns) columns
    (by omega) entry height []
  rw [List.append_nil, List.append_nil, ← hfirst] at hrows
  have hsame : grid (width - columns) (fun x y =>
      entry (if x < width - columns then x else x + columns) y) height =
      grid (width - columns) entry height := by
    apply grid_congr
    intro x hx y _
    rw [if_pos hx]
  rw [TileCopy.removeRight, ofGrid,
    if_neg (not_le_of_gt (Nat.cast_lt.mpr hlt)), Fault.bind_eq_ok_iff]
  refine ⟨_, hrows, ?_⟩
  rw [hsame, ofGrid, ← hfirst]
  rfl

theorem removeLeft_cleared (hle : height ≤ columns) :
    (ofGrid width height entry).removeLeft columns = .ok cleared :=
  if_pos (Nat.cast_le.mpr hle)

theorem removeLeft_ofGrid (hlow : columns < height) (hle : columns ≤ width) :
    (ofGrid width height entry).removeLeft columns =
      .ok (ofGrid (width - columns) height (fun x y => entry (columns + x) y)) := by
  have hrest : (width : ℤ) - columns = ((width - columns : ℕ) : ℤ) := by
    omega
  have hrows := @eachRow_eraseTiles_grid A width 0 columns (by omega) entry height []
  simp only [Nat.cast_zero, add_zero, Nat.not_lt_zero, if_false, List.append_nil] at hrows
  have hsame : grid (width - columns) (fun x y => entry (x + columns) y)
      height = grid (width - columns) (fun x y => entry (columns + x) y)
        height := by
    apply grid_congr
    intro x _ y _
    rw [Nat.add_comm]
  rw [TileCopy.removeLeft, ofGrid,
    if_neg (not_le_of_gt (Nat.cast_lt.mpr hlow)), Fault.bind_eq_ok_iff]
  refine ⟨_, hrows, ?_⟩
  rw [hsame, ofGrid, ← hrest]
  rfl

theorem removeLeft_ne_ok (hlow : columns < height) (hwide : width < columns)
    (removed : TileCopy A) :
    (ofGrid width height entry).removeLeft columns ≠ .ok removed := by
  rw [TileCopy.removeLeft, ofGrid, if_neg (not_le_of_gt (Nat.cast_lt.mpr hlow))]
  intro hcall
  obtain ⟨erased, herased, -⟩ := Fault.bind_eq_ok_iff.mp hcall
  refine eachRow_ne_ok (Nat.zero_lt_of_lt hlow) ?_ erased herased
  intro changed
  rw [eraseTiles, if_neg]
  · simp
  · rintro ⟨-, -, hinside⟩
    simp only [length_grid] at hinside
    have hend : (height - 1) * width + columns ≤ width * height := by
      exact_mod_cast hinside
    have hexpand : (height - 1) * width + width = width * height := by
      rw [← Nat.succ_mul, Nat.succ_eq_add_one,
        Nat.sub_add_cancel (Nat.zero_lt_of_lt hlow), Nat.mul_comm]
    omega

theorem Full.addRight [Zero A] (hfull : Full width height copy) (hpos : 0 < height) (columns : ℕ) :
    (columns ≤ width → ∃ added, copy.addRight columns = .ok added ∧
        Full (width + columns) height added) ∧
      (width < columns → ∀ added, copy.addRight columns ≠ .ok added) := by
  unfold TileCopy.addRight
  rw [hfull.width_eq, hfull.height_eq]
  have hlast : (height - 1) * width + width = copy.tiles.length := by
    rw [← Nat.succ_mul, Nat.succ_eq_add_one, Nat.sub_add_cancel hpos, Nat.mul_comm, hfull.area]
  have hmono : Monotone fun row => row * width + columns := fun _ _ hle =>
    Nat.add_le_add_right (Nat.mul_le_mul_right width hle) columns
  obtain ⟨hreturns, hfails⟩ := eachRow_insertTiles_of_monotone hmono hpos columns copy.tiles
  push_cast at hreturns hfails
  constructor
  · intro hle
    obtain ⟨filled, hfilled, hcount⟩ := hreturns (by omega)
    refine ⟨⟨filled, _, _⟩, Fault.bind_eq_ok_iff.mpr ⟨filled, hfilled, rfl⟩,
      by push_cast; rfl, rfl, ?_⟩
    rw [Nat.add_mul, ← hfull.area, hcount]
  · intro hwide added hcall
    obtain ⟨filled, hfilled, -⟩ := Fault.bind_eq_ok_iff.mp hcall
    exact hfails (by omega) filled hfilled

theorem Full.addLeft [Zero A] (hfull : Full width height copy) (hpos : 0 < height) (columns : ℕ) :
    ((height - 1) * columns ≤ width * height → ∃ added, copy.addLeft columns = .ok added ∧
          Full (width + columns) height added) ∧
      (width * height < (height - 1) * columns → ∀ added, copy.addLeft columns ≠ .ok added) := by
  unfold TileCopy.addLeft
  rw [hfull.width_eq, hfull.height_eq, ← hfull.area]
  have hmono : Monotone fun row => row * columns := fun _ _ hle =>
    Nat.mul_le_mul_right columns hle
  obtain ⟨hreturns, hfails⟩ := eachRow_insertTiles_of_monotone hmono hpos columns copy.tiles
  push_cast at hreturns hfails
  constructor
  · intro hle
    obtain ⟨filled, hfilled, hcount⟩ := hreturns hle
    refine ⟨⟨filled, _, _⟩, Fault.bind_eq_ok_iff.mpr ⟨filled, hfilled, rfl⟩,
      by push_cast; rfl, rfl, ?_⟩
    rw [Nat.add_mul, ← hfull.area, hcount]
  · intro hwide added hcall
    obtain ⟨filled, hfilled, -⟩ := Fault.bind_eq_ok_iff.mp hcall
    exact hfails hwide filled hfilled

theorem Full.addTop [Zero A] (hfull : Full width height copy) (rows : ℕ) :
    ∃ added, copy.addTop rows = .ok added ∧ Full width (height + rows) added := by
  have hinsert : insertTiles copy.tiles 0 (copy.currTileWidth * rows) =
      .ok (List.replicate (width * rows) 0 ++ copy.tiles) := by
    have hcount : copy.currTileWidth * rows = ((width * rows : ℕ) : ℤ) := by
      rw [hfull.width_eq, Nat.cast_mul]
    rw [insertTiles, hcount, if_pos (by omega), if_pos (by omega), Int.toNat_natCast]
    rfl
  refine ⟨_, Fault.bind_eq_ok_iff.mpr ⟨_, hinsert, rfl⟩, hfull.width_eq, ?_, ?_⟩
  · simp only [hfull.height_eq]
    push_cast
    rfl
  · rw [List.length_append, List.length_replicate, hfull.area, Nat.mul_add, Nat.add_comm]

theorem Full.addBottom [Zero A] (hfull : Full width height copy) (rows : ℕ) :
    ∃ added, copy.addBottom rows = .ok added := by
  have hcount : copy.currTileWidth * rows = ((width * rows : ℕ) : ℤ) := by
    rw [hfull.width_eq, Nat.cast_mul]
  have hinsert : insertTiles copy.tiles copy.tiles.length (copy.currTileWidth * rows) =
      .ok (copy.tiles ++ List.replicate (width * rows) 0) := by
    rw [insertTiles, hcount, if_pos (by omega), if_pos (by omega),
      Int.toNat_natCast, Int.toNat_natCast, List.take_length, List.drop_length,
      List.append_nil]
  exact ⟨_, Fault.bind_eq_ok_iff.mpr ⟨_, hinsert, rfl⟩⟩

/-! ## Whole calls -/

/-- How many of the old rows are still there. -/
def rowsKept (newTileHeight oldTileHeight topEdge : ℤ) : ℤ :=
  min oldTileHeight (topEdge + newTileHeight) - max topEdge 0

section Kept

variable {newTileWidth newTileHeight : ℕ} {leftEdge topEdge : ℤ}

section

variable (hwidth : 0 < width)

include hwidth

theorem bottom_ofGrid (hheight : 0 < height) (hpos : 0 < topEdge + newTileHeight) :
    (if topEdge + newTileHeight < height ∧ (ofGrid width height entry).Shown then
        (ofGrid width height entry).removeBottom (height - (topEdge + newTileHeight))
      else ofGrid width height entry) =
      ofGrid width (min (height : ℤ) (topEdge + newTileHeight)).toNat
        entry := by
  by_cases hless : topEdge + newTileHeight < height
  · obtain ⟨removed, hremoved⟩ := Int.eq_ofNat_of_zero_le
      (by omega : 0 ≤ height - (topEdge + newTileHeight))
    have hkept : (min (height : ℤ) (topEdge + newTileHeight)).toNat = height - removed := by omega
    rw [if_pos ⟨hless, (full_ofGrid _ _ _).shown_iff.mpr ⟨hwidth, hheight⟩⟩,
      hremoved, removeBottom_ofGrid hwidth (by omega), hkept]
  · have hkept : (min (height : ℤ) (topEdge + newTileHeight)).toNat =
        height := by omega
    rw [if_neg fun h => hless h.1, hkept]

theorem removeRows_cleared (hheight : 0 < height)
    (hnone : rowsKept newTileHeight height topEdge ≤ 0) :
    (ofGrid width height entry).removeRows newTileHeight height topEdge =
      cleared := by
  rw [rowsKept] at hnone
  rw [TileCopy.removeRows]
  by_cases hpos : 0 < topEdge + newTileHeight
  · obtain ⟨removed, rfl⟩ := Int.eq_ofNat_of_zero_le (by omega : 0 ≤ topEdge)
    rw [bottom_ofGrid hwidth hheight hpos, if_pos ⟨by omega,
      (full_ofGrid _ _ _).shown_iff.mpr ⟨hwidth, by omega⟩⟩]
    exact removeTop_cleared hwidth (by omega)
  · obtain ⟨removed, hremoved⟩ := Int.eq_ofNat_of_zero_le
      (by omega : 0 ≤ height - (topEdge + newTileHeight))
    have htop : ¬ 0 < topEdge := by omega
    rw [if_neg fun h => htop h.1, if_pos ⟨by omega,
      (full_ofGrid _ _ _).shown_iff.mpr ⟨hwidth, hheight⟩⟩, hremoved]
    exact removeBottom_cleared hwidth (by omega)

theorem removeRows_ofGrid (hpos : 0 < rows) (hrows : rowsKept newTileHeight height topEdge = rows) :
    (ofGrid width height entry).removeRows newTileHeight height topEdge =
      ofGrid width rows (fun x y => entry x (topEdge.toNat + y)) := by
  rw [rowsKept] at hrows
  have hkept : (min (height : ℤ) (topEdge + newTileHeight)).toNat = topEdge.toNat + rows := by omega
  rw [TileCopy.removeRows, bottom_ofGrid hwidth (by omega) (by omega), hkept]
  by_cases htop : 0 < topEdge
  · obtain ⟨removed, rfl⟩ := Int.eq_ofNat_of_zero_le htop.le
    rw [Int.toNat_natCast, if_pos ⟨htop, (full_ofGrid _ _ _).shown_iff.mpr
      ⟨hwidth, by omega⟩⟩, removeTop_ofGrid hwidth (by omega),
      Nat.add_sub_cancel_left]
  · have hzero : topEdge.toNat = 0 := by omega
    simp only [if_neg fun h : 0 < topEdge ∧ _ => htop h.1, hzero, Nat.zero_add]

theorem right_ofGrid (hheight : 0 < height) (hpos : 0 < leftEdge + newTileWidth) :
    applyIf (leftEdge + newTileWidth < width ∧ (ofGrid width height entry).Shown)
        (TileCopy.removeRight · (width - (leftEdge + newTileWidth)))
        (ofGrid width height entry) =
      .ok (ofGrid (min (width : ℤ) (leftEdge + newTileWidth)).toNat height entry) := by
  rw [applyIf]
  by_cases hless : leftEdge + newTileWidth < width
  · obtain ⟨removed, hremoved⟩ := Int.eq_ofNat_of_zero_le
      (by omega : 0 ≤ width - (leftEdge + newTileWidth))
    have hkept : (min (width : ℤ) (leftEdge + newTileWidth)).toNat = width - removed := by omega
    rw [if_pos ⟨hless, (full_ofGrid _ _ _).shown_iff.mpr ⟨hwidth, hheight⟩⟩,
      hremoved, removeRight_ofGrid (by omega), hkept]
  · have hkept : (min (width : ℤ) (leftEdge + newTileWidth)).toNat =
        width := by omega
    rw [if_neg fun h => hless h.1, hkept]

/-- Columns of a copy with rows left when the new right edge is in it. -/
theorem removeColumns_eq (hheight : 0 < height) (hpos : 0 < leftEdge + newTileWidth) :
    (ofGrid width height entry).removeColumns newTileWidth width leftEdge =
      if 0 < leftEdge then
        (ofGrid (min (width : ℤ) (leftEdge + newTileWidth)).toNat height entry).removeLeft leftEdge
      else
        .ok (ofGrid (min (width : ℤ) (leftEdge + newTileWidth)).toNat height entry) := by
  have hshown : (ofGrid (min (width : ℤ) (leftEdge + newTileWidth)).toNat height entry).Shown :=
    (full_ofGrid _ _ _).shown_iff.mpr ⟨by omega, hheight⟩
  rw [TileCopy.removeColumns, right_ofGrid hwidth hheight hpos]
  change applyIf (0 < leftEdge ∧ _) (TileCopy.removeLeft · leftEdge) _ = _
  simp only [applyIf, hshown, and_true]

theorem removeColumns_gone (hheight : 0 < height)
    (hgone : leftEdge + newTileWidth ≤ 0 ∨ (height : ℤ) ≤ leftEdge) :
    (ofGrid width height entry).removeColumns newTileWidth width leftEdge = .ok cleared := by
  by_cases hpos : 0 < leftEdge + newTileWidth
  · obtain ⟨removed, rfl⟩ := Int.eq_ofNat_of_zero_le (by omega : 0 ≤ leftEdge)
    rw [removeColumns_eq hwidth hheight hpos, if_pos (by omega)]
    exact removeLeft_cleared (by omega)
  · obtain ⟨removed, hremoved⟩ := Int.eq_ofNat_of_zero_le
      (by omega : 0 ≤ width - (leftEdge + newTileWidth))
    refine Fault.bind_eq_ok_iff.mpr ⟨cleared, ?_, ?_⟩
    · rw [applyIf, if_pos ⟨by omega, (full_ofGrid _ _ _).shown_iff.mpr ⟨hwidth, hheight⟩⟩, hremoved]
      exact removeRight_cleared (by omega)
    · exact if_neg (by omega)

theorem removeColumns_ofGrid (hheight : 0 < height)
    (hpos : 0 < leftEdge + newTileWidth) (hlow : leftEdge < height)
    (hle : leftEdge ≤ width) :
    (ofGrid width height entry).removeColumns newTileWidth width leftEdge =
      .ok (ofGrid (rowsKept newTileWidth width leftEdge).toNat height
        (fun x y => entry (leftEdge.toNat + x) y)) := by
  rw [removeColumns_eq hwidth hheight hpos, rowsKept]
  by_cases hleft : 0 < leftEdge
  · obtain ⟨removed, rfl⟩ := Int.eq_ofNat_of_zero_le hleft.le
    have hrest : (min (width : ℤ) (removed + newTileWidth) - max (removed : ℤ) 0).toNat =
        (min (width : ℤ) (removed + newTileWidth)).toNat - removed := by
      omega
    rw [if_pos hleft, removeLeft_ofGrid (by omega) (by omega), hrest, Int.toNat_natCast]
  · have hzero : leftEdge.toNat = 0 := by omega
    have hrest : max leftEdge 0 = 0 := by omega
    simp only [if_neg hleft, hzero, hrest, Int.sub_zero, Nat.zero_add]

theorem removeColumns_ne_ok (hpos : 0 < leftEdge + newTileWidth)
    (hlow : leftEdge < height) (hgt : width < leftEdge) (removed : TileCopy A) :
    (ofGrid width height entry).removeColumns newTileWidth width leftEdge ≠ .ok removed := by
  obtain ⟨columns, rfl⟩ := Int.eq_ofNat_of_zero_le (by omega : 0 ≤ leftEdge)
  rw [removeColumns_eq hwidth (by omega) hpos, if_pos (by omega)]
  exact removeLeft_ne_ok (by omega) (by omega) removed

end

end Kept

theorem removeColumns_cleared (newTileWidth oldTileWidth leftEdge : ℤ) :
    (cleared : TileCopy A).removeColumns newTileWidth oldTileWidth leftEdge = .ok cleared := by
  have hnot : ¬ (cleared : TileCopy A).Shown := fun h => lt_irrefl 0 h.1
  refine Fault.bind_eq_ok_iff.mpr ⟨cleared, ?_, ?_⟩
  · rw [applyIf, if_neg fun h => hnot h.2]
  · rw [applyIf, if_neg fun h => hnot h.2]

theorem Full.addRows [Zero A] (hfull : Full width height copy)
    (topEdge newBottom oldTileHeight : ℤ) :
    ∃ added, (applyIf (topEdge < 0) (TileCopy.addTop · (-topEdge)) copy >>=
      applyIf (oldTileHeight < newBottom)
        (TileCopy.addBottom · (newBottom - oldTileHeight))) = .ok added := by
  obtain ⟨topped, htop, height', hfull'⟩ : ∃ topped,
      applyIf (topEdge < 0) (TileCopy.addTop · (-topEdge)) copy =
        .ok topped ∧ ∃ height', Full width height' topped := by
    unfold applyIf
    split
    · obtain ⟨rows, hrows⟩ := Int.eq_ofNat_of_zero_le (by omega : 0 ≤ -topEdge)
      obtain ⟨added, hadded, hfull'⟩ := hfull.addTop rows
      rw [hrows]
      exact ⟨added, hadded, _, hfull'⟩
    · exact ⟨copy, rfl, height, hfull⟩
  rw [htop]
  change ∃ added, applyIf (oldTileHeight < newBottom)
    (TileCopy.addBottom · (newBottom - oldTileHeight)) topped = .ok added
  unfold applyIf
  split
  · obtain ⟨rows, hrows⟩ := Int.eq_ofNat_of_zero_le (by omega : 0 ≤ newBottom - oldTileHeight)
    rw [hrows]
    exact hfull'.addBottom rows
  · exact ⟨topped, rfl⟩

/-- Adding columns on the right to a copy without those on the left. -/
theorem Full.applyIf_addRight [Zero A] {oldWidth newTileWidth : ℕ}
    {leftEdge : ℤ} (hfull : Full width height copy) (hheight : 0 < height)
    (hwidth : (width : ℤ) = min (oldWidth : ℤ) (leftEdge + newTileWidth) - max leftEdge 0) :
    (leftEdge + newTileWidth - oldWidth ≤ width →
      ∃ added, applyIf ((oldWidth : ℤ) < leftEdge + newTileWidth)
          (TileCopy.addRight · (leftEdge + newTileWidth - oldWidth)) copy = .ok added ∧
        Full (leftEdge + newTileWidth - max leftEdge 0).toNat height added) ∧
    (width < leftEdge + newTileWidth - oldWidth →
      ∀ added, applyIf ((oldWidth : ℤ) < leftEdge + newTileWidth)
        (TileCopy.addRight · (leftEdge + newTileWidth - oldWidth)) copy ≠ .ok added) := by
  unfold applyIf
  by_cases hmore : (oldWidth : ℤ) < leftEdge + newTileWidth
  · obtain ⟨columns, hcolumns⟩ := Int.eq_ofNat_of_zero_le
      (by omega : 0 ≤ leftEdge + newTileWidth - oldWidth)
    obtain ⟨hfits, hwide⟩ := hfull.addRight hheight columns
    have hsum : (leftEdge + newTileWidth - max leftEdge 0).toNat = width + columns := by omega
    rw [if_pos hmore, hcolumns, hsum]
    exact ⟨fun hle => hfits (by omega), fun hlt => hwide (by omega)⟩
  · have hsame : (leftEdge + newTileWidth - max leftEdge 0).toNat = width := by
      omega
    rw [if_neg hmore, hsame]
    exact ⟨fun _ => ⟨copy, rfl, hfull⟩, fun hlt => by omega⟩

theorem Full.applyIf_addLeft [Zero A] {leftEdge : ℤ}
    (hfull : Full width height copy) (hheight : 0 < height)
    (hleft : leftEdge < 0) :
    (((height : ℤ) - 1) * (-leftEdge) ≤ height * width →
      ∃ added, applyIf (leftEdge < 0) (TileCopy.addLeft · (-leftEdge)) copy =
          .ok added ∧ ∃ width', Full width' height added) ∧
    (height * width < ((height : ℤ) - 1) * (-leftEdge) →
      ∀ added, applyIf (leftEdge < 0) (TileCopy.addLeft · (-leftEdge)) copy ≠ .ok added) := by
  obtain ⟨columns, hcolumns⟩ := Int.eq_ofNat_of_zero_le (by omega : 0 ≤ -leftEdge)
  obtain ⟨hfits, hwide⟩ := hfull.addLeft hheight columns
  have hlast : ((height : ℤ) - 1) * columns = (((height - 1) * columns : ℕ) : ℤ) := by
    push_cast [hheight]
    rfl
  have harea : (height : ℤ) * width = ((width * height : ℕ) : ℤ) := by
    push_cast
    ring
  rw [applyIf, if_pos hleft, hcolumns, hlast, harea, Nat.cast_le, Nat.cast_lt]
  constructor
  · intro hle
    obtain ⟨added, hadded, hfull'⟩ := hfits hle
    exact ⟨added, hadded, _, hfull'⟩
  · exact hwide

/-- Adding to a copy that has no columns to remove stays inside it exactly if
the columns on the right are not wider than the copy, and the columns on the
left do not start behind it. -/
theorem Full.addTiles [Zero A] {oldWidth oldHeight newTileWidth : ℕ}
    {newTileHeight : ℕ} {leftEdge topEdge : ℤ} (hfull : Full width height copy)
    (hwidth : (width : ℤ) = min (oldWidth : ℤ) (leftEdge + newTileWidth) -
      max leftEdge 0) (hpos : 0 < width) (hheight : 0 < height) :
    (∃ added, copy.addTiles newTileWidth newTileHeight oldWidth oldHeight
        leftEdge topEdge = .ok added) ↔
      leftEdge + newTileWidth - oldWidth ≤ width ∧
        ((height : ℤ) - 1) * (-leftEdge) ≤ height * (leftEdge + newTileWidth) := by
  obtain ⟨hfits, hwide⟩ := hfull.applyIf_addRight hheight hwidth
  by_cases hright : leftEdge + newTileWidth - oldWidth ≤ width
  · obtain ⟨righted, hrighted, hfull'⟩ := hfits hright
    have hcall : copy.addTiles newTileWidth newTileHeight oldWidth oldHeight leftEdge topEdge =
        (applyIf (leftEdge < 0) (TileCopy.addLeft · (-leftEdge)) righted >>=
          fun copy => applyIf (topEdge < 0) (TileCopy.addTop · (-topEdge))
            copy >>= applyIf ((oldHeight : ℤ) < topEdge + newTileHeight)
              (TileCopy.addBottom · (topEdge + newTileHeight - oldHeight))) := by
      rw [TileCopy.addTiles, hrighted]
      rfl
    rw [hcall]
    by_cases hleft : leftEdge < 0
    · have hsum : (leftEdge + newTileWidth - max leftEdge 0).toNat =
          (leftEdge + newTileWidth).toNat := by omega
      have hcast : ((leftEdge + newTileWidth).toNat : ℤ) =
          leftEdge + newTileWidth := Int.toNat_of_nonneg (by omega)
      rw [hsum] at hfull'
      obtain ⟨hinside, hbehind⟩ := hfull'.applyIf_addLeft hheight hleft
      rw [hcast] at hinside hbehind
      constructor
      · rintro ⟨added, hadded⟩
        refine ⟨hright, ?_⟩
        by_contra hgt
        obtain ⟨middle, hmiddle, -⟩ := Fault.bind_eq_ok_iff.mp hadded
        exact hbehind (Int.lt_of_not_ge hgt) middle hmiddle
      · rintro ⟨-, hle⟩
        obtain ⟨lefted, hlefted, width', hfull''⟩ := hinside hle
        obtain ⟨added, hadded⟩ := hfull''.addRows topEdge (topEdge + newTileHeight) oldHeight
        exact ⟨added, Fault.bind_eq_ok_iff.mpr ⟨lefted, hlefted, hadded⟩⟩
    · apply iff_of_true
      · obtain ⟨added, hadded⟩ := hfull'.addRows topEdge (topEdge + newTileHeight) oldHeight
        refine ⟨added, Fault.bind_eq_ok_iff.mpr ⟨righted, ?_, hadded⟩⟩
        rw [applyIf, if_neg hleft]
      · refine ⟨hright, ?_⟩
        have hnonpos : ((height : ℤ) - 1) * (-leftEdge) ≤ 0 :=
          mul_nonpos_of_nonneg_of_nonpos (by omega) (by omega)
        have hnonneg : 0 ≤ (height : ℤ) * (leftEdge + newTileWidth) :=
          mul_nonneg (by omega) (by omega)
        exact hnonpos.trans hnonneg
  · apply iff_of_false
    · rintro ⟨added, hadded⟩
      obtain ⟨righted, hrighted, -⟩ := Fault.bind_eq_ok_iff.mp hadded
      exact hwide (Int.lt_of_not_ge hright) righted hrighted
    · exact fun h => hright h.1

end TileCopy

/-- The positions of a resize lie inside the list: no row is left, or no column
is, or the columns removed and added fit. -/
def CopyInside (newTileWidth newTileHeight oldTileWidth oldTileHeight : UInt16)
    (leftEdge topEdge : ℤ) : Prop :=
  let rows := TileCopy.rowsKept newTileHeight.toNat oldTileHeight.toNat topEdge
  let newRight := leftEdge + newTileWidth.toNat
  rows ≤ 0 ∨ newRight ≤ 0 ∨ rows ≤ leftEdge ∨ leftEdge = oldTileWidth.toNat ∨
    (leftEdge < oldTileWidth.toNat ∧ newRight - oldTileWidth.toNat ≤
        min (oldTileWidth.toNat : ℤ) newRight - max leftEdge 0 ∧
      (rows - 1) * (-leftEdge) ≤ rows * newRight)

instance (newTileWidth newTileHeight oldTileWidth oldTileHeight : UInt16)
    (leftEdge topEdge : ℤ) : Decidable (CopyInside newTileWidth newTileHeight
      oldTileWidth oldTileHeight leftEdge topEdge) :=
  inferInstanceAs (Decidable (_ ∨ _ ∨ _ ∨ _ ∨ _))

/-- Some tiles are kept: rows and columns are, and fewer columns are removed on
the left than rows are kept. -/
structure TilesKept (newTileWidth newTileHeight oldTileWidth
    oldTileHeight : UInt16) (leftEdge topEdge : ℤ) : Prop where
  rows : 0 < TileCopy.rowsKept newTileHeight.toNat oldTileHeight.toNat topEdge
  columns : 0 < TileCopy.rowsKept newTileWidth.toNat oldTileWidth.toNat leftEdge
  left_lt : leftEdge < TileCopy.rowsKept newTileHeight.toNat oldTileHeight.toNat topEdge

/-- The entries that are kept, by column and row. -/
def keptEntry [Zero A] (tiles : List A) (oldTileWidth : UInt16)
    (leftEdge topEdge : ℤ) (x y : ℕ) : A :=
  tiles.getD ((topEdge.toNat + y) * oldTileWidth.toNat + (leftEdge.toNat + x)) 0

section Resize

variable [Zero A] {tiles : List A} {newTileWidth newTileHeight oldTileWidth
  oldTileHeight : UInt16} {leftEdge topEdge : ℤ}

open TileCopy

theorem copyInside_iff_of_kept (hkept : TilesKept newTileWidth newTileHeight
      oldTileWidth oldTileHeight leftEdge topEdge) :
    CopyInside newTileWidth newTileHeight oldTileWidth oldTileHeight leftEdge topEdge ↔
      leftEdge + newTileWidth.toNat - oldTileWidth.toNat ≤
          rowsKept newTileWidth.toNat oldTileWidth.toNat leftEdge ∧
        (rowsKept newTileHeight.toNat oldTileHeight.toNat topEdge - 1) * (-leftEdge) ≤
          rowsKept newTileHeight.toNat oldTileHeight.toNat topEdge *
            (leftEdge + newTileWidth.toNat) := by
  obtain ⟨hrows, hcolumns, hlow⟩ := hkept
  rw [rowsKept] at hcolumns
  constructor
  · rintro (hle | hle | hle | heq | ⟨-, hfits⟩)
    · omega
    · omega
    · omega
    · omega
    · exact hfits
  · intro hfits
    exact .inr (.inr (.inr (.inr ⟨by omega, hfits⟩)))

/-- What is kept of a full list is a grid, which is then added to. -/
theorem resizeTiles_kept (harea : tiles.length = oldTileWidth.toNat * oldTileHeight.toNat)
    (hkept : TilesKept newTileWidth newTileHeight oldTileWidth oldTileHeight leftEdge topEdge) :
    resizeTiles tiles newTileWidth newTileHeight oldTileWidth oldTileHeight leftEdge topEdge =
      ((ofGrid (rowsKept newTileWidth.toNat oldTileWidth.toNat leftEdge).toNat
        (rowsKept newTileHeight.toNat oldTileHeight.toNat topEdge).toNat
        (keptEntry tiles oldTileWidth leftEdge topEdge)).addTiles
          newTileWidth.toNat newTileHeight.toNat oldTileWidth.toNat
            oldTileHeight.toNat leftEdge topEdge >>= fun copy => pure copy.tiles) := by
  obtain ⟨hrows, hcolumns, hlow⟩ := hkept
  have hwidth : 0 < oldTileWidth.toNat := by
    rw [rowsKept] at hcolumns
    omega
  have hremoved := @removeColumns_ofGrid A oldTileWidth.toNat
    (rowsKept newTileHeight.toNat oldTileHeight.toNat topEdge).toNat
    (fun x y => tiles.getD ((topEdge.toNat + y) * oldTileWidth.toNat + x) 0)
    newTileWidth.toNat leftEdge hwidth (by omega)
    (by rw [rowsKept] at hcolumns; omega) (by omega)
    (by rw [rowsKept] at hcolumns; omega)
  rw [resizeTiles, eq_ofGrid harea, removeRows_ofGrid hwidth (by omega)
    (Int.toNat_of_nonneg hrows.le).symm, hremoved]
  refine if_neg ?_
  simp only [ofGrid]
  omega

/-- Nothing is left of a list of which no tiles are kept. -/
theorem resizeTiles_cleared (hwidth : 0 < oldTileWidth.toNat) (hheight : 0 < oldTileHeight.toNat)
    (harea : tiles.length = oldTileWidth.toNat * oldTileHeight.toNat)
    (hinside : CopyInside newTileWidth newTileHeight oldTileWidth oldTileHeight leftEdge topEdge)
    (hnone : ¬ TilesKept newTileWidth newTileHeight oldTileWidth oldTileHeight leftEdge topEdge) :
    resizeTiles tiles newTileWidth newTileHeight oldTileWidth oldTileHeight
      leftEdge topEdge = .ok [] := by
  rw [resizeTiles, eq_ofGrid harea]
  by_cases hrows : rowsKept newTileHeight.toNat oldTileHeight.toNat topEdge ≤ 0
  · rw [removeRows_cleared hwidth hheight hrows]
    exact Fault.bind_eq_ok_iff.mpr ⟨cleared, removeColumns_cleared _ _ _, rfl⟩
  have hpos := Int.lt_of_not_ge hrows
  have hcast := Int.toNat_of_nonneg hpos.le
  rw [removeRows_ofGrid hwidth (by omega) hcast.symm]
  by_cases hgone : leftEdge + newTileWidth.toNat ≤ 0 ∨
      rowsKept newTileHeight.toNat oldTileHeight.toNat topEdge ≤ leftEdge
  · rw [removeColumns_gone hwidth (by omega) (by rw [hcast]; exact hgone)]
    rfl
  rw [not_or, Int.not_le, Int.not_le] at hgone
  obtain ⟨hright, hlow⟩ := hgone
  have hle : leftEdge ≤ oldTileWidth.toNat := by
    rcases hinside with hle | hle | hle | heq | ⟨hlt, -⟩
    · exact absurd hle hrows
    · omega
    · omega
    · exact heq.le
    · exact hlt.le
  rw [removeColumns_ofGrid hwidth (by omega) hright (by omega) hle]
  refine if_pos (.inl ?_)
  simp only [ofGrid]
  rw [Nat.cast_eq_zero, Int.toNat_eq_zero]
  exact Int.not_lt.mp fun hcolumns => hnone ⟨hpos, hcolumns, hlow⟩

theorem resizeTiles_ne_ok (hwidth : 0 < oldTileWidth.toNat)
    (harea : tiles.length = oldTileWidth.toNat * oldTileHeight.toNat)
    (hright : 0 < leftEdge + newTileWidth.toNat)
    (hlow : leftEdge < rowsKept newTileHeight.toNat oldTileHeight.toNat topEdge)
    (hgt : oldTileWidth.toNat < leftEdge) (resized : List A) :
    resizeTiles tiles newTileWidth newTileHeight oldTileWidth oldTileHeight
      leftEdge topEdge ≠ .ok resized := by
  have hcast := Int.toNat_of_nonneg (by omega :
    0 ≤ rowsKept newTileHeight.toNat oldTileHeight.toNat topEdge)
  rw [resizeTiles, eq_ofGrid harea, removeRows_ofGrid hwidth (by omega) hcast.symm]
  intro hcall
  obtain ⟨removed, hremoved, -⟩ := Fault.bind_eq_ok_iff.mp hcall
  exact removeColumns_ne_ok hwidth hright (by omega) hgt removed hremoved

/-- Resizing a full list returns exactly if its positions lie inside. -/
theorem resizeTiles_ok_iff (hwidth : 0 < oldTileWidth.toNat) (hheight : 0 < oldTileHeight.toNat)
    (harea : tiles.length = oldTileWidth.toNat * oldTileHeight.toNat)
    (newTileWidth newTileHeight : UInt16) (leftEdge topEdge : ℤ) :
    (∃ resized, resizeTiles tiles newTileWidth newTileHeight
        oldTileWidth oldTileHeight leftEdge topEdge = .ok resized) ↔
      CopyInside newTileWidth newTileHeight oldTileWidth oldTileHeight leftEdge topEdge := by
  by_cases hkept : TilesKept newTileWidth newTileHeight oldTileWidth oldTileHeight leftEdge topEdge
  · obtain ⟨hrows, hcolumns, hlow⟩ := id hkept
    have hwide : ((rowsKept newTileWidth.toNat oldTileWidth.toNat
        leftEdge).toNat : ℤ) = min (oldTileWidth.toNat : ℤ)
          (leftEdge + newTileWidth.toNat) - max leftEdge 0 :=
      Int.toNat_of_nonneg hcolumns.le
    have hadd := @Full.addTiles A _ _ _ _ _ oldTileHeight.toNat _
      newTileHeight.toNat _ topEdge (full_ofGrid _ _
        (keptEntry tiles oldTileWidth leftEdge topEdge)) hwide
      (by omega) (by omega : 0 < (rowsKept newTileHeight.toNat oldTileHeight.toNat topEdge).toNat)
    rw [Int.toNat_of_nonneg hrows.le, Int.toNat_of_nonneg hcolumns.le] at hadd
    have hreturns := @resizeTiles_kept A _ _ _ _ _ _ _ _ harea hkept
    rw [hreturns, copyInside_iff_of_kept hkept, ← hadd]
    constructor
    · rintro ⟨resized, hresized⟩
      obtain ⟨added, hadded, -⟩ := Fault.bind_eq_ok_iff.mp hresized
      exact ⟨added, hadded⟩
    · rintro ⟨added, hadded⟩
      exact ⟨added.tiles, Fault.bind_eq_ok_iff.mpr ⟨added, hadded, rfl⟩⟩
  · by_cases hinside : CopyInside newTileWidth newTileHeight oldTileWidth
        oldTileHeight leftEdge topEdge
    · exact iff_of_true ⟨[], resizeTiles_cleared hwidth hheight harea hinside hkept⟩ hinside
    · refine iff_of_false ?_ hinside
      rintro ⟨resized, hresized⟩
      simp only [CopyInside, not_or, Int.not_le] at hinside
      obtain ⟨hrows, hright, hlow, hne, hfits⟩ := hinside
      refine resizeTiles_ne_ok hwidth harea hright hlow ?_ resized hresized
      by_contra hle
      have hlt : leftEdge < oldTileWidth.toNat := by omega
      -- Otherwise no column is asked for, and none is added.
      have hcolumns : rowsKept newTileWidth.toNat oldTileWidth.toNat leftEdge ≤ 0 := by
        by_contra hpos
        exact hkept ⟨hrows, Int.lt_of_not_ge hpos, hlow⟩
      rw [rowsKept] at hcolumns
      have hnonpos : (rowsKept newTileHeight.toNat oldTileHeight.toNat
          topEdge - 1) * (-leftEdge) ≤ 0 :=
        mul_nonpos_of_nonneg_of_nonpos (by omega) (by omega)
      have hnonneg : 0 ≤ rowsKept newTileHeight.toNat oldTileHeight.toNat
          topEdge * (leftEdge + newTileWidth.toNat) :=
        mul_nonneg (by omega) (by omega)
      exact hfits ⟨hlt, by omega, hnonpos.trans hnonneg⟩

end Resize

theorem setMtxmOrTileDimensions_ok_iff {tiles : List UInt16}
    {oldTileWidth oldTileHeight : UInt16} (hwidth : 0 < oldTileWidth.toNat)
    (hheight : 0 < oldTileHeight.toNat)
    (harea : tiles.length = oldTileWidth.toNat * oldTileHeight.toNat)
    (newTileWidth newTileHeight : UInt16) (leftEdge topEdge : ℤ) :
    (∃ resized, setMtxmOrTileDimensions tiles newTileWidth newTileHeight
        oldTileWidth oldTileHeight leftEdge topEdge = .ok resized) ↔
      CopyInside newTileWidth newTileHeight oldTileWidth oldTileHeight leftEdge topEdge :=
  resizeTiles_ok_iff hwidth hheight harea newTileWidth newTileHeight leftEdge topEdge

end Chkdraft.Sections
