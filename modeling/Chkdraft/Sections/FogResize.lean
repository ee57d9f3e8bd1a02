import Chkdraft.Core.Spread
import Chkdraft.Sections.TileTranslation

/-!
# The fog of a map that is resized

`MaskSection::setDimensions` resizes its own list.  What it keeps of the map is
a grid, and what it adds spreads that grid over the new list.  The columns on
the right are inserted too early in their rows, and those on the left as if the
rows were as wide as what is added, so the result is right only where the
entries that are moved wrongly are 0.
-/

namespace Chkdraft.Sections

variable {A : Type}

section Added

variable [Zero A] {items : List A} {start place : ℕ → ℕ}

/-- A list whose entries have places, and how long it is. -/
structure Laid (items tiles : List A) (length : ℕ) (place : ℕ → ℕ) : Prop where
  length_eq : tiles.length = length
  spreads : Spreads 0 items tiles place

variable {tiles filled : List A} {length : ℕ}

theorem Laid.insertTiles (hlaid : Laid items tiles length place)
    {start count : ℕ} (hinsert : insertTiles tiles start count = .ok filled) :
    Laid items filled (length + count)
      (fun i => if place i < start then place i else place i + count) := by
  rw [Sections.insertTiles] at hinsert
  split at hinsert
  · rename_i hstart
    rw [if_pos (Int.natCast_nonneg count)] at hinsert
    cases hinsert
    have hle : start ≤ tiles.length := by omega
    constructor
    · rw [← hlaid.length_eq, Int.toNat_natCast, Int.toNat_natCast, List.length_append,
        List.length_append, List.length_take, List.length_replicate, List.length_drop]
      omega
    · exact hlaid.spreads.insert hle count
  · cases hinsert

/-- How many of the rows start at an index or before. -/
def rowsBefore (start : ℕ → ℕ) (height index : ℕ) : ℕ :=
  (List.range height).countP (start · ≤ index)

theorem rowsBefore_succ (start : ℕ → ℕ) (height index : ℕ) :
    rowsBefore start (height + 1) index = rowsBefore start height index +
        if start height ≤ index then 1 else 0 := by
  simp [rowsBefore, List.range_succ, List.countP_append, List.countP_singleton]

theorem rowsBefore_of_le (hmono : Monotone start) {height index : ℕ}
    (hle : start height ≤ index) : rowsBefore start height index = height := by
  rw [rowsBefore, List.countP_eq_length.mpr, List.length_range]
  intro row hrow
  exact decide_eq_true ((hmono (List.mem_range.mp hrow).le).trans hle)

/-- Filling every row moves an entry by the rows that are filled before it. -/
theorem Laid.eachRow_insertTiles (hlaid : Laid items tiles length place)
    (hmono : Monotone start) {count height : ℕ}
    (hrun : eachRow (fun tiles row =>
      Sections.insertTiles tiles (start row) count) height tiles = .ok filled) :
    Laid items filled (length + count * height)
      (fun i => place i + count * rowsBefore start height (place i)) := by
  induction height generalizing tiles length place with
  | zero =>
      cases hrun
      exact hlaid
  | succ height ih =>
      rw [eachRow_succ, Fault.bind_eq_ok_iff] at hrun
      obtain ⟨middle, hmiddle, hrest⟩ := hrun
      have hfilled := ih (hlaid.insertTiles hmiddle) hrest
      constructor
      · rw [hfilled.length_eq]
        ring
      · apply hfilled.spreads.congr
        intro i _
        -- An entry behind the last row is behind all of them.
        rw [rowsBefore_succ]
        by_cases hlt : place i < start height
        · rw [if_pos hlt, if_neg (Nat.not_le_of_lt hlt), Nat.add_zero]
        · have hle := Nat.le_of_not_lt hlt
          rw [if_neg hlt, if_pos hle, rowsBefore_of_le hmono hle,
            rowsBefore_of_le hmono (hle.trans (Nat.le_add_right _ _))]
          ring

theorem rowsBefore_eq_min {index bound : ℕ} (height : ℕ)
    (hbefore : ∀ row < height, start row ≤ index ↔ row < bound) :
    rowsBefore start height index = min height bound := by
  induction height with
  | zero => exact (Nat.zero_min bound).symm
  | succ height ih =>
      have hlast := hbefore height (Nat.lt_succ_self height)
      rw [rowsBefore_succ, ih fun row hrow => hbefore row (by omega)]
      by_cases hlt : height < bound
      · rw [if_pos (hlast.mpr hlt)]
        omega
      · rw [if_neg fun h => hlt (hlast.mp h)]
        omega

namespace TileCopy

/-- A full copy whose tiles have places. -/
structure LaidCopy (items : List A) (width height : ℕ) (place : ℕ → ℕ)
    (copy : TileCopy A) : Prop extends Full width height copy where
  spreads : Spreads 0 items copy.tiles place

variable {width height : ℕ} {copy added : TileCopy A}

section

variable (hlaid : LaidCopy items width height place copy)

include hlaid

theorem LaidCopy.laid : Laid items copy.tiles (width * height) place := ⟨hlaid.area, hlaid.spreads⟩

theorem LaidCopy.addRight {columns : ℕ} (hcall : copy.addRight columns = .ok added) :
    LaidCopy items (width + columns) height (fun i => place i +
      columns * rowsBefore (· * width + columns) height (place i)) added := by
  obtain ⟨tiles, htiles, hadded⟩ := Fault.bind_eq_ok_iff.mp hcall
  cases hadded
  rw [hlaid.width_eq, hlaid.height_eq] at htiles
  have hmono : Monotone fun row => row * width + columns := fun _ _ hle =>
    Nat.add_le_add_right (Nat.mul_le_mul_right width hle) columns
  have hfilled := @Laid.eachRow_insertTiles A _ _ _ _ _ tiles _ hlaid.laid hmono
    columns height (by push_cast; exact htiles)
  refine ⟨⟨?_, hlaid.height_eq, ?_⟩, hfilled.spreads⟩
  · rw [hlaid.width_eq]
    push_cast
    rfl
  · rw [hfilled.length_eq]
    ring

theorem LaidCopy.addLeft {columns : ℕ} (hcall : copy.addLeft columns = .ok added) :
    LaidCopy items (width + columns) height (fun i => place i +
      columns * rowsBefore (· * columns) height (place i)) added := by
  obtain ⟨tiles, htiles, hadded⟩ := Fault.bind_eq_ok_iff.mp hcall
  cases hadded
  rw [hlaid.height_eq] at htiles
  have hmono : Monotone fun row => row * columns := fun _ _ hle =>
    Nat.mul_le_mul_right columns hle
  have hfilled := @Laid.eachRow_insertTiles A _ _ _ _ _ tiles _ hlaid.laid hmono
    columns height (by push_cast; exact htiles)
  refine ⟨⟨?_, hlaid.height_eq, ?_⟩, hfilled.spreads⟩
  · rw [hlaid.width_eq]
    push_cast
    rfl
  · rw [hfilled.length_eq]
    ring

theorem LaidCopy.addTop {rows : ℕ} (hcall : copy.addTop rows = .ok added) :
    LaidCopy items width (height + rows) (fun i => place i + width * rows)
      added := by
  obtain ⟨tiles, htiles, hadded⟩ := Fault.bind_eq_ok_iff.mp hcall
  cases hadded
  rw [hlaid.width_eq, ← Nat.cast_mul] at htiles
  have hfilled := @Laid.insertTiles A _ _ _ _ tiles _ hlaid.laid 0 _ htiles
  refine ⟨⟨hlaid.width_eq, ?_, ?_⟩, hfilled.spreads.congr fun i _ => rfl⟩
  · rw [hlaid.height_eq]
    push_cast
    rfl
  · rw [hfilled.length_eq, Nat.mul_add]

theorem LaidCopy.addBottom {rows : ℕ} (hcall : copy.addBottom rows = .ok added) :
    Laid items added.tiles (width * (height + rows)) place := by
  obtain ⟨tiles, htiles, hadded⟩ := Fault.bind_eq_ok_iff.mp hcall
  cases hadded
  rw [hlaid.width_eq, ← Nat.cast_mul] at htiles
  have hfilled := hlaid.laid.insertTiles htiles
  constructor
  · rw [hfilled.length_eq, Nat.mul_add]
  · exact hfilled.spreads.congr fun i hi =>
      if_pos (hlaid.spreads.place_lt hi)

end

omit [Zero A] in
theorem applyIf_cases {condition : Prop} [Decidable condition] {amount : ℤ}
    (change : ℤ → TileCopy A → Except (Fault LengthError) (TileCopy A))
    {P : ℕ → TileCopy A → Prop} (hcondition : condition ↔ 0 < amount)
    (hcall : applyIf condition (change amount) copy = .ok added)
    (hnone : P 0 copy)
    (hsome : ∀ count : ℕ, change count copy = .ok added → P count added) :
    P amount.toNat added := by
  rw [applyIf] at hcall
  split at hcall
  · rename_i hpos
    obtain ⟨count, rfl⟩ := Int.eq_ofNat_of_zero_le (hcondition.mp hpos).le
    exact hsome count hcall
  · rename_i hnonpos
    cases hcall
    rw [Int.toNat_eq_zero.mpr (Int.not_lt.mp fun h =>
      hnonpos (hcondition.mpr h))]
    exact hnone

section Amounts

variable {condition : Prop} [Decidable condition] {amount : ℤ}

section

variable (hlaid : LaidCopy items width height place copy)

include hlaid

theorem LaidCopy.applyIf_addRight (hcondition : condition ↔ 0 < amount)
    (hcall : applyIf condition (TileCopy.addRight · amount) copy = .ok added) :
    LaidCopy items (width + amount.toNat) height (fun i => place i +
      amount.toNat * rowsBefore (· * width + amount.toNat) height (place i))
        added := by
  refine applyIf_cases (P := fun columns copy => LaidCopy items
    (width + columns) height (fun i => place i + columns *
      rowsBefore (· * width + columns) height (place i)) copy)
    (fun amount copy => copy.addRight amount) hcondition hcall ?_ ?_
  · simp only [Nat.zero_mul, Nat.add_zero]
    exact hlaid
  · intro columns hadd
    exact hlaid.addRight hadd

theorem LaidCopy.applyIf_addLeft (hcondition : condition ↔ 0 < amount)
    (hcall : applyIf condition (TileCopy.addLeft · amount) copy = .ok added) :
    LaidCopy items (width + amount.toNat) height (fun i => place i +
      amount.toNat * rowsBefore (· * amount.toNat) height (place i))
        added := by
  refine applyIf_cases (P := fun columns copy => LaidCopy items
    (width + columns) height (fun i => place i + columns *
      rowsBefore (· * columns) height (place i)) copy)
    (fun amount copy => copy.addLeft amount) hcondition hcall ?_ ?_
  · simp only [Nat.zero_mul, Nat.add_zero]
    exact hlaid
  · intro columns hadd
    exact hlaid.addLeft hadd

theorem LaidCopy.applyIf_addTop (hcondition : condition ↔ 0 < amount)
    (hcall : applyIf condition (TileCopy.addTop · amount) copy = .ok added) :
    LaidCopy items width (height + amount.toNat)
      (fun i => place i + width * amount.toNat) added := by
  refine applyIf_cases (P := fun rows copy => LaidCopy items width
    (height + rows) (fun i => place i + width * rows) copy)
    (fun amount copy => copy.addTop amount) hcondition hcall ?_ ?_
  · simp only [Nat.mul_zero, Nat.add_zero]
    exact hlaid
  · intro rows hadd
    exact hlaid.addTop hadd

theorem LaidCopy.applyIf_addBottom (hcondition : condition ↔ 0 < amount)
    (hcall : applyIf condition (TileCopy.addBottom · amount) copy = .ok added) :
    Laid items added.tiles (width * (height + amount.toNat)) place := by
  refine applyIf_cases (P := fun rows copy =>
    Laid items copy.tiles (width * (height + rows)) place)
    (fun amount copy => copy.addBottom amount) hcondition hcall hlaid.laid ?_
  intro rows hadd
  exact hlaid.addBottom hadd

end

end Amounts

end TileCopy

/-- Where an entry of the kept part stands when tiles were added. -/
def addedPlace (columns rows right left top i : ℕ) : ℕ :=
  let place := i + right * rowsBefore (· * columns + right) rows i
  let place := place + left * rowsBefore (· * left) rows place
  place + (columns + right + left) * top

theorem TileCopy.LaidCopy.addTiles {columns rows : ℕ} {copy added : TileCopy A}
    (hlaid : LaidCopy items columns rows id copy) {newTileWidth newTileHeight
      oldTileWidth oldTileHeight leftEdge topEdge : ℤ}
    (hcall : copy.addTiles newTileWidth newTileHeight oldTileWidth
      oldTileHeight leftEdge topEdge = .ok added) :
    Laid items added.tiles ((columns + (leftEdge + newTileWidth - oldTileWidth).toNat +
          (-leftEdge).toNat) *
        (rows + (-topEdge).toNat + (topEdge + newTileHeight - oldTileHeight).toNat))
      (addedPlace columns rows (leftEdge + newTileWidth - oldTileWidth).toNat (-leftEdge).toNat
          (-topEdge).toNat) := by
  obtain ⟨righted, hright, hcall⟩ := Fault.bind_eq_ok_iff.mp hcall
  obtain ⟨lefted, hleft, hcall⟩ := Fault.bind_eq_ok_iff.mp hcall
  obtain ⟨topped, htop, hbottom⟩ := Fault.bind_eq_ok_iff.mp hcall
  have hrighted := hlaid.applyIf_addRight Int.sub_pos.symm hright
  have hlefted := hrighted.applyIf_addLeft Int.neg_pos.symm hleft
  have htopped := hlefted.applyIf_addTop Int.neg_pos.symm htop
  exact htopped.applyIf_addBottom Int.sub_pos.symm hbottom

end Added

/-- An entry of the kept part goes to its place: no column on the right is
inserted before it in its row, and as many rows on the left are filled before
it as it has rows above it and its own. -/
structure GoesToPlace (columns rows right left x y : ℕ) : Prop where
  right_behind : right = 0 ∨ x < right
  left_before : left = 0 ∨ y * left ≤ y * (columns + right) + x ∧
    (y + 1 = rows ∨ y * (columns + right) + x < (y + 1) * left)

instance (columns rows right left x y : ℕ) : Decidable (GoesToPlace columns rows right left x y) :=
  decidable_of_iff ((right = 0 ∨ x < right) ∧ (left = 0 ∨ y * left ≤ y * (columns + right) + x ∧
        (y + 1 = rows ∨ y * (columns + right) + x < (y + 1) * left)))
    ⟨fun h => ⟨h.1, h.2⟩, fun h => ⟨h.right_behind, h.left_before⟩⟩

section Places

variable {columns rows right left x y : ℕ}

theorem rowsBefore_right (hpos : 0 < right) (hfits : right ≤ columns)
    (hx : x < columns) (hy : y < rows) :
    rowsBefore (· * columns + right) rows (y * columns + x) = y + if right ≤ x then 1 else 0 := by
  have hcount := @rowsBefore_eq_min (· * columns + right) (y * columns + x)
    (y + if right ≤ x then 1 else 0) rows (by
      intro row _
      rcases Nat.lt_trichotomy row y with hlt | rfl | hgt
      · have hrow : (row + 1) * columns ≤ y * columns := Nat.mul_le_mul_right _ hlt
        rw [Nat.succ_mul] at hrow
        exact iff_of_true (by omega) (by omega)
      · rw [Nat.add_le_add_iff_left]
        split
        · exact iff_of_true ‹_› (by omega)
        · exact iff_of_false ‹_› (by omega)
      · have hrow : (y + 1) * columns ≤ row * columns := Nat.mul_le_mul_right _ hgt
        rw [Nat.succ_mul] at hrow
        refine iff_of_false (by omega) ?_
        split
        · omega
        · omega)
  rw [hcount]
  split
  · omega
  · omega

theorem rowsBefore_left (hpos : 0 < left) (rows index : ℕ) :
    rowsBefore (· * left) rows index = min rows (index / left + 1) := by
  apply rowsBefore_eq_min
  intro row _
  rw [Nat.lt_succ_iff, Nat.le_div_iff_mul_le hpos]

/-- The rows on the left that are filled before an entry are the right ones. -/
theorem rowsBefore_left_eq_iff (hpos : 0 < left) (hy : y < rows) (index : ℕ) :
    rowsBefore (· * left) rows index = y + 1 ↔
      y * left ≤ index ∧ (y + 1 = rows ∨ index < (y + 1) * left) := by
  rw [rowsBefore_left hpos, ← Nat.le_div_iff_mul_le hpos, ← Nat.div_lt_iff_lt_mul hpos]
  omega

/-- Columns inserted too early on the right are not made up for on the left. -/
theorem right_add_left_ne (hpos : 0 < right) (hy : y < rows) {index : ℕ}
    (hindex : y * right ≤ index) :
    right + left * rowsBefore (· * left) rows index ≠ left * (y + 1) := by
  intro hsum
  have hleft : 0 < left := by
    by_contra hzero
    rw [Nat.eq_zero_of_not_pos hzero] at hsum
    omega
  rw [rowsBefore_left hleft] at hsum
  have hfew : min rows (index / left + 1) < y + 1 := by
    by_contra hle
    have hmul := Nat.mul_le_mul_left left (Nat.le_of_not_lt hle)
    omega
  have hcount : min rows (index / left + 1) = index / left + 1 := by omega
  rw [hcount] at hsum hfew
  obtain ⟨more, hmore⟩ := Nat.exists_eq_add_of_lt hfew
  have hle : left ≤ right := by
    have hexpand : left * (y + 1) =
        left * (index / left + 1) + left * more + left := by
      rw [hmore]
      ring
    omega
  have hlt : index < left * (index / left + 1) := by
    rw [Nat.mul_add, Nat.mul_one]
    exact Nat.lt_mul_div_succ index hleft
  have hrows : left * (index / left + 1) ≤ y * right := by
    rw [Nat.mul_comm]
    exact Nat.mul_le_mul (by omega) hle
  omega

theorem addedPlace_eq_windowPlace_iff (hfits : right ≤ columns)
    (hx : x < columns) (hy : y < rows) (top : ℕ) :
    addedPlace columns rows right left top (y * columns + x) =
        windowPlace (columns + right + left) columns left top (y * columns + x) ↔
      GoesToPlace columns rows right left x y := by
  have hwindow : windowPlace (columns + right + left) columns left top
      (y * columns + x) = y * (columns + right) + x + left * (y + 1) +
        (columns + right + left) * top := by
    rw [windowPlace_of_lt _ _ _ hx]
    ring
  rw [hwindow, addedPlace]
  simp only [Nat.add_right_cancel_iff]
  by_cases hearly : right = 0 ∨ x < right
  · have hright : y * columns + x + right *
        rowsBefore (· * columns + right) rows (y * columns + x) =
        y * (columns + right) + x := by
      rcases Nat.eq_zero_or_pos right with rfl | hpos
      · rw [Nat.zero_mul, Nat.add_zero, Nat.add_zero]
      · rw [rowsBefore_right hpos hfits hx hy, if_neg (by omega)]
        ring
    rw [hright, Nat.add_left_cancel_iff]
    rcases Nat.eq_zero_or_pos left with rfl | hpos
    · simp only [Nat.zero_mul, true_iff]
      exact ⟨hearly, .inl rfl⟩
    · rw [Nat.mul_left_cancel_iff hpos, rowsBefore_left_eq_iff hpos hy]
      constructor
      · intro hbefore
        exact ⟨hearly, .inr hbefore⟩
      · intro hgoes
        exact hgoes.left_before.resolve_left hpos.ne'
  · have hpos : 0 < right := by omega
    have hle : right ≤ x := by omega
    apply iff_of_false
    · rw [rowsBefore_right hpos hfits hx hy, if_pos hle]
      have hplace : y * columns + x + right * (y + 1) = y * (columns + right) + x + right := by ring
      rw [hplace, Nat.add_assoc, Nat.add_left_cancel_iff]
      apply right_add_left_ne hpos hy
      rw [Nat.mul_add]
      omega
    · intro hgoes
      have hbehind := hgoes.right_behind
      omega

end Places

/-! ## Fog that is translated -/

/-- Every entry but 0 of the kept part goes to its place. -/
def EntriesGo {A : Type} [Zero A] (tiles : List A) (newTileWidth newTileHeight
    oldTileWidth oldTileHeight : UInt16) (leftEdge topEdge : ℤ) : Prop :=
  let columns := (TileCopy.rowsKept newTileWidth.toNat oldTileWidth.toNat leftEdge).toNat
  let rows := (TileCopy.rowsKept newTileHeight.toNat oldTileHeight.toNat topEdge).toNat
  ∀ x < columns, ∀ y < rows,
    tileAt tiles oldTileWidth.toNat oldTileHeight.toNat (x + max leftEdge 0)
        (y + max topEdge 0) ≠ 0 →
      GoesToPlace columns rows (leftEdge + newTileWidth.toNat - oldTileWidth.toNat).toNat
        (-leftEdge).toNat x y

section Translated

variable {A : Type} [Zero A] {tiles resized : List A}

theorem tileAt_natCast {width height x y : ℕ} (hx : x < width) (hy : y < height) :
    tileAt tiles width height x y = tiles.getD (y * width + x) 0 := by
  have hinside : InsideMap width height x y := by
    unfold InsideMap
    omega
  have hindex : ((y : ℤ) * width + x).toNat = y * width + x := by
    exact_mod_cast Int.toNat_natCast (y * width + x)
  rw [tileAt, if_pos hinside, hindex]

theorem insideMap_iff_window {newWidth newHeight oldWidth oldHeight columns
      rows x y : ℕ} {leftEdge topEdge : ℤ}
    (hcolumns : TileCopy.rowsKept newWidth oldWidth leftEdge = columns)
    (hrows : TileCopy.rowsKept newHeight oldHeight topEdge = rows)
    (hx : x < newWidth) (hy : y < newHeight) :
    InsideMap oldWidth oldHeight (x + leftEdge) (y + topEdge) ↔
      ∃ column < columns, ∃ row < rows, (-leftEdge).toNat + column = x ∧
        (-topEdge).toNat + row = y := by
  rw [TileCopy.rowsKept] at hcolumns hrows
  constructor
  · rintro ⟨hleft, hright, htop, hbottom⟩
    exact ⟨x - (-leftEdge).toNat, by omega, y - (-topEdge).toNat, by omega, by omega, by omega⟩
  · rintro ⟨column, hcolumn, row, hrow, rfl, rfl⟩
    refine ⟨?_, ?_, ?_, ?_⟩
    · omega
    · omega
    · omega
    · omega

open TileCopy

variable {newTileWidth newTileHeight oldTileWidth oldTileHeight : UInt16}
  {leftEdge topEdge : ℤ}

section Kept

variable {columns rows : ℕ} (hcolumns :
    rowsKept newTileWidth.toNat oldTileWidth.toNat leftEdge = columns)
  (hrows : rowsKept newTileHeight.toNat oldTileHeight.toNat topEdge = rows)

include hcolumns hrows

theorem tileAt_keptEntry {x y : ℕ} (hx : x < columns) (hy : y < rows) :
    tileAt tiles oldTileWidth.toNat oldTileHeight.toNat (x + max leftEdge 0) (y + max topEdge 0) =
      keptEntry tiles oldTileWidth leftEdge topEdge x y := by
  rw [rowsKept] at hcolumns hrows
  have hcolumn : (x : ℤ) + max leftEdge 0 = (leftEdge.toNat + x : ℕ) := by
    omega
  have hrow : (y : ℤ) + max topEdge 0 = (topEdge.toNat + y : ℕ) := by omega
  rw [hcolumn, hrow, tileAt_natCast (by omega) (by omega), keptEntry]

/-- Translating is spreading the kept part over its window. -/
theorem translates_iff_spreads
    (hlength : resized.length = newTileWidth.toNat * newTileHeight.toNat) :
    Translates tiles resized newTileWidth.toNat newTileHeight.toNat
        oldTileWidth.toNat oldTileHeight.toNat leftEdge topEdge ↔
      Spreads 0 (grid columns (keptEntry tiles oldTileWidth leftEdge topEdge) rows)
        resized (windowPlace newTileWidth.toNat columns (-leftEdge).toNat (-topEdge).toNat) := by
  have hkeptColumns := hcolumns
  have hkeptRows := hrows
  rw [rowsKept] at hkeptColumns hkeptRows
  have hvalue : ∀ column < columns, ∀ row < rows,
      tileAt tiles oldTileWidth.toNat oldTileHeight.toNat
          (((-leftEdge).toNat + column : ℕ) + leftEdge)
          (((-topEdge).toNat + row : ℕ) + topEdge) =
        keptEntry tiles oldTileWidth leftEdge topEdge column row := by
    intro column hcolumn row hrow
    have hx : (((-leftEdge).toNat + column : ℕ) : ℤ) + leftEdge =
        column + max leftEdge 0 := by omega
    have hy : (((-topEdge).toNat + row : ℕ) : ℤ) + topEdge = row + max topEdge 0 := by omega
    rw [hx, hy, tileAt_keptEntry hcolumns hrows hcolumn hrow]
  rw [Spreads.window_iff (by omega) hlength]
  constructor
  · rintro ⟨-, htile⟩
    constructor
    · intro column hcolumn row hrow
      rw [htile _ (by omega) _ (by omega), hvalue column hcolumn row hrow]
    · intro x hx y hy houtside
      rw [htile x hx y hy, tileAt, if_neg]
      rw [insideMap_iff_window hcolumns hrows hx hy]
      rintro ⟨column, hcolumn, row, hrow, hposition⟩
      exact houtside column hcolumn row hrow hposition
  · rintro ⟨hwindow, haround⟩
    refine ⟨hlength, ?_⟩
    intro x hx y hy
    by_cases hinside : InsideMap oldTileWidth.toNat oldTileHeight.toNat (x + leftEdge) (y + topEdge)
    · obtain ⟨column, hcolumn, row, hrow, rfl, rfl⟩ :=
        (insideMap_iff_window hcolumns hrows hx hy).mp hinside
      rw [hwindow column hcolumn row hrow, hvalue column hcolumn row hrow]
    · rw [tileAt, if_neg hinside]
      apply haround x hx y hy
      intro column hcolumn row hrow hposition
      exact hinside ((insideMap_iff_window hcolumns hrows hx hy).mpr
        ⟨column, hcolumn, row, hrow, hposition⟩)

/-- A kept part that was added to has the new size, and each entry stands where
the steps put it. -/
theorem laid_addTiles {added : TileCopy A} (hcall : (ofGrid columns rows
      (keptEntry tiles oldTileWidth leftEdge topEdge)).addTiles
        newTileWidth.toNat newTileHeight.toNat oldTileWidth.toNat
          oldTileHeight.toNat leftEdge topEdge = .ok added) :
    Laid (grid columns (keptEntry tiles oldTileWidth leftEdge topEdge) rows)
      added.tiles (newTileWidth.toNat * newTileHeight.toNat)
      (addedPlace columns rows (leftEdge + newTileWidth.toNat - oldTileWidth.toNat).toNat
        (-leftEdge).toNat (-topEdge).toNat) := by
  rw [rowsKept] at hcolumns hrows
  have hgrid : LaidCopy (grid columns (keptEntry tiles oldTileWidth leftEdge
      topEdge) rows) columns rows id (ofGrid columns rows
        (keptEntry tiles oldTileWidth leftEdge topEdge)) :=
    ⟨full_ofGrid _ _ _, Spreads.refl 0 _⟩
  have hlaid := hgrid.addTiles hcall
  have hwidth : columns + (leftEdge + newTileWidth.toNat -
      oldTileWidth.toNat).toNat + (-leftEdge).toNat =
        newTileWidth.toNat := by omega
  have hheight : rows + (-topEdge).toNat + (topEdge + newTileHeight.toNat -
      oldTileHeight.toNat).toNat = newTileHeight.toNat := by omega
  rw [hwidth, hheight] at hlaid
  exact hlaid

/-- The kept part is translated exactly if every entry but 0 goes to its
place. -/
theorem translates_iff_of_laid
    (hfits : (leftEdge + newTileWidth.toNat - oldTileWidth.toNat).toNat ≤ columns)
    (hlaid : Laid (grid columns (keptEntry tiles oldTileWidth leftEdge topEdge) rows)
      resized (newTileWidth.toNat * newTileHeight.toNat)
      (addedPlace columns rows (leftEdge + newTileWidth.toNat - oldTileWidth.toNat).toNat
        (-leftEdge).toNat (-topEdge).toNat)) :
    Translates tiles resized newTileWidth.toNat newTileHeight.toNat
        oldTileWidth.toNat oldTileHeight.toNat leftEdge topEdge ↔
      ∀ x < columns, ∀ y < rows, keptEntry tiles oldTileWidth leftEdge topEdge x y ≠ 0 →
          GoesToPlace columns rows (leftEdge + newTileWidth.toNat - oldTileWidth.toNat).toNat
            (-leftEdge).toNat x y := by
  rw [translates_iff_spreads hcolumns hrows hlaid.length_eq]
  rw [rowsKept] at hcolumns hrows
  have hwidth : columns + (leftEdge + newTileWidth.toNat -
      oldTileWidth.toNat).toNat + (-leftEdge).toNat =
        newTileWidth.toNat := by omega
  rw [hlaid.spreads.other_iff (fun i j hlt _ => windowPlace_lt_windowPlace (by omega) _ _ hlt) (by
      intro i hi
      rw [length_grid] at hi
      obtain ⟨hcolumn, hrow⟩ := grid_mod_div_lt hi
      rw [hlaid.length_eq]
      exact grid_index_lt (by omega) (by omega))]
  constructor
  · intro hgo x hx y hy hne
    rw [← addedPlace_eq_windowPlace_iff hfits hx hy (-topEdge).toNat, hwidth]
    exact hgo _ _ (getElem?_grid _ hx hy) hne
  · intro hgo i value hvalue hne
    have hi := (List.getElem?_eq_some_iff.mp hvalue).1
    rw [length_grid] at hi
    obtain ⟨hcolumn, hrow⟩ := grid_mod_div_lt hi
    rw [← Nat.div_add_mod' i columns, getElem?_grid _ hcolumn hrow, Option.some.injEq] at hvalue
    have hgoes := hgo _ hcolumn _ hrow (hvalue ▸ hne)
    rw [← addedPlace_eq_windowPlace_iff hfits hcolumn hrow (-topEdge).toNat,
      hwidth, Nat.div_add_mod'] at hgoes
    exact hgoes

end Kept

theorem translates_kept_iff (harea : tiles.length = oldTileWidth.toNat * oldTileHeight.toNat)
    (hkept : TilesKept newTileWidth newTileHeight oldTileWidth oldTileHeight leftEdge topEdge)
    (hinside : CopyInside newTileWidth newTileHeight oldTileWidth oldTileHeight leftEdge topEdge)
    (hcall : resizeTiles tiles newTileWidth newTileHeight oldTileWidth
      oldTileHeight leftEdge topEdge = .ok resized) :
    Translates tiles resized newTileWidth.toNat newTileHeight.toNat
        oldTileWidth.toNat oldTileHeight.toNat leftEdge topEdge ↔
      EntriesGo tiles newTileWidth newTileHeight oldTileWidth oldTileHeight leftEdge topEdge := by
  rw [resizeTiles_kept harea hkept, Fault.bind_eq_ok_iff] at hcall
  obtain ⟨added, hadded, hresized⟩ := hcall
  cases hresized
  have hfits := ((copyInside_iff_of_kept hkept).mp hinside).1
  obtain ⟨hrowsPos, hcolumnsPos, -⟩ := hkept
  have hcolumns := (Int.toNat_of_nonneg hcolumnsPos.le).symm
  have hrows := (Int.toNat_of_nonneg hrowsPos.le).symm
  have hlaid := laid_addTiles hcolumns hrows hadded
  rw [translates_iff_of_laid hcolumns hrows (by omega) hlaid, EntriesGo]
  refine forall₂_congr fun x hx => forall₂_congr fun y hy => ?_
  rw [tileAt_keptEntry hcolumns hrows hx hy]

theorem translates_nil_iff {newWidth newHeight oldWidth oldHeight : ℕ} :
    Translates tiles [] newWidth newHeight oldWidth oldHeight leftEdge
      topEdge ↔ newWidth * newHeight = 0 := by
  constructor
  · intro htranslates
    exact htranslates.length_eq.symm
  · intro hzero
    refine ⟨hzero.symm, ?_⟩
    intro x hx y hy
    have hlt := grid_index_lt hx hy
    omega

theorem not_tilesKept_of_empty (hempty : newTileWidth.toNat * newTileHeight.toNat = 0 ∨
      oldTileWidth.toNat * oldTileHeight.toNat = 0) :
    ¬ TilesKept newTileWidth newTileHeight oldTileWidth oldTileHeight leftEdge
      topEdge := by
  rintro ⟨hrows, hcolumns, -⟩
  rw [rowsKept] at hrows hcolumns
  simp only [Nat.mul_eq_zero] at hempty
  omega

theorem entriesGo_of_empty (hempty : newTileWidth.toNat * newTileHeight.toNat = 0) :
    EntriesGo tiles newTileWidth newTileHeight oldTileWidth oldTileHeight leftEdge topEdge := by
  intro x hx y hy
  rw [rowsKept] at hx hy
  rw [Nat.mul_eq_zero] at hempty
  omega

end Translated

/-- The positions lie inside the list, a map with tiles keeps some, and every
entry but 0 that is kept goes to its place. -/
structure MeetsFogTranslation (fogTiles : List UInt8) (newTileWidth
    newTileHeight oldTileWidth oldTileHeight : UInt16) (leftEdge topEdge : ℤ) :
    Prop where
  inside : oldTileWidth.toNat * oldTileHeight.toNat = 0 ∨
    CopyInside newTileWidth newTileHeight oldTileWidth oldTileHeight leftEdge topEdge
  kept : newTileWidth.toNat * newTileHeight.toNat = 0 ∨
    TilesKept newTileWidth newTileHeight oldTileWidth oldTileHeight leftEdge topEdge
  goes : EntriesGo fogTiles newTileWidth newTileHeight oldTileWidth oldTileHeight leftEdge topEdge

section Fog

variable {fogTiles : List UInt8} {newTileWidth newTileHeight oldTileWidth
  oldTileHeight : UInt16} {leftEdge topEdge : ℤ}

theorem resizesFog_cleared_iff (hcall : resizeTiles fogTiles newTileWidth newTileHeight oldTileWidth
      oldTileHeight leftEdge topEdge = .ok [])
    (hnone : ¬ TilesKept newTileWidth newTileHeight oldTileWidth oldTileHeight leftEdge topEdge)
    (hinside : oldTileWidth.toNat * oldTileHeight.toNat = 0 ∨
      CopyInside newTileWidth newTileHeight oldTileWidth oldTileHeight leftEdge topEdge) :
    ResizesTiles maskSetDimensions fogTiles newTileWidth newTileHeight
        oldTileWidth oldTileHeight leftEdge topEdge ↔
      MeetsFogTranslation fogTiles newTileWidth newTileHeight oldTileWidth
        oldTileHeight leftEdge topEdge := by
  constructor
  · rintro ⟨resized, hresized, htranslates⟩
    rw [maskSetDimensions, hcall] at hresized
    cases hresized
    have hempty := translates_nil_iff.mp htranslates
    exact ⟨hinside, .inl hempty, entriesGo_of_empty hempty⟩
  · intro hmeets
    exact ⟨[], hcall, translates_nil_iff.mpr (hmeets.kept.resolve_right hnone)⟩

/-- Fog of which entries are kept is right if they go to their places. -/
theorem resizesFog_kept_iff (harea : fogTiles.length = oldTileWidth.toNat * oldTileHeight.toNat)
    {resized : List UInt8}
    (hcall : resizeTiles fogTiles newTileWidth newTileHeight oldTileWidth
      oldTileHeight leftEdge topEdge = .ok resized)
    (hkept : TilesKept newTileWidth newTileHeight oldTileWidth oldTileHeight leftEdge topEdge)
    (hinside : CopyInside newTileWidth newTileHeight oldTileWidth oldTileHeight leftEdge topEdge) :
    ResizesTiles maskSetDimensions fogTiles newTileWidth newTileHeight
        oldTileWidth oldTileHeight leftEdge topEdge ↔
      MeetsFogTranslation fogTiles newTileWidth newTileHeight oldTileWidth
        oldTileHeight leftEdge topEdge := by
  have htranslates := translates_kept_iff harea hkept hinside hcall
  constructor
  · rintro ⟨other, hother, hmoved⟩
    rw [maskSetDimensions, hcall] at hother
    cases hother
    exact ⟨.inr hinside, .inr hkept, htranslates.mp hmoved⟩
  · intro hmeets
    exact ⟨resized, hcall, htranslates.mpr hmeets.goes⟩

end Fog

/-- The fog is translated exactly under the condition. -/
theorem maskSetDimensions_translates_iff {fogTiles : List UInt8}
    {newTileWidth newTileHeight oldTileWidth oldTileHeight : UInt16}
    (harea : fogTiles.length = oldTileWidth.toNat * oldTileHeight.toNat)
    (leftEdge topEdge : ℤ) :
    ResizesTiles maskSetDimensions fogTiles newTileWidth newTileHeight
        oldTileWidth oldTileHeight leftEdge topEdge ↔
      MeetsFogTranslation fogTiles newTileWidth newTileHeight oldTileWidth
        oldTileHeight leftEdge topEdge := by
  by_cases hempty : oldTileWidth.toNat * oldTileHeight.toNat = 0
  · have hnil : fogTiles = [] := List.length_eq_zero_iff.mp (harea.trans hempty)
    refine resizesFog_cleared_iff ?_ (not_tilesKept_of_empty (.inr hempty)) (.inl hempty)
    rw [hnil]
    exact resizeTiles_nil hempty
  have hpos := Nat.pos_of_ne_zero hempty
  have hwidth := Nat.pos_of_mul_pos_right hpos
  have hheight := Nat.pos_of_mul_pos_left hpos
  have hreturns := resizeTiles_ok_iff hwidth hheight harea newTileWidth
    newTileHeight leftEdge topEdge
  by_cases hinside : CopyInside newTileWidth newTileHeight oldTileWidth
      oldTileHeight leftEdge topEdge
  · by_cases hkept : TilesKept newTileWidth newTileHeight oldTileWidth
        oldTileHeight leftEdge topEdge
    · obtain ⟨resized, hresized⟩ := hreturns.mpr hinside
      exact resizesFog_kept_iff harea hresized hkept hinside
    · exact resizesFog_cleared_iff (resizeTiles_cleared hwidth hheight harea hinside hkept) hkept
        (.inr hinside)
  · apply iff_of_false
    · rintro ⟨resized, hresized, -⟩
      exact hinside (hreturns.mp ⟨resized, hresized⟩)
    · intro hmeets
      exact hinside (hmeets.inside.resolve_left hempty)

/-- A map whose right column is 0 gets another column on the right. -/
theorem maskSetDimensions_translates_wider : MeetsFogTranslation [1, 0, 3, 0] 3 2 2 2 0 0 ∧
      ResizesTiles maskSetDimensions [1, 0, 3, 0] 3 2 2 2 0 0 := by
  have hmeets : MeetsFogTranslation [1, 0, 3, 0] 3 2 2 2 0 0 := by
    refine ⟨by decide, .inr ⟨by decide, by decide, by decide⟩, ?_⟩
    unfold EntriesGo
    decide
  exact ⟨hmeets, (maskSetDimensions_translates_iff rfl 0 0).mpr hmeets⟩

/-- The column that a row gets on the right stands behind its first entry. -/
theorem maskSetDimensions_inserts_early : ¬ ResizesTiles maskSetDimensions [1, 2] 3 1 2 1 0 0 := by
  rintro ⟨resized, hresized, htranslates⟩
  have hearly : maskSetDimensions [1, 2] 3 1 2 1 0 0 = .ok [1, 0, 2] := rfl
  rw [hearly] at hresized
  cases hresized
  exact absurd (htranslates.tile_eq 1 (by decide) 0 (by decide)) (by decide)

end Chkdraft.Sections
