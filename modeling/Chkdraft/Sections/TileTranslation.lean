import Chkdraft.Core.OrderedStep
import Chkdraft.Sections.TileResize

/-!
# Resized tiles as translated tiles

The tiles of a resized map are those of the old map moved by the edges, and 0
where the old map has none.  The sections keep the tiles they had, so this is
the case only for tiles that the translation takes to their own place.
-/

namespace Chkdraft.Sections

/-- A call of `setMtxmOrTileDimensions` with the tiles of a section, which it
copies. -/
def setCopiedDimensions (tiles : List UInt16) (newTileWidth newTileHeight
    oldTileWidth oldTileHeight : UInt16) (leftEdge topEdge : ℤ) :
    Except (Fault LengthError) (List UInt16) := do
  let _ ← setMtxmOrTileDimensions tiles newTileWidth newTileHeight
    oldTileWidth oldTileHeight leftEdge topEdge
  pure tiles

/-- `MtxmSection::setDimensions`. -/
def mtxmSetDimensions (tiles : List UInt16) (newTileWidth newTileHeight
    oldTileWidth oldTileHeight : UInt16) (leftEdge topEdge : ℤ) :
    Except (Fault LengthError) (List UInt16) :=
  setCopiedDimensions tiles newTileWidth newTileHeight oldTileWidth oldTileHeight leftEdge topEdge

/-- `TileSection::setDimensions`. -/
def tileSetDimensions (tiles : List UInt16) (newTileWidth newTileHeight
    oldTileWidth oldTileHeight : UInt16) (leftEdge topEdge : ℤ) :
    Except (Fault LengthError) (List UInt16) :=
  setCopiedDimensions tiles newTileWidth newTileHeight oldTileWidth oldTileHeight leftEdge topEdge

/-- The position lies in a map of this size. -/
def InsideMap (width height : ℕ) (x y : ℤ) : Prop := 0 ≤ x ∧ x < width ∧ 0 ≤ y ∧ y < height

instance (width height : ℕ) (x y : ℤ) : Decidable (InsideMap width height x y) :=
  inferInstanceAs (Decidable (_ ∧ _))

/-- The entry at a position of a map, and 0 outside. -/
def tileAt {A : Type} [Zero A] (tiles : List A) (width height : ℕ) (x y : ℤ) : A :=
  if InsideMap width height x y then tiles.getD (y * width + x).toNat 0 else 0

/-- Every entry of the new map is the one moved to its position. -/
structure Translates {A : Type} [Zero A] (tiles resized : List A)
    (newWidth newHeight oldWidth oldHeight : ℕ) (leftEdge topEdge : ℤ) :
    Prop where
  length_eq : resized.length = newWidth * newHeight
  tile_eq : ∀ x < newWidth, ∀ y < newHeight, resized[y * newWidth + x]? =
      some (tileAt tiles oldWidth oldHeight (x + leftEdge) (y + topEdge))

/-- A call that returns has translated the tiles. -/
def ResizesTiles {A : Type} [Zero A] (setDimensions : List A → UInt16 →
      UInt16 → UInt16 → UInt16 → ℤ → ℤ → Except (Fault LengthError) (List A))
    (tiles : List A) (newTileWidth newTileHeight oldTileWidth
      oldTileHeight : UInt16) (leftEdge topEdge : ℤ) : Prop :=
  ∃ resized, setDimensions tiles newTileWidth newTileHeight oldTileWidth
      oldTileHeight leftEdge topEdge = .ok resized ∧
    Translates tiles resized newTileWidth.toNat newTileHeight.toNat
      oldTileWidth.toNat oldTileHeight.toNat leftEdge topEdge

/-- The tile moved to a position was at the same index before. -/
def StaysAt (newWidth oldWidth oldHeight : ℕ) (leftEdge topEdge : ℤ) (x y : ℕ) : Prop :=
  InsideMap oldWidth oldHeight (x + leftEdge) (y + topEdge) ∧
    (y + topEdge) * oldWidth + (x + leftEdge) = y * newWidth + x

instance (newWidth oldWidth oldHeight : ℕ) (leftEdge topEdge : ℤ) (x y : ℕ) :
    Decidable (StaysAt newWidth oldWidth oldHeight leftEdge topEdge x y) :=
  inferInstanceAs (Decidable (_ ∧ _))

/-- The map keeps its number of tiles, the copy is resized inside its bounds, and
every tile but 0 stays at its index. -/
structure MeetsTranslation (tiles : List UInt16) (newTileWidth newTileHeight
    oldTileWidth oldTileHeight : UInt16) (leftEdge topEdge : ℤ) : Prop where
  area : newTileWidth.toNat * newTileHeight.toNat = oldTileWidth.toNat * oldTileHeight.toNat
  inside : oldTileWidth.toNat * oldTileHeight.toNat = 0 ∨
    CopyInside newTileWidth newTileHeight oldTileWidth oldTileHeight leftEdge topEdge
  stays : ∀ x < newTileWidth.toNat, ∀ y < newTileHeight.toNat,
    tiles.getD (y * newTileWidth.toNat + x) 0 ≠ 0 →
      StaysAt newTileWidth.toNat oldTileWidth.toNat oldTileHeight.toNat leftEdge topEdge x y

/-- The old index of the tile moved to an index. -/
def sourceIndex (newWidth oldWidth oldHeight : ℕ) (leftEdge topEdge : ℤ) (index : ℕ) : Option ℕ :=
  let x : ℤ := (index % newWidth : ℕ) + leftEdge
  let y : ℤ := (index / newWidth : ℕ) + topEdge
  if InsideMap oldWidth oldHeight x y then some (y * oldWidth + x).toNat
  else none

section Source

variable {newWidth oldWidth oldHeight : ℕ} {leftEdge topEdge : ℤ}

theorem sourceIndex_eq_some_iff {index target : ℕ} :
    sourceIndex newWidth oldWidth oldHeight leftEdge topEdge index = some target ↔
      InsideMap oldWidth oldHeight ((index % newWidth : ℕ) + leftEdge)
          ((index / newWidth : ℕ) + topEdge) ∧
        (target : ℤ) = ((index / newWidth : ℕ) + topEdge) * oldWidth +
          ((index % newWidth : ℕ) + leftEdge) := by
  rw [sourceIndex]
  split
  · rename_i hinside
    have hnonneg : 0 ≤ ((index / newWidth : ℕ) + topEdge) * oldWidth +
        ((index % newWidth : ℕ) + leftEdge) :=
      add_nonneg (mul_nonneg hinside.2.2.1 (Int.natCast_nonneg _)) hinside.1
    rw [Option.some.injEq, and_iff_right hinside]
    omega
  · rename_i houtside
    exact iff_of_false nofun fun h => houtside h.1

theorem orderedStep_sourceIndex : OrderedStep (oldWidth * oldHeight)
      (sourceIndex newWidth oldWidth oldHeight leftEdge topEdge) := by
  constructor
  · intro index target hsource
    rw [sourceIndex_eq_some_iff] at hsource
    obtain ⟨⟨-, hx, hy, hheight⟩, htarget⟩ := hsource
    have hrows : ((index / newWidth : ℕ) + topEdge + 1) * oldWidth ≤ (oldHeight : ℤ) * oldWidth :=
      mul_le_mul_of_nonneg_right (by omega) (Int.natCast_nonneg _)
    have hlt : (target : ℤ) < oldHeight * oldWidth := by
      rw [add_mul, one_mul] at hrows
      omega
    rw [Nat.mul_comm]
    exact_mod_cast hlt
  · intro index other target otherTarget hlt hsource hother
    rw [sourceIndex_eq_some_iff] at hsource hother
    obtain ⟨⟨hx, hxlt, -, -⟩, htarget⟩ := hsource
    obtain ⟨⟨hotherX, -, -, -⟩, hotherTarget⟩ := hother
    have hrows := Nat.div_le_div_right (c := newWidth) hlt.le
    rcases Nat.lt_or_eq_of_le hrows with hrow | hrow
    · have hnext : ((index / newWidth : ℕ) + topEdge + 1) * oldWidth ≤
          ((other / newWidth : ℕ) + topEdge) * (oldWidth : ℤ) :=
        mul_le_mul_of_nonneg_right (by omega) (Int.natCast_nonneg _)
      rw [add_mul, one_mul] at hnext
      omega
    · have hindex := Nat.div_add_mod index newWidth
      have hotherIndex := Nat.div_add_mod other newWidth
      rw [← hrow] at hotherIndex hotherTarget
      omega

theorem staysAt_iff_sourceIndex {x : ℕ} (hx : x < newWidth) (y : ℕ) :
    StaysAt newWidth oldWidth oldHeight leftEdge topEdge x y ↔
      sourceIndex newWidth oldWidth oldHeight leftEdge topEdge
        (y * newWidth + x) = some (y * newWidth + x) := by
  rw [sourceIndex_eq_some_iff, StaysAt, grid_index_mod hx, grid_index_div hx]
  push_cast
  exact and_congr_right fun _ => eq_comm

theorem tileAt_eq_elim {A : Type} [Zero A] {x : ℕ} (hx : x < newWidth) (y : ℕ) (tiles : List A) :
    tileAt tiles oldWidth oldHeight (x + leftEdge) (y + topEdge) =
      (sourceIndex newWidth oldWidth oldHeight leftEdge topEdge
        (y * newWidth + x)).elim 0 fun index => tiles.getD index 0 := by
  rw [tileAt, sourceIndex, grid_index_mod hx, grid_index_div hx]
  split
  · rfl
  · rfl

theorem forall_positions_iff {newHeight : ℕ} {P : ℕ → Prop} :
    (∀ x < newWidth, ∀ y < newHeight, P (y * newWidth + x)) ↔
      ∀ index < newWidth * newHeight, P index := by
  constructor
  · intro hall index hlt
    obtain ⟨hcolumn, hrow⟩ := grid_mod_div_lt hlt
    rw [← Nat.div_add_mod' index newWidth]
    exact hall _ hcolumn _ hrow
  · intro hall x hx y hy
    exact hall _ (grid_index_lt hx hy)

end Source

/-- The tiles are their own translation exactly if all but 0 stay. -/
theorem translates_self_iff {tiles : List UInt16} {newWidth newHeight oldWidth
      oldHeight : ℕ} {leftEdge topEdge : ℤ}
    (harea : tiles.length = oldWidth * oldHeight) :
    Translates tiles tiles newWidth newHeight oldWidth oldHeight leftEdge topEdge ↔
      newWidth * newHeight = oldWidth * oldHeight ∧ ∀ x < newWidth, ∀ y < newHeight,
          tiles.getD (y * newWidth + x) 0 ≠ 0 →
            StaysAt newWidth oldWidth oldHeight leftEdge topEdge x y := by
  have hstays : (∀ x < newWidth, ∀ y < newHeight, tiles.getD (y * newWidth + x) 0 ≠ 0 →
        StaysAt newWidth oldWidth oldHeight leftEdge topEdge x y) ↔
      ∀ index < newWidth * newHeight, tiles.getD index 0 ≠ 0 →
        sourceIndex newWidth oldWidth oldHeight leftEdge topEdge index = some index := by
    rw [← forall_positions_iff]
    refine forall₂_congr fun x hx => forall₂_congr fun y hy => ?_
    rw [staysAt_iff_sourceIndex hx]
  rw [hstays]
  constructor
  · rintro ⟨hlength, htile⟩
    have hsame : newWidth * newHeight = oldWidth * oldHeight := by
      rw [← hlength, harea]
    refine ⟨hsame, ?_⟩
    rw [hsame, ← orderedStep_sourceIndex.follows_iff, OrderedStep.Follows,
      ← hsame, ← forall_positions_iff]
    intro x hx y hy
    rw [← tileAt_eq_elim hx, List.getD_eq_getElem?_getD, htile x hx y hy, Option.getD_some]
  · rintro ⟨hsame, hindex⟩
    rw [hsame, ← orderedStep_sourceIndex.follows_iff, OrderedStep.Follows,
      ← hsame, ← forall_positions_iff] at hindex
    refine ⟨harea.trans hsame.symm, fun x hx y hy => ?_⟩
    have hlt : y * newWidth + x < tiles.length := by
      rw [harea, ← hsame]
      exact (forall_positions_iff (P := fun index => index < _)).mpr (fun _ h => h) x hx y hy
    rw [tileAt_eq_elim hx, ← hindex x hx y hy, List.getD_eq_getElem?_getD,
      List.getElem?_eq_getElem hlt, Option.getD_some]

theorem resizeTiles_nil {A : Type} [Zero A] {newTileWidth newTileHeight
      oldTileWidth oldTileHeight : UInt16} {leftEdge topEdge : ℤ}
    (hempty : oldTileWidth.toNat * oldTileHeight.toNat = 0) :
    resizeTiles ([] : List A) newTileWidth newTileHeight oldTileWidth
      oldTileHeight leftEdge topEdge = .ok [] := by
  have hshown : ¬ TileCopy.Shown (⟨[], oldTileWidth.toNat, oldTileHeight.toNat⟩ : TileCopy A) := by
    rw [TileCopy.Shown]
    rcases Nat.mul_eq_zero.mp hempty with hzero | hzero
    · simp [hzero]
    · simp [hzero]
  have hzero : (oldTileWidth.toNat : ℤ) = 0 ∨ (oldTileHeight.toNat : ℤ) = 0 := by
    simpa using Nat.mul_eq_zero.mp hempty
  have hrows : TileCopy.removeRows (A := A)
      ⟨[], oldTileWidth.toNat, oldTileHeight.toNat⟩ newTileHeight.toNat
        oldTileHeight.toNat topEdge = ⟨[], oldTileWidth.toNat, oldTileHeight.toNat⟩ := by
    simp only [TileCopy.removeRows, hshown, and_false, if_false]
  have hcolumns : TileCopy.removeColumns (A := A)
      ⟨[], oldTileWidth.toNat, oldTileHeight.toNat⟩ newTileWidth.toNat oldTileWidth.toNat leftEdge =
          .ok ⟨[], oldTileWidth.toNat, oldTileHeight.toNat⟩ := by
    rw [TileCopy.removeColumns, TileCopy.applyIf, if_neg fun h => hshown h.2]
    exact if_neg fun h => hshown h.2
  simp only [resizeTiles, hrows, hcolumns]
  exact if_pos hzero

/-- A section is resized as its size asks exactly under the condition. -/
theorem setCopiedDimensions_translates_iff {tiles : List UInt16}
    {newTileWidth newTileHeight oldTileWidth oldTileHeight : UInt16}
    (harea : tiles.length = oldTileWidth.toNat * oldTileHeight.toNat)
    (leftEdge topEdge : ℤ) :
    ResizesTiles setCopiedDimensions tiles newTileWidth newTileHeight
        oldTileWidth oldTileHeight leftEdge topEdge ↔
      MeetsTranslation tiles newTileWidth newTileHeight oldTileWidth
        oldTileHeight leftEdge topEdge := by
  have hkeeps : ResizesTiles setCopiedDimensions tiles newTileWidth
        newTileHeight oldTileWidth oldTileHeight leftEdge topEdge ↔
      (∃ resized, setMtxmOrTileDimensions tiles newTileWidth newTileHeight
        oldTileWidth oldTileHeight leftEdge topEdge = .ok resized) ∧
      Translates tiles tiles newTileWidth.toNat newTileHeight.toNat
        oldTileWidth.toNat oldTileHeight.toNat leftEdge topEdge := by
    simp only [ResizesTiles, setCopiedDimensions, Fault.bind_eq_ok_iff]
    constructor
    · rintro ⟨resized, ⟨copy, hcopy, ⟨⟩⟩, htranslates⟩
      exact ⟨⟨copy, hcopy⟩, htranslates⟩
    · rintro ⟨⟨copy, hcopy⟩, htranslates⟩
      exact ⟨tiles, ⟨copy, hcopy, rfl⟩, htranslates⟩
  have hreturns : newTileWidth.toNat * newTileHeight.toNat =
        oldTileWidth.toNat * oldTileHeight.toNat →
      ((∃ resized, setMtxmOrTileDimensions tiles newTileWidth newTileHeight
        oldTileWidth oldTileHeight leftEdge topEdge = .ok resized) ↔
      (oldTileWidth.toNat * oldTileHeight.toNat = 0 ∨
        CopyInside newTileWidth newTileHeight oldTileWidth oldTileHeight leftEdge topEdge)) := by
    intro hsame
    by_cases hempty : oldTileWidth.toNat * oldTileHeight.toNat = 0
    · have hnil : tiles = [] := List.length_eq_zero_iff.mp (harea.trans hempty)
      rw [hnil, setMtxmOrTileDimensions, resizeTiles_nil hempty]
      exact iff_of_true ⟨[], rfl⟩ (.inl hempty)
    · rw [or_iff_right hempty]
      have hold := Nat.pos_of_ne_zero hempty
      exact setMtxmOrTileDimensions_ok_iff (Nat.pos_of_mul_pos_right hold)
        (Nat.pos_of_mul_pos_left hold) harea newTileWidth newTileHeight
        leftEdge topEdge
  rw [hkeeps, translates_self_iff harea]
  constructor
  · rintro ⟨hok, hsame, hstays⟩
    exact ⟨hsame, (hreturns hsame).mp hok, hstays⟩
  · rintro ⟨hsame, hinside, hstays⟩
    exact ⟨(hreturns hsame).mpr hinside, hsame, hstays⟩

/-- MTXM and TILE are resized as their size asks exactly under the condition. -/
theorem setDimensions_translates_iff {tiles : List UInt16}
    {newTileWidth newTileHeight oldTileWidth oldTileHeight : UInt16}
    (harea : tiles.length = oldTileWidth.toNat * oldTileHeight.toNat)
    (leftEdge topEdge : ℤ) :
    (ResizesTiles mtxmSetDimensions tiles newTileWidth newTileHeight
        oldTileWidth oldTileHeight leftEdge topEdge ↔
      MeetsTranslation tiles newTileWidth newTileHeight oldTileWidth
        oldTileHeight leftEdge topEdge) ∧
    (ResizesTiles tileSetDimensions tiles newTileWidth newTileHeight
        oldTileWidth oldTileHeight leftEdge topEdge ↔
      MeetsTranslation tiles newTileWidth newTileHeight oldTileWidth
        oldTileHeight leftEdge topEdge) := by
  have hcopied := @setCopiedDimensions_translates_iff tiles newTileWidth
    newTileHeight oldTileWidth oldTileHeight harea leftEdge topEdge
  exact ⟨hcopied, hcopied⟩

/-- A map that keeps its size and its edges. -/
theorem setDimensions_translates_same : MeetsTranslation [1, 2, 3, 4] 2 2 2 2 0 0 ∧
      ResizesTiles mtxmSetDimensions [1, 2, 3, 4] 2 2 2 2 0 0 ∧
      ResizesTiles tileSetDimensions [1, 2, 3, 4] 2 2 2 2 0 0 := by
  have hmeets : MeetsTranslation [1, 2, 3, 4] 2 2 2 2 0 0 := ⟨by decide, by decide, by decide⟩
  obtain ⟨hmtxm, htile⟩ := @setDimensions_translates_iff [1, 2, 3, 4] 2 2 2 2
    rfl 0 0
  exact ⟨hmeets, hmtxm.mpr hmeets, htile.mpr hmeets⟩

/-- A map of one tile that should get a second one keeps one. -/
theorem setDimensions_adds_nothing : ¬ ResizesTiles mtxmSetDimensions [1] 2 1 1 1 0 0 := by
  rintro ⟨resized, hresized, htranslates⟩
  have hkept : mtxmSetDimensions [1] 2 1 1 1 0 0 = .ok [1] := rfl
  rw [hkept] at hresized
  cases hresized
  exact absurd htranslates.length_eq (by decide)

end Chkdraft.Sections
