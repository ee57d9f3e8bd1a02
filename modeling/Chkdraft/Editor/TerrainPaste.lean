import Chkdraft.Editor.TerrainRestore
import Chkdraft.Editor.TileSelection

/-!
# Copying and pasting terrain

A copy holds the selected tiles in pixels around their middle, and a paste
divides by the size of a tile to find where they land.  The division rounds
towards 0, so tiles over the left or the top border land one tile further right
or below than the others.
-/

namespace Chkdraft.Editor

open Chk Scenario Undo

variable {state : Layers × List TileChange}

/-- The outermost pixels of the selected tiles. -/
structure TileEdges where
  left : ℤ
  top : ℤ
  right : ℤ
  bottom : ℤ

namespace TileEdges

def ofTile (tile : PasteTileNode) : TileEdges := ⟨tile.xc, tile.yc, tile.xc + 32, tile.yc + 32⟩

def record (edges : TileEdges) (tile : PasteTileNode) : TileEdges where
  left := if tile.xc < edges.left then tile.xc else edges.left
  top := if tile.yc < edges.top then tile.yc else edges.top
  right :=
    if tile.xc < edges.left then edges.right
    else if edges.right < tile.xc + 32 then tile.xc + 32
    else edges.right
  bottom :=
    if tile.yc < edges.top then edges.bottom
    else if edges.bottom < tile.yc + 32 then tile.yc + 32
    else edges.bottom

def middle (edges : TileEdges) : ℤ × ℤ :=
  (edges.left + (edges.right - edges.left).tdiv 2, edges.top + (edges.bottom - edges.top).tdiv 2)

end TileEdges

def TileNode.toPaste (selTile : TileNode) : PasteTileNode :=
  ⟨selTile.value, selTile.xc.toNat * 32, selTile.yc.toNat * 32⟩

/-- The position of a tile relative to the cursor. -/
def PasteTileNode.relativeTo (middle : ℤ × ℤ) (tile : PasteTileNode) : PasteTileNode :=
  { tile with xc := tile.xc - middle.1, yc := tile.yc - middle.2 }

def selectionMiddle (selTiles : List TileNode) : ℤ × ℤ :=
  match selTiles with
  | [] => (0, 0)
  | firstTile :: _ =>
      ((selTiles.map TileNode.toPaste).foldl TileEdges.record
        (TileEdges.ofTile firstTile.toPaste)).middle

/-- `Clipboard::copy` in the terrain layer. -/
def Clipboard.copy (clipboard : Clipboard) (selTiles : List TileNode) : Clipboard :=
  { clipboard with
    tiles := (selTiles.map TileNode.toPaste).map
      (PasteTileNode.relativeTo (selectionMiddle selTiles)) }

def copyLanding (middle : ℤ × ℤ) (mapClickX mapClickY : ℤ) (selTile : TileNode) : ℤ × ℤ :=
  landing mapClickX mapClickY (selTile.toPaste.relativeTo middle)

def copyPixel (middle : ℤ × ℤ) (mapClickX mapClickY : ℤ) (selTile : TileNode) : ℤ × ℤ :=
  (selTile.place.1 * 32 + (mapClickX + 16 - middle.1),
    selTile.place.2 * 32 + (mapClickY + 16 - middle.2))

theorem copyLanding_eq (middle : ℤ × ℤ) (mapClickX mapClickY : ℤ) (selTile : TileNode) :
    copyLanding middle mapClickX mapClickY selTile =
      ((copyPixel middle mapClickX mapClickY selTile).1.tdiv 32,
        (copyPixel middle mapClickX mapClickY selTile).2.tdiv 32) := by
  have hpixel (position click center : ℤ) :
      position - center + (click + 16) = position + (click + 16 - center) := by
    ring
  simp only [copyLanding, landing, PasteTileNode.relativeTo, TileNode.toPaste,
    hpixel, copyPixel, TileNode.place, placeOf]

section Rounding

/-- How far a coordinate is moved by a paste on either side of the border. -/
def shift (base : ℤ) (negative : Prop) [Decidable negative] : ℤ :=
  base / 32 + if negative then 1 else 0

variable {coordinate base : ℤ}

theorem tdiv_of_nonneg (hpos : 0 ≤ coordinate * 32 + base) :
    (coordinate * 32 + base).tdiv 32 = coordinate + base / 32 := by
  rw [Int.tdiv_eq_ediv_of_nonneg hpos]
  omega

theorem tdiv_of_neg (hneg : coordinate * 32 + base < 0) (hround : base % 32 ≠ 0) :
    (coordinate * 32 + base).tdiv 32 = coordinate + base / 32 + 1 := by
  have hdvd : ¬ (32 : ℤ) ∣ coordinate * 32 + base := by omega
  rw [Int.tdiv_eq_ediv, if_neg (by omega), show Int.sign 32 = 1 from rfl]
  omega

/-- What lands from the other side of the border is rounded. -/
theorem rounds_of_neg (hneg : coordinate * 32 + base < 0)
    (hland : 0 ≤ (coordinate * 32 + base).tdiv 32) :
    base % 32 ≠ 0 := by
  intro hround
  have hdvd : (32 : ℤ) ∣ coordinate * 32 + base := by omega
  rw [Int.tdiv_eq_ediv_of_dvd hdvd] at hland
  omega

theorem tdiv_eq_shift {negative : Prop} [Decidable negative]
    (hland : 0 ≤ (coordinate * 32 + base).tdiv 32)
    (hside : coordinate * 32 + base < 0 ↔ negative) :
    (coordinate * 32 + base).tdiv 32 = coordinate + shift base negative := by
  by_cases hneg : coordinate * 32 + base < 0
  · rw [tdiv_of_neg hneg (rounds_of_neg hneg hland), shift, if_pos (hside.mp hneg), Int.add_assoc]
  · rw [tdiv_of_nonneg (by omega), shift, if_neg fun h => hneg (hside.mpr h), Int.add_zero]

theorem lands_of_shift {negative : Prop} [Decidable negative] {size : ℕ}
    (hround : negative → base % 32 ≠ 0)
    (hpos : 0 ≤ coordinate + shift base negative)
    (hlt : coordinate + shift base negative < size) :
    0 ≤ (coordinate * 32 + base).tdiv 32 ∧ (coordinate * 32 + base).tdiv 32 < size := by
  rw [shift] at hpos hlt
  by_cases hneg : coordinate * 32 + base < 0
  · by_cases hnegative : negative
    · rw [if_pos hnegative] at hpos hlt
      rw [tdiv_of_neg hneg (hround hnegative)]
      omega
    · rw [if_neg hnegative] at hpos
      omega
  · rw [tdiv_of_nonneg (by omega)]
    split at hpos
    · rename_i hnegative
      rw [if_pos hnegative] at hlt
      have hround := hround hnegative
      omega
    · rename_i hnegative
      rw [if_neg hnegative] at hlt
      omega

theorem same_side_of_offset {other offset : ℤ} (hland : 0 ≤ (coordinate * 32 + base).tdiv 32)
    (hoffset : (coordinate * 32 + base).tdiv 32 = coordinate + offset)
    (hother : 0 ≤ (other * 32 + base).tdiv 32)
    (hotherOffset : (other * 32 + base).tdiv 32 = other + offset) :
    coordinate * 32 + base < 0 ↔ other * 32 + base < 0 := by
  rw [tdiv_eq_shift hland Iff.rfl, shift] at hoffset
  rw [tdiv_eq_shift hother Iff.rfl, shift] at hotherOffset
  by_cases hneg : coordinate * 32 + base < 0
  · rw [if_pos hneg] at hoffset
    refine iff_of_true hneg ?_
    by_contra hpos
    rw [if_neg hpos] at hotherOffset
    omega
  · rw [if_neg hneg] at hoffset
    refine iff_of_false hneg fun hotherNeg => ?_
    rw [if_pos hotherNeg] at hotherOffset
    omega

end Rounding

def OnMapAt (layers : Layers) (point : ℤ × ℤ) : Prop := OnMap layers point.1 point.2

instance (layers : Layers) (point : ℤ × ℤ) : Decidable (OnMapAt layers point) :=
  inferInstanceAs (Decidable (OnMap layers point.1 point.2))

/-- Selected tiles land on the map where one offset moves them. -/
def MovedBy (layers : Layers) (landings : TileNode → ℤ × ℤ)
    (selTiles : List TileNode) (offset : ℤ × ℤ) : Prop :=
  ∀ selTile ∈ selTiles, ∀ point, OnMapAt layers point →
    (landings selTile = point ↔ selTile.place + offset = point)

/-- The tiles that land on the map are on one side of its left border, and on
one side of its top border. -/
def SameSides (layers : Layers) (middle : ℤ × ℤ) (mapClickX mapClickY : ℤ)
    (selTiles : List TileNode) : Prop :=
  ∀ selTile ∈ selTiles, ∀ other ∈ selTiles,
    OnMapAt layers (copyLanding middle mapClickX mapClickY selTile) →
    OnMapAt layers (copyLanding middle mapClickX mapClickY other) →
    ((copyPixel middle mapClickX mapClickY selTile).1 < 0 ↔
        (copyPixel middle mapClickX mapClickY other).1 < 0) ∧
      ((copyPixel middle mapClickX mapClickY selTile).2 < 0 ↔
        (copyPixel middle mapClickX mapClickY other).2 < 0)

section Landings

variable {layers : Layers} {middle : ℤ × ℤ} {mapClickX mapClickY : ℤ}
  {selTiles : List TileNode} {offset : ℤ × ℤ}

section

variable (hmoved : MovedBy layers (copyLanding middle mapClickX mapClickY) selTiles offset)

include hmoved

theorem MovedBy.landing_eq {selTile : TileNode} (hmem : selTile ∈ selTiles)
    (hon : OnMapAt layers (copyLanding middle mapClickX mapClickY selTile)) :
    copyLanding middle mapClickX mapClickY selTile = selTile.place + offset :=
  ((hmoved selTile hmem _ hon).mp rfl).symm

theorem sameSides_of_movedBy : SameSides layers middle mapClickX mapClickY selTiles := by
  intro selTile hmem other hother hon honOther
  have hoffset := hmoved.landing_eq hmem hon
  have hotherOffset := hmoved.landing_eq hother honOther
  rw [copyLanding_eq, Prod.ext_iff] at hoffset hotherOffset
  rw [copyLanding_eq] at hon honOther
  exact ⟨same_side_of_offset hon.1.1 hoffset.1 honOther.1.1 hotherOffset.1,
    same_side_of_offset hon.2.1 hoffset.2 honOther.2.1 hotherOffset.2⟩

end

theorem movedBy_of_sameSides (hsides : SameSides layers middle mapClickX mapClickY selTiles)
    {first : TileNode} (hfirst : first ∈ selTiles)
    (hon : OnMapAt layers (copyLanding middle mapClickX mapClickY first)) :
    MovedBy layers (copyLanding middle mapClickX mapClickY) selTiles
      (shift (mapClickX + 16 - middle.1) ((copyPixel middle mapClickX mapClickY first).1 < 0),
        shift (mapClickY + 16 - middle.2)
          ((copyPixel middle mapClickX mapClickY first).2 < 0)) := by
  have hsame (selTile : TileNode) (hmem : selTile ∈ selTiles)
      (honTile : OnMapAt layers (copyLanding middle mapClickX mapClickY selTile)) :
      copyLanding middle mapClickX mapClickY selTile = selTile.place +
        (shift (mapClickX + 16 - middle.1) ((copyPixel middle mapClickX mapClickY first).1 < 0),
          shift (mapClickY + 16 - middle.2)
            ((copyPixel middle mapClickX mapClickY first).2 < 0)) := by
    obtain ⟨hsideX, hsideY⟩ := hsides selTile hmem first hfirst honTile hon
    rw [copyLanding_eq] at honTile ⊢
    exact Prod.ext (tdiv_eq_shift honTile.1.1 hsideX) (tdiv_eq_shift honTile.2.1 hsideY)
  intro selTile hmem point hpoint
  constructor
  · intro hland
    have honTile : OnMapAt layers (copyLanding middle mapClickX mapClickY selTile) := by
      rw [hland]
      exact hpoint
    rw [← hsame selTile hmem honTile, hland]
  · intro hoffset
    subst hoffset
    apply hsame selTile hmem
    -- It lands on the map, perhaps on a tile next to the one it is moved to.
    obtain ⟨⟨hx, hxLt⟩, hy, hyLt⟩ := hpoint
    rw [copyLanding_eq] at hon ⊢
    exact ⟨lands_of_shift (fun hneg => rounds_of_neg hneg hon.1.1) hx hxLt,
      lands_of_shift (fun hneg => rounds_of_neg hneg hon.2.1) hy hyLt⟩

/-- Nothing lands on the map, and an offset may move everything off it. -/
theorem movedBy_of_off (hoff : ∀ selTile ∈ selTiles,
      ¬ OnMapAt layers (copyLanding middle mapClickX mapClickY selTile)) :
    MovedBy layers (copyLanding middle mapClickX mapClickY) selTiles (-65536, 0) := by
  intro selTile hmem point hpoint
  apply iff_of_false
  · intro hland
    apply hoff selTile hmem
    rw [hland]
    exact hpoint
  · rintro rfl
    have hlt := selTile.xc.toNat_lt
    have hpos := hpoint.1.1
    simp only [TileNode.place, placeOf, Prod.fst_add] at hpos
    omega

/-- One offset moves the tiles exactly if those that land on the map are on the
same sides of its borders. -/
theorem movedBy_iff_sameSides :
    (∃ offset, MovedBy layers (copyLanding middle mapClickX mapClickY) selTiles
      offset) ↔ SameSides layers middle mapClickX mapClickY selTiles := by
  constructor
  · rintro ⟨offset, hmoved⟩
    exact sameSides_of_movedBy hmoved
  · intro hsides
    by_cases hon : ∃ selTile ∈ selTiles,
        OnMapAt layers (copyLanding middle mapClickX mapClickY selTile)
    · obtain ⟨first, hfirst, hon⟩ := hon
      exact ⟨_, movedBy_of_sameSides hsides hfirst hon⟩
    · exact ⟨_, movedBy_of_off fun selTile hmem honTile =>
        hon ⟨selTile, hmem, honTile⟩⟩

end Landings

def placeAt (layers : Layers) (point : ℤ × ℤ) : ℕ := place layers point.1 point.2

def LandsAt (layers : Layers) (mapClickX mapClickY : ℤ) (tile : PasteTileNode) (index : ℕ) : Prop :=
  OnMapAt layers (landing mapClickX mapClickY tile) ∧
    placeAt layers (landing mapClickX mapClickY tile) = index

/-- The place where the tile lands holds its value, or can be written. -/
def Pasteable (layers : Layers) (mapClickX mapClickY : ℤ) (tile : PasteTileNode) : Prop :=
  ∀ index, LandsAt layers mapClickX mapClickY tile index →
    ∃ tileValue, layers.mtxm[index]? = some tileValue ∧
      (tileValue = tile.value ∨ index < layers.tile.length)

/-- The map afterwards has the same size, and the same tiles at other places. -/
structure KeepsTiles (layers after : Layers) (changed : ℕ → Prop) : Prop where
  width : after.tileWidth = layers.tileWidth
  height : after.tileHeight = layers.tileHeight
  tileLength : after.tile.length = layers.tile.length
  mtxm : ∀ index, ¬ changed index → after.mtxm[index]? = layers.mtxm[index]?
  tile : ∀ index, ¬ changed index → after.tile[index]? = layers.tile[index]?

theorem keepsTiles_refl (layers : Layers) (changed : ℕ → Prop) : KeepsTiles layers layers changed :=
  ⟨rfl, rfl, rfl, fun _ _ => rfl, fun _ _ => rfl⟩

theorem keepsTiles_writeTile (layers : Layers) (index : ℕ) (tileValue : UInt16) :
    KeepsTiles layers (writeTile layers index tileValue) (index = ·) where
  width := rfl
  height := rfl
  tileLength := List.length_set
  mtxm _ hother := List.getElem?_set_ne hother
  tile _ hother := List.getElem?_set_ne hother

variable {tile : PasteTileNode}

namespace KeepsTiles

variable {layers middle after : Layers} {changed others : ℕ → Prop}

theorem mono (hkeeps : KeepsTiles layers after changed)
    (hchanged : ∀ index, changed index → others index) :
    KeepsTiles layers after others where
  width := hkeeps.width
  height := hkeeps.height
  tileLength := hkeeps.tileLength
  mtxm index hother := hkeeps.mtxm index (mt (hchanged index) hother)
  tile index hother := hkeeps.tile index (mt (hchanged index) hother)

theorem trans (hfirst : KeepsTiles layers middle changed)
    (hnext : KeepsTiles middle after changed) :
    KeepsTiles layers after changed where
  width := hnext.width.trans hfirst.width
  height := hnext.height.trans hfirst.height
  tileLength := hnext.tileLength.trans hfirst.tileLength
  mtxm index hother := (hnext.mtxm index hother).trans (hfirst.mtxm index hother)
  tile index hother := (hnext.tile index hother).trans (hfirst.tile index hother)

theorem landsAt_iff (hkeeps : KeepsTiles layers after changed)
    {mapClickX mapClickY : ℤ} {index : ℕ} :
    LandsAt after mapClickX mapClickY tile index ↔
      LandsAt layers mapClickX mapClickY tile index := by
  simp only [LandsAt, OnMapAt, OnMap, placeAt, place, tileIndex, hkeeps.width, hkeeps.height]

theorem pasteable_iff (hkeeps : KeepsTiles layers after changed)
    {mapClickX mapClickY : ℤ}
    (helsewhere : ∀ index, LandsAt layers mapClickX mapClickY tile index → ¬ changed index) :
    Pasteable after mapClickX mapClickY tile ↔ Pasteable layers mapClickX mapClickY tile := by
  refine forall_congr' fun index => ?_
  rw [hkeeps.landsAt_iff]
  refine imp_congr_right fun hlands => ?_
  rw [hkeeps.mtxm index (helsewhere index hlands), hkeeps.tileLength]

end KeepsTiles

variable {tiles : List PasteTileNode}

section Paste

variable {mapClickX mapClickY : ℤ}

theorem pasteTile_of_off (hoff : ¬ OnMapAt state.1 (landing mapClickX mapClickY tile)) :
    pasteTile mapClickX mapClickY state tile = .ok state :=
  if_neg hoff

theorem pasteTile_of_on (hon : OnMapAt state.1 (landing mapClickX mapClickY tile)) :
    pasteTile mapClickX mapClickY state tile =
      (getTile state.1 (sizeT (landing mapClickX mapClickY tile).1)
          (sizeT (landing mapClickX mapClickY tile).2) >>= fun tileValue =>
        if tileValue ≠ tile.value then
          changeTile (landing mapClickX mapClickY tile).1
            (landing mapClickX mapClickY tile).2 tile.value state
        else .ok state) :=
  if_pos hon

/-- A tile that is pasted is on the map then, and nothing else is changed. -/
structure PastesTile (layers after : Layers) (mapClickX mapClickY : ℤ)
    (tile : PasteTileNode) : Prop where
  keeps : KeepsTiles layers after (LandsAt layers mapClickX mapClickY tile)
  pasted : ∀ index, LandsAt layers mapClickX mapClickY tile index →
    after.mtxm[index]? = some tile.value

theorem pasteTile_spec_of_pasteable {layers : Layers} (changes : List TileChange)
    (hpasteable : Pasteable layers mapClickX mapClickY tile) :
    ∃ after all, pasteTile mapClickX mapClickY (layers, changes) tile = .ok (after, all) ∧
      PastesTile layers after mapClickX mapClickY tile := by
  by_cases hon : OnMapAt layers (landing mapClickX mapClickY tile)
  · obtain ⟨tileValue, hmtxm, hwritable⟩ := hpasteable _ ⟨hon, rfl⟩
    have hget : getTile layers (sizeT (landing mapClickX mapClickY tile).1)
        (sizeT (landing mapClickX mapClickY tile).2) = .ok tileValue :=
      getTile_eq_ok_iff.mpr hmtxm
    rw [pasteTile_of_on hon, hget]
    by_cases hsame : tileValue = tile.value
    · refine ⟨layers, changes, if_neg (not_not.mpr hsame), keepsTiles_refl _ _, ?_⟩
      rintro index ⟨-, rfl⟩
      rw [hmtxm, hsame]
    · have hlt := hwritable.resolve_left hsame
      have hmtxmLt := (List.getElem?_eq_some_iff.mp hmtxm).1
      have hset : setTile layers (sizeT (landing mapClickX mapClickY tile).1)
          (sizeT (landing mapClickX mapClickY tile).2) tile.value =
          .ok (writeTile layers (placeAt layers (landing mapClickX mapClickY tile)) tile.value) :=
        setTile_eq_ok_iff.mpr ⟨⟨hmtxmLt, hlt⟩, rfl⟩
      have hchange : ∃ all, changeTile (landing mapClickX mapClickY tile).1
          (landing mapClickX mapClickY tile).2 tile.value (layers, changes) =
          .ok (writeTile layers (placeAt layers
            (landing mapClickX mapClickY tile)) tile.value, all) := by
        rw [changeTile, hget]
        change ∃ all, (setTile layers _ _ _ >>= _) = _
        rw [hset]
        exact ⟨_, rfl⟩
      obtain ⟨all, hchange⟩ := hchange
      refine ⟨_, all, ?_, (keepsTiles_writeTile layers _ tile.value).mono
        fun index hindex => ⟨hon, hindex⟩, ?_⟩
      · change (if tileValue ≠ tile.value then _ else _) = _
        rw [if_pos hsame, hchange]
      · rintro index ⟨-, rfl⟩
        exact List.getElem?_set_self hmtxmLt
  · refine ⟨layers, changes, pasteTile_of_off hon, keepsTiles_refl _ _, ?_⟩
    rintro index ⟨honTile, -⟩
    exact absurd honTile hon

theorem pasteable_of_pasteTile {after : Layers × List TileChange}
    (hpaste : pasteTile mapClickX mapClickY state tile = .ok after) :
    Pasteable state.1 mapClickX mapClickY tile := by
  rintro index ⟨hon, rfl⟩
  rw [pasteTile_of_on hon] at hpaste
  obtain ⟨tileValue, hget, hchange⟩ := Fault.bind_eq_ok_iff.mp hpaste
  have hmtxm : state.1.mtxm[placeAt state.1 (landing mapClickX mapClickY tile)]? = some tileValue :=
    getTile_eq_ok_iff.mp hget
  refine ⟨tileValue, hmtxm, or_iff_not_imp_left.mpr fun hother => ?_⟩
  rw [if_pos hother] at hchange
  obtain ⟨replacedValue, -, hchange⟩ := Fault.bind_eq_ok_iff.mp hchange
  obtain ⟨changed, hset, -⟩ := Fault.bind_eq_ok_iff.mp hchange
  exact (setTile_eq_ok_iff.mp hset).1.2

/-- No two of the tiles land on the same place of the map. -/
def LandApart (layers : Layers) (mapClickX mapClickY : ℤ) (tiles : List PasteTileNode) : Prop :=
  tiles.Pairwise fun tile other => ∀ index, LandsAt layers mapClickX mapClickY tile index →
      ¬ LandsAt layers mapClickX mapClickY other index

theorem KeepsTiles.landApart {layers after : Layers} {changed : ℕ → Prop}
    (hkeeps : KeepsTiles layers after changed)
    (hapart : LandApart layers mapClickX mapClickY tiles) :
    LandApart after mapClickX mapClickY tiles := by
  simpa only [LandApart, hkeeps.landsAt_iff] using hapart

/-- Tiles that land apart can be pasted exactly if each of them can. -/
theorem foldlM_pasteTile_returns_iff {layers : Layers}
    (hapart : LandApart layers mapClickX mapClickY tiles)
    (changes : List TileChange) :
    (∃ result, tiles.foldlM (pasteTile mapClickX mapClickY) (layers, changes) = .ok result) ↔
      ∀ tile ∈ tiles, Pasteable layers mapClickX mapClickY tile := by
  induction tiles generalizing layers changes with
  | nil => exact iff_of_true ⟨_, rfl⟩ fun _ h => nomatch h
  | cons tile rest ih =>
      obtain ⟨hfirst, hrest⟩ := List.pairwise_cons.mp hapart
      rw [List.forall_mem_cons]
      constructor
      · rintro ⟨result, hresult⟩
        rw [List.foldlM_cons] at hresult
        obtain ⟨middle, hmiddle, hresult⟩ := Fault.bind_eq_ok_iff.mp hresult
        have hpasteable := pasteable_of_pasteTile hmiddle
        obtain ⟨after, all, hpaste, hpastes⟩ := pasteTile_spec_of_pasteable changes hpasteable
        rw [hpaste] at hmiddle
        cases hmiddle
        refine ⟨hpasteable, fun other hother => ?_⟩
        have hothers := (ih (hpastes.keeps.landApart hrest) _).mp ⟨_, hresult⟩
        exact (hpastes.keeps.pasteable_iff fun index hlands hsame =>
          hfirst other hother index hsame hlands).mp (hothers other hother)
      · rintro ⟨hpasteable, hothers⟩
        obtain ⟨after, all, hpaste, hpastes⟩ := pasteTile_spec_of_pasteable changes hpasteable
        rw [List.foldlM_cons, hpaste]
        apply (ih (hpastes.keeps.landApart hrest) all).mpr
        intro other hother
        exact (hpastes.keeps.pasteable_iff fun index hlands hsame =>
          hfirst other hother index hsame hlands).mpr (hothers other hother)

theorem foldlM_pasteTile_pastes {layers after : Layers}
    {changes all : List TileChange}
    (hapart : LandApart layers mapClickX mapClickY tiles)
    (hpaste : tiles.foldlM (pasteTile mapClickX mapClickY) (layers, changes) = .ok (after, all)) :
    KeepsTiles layers after (fun index => ∃ tile ∈ tiles,
        LandsAt layers mapClickX mapClickY tile index) ∧
      ∀ tile ∈ tiles, ∀ index, LandsAt layers mapClickX mapClickY tile index →
        after.mtxm[index]? = some tile.value := by
  induction tiles generalizing layers changes with
  | nil =>
      cases hpaste
      exact ⟨keepsTiles_refl _ _, fun _ h => nomatch h⟩
  | cons tile rest ih =>
      obtain ⟨hfirst, hrest⟩ := List.pairwise_cons.mp hapart
      rw [List.foldlM_cons] at hpaste
      obtain ⟨middle, hmiddle, hpaste⟩ := Fault.bind_eq_ok_iff.mp hpaste
      obtain ⟨first, firstChanges, htile, hpastes⟩ :=
        pasteTile_spec_of_pasteable changes (pasteable_of_pasteTile hmiddle)
      rw [htile] at hmiddle
      cases hmiddle
      obtain ⟨hkeeps, hothers⟩ := ih (hpastes.keeps.landApart hrest) hpaste
      constructor
      · apply (hpastes.keeps.mono fun index hlands =>
          ⟨tile, List.mem_cons_self, hlands⟩).trans
        apply hkeeps.mono
        rintro index ⟨other, hother, hlands⟩
        exact ⟨other, List.mem_cons_of_mem _ hother, hpastes.keeps.landsAt_iff.mp hlands⟩
      · intro other hother index hlands
        rcases List.mem_cons.mp hother with rfl | hother
        · have huntouched : ¬ ∃ next ∈ rest, LandsAt first mapClickX mapClickY next index := by
            rintro ⟨next, hnext, hsame⟩
            exact hfirst next hnext index hlands (hpastes.keeps.landsAt_iff.mp hsame)
          rw [hkeeps.mtxm index huntouched]
          exact hpastes.pasted index hlands
        · exact hothers other hother index (hpastes.keeps.landsAt_iff.mpr hlands)

end Paste

def copied (selTiles : List TileNode) (selTile : TileNode) : PasteTileNode :=
  selTile.toPaste.relativeTo (selectionMiddle selTiles)

/-- There is one offset by which a paste moves the selected tiles: each tile of
the map is pasted exactly from the selected tile that it is moved from, and
other tiles are kept. -/
def Translates (clipboard : Clipboard) (selTiles : List TileNode)
    (mapClickX mapClickY : ℤ) (layers : Layers) : Prop :=
  ∃ offset : ℤ × ℤ, MovedBy layers
      (copyLanding (selectionMiddle selTiles) mapClickX mapClickY) selTiles
      offset ∧
    ∃ after undos, (clipboard.copy selTiles).pasteTerrain mapClickX mapClickY layers =
        .ok (after, undos) ∧
      (∀ selTile ∈ selTiles, OnMapAt layers (selTile.place + offset) →
        after.mtxm[placeAt layers (selTile.place + offset)]? = some selTile.value) ∧
      KeepsTiles layers after fun index => ∃ selTile ∈ selTiles,
        OnMapAt layers (selTile.place + offset) ∧ placeAt layers (selTile.place + offset) = index

/-- The place where each tile lands holds its value, or can be written by a
paste that is not a repetition. -/
def CanPaste (clipboard : Clipboard) (selTiles : List TileNode)
    (mapClickX mapClickY : ℤ) (layers : Layers) : Prop :=
  ∀ selTile ∈ selTiles, ∀ index,
    LandsAt layers mapClickX mapClickY (copied selTiles selTile) index →
    ∃ tileValue, layers.mtxm[index]? = some tileValue ∧ (tileValue = selTile.value ∨
        Clipboard.pasteCell mapClickX mapClickY ≠ clipboard.prevPaste ∧ index < layers.tile.length)

section Translation

variable {clipboard : Clipboard} {selTiles : List TileNode}
  {mapClickX mapClickY : ℤ} {layers : Layers} {offset : ℤ × ℤ}

theorem tiles_copy (clipboard : Clipboard) (selTiles : List TileNode) :
    (clipboard.copy selTiles).tiles = selTiles.map (copied selTiles) := by
  rw [Clipboard.copy, List.map_map]
  rfl

section

variable (hmoved : MovedBy layers
      (copyLanding (selectionMiddle selTiles) mapClickX mapClickY) selTiles
      offset)

include hmoved

theorem MovedBy.landsAt_iff {selTile : TileNode} (hmem : selTile ∈ selTiles) {index : ℕ} :
    LandsAt layers mapClickX mapClickY (copied selTiles selTile) index ↔
      OnMapAt layers (selTile.place + offset) ∧
        placeAt layers (selTile.place + offset) = index := by
  constructor
  · rintro ⟨hon, hplace⟩
    rw [(hmoved selTile hmem _ hon).mp rfl]
    exact ⟨hon, hplace⟩
  · rintro ⟨hon, hplace⟩
    have hland := (hmoved selTile hmem _ hon).mpr rfl
    rw [← hland] at hon hplace
    exact ⟨hon, hplace⟩

/-- Distinct tiles that are moved by one offset land apart. -/
theorem MovedBy.landApart (hdistinct : (selTiles.map TileNode.place).Nodup) :
    LandApart layers mapClickX mapClickY (selTiles.map (copied selTiles)) := by
  rw [LandApart, List.pairwise_map]
  refine (List.pairwise_map.mp hdistinct).imp_of_mem
    fun hmem hother hne index hlands hotherLands => ?_
  obtain ⟨hon, hplace⟩ := (hmoved.landsAt_iff hmem).mp hlands
  obtain ⟨honOther, hotherPlace⟩ := (hmoved.landsAt_iff hother).mp hotherLands
  have hsame := place_inj hon honOther (hplace.trans hotherPlace.symm)
  exact hne (add_right_cancel (Prod.ext hsame.1 hsame.2))

end

theorem pasteTerrain_repeated (hfill : ¬ (clipboard.fillSimilarTiles = true ∧ selTiles.length = 1))
    (hrepeated : Clipboard.pasteCell mapClickX mapClickY = clipboard.prevPaste) :
    (clipboard.copy selTiles).pasteTerrain mapClickX mapClickY layers = .ok (layers, []) := by
  rw [Clipboard.pasteTerrain, tiles_copy, List.length_map]
  exact (if_neg hfill).trans (if_pos hrepeated)

theorem pasteTerrain_copy (hfill : ¬ (clipboard.fillSimilarTiles = true ∧ selTiles.length = 1))
    (hfresh : Clipboard.pasteCell mapClickX mapClickY ≠ clipboard.prevPaste) :
    (clipboard.copy selTiles).pasteTerrain mapClickX mapClickY layers =
      Clipboard.grouped ((selTiles.map (copied selTiles)).foldlM
        (pasteTile mapClickX mapClickY) (layers, [])) := by
  rw [Clipboard.pasteTerrain, tiles_copy, List.length_map]
  exact (if_neg hfill).trans (if_neg hfresh)

theorem Translates.canPaste (hmoved : MovedBy layers
      (copyLanding (selectionMiddle selTiles) mapClickX mapClickY) selTiles
      offset)
    (hdistinct : (selTiles.map TileNode.place).Nodup)
    (hfill : ¬ (clipboard.fillSimilarTiles = true ∧ selTiles.length = 1))
    {after : Layers} {undos : List (Reversible TileChange)}
    (hpaste : (clipboard.copy selTiles).pasteTerrain mapClickX mapClickY
      layers = .ok (after, undos))
    (hvalues : ∀ selTile ∈ selTiles, OnMapAt layers (selTile.place + offset) →
      after.mtxm[placeAt layers (selTile.place + offset)]? = some selTile.value) :
    CanPaste clipboard selTiles mapClickX mapClickY layers := by
  intro selTile hmem index hlands
  by_cases hrepeated : Clipboard.pasteCell mapClickX mapClickY = clipboard.prevPaste
  · rw [pasteTerrain_repeated hfill hrepeated] at hpaste
    cases hpaste
    obtain ⟨hon, rfl⟩ := (hmoved.landsAt_iff hmem).mp hlands
    exact ⟨selTile.value, hvalues selTile hmem hon, .inl rfl⟩
  · rw [pasteTerrain_copy hfill hrepeated] at hpaste
    obtain ⟨result, hresult, -⟩ := Fault.bind_eq_ok_iff.mp hpaste
    have hpasteable := (foldlM_pasteTile_returns_iff
      (hmoved.landApart hdistinct) []).mp ⟨result, hresult⟩
    obtain ⟨tileValue, hmtxm, hwritable⟩ := hpasteable _ (List.mem_map_of_mem hmem) index hlands
    exact ⟨tileValue, hmtxm, hwritable.imp_right fun hlt => ⟨hrepeated, hlt⟩⟩

theorem CanPaste.translates (hcan : CanPaste clipboard selTiles mapClickX mapClickY layers)
    (hmoved : MovedBy layers (copyLanding (selectionMiddle selTiles) mapClickX mapClickY) selTiles
      offset)
    (hdistinct : (selTiles.map TileNode.place).Nodup)
    (hfill : ¬ (clipboard.fillSimilarTiles = true ∧ selTiles.length = 1)) :
    Translates clipboard selTiles mapClickX mapClickY layers := by
  refine ⟨offset, hmoved, ?_⟩
  by_cases hrepeated : Clipboard.pasteCell mapClickX mapClickY = clipboard.prevPaste
  · refine ⟨layers, [], pasteTerrain_repeated hfill hrepeated,
      fun selTile hmem hon => ?_, keepsTiles_refl _ _⟩
    obtain ⟨tileValue, hmtxm, hvalue⟩ :=
      hcan selTile hmem _ ((hmoved.landsAt_iff hmem).mpr ⟨hon, rfl⟩)
    rw [hmtxm, hvalue.resolve_right fun h => h.1 hrepeated]
  · have hpasteable : ∀ tile ∈ selTiles.map (copied selTiles),
        Pasteable layers mapClickX mapClickY tile := by
      rw [List.forall_mem_map]
      intro selTile hmem index hlands
      obtain ⟨tileValue, hmtxm, hwritable⟩ := hcan selTile hmem index hlands
      exact ⟨tileValue, hmtxm, hwritable.imp_right And.right⟩
    have hapart := hmoved.landApart hdistinct
    obtain ⟨⟨after, changes⟩, hpaste⟩ := (foldlM_pasteTile_returns_iff hapart []).mpr hpasteable
    obtain ⟨hkeeps, hvalues⟩ := foldlM_pasteTile_pastes hapart hpaste
    rw [List.forall_mem_map] at hvalues
    refine ⟨after, [.actions (.make changes)], ?_, fun selTile hmem hon => ?_, hkeeps.mono ?_⟩
    · rw [pasteTerrain_copy hfill hrepeated, hpaste]
      rfl
    · exact hvalues selTile hmem _ ((hmoved.landsAt_iff hmem).mpr ⟨hon, rfl⟩)
    · rintro index ⟨tile, htile, hlands⟩
      obtain ⟨selTile, hmem, rfl⟩ := List.mem_map.mp htile
      exact ⟨selTile, hmem, (hmoved.landsAt_iff hmem).mp hlands⟩

end Translation

/-- A paste is a translation exactly if the tiles that land on the map are on
the same sides of its borders and can be pasted. -/
theorem translates_iff (clipboard : Clipboard) (selTiles : List TileNode)
    (mapClickX mapClickY : ℤ) (layers : Layers)
    (hdistinct : (selTiles.map TileNode.place).Nodup)
    (hfill : ¬ (clipboard.fillSimilarTiles = true ∧ selTiles.length = 1)) :
    Translates clipboard selTiles mapClickX mapClickY layers ↔
      SameSides layers (selectionMiddle selTiles) mapClickX mapClickY selTiles ∧
      CanPaste clipboard selTiles mapClickX mapClickY layers := by
  constructor
  · rintro ⟨offset, hmoved, after, undos, hpaste, hvalues, -⟩
    exact ⟨sameSides_of_movedBy hmoved, Translates.canPaste hmoved hdistinct hfill hpaste hvalues⟩
  · rintro ⟨hsides, hcan⟩
    obtain ⟨offset, hmoved⟩ := movedBy_iff_sameSides.mpr hsides
    exact hcan.translates hmoved hdistinct hfill

def plainTile (value xc yc : UInt16) : TileNode := ⟨value, xc, yc, TileNeighbor.all⟩

theorem translates_two :
    Translates ⟨[], false, (-1, -1)⟩ [plainTile 7 3 3, plainTile 8 2 3] 64 64 (newLayers 4 4) := by
  apply (translates_iff ⟨[], false, (-1, -1)⟩ [plainTile 7 3 3, plainTile 8 2 3] 64 64 _
    (by decide) (by decide)).mpr
  constructor
  · intro selTile hmem other hother _ _
    simp only [List.mem_cons, List.not_mem_nil, or_false] at hmem hother
    rcases hmem with rfl | rfl <;> rcases hother with rfl | rfl <;> decide
  · rintro selTile hmem index ⟨-, rfl⟩
    simp only [List.mem_cons, List.not_mem_nil, or_false] at hmem
    rcases hmem with rfl | rfl <;> exact ⟨0, by decide, .inr (by decide)⟩

/-- Two tiles next to each other, which are pasted on one. -/
theorem not_translates_pair :
    ¬ Translates ⟨[], false, (-1, -1)⟩ [plainTile 2 1 0, plainTile 1 0 0] 0 0 (newLayers 4 4) := by
  rintro ⟨offset, hmoved, -⟩
  have hon : OnMapAt (newLayers 4 4) (0, 0) := by decide
  have hright := (hmoved (plainTile 2 1 0) (by decide) (0, 0) hon).mp (by decide)
  have hleft := (hmoved (plainTile 1 0 0) (by decide) (0, 0) hon).mp (by decide)
  have hsame := hright.trans hleft.symm
  rw [add_left_inj] at hsame
  exact absurd hsame (by decide)

end Chkdraft.Editor
