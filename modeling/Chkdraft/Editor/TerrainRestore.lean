import Chkdraft.Editor.TerrainUndo

/-!
# Undoing edits of the terrain

Which tiles each edit changes, from the terrain before it.  A fill changes the
connected tiles of the value it replaces.  An edit can be undone exactly if MTXM
and TILE agree at all of them.
-/

namespace Chkdraft.Editor

open Chk Scenario Sections Undo

def place (layers : Layers) (xc yc : ℤ) : ℕ := tileIndex layers (sizeT xc) (sizeT yc)

/-- Both sections hold every tile of the map. -/
def Covered (layers : Layers) : Prop :=
  layers.tileWidth.toNat * layers.tileHeight.toNat ≤ layers.mtxm.length ∧
    layers.tileWidth.toNat * layers.tileHeight.toNat ≤ layers.tile.length

instance (layers : Layers) : Decidable (Covered layers) := inferInstanceAs (Decidable (_ ∧ _))

section OnMap

variable {layers : Layers} {xc yc : ℤ}

theorem conversions {value : ℤ} {size : UInt16} (hpos : 0 ≤ value) (hlt : value < size.toNat) :
    sizeT value = value.toNat ∧ (UInt16.ofInt value).toNat = value.toNat := by
  have hsize := size.toNat_lt
  have hsmall : value < 65536 := by omega
  constructor
  · rw [sizeT, Int.emod_eq_of_lt hpos (by omega)]
  · have hnat : value.toNat < UInt16.size := by
      rw [UInt16.size]
      omega
    rw [UInt16.ofInt, Int.emod_eq_of_lt hpos (by omega), UInt16.toNat_ofNat_of_lt' hnat]

theorem place_eq (hon : OnMap layers xc yc) :
    place layers xc yc = yc.toNat * layers.tileWidth.toNat + xc.toNat ∧
      place layers xc yc < layers.tileWidth.toNat * layers.tileHeight.toNat := by
  obtain ⟨⟨hx, hxLt⟩, hy, hyLt⟩ := hon
  have hwidth := layers.tileWidth.toNat_lt
  have hheight := layers.tileHeight.toNat_lt
  have hxNat : xc.toNat < layers.tileWidth.toNat := by omega
  have hyNat : yc.toNat + 1 ≤ layers.tileHeight.toNat := by omega
  have hrow : (yc.toNat + 1) * layers.tileWidth.toNat ≤
      layers.tileHeight.toNat * layers.tileWidth.toNat :=
    Nat.mul_le_mul_right _ hyNat
  have hall : layers.tileHeight.toNat * layers.tileWidth.toNat ≤
      2 ^ 16 * 2 ^ 16 := Nat.mul_le_mul hheight.le hwidth.le
  rw [Nat.add_mul] at hrow
  have hplace : place layers xc yc = yc.toNat * layers.tileWidth.toNat + xc.toNat := by
    rw [place, tileIndex, (conversions hx hxLt).1, (conversions hy hyLt).1]
    exact Nat.mod_eq_of_lt (by omega)
  rw [hplace, Nat.mul_comm layers.tileWidth.toNat]
  exact ⟨rfl, by omega⟩

theorem place_inj {otherX otherY : ℤ} (hon : OnMap layers xc yc)
    (hother : OnMap layers otherX otherY)
    (hplace : place layers xc yc = place layers otherX otherY) :
    xc = otherX ∧ yc = otherY := by
  rw [(place_eq hon).1, (place_eq hother).1] at hplace
  obtain ⟨⟨hx, hxLt⟩, hy, -⟩ := hon
  obtain ⟨⟨hotherX, hotherXLt⟩, hotherY, -⟩ := hother
  have hxNat : xc.toNat < layers.tileWidth.toNat := by omega
  have hotherNat : otherX.toNat < layers.tileWidth.toNat := by omega
  have hdiv := congrArg (· / layers.tileWidth.toNat) hplace
  have hmod := congrArg (· % layers.tileWidth.toNat) hplace
  have hpos : 0 < layers.tileWidth.toNat := by omega
  simp only [Nat.mul_comm _ layers.tileWidth.toNat, Nat.mul_add_div hpos,
    Nat.mul_add_mod, Nat.div_eq_of_lt hxNat, Nat.div_eq_of_lt hotherNat,
    Nat.mod_eq_of_lt hxNat, Nat.mod_eq_of_lt hotherNat, Nat.add_zero]
    at hdiv hmod
  omega

theorem index_of_onMap (hon : OnMap layers xc yc) (tileValue : UInt16) :
    TileChange.index layers ⟨UInt16.ofInt xc, UInt16.ofInt yc, tileValue⟩ = place layers xc yc := by
  obtain ⟨⟨hx, hxLt⟩, hy, hyLt⟩ := hon
  rw [TileChange.index, place, (conversions hx hxLt).1, (conversions hy hyLt).1,
    (conversions hx hxLt).2, (conversions hy hyLt).2]

theorem Covered.getTile (hcovered : Covered layers) (hon : OnMap layers xc yc) :
    ∃ tileValue, layers.mtxm[place layers xc yc]? = some tileValue ∧
      Editor.getTile layers (sizeT xc) (sizeT yc) = .ok tileValue := by
  have hlt := (place_eq hon).2.trans_le hcovered.1
  refine ⟨_, List.getElem?_eq_getElem hlt, ?_⟩
  have hmtxm : layers.mtxm[tileIndex layers (sizeT xc) (sizeT yc)]? = _ :=
    List.getElem?_eq_getElem hlt
  rw [Editor.getTile, hmtxm]

theorem Covered.setTile (hcovered : Covered layers)
    (hon : OnMap layers xc yc) (tileValue : UInt16) :
    Editor.setTile layers (sizeT xc) (sizeT yc) tileValue =
      .ok (writeTile layers (place layers xc yc) tileValue) := by
  have hlt := (place_eq hon).2
  exact if_pos ⟨hlt.trans_le hcovered.1, hlt.trans_le hcovered.2⟩

end OnMap

section Changed

variable {layers changed : Layers} {changes : List TileChange}

section

variable (hchanges : Changes layers changes changed)

include hchanges

theorem Changes.covered (hcovered : Covered layers) : Covered changed := by
  obtain ⟨hwidth, hheight, hmtxm, htile⟩ := hchanges.size
  rw [Covered, hwidth, hheight, hmtxm, htile]
  exact hcovered

theorem Changes.onMap {xc yc : ℤ} (hon : OnMap layers xc yc) : OnMap changed xc yc := by
  obtain ⟨hwidth, hheight, -, -⟩ := hchanges.size
  rw [OnMap, hwidth, hheight]
  exact hon

theorem Changes.place (xc yc : ℤ) : Editor.place changed xc yc = Editor.place layers xc yc := by
  rw [Editor.place, Editor.place, tileIndex, tileIndex, hchanges.size.1]

theorem Changes.index (change : TileChange) : change.index changed = change.index layers := by
  rw [TileChange.index, TileChange.index, tileIndex, tileIndex, hchanges.size.1]

theorem Changes.untouched {index : ℕ} (hindex : ¬ Touched layers changes index) :
    changed.mtxm[index]? = layers.mtxm[index]? := by
  induction hchanges with
  | nil => rfl
  | @cons layers _ change rest tileValue hrecorded htile hrest ih =>
      have hne : change.index layers ≠ index := fun hsame =>
        hindex ⟨change, List.mem_cons_self, hsame⟩
      rw [ih fun ⟨other, hother, hsame⟩ =>
        hindex ⟨other, List.mem_cons_of_mem _ hother, hsame⟩]
      exact List.getElem?_set_ne hne

end

theorem touched_concat (layers : Layers) (changes : List TileChange)
    (change : TileChange) (index : ℕ) :
    Touched layers (changes ++ [change]) index ↔
      Touched layers changes index ∨ change.index layers = index := by
  simp [Touched, or_and_right, exists_or]

theorem changeTile_spec (hcovered : Covered layers)
    (hchanges : Changes layers changes changed) {xc yc : ℤ}
    (hon : OnMap layers xc yc) (tileValue : UInt16) :
    ∃ change, changeTile xc yc tileValue (changed, changes) =
        .ok (writeTile changed (place layers xc yc) tileValue, changes ++ [change]) ∧
      Changes layers (changes ++ [change]) (writeTile changed (place layers xc yc) tileValue) ∧
      change.index layers = place layers xc yc := by
  have hchanged := hchanges.covered hcovered
  have honChanged := hchanges.onMap hon
  obtain ⟨replacedValue, hmtxm, hget⟩ := hchanged.getTile honChanged
  have hindex := index_of_onMap honChanged replacedValue
  have hplace := hchanges.place xc yc
  refine ⟨⟨UInt16.ofInt xc, UInt16.ofInt yc, replacedValue⟩, ?_, ?_, ?_⟩
  · rw [changeTile, hget]
    change (Editor.setTile changed _ _ _ >>= _) = _
    rw [hchanged.setTile honChanged, hplace]
    rfl
  · rw [← hplace, ← hindex]
    apply hchanges.concat
    · rw [hindex]
      exact hmtxm
    · rw [hindex]
      exact (place_eq honChanged).2.trans_le hchanged.2
  · rw [← hchanges.index, hindex, hplace]

end Changed

section Edits

variable {layers : Layers}

section

variable (hcovered : Covered layers)

include hcovered

theorem records_setTile {x y : ℤ} (hon : OnMap layers x y) (tileNum : UInt16) :
    ∃ changes, RecordsChanges layers (guiSetTile x y tileNum layers) changes ∧
      ∀ index, Touched layers changes index ↔ place layers x y = index := by
  obtain ⟨change, hchange, hchanges, hindex⟩ := changeTile_spec hcovered (.nil layers) hon tileNum
  obtain ⟨tileValue, hmtxm, hget⟩ := hcovered.getTile hon
  have hset := hcovered.setTile hon tileNum
  obtain ⟨⟨hx, hxLt⟩, hy, hyLt⟩ := hon
  refine ⟨[] ++ [change], ⟨_, [.action change], ?_, hchanges, .inl rfl⟩, fun index => ?_⟩
  · rw [changeTile, hget] at hchange
    change (setTile layers _ _ _ >>= _) = _ at hchange
    rw [hset] at hchange
    cases hchange
    rw [(conversions hx hxLt).1, (conversions hy hyLt).1] at hget hset
    rw [guiSetTile, if_neg (by omega), (conversions hx hxLt).2,
      (conversions hy hyLt).2, (conversions hx hxLt).1,
      (conversions hy hyLt).1, hget]
    change (setTile layers _ _ _ >>= _) = _
    rw [hset]
    rfl
  · rw [touched_concat, hindex]
    simp [Touched]

section

variable {selTiles : List (UInt16 × UInt16)}
  (hon : ∀ tile ∈ selTiles, OnMap layers tile.1.toNat tile.2.toNat)

include hon

theorem foldlM_changeTile {changed : Layers} {changes : List TileChange}
    (hchanges : Changes layers changes changed) :
    ∃ after all, selTiles.foldlM (fun state tile => changeTile tile.1.toNat tile.2.toNat 0 state)
        (changed, changes) = .ok (after, all) ∧
      Changes layers all after ∧
      ∀ index, Touched layers all index ↔ Touched layers changes index ∨
        ∃ tile ∈ selTiles, place layers tile.1.toNat tile.2.toNat = index := by
  induction selTiles generalizing changed changes with
  | nil => exact ⟨changed, changes, rfl, hchanges, by simp⟩
  | cons tile rest ih =>
      obtain ⟨change, hchange, hconcat, hindex⟩ := changeTile_spec hcovered
        hchanges (hon tile List.mem_cons_self) 0
      obtain ⟨after, all, hrest, hall, htouched⟩ := ih
        (fun other hother => hon other (List.mem_cons_of_mem tile hother))
        hconcat
      refine ⟨after, all, ?_, hall, fun index => ?_⟩
      · rw [List.foldlM_cons, hchange]
        exact hrest
      · rw [htouched, touched_concat, hindex]
        simp [or_assoc]

theorem records_deleteTiles :
    ∃ changes, RecordsChanges layers (deleteTiles selTiles layers) changes ∧
      ∀ index, Touched layers changes index ↔ ∃ tile ∈ selTiles,
          place layers tile.1.toNat tile.2.toNat = index := by
  obtain ⟨after, changes, hfold, hchanges, htouched⟩ := foldlM_changeTile hcovered hon (.nil layers)
  refine ⟨changes, ⟨after, _, ?_, hchanges, .inl rfl⟩, fun index => ?_⟩
  · rw [deleteTiles, hfold]
    rfl
  · rw [htouched]
    simp [Touched]

end

/-- A tile of the clipboard lands on a place that holds another value. -/
def LandsOn (layers : Layers) (mapClickX mapClickY : ℤ) (index : ℕ) (tile : PasteTileNode) : Prop :=
  OnMap layers (landing mapClickX mapClickY tile).1 (landing mapClickX mapClickY tile).2 ∧
    place layers (landing mapClickX mapClickY tile).1 (landing mapClickX mapClickY tile).2 = index ∧
    layers.mtxm[index]? ≠ some tile.value

/-- A tile adds its place to those changed unless it holds the value, or was
changed before. -/
theorem pasteTile_spec {changed : Layers} {changes : List TileChange}
    (hchanges : Changes layers changes changed) (mapClickX mapClickY : ℤ)
    (tile : PasteTileNode) :
    ∃ after all, pasteTile mapClickX mapClickY (changed, changes) tile = .ok (after, all) ∧
      Changes layers all after ∧
      ∀ index, Touched layers all index ↔ Touched layers changes index ∨
        LandsOn layers mapClickX mapClickY index tile := by
  have hunfold : pasteTile mapClickX mapClickY (changed, changes) tile =
      if OnMap changed (landing mapClickX mapClickY tile).1
          (landing mapClickX mapClickY tile).2 then do
        let tileValue ← getTile changed (sizeT (landing mapClickX mapClickY tile).1)
          (sizeT (landing mapClickX mapClickY tile).2)
        if tileValue ≠ tile.value then
          changeTile (landing mapClickX mapClickY tile).1
            (landing mapClickX mapClickY tile).2 tile.value (changed, changes)
        else
          .ok (changed, changes)
      else
        .ok (changed, changes) := rfl
  rw [hunfold]
  simp only [LandsOn]
  generalize (landing mapClickX mapClickY tile).1 = xc
  generalize (landing mapClickX mapClickY tile).2 = yc
  by_cases hon : OnMap layers xc yc
  · obtain ⟨tileValue, hmtxm, hget⟩ := (hchanges.covered hcovered).getTile (hchanges.onMap hon)
    rw [hchanges.place] at hmtxm
    rw [if_pos (hchanges.onMap hon), hget]
    change ∃ after all, (if tileValue ≠ tile.value then _ else _) = _ ∧ _
    by_cases hvalue : tileValue ≠ tile.value
    · obtain ⟨change, hchange, hconcat, hindex⟩ := changeTile_spec hcovered hchanges hon tile.value
      rw [if_pos hvalue]
      refine ⟨_, _, hchange, hconcat, fun index => ?_⟩
      rw [touched_concat, hindex]
      by_cases htouched : Touched layers changes index
      · simp [htouched]
      · rw [or_iff_right htouched, or_iff_right htouched, and_iff_right hon]
        refine ⟨fun hplace => ⟨hplace, ?_⟩, fun hlands => hlands.1⟩
        rw [← hchanges.untouched htouched, ← hplace, hmtxm]
        exact fun hsame => hvalue (Option.some.inj hsame)
    · rw [if_neg hvalue]
      refine ⟨_, _, rfl, hchanges, fun index => ?_⟩
      by_cases htouched : Touched layers changes index
      · simp [htouched]
      · refine iff_of_false htouched ?_
        rintro (htouch | ⟨-, hplace, hdiffers⟩)
        · exact htouched htouch
        · rw [← hchanges.untouched htouched, ← hplace, hmtxm] at hdiffers
          exact hvalue fun hsame => hdiffers (congrArg some hsame)
  · have hoff : ¬ OnMap changed xc yc := by
      obtain ⟨hwidth, hheight, -, -⟩ := hchanges.size
      rw [OnMap, hwidth, hheight]
      exact hon
    rw [if_neg hoff]
    refine ⟨_, _, rfl, hchanges, fun index => ?_⟩
    simp [hon]

theorem foldlM_pasteTile (mapClickX mapClickY : ℤ) (tiles : List PasteTileNode) {changed : Layers}
    {changes : List TileChange} (hchanges : Changes layers changes changed) :
    ∃ after all, tiles.foldlM (pasteTile mapClickX mapClickY)
        (changed, changes) = .ok (after, all) ∧
      Changes layers all after ∧
      ∀ index, Touched layers all index ↔ Touched layers changes index ∨
        ∃ tile ∈ tiles, LandsOn layers mapClickX mapClickY index tile := by
  induction tiles generalizing changed changes with
  | nil => exact ⟨changed, changes, rfl, hchanges, by simp⟩
  | cons tile rest ih =>
      obtain ⟨middle, some, htile, hmiddle, hsome⟩ := pasteTile_spec hcovered
        hchanges mapClickX mapClickY tile
      obtain ⟨after, all, hrest, hall, htouched⟩ := ih hmiddle
      refine ⟨after, all, ?_, hall, fun index => ?_⟩
      · rw [List.foldlM_cons, htile]
        exact hrest
      · rw [htouched, hsome]
        simp [or_assoc]

end

/-! ## Filling -/

/-- A tile of the map that holds a value. -/
def Holds (layers : Layers) (tileValue : UInt16) (tile : Points) : Prop :=
  OnMap layers tile.x tile.y ∧ layers.mtxm[place layers tile.x tile.y]? = some tileValue

/-- The coordinates of the map fit `points`. -/
def Narrow (layers : Layers) : Prop :=
  layers.tileWidth.toNat ≤ 32768 ∧ layers.tileHeight.toNat ≤ 32768

instance (layers : Layers) : Decidable (Narrow layers) := inferInstanceAs (Decidable (_ ∧ _))

theorem points_of_onMap (hnarrow : Narrow layers) {xc yc : ℤ}
    (hon : OnMap layers xc yc) : points xc yc = ⟨xc, yc⟩ := by
  obtain ⟨⟨hx, hxLt⟩, hy, hyLt⟩ := hon
  obtain ⟨hwidth, hheight⟩ := hnarrow
  rw [points, s16, s16, Int.bmod_eq_of_le (by omega) (by omega),
    Int.bmod_eq_of_le (by omega) (by omega)]

theorem onMap_of_mem_neighbors (hnarrow : Narrow layers) {tile other : Points}
    (hon : OnMap layers tile.x tile.y) (hother : other ∈ neighbors layers tile) :
    OnMap layers other.x other.y := by
  obtain ⟨⟨hx, hxLt⟩, hy, hyLt⟩ := hon
  simp only [neighbors, List.mem_append] at hother
  -- Each of the four neighbours is pushed under its own guard.
  rcases hother with ((hleft | hright) | hup) | hdown
  · split at hleft
    · have hleftOn : OnMap layers (tile.x - 1) tile.y := ⟨⟨by omega, by omega⟩, hy, hyLt⟩
      rw [points_of_onMap hnarrow hleftOn] at hleft
      rw [List.mem_singleton.mp hleft]
      exact hleftOn
    · cases hleft
  · split at hright
    · have hrightOn : OnMap layers (tile.x + 1) tile.y := ⟨⟨by omega, by omega⟩, hy, hyLt⟩
      rw [points_of_onMap hnarrow hrightOn] at hright
      rw [List.mem_singleton.mp hright]
      exact hrightOn
    · cases hright
  · split at hup
    · have hupOn : OnMap layers tile.x (tile.y - 1) := ⟨⟨hx, hxLt⟩, by omega, by omega⟩
      rw [points_of_onMap hnarrow hupOn] at hup
      rw [List.mem_singleton.mp hup]
      exact hupOn
    · cases hup
  · split at hdown
    · have hdownOn : OnMap layers tile.x (tile.y + 1) := ⟨⟨hx, hxLt⟩, by omega, by omega⟩
      rw [points_of_onMap hnarrow hdownOn] at hdown
      rw [List.mem_singleton.mp hdown]
      exact hdownOn
    · cases hdown

/-- The tiles a fill changes: those connected to the origin that hold the same
value. -/
def Filled (layers : Layers) (filledTileValue : UInt16) (origin : Points) (index : ℕ) : Prop :=
  ∃ tile, Search.Connected (neighbors layers) (Holds layers filledTileValue) origin tile ∧
    place layers tile.x tile.y = index

/-- What holds at the start of every pass: the search has explored the tiles
that were changed, and these hold the new value. -/
structure FillInvariant (layers : Layers) (filledTileValue pasteTileValue : UInt16)
    (origin : Points) (state : Filling) : Prop where
  changes : Changes layers state.tileChanges state.layers
  explores : ∃ found, Search.Explores (neighbors layers)
      (Holds layers filledTileValue) origin state.tilesToProcess
      state.tilesProcessed found ∧
    ∀ index, Touched layers state.tileChanges index ↔
      ∃ tile ∈ found, place layers tile.x tile.y = index
  onMap : ∀ tile ∈ state.tilesToProcess, OnMap layers tile.x tile.y
  pasted : ∀ index, Touched layers state.tileChanges index →
    state.layers.mtxm[index]? = some pasteTileValue

theorem connected_onMap {filledTileValue : UInt16} {origin tile : Points}
    (hconnected : Search.Connected (neighbors layers) (Holds layers filledTileValue) origin tile) :
    Holds layers filledTileValue tile := by
  cases hconnected with
  | origin hadmits => exact hadmits
  | step _ _ hadmits => exact hadmits

theorem neighbors_changed {changed : Layers} {changes : List TileChange}
    (hchanges : Changes layers changes changed) :
    neighbors changed = neighbors layers := by
  obtain ⟨hwidth, hheight, -, -⟩ := hchanges.size
  funext tile
  rw [neighbors, neighbors, hwidth, hheight]

section Fill

variable {filledTileValue pasteTileValue : UInt16} {origin : Points}
  {state : Filling} {tile : Points} {rest : List Points}

theorem fillInvariant_start (horigin : OnMap layers origin.x origin.y) :
    FillInvariant layers filledTileValue pasteTileValue origin ⟨layers, [], [], [origin]⟩ where
  changes := .nil layers
  explores := ⟨[], Search.explores_start, fun index => by simp [Touched]⟩
  onMap other hother := by
    rw [List.mem_singleton.mp hother]
    exact horigin
  pasted index htouched := by
    obtain ⟨change, hchange, -⟩ := htouched
    cases hchange

variable (hcovered : Covered layers) (hnarrow : Narrow layers)
  (hvalue : filledTileValue ≠ pasteTileValue)
  (hinv : FillInvariant layers filledTileValue pasteTileValue origin state)
  (hpending : state.tilesToProcess = tile :: rest)

include hinv hpending

theorem FillInvariant.tile_onMap : OnMap layers tile.x tile.y :=
  hinv.onMap tile (hpending ▸ List.mem_cons_self)

/-- A tile that holds another value now was found, or never held it. -/
theorem FillInvariant.skip (hother : state.layers.mtxm[place layers tile.x tile.y]? ≠
      some filledTileValue) :
    FillInvariant layers filledTileValue pasteTileValue origin
      { state with
        tilesProcessed := tile :: state.tilesProcessed
        tilesToProcess := rest } where
  changes := hinv.changes
  explores := by
    obtain ⟨found, hexplores, htouched⟩ := hinv.explores
    rw [hpending] at hexplores
    refine ⟨found, hexplores.skip fun hholds => ?_, htouched⟩
    have htouch : Touched layers state.tileChanges (place layers tile.x tile.y) := by
      by_contra huntouched
      rw [hinv.changes.untouched huntouched, hholds.2] at hother
      exact hother rfl
    obtain ⟨found, hfound, hplace⟩ := (htouched _).mp htouch
    have honFound := (connected_onMap (hexplores.sound found hfound)).1
    obtain ⟨hx, hy⟩ := place_inj honFound hholds.1 hplace
    have hsame : found = tile := by
      cases found
      cases tile
      simp_all
    rw [← hsame]
    exact hfound
  onMap other hmem := hinv.onMap other (hpending ▸ List.mem_cons_of_mem tile hmem)
  pasted := hinv.pasted

include hvalue in
theorem FillInvariant.holds (hsame : state.layers.mtxm[place layers tile.x tile.y]? =
      some filledTileValue) :
    Holds layers filledTileValue tile := by
  refine ⟨hinv.tile_onMap hpending, ?_⟩
  have huntouched : ¬ Touched layers state.tileChanges (place layers tile.x tile.y) := by
    intro htouched
    rw [hinv.pasted _ htouched] at hsame
    exact hvalue (Option.some.inj hsame).symm
  rw [← hinv.changes.untouched huntouched]
  exact hsame

include hcovered hnarrow hvalue in
theorem FillInvariant.fill (hsame : state.layers.mtxm[place layers tile.x tile.y]? =
      some filledTileValue) :
    ∃ changed, changeTile tile.x tile.y pasteTileValue
        (state.layers, state.tileChanges) = .ok changed ∧
      changed.1 = writeTile state.layers (place layers tile.x tile.y) pasteTileValue ∧
      FillInvariant layers filledTileValue pasteTileValue origin
        (state.fill tile rest changed) := by
  have hon := hinv.tile_onMap hpending
  obtain ⟨change, hchange, hchanges, hindex⟩ := changeTile_spec hcovered
    hinv.changes hon pasteTileValue
  refine ⟨_, hchange, rfl, hchanges, ?_, ?_, ?_⟩
  · obtain ⟨found, hexplores, htouched⟩ := hinv.explores
    rw [hpending] at hexplores
    refine ⟨tile :: found, ?_, fun index => ?_⟩
    · apply hexplores.find (hinv.holds hvalue hpending hsame)
      intro other
      simp [neighbors_changed hchanges]
    · change Touched layers (state.tileChanges ++ [change]) index ↔ _
      rw [touched_concat, htouched, hindex]
      simp [or_comm]
  · intro other hother
    rcases List.mem_append.mp hother with hother | hother
    · rw [List.mem_reverse, List.mem_filter, neighbors_changed hchanges] at hother
      exact onMap_of_mem_neighbors hnarrow hon hother.1
    · exact hinv.onMap other (hpending ▸ List.mem_cons_of_mem tile hother)
  · intro index htouched
    change Touched layers (state.tileChanges ++ [change]) index at htouched
    change (state.layers.mtxm.set _ _)[index]? = _
    rw [touched_concat, hindex] at htouched
    have hlt : place layers tile.x tile.y < state.layers.mtxm.length :=
      (List.getElem?_eq_some_iff.mp hsame).1
    by_cases hplace : place layers tile.x tile.y = index
    · subst hplace
      exact List.getElem?_set_self hlt
    · rw [List.getElem?_set_ne hplace]
      exact hinv.pasted index (htouched.resolve_right hplace)

end Fill

/-- Every pass takes a pending tile, or replaces a tile of the old value by at
most four pending ones. -/
def fillMeasure (filledTileValue : UInt16) (state : Filling) : ℕ :=
  4 * state.layers.mtxm.count filledTileValue + state.tilesToProcess.length

theorem length_neighbors_le (layers : Layers) (tile : Points) :
    (neighbors layers tile).length ≤ 4 := by
  unfold neighbors
  simp only [List.length_append]
  split <;> split <;> split <;> split <;> simp

theorem count_fill {filledTileValue pasteTileValue : UInt16}
    {mtxm : List UInt16} {index : ℕ} (hvalue : filledTileValue ≠ pasteTileValue)
    (hsame : mtxm[index]? = some filledTileValue) :
    (mtxm.set index pasteTileValue).count filledTileValue + 1 = mtxm.count filledTileValue := by
  obtain ⟨hlt, hget⟩ := List.getElem?_eq_some_iff.mp hsame
  have hpos : 0 < mtxm.count filledTileValue := List.count_pos_iff.mpr (List.mem_of_getElem? hsame)
  rw [List.count_set hlt, hget, beq_self_eq_true, if_pos rfl, if_neg (by simpa using hvalue.symm)]
  omega

theorem fillMeasure_skip {filledTileValue : UInt16} {state : Filling}
    {tile : Points} {rest : List Points}
    (hpending : state.tilesToProcess = tile :: rest) :
    fillMeasure filledTileValue
        { state with
          tilesProcessed := tile :: state.tilesProcessed
          tilesToProcess := rest } <
      fillMeasure filledTileValue state := by
  rw [fillMeasure, fillMeasure, hpending, List.length_cons]
  exact Nat.lt_succ_self _

theorem fillMeasure_fill {filledTileValue pasteTileValue : UInt16}
    {state : Filling} {tile : Points} {rest : List Points} {index : ℕ}
    {changed : Layers × List TileChange}
    (hvalue : filledTileValue ≠ pasteTileValue)
    (hpending : state.tilesToProcess = tile :: rest)
    (hsame : state.layers.mtxm[index]? = some filledTileValue)
    (hchanged : changed.1.mtxm = state.layers.mtxm.set index pasteTileValue) :
    fillMeasure filledTileValue (state.fill tile rest changed) <
      fillMeasure filledTileValue state := by
  have hcount := count_fill hvalue hsame
  have hfour := length_neighbors_le changed.1 tile
  have hfilter := List.length_filter_le (fun other => decide (other ∉ tile :: state.tilesProcessed))
    (neighbors changed.1 tile)
  simp only [fillMeasure, Filling.fill, List.length_append,
    List.length_reverse, hpending, List.length_cons, hchanged]
  omega

section Pass

variable {filledTileValue pasteTileValue : UInt16} {origin : Points}

theorem fillPass_spec (hcovered : Covered layers) (hnarrow : Narrow layers)
    (hvalue : filledTileValue ≠ pasteTileValue) {state : Filling}
    (hinv : FillInvariant layers filledTileValue pasteTileValue origin state) :
    state.tilesToProcess = [] ∧ fillPass filledTileValue pasteTileValue state =
          .done (.ok (state.layers, state.tileChanges)) ∨
      ∃ following, fillPass filledTileValue pasteTileValue state = .next following ∧
        FillInvariant layers filledTileValue pasteTileValue origin following ∧
        fillMeasure filledTileValue following < fillMeasure filledTileValue state := by
  cases hpending : state.tilesToProcess with
  | nil => exact .inl ⟨rfl, by simp only [fillPass, hpending]⟩
  | cons tile rest =>
      right
      have hon := hinv.tile_onMap hpending
      obtain ⟨tileValue, hmtxm, hget⟩ :=
        (hinv.changes.covered hcovered).getTile (hinv.changes.onMap hon)
      rw [hinv.changes.place] at hmtxm
      by_cases hsame : tileValue = filledTileValue
      · rw [hsame] at hmtxm
        obtain ⟨changed, hchange, hwritten, hfilled⟩ :=
          hinv.fill hcovered hnarrow hvalue hpending hmtxm
        refine ⟨state.fill tile rest changed, ?_, hfilled, ?_⟩
        · simp only [fillPass, hpending, hget, if_pos hsame, hchange]
        · apply fillMeasure_fill hvalue hpending hmtxm
          rw [hwritten]
          rfl
      · refine ⟨_, ?_, hinv.skip hpending ?_, ?_⟩
        · simp only [fillPass, hpending, hget, if_neg hsame]
        · rw [hmtxm]
          exact fun heq => hsame (Option.some.inj heq)
        · exact fillMeasure_skip hpending

theorem fillFrom_of_invariant {Inv : Filling → Prop} {xc yc : ℤ}
    (hstart : Inv ⟨layers, [], [], [points xc yc]⟩)
    (hpass : ∀ state, Inv state → state.tilesToProcess = [] ∧
          fillPass filledTileValue pasteTileValue state =
            .done (.ok (state.layers, state.tileChanges)) ∨
        ∃ following, fillPass filledTileValue pasteTileValue state =
            .next following ∧ Inv following ∧
          fillMeasure filledTileValue following < fillMeasure filledTileValue state) :
    ∃ state, Inv state ∧ state.tilesToProcess = [] ∧
      fillFrom xc yc filledTileValue pasteTileValue layers =
        .ok (state.layers, state.tileChanges) := by
  have hstep : ∀ state following, Inv state →
      fillPass filledTileValue pasteTileValue state = .next following →
      Inv following ∧ fillMeasure filledTileValue following <
        fillMeasure filledTileValue state := by
    intro state following hinv hbody
    rcases hpass state hinv with ⟨-, hdone⟩ | ⟨other, hnext, hother⟩
    · rw [hdone] at hbody
      cases hbody
    · rw [hnext] at hbody
      cases hbody
      exact hother
  have hcount : layers.mtxm.count filledTileValue ≤ layers.mtxm.length := List.count_le_length
  have hreturns := Loop.run_ne_none_of_measure (fillMeasure filledTileValue)
    hstep (4 * layers.mtxm.length + 2) _ hstart (by
      simp only [fillMeasure, List.length_singleton]
      omega)
  obtain ⟨result, hrun⟩ := Option.ne_none_iff_exists'.mp hreturns
  obtain ⟨state, hreaches, hbody⟩ := Loop.returns_iff_reaches_done.mp ⟨_, hrun⟩
  have hinv := hreaches.invariant hstart fun state following hinv hbody =>
    (hstep state following hinv hbody).1
  rcases hpass state hinv with ⟨hempty, hdone⟩ | ⟨other, hnext, -⟩
  · rw [hdone] at hbody
    cases hbody
    refine ⟨state, hinv, hempty, ?_⟩
    rw [fillFrom, hrun]
    rfl
  · rw [hnext] at hbody
    cases hbody

theorem fillFrom_spec (hcovered : Covered layers) (hnarrow : Narrow layers)
    (hvalue : filledTileValue ≠ pasteTileValue) {xc yc : ℤ}
    (hon : OnMap layers xc yc) :
    ∃ after changes, fillFrom xc yc filledTileValue pasteTileValue layers = .ok (after, changes) ∧
      Changes layers changes after ∧
      ∀ index, Touched layers changes index ↔
        Filled layers filledTileValue (points xc yc) index := by
  have hstart : FillInvariant layers filledTileValue pasteTileValue
      (points xc yc) ⟨layers, [], [], [points xc yc]⟩ := by
    apply fillInvariant_start
    rw [points_of_onMap hnarrow hon]
    exact hon
  obtain ⟨state, hinv, hempty, hfill⟩ := fillFrom_of_invariant hstart
    fun state hinv => fillPass_spec hcovered hnarrow hvalue hinv
  refine ⟨_, _, hfill, hinv.changes, fun index => ?_⟩
  obtain ⟨found, hexplores, htouched⟩ := hinv.explores
  rw [hempty] at hexplores
  simp only [htouched, Filled, hexplores.found_iff]

end Pass

/-- The tiles one tile of the clipboard fills. -/
def FillsOn (layers : Layers) (mapClickX mapClickY : ℤ) (index : ℕ) (tile : PasteTileNode) : Prop :=
  OnMap layers (landing mapClickX mapClickY tile).1 (landing mapClickX mapClickY tile).2 ∧
    ∃ filledTileValue, layers.mtxm[place layers (landing mapClickX mapClickY tile).1
        (landing mapClickX mapClickY tile).2]? = some filledTileValue ∧
      filledTileValue ≠ tile.value ∧
      Filled layers filledTileValue (points (landing mapClickX mapClickY tile).1
        (landing mapClickX mapClickY tile).2) index

theorem fillTiles_spec (hcovered : Covered layers) (hnarrow : Narrow layers)
    (mapClickX mapClickY : ℤ) (tile : PasteTileNode) :
    ∃ after changes, fillTiles mapClickX mapClickY tile layers = .ok (after, changes) ∧
      Changes layers changes after ∧
      ∀ index, Touched layers changes index ↔ FillsOn layers mapClickX mapClickY index tile := by
  have hunfold : fillTiles mapClickX mapClickY tile layers =
      if OnMap layers (landing mapClickX mapClickY tile).1
          (landing mapClickX mapClickY tile).2 then do
        let filledTileValue ← getTile layers (sizeT (landing mapClickX mapClickY tile).1)
          (sizeT (landing mapClickX mapClickY tile).2)
        if filledTileValue ≠ tile.value then
          fillFrom (landing mapClickX mapClickY tile).1
            (landing mapClickX mapClickY tile).2 filledTileValue tile.value
            layers
        else
          .ok (layers, [])
      else
        .ok (layers, []) := rfl
  rw [hunfold]
  simp only [FillsOn]
  generalize (landing mapClickX mapClickY tile).1 = xc
  generalize (landing mapClickX mapClickY tile).2 = yc
  by_cases hon : OnMap layers xc yc
  · obtain ⟨filledTileValue, hmtxm, hget⟩ := hcovered.getTile hon
    rw [if_pos hon, hget, hmtxm]
    change ∃ after changes, (if filledTileValue ≠ tile.value then _ else _) = _ ∧ _
    by_cases hvalue : filledTileValue ≠ tile.value
    · obtain ⟨after, changes, hfill, hchanges, htouched⟩ :=
        fillFrom_spec hcovered hnarrow hvalue hon
      rw [if_pos hvalue]
      refine ⟨after, changes, hfill, hchanges, fun index => ?_⟩
      rw [htouched]
      simp [hon, hvalue]
    · rw [if_neg hvalue]
      refine ⟨layers, [], rfl, .nil layers, fun index => ?_⟩
      simp [Touched, hvalue]
  · rw [if_neg hon]
    refine ⟨layers, [], rfl, .nil layers, fun index => ?_⟩
    simp [Touched, hon]

namespace Clipboard

def PasteTouches (clipboard : Clipboard) (mapClickX mapClickY : ℤ)
    (layers : Layers) (index : ℕ) : Prop :=
  pasteCell mapClickX mapClickY ≠ clipboard.prevPaste ∧
    ∃ tile ∈ clipboard.tiles, LandsOn layers mapClickX mapClickY index tile

def FillTouches (clipboard : Clipboard) (mapClickX mapClickY : ℤ)
    (layers : Layers) (index : ℕ) : Prop :=
  pasteCell mapClickX mapClickY ≠ clipboard.prevPaste ∧
    ∃ tile, clipboard.tiles = [tile] ∧ FillsOn layers mapClickX mapClickY index tile

theorem records_grouped {after : Layers} {changes : List TileChange}
    (hchanges : Changes layers changes after) :
    RecordsChanges layers (grouped (.ok (after, changes))) changes :=
  ⟨after, [.actions (.make changes)], rfl, hchanges, .inr rfl⟩

theorem records_none : RecordsChanges layers (.ok (layers, [])) [] :=
  ⟨layers, [], rfl, .nil layers, .inl rfl⟩

theorem records_fillPasteTerrain (hcovered : Covered layers)
    (hnarrow : Narrow layers) (clipboard : Clipboard)
    (mapClickX mapClickY : ℤ) :
    ∃ changes, RecordsChanges layers
        (clipboard.fillPasteTerrain mapClickX mapClickY layers) changes ∧
      ∀ index, Touched layers changes index ↔
        clipboard.FillTouches mapClickX mapClickY layers index := by
  rw [fillPasteTerrain]
  by_cases hprevious : pasteCell mapClickX mapClickY = clipboard.prevPaste
  · rw [if_pos hprevious]
    exact ⟨[], records_none, by simp [Touched, FillTouches, hprevious]⟩
  · rw [if_neg hprevious]
    split
    · rename_i tile htiles
      obtain ⟨after, changes, hfill, hchanges, htouched⟩ :=
        fillTiles_spec hcovered hnarrow mapClickX mapClickY tile
      rw [hfill]
      refine ⟨changes, records_grouped hchanges, fun index => ?_⟩
      rw [htouched]
      simp [FillTouches, hprevious, htiles]
    · rename_i hmany
      refine ⟨[], records_grouped (.nil layers), fun index => ?_⟩
      refine iff_of_false (by simp [Touched]) ?_
      rintro ⟨-, tile, htiles, -⟩
      exact hmany tile htiles

theorem records_pasteTerrain (hcovered : Covered layers)
    {clipboard : Clipboard}
    (hfill : ¬ (clipboard.fillSimilarTiles = true ∧ clipboard.tiles.length = 1))
    (mapClickX mapClickY : ℤ) :
    ∃ changes, RecordsChanges layers (clipboard.pasteTerrain mapClickX mapClickY layers) changes ∧
      ∀ index, Touched layers changes index ↔
        clipboard.PasteTouches mapClickX mapClickY layers index := by
  rw [pasteTerrain, if_neg hfill]
  by_cases hprevious : pasteCell mapClickX mapClickY = clipboard.prevPaste
  · rw [if_pos hprevious]
    exact ⟨[], records_none, by simp [Touched, PasteTouches, hprevious]⟩
  · obtain ⟨after, changes, hfold, hchanges, htouched⟩ := foldlM_pasteTile
      hcovered mapClickX mapClickY clipboard.tiles (.nil layers)
    rw [if_neg hprevious, hfold]
    refine ⟨changes, records_grouped hchanges, fun index => ?_⟩
    rw [htouched]
    simp [Touched, PasteTouches, hprevious]

end Clipboard

end Edits

namespace TerrainEdit

/-- The tiles the edit names are on the map, and a fill can name all tiles of
the map. -/
def InBounds (layers : Layers) : TerrainEdit → Prop
  | setTile x y _ => Covered layers ∧ OnMap layers x y
  | deleteSelection selTiles => Covered layers ∧
      ∀ tile ∈ selTiles, OnMap layers tile.1.toNat tile.2.toNat
  | pasteTerrain clipboard _ _ => Covered layers ∧
      (clipboard.fillSimilarTiles = true ∧ clipboard.tiles.length = 1 → Narrow layers)
  | fillPasteTerrain _ _ _ => Covered layers ∧ Narrow layers

def Touches (layers : Layers) (index : ℕ) : TerrainEdit → Prop
  | setTile x y _ => place layers x y = index
  | deleteSelection selTiles =>
      ∃ tile ∈ selTiles, place layers tile.1.toNat tile.2.toNat = index
  | pasteTerrain clipboard mapClickX mapClickY =>
      if clipboard.fillSimilarTiles ∧ clipboard.tiles.length = 1 then
        clipboard.FillTouches mapClickX mapClickY layers index
      else
        clipboard.PasteTouches mapClickX mapClickY layers index
  | fillPasteTerrain clipboard mapClickX mapClickY =>
      clipboard.FillTouches mapClickX mapClickY layers index

/-- MTXM and TILE agree wherever the edit writes. -/
def Meets (layers : Layers) (edit : TerrainEdit) : Prop :=
  ∀ index, edit.Touches layers index → layers.mtxm[index]? = layers.tile[index]?

theorem records {layers : Layers} {edit : TerrainEdit} (hbounds : edit.InBounds layers) :
    ∃ changes, RecordsChanges layers (edit.change layers) changes ∧
      ∀ index, Touched layers changes index ↔ edit.Touches layers index := by
  cases edit with
  | setTile x y tileNum =>
      exact records_setTile hbounds.1 hbounds.2 tileNum
  | deleteSelection selTiles =>
      exact records_deleteTiles hbounds.1 hbounds.2
  | pasteTerrain clipboard mapClickX mapClickY =>
      simp only [change, Touches]
      by_cases hfill : clipboard.fillSimilarTiles = true ∧ clipboard.tiles.length = 1
      · rw [Clipboard.pasteTerrain, if_pos hfill]
        simp only [if_pos hfill]
        exact Clipboard.records_fillPasteTerrain hbounds.1 (hbounds.2 hfill) _ _ _
      · simp only [if_neg hfill]
        exact Clipboard.records_pasteTerrain hbounds.1 hfill _ _
  | fillPasteTerrain clipboard mapClickX mapClickY =>
      exact Clipboard.records_fillPasteTerrain hbounds.1 hbounds.2 _ _ _

end TerrainEdit

/-- An edit on the map is restored exactly if the sections agree wherever it
writes. -/
theorem terrainRestores_iff_meets (edit : TerrainEdit)
    (map : GuiMap reversibles) (hbounds : edit.InBounds (layersOf map)) :
    TerrainRestores edit map ↔ edit.Meets (layersOf map) := by
  obtain ⟨changes, hrecords, htouched⟩ := TerrainEdit.records hbounds
  rw [terrainRestores_iff_of_records hrecords]
  simp only [htouched]
  rfl

/-- A map of two tiles, the first of which MTXM and TILE may show differently. -/
def twoTileMap (mtxm tile : UInt16) : GuiMap reversibles := GuiMap.opened fun type =>
    match type with
    | .tileChange =>
        ({ newLayers 2 1 with mtxm := [mtxm, 5], tile := [tile, 6] } : Layers)
    | .unitChange => smallMap [] .unitChange
    | .locationChange => smallMap [] .locationChange

theorem inBounds_twoTileMap (mtxm tile tileNum : UInt16) :
    (TerrainEdit.setTile 0 0 tileNum).InBounds (layersOf (twoTileMap mtxm tile)) :=
  ⟨⟨Nat.le_refl 2, Nat.le_refl 2⟩, ⟨Int.le_refl 0, (by decide : (0 : ℤ) < 2)⟩, Int.le_refl 0, Int.one_pos⟩

/-- Setting a tile that both sections show alike. -/
theorem terrainRestores_twoTileMap :
    (TerrainEdit.setTile 0 0 2).InBounds (layersOf (twoTileMap 1 1)) ∧
      TerrainRestores (.setTile 0 0 2) (twoTileMap 1 1) := by
  refine ⟨inBounds_twoTileMap 1 1 2,
    (terrainRestores_iff_meets _ _ (inBounds_twoTileMap 1 1 2)).mpr ?_⟩
  rintro index ⟨-, -, rfl⟩
  rfl

/-- After one undo TILE shows the value of MTXM. -/
theorem not_terrainRestores_twoTileMap :
    (TerrainEdit.setTile 0 0 2).InBounds (layersOf (twoTileMap 1 3)) ∧
      ¬ TerrainRestores (.setTile 0 0 2) (twoTileMap 1 3) := by
  refine ⟨inBounds_twoTileMap 1 3 2, ?_⟩
  rintro ⟨after, undone, redone, hperform, hundo, ⟨-, htile⟩, -⟩
  cases hperform
  cases hundo
  exact absurd (List.cons.inj htile).1 (by decide)

end Chkdraft.Editor
