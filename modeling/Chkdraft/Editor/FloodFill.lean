import Chkdraft.Editor.TerrainPaste

/-!
# Filling connected tiles

A fill replaces the tile it starts from and all tiles of the same value that are
connected to it.  Its stack holds tiles with coordinates of 16 bits with a sign,
so it leaves the map behind column and row 32767.
-/

namespace Chkdraft.Editor

open Chk Scenario Undo

/-- The tiles next to a tile, on the map. -/
def adjacent (layers : Layers) (tile : Points) : List Points :=
  ([⟨tile.x - 1, tile.y⟩, ⟨tile.x + 1, tile.y⟩, ⟨tile.x, tile.y - 1⟩,
    ⟨tile.x, tile.y + 1⟩] : List Points).filter fun other =>
      OnMap layers other.x other.y

/-- The tiles connected to the origin that hold the same value. -/
def Region (layers : Layers) (tileValue : UInt16) (origin : Points) : Points → Prop :=
  Search.Connected (adjacent layers) (Holds layers tileValue) origin

/-- The coordinates fit `points`. -/
def Points.Small (tile : Points) : Prop := tile.x < 32768 ∧ tile.y < 32768

instance (tile : Points) : Decidable tile.Small := inferInstanceAs (Decidable (_ ∧ _))

def Points.place (layers : Layers) (tile : Points) : ℕ := Editor.place layers tile.x tile.y

section Adjacent

variable {layers : Layers} {tile other : Points} {tileValue : UInt16}
  {origin : Points}

theorem Region.holds (hregion : Region layers tileValue origin tile) :
    Holds layers tileValue tile := by
  cases hregion with
  | origin hadmits => exact hadmits
  | step _ _ hadmits => exact hadmits

theorem onMap_of_mem_adjacent (hother : other ∈ adjacent layers tile) :
    OnMap layers other.x other.y :=
  of_decide_eq_true (List.mem_filter.mp hother).2

theorem Points.place_inj (hon : OnMap layers tile.x tile.y) (hother : OnMap layers other.x other.y)
    (hplace : tile.place layers = other.place layers) : tile = other := by
  obtain ⟨hx, hy⟩ := Editor.place_inj hon hother hplace
  cases tile
  cases other
  exact congrArg₂ Points.mk hx hy

/-- The neighbours the code pushes are those on the map, as `points`. -/
theorem neighbors_eq (hon : OnMap layers tile.x tile.y) : neighbors layers tile =
      (adjacent layers tile).map fun other => points other.x other.y := by
  obtain ⟨⟨hx, hxLt⟩, hy, hyLt⟩ := hon
  have hleft : OnMap layers (tile.x - 1) tile.y ↔ 1 ≤ tile.x := by
    rw [OnMap]
    omega
  have hright : OnMap layers (tile.x + 1) tile.y ↔ tile.x < layers.tileWidth.toNat - 1 := by
    rw [OnMap]
    omega
  have hup : OnMap layers tile.x (tile.y - 1) ↔ 1 ≤ tile.y := by
    rw [OnMap]
    omega
  have hdown : OnMap layers tile.x (tile.y + 1) ↔ tile.y < layers.tileHeight.toNat - 1 := by
    rw [OnMap]
    omega
  simp only [neighbors, adjacent, List.filter_cons, hleft, hright, hup, hdown,
    decide_eq_true_eq, List.filter_nil]
  split <;> split <;> split <;> split <;> rfl

theorem s16_eq {value : ℤ} (hpos : 0 ≤ value) (hlt : value < 65536) :
    0 ≤ s16 value ↔ value < 32768 := by
  rw [s16, Int.bmod_def]
  split <;> omega

theorem s16_of_small {value : ℤ} (hpos : 0 ≤ value) (hlt : value < 32768) : s16 value = value := by
  rw [s16, Int.bmod_eq_of_le (by omega) (by omega)]

/-- A tile of the map stays on it as `points` exactly if its coordinates fit. -/
theorem onMap_points_iff (hon : OnMap layers tile.x tile.y) :
    OnMap layers (points tile.x tile.y).x (points tile.x tile.y).y ↔
      tile.Small := by
  obtain ⟨⟨hx, hxLt⟩, hy, hyLt⟩ := hon
  have hwidth := layers.tileWidth.toNat_lt
  have hheight := layers.tileHeight.toNat_lt
  constructor
  · rintro ⟨⟨hpointX, -⟩, hpointY, -⟩
    exact ⟨(s16_eq hx (by omega)).mp hpointX, (s16_eq hy (by omega)).mp hpointY⟩
  · rintro ⟨hsmallX, hsmallY⟩
    rw [points, s16_of_small hx hsmallX, s16_of_small hy hsmallY]
    exact ⟨⟨hx, hxLt⟩, hy, hyLt⟩

theorem points_of_small (hon : OnMap layers tile.x tile.y)
    (hsmall : tile.Small) : points tile.x tile.y = tile := by
  rw [points, s16_of_small hon.1.1 hsmall.1, s16_of_small hon.2.1 hsmall.2]

theorem neighbors_eq_adjacent (hon : OnMap layers tile.x tile.y)
    (hsmall : ∀ other ∈ adjacent layers tile, other.Small) :
    neighbors layers tile = adjacent layers tile :=
  calc
    neighbors layers tile = (adjacent layers tile).map fun other => points other.x other.y :=
      neighbors_eq hon
    _ = (adjacent layers tile).map id := List.map_congr_left fun other hother =>
        points_of_small (onMap_of_mem_adjacent hother) (hsmall other hother)
    _ = adjacent layers tile := List.map_id _

end Adjacent

/-- What a fill needs: tiles that are read fit `points` and have a value, and
those that are written have a place in TILE. -/
structure Fillable (layers : Layers) (tileValue : UInt16) (origin : Points) : Prop where
  origin_small : origin.Small
  written : ∀ tile, Region layers tileValue origin tile → tile.place layers < layers.tile.length
  read : ∀ tile, Region layers tileValue origin tile → ∀ other ∈ adjacent layers tile,
      other.Small ∧ other.place layers < layers.mtxm.length

/-- What a fill is asked to do: no tile outside of the map is read in any state
of the loop, the region and nothing else gets the value, and each of its tiles
is recorded once. -/
structure FloodFills (layers : Layers) (filledTileValue pasteTileValue : UInt16)
    (origin : Points) (filled : TerrainEdited) : Prop where
  reads : ∀ state, Loop.Reaches (fillPass filledTileValue pasteTileValue)
      ⟨layers, [], [], [points origin.x origin.y]⟩ state →
    ∀ tile rest, state.tilesToProcess = tile :: rest → OnMap layers tile.x tile.y
  fills : ∃ after changes, filled = .ok (after, [.actions (.make changes)]) ∧
    (∀ tile, Region layers filledTileValue origin tile →
      after.mtxm[tile.place layers]? = some pasteTileValue ∧
        after.tile[tile.place layers]? = some pasteTileValue) ∧
    KeepsTiles layers after (fun index => ∃ tile,
      Region layers filledTileValue origin tile ∧ tile.place layers = index) ∧
    changes.Nodup ∧
    ∀ change, change ∈ changes ↔ ∃ tile, Region layers filledTileValue origin tile ∧
        change = ⟨UInt16.ofInt tile.x, UInt16.ofInt tile.y, filledTileValue⟩

section

variable {layers state : Layers} {changed : ℕ → Prop} (hkeeps : KeepsTiles layers state changed)

include hkeeps

theorem tileIndex_of_keeps (tile : Points) :
    tileIndex state (sizeT tile.x) (sizeT tile.y) = tile.place layers := by
  rw [tileIndex, Points.place, place, tileIndex, hkeeps.width]

theorem getTile_eq_ok_iff_of_keeps {tile : Points} {tileValue : UInt16} :
    getTile state (sizeT tile.x) (sizeT tile.y) = .ok tileValue ↔
      state.mtxm[tile.place layers]? = some tileValue := by
  rw [getTile_eq_ok_iff, tileIndex_of_keeps hkeeps]

theorem neighbors_of_keeps : neighbors state = neighbors layers := by
  funext tile
  rw [neighbors, neighbors, hkeeps.width, hkeeps.height]

end

/-- The search has found the tiles that were written and recorded. -/
structure Fills (layers : Layers) (filledTileValue pasteTileValue : UInt16)
    (origin : Points) (state : Filling) (found : List Points) : Prop where
  explores : Search.Explores (adjacent layers) (Holds layers filledTileValue)
    origin state.tilesToProcess state.tilesProcessed found
  nodup : found.Nodup
  keeps : KeepsTiles layers state.layers fun index =>
    ∃ tile ∈ found, tile.place layers = index
  written : ∀ tile ∈ found, state.layers.mtxm[tile.place layers]? = some pasteTileValue ∧
      state.layers.tile[tile.place layers]? = some pasteTileValue
  recorded : state.tileChanges = found.reverse.map fun tile =>
    ⟨UInt16.ofInt tile.x, UInt16.ofInt tile.y, filledTileValue⟩

section Fills

variable {layers : Layers} {filledTileValue pasteTileValue : UInt16}
  {origin tile : Points} {state : Filling} {found rest : List Points}

theorem fills_start : Fills layers filledTileValue pasteTileValue origin
      ⟨layers, [], [], [origin]⟩ [] where
  explores := Search.explores_start
  nodup := List.nodup_nil
  keeps := keepsTiles_refl _ _
  written _ hmem := nomatch hmem
  recorded := rfl

variable (hfillable : Fillable layers filledTileValue origin)
  (horigin : Holds layers filledTileValue origin)
  (hfills : Fills layers filledTileValue pasteTileValue origin state found)
  (hpending : state.tilesToProcess = tile :: rest)

include hfillable horigin hfills hpending

/-- The tile that is read next is on the map and has a value. -/
theorem Fills.readable : OnMap layers tile.x tile.y ∧ tile.place layers < layers.mtxm.length := by
  have hmem : tile ∈ state.tilesToProcess := hpending ▸ List.mem_cons_self
  rcases hfills.explores.pending_sound tile hmem with
    rfl | ⟨other, hother, hadjacent⟩
  · exact ⟨horigin.1, (List.getElem?_eq_some_iff.mp horigin.2).1⟩
  · have hregion := hfills.explores.sound other hother
    exact ⟨onMap_of_mem_adjacent hadjacent, (hfillable.read other hregion tile hadjacent).2⟩

omit hfillable horigin in
theorem Fills.skip (hskip : Holds layers filledTileValue tile → tile ∈ found) :
    Fills layers filledTileValue pasteTileValue origin
      { state with
        tilesProcessed := tile :: state.tilesProcessed
        tilesToProcess := rest } found where
  explores := by
    have hexplores := hfills.explores
    rw [hpending] at hexplores
    exact hexplores.skip hskip
  nodup := hfills.nodup
  keeps := hfills.keeps
  written := hfills.written
  recorded := hfills.recorded

omit hfillable horigin hpending in
theorem Fills.place_ne (hholds : Holds layers filledTileValue tile) (hnew : tile ∉ found) :
    ¬ ∃ before ∈ found, before.place layers = tile.place layers := by
  rintro ⟨before, hbefore, hplace⟩
  have hholdsBefore : Holds layers filledTileValue before :=
    Region.holds (hfills.explores.sound before hbefore)
  obtain rfl := Points.place_inj hholdsBefore.1 hholds.1 hplace
  exact hnew hbefore

omit hfillable horigin hpending in
theorem Fills.changeTile_eq (hmtxm : state.layers.mtxm[tile.place layers]? = some filledTileValue)
    (htile : tile.place layers < state.layers.tile.length) :
    changeTile tile.x tile.y pasteTileValue (state.layers, state.tileChanges) =
      .ok (writeTile state.layers (tile.place layers) pasteTileValue, state.tileChanges ++
          [⟨UInt16.ofInt tile.x, UInt16.ofInt tile.y, filledTileValue⟩]) := by
  have hmtxmLt := (List.getElem?_eq_some_iff.mp hmtxm).1
  have hget := (getTile_eq_ok_iff_of_keeps hfills.keeps).mpr hmtxm
  have hset : setTile state.layers (sizeT tile.x) (sizeT tile.y) pasteTileValue =
        .ok (writeTile state.layers (tile.place layers) pasteTileValue) := by
    rw [setTile, tileIndex_of_keeps hfills.keeps]
    exact if_pos ⟨hmtxmLt, htile⟩
  rw [changeTile, hget]
  change (setTile state.layers _ _ _ >>= _) = _
  rw [hset]
  rfl

omit horigin in
theorem Fills.fill (hholds : Holds layers filledTileValue tile) (hnew : tile ∉ found) :
    ∃ changed, changeTile tile.x tile.y pasteTileValue
        (state.layers, state.tileChanges) = .ok changed ∧
      changed.1 = writeTile state.layers (tile.place layers) pasteTileValue ∧
      Fills layers filledTileValue pasteTileValue origin
        (state.fill tile rest changed) (tile :: found) := by
  have hexplores := hfills.explores
  rw [hpending] at hexplores
  have hregion : Region layers filledTileValue origin tile := hexplores.connected hholds
  have hother := hfills.place_ne hholds hnew
  have hmtxm : state.layers.mtxm[tile.place layers]? = some filledTileValue :=
    (hfills.keeps.mtxm _ hother).trans hholds.2
  have hmtxmLt := (List.getElem?_eq_some_iff.mp hmtxm).1
  have htileLt : tile.place layers < state.layers.tile.length := by
    rw [hfills.keeps.tileLength]
    exact hfillable.written tile hregion
  have hkeeps : KeepsTiles layers (writeTile state.layers (tile.place layers) pasteTileValue)
      fun index => ∃ before ∈ tile :: found, before.place layers = index := by
    apply (hfills.keeps.mono _).trans ((keepsTiles_writeTile _ _ _).mono _)
    · rintro index ⟨before, hbefore, hplace⟩
      exact ⟨before, List.mem_cons_of_mem _ hbefore, hplace⟩
    · intro index hindex
      exact ⟨tile, List.mem_cons_self, hindex⟩
  refine ⟨_, hfills.changeTile_eq hmtxm htileLt, rfl, ?_,
    List.nodup_cons.mpr ⟨hnew, hfills.nodup⟩, hkeeps, ?_, ?_⟩
  · apply hexplores.find hholds
    intro other
    have hneighbors : neighbors (writeTile state.layers (tile.place layers)
        pasteTileValue) tile = adjacent layers tile := by
      rw [neighbors_of_keeps hkeeps]
      exact neighbors_eq_adjacent hholds.1 fun other hother =>
        (hfillable.read tile hregion other hother).1
    rw [List.mem_reverse, List.mem_filter, hneighbors, decide_eq_true_eq]
  · intro before hbefore
    rcases List.mem_cons.mp hbefore with rfl | hbefore
    · exact ⟨List.getElem?_set_self hmtxmLt, List.getElem?_set_self htileLt⟩
    · have hne : tile.place layers ≠ before.place layers := fun heq =>
        hother ⟨before, hbefore, heq.symm⟩
      obtain ⟨hmtxmBefore, htileBefore⟩ := hfills.written before hbefore
      exact ⟨(List.getElem?_set_ne hne).trans hmtxmBefore,
        (List.getElem?_set_ne hne).trans htileBefore⟩
  · change state.tileChanges ++ _ = _
    rw [hfills.recorded, List.reverse_cons, List.map_append]
    rfl

end Fills

section Fill

variable {layers : Layers} {filledTileValue pasteTileValue : UInt16}
  {origin : Points}

section

variable (hfillable : Fillable layers filledTileValue origin)
  (horigin : Holds layers filledTileValue origin)
  (hvalue : filledTileValue ≠ pasteTileValue)

include hfillable horigin hvalue

theorem fillPass_fills {state : Filling} {found : List Points}
    (hfills : Fills layers filledTileValue pasteTileValue origin state found) :
    state.tilesToProcess = [] ∧ fillPass filledTileValue pasteTileValue state =
          .done (.ok (state.layers, state.tileChanges)) ∨
      ∃ following, fillPass filledTileValue pasteTileValue state = .next following ∧
        (∃ found, Fills layers filledTileValue pasteTileValue origin following found) ∧
        fillMeasure filledTileValue following < fillMeasure filledTileValue state := by
  cases hpending : state.tilesToProcess with
  | nil => exact .inl ⟨rfl, by simp only [fillPass, hpending]⟩
  | cons tile rest =>
      right
      obtain ⟨hon, hlt⟩ := hfills.readable hfillable horigin hpending
      by_cases hfound : tile ∈ found
      · have hmtxm := (hfills.written tile hfound).1
        have hget := (getTile_eq_ok_iff_of_keeps hfills.keeps).mpr hmtxm
        refine ⟨_, ?_, ⟨found, hfills.skip hpending fun _ => hfound⟩, fillMeasure_skip hpending⟩
        simp only [fillPass, hpending, hget, if_neg hvalue.symm]
      · obtain ⟨tileValue, htileValue⟩ : ∃ tileValue,
            layers.mtxm[tile.place layers]? = some tileValue :=
          ⟨_, List.getElem?_eq_getElem hlt⟩
        have hother : ¬ ∃ before ∈ found, before.place layers = tile.place layers := by
          rintro ⟨before, hbefore, hplace⟩
          have hholds : Holds layers filledTileValue before :=
            Region.holds (hfills.explores.sound before hbefore)
          exact hfound (Points.place_inj hholds.1 hon hplace ▸ hbefore)
        have hmtxm := (hfills.keeps.mtxm _ hother).trans htileValue
        have hget := (getTile_eq_ok_iff_of_keeps hfills.keeps).mpr hmtxm
        by_cases hsame : tileValue = filledTileValue
        · rw [hsame] at htileValue hmtxm
          obtain ⟨changed, hchange, hwritten, hnext⟩ :=
            hfills.fill hfillable hpending ⟨hon, htileValue⟩ hfound
          refine ⟨_, ?_, ⟨_, hnext⟩, fillMeasure_fill hvalue hpending hmtxm ?_⟩
          · simp only [fillPass, hpending, hget, if_pos hsame, hchange]
          · rw [hwritten]
            rfl
        · have hskip : Holds layers filledTileValue tile → tile ∈ found := by
            rintro ⟨-, hholds⟩
            rw [show place layers tile.x tile.y = tile.place layers from rfl, htileValue] at hholds
            exact absurd (Option.some.inj hholds) hsame
          refine ⟨_, ?_, ⟨found, hfills.skip hpending hskip⟩, fillMeasure_skip hpending⟩
          simp only [fillPass, hpending, hget, if_neg hsame]

theorem fills_of_reaches {state : Filling}
    (hreaches : Loop.Reaches (fillPass filledTileValue pasteTileValue)
      ⟨layers, [], [], [origin]⟩ state) :
    ∃ found, Fills layers filledTileValue pasteTileValue origin state
      found := by
  apply hreaches.invariant ⟨[], fills_start⟩
  rintro state following ⟨found, hfills⟩ hbody
  rcases fillPass_fills hfillable horigin hvalue hfills with
    ⟨-, hdone⟩ | ⟨other, hnext, hother, -⟩
  · rw [hdone] at hbody
    nomatch hbody
  · rw [hnext] at hbody
    cases hbody
    exact hother

end

end Fill

theorem eq_of_changeTile {xc yc : ℤ} {tileValue : UInt16} {layers : Layers}
    {changes : List TileChange} {changed : Layers × List TileChange}
    (hchange : changeTile xc yc tileValue (layers, changes) = .ok changed) :
    ∃ replacedValue, changed = (writeTile layers (place layers xc yc) tileValue,
        changes ++ [⟨UInt16.ofInt xc, UInt16.ofInt yc, replacedValue⟩]) := by
  obtain ⟨replacedValue, -, hchange⟩ := Fault.bind_eq_ok_iff.mp hchange
  obtain ⟨after, hset, hchange⟩ := Fault.bind_eq_ok_iff.mp hchange
  cases hchange
  obtain ⟨-, rfl⟩ := setTile_eq_ok_iff.mp hset
  exact ⟨replacedValue, rfl⟩

/-- A pass reads the tile on top of the stack, and skips or fills it. -/
theorem fillPass_eq_next {filledTileValue pasteTileValue : UInt16}
    {state following : Filling}
    (hbody : fillPass filledTileValue pasteTileValue state = .next following) :
    ∃ tile rest tileValue, state.tilesToProcess = tile :: rest ∧
      getTile state.layers (sizeT tile.x) (sizeT tile.y) = .ok tileValue ∧
      (following = { state with
          tilesProcessed := tile :: state.tilesProcessed
          tilesToProcess := rest } ∨
        ∃ replacedValue, following = state.fill tile rest
          (writeTile state.layers (place state.layers tile.x tile.y) pasteTileValue,
            state.tileChanges ++ [⟨UInt16.ofInt tile.x, UInt16.ofInt tile.y, replacedValue⟩])) := by
  rw [fillPass] at hbody
  split at hbody
  · cases hbody
  · rename_i tile rest hpending
    split at hbody
    · cases hbody
    · rename_i tileValue hget
      refine ⟨tile, rest, tileValue, hpending, hget, ?_⟩
      split at hbody
      · split at hbody
        · cases hbody
        · rename_i changed hchange
          cases hbody
          obtain ⟨replacedValue, rfl⟩ := eq_of_changeTile hchange
          exact .inr ⟨replacedValue, rfl⟩
      · cases hbody
        exact .inl rfl

theorem fillPass_eq_done {filledTileValue pasteTileValue : UInt16}
    {state : Filling} {result : Layers × List TileChange}
    (hbody : fillPass filledTileValue pasteTileValue state = .done (.ok result)) :
    state.tilesToProcess = [] ∧ result = (state.layers, state.tileChanges) := by
  rw [fillPass] at hbody
  split at hbody
  · rename_i hpending
    cases hbody
    exact ⟨hpending, rfl⟩
  · split at hbody
    · cases hbody
    · split at hbody
      · split at hbody
        · cases hbody
        · cases hbody
      · cases hbody

/-- The tiles that were taken from the stack were read, and the neighbours of
those that were recorded are on it or were taken from it. -/
structure Processes (layers : Layers) (state : Filling) : Prop where
  width : state.layers.tileWidth = layers.tileWidth
  height : state.layers.tileHeight = layers.tileHeight
  mtxmLength : state.layers.mtxm.length = layers.mtxm.length
  read : ∀ tile ∈ state.tilesProcessed, OnMap layers tile.x tile.y ∧
    tile.place layers < layers.mtxm.length
  pushed : ∀ change ∈ state.tileChanges, ∃ tile : Points,
    OnMap layers tile.x tile.y ∧ change.xc = UInt16.ofInt tile.x ∧
      change.yc = UInt16.ofInt tile.y ∧
      ∀ other ∈ neighbors layers tile, other ∈ state.tilesToProcess ∨ other ∈ state.tilesProcessed

section Processes

variable {layers : Layers} {filledTileValue pasteTileValue : UInt16}
  {origin tile : Points}

theorem processes_start (origin : Points) : Processes layers ⟨layers, [], [], [origin]⟩ where
  width := rfl
  height := rfl
  mtxmLength := rfl
  read _ hmem := nomatch hmem
  pushed _ hmem := nomatch hmem

theorem Processes.next {state following : Filling} (hprocesses : Processes layers state)
    (hreads : ∀ tile rest, state.tilesToProcess = tile :: rest → OnMap layers tile.x tile.y)
    (hbody : fillPass filledTileValue pasteTileValue state = .next following) :
    Processes layers following := by
  obtain ⟨tile, rest, tileValue, hpending, hget, hfollowing⟩ := fillPass_eq_next hbody
  have hon := hreads tile rest hpending
  have hplace (tile : Points) :
      tileIndex state.layers (sizeT tile.x) (sizeT tile.y) = tile.place layers := by
    rw [tileIndex, Points.place, place, tileIndex, hprocesses.width]
  have hlt : tile.place layers < layers.mtxm.length := by
    rw [getTile_eq_ok_iff, hplace] at hget
    rw [← hprocesses.mtxmLength]
    exact (List.getElem?_eq_some_iff.mp hget).1
  have hread : ∀ other ∈ tile :: state.tilesProcessed,
      OnMap layers other.x other.y ∧ other.place layers < layers.mtxm.length := by
    intro other hother
    rcases List.mem_cons.mp hother with rfl | hother
    · exact ⟨hon, hlt⟩
    · exact hprocesses.read other hother
  have hneighbors : neighbors state.layers = neighbors layers := by
    funext other
    rw [neighbors, neighbors, hprocesses.width, hprocesses.height]
  have hpushed (more : List Points) : ∀ change ∈ state.tileChanges,
      ∃ tile' : Points, OnMap layers tile'.x tile'.y ∧
        change.xc = UInt16.ofInt tile'.x ∧ change.yc = UInt16.ofInt tile'.y ∧
        ∀ other ∈ neighbors layers tile', other ∈ more ++ rest ∨
          other ∈ tile :: state.tilesProcessed := by
    intro change hchange
    obtain ⟨before, honBefore, hx, hy, hnext⟩ := hprocesses.pushed change hchange
    refine ⟨before, honBefore, hx, hy, fun other hother => ?_⟩
    have hkept := hnext other hother
    rw [hpending] at hkept
    exact (Search.pending_or_seen hkept).imp_left (List.mem_append_right more)
  rcases hfollowing with rfl | ⟨replacedValue, rfl⟩
  · exact ⟨hprocesses.width, hprocesses.height, hprocesses.mtxmLength, hread, hpushed []⟩
  · refine ⟨hprocesses.width, hprocesses.height, List.length_set.trans hprocesses.mtxmLength, hread,
      fun change hchange => ?_⟩
    rcases List.mem_append.mp hchange with hchange | hchange
    · exact hpushed _ change hchange
    · rw [List.mem_singleton.mp hchange]
      refine ⟨tile, hon, rfl, rfl, fun other hother => ?_⟩
      by_cases hseen : other ∈ tile :: state.tilesProcessed
      · exact .inr hseen
      · have hfilled : other ∈ ((neighbors state.layers tile).filter fun next =>
            next ∉ tile :: state.tilesProcessed).reverse := by
          rw [List.mem_reverse, List.mem_filter, hneighbors]
          exact ⟨hother, decide_eq_true hseen⟩
        exact .inl (List.mem_append_left rest hfilled)

end Processes

section FloodFill

variable {layers : Layers} {filledTileValue pasteTileValue : UInt16}
  {origin tile other : Points}

theorem coordinates_inj (hon : OnMap layers tile.x tile.y) (hother : OnMap layers other.x other.y)
    (hx : UInt16.ofInt tile.x = UInt16.ofInt other.x)
    (hy : UInt16.ofInt tile.y = UInt16.ofInt other.y) : tile = other := by
  have hxNat := congrArg UInt16.toNat hx
  have hyNat := congrArg UInt16.toNat hy
  rw [(conversions hon.1.1 hon.1.2).2, (conversions hother.1.1 hother.1.2).2] at hxNat
  rw [(conversions hon.2.1 hon.2.2).2, (conversions hother.2.1 hother.2.2).2] at hyNat
  obtain ⟨⟨htileX, -⟩, htileY, -⟩ := hon
  obtain ⟨⟨hotherX, -⟩, hotherY, -⟩ := hother
  have hsameX : tile.x = other.x := by omega
  have hsameY : tile.y = other.y := by omega
  cases tile
  cases other
  exact congrArg₂ Points.mk hsameX hsameY

theorem floodFills_of_fillable (horigin : Holds layers filledTileValue origin)
    (hvalue : filledTileValue ≠ pasteTileValue)
    (hfillable : Fillable layers filledTileValue origin) :
    FloodFills layers filledTileValue pasteTileValue origin
      (Clipboard.grouped (fillFrom origin.x origin.y filledTileValue pasteTileValue layers)) := by
  have hpoints := points_of_small horigin.1 hfillable.origin_small
  constructor
  · intro state hreaches tile rest hpending
    rw [hpoints] at hreaches
    obtain ⟨found, hfills⟩ := fills_of_reaches hfillable horigin hvalue hreaches
    exact (hfills.readable hfillable horigin hpending).1
  · have hstart : ∃ found, Fills layers filledTileValue pasteTileValue origin
        ⟨layers, [], [], [points origin.x origin.y]⟩ found := by
      rw [hpoints]
      exact ⟨[], fills_start⟩
    have hpass (state : Filling) (hfills : ∃ found, Fills layers
        filledTileValue pasteTileValue origin state found) :=
      fillPass_fills hfillable horigin hvalue hfills.choose_spec
    obtain ⟨state, ⟨found, hfills⟩, hempty, hfill⟩ := fillFrom_of_invariant (by exact hstart) hpass
    have hexplores := hfills.explores
    rw [hempty] at hexplores
    have hregion (tile : Points) : tile ∈ found ↔ Region layers filledTileValue origin tile :=
      hexplores.found_iff
    refine ⟨state.layers, state.tileChanges, ?_, ?_, ?_, ?_, ?_⟩
    · rw [hfill]
      rfl
    · intro tile htile
      exact hfills.written tile ((hregion tile).mpr htile)
    · apply hfills.keeps.mono
      rintro index ⟨tile, htile, hplace⟩
      exact ⟨tile, (hregion tile).mp htile, hplace⟩
    · rw [hfills.recorded]
      refine List.Nodup.map_on (fun tile htile other hother heq => ?_)
        (List.nodup_reverse.mpr hfills.nodup)
      have hon := ((hregion tile).mp (List.mem_reverse.mp htile)).holds.1
      have honOther := ((hregion other).mp (List.mem_reverse.mp hother)).holds.1
      exact coordinates_inj hon honOther (congrArg TileChange.xc heq) (congrArg TileChange.yc heq)
    · intro change
      rw [hfills.recorded, List.mem_map]
      constructor
      · rintro ⟨tile, htile, rfl⟩
        exact ⟨tile, (hregion tile).mp (List.mem_reverse.mp htile), rfl⟩
      · rintro ⟨tile, htile, rfl⟩
        exact ⟨tile, List.mem_reverse.mpr ((hregion tile).mpr htile), rfl⟩

theorem fillable_of_floodFills (horigin : Holds layers filledTileValue origin)
    (hfloods : FloodFills layers filledTileValue pasteTileValue origin
      (Clipboard.grouped (fillFrom origin.x origin.y filledTileValue pasteTileValue layers))) :
    Fillable layers filledTileValue origin := by
  obtain ⟨hreads, after, changes, hfilled, hwritten, hkeeps, -, hrecorded⟩ := hfloods
  obtain ⟨⟨layersAfter, tileChanges⟩, hfill, hgroup⟩ := Fault.bind_eq_ok_iff.mp hfilled
  cases hgroup
  -- The loop ends in a state that is reached.
  have hdone : ∃ state, Loop.Reaches (fillPass filledTileValue pasteTileValue)
        ⟨layers, [], [], [points origin.x origin.y]⟩ state ∧
      fillPass filledTileValue pasteTileValue state = .done (.ok (after, changes)) := by
    rw [fillFrom] at hfill
    cases hrun : Loop.run (fillPass filledTileValue pasteTileValue) (4 * layers.mtxm.length + 2)
      ⟨layers, [], [], [points origin.x origin.y]⟩ with
    | none =>
        rw [hrun] at hfill
        cases hfill
    | some result =>
        rw [hrun] at hfill
        obtain rfl : result = .ok (after, changes) := hfill
        exact Loop.returns_iff_reaches_done.mp ⟨_, hrun⟩
  obtain ⟨state, hreaches, hbody⟩ := hdone
  have hprocesses : Loop.Reaches (fillPass filledTileValue pasteTileValue)
      ⟨layers, [], [], [points origin.x origin.y]⟩ state ∧ Processes layers state := by
    apply hreaches.invariant ⟨.start, processes_start _⟩
    rintro state following ⟨hreached, hprocesses⟩ hnext
    exact ⟨hreached.next hnext, hprocesses.next (hreads state hreached) hnext⟩
  have hprocesses := hprocesses.2
  obtain ⟨hempty, hresult⟩ := fillPass_eq_done hbody
  obtain rfl := congrArg Prod.snd hresult
  refine ⟨?_, fun tile htile => ?_, fun tile htile other hother => ?_⟩
  · exact (onMap_points_iff horigin.1).mp (hreads _ .start (points origin.x origin.y) [] rfl)
  · rw [← hkeeps.tileLength]
    exact (List.getElem?_eq_some_iff.mp (hwritten tile htile).2).1
  · have honOther := onMap_of_mem_adjacent hother
    obtain ⟨found, hon, hx, hy, hnext⟩ := hprocesses.pushed _ ((hrecorded _).mpr ⟨tile, htile, rfl⟩)
    obtain rfl := coordinates_inj htile.holds.1 hon hx hy
    have hpushed : points other.x other.y ∈ neighbors layers tile := by
      rw [neighbors_eq hon]
      exact List.mem_map_of_mem hother
    have hseen := (hnext _ hpushed).resolve_left (by
      rw [hempty]
      exact List.not_mem_nil)
    obtain ⟨honPoints, hlt⟩ := hprocesses.read _ hseen
    have hsmall := (onMap_points_iff honOther).mp honPoints
    rw [points_of_small honOther hsmall] at hlt
    exact ⟨hsmall, hlt⟩

end FloodFill

def fillOrigin (mapClickX mapClickY : ℤ) (tile : PasteTileNode) : Points :=
  ⟨(landing mapClickX mapClickY tile).1, (landing mapClickX mapClickY tile).2⟩

theorem fillPasteTerrain_eq {clipboard : Clipboard} {tile : PasteTileNode}
    {mapClickX mapClickY : ℤ} {layers : Layers} {filledTileValue : UInt16}
    (htiles : clipboard.tiles = [tile])
    (hfresh : Clipboard.pasteCell mapClickX mapClickY ≠ clipboard.prevPaste)
    (horigin : Holds layers filledTileValue (fillOrigin mapClickX mapClickY tile))
    (hvalue : filledTileValue ≠ tile.value) :
    clipboard.fillPasteTerrain mapClickX mapClickY layers =
      Clipboard.grouped (fillFrom (fillOrigin mapClickX mapClickY tile).x
        (fillOrigin mapClickX mapClickY tile).y filledTileValue tile.value
        layers) := by
  have hget : getTile layers (sizeT (fillOrigin mapClickX mapClickY tile).x)
      (sizeT (fillOrigin mapClickX mapClickY tile).y) = .ok filledTileValue :=
    (getTile_eq_ok_iff_of_keeps (keepsTiles_refl layers fun _ => False)).mpr horigin.2
  have hfill : fillTiles mapClickX mapClickY tile layers =
      fillFrom (fillOrigin mapClickX mapClickY tile).x
        (fillOrigin mapClickX mapClickY tile).y filledTileValue tile.value
        layers := by
    refine (if_pos horigin.1).trans ?_
    change (getTile layers (sizeT (fillOrigin mapClickX mapClickY tile).x)
      (sizeT (fillOrigin mapClickX mapClickY tile).y) >>= _) = _
    rw [hget]
    exact if_pos hvalue
  rw [Clipboard.fillPasteTerrain, if_neg hfresh, htiles]
  exact congrArg Clipboard.grouped hfill

/-- A fill is right exactly if the click is not in the cell of the previous
paste, and the tiles next to the region fit `points` and MTXM, and those of the
region TILE. -/
theorem floodFills_iff (clipboard : Clipboard) (tile : PasteTileNode)
    (mapClickX mapClickY : ℤ) (layers : Layers) (filledTileValue : UInt16)
    (htiles : clipboard.tiles = [tile])
    (horigin : Holds layers filledTileValue (fillOrigin mapClickX mapClickY tile))
    (hvalue : filledTileValue ≠ tile.value) :
    FloodFills layers filledTileValue tile.value (fillOrigin mapClickX mapClickY tile)
        (clipboard.fillPasteTerrain mapClickX mapClickY layers) ↔
      Clipboard.pasteCell mapClickX mapClickY ≠ clipboard.prevPaste ∧
        Fillable layers filledTileValue (fillOrigin mapClickX mapClickY tile) := by
  by_cases hfresh : Clipboard.pasteCell mapClickX mapClickY = clipboard.prevPaste
  · rw [Clipboard.fillPasteTerrain, if_pos hfresh]
    constructor
    · rintro ⟨-, after, changes, hfilled, -⟩
      cases hfilled
    · rintro ⟨hother, -⟩
      exact absurd hfresh hother
  · rw [fillPasteTerrain_eq htiles hfresh horigin hvalue]
    constructor
    · intro hfloods
      exact ⟨hfresh, fillable_of_floodFills horigin hfloods⟩
    · rintro ⟨-, hfillable⟩
      exact floodFills_of_fillable horigin hvalue hfillable

def copiedTile (value : UInt16) : PasteTileNode := ⟨value, -16, -16⟩

theorem floodFills_two : FloodFills (newLayers 2 1) 0 7 (fillOrigin 0 0 (copiedTile 7))
      (Clipboard.fillPasteTerrain ⟨[copiedTile 7], true, (-1, -1)⟩ 0 0 (newLayers 2 1)) := by
  have horigin : Holds (newLayers 2 1) 0 (fillOrigin 0 0 (copiedTile 7)) := ⟨by decide, by decide⟩
  apply (floodFills_iff _ (copiedTile 7) 0 0 _ 0 rfl horigin (by decide)).mpr
  have honly (tile : Points) (hon : OnMap (newLayers 2 1) tile.x tile.y) :
      tile = ⟨0, 0⟩ ∨ tile = ⟨1, 0⟩ := by
    obtain ⟨⟨hx, hxLt⟩, hy, hyLt⟩ := hon
    change tile.x < 2 at hxLt
    change tile.y < 1 at hyLt
    have hzeroY : tile.y = 0 := by omega
    have hcolumn : tile.x = 0 ∨ tile.x = 1 := by omega
    cases tile
    exact hcolumn.imp (congrArg₂ Points.mk · hzeroY) (congrArg₂ Points.mk · hzeroY)
  refine ⟨by decide, by decide, fun tile htile => ?_, fun tile htile other hother => ?_⟩
  · rcases honly tile htile.holds.1 with rfl | rfl <;> decide
  · rcases honly other (onMap_of_mem_adjacent hother) with rfl | rfl <;> decide

/-- A fill that starts behind column 32767. -/
theorem not_floodFills_wide : ¬ FloodFills (newLayers 32769 1) 0 7
      (fillOrigin 1048576 0 (copiedTile 7))
      (Clipboard.fillPasteTerrain ⟨[copiedTile 7], true, (-1, -1)⟩ 1048576 0
        (newLayers 32769 1)) := by
  intro hfloods
  have hon := hfloods.reads _ .start (points 32768 0) [] rfl
  exact absurd hon.1.1 (by decide)

end Chkdraft.Editor
