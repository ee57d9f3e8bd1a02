import Chkdraft.Core.Search
import Chkdraft.Editor.MapActions

/-!
# Edits of the terrain

Setting a tile, deleting the selected tiles, and pasting tiles, which with one
tile may fill all connected tiles of the same value.  An edit writes to MTXM and
TILE, and records what MTXM held.
-/

namespace Chkdraft.Editor

open Chk Scenario Sections Undo

/-- A conversion to `s16`. -/
def s16 (value : ℤ) : ℤ := Int.bmod value 65536

/-- A conversion to `size_t`. -/
def sizeT (value : ℤ) : ℕ := (value % 2 ^ 64).toNat

/-- What an edit leaves, with what it adds to the undo stack. -/
abbrev TerrainEdited : Type := Except (Fault Exception) (Layers × List (Reversible TileChange))

/-- Some tiles are changed, and what they were is recorded. -/
abbrev TilesChanged : Type := Except (Fault Exception) (Layers × List TileChange)

/-- `GuiMap::SetTile`. -/
def guiSetTile (x y : ℤ) (tileNum : UInt16) (layers : Layers) : TerrainEdited :=
  if layers.tileWidth.toNat < x ∨ layers.tileHeight.toNat < y then
    .ok (layers, [])
  else do
    let tileValue ← getTile layers (UInt16.ofInt x).toNat (UInt16.ofInt y).toNat
    let changed ← setTile layers (sizeT x) (sizeT y) tileNum
    return (changed, [.action ⟨UInt16.ofInt x, UInt16.ofInt y, tileValue⟩])

def changeTile (xc yc : ℤ) (tileValue : UInt16)
    (state : Layers × List TileChange) : TilesChanged := do
  let replacedValue ← getTile state.1 (sizeT xc) (sizeT yc)
  let changed ← setTile state.1 (sizeT xc) (sizeT yc) tileValue
  return (changed, state.2 ++ [⟨UInt16.ofInt xc, UInt16.ofInt yc, replacedValue⟩])

/-- `deleteSelection` in the terrain layer, for the coordinates of the selected
tiles. -/
def deleteTiles (selTiles : List (UInt16 × UInt16)) (layers : Layers) :
    TerrainEdited := do
  let (changed, tileChanges) ← selTiles.foldlM
    (fun state tile => changeTile tile.1.toNat tile.2.toNat 0 state)
    (layers, [])
  return (changed, tileChanges.map .action)

structure PasteTileNode where
  value : UInt16
  xc : ℤ
  yc : ℤ

structure Clipboard where
  tiles : List PasteTileNode
  fillSimilarTiles : Bool
  prevPaste : ℤ × ℤ

def OnMap (layers : Layers) (xc yc : ℤ) : Prop :=
  (0 ≤ xc ∧ xc < layers.tileWidth.toNat) ∧ 0 ≤ yc ∧ yc < layers.tileHeight.toNat

instance (layers : Layers) (xc yc : ℤ) : Decidable (OnMap layers xc yc) :=
  inferInstanceAs (Decidable (_ ∧ _))

/-- Where a tile of the clipboard lands; the division rounds towards 0. -/
def landing (mapClickX mapClickY : ℤ) (tile : PasteTileNode) : ℤ × ℤ :=
  ((tile.xc + (mapClickX + 16)).tdiv 32, (tile.yc + (mapClickY + 16)).tdiv 32)

def pasteTile (mapClickX mapClickY : ℤ) (state : Layers × List TileChange)
    (tile : PasteTileNode) : TilesChanged :=
  let (xc, yc) := landing mapClickX mapClickY tile
  if OnMap state.1 xc yc then do
    let tileValue ← getTile state.1 (sizeT xc) (sizeT yc)
    if tileValue ≠ tile.value then
      changeTile xc yc tile.value state
    else
      .ok state
  else
    .ok state

/-- `points`, whose coordinates are `s16`. -/
structure Points where
  x : ℤ
  y : ℤ
deriving DecidableEq, Repr

def points (x y : ℤ) : Points := ⟨s16 x, s16 y⟩

/-- The loop of `fillPasteTerrain`; the top of the stack comes first. -/
structure Filling where
  layers : Layers
  tileChanges : List TileChange
  tilesProcessed : List Points
  tilesToProcess : List Points

/-- The neighbours of a tile, in the order they are pushed. -/
def neighbors (layers : Layers) (tile : Points) : List Points :=
  (if 1 ≤ tile.x then [points (tile.x - 1) tile.y] else []) ++
  (if tile.x < layers.tileWidth.toNat - 1 then [points (tile.x + 1) tile.y]
    else []) ++
  (if 1 ≤ tile.y then [points tile.x (tile.y - 1)] else []) ++
  (if tile.y < layers.tileHeight.toNat - 1 then [points tile.x (tile.y + 1)]
    else [])

def Filling.fill (state : Filling) (tile : Points) (rest : List Points)
    (changed : Layers × List TileChange) : Filling where
  layers := changed.1
  tileChanges := changed.2
  tilesProcessed := tile :: state.tilesProcessed
  tilesToProcess := ((neighbors changed.1 tile).filter fun other =>
    other ∉ tile :: state.tilesProcessed).reverse ++ rest

def fillPass (filledTileValue pasteTileValue : UInt16) (state : Filling) :
    Loop.Control Filling TilesChanged :=
  match state.tilesToProcess with
  | [] => .done (.ok (state.layers, state.tileChanges))
  | tile :: rest =>
      match getTile state.layers (sizeT tile.x) (sizeT tile.y) with
      | .error fault => .done (.error fault)
      | .ok tileValue =>
          if tileValue = filledTileValue then
            match changeTile tile.x tile.y pasteTileValue (state.layers, state.tileChanges) with
            | .error fault => .done (.error fault)
            | .ok changed => .next (state.fill tile rest changed)
          else
            .next { state with
              tilesProcessed := tile :: state.tilesProcessed
              tilesToProcess := rest }

def fillFrom (xc yc : ℤ) (filledTileValue pasteTileValue : UInt16)
    (layers : Layers) : TilesChanged :=
  (Loop.run (fillPass filledTileValue pasteTileValue)
    (4 * layers.mtxm.length + 2) ⟨layers, [], [], [points xc yc]⟩).getD
    (.error (.hazard .endlessLoop))

def fillTiles (mapClickX mapClickY : ℤ) (tile : PasteTileNode) (layers : Layers) : TilesChanged :=
  let (xc, yc) := landing mapClickX mapClickY tile
  if OnMap layers xc yc then do
    let filledTileValue ← getTile layers (sizeT xc) (sizeT yc)
    if filledTileValue ≠ tile.value then
      fillFrom xc yc filledTileValue tile.value layers
    else
      .ok (layers, [])
  else
    .ok (layers, [])

namespace Clipboard

/-- What `prevPaste` is set to by a paste. -/
def pasteCell (mapClickX mapClickY : ℤ) : ℤ × ℤ :=
  ((mapClickX + 16).tdiv 16, (mapClickY + 16).tdiv 16)

/-- Record the changes of a paste as one group. -/
def grouped (changed : TilesChanged) : TerrainEdited := do
  let (layers, tileChanges) ← changed
  return (layers, [.actions (.make tileChanges)])

/-- `Clipboard::fillPasteTerrain`.  A click in the cell of the previous paste is
ignored; the tiles that are filled make one undo entry. -/
def fillPasteTerrain (clipboard : Clipboard) (mapClickX mapClickY : ℤ)
    (layers : Layers) : TerrainEdited :=
  if pasteCell mapClickX mapClickY = clipboard.prevPaste then
    .ok (layers, [])
  else
    match clipboard.tiles with
    | [tile] => grouped (fillTiles mapClickX mapClickY tile layers)
    | _ => grouped (.ok (layers, []))

/-- `Clipboard::pasteTerrain`, which hands a single tile over if similar tiles are
to be filled. -/
def pasteTerrain (clipboard : Clipboard) (mapClickX mapClickY : ℤ)
    (layers : Layers) : TerrainEdited :=
  if clipboard.fillSimilarTiles ∧ clipboard.tiles.length = 1 then
    clipboard.fillPasteTerrain mapClickX mapClickY layers
  else if pasteCell mapClickX mapClickY = clipboard.prevPaste then
    .ok (layers, [])
  else
    grouped (clipboard.tiles.foldlM (pasteTile mapClickX mapClickY) (layers, []))

end Clipboard

inductive TerrainEdit where
  | setTile (x y : ℤ) (tileNum : UInt16)
  | deleteSelection (selTiles : List (UInt16 × UInt16))
  | pasteTerrain (clipboard : Clipboard) (mapClickX mapClickY : ℤ)
  | fillPasteTerrain (clipboard : Clipboard) (mapClickX mapClickY : ℤ)

/-- The map with an action on the undo stack. -/
def recordTiles (map : GuiMap reversibles) (undo : Reversible TileChange) : GuiMap reversibles :=
  @GuiMap.addUndo _ _ reversibles _ _ map .tileChange undo

namespace TerrainEdit

def change (layers : Layers) : TerrainEdit → TerrainEdited
  | setTile x y tileNum => guiSetTile x y tileNum layers
  | deleteSelection selTiles => deleteTiles selTiles layers
  | pasteTerrain clipboard mapClickX mapClickY =>
      clipboard.pasteTerrain mapClickX mapClickY layers
  | fillPasteTerrain clipboard mapClickX mapClickY =>
      clipboard.fillPasteTerrain mapClickX mapClickY layers

/-- The map after an edit, with what it recorded on the undo stack. -/
def perform (edit : TerrainEdit) (map : GuiMap reversibles) :
    Except (Fault Exception) (GuiMap reversibles) := do
  let (layers, undos) ← edit.change (map.content .tileChange)
  return undos.foldl recordTiles (map.setContent .tileChange layers)

end TerrainEdit

end Chkdraft.Editor
