import Chkdraft.Editor.LocationActions
import Chkdraft.Scenario.MapSize

/-!
# The actions of a map

Each undo type has its part of the map: the tiles, the units, and the locations
with the strings that name them.
-/

namespace Chkdraft.Editor

open Chk Scenario Sections Undo

/-- `TileChange`. -/
structure TileChange where
  xc : UInt16
  yc : UInt16
  tileValue : UInt16
deriving DecidableEq, Repr

/-- The place of a tile in the sections with tiles; a `size_t` wraps around. -/
def tileIndex (layers : Layers) (xc yc : ℕ) : ℕ := (yc * layers.tileWidth.toNat + xc) % 2 ^ 64

/-- `Terrain::getTile` in its default scope, the game. -/
def getTile (layers : Layers) (xc yc : ℕ) : Except (Fault Exception) UInt16 :=
  match layers.mtxm[tileIndex layers xc yc]? with
  | some tileValue => .ok tileValue
  | none => .error (.thrown .outOfRange)

/-- `Terrain::setTile` in its default scope, the game and the editor. -/
def setTile (layers : Layers) (xc yc : ℕ) (tileValue : UInt16) : Except (Fault Exception) Layers :=
  let index := tileIndex layers xc yc
  if index < layers.mtxm.length ∧ index < layers.tile.length then
    .ok { layers with
      mtxm := layers.mtxm.set index tileValue
      tile := layers.tile.set index tileValue }
  else
    .error (.thrown .outOfRange)

def TileChange.reverse (change : TileChange) (layers : Layers) :
    Except (Fault Exception) (Layers × TileChange) := do
  let replacedValue ← getTile layers change.xc.toNat change.yc.toNat
  let layers ← setTile layers change.xc.toNat change.yc.toNat change.tileValue
  return (layers, { change with tileValue := replacedValue })

inductive UndoTypes where
  | tileChange | unitChange | locationChange
deriving DecidableEq, Repr

instance : Fintype UndoTypes where
  elems := {.tileChange, .unitChange, .locationChange}
  complete type := by cases type <;> decide

def reversibles : Reversibles UndoTypes (Fault Exception) where
  Content
    | .tileChange => Layers
    | .unitChange => List Chk.Unit
    | .locationChange => LoadedScenario
  Action
    | .tileChange => Reversible TileChange
    | .unitChange => Reversible UnitAction
    | .locationChange => Reversible LocationAction
  count {type} :=
    match type with
    | .tileChange => Reversible.count
    | .unitChange => Reversible.count
    | .locationChange => Reversible.count
  reverse
    | .tileChange => Reversible.reverse TileChange.reverse
    | .unitChange => Reversible.reverse UnitAction.reverse
    | .locationChange => Reversible.reverse LocationAction.reverse

/-- Groups are taken back action by action. -/
def mapSwappings : Swappings reversibles
  | .tileChange => Reversible.swapping (exactly TileChange.reverse)
  | .unitChange => Reversible.swapping unitSwaps
  | .locationChange => Reversible.swapping (exactly LocationAction.reverse)

/-- A map with one tile, some units and no location. -/
def smallMap (units : List Chk.Unit) : (type : UndoTypes) → reversibles.Content type
  | .tileChange => newLayers 1 1
  | .unitChange => units
  | .locationChange => bareScenario [] []

end Chkdraft.Editor
