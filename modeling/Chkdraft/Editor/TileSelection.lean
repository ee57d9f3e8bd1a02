import Chkdraft.Editor.TerrainEdits

/-!
# The selected tiles

Each selected tile carries a bit for every side on which a border is drawn.
Adding or removing a tile changes the bits of the tiles next to it; a tile that
is added a second time is removed, after some of its neighbours were told that
it was added.
-/

namespace Chkdraft.Editor

open Chk Scenario

variable {xc yc : UInt16} {neighbors : UInt8}

inductive TileNeighbor where
  | left | top | right | bottom
deriving DecidableEq, Repr

namespace TileNeighbor

def bit : TileNeighbor → UInt8
  | .left => 0x1
  | .top => 0x2
  | .right => 0x4
  | .bottom => 0x8

/-- `xLeft`, `xTop`, `xRight` and `xBottom`. -/
def unset : TileNeighbor → UInt8
  | .left => 0xFE
  | .top => 0xFD
  | .right => 0xFB
  | .bottom => 0xF7

/-- `TileNeighbor::All`. -/
def all : UInt8 :=
  left.bit ||| top.bit ||| right.bit ||| bottom.bit

/-- `TileNeighbor::None`. -/
def none : UInt8 := 0

def opposite : TileNeighbor → TileNeighbor
  | .left => .right
  | .top => .bottom
  | .right => .left
  | .bottom => .top

def next : TileNeighbor → ℤ × ℤ → ℤ × ℤ
  | .left, (x, y) => (x - 1, y)
  | .top, (x, y) => (x, y - 1)
  | .right, (x, y) => (x + 1, y)
  | .bottom, (x, y) => (x, y + 1)

theorem next_opposite (side : TileNeighbor) (place other : ℤ × ℤ) :
    side.opposite.next place = other ↔ side.next other = place := by
  cases side <;> simp only [opposite, next, Prod.ext_iff] <;> omega

theorem next_ne (side : TileNeighbor) (place : ℤ × ℤ) : side.next place ≠ place := by
  cases side <;> simp [next, Prod.ext_iff]

theorem bit_and_bit (side other : TileNeighbor) : side.bit &&& other.bit ≠ 0 ↔ side = other := by
  cases side <;> cases other <;> decide

theorem all_and_bit (side : TileNeighbor) : all &&& side.bit ≠ 0 := by
  cases side <;> decide

theorem unset_and_bit (side other : TileNeighbor) :
    side.unset &&& other.bit = if side = other then 0 else other.bit := by
  cases side <;> cases other <;> rfl

theorem or_bit_and_bit (neighbors : UInt8) (side other : TileNeighbor) :
    (neighbors ||| side.bit) &&& other.bit ≠ 0 ↔ neighbors &&& other.bit ≠ 0 ∨ side = other := by
  have hor : (neighbors ||| side.bit) &&& other.bit =
      (neighbors &&& other.bit) ||| (side.bit &&& other.bit) :=
    UInt8.toBitVec_inj.mp BitVec.and_or_distrib_right
  rw [hor, ne_eq, UInt8.or_eq_zero_iff, ← bit_and_bit side, not_and_or]

theorem and_unset_and_bit (neighbors : UInt8) (side other : TileNeighbor) :
    (neighbors &&& side.unset) &&& other.bit ≠ 0 ↔ neighbors &&& other.bit ≠ 0 ∧ side ≠ other := by
  rw [UInt8.and_assoc, unset_and_bit]
  split <;> simp [*]

end TileNeighbor

structure TileNode where
  value : UInt16
  xc : UInt16
  yc : UInt16
  neighbors : UInt8
deriving DecidableEq, Repr

/-- Coordinates as integers, which have a coordinate on every side. -/
def placeOf (xc yc : UInt16) : ℤ × ℤ := (xc.toNat, yc.toNat)

theorem placeOf_inj {otherXc otherYc : UInt16} :
    placeOf xc yc = placeOf otherXc otherYc ↔ xc = otherXc ∧ yc = otherYc := by
  simp only [placeOf, Prod.ext_iff, Nat.cast_inj, UInt16.toNat_inj]

variable {tile : TileNode} {side : TileNeighbor}

namespace TileNode

def place (tile : TileNode) : ℤ × ℤ := placeOf tile.xc tile.yc

def Bordered (tile : TileNode) (side : TileNeighbor) : Prop := tile.neighbors &&& side.bit ≠ 0

instance (tile : TileNode) (side : TileNeighbor) : Decidable (tile.Bordered side) :=
  inferInstanceAs (Decidable (_ ≠ _))

/-- The side on which a tile touches the coordinates. -/
def sideAt (tile : TileNode) (xc yc : UInt16) : Option TileNeighbor :=
  if tile.yc = yc then
    if (tile.xc.toNat : ℤ) = xc.toNat - 1 then some .right
    else if (tile.xc.toNat : ℤ) = xc.toNat + 1 then some .left
    else none
  else if tile.xc = xc then
    if (tile.yc.toNat : ℤ) = yc.toNat - 1 then some .bottom
    else if (tile.yc.toNat : ℤ) = yc.toNat + 1 then some .top
    else none
  else
    none

theorem sideAt_eq_some_iff :
    tile.sideAt xc yc = some side ↔ side.next tile.place = placeOf xc yc := by
  have hxc : tile.xc = xc ↔ tile.xc.toNat = xc.toNat := UInt16.toNat_inj.symm
  have hyc : tile.yc = yc ↔ tile.yc.toNat = yc.toNat := UInt16.toNat_inj.symm
  simp only [sideAt, place, placeOf, hxc, hyc]
  cases side <;> simp only [TileNeighbor.next, Prod.mk.injEq] <;> grind

def withBorder (tile : TileNode) (side : TileNeighbor) : TileNode :=
  { tile with neighbors := tile.neighbors ||| side.bit }

def withoutBorder (tile : TileNode) (side : TileNeighbor) : TileNode :=
  { tile with neighbors := tile.neighbors &&& side.unset }

/-- What removing the tile at the coordinates does to a selected tile. -/
def apart (xc yc : UInt16) (tile : TileNode) : TileNode :=
  match tile.sideAt xc yc with
  | some side => tile.withBorder side
  | none => tile

/-- What adding a tile at the coordinates does to a selected tile. -/
def beside (xc yc : UInt16) (tile : TileNode) : TileNode :=
  match tile.sideAt xc yc with
  | some side => tile.withoutBorder side
  | none => tile

@[simp]
theorem place_apart (xc yc : UInt16) (tile : TileNode) : (tile.apart xc yc).place = tile.place := by
  rw [apart]
  split <;> rfl

@[simp]
theorem place_beside (xc yc : UInt16) (tile : TileNode) :
    (tile.beside xc yc).place = tile.place := by
  rw [beside]
  split <;> rfl

theorem bordered_apart : (tile.apart xc yc).Bordered side ↔
      tile.Bordered side ∨ side.next tile.place = placeOf xc yc := by
  rw [← sideAt_eq_some_iff, apart]
  cases hside : tile.sideAt xc yc with
  | none => simp
  | some other =>
      rw [Option.some.injEq]
      exact TileNeighbor.or_bit_and_bit tile.neighbors other side

theorem bordered_beside : (tile.beside xc yc).Bordered side ↔
      tile.Bordered side ∧ side.next tile.place ≠ placeOf xc yc := by
  rw [ne_eq, ← sideAt_eq_some_iff, beside]
  cases hside : tile.sideAt xc yc with
  | none => simp
  | some other =>
      rw [Option.some.injEq]
      exact TileNeighbor.and_unset_and_bit tile.neighbors other side

end TileNode

/-- `selTiles`. -/
abbrev TileSelection : Type := List TileNode

namespace TileSelection

/-- `Selections::removeTile`.  The tiles around the removed one get a border on
its side. -/
def removeTile (selTiles : TileSelection) (xc yc : UInt16) : TileSelection :=
  -- `toRemove` is the last tile with the coordinates.
  ((selTiles.map (TileNode.apart xc yc)).reverse.eraseP fun tile =>
    tile.xc = xc ∧ tile.yc = yc).reverse

/-- The loop of `addTile`, which has passed some tiles. -/
def addTileFrom (tile : TileNode) (passed : TileSelection) : List TileNode → TileSelection
  | [] => passed ++ [tile]
  | selTile :: rest =>
      if selTile.yc = tile.yc ∧ selTile.xc = tile.xc then
        removeTile (passed ++ selTile :: rest) tile.xc tile.yc
      else
        match selTile.sideAt tile.xc tile.yc with
        | some side =>
            addTileFrom (tile.withoutBorder side.opposite)
              (passed ++ [selTile.withoutBorder side]) rest
        | none => addTileFrom tile (passed ++ [selTile]) rest

/-- `Selections::addTile`.  A tile that is selected already is removed; else
borders between the new tile and its neighbors go away on both sides. -/
def addTile (selTiles : TileSelection) (value xc yc : UInt16) : TileSelection :=
  addTileFrom ⟨value, xc, yc, TileNeighbor.all⟩ [] selTiles

/-- `addTile` with the neighbors given. -/
def addTileWith (selTiles : TileSelection) (value xc yc : UInt16)
    (neighbors : UInt8) : TileSelection :=
  selTiles ++ [⟨value, xc, yc, neighbors⟩]

def removeTiles (_ : TileSelection) : TileSelection := []

def places (selTiles : TileSelection) : List (ℤ × ℤ) := selTiles.map TileNode.place

end TileSelection

open TileSelection

/-- No tile is selected twice, and borders are drawn where the selection ends. -/
def Outlined (selTiles : TileSelection) : Prop :=
  selTiles.places.Nodup ∧ ∀ tile ∈ selTiles, ∀ side : TileNeighbor,
      tile.Bordered side ↔ side.next tile.place ∉ selTiles.places

/-- An outline that may be wrong on the sides that face a place. -/
def OutlinedBut (place : ℤ × ℤ) (selTiles : TileSelection) : Prop :=
  selTiles.places.Nodup ∧ ∀ tile ∈ selTiles, ∀ side : TileNeighbor, side.next tile.place ≠ place →
      (tile.Bordered side ↔ side.next tile.place ∉ selTiles.places)

theorem Outlined.but {selTiles : TileSelection} (houtlined : Outlined selTiles)
    (place : ℤ × ℤ) : OutlinedBut place selTiles :=
  ⟨houtlined.1, fun tile htile side _ => houtlined.2 tile htile side⟩

section OutlinedBut

variable {place : ℤ × ℤ} {selTile : TileNode} {passed rest : TileSelection}

theorem OutlinedBut.replace {other : TileNode}
    (houtlined : OutlinedBut place (passed ++ selTile :: rest))
    (hplace : other.place = selTile.place)
    (hborders : ∀ side : TileNeighbor, side.next selTile.place ≠ place →
      (other.Bordered side ↔ selTile.Bordered side)) :
    OutlinedBut place (passed ++ other :: rest) := by
  have hplaces : places (passed ++ other :: rest) = places (passed ++ selTile :: rest) := by
    simp only [places, List.map_append, List.map_cons, hplace]
  obtain ⟨hnodup, hsides⟩ := houtlined
  refine ⟨hplaces ▸ hnodup, fun tile htile side hside => ?_⟩
  rw [hplaces]
  rcases List.mem_append.mp htile with hpassed | hrest
  · exact hsides tile (List.mem_append_left _ hpassed) side hside
  · rcases List.mem_cons.mp hrest with rfl | hrest
    · rw [hplace] at hside ⊢
      rw [hborders side hside]
      exact hsides selTile (by simp) side hside
    · exact hsides tile (by simp [hrest]) side hside

end OutlinedBut

theorem eraseP_eq_filter {A : Type} {found : A → Bool} {items : List A}
    (honly : items.Pairwise fun first second =>
      ¬ (found first = true ∧ found second = true)) :
    items.eraseP found = items.filter (!found ·) := by
  induction honly with
  | nil => rfl
  | @cons item rest hothers _ ih =>
      cases hitem : found item with
      | true =>
          have hrest : ∀ other ∈ rest, (!found other) = true := by
            intro other hother
            simpa [hitem] using hothers other hother
          rw [List.eraseP_cons_of_pos hitem, List.filter_cons_of_neg (by simp [hitem]),
            List.filter_eq_self.mpr hrest]
      | false =>
          rw [List.eraseP_cons_of_neg (by simp [hitem]),
            List.filter_cons_of_pos (by simp [hitem]), ih]

section Removing

variable {selTiles : TileSelection} {xc yc : UInt16}

theorem removeTile_eq (hnodup : selTiles.places.Nodup) : removeTile selTiles xc yc =
      (selTiles.filter fun tile => tile.place ≠ placeOf xc yc).map (TileNode.apart xc yc) := by
  have hat (tile : TileNode) : tile.xc = xc ∧ tile.yc = yc ↔ tile.place = placeOf xc yc :=
    placeOf_inj.symm
  have honly : (selTiles.map (TileNode.apart xc yc)).reverse.Pairwise
      fun first second => ¬ (decide (first.place = placeOf xc yc) = true ∧
        decide (second.place = placeOf xc yc) = true) := by
    rw [List.pairwise_reverse, List.pairwise_map]
    apply (List.pairwise_map.mp hnodup).imp
    intro first second hne
    simp only [TileNode.place_apart, decide_eq_true_eq, not_and]
    exact fun hsecond hfirst => hne (hfirst.trans hsecond.symm)
  simp only [removeTile, hat]
  rw [eraseP_eq_filter honly, List.filter_reverse, List.reverse_reverse, List.filter_map]
  congr 2
  funext tile
  simp

theorem places_removeTile (hnodup : selTiles.places.Nodup) (xc yc : UInt16) :
    (removeTile selTiles xc yc).places = selTiles.places.filter (· ≠ placeOf xc yc) := by
  rw [removeTile_eq hnodup, places, places, List.map_map, List.filter_map]
  congr 1
  funext tile
  exact TileNode.place_apart xc yc tile

theorem outlined_removeTile (houtlined : OutlinedBut (placeOf xc yc) selTiles) :
    Outlined (removeTile selTiles xc yc) := by
  obtain ⟨hnodup, hsides⟩ := houtlined
  have hplaces := places_removeTile hnodup xc yc
  refine ⟨hplaces ▸ hnodup.filter _, fun tile htile side => ?_⟩
  rw [removeTile_eq hnodup] at htile
  obtain ⟨old, hold, rfl⟩ := List.mem_map.mp htile
  have hmem := List.mem_of_mem_filter hold
  rw [TileNode.bordered_apart, TileNode.place_apart, hplaces, List.mem_filter, decide_eq_true_eq]
  by_cases hfacing : side.next old.place = placeOf xc yc
  · simp [hfacing]
  · simp [hfacing, hsides old hmem side hfacing]

end Removing

section Adding

variable {tile selTile : TileNode} {passed rest : TileSelection}

theorem sideAt_comm (tile other : TileNode) (side : TileNeighbor) :
    other.sideAt tile.xc tile.yc = some side ↔
      tile.sideAt other.xc other.yc = some side.opposite := by
  rw [TileNode.sideAt_eq_some_iff, TileNode.sideAt_eq_some_iff, TileNeighbor.next_opposite]
  rfl

theorem addTileFrom_cons (hne : selTile.place ≠ tile.place) :
    addTileFrom tile passed (selTile :: rest) = addTileFrom (tile.beside selTile.xc selTile.yc)
        (passed ++ [selTile.beside tile.xc tile.yc]) rest := by
  have hdifferent : ¬ (selTile.yc = tile.yc ∧ selTile.xc = tile.xc) :=
    fun hsame => hne (placeOf_inj.mpr hsame.symm)
  rw [addTileFrom, if_neg hdifferent, TileNode.beside, TileNode.beside]
  cases hside : selTile.sideAt tile.xc tile.yc with
  | some side => rw [(sideAt_comm tile selTile side).mp hside]
  | none =>
      cases hother : tile.sideAt selTile.xc selTile.yc with
      | none => rfl
      | some side =>
          rw [(sideAt_comm selTile tile side).mp hother] at hside
          nomatch hside

theorem outlined_addTileFrom_of_mem (houtlined : OutlinedBut tile.place (passed ++ rest))
    (hmem : tile.place ∈ places rest) :
    Outlined (addTileFrom tile passed rest) := by
  induction rest generalizing tile passed with
  | nil => nomatch hmem
  | cons selTile rest ih =>
      by_cases hsame : selTile.place = tile.place
      · obtain ⟨hxc, hyc⟩ := placeOf_inj.mp hsame
        rw [addTileFrom, if_pos ⟨hyc, hxc⟩]
        exact outlined_removeTile houtlined
      · rw [addTileFrom_cons hsame]
        have hrest : tile.place ∈ places rest :=
          (List.mem_cons.mp hmem).resolve_left fun heq => hsame heq.symm
        apply ih
        · rw [TileNode.place_beside, List.append_assoc, List.singleton_append]
          apply houtlined.replace (TileNode.place_beside _ _ _)
          intro side hside
          rw [TileNode.bordered_beside]
          exact and_iff_left hside
        · rwa [TileNode.place_beside]

theorem addTileFrom_of_not_mem (passed : TileSelection) (habsent : tile.place ∉ places rest) :
    ∃ added, added.place = tile.place ∧ (∀ side, added.Bordered side ↔
        tile.Bordered side ∧ side.next tile.place ∉ places rest) ∧
      addTileFrom tile passed rest =
        passed ++ rest.map (TileNode.beside tile.xc tile.yc) ++ [added] := by
  induction rest generalizing tile passed with
  | nil => exact ⟨tile, rfl, fun side => by simp [places], by simp [addTileFrom]⟩
  | cons selTile rest ih =>
      have hne : selTile.place ≠ tile.place := fun heq =>
        habsent (heq ▸ List.mem_cons_self)
      have hrest : (tile.beside selTile.xc selTile.yc).place ∉ places rest := by
        rw [TileNode.place_beside]
        exact fun hmem => habsent (List.mem_cons_of_mem _ hmem)
      obtain ⟨added, hplace, hborders, heq⟩ := ih (passed ++ [selTile.beside tile.xc tile.yc]) hrest
      rw [TileNode.place_beside] at hplace hborders
      have hcoordinates := placeOf_inj.mp (TileNode.place_beside selTile.xc selTile.yc tile)
      refine ⟨added, hplace, fun side => ?_, ?_⟩
      · rw [hborders, TileNode.bordered_beside, and_assoc]
        simp only [places, List.map_cons, List.mem_cons, not_or]
        rfl
      · rw [addTileFrom_cons hne, heq, hcoordinates.1, hcoordinates.2]
        simp

theorem outlined_addTile {selTiles : TileSelection}
    (houtlined : Outlined selTiles) (value xc yc : UInt16) :
    Outlined (selTiles.addTile value xc yc) := by
  by_cases hmem : placeOf xc yc ∈ selTiles.places
  · exact outlined_addTileFrom_of_mem (houtlined.but _) hmem
  · have hadd : TileNode.place ⟨value, xc, yc, TileNeighbor.all⟩ ∉
        selTiles.places := hmem
    obtain ⟨added, hplace, hborders, heq⟩ := addTileFrom_of_not_mem [] hadd
    rw [addTile, heq, List.nil_append]
    change added.place = placeOf xc yc at hplace
    have hplaces : places (selTiles.map (TileNode.beside xc yc) ++ [added]) =
        selTiles.places ++ [placeOf xc yc] := by
      simp only [places, List.map_append, List.map_map, List.map_cons, List.map_nil, hplace]
      congr 2
      funext tile
      exact TileNode.place_beside xc yc tile
    constructor
    · rw [hplaces]
      exact houtlined.1.append (List.nodup_singleton _) (List.disjoint_singleton.mpr hmem)
    · intro tile htile side
      rw [hplaces, List.mem_append, List.mem_singleton]
      rcases List.mem_append.mp htile with hold | hnew
      · obtain ⟨before, hbefore, rfl⟩ := List.mem_map.mp hold
        rw [TileNode.bordered_beside, TileNode.place_beside, not_or,
          houtlined.2 before hbefore side]
      · obtain rfl := List.mem_singleton.mp hnew
        rw [hborders, hplace, not_or]
        have hall := TileNeighbor.all_and_bit side
        have hnext := side.next_ne (placeOf xc yc)
        constructor
        · exact fun h => ⟨h.2, hnext⟩
        · exact fun h => ⟨hall, h.1⟩

end Adding

/-- A call that changes the selected tiles. -/
inductive TileCommand where
  | addTile (value xc yc : UInt16)
  | removeTile (xc yc : UInt16)
  | removeTiles

def TileCommand.apply (selTiles : TileSelection) : TileCommand → TileSelection
  | .addTile value xc yc => selTiles.addTile value xc yc
  | .removeTile xc yc => selTiles.removeTile xc yc
  | .removeTiles => selTiles.removeTiles

theorem TileCommand.outlined {selTiles : TileSelection}
    (houtlined : Outlined selTiles) (command : TileCommand) :
    Outlined (command.apply selTiles) := by
  cases command with
  | addTile value xc yc => exact outlined_addTile houtlined value xc yc
  | removeTile xc yc => exact outlined_removeTile (houtlined.but _)
  | removeTiles => exact ⟨List.nodup_nil, fun tile htile => nomatch htile⟩

/-- From an empty selection on, borders are drawn exactly where the selection
ends. -/
theorem outlined_tileCommands (commands : List TileCommand) :
    Outlined (commands.foldl TileCommand.apply []) := by
  have hrun {selTiles : TileSelection} (houtlined : Outlined selTiles) :
      Outlined (commands.foldl TileCommand.apply selTiles) := by
    induction commands generalizing selTiles with
    | nil => exact houtlined
    | cons command rest ih => exact ih (command.outlined houtlined)
  exact hrun ⟨List.nodup_nil, fun tile htile => nomatch htile⟩

/-- A tile of the map, added with the neighbors given. -/
def selectTile (layers : Layers) (neighbors : UInt8) (selTiles : TileSelection)
    (xc yc : ℤ) : Except (Fault Exception) TileSelection := do
  let tileValue ← getTile layers (sizeT xc) (sizeT yc)
  return selTiles.addTileWith tileValue (UInt16.ofInt xc) (UInt16.ofInt yc) neighbors

/-- A row between the top and the bottom one. -/
def selectMiddleRow (layers : Layers) (selTiles : TileSelection) (y : ℕ) :
    Except (Fault Exception) TileSelection := do
  let width := layers.tileWidth.toNat
  let selTiles ← selectTile layers TileNeighbor.left.bit selTiles 0 y
  let selTiles ← (List.range' 1 (width - 2)).foldlM (fun selTiles (x : ℕ) =>
      selectTile layers TileNeighbor.none selTiles x y)
    selTiles
  selectTile layers TileNeighbor.right.bit selTiles (width - 1) y

/-- `GuiMap::selectAll` on the terrain layer, which removes the tiles selected
before. -/
def selectAllTiles (layers : Layers) : Except (Fault Exception) TileSelection := do
  let width := layers.tileWidth.toNat
  let height := layers.tileHeight.toNat
  let selTiles ← (List.range width).foldlM (fun selTiles (x : ℕ) =>
      selectTile layers TileNeighbor.top.bit selTiles x 0) []
  -- The first of the middle rows is the top row again.
  let selTiles ← (List.range (height - 1)).foldlM (selectMiddleRow layers) selTiles
  let selTiles ← selectTile layers
    (TileNeighbor.left.bit ||| TileNeighbor.bottom.bit) selTiles 0 (height - 1)
  let selTiles ← (List.range' 1 (width - 2)).foldlM (fun selTiles (x : ℕ) =>
      selectTile layers TileNeighbor.bottom.bit selTiles x (height - 1))
    selTiles
  selectTile layers (TileNeighbor.right.bit ||| TileNeighbor.bottom.bit)
    selTiles (width - 1) (height - 1)

/-- Every tile of the map is selected once, with its value and with borders
where the map ends. -/
def SelectsAll (layers : Layers) (selTiles : TileSelection) : Prop :=
  selTiles.places.Nodup ∧ (∀ x y : ℤ, (x, y) ∈ selTiles.places ↔ OnMap layers x y) ∧
    ∀ tile ∈ selTiles, getTile layers tile.xc.toNat tile.yc.toNat = .ok tile.value ∧
        ∀ side : TileNeighbor, tile.Bordered side ↔
          ¬ OnMap layers (side.next tile.place).1 (side.next tile.place).2

section SelectAll

variable {layers : Layers} {selTiles after : TileSelection}

theorem selectTile_eq_ok {xc yc : ℤ}
    (hafter : selectTile layers neighbors selTiles xc yc = .ok after) :
    after.places = selTiles.places ++ [placeOf (UInt16.ofInt xc) (UInt16.ofInt yc)] := by
  obtain ⟨tileValue, -, hadded⟩ := Fault.bind_eq_ok_iff.mp hafter
  cases hadded
  simp only [places, addTileWith, List.map_append]
  rfl

theorem selectTile_grows {xc yc : ℤ}
    (hafter : selectTile layers neighbors selTiles xc yc = .ok after) :
    selTiles.places <+: after.places :=
  ⟨_, (selectTile_eq_ok hafter).symm⟩

theorem selectTile_twice {xc yc : ℤ}
    (hmem : placeOf (UInt16.ofInt xc) (UInt16.ofInt yc) ∈ selTiles.places)
    (hafter : selectTile layers neighbors selTiles xc yc = .ok after) :
    ¬ after.places.Nodup := by
  rw [selectTile_eq_ok hafter]
  intro hnodup
  exact List.disjoint_of_nodup_append hnodup hmem (List.mem_singleton_self _)

theorem foldlM_grows {step : TileSelection → ℕ → Except (Fault Exception) TileSelection}
    (hstep : ∀ {selTiles after : TileSelection} {item : ℕ},
      step selTiles item = .ok after → selTiles.places <+: after.places)
    {items : List ℕ} (hafter : items.foldlM step selTiles = .ok after) :
    selTiles.places <+: after.places := by
  refine Fault.foldlM_invariant (fun now => selTiles.places <+: now.places)
    List.prefix_rfl ?_ hafter
  intro now item following _ hnow hfollowing
  exact hnow.trans (hstep hfollowing)

theorem selectMiddleRow_grows {y : ℕ} (hafter : selectMiddleRow layers selTiles y = .ok after) :
    selTiles.places <+: after.places := by
  obtain ⟨left, hleft, hrest⟩ := Fault.bind_eq_ok_iff.mp hafter
  obtain ⟨middle, hmiddle, hright⟩ := Fault.bind_eq_ok_iff.mp hrest
  calc selTiles.places <+: left.places := selectTile_grows hleft
    _ <+: middle.places := foldlM_grows selectTile_grows hmiddle
    _ <+: after.places := selectTile_grows hright

end SelectAll

/-- The tile at the origin is selected twice, on a map of any size. -/
theorem not_selectsAll (layers : Layers) (hwidth : 1 ≤ layers.tileWidth)
    (hheight : 1 ≤ layers.tileHeight) :
    ¬ ∃ selTiles, selectAllTiles layers = .ok selTiles ∧ SelectsAll layers selTiles := by
  rintro ⟨selTiles, hselected, hnodup, -⟩
  obtain ⟨top, htop, hrest⟩ := Fault.bind_eq_ok_iff.mp hselected
  obtain ⟨middle, hmiddle, hrest⟩ := Fault.bind_eq_ok_iff.mp hrest
  obtain ⟨left, hleft, hrest⟩ := Fault.bind_eq_ok_iff.mp hrest
  obtain ⟨bottom, hbottom, hright⟩ := Fault.bind_eq_ok_iff.mp hrest
  have hend : left.places <+: selTiles.places :=
    (foldlM_grows selectTile_grows hbottom).trans (selectTile_grows hright)
  have hleftNodup : left.places.Nodup := hnodup.sublist hend.sublist
  obtain ⟨width, hwidth⟩ := Nat.exists_eq_add_of_le' (UInt16.le_iff_toNat_le.mp hwidth)
  obtain ⟨height, hheight⟩ := Nat.exists_eq_add_of_le' (UInt16.le_iff_toNat_le.mp hheight)
  rw [UInt16.toNat_one] at hwidth hheight
  have horigin : placeOf 0 0 ∈ top.places := by
    rw [hwidth, List.range_succ_eq_map, List.foldlM_cons] at htop
    obtain ⟨first, hfirst, htop⟩ := Fault.bind_eq_ok_iff.mp htop
    apply (foldlM_grows selectTile_grows htop).subset
    rw [selectTile_eq_ok hfirst]
    exact List.mem_append_right _ (List.mem_singleton_self _)
  rw [hheight] at hmiddle hleft
  cases height with
  | zero =>
      -- The bottom row is the top row.
      cases hmiddle
      exact selectTile_twice horigin hleft hleftNodup
  | succ height =>
      rw [Nat.add_sub_cancel, List.range_succ_eq_map, List.foldlM_cons] at hmiddle
      obtain ⟨row, hrow, hmiddle⟩ := Fault.bind_eq_ok_iff.mp hmiddle
      obtain ⟨first, hfirst, hrow⟩ := Fault.bind_eq_ok_iff.mp hrow
      obtain ⟨others, hothers, hlast⟩ := Fault.bind_eq_ok_iff.mp hrow
      have hgrows : first.places <+: left.places :=
        calc first.places <+: others.places := foldlM_grows selectTile_grows hothers
          _ <+: row.places := selectTile_grows hlast
          _ <+: middle.places := foldlM_grows selectMiddleRow_grows hmiddle
          _ <+: left.places := selectTile_grows hleft
      exact selectTile_twice horigin hfirst (hleftNodup.sublist hgrows.sublist)

theorem not_selectsAll_six : ¬ ∃ selTiles, selectAllTiles (newLayers 3 2) = .ok selTiles ∧
      SelectsAll (newLayers 3 2) selTiles :=
  not_selectsAll (newLayers 3 2) (by decide) (by decide)

theorem selectAllTiles_four : selectAllTiles (newLayers 2 2) = .ok
        [⟨0, 0, 0, 2⟩, ⟨0, 1, 0, 2⟩, ⟨0, 0, 0, 1⟩, ⟨0, 1, 0, 4⟩, ⟨0, 0, 1, 9⟩, ⟨0, 1, 1, 12⟩] ∧
      ¬ ∃ selTiles, selectAllTiles (newLayers 2 2) = .ok selTiles ∧
        SelectsAll (newLayers 2 2) selTiles := by
  have hselected : selectAllTiles (newLayers 2 2) = .ok
      [⟨0, 0, 0, 2⟩, ⟨0, 1, 0, 2⟩, ⟨0, 0, 0, 1⟩, ⟨0, 1, 0, 4⟩, ⟨0, 0, 1, 9⟩, ⟨0, 1, 1, 12⟩] := rfl
  refine ⟨hselected, ?_⟩
  rintro ⟨selTiles, hother, hnodup, -⟩
  rw [hselected] at hother
  cases hother
  exact absurd hnodup (by decide)

end Chkdraft.Editor
