import Chkdraft.Editor.MapActions

/-!
# Commands on locations

Dragging in the location layer creates, moves or resizes a location, depending on
what was grabbed, and the delete key deletes the selected one.  Coordinates are
the bits of the fields of `Chk::Location`, and wrap around.
-/

namespace Chkdraft.Editor

open Chk Scenario Sections Undo

/-- The coordinates of a location. -/
structure Edges where
  left : UInt32
  top : UInt32
  right : UInt32
  bottom : UInt32
deriving DecidableEq

/-- `LocSnapFlags`, the coordinates to snap. -/
structure LocSnapFlags where
  snapX1 : Bool
  snapY1 : Bool
  snapX2 : Bool
  snapY2 : Bool

namespace LocSnapFlags

def x1 : LocSnapFlags := ⟨true, false, false, false⟩
def y1 : LocSnapFlags := ⟨false, true, false, false⟩
def x2 : LocSnapFlags := ⟨false, false, true, false⟩
def y2 : LocSnapFlags := ⟨false, false, false, true⟩
def snapAll : LocSnapFlags := ⟨true, true, true, true⟩

end LocSnapFlags

/-- The grid: where coordinates snap to, if it is on. -/
abbrev Grid : Type := LocSnapFlags → Edges → Option Edges

/-- `SnapLocationDimensions` with the coordinates it leaves. -/
def snapLocationDimensions (grid : Grid) (flags : LocSnapFlags) (edges : Edges) : Bool × Edges :=
  match grid flags edges with
  | some snapped =>
      (true,
        { left := if flags.snapX1 then snapped.left else edges.left
          top := if flags.snapY1 then snapped.top else edges.top
          right := if flags.snapX2 then snapped.right else edges.right
          bottom := if flags.snapY2 then snapped.bottom else edges.bottom })
  | none => (false, edges)

def edgesOf (location : Location) : Edges :=
  ⟨location.left, location.top, location.right, location.bottom⟩

def withEdges (location : Location) (edges : Edges) : Location :=
  { location with
    left := edges.left
    top := edges.top
    right := edges.right
    bottom := edges.bottom }

def locationLabel (locationId : ℕ) : ScStr :=
  ("Location " ++ toString locationId).toList.map fun character =>
    UInt8.ofNat character.toNat

/-- The location between the start and the end of a drag. -/
def draggedLocation (grid : Grid) (startX startY endX endY : UInt32) : Location :=
  let edges := (snapLocationDimensions grid .snapAll
    ⟨min startX endX, min startY endY, max startX endX, max startY endY⟩).2
  ⟨edges.left, edges.top, edges.right, edges.bottom, 0, 63⟩

/-- `Strings::setLocationName` in game storage. -/
def setLocationName (scenario : LoadedScenario) (locationId : ℕ)
    (location : Location) (locationName : ScStr) :
    Except (Fault Exception) LoadedScenario := do
  let (newStringId, scenario) ← addString scenario locationName
  return if newStringId = 0 then scenario else
    setLocation scenario locationId
      { location with stringId := UInt16.ofNat newStringId }

/-- What a command leaves, with the actions it adds to the undo stack. -/
abbrev LocationEdited : Type := Except (Fault Exception) (LoadedScenario × List LocationAction)

def createLocation (scenario : LoadedScenario) (newLocation : Location) : LocationEdited :=
  let (newLocationId, added) := addLocation scenario newLocation
  if newLocationId ≠ 0 then do
    let named ← setLocationName added newLocationId newLocation (locationLabel newLocationId)
    let created ← Fault.ofHazard named.deleteUnusedStrings
    return (created, [.locationCreateDel (u16 newLocationId) none []])
  else
    .ok (scenario, [])

/-- Snap one side horizontally and let the other follow, with the way the
location has moved. -/
def snapColumns (grid : Grid) (xInverted : Bool) (edges : Edges)
    (dragX : UInt32) : Edges × UInt32 :=
  if xInverted then
    match snapLocationDimensions grid .x2 edges with
    | (true, snapped) =>
        let left := snapped.left + (snapped.right - edges.right)
        ({ snapped with left := left }, dragX + (left - edges.left))
    | (false, snapped) => (snapped, dragX)
  else
    match snapLocationDimensions grid .x1 edges with
    | (true, snapped) =>
        let right := snapped.right + (snapped.left - edges.left)
        ({ snapped with right := right }, dragX + (right - edges.right))
    | (false, snapped) => (snapped, dragX)

/-- Snap one side vertically and let the other follow. -/
def snapRows (grid : Grid) (yInverted : Bool) (edges : Edges) (dragY : UInt32) : Edges × UInt32 :=
  if yInverted then
    match snapLocationDimensions grid .y2 edges with
    | (true, snapped) =>
        let top := snapped.top + (snapped.bottom - edges.bottom)
        ({ snapped with top := top }, dragY + (top - edges.top))
    | (false, snapped) => (snapped, dragY)
  else
    match snapLocationDimensions grid .y1 edges with
    | (true, snapped) =>
        let bottom := snapped.bottom + (snapped.top - edges.top)
        ({ snapped with bottom := bottom }, dragY + (bottom - edges.bottom))
    | (false, snapped) => (snapped, dragY)

/-- The location moved by a drag, with the way it has moved. -/
def dragLocation (grid : Grid) (dragX dragY : UInt32) (location : Location) :
    Location × UInt32 × UInt32 :=
  let moved := moveBy dragX dragY location
  let (columns, dragX) := snapColumns grid
    (decide (location.right < location.left)) (edgesOf moved) dragX
  let (edges, dragY) := snapRows grid (decide (location.bottom < location.top)) columns dragY
  (withEdges moved edges, dragX, dragY)

def LocationField.snapFlag : LocationField → LocSnapFlags
  | left => .x1
  | top => .y1
  | right => .x2
  | bottom => .y2
  | stringId => ⟨false, false, false, false⟩
  | elevationFlags => ⟨false, false, false, false⟩

def snapEdge (grid : Grid) (edge : LocationField) (location : Location) : Location :=
  withEdges location (snapLocationDimensions grid edge.snapFlag (edgesOf location)).2

def dragEdge (grid : Grid) (edge : LocationField) (drag : UInt32)
    (location : Location) : Location :=
  snapEdge grid edge (edge.set location (edge.get location + drag))

/-- `LocSelFlags`, the sides that were grabbed. -/
structure LocSelFlags where
  north : Bool
  south : Bool
  east : Bool
  west : Bool
deriving DecidableEq

namespace LocSelFlags

def none : LocSelFlags := ⟨false, false, false, false⟩
def middle : LocSelFlags := ⟨true, true, true, true⟩

/-- The edge a drag moves vertically; the sides of an inverted location are
swapped. -/
def verticalEdge (flags : LocSelFlags) (location : Location) : Option LocationField :=
  if flags.north then
    some (if location.top ≤ location.bottom then .top else .bottom)
  else if flags.south then
    some (if location.top ≤ location.bottom then .bottom else .top)
  else
    Option.none

def horizontalEdge (flags : LocSelFlags) (location : Location) : Option LocationField :=
  if flags.west then
    some (if location.left ≤ location.right then .left else .right)
  else if flags.east then
    some (if location.left ≤ location.right then .right else .left)
  else
    Option.none

end LocSelFlags

/-- Drag an edge if there is one, with the actions that are added. -/
def resizeEdge (grid : Grid) (locationId : ℕ) (edge : Option LocationField)
    (drag : UInt32) (location : Location) : Location × List LocationAction :=
  match edge with
  | some edge => (dragEdge grid edge drag location,
      [.locationChange locationId edge (edge.get location)])
  | none => (location, [])

def resizeLocation (grid : Grid) (flags : LocSelFlags) (locationId : ℕ)
    (dragX dragY : UInt32) (location : Location) :
    Location × List LocationAction :=
  let (rows, changes) := resizeEdge grid locationId (flags.verticalEdge location) dragY location
  let (resized, others) := resizeEdge grid locationId (flags.horizontalEdge rows) dragX rows
  (resized, changes ++ others)

def dragSelected (grid : Grid) (flags : LocSelFlags) (locationId : ℕ)
    (dragX dragY : UInt32) (scenario : LoadedScenario) : LocationEdited := do
  let location ← getLocation scenario locationId
  if flags = .middle then
    let (moved, dragX, dragY) := dragLocation grid dragX dragY location
    return (setLocation scenario locationId moved, [.locationMove locationId (-dragX) (-dragY)])
  else
    let (resized, changes) := resizeLocation grid flags locationId dragX dragY location
    return (setLocation scenario locationId resized, changes)

/-- The action is added before the location is cleared, without the
location. -/
def deleteSelected (locationId : ℕ) (scenario : LoadedScenario) :
    LocationEdited := do
  let location ← getLocation scenario locationId
  let cleared := setLocation scenario locationId blankLocation
  let deleted := if location.stringId = 0 then cleared else
    cleared.deleteString location.stringId.toNat .both true
  return (deleted, [.locationCreateDel locationId none []])

inductive LocationCommand where
  | drag (flags : LocSelFlags) (selectedLocation : UInt16)
      (startX startY endX endY : UInt32)
  | delete (selectedLocation : UInt16)

/-- Whether a location is selected; slot 0 has none. -/
def Selected (selectedLocation : UInt16) : Prop := selectedLocation ≠ 65535 ∧ selectedLocation ≠ 0

instance (selectedLocation : UInt16) : Decidable (Selected selectedLocation) :=
  inferInstanceAs (Decidable (_ ∧ _))

/-- The map with an action on the undo stack. -/
def record (map : GuiMap reversibles) (action : LocationAction) : GuiMap reversibles :=
  @GuiMap.addUndo _ _ reversibles _ _ map .locationChange (.action action)

namespace LocationCommand

/-- `LocationLButtonUp` after a drag, and `deleteSelection` in the location
layer. -/
def change (grid : Grid) (command : LocationCommand) (scenario : LoadedScenario) : LocationEdited :=
  match command with
  | drag flags selectedLocation startX startY endX endY =>
      if flags = .none then
        createLocation scenario (draggedLocation grid startX startY endX endY)
      else if Selected selectedLocation then
        dragSelected grid flags selectedLocation.toNat (endX - startX) (endY - startY) scenario
      else
        .ok (scenario, [])
  | delete selectedLocation =>
      if Selected selectedLocation then
        deleteSelected selectedLocation.toNat scenario
      else
        .ok (scenario, [])

/-- The map after a command, with its actions on the undo stack. -/
def perform (grid : Grid) (command : LocationCommand) (map : GuiMap reversibles) :
    Except (Fault Exception) (GuiMap reversibles) := do
  let (scenario, actions) ← command.change grid (map.content .locationChange)
  return actions.foldl record (map.setContent .locationChange scenario)

end LocationCommand

end Chkdraft.Editor
