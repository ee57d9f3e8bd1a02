import Chkdraft.Editor.LocationCommands

/-!
# Undoing a command on locations

One undo takes back the last action a command has added.  Moves and the change of
one edge are taken back by it.  A corner adds two actions, a deletion adds one
that deletes again, and a new location is only deleted if no trigger names its
slot.
-/

namespace Chkdraft.Editor

open Chk Scenario Sections Undo

variable {action : LocationAction} {scenario : LoadedScenario} {grid : Grid}
  {command : LocationCommand} {map : GuiMap reversibles} {dragX dragY : UInt32}

variable {after : LoadedScenario} {flags : LocSelFlags} {location : Location}

/-- A location with the text of its name. -/
structure Slot where
  edges : Edges
  elevationFlags : UInt16
  name : Option ScStr
deriving DecidableEq

def slotOf (scenario : LoadedScenario) (location : Location) : Slot where
  edges := edgesOf location
  elevationFlags := location.elevationFlags
  name := getLocationName scenario location

def slots (scenario : LoadedScenario) : List Slot := scenario.locations.tail.map (slotOf scenario)

theorem getElem?_slots (scenario : LoadedScenario) (index : ℕ) :
    (slots scenario)[index]? = scenario.locations[index + 1]?.map (slotOf scenario) := by
  rw [slots, List.getElem?_map, List.getElem?_tail]

/-- One undo after the command restores the slots, and one redo after that
restores what the command left. -/
def Restores (grid : Grid) (command : LocationCommand) (map : GuiMap reversibles) : Prop :=
  ∃ after undone redone, command.perform grid map = .ok after ∧
    after.doUndo .locationChange = .ok undone ∧
    slots (undone.content .locationChange) = slots (map.content .locationChange) ∧
    undone.doRedo .locationChange = .ok redone ∧
    slots (redone.content .locationChange) = slots (after.content .locationChange)

/-- The same for an action that is reversed twice. -/
def RestoresFrom (action : LocationAction) (before after : LoadedScenario) : Prop :=
  ∃ undone back redone again,
    action.reverse after = .ok (undone, back) ∧ slots undone = slots before ∧
    back.reverse undone = .ok (redone, again) ∧ slots redone = slots after

theorem record_eq (map : GuiMap reversibles) (action : LocationAction) :
    record map action = map.replaced .locationChange (map.content .locationChange)
      (⟨.locationChange, .action action⟩ :: map.undos) map.redos 1 := by
  have hcount : 0 < @Reversibles.count _ _ reversibles .locationChange
      (.action action) := Nat.one_pos
  have hrecord := GuiMap.addUndo_setContent map (map.content .locationChange) hcount
  rw [GuiMap.setContent, Function.update_eq_self] at hrecord
  exact hrecord

@[simp]
theorem record_content (map : GuiMap reversibles) (action : LocationAction) :
    (record map action).content = map.content := by
  rw [record_eq, GuiMap.replaced_content, Function.update_eq_self]

theorem foldl_record_content (map : GuiMap reversibles) (actions : List LocationAction) :
    (actions.foldl record map).content = map.content := by
  induction actions generalizing map with
  | nil => rfl
  | cons action rest ih => rw [List.foldl_cons, ih, record_content]

theorem pop_record (map : GuiMap reversibles) (action : LocationAction) :
    pop .locationChange (record map action).undos = some (.action action, map.undos) := by
  rw [record_eq, GuiMap.replaced_undos]
  rfl

theorem reverse_action_iff {back : Reversible LocationAction} :
    reversibles.reverse .locationChange (.action action) scenario = .ok (after, back) ↔
      ∃ single, action.reverse scenario = .ok (after, single) ∧ back = .action single := by
  change Reversible.reverse LocationAction.reverse (.action action) scenario = .ok (after, back) ↔ _
  rw [Reversible.reverse, Fault.bind_eq_ok_iff]
  constructor
  · rintro ⟨⟨content, single⟩, hreverse, heq⟩
    cases heq
    exact ⟨single, hreverse, rfl⟩
  · rintro ⟨single, hreverse, rfl⟩
    exact ⟨_, hreverse, rfl⟩

/-- One undo reverses the last action, and one redo reverses it again. -/
theorem restores_iff_last {front : List LocationAction} {last : LocationAction}
    (hchange : command.change grid (map.content .locationChange) = .ok (after, front ++ [last])) :
    Restores grid command map ↔ RestoresFrom last (map.content .locationChange) after := by
  let edited := front.foldl record (map.setContent .locationChange after)
  have hperform : command.perform grid map = .ok (record edited last) := by
    rw [LocationCommand.perform, hchange]
    change Except.ok ((front ++ [last]).foldl record _) = _
    rw [List.foldl_append]
    rfl
  have hcontent : (record edited last).content .locationChange = after := by
    rw [record_content, foldl_record_content]
    exact Function.update_self UndoTypes.locationChange after map.content
  have hundoRedo := @GuiMap.undo_redo_iff _ _ reversibles _ _ _ _ _ _ (pop_record edited last)
    (fun undone => slots undone = slots (map.content .locationChange))
    (fun redone => slots redone = slots after)
  rw [hcontent] at hundoRedo
  constructor
  · rintro ⟨performed, undone, redone, hperformed, hundo, hundone, hredo, hredone⟩
    cases hperform.symm.trans hperformed
    rw [hcontent] at hredone
    obtain ⟨content, back, again, other, hreverse, hcontent, hagain, hsame⟩ :=
      hundoRedo.mp ⟨undone, redone, hundo, hundone, hredo, hredone⟩
    obtain ⟨single, hsingle, rfl⟩ := reverse_action_iff.mp hreverse
    obtain ⟨last, hlast, rfl⟩ := reverse_action_iff.mp hagain
    exact ⟨_, _, _, _, hsingle, hcontent, hlast, hsame⟩
  · rintro ⟨content, back, again, other, hreverse, hsame, hagain, hend⟩
    obtain ⟨undone, redone, hundo, hundone, hredo, hredone⟩ := hundoRedo.mpr
      ⟨content, .action back, again, .action other,
        reverse_action_iff.mpr ⟨_, hreverse, rfl⟩, hsame,
        reverse_action_iff.mpr ⟨_, hagain, rfl⟩, hend⟩
    refine ⟨_, undone, redone, hperform, hundo, hundone, hredo, ?_⟩
    rw [hcontent]
    exact hredone

/-- What a command returns is restored exactly under a condition. -/
inductive RestoredIff (edited : LocationEdited) (before : LoadedScenario) (condition : Prop) : Prop
  | fails {fault : Fault Exception} (hedited : edited = .error fault)
      (hcondition : ¬ condition)
  | records {after : LoadedScenario} {front : List LocationAction}
      {last : LocationAction} (hedited : edited = .ok (after, front ++ [last]))
      (hcondition : RestoresFrom last before after ↔ condition)

theorem restores_iff_of_restoredIff {condition : Prop}
    (hrestored : RestoredIff (command.change grid (map.content .locationChange))
      (map.content .locationChange) condition) :
    Restores grid command map ↔ condition := by
  cases hrestored with
  | fails hedited hcondition =>
      refine iff_of_false ?_ hcondition
      rintro ⟨after, -, -, hperform, -⟩
      rw [LocationCommand.perform, hedited] at hperform
      cases hperform
  | records hedited hcondition =>
      exact (restores_iff_last hedited).trans hcondition

theorem restoresFrom_iff_of_swaps {back : LocationAction}
    {before middle : LoadedScenario}
    (hswaps : locationSwaps.swaps action after back middle) :
    RestoresFrom action before after ↔ slots middle = slots before := by
  constructor
  · rintro ⟨undone, other, redone, again, hundone, hslots, -⟩
    cases hswaps.1.symm.trans hundone
    exact hslots
  · intro hslots
    exact ⟨middle, back, after, action, hswaps.1, hslots, hswaps.2, rfl⟩

section Snapping

variable {grid : Grid} {edges snapped : Edges}

theorem snap_of_none {flags : LocSnapFlags} (hsnap : grid flags edges = none) :
    snapLocationDimensions grid flags edges = (false, edges) := by
  rw [snapLocationDimensions, hsnap]

theorem snap_x1 (hsnap : grid .x1 edges = some snapped) : snapLocationDimensions grid .x1 edges =
      (true, { edges with left := snapped.left }) := by
  rw [snapLocationDimensions, hsnap]
  rfl

theorem snap_y1 (hsnap : grid .y1 edges = some snapped) : snapLocationDimensions grid .y1 edges =
      (true, { edges with top := snapped.top }) := by
  rw [snapLocationDimensions, hsnap]
  rfl

theorem snap_x2 (hsnap : grid .x2 edges = some snapped) : snapLocationDimensions grid .x2 edges =
      (true, { edges with right := snapped.right }) := by
  rw [snapLocationDimensions, hsnap]
  rfl

theorem snap_y2 (hsnap : grid .y2 edges = some snapped) : snapLocationDimensions grid .y2 edges =
      (true, { edges with bottom := snapped.bottom }) := by
  rw [snapLocationDimensions, hsnap]
  rfl

end Snapping

theorem snapColumns_spec (grid : Grid) (xInverted : Bool) (edges : Edges) (dragX : UInt32) :
    ∃ shift, snapColumns grid xInverted edges dragX = ({ edges with
        left := edges.left + shift
        right := edges.right + shift }, dragX + shift) := by
  cases xInverted with
  | true =>
      cases hsnap : grid .x2 edges with
      | none => exact ⟨0, by simp [snapColumns, snap_of_none hsnap]⟩
      | some snapped =>
          refine ⟨snapped.right - edges.right, ?_⟩
          simp [snapColumns, snap_x2 hsnap]
  | false =>
      cases hsnap : grid .x1 edges with
      | none => exact ⟨0, by simp [snapColumns, snap_of_none hsnap]⟩
      | some snapped =>
          refine ⟨snapped.left - edges.left, ?_⟩
          simp [snapColumns, snap_x1 hsnap]

theorem snapRows_spec (grid : Grid) (yInverted : Bool) (edges : Edges) (dragY : UInt32) :
    ∃ shift, snapRows grid yInverted edges dragY = ({ edges with
        top := edges.top + shift
        bottom := edges.bottom + shift }, dragY + shift) := by
  cases yInverted with
  | true =>
      cases hsnap : grid .y2 edges with
      | none => exact ⟨0, by simp [snapRows, snap_of_none hsnap]⟩
      | some snapped =>
          refine ⟨snapped.bottom - edges.bottom, ?_⟩
          simp [snapRows, snap_y2 hsnap]
  | false =>
      cases hsnap : grid .y1 edges with
      | none => exact ⟨0, by simp [snapRows, snap_of_none hsnap]⟩
      | some snapped =>
          refine ⟨snapped.top - edges.top, ?_⟩
          simp [snapRows, snap_y1 hsnap]

theorem dragLocation_spec (grid : Grid) (dragX dragY : UInt32) (location : Location) :
    (dragLocation grid dragX dragY location).1 = moveBy (dragLocation grid dragX dragY location).2.1
        (dragLocation grid dragX dragY location).2.2 location := by
  obtain ⟨shiftX, hcolumns⟩ := snapColumns_spec grid (decide (location.right < location.left))
    (edgesOf (moveBy dragX dragY location)) dragX
  obtain ⟨shiftY, hrows⟩ := snapRows_spec grid (decide (location.bottom < location.top))
    { edgesOf (moveBy dragX dragY location) with
      left := (edgesOf (moveBy dragX dragY location)).left + shiftX
      right := (edgesOf (moveBy dragX dragY location)).right + shiftX } dragY
  simp only [dragLocation, hcolumns, hrows]
  simp [withEdges, edgesOf, moveBy, add_assoc]

theorem snapEdge_spec (grid : Grid) (edge : LocationField) (location : Location) :
    ∃ data, snapEdge grid edge location = edge.set location data := by
  rw [snapEdge]
  cases hsnap : grid edge.snapFlag (edgesOf location) with
  | none =>
      rw [snap_of_none hsnap]
      exact ⟨edge.get location, (edge.set_get location).symm⟩
  | some snapped =>
      cases edge with
      | left =>
          refine ⟨snapped.left, ?_⟩
          rw [LocationField.snapFlag, snap_x1 hsnap]
          rfl
      | top =>
          refine ⟨snapped.top, ?_⟩
          rw [LocationField.snapFlag, snap_y1 hsnap]
          rfl
      | right =>
          refine ⟨snapped.right, ?_⟩
          rw [LocationField.snapFlag, snap_x2 hsnap]
          rfl
      | bottom =>
          refine ⟨snapped.bottom, ?_⟩
          rw [LocationField.snapFlag, snap_y2 hsnap]
          rfl
      | stringId =>
          rw [snapLocationDimensions, hsnap]
          exact ⟨_, (LocationField.stringId.set_get location).symm⟩
      | elevationFlags =>
          rw [snapLocationDimensions, hsnap]
          exact ⟨_, (LocationField.elevationFlags.set_get location).symm⟩

theorem dragEdge_spec (grid : Grid) (edge : LocationField) (drag : UInt32) (location : Location) :
    ∃ data, dragEdge grid edge drag location = edge.set location data := by
  obtain ⟨data, hsnap⟩ := snapEdge_spec grid edge (edge.set location (edge.get location + drag))
  exact ⟨data, hsnap.trans (edge.set_set location _ data)⟩

theorem verticalEdge_edge {edge : LocationField} (hedge : flags.verticalEdge location = some edge) :
    edge = .top ∨ edge = .bottom := by
  unfold LocSelFlags.verticalEdge at hedge
  split at hedge
  · split at hedge <;> cases hedge <;> simp
  · split at hedge
    · split at hedge <;> cases hedge <;> simp
    · cases hedge

theorem horizontalEdge_eq_none_iff : flags.horizontalEdge location = none ↔
      flags.east = false ∧ flags.west = false := by
  unfold LocSelFlags.horizontalEdge
  cases flags.west <;> cases flags.east <;> simp

theorem verticalEdge_eq_none_iff : flags.verticalEdge location = none ↔
      flags.north = false ∧ flags.south = false := by
  unfold LocSelFlags.verticalEdge
  cases flags.north <;> cases flags.south <;> simp

/-- The rows of a location after a drag keep its name and elevation. -/
theorem resizeEdge_rows (grid : Grid) (flags : LocSelFlags) (locationId : ℕ)
    (drag : UInt32) (location : Location) :
    ∃ top bottom, (resizeEdge grid locationId (flags.verticalEdge location) drag
      location).1 = { location with top := top, bottom := bottom } := by
  cases hedge : flags.verticalEdge location with
  | none => exact ⟨location.top, location.bottom, rfl⟩
  | some edge =>
      obtain ⟨data, hdata⟩ := dragEdge_spec grid edge drag location
      rw [resizeEdge, hdata]
      rcases verticalEdge_edge hedge with rfl | rfl
      · exact ⟨data, location.bottom, rfl⟩
      · exact ⟨location.top, data, rfl⟩

theorem slots_setLocation_iff {locationId : ℕ} (hpos : 0 < locationId)
    (hlocation : scenario.locations[locationId]? = some location) (top bottom : UInt32) :
    slots (setLocation scenario locationId
        { location with top := top, bottom := bottom }) = slots scenario ↔
      ({ location with top := top, bottom := bottom } : Location) =
        location := by
  constructor
  · intro hslots
    obtain ⟨index, rfl⟩ := Nat.exists_eq_add_one_of_ne_zero hpos.ne'
    have hslot := congrArg (fun list => list[index]?) hslots
    simp only [getElem?_slots, getElem?_setLocation_self hlocation, hlocation,
      Option.map_some, Option.some.injEq] at hslot
    have hedges := congrArg Slot.edges hslot
    have htop : top = location.top := congrArg Edges.top hedges
    have hbottom : bottom = location.bottom := congrArg Edges.bottom hedges
    subst htop hbottom
    rfl
  · intro hsame
    rw [hsame, setLocation_self hlocation]

section Drag

variable {grid : Grid} {flags : LocSelFlags} {scenario : LoadedScenario}
  {locationId : ℕ} {location : Location}

theorem restored_move (dragX dragY : UInt32) (hpos : 0 < locationId)
    (hlocation : scenario.locations[locationId]? = some location) :
    RestoredIff (dragSelected grid .middle locationId dragX dragY scenario) scenario True := by
  have hedited : dragSelected grid .middle locationId dragX dragY scenario =
      .ok (setLocation scenario locationId (dragLocation grid dragX dragY location).1,
        [] ++ [.locationMove locationId (-(dragLocation grid dragX dragY location).2.1)
          (-(dragLocation grid dragX dragY location).2.2)]) := by
    rw [dragSelected, getLocation_of_getElem? hpos hlocation]
    rfl
  apply RestoredIff.records hedited
  rw [dragLocation_spec, restoresFrom_iff_of_swaps (swaps_locationMove hpos hlocation _ _)]
  exact iff_of_true rfl trivial

theorem dragSelected_resize (dragX dragY : UInt32) (hmiddle : flags ≠ .middle)
    (hpos : 0 < locationId)
    (hlocation : scenario.locations[locationId]? = some location) :
    dragSelected grid flags locationId dragX dragY scenario = .ok (setLocation scenario locationId
          (resizeLocation grid flags locationId dragX dragY location).1,
        (resizeLocation grid flags locationId dragX dragY location).2) := by
  rw [dragSelected, getLocation_of_getElem? hpos hlocation]
  change (if _ then _ else _) = _
  rw [if_neg hmiddle]
  rfl

theorem resizeLocation_row {row : LocationField} (hrow : flags.verticalEdge location = some row)
    (hsides : flags.east = false ∧ flags.west = false) :
    resizeLocation grid flags locationId dragX dragY location = (dragEdge grid row dragY location,
        [] ++ [.locationChange locationId row (row.get location)]) := by
  have hcolumn (rows : Location) : flags.horizontalEdge rows = none :=
    horizontalEdge_eq_none_iff.mpr hsides
  simp only [resizeLocation, hrow, hcolumn]
  rfl

theorem resizeLocation_column {rows : Location} {column : LocationField}
    (hrows : (resizeEdge grid locationId (flags.verticalEdge location) dragY location).1 = rows)
    (hcolumn : flags.horizontalEdge rows = some column) :
    resizeLocation grid flags locationId dragX dragY location = (dragEdge grid column dragX rows,
        (resizeEdge grid locationId (flags.verticalEdge location) dragY location).2 ++
          [.locationChange locationId column (column.get rows)]) := by
  simp only [resizeLocation, hrows, hcolumn]
  rfl

/-- Without a corner there is one action; with one, the action of the column is
the last. -/
theorem restored_resize (dragX dragY : UInt32) (hnone : flags ≠ .none)
    (hmiddle : flags ≠ .middle) (hpos : 0 < locationId)
    (hlocation : scenario.locations[locationId]? = some location) :
    RestoredIff (dragSelected grid flags locationId dragX dragY scenario)
      scenario ((flags.east = false ∧ flags.west = false) ∨
        (resizeEdge grid locationId (flags.verticalEdge location) dragY
          location).1 = location) := by
  rw [dragSelected_resize dragX dragY hmiddle hpos hlocation]
  by_cases hsides : flags.east = false ∧ flags.west = false
  · cases hrow : flags.verticalEdge location with
    | none =>
        obtain ⟨hnorth, hsouth⟩ := verticalEdge_eq_none_iff.mp hrow
        apply absurd _ hnone
        cases flags
        simp_all [LocSelFlags.none]
    | some row =>
        obtain ⟨data, hdata⟩ := dragEdge_spec grid row dragY location
        rw [resizeLocation_row hrow hsides, hdata]
        apply RestoredIff.records rfl
        rw [restoresFrom_iff_of_swaps (swaps_locationChange hpos hlocation row data)]
        exact iff_of_true rfl (.inl hsides)
  · obtain ⟨top, bottom, hrows⟩ := resizeEdge_rows grid flags locationId dragY location
    obtain ⟨column, hcolumn⟩ : ∃ column, flags.horizontalEdge
        { location with top := top, bottom := bottom } = some column :=
      Option.ne_none_iff_exists'.mp (mt horizontalEdge_eq_none_iff.mp hsides)
    obtain ⟨data, hdata⟩ := dragEdge_spec grid column dragX
      { location with top := top, bottom := bottom }
    have hset := getElem?_setLocation_self hlocation
      { location with top := top, bottom := bottom }
    have hswaps := swaps_locationChange hpos hset column data
    rw [setLocation_setLocation] at hswaps
    rw [resizeLocation_column hrows hcolumn, hdata]
    apply RestoredIff.records rfl
    rw [restoresFrom_iff_of_swaps hswaps,
      slots_setLocation_iff hpos hlocation, or_iff_right hsides, hrows]

end Drag

end Chkdraft.Editor
