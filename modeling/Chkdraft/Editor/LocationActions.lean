import Chkdraft.Editor.UnitActions
import Chkdraft.Scenario.DeleteStrings
import Chkdraft.Scenario.Locations

/-!
# Location actions

The location actions change slots of MRGN and, as locations are named by strings,
the string tables.  `LocationCreateDel` deletes or creates depending on whether
it holds a location, and creates in the first blank slot.
-/

namespace Chkdraft.Editor

open Chk Scenario Sections Undo

/-- `getLocation` as it is used: slot 0 is null, and the index is not
checked. -/
def getLocation (scenario : LoadedScenario) (locationId : ℕ) : Except (Fault Exception) Location :=
  match locationId, scenario.locations[locationId]? with
  | 0, _ => .error (.hazard .undefinedBehavior)
  | _, some location => .ok location
  | _, none => .error (.hazard .undefinedBehavior)

def setLocation (scenario : LoadedScenario) (locationId : ℕ)
    (location : Location) : LoadedScenario :=
  { scenario with locations := scenario.locations.set locationId location }

/-- The first blank slot, if there is one. -/
def blankSlot (scenario : LoadedScenario) : Option ℕ :=
  (List.range' 1 (scenario.locations.length - 1)).find? fun locationId =>
    scenario.locations[locationId]? = some blankLocation

/-- `MrgnSection::addLocation`; `NoLocation` is 0. -/
def addLocation (scenario : LoadedScenario) (location : Location) : ℕ × LoadedScenario :=
  match blankSlot scenario with
  | some locationId => (locationId, setLocation scenario locationId location)
  | none => (0, scenario)

/-- `Layers::deleteLocation` with its default, which spares a location some
trigger names. -/
def deleteLocation (scenario : LoadedScenario) (locationId : ℕ) : LoadedScenario :=
  if Referenced scenario.trig locationId ∨ locationId = 0 then
    scenario
  else
    setLocation scenario locationId blankLocation

/-- `getLocationName<RawString>` in game storage. -/
def getLocationName (scenario : LoadedScenario) (location : Location) : Option ScStr :=
  getString scenario.str.strings location.stringId.toNat

/-- `Strings::addString`, which may throw. -/
def addString (scenario : LoadedScenario) (str : ScStr) :
    Except (Fault Exception) (ℕ × LoadedScenario) :=
  (scenario.addString str).mapError Fault.thrown

/-- `Chk::Location::Field`. -/
inductive LocationField where
  | left | top | right | bottom | stringId | elevationFlags
deriving DecidableEq, Repr

namespace LocationField

def get (location : Location) : LocationField → UInt32
  | left => location.left
  | top => location.top
  | right => location.right
  | bottom => location.bottom
  | stringId => location.stringId.toUInt32
  | elevationFlags => location.elevationFlags.toUInt32

def set (location : Location) (data : UInt32) : LocationField → Location
  | left => { location with left := data }
  | top => { location with top := data }
  | right => { location with right := data }
  | bottom => { location with bottom := data }
  | stringId => { location with stringId := data.toUInt16 }
  | elevationFlags => { location with elevationFlags := data.toUInt16 }

section

variable (field : LocationField) (location : Location)

@[simp]
theorem set_get : field.set location (field.get location) = location := by
  cases field <;> simp [set, get]

@[simp]
theorem set_set (data other : UInt32) :
    field.set (field.set location data) other = field.set location other := by
  cases field <;> rfl

@[simp]
theorem set_get_set (data : UInt32) :
    field.set location (field.get (field.set location data)) = field.set location data := by
  rw [← set_set field location data, set_get]

end

end LocationField

/-- `xChange` and `yChange` are the bits of an `s32`. -/
inductive LocationAction where
  | locationChange (locationId : ℕ) (field : LocationField) (data : UInt32)
  | locationMove (locationId : ℕ) (xChange yChange : UInt32)
  | locationCreateDel (locationId : ℕ) (location : Option Location)
      (locationName : ScStr)
deriving DecidableEq

def moveBy (xChange yChange : UInt32) (location : Location) : Location :=
  { location with
    left := location.left + xChange
    right := location.right + xChange
    top := location.top + yChange
    bottom := location.bottom + yChange }

namespace LocationAction

def reverse (action : LocationAction) (scenario : LoadedScenario) :
    Except (Fault Exception) (LoadedScenario × LocationAction) :=
  match action with
  | locationChange locationId field data => do
      let location ← getLocation scenario locationId
      return (setLocation scenario locationId (field.set location data),
        locationChange locationId field (field.get location))
  | locationMove locationId xChange yChange => do
      let location ← getLocation scenario locationId
      return (setLocation scenario locationId (moveBy xChange yChange location),
        locationMove locationId (-xChange) (-yChange))
  | locationCreateDel locationId none _ => do
      let location ← getLocation scenario locationId
      let locationName := (getLocationName scenario location).getD []
      let deleted ← Fault.ofHazard (deleteLocation scenario locationId).deleteUnusedStrings
      return (deleted, locationCreateDel locationId (some location) locationName)
  | locationCreateDel locationId (some location) locationName => do
      let (newLocationId, scenario) := addLocation scenario
        { location with stringId := 0 }
      let (stringId, scenario) ← addString scenario locationName
      -- The new location is in no slot if none was blank.
      let named := if newLocationId = 0 then scenario else
        setLocation scenario newLocationId
          { location with stringId := UInt16.ofNat stringId }
      return (named, locationCreateDel locationId none [])

end LocationAction

section Slots

variable {scenario : LoadedScenario} {locationId : ℕ} {location : Location}

theorem getLocation_of_getElem? (hpos : 0 < locationId)
    (hlocation : scenario.locations[locationId]? = some location) :
    getLocation scenario locationId = .ok location := by
  cases locationId with
  | zero => cases hpos
  | succ index => simp only [getLocation, hlocation]

theorem getElem?_setLocation_self (hlocation : scenario.locations[locationId]? = some location)
    (other : Location) :
    (setLocation scenario locationId other).locations[locationId]? = some other := by
  obtain ⟨hlt, -⟩ := List.getElem?_eq_some_iff.mp hlocation
  simp [setLocation, hlt]

@[simp]
theorem setLocation_setLocation (scenario : LoadedScenario) (locationId : ℕ)
    (location other : Location) :
    setLocation (setLocation scenario locationId location) locationId other =
      setLocation scenario locationId other := by
  simp [setLocation]

theorem setLocation_self (hlocation : scenario.locations[locationId]? = some location) :
    setLocation scenario locationId location = scenario := by
  obtain ⟨hlt, rfl⟩ := List.getElem?_eq_some_iff.mp hlocation
  simp [setLocation]

/-- The actions that take each other back exactly. -/
abbrev locationSwaps : Swapping LocationAction.reverse := exactly LocationAction.reverse

theorem swaps_locationChange (hpos : 0 < locationId)
    (hlocation : scenario.locations[locationId]? = some location)
    (field : LocationField) (data : UInt32) :
    locationSwaps.swaps (.locationChange locationId field (field.get location))
      (setLocation scenario locationId (field.set location data))
      (.locationChange locationId field (field.get (field.set location data)))
      scenario := by
  have hset := getElem?_setLocation_self hlocation (field.set location data)
  constructor
  · rw [LocationAction.reverse, getLocation_of_getElem? hpos hset]
    change Except.ok (setLocation _ _ _, _) = _
    rw [setLocation_setLocation, LocationField.set_set, LocationField.set_get,
      setLocation_self hlocation]
  · rw [LocationAction.reverse, getLocation_of_getElem? hpos hlocation]
    change Except.ok (setLocation _ _ _, _) = _
    rw [LocationField.set_get_set]

theorem moveBy_neg (xChange yChange : UInt32) (location : Location) :
    moveBy (-xChange) (-yChange) (moveBy xChange yChange location) =
      location := by
  simp [moveBy]

theorem swaps_locationMove (hpos : 0 < locationId)
    (hlocation : scenario.locations[locationId]? = some location)
    (xChange yChange : UInt32) :
    locationSwaps.swaps (.locationMove locationId (-xChange) (-yChange))
      (setLocation scenario locationId (moveBy xChange yChange location))
      (.locationMove locationId xChange yChange) scenario := by
  have hset := getElem?_setLocation_self hlocation (moveBy xChange yChange location)
  constructor
  · rw [LocationAction.reverse, getLocation_of_getElem? hpos hset]
    change Except.ok (setLocation _ _ _, _) = _
    rw [setLocation_setLocation, moveBy_neg, setLocation_self hlocation, neg_neg, neg_neg]
  · rw [LocationAction.reverse, getLocation_of_getElem? hpos hlocation]
    rfl

end Slots

end Chkdraft.Editor
