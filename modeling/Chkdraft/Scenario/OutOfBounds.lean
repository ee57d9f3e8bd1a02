import Chkdraft.Scenario.Locations
import Chkdraft.Scenario.MapSize
import Chkdraft.Sections.ItemLists

/-!
# Objects of a map that is resized

`Layers::setDimensions` resizes the terrain and then validates what stands on
it.  Units, sprites and doodads outside the new size are moved to its edge or
removed.  Anywhere is to follow the size of the map if it covered the map, but
it is compared with the new size, which is stored already.
-/

namespace Chkdraft.Scenario

open Chk Sections

variable {pixels : ℕ} {location : Location} {tileHeight tileWidth : UInt16}
  {leftEdge topEdge : ℤ}

/-- The coordinates of a kind of object. -/
structure Placement (A : Type) where
  xc : A → UInt16
  yc : A → UInt16
  place : A → UInt16 → UInt16 → A
  xc_place : ∀ object x y, xc (place object x y) = x
  yc_place : ∀ object x y, yc (place object x y) = y
  place_self : ∀ object, place object (xc object) (yc object) = object

def unitPlacement : Placement Chk.Unit where
  xc := Unit.xc
  yc := Unit.yc
  place := fun unit x y => { unit with xc := x, yc := y }
  xc_place := fun _ _ _ => rfl
  yc_place := fun _ _ _ => rfl
  place_self := fun _ => rfl

def spritePlacement : Placement Sprite where
  xc := Sprite.xc
  yc := Sprite.yc
  place := fun sprite x y => { sprite with xc := x, yc := y }
  xc_place := fun _ _ _ => rfl
  yc_place := fun _ _ _ => rfl
  place_self := fun _ => rfl

def doodadPlacement : Placement Doodad where
  xc := Doodad.xc
  yc := Doodad.yc
  place := fun doodad x y => { doodad with xc := x, yc := y }
  xc_place := fun _ _ _ => rfl
  yc_place := fun _ _ _ => rfl
  place_self := fun _ => rfl

section Objects

variable {A : Type} (placement : Placement A) (pixelWidth pixelHeight : ℕ)

def Inside (object : A) : Prop :=
  (placement.xc object).toNat < pixelWidth ∧ (placement.yc object).toNat < pixelHeight

instance (object : A) : Decidable (Inside placement pixelWidth pixelHeight object) :=
  inferInstanceAs (Decidable (_ ∧ _))

/-- A coordinate that is moved to the edge. -/
def updateCoordinate (pixels : ℕ) (coordinate : UInt16) : UInt16 :=
  if pixels ≤ coordinate.toNat then UInt16.ofNat (pixels - 1) else coordinate

/-- The loop of the two functions that update objects. -/
def updateOutOfBounds (objects : List A) : List A :=
  objects.map fun object => placement.place object
    (updateCoordinate pixelWidth (placement.xc object))
    (updateCoordinate pixelHeight (placement.yc object))

/-- One round of the functions that remove objects. -/
def removeAt (deleteObject : List A → ℕ → List A) (objects : List A) (i : ℕ) :
    Except Hazard (List A) :=
  match objects[i]? with
  | none => .error .undefinedBehavior
  | some object =>
      if pixelWidth ≤ (placement.xc object).toNat ∨ pixelHeight ≤ (placement.yc object).toNat then
        .ok (deleteObject objects i)
      else
        .ok objects

/-- The loop of the three functions that remove objects: the index goes down
until it wraps. -/
def removeOutOfBounds (deleteObject : List A → ℕ → List A)
    (objects : List A) : Except Hazard (List A) :=
  (List.range objects.length).reverse.foldlM
    (removeAt placement pixelWidth pixelHeight deleteObject) objects

end Objects

/-- `Layers` with the objects that stand on the terrain. -/
structure MapLayers extends Layers where
  units : List Chk.Unit
  sprites : List Sprite
  doodads : List Doodad
  locations : List (Option Location)

/-- The bits of `SizeValidationFlag`. -/
inductive SizeValidation where
  | updateAnywhere
  | updateAnywhereIfAlreadyStandard
  | updateOutOfBoundsLocations
  | removeOutOfBoundsDoodads
  | updateOutOfBoundsUnits
  | removeOutOfBoundsUnits
  | updateOutOfBoundsSprites
  | removeOutOfBoundsSprites

def SizeValidation.bit : SizeValidation → UInt16
  | updateAnywhere => 0x01
  | updateAnywhereIfAlreadyStandard => 0x02
  | updateOutOfBoundsLocations => 0x04
  | removeOutOfBoundsDoodads => 0x08
  | updateOutOfBoundsUnits => 0x10
  | removeOutOfBoundsUnits => 0x20
  | updateOutOfBoundsSprites => 0x40
  | removeOutOfBoundsSprites => 0x80

/-- Whether the flags ask for a validation. -/
def SizeValidation.Asked (validation : SizeValidation) (sizeValidationFlags : UInt16) : Prop :=
  sizeValidationFlags &&& validation.bit = validation.bit

instance (validation : SizeValidation) (sizeValidationFlags : UInt16) :
    Decidable (validation.Asked sizeValidationFlags) :=
  inferInstanceAs (Decidable (_ = _))

/-- `downsizeOutOfBoundsLocations` for one location. -/
def downsizeLocation (pixelWidth pixelHeight : ℕ) (location : Location) : Location :=
  let downsized := fun pixels (edge : UInt32) =>
    if pixels ≤ edge.toNat then UInt32.ofNat (pixels - 1) else edge
  { location with
    left := downsized pixelWidth location.left
    right := downsized pixelWidth location.right
    top := downsized pixelHeight location.top
    bottom := downsized pixelHeight location.bottom }

/-- The same for a pointer to a location, which is dereferenced. -/
def downsizeSlot (pixelWidth pixelHeight : ℕ) : Option Location → Except Hazard (Option Location)
  | none => .error .undefinedBehavior
  | some location =>
      .ok (some (downsizeLocation pixelWidth pixelHeight location))

/-- Whether a location covers a map of this size; a null pointer does not. -/
def coversPixels (pixelWidth pixelHeight : ℕ) : Option Location → Bool
  | none => false
  | some location => location.left = 0 ∧ location.top = 0 ∧
      location.right.toNat = pixelWidth ∧ location.bottom.toNat = pixelHeight

namespace MapLayers

variable (layers : MapLayers)

/-- `DimSection::getPixelWidth`. -/
def pixelWidth : ℕ := layers.tileWidth.toNat * 32

/-- `DimSection::getPixelHeight`. -/
def pixelHeight : ℕ := layers.tileHeight.toNat * 32

/-- `MrgnSection::getLocation` at Anywhere, which may be null. -/
def getAnywhere : Except Hazard (Option Location) :=
  match layers.locations[anywhere]? with
  | none => .error .undefinedBehavior
  | some location => .ok location

def anywhereIsStandardDimensions : Except Hazard Bool :=
  layers.getAnywhere.map (coversPixels layers.pixelWidth layers.pixelHeight)

def matchAnywhereToDimensions : Except Hazard MapLayers := do
  let location ← layers.getAnywhere
  pure (match location with
    | none => layers
    | some location =>
        { layers with
          locations := layers.locations.set anywhere (some
            { location with
              left := 0
              top := 0
              right := UInt32.ofNat layers.pixelWidth
              bottom := UInt32.ofNat layers.pixelHeight }) })

/-- The loop starts behind the first location. -/
def downsizeOutOfBoundsLocations : Except Hazard MapLayers := do
  let downsized ← layers.locations.tail.mapM (downsizeSlot layers.pixelWidth layers.pixelHeight)
  pure { layers with locations := layers.locations.take 1 ++ downsized }

/-- `Layers::updateOutOfBoundsUnits` moves units to the border of the map, where
`removeOutOfBoundsUnits` deletes them. -/
def updateOutOfBoundsUnits : MapLayers :=
  { layers with
    units := updateOutOfBounds unitPlacement layers.pixelWidth layers.pixelHeight layers.units }

def removeOutOfBoundsUnits : Except Hazard MapLayers := do
  let units ← removeOutOfBounds unitPlacement layers.pixelWidth
    layers.pixelHeight deleteUnit layers.units
  pure { layers with units := units }

def updateOutOfBoundsSprites : MapLayers :=
  { layers with
    sprites := updateOutOfBounds spritePlacement layers.pixelWidth
      layers.pixelHeight layers.sprites }

def removeOutOfBoundsSprites : Except Hazard MapLayers := do
  let sprites ← removeOutOfBounds spritePlacement layers.pixelWidth
    layers.pixelHeight deleteSprite layers.sprites
  pure { layers with sprites := sprites }

def removeOutOfBoundsDoodads : Except Hazard MapLayers := do
  let doodads ← removeOutOfBounds doodadPlacement layers.pixelWidth
    layers.pixelHeight deleteDoodad layers.doodads
  pure { layers with doodads := doodads }

section Validation

variable (sizeValidationFlags : UInt16)

/-- What `validateSizes` does about Anywhere. -/
def validateAnywhere : Except Hazard MapLayers := do
  if SizeValidation.updateAnywhereIfAlreadyStandard.Asked sizeValidationFlags then
    let standard ← layers.anywhereIsStandardDimensions
    if standard then layers.matchAnywhereToDimensions else pure layers
  else if SizeValidation.updateAnywhere.Asked sizeValidationFlags then
    layers.matchAnywhereToDimensions
  else
    pure layers

def validateLocations : Except Hazard MapLayers :=
  if SizeValidation.updateOutOfBoundsLocations.Asked sizeValidationFlags then
    layers.downsizeOutOfBoundsLocations
  else
    pure layers

def validateDoodads : Except Hazard MapLayers :=
  if SizeValidation.removeOutOfBoundsDoodads.Asked sizeValidationFlags then
    layers.removeOutOfBoundsDoodads
  else
    pure layers

def validateUnits : Except Hazard MapLayers :=
  if SizeValidation.updateOutOfBoundsUnits.Asked sizeValidationFlags then
    pure layers.updateOutOfBoundsUnits
  else if SizeValidation.removeOutOfBoundsUnits.Asked sizeValidationFlags then
    layers.removeOutOfBoundsUnits
  else
    pure layers

def validateSprites : Except Hazard MapLayers :=
  if SizeValidation.updateOutOfBoundsSprites.Asked sizeValidationFlags then
    pure layers.updateOutOfBoundsSprites
  else if SizeValidation.removeOutOfBoundsSprites.Asked sizeValidationFlags then
    layers.removeOutOfBoundsSprites
  else
    pure layers

def validateSizes : Except Hazard MapLayers := do
  let layers ← layers.validateAnywhere sizeValidationFlags
  let layers ← layers.validateLocations sizeValidationFlags
  let layers ← layers.validateDoodads sizeValidationFlags
  let layers ← layers.validateUnits sizeValidationFlags
  layers.validateSprites sizeValidationFlags

end Validation

/-- `Layers::setDimensions`. -/
def setDimensions (tileWidth tileHeight sizeValidationFlags : UInt16)
    (leftEdge topEdge : ℤ) : Except (Fault LengthError) MapLayers := do
  let terrain ← layers.toLayers.setDimensions tileWidth tileHeight leftEdge topEdge
  Fault.ofHazard ({ layers with toLayers := terrain }.validateSizes sizeValidationFlags)

end MapLayers

/-- Every object is inside, and those that were are there as they were, in
their order. -/
def KeepsInside {A : Type} (placement : Placement A)
    (pixelWidth pixelHeight : ℕ) (before after : List A) : Prop :=
  (∀ object ∈ after, Inside placement pixelWidth pixelHeight object) ∧
    (before.filter (Inside placement pixelWidth pixelHeight)).Sublist after

/-- Anywhere covers exactly a map of this size. -/
def AnywhereCovers (locations : List (Option Location)) (tileWidth tileHeight : UInt16) : Prop :=
  ∃ location, locations[anywhere]? = some (some location) ∧ location.left = 0 ∧ location.top = 0 ∧
    location.right.toNat = tileWidth.toNat * 32 ∧
    location.bottom.toNat = tileHeight.toNat * 32

/-- The flags ask to update or remove units, sprites and doodads that are out
of bounds, and to update Anywhere if it is standard already. -/
structure AsksForObjects (sizeValidationFlags : UInt16) : Prop where
  anywhere : SizeValidation.updateAnywhereIfAlreadyStandard.Asked sizeValidationFlags
  doodads : SizeValidation.removeOutOfBoundsDoodads.Asked sizeValidationFlags
  units : SizeValidation.updateOutOfBoundsUnits.Asked sizeValidationFlags ∨
    SizeValidation.removeOutOfBoundsUnits.Asked sizeValidationFlags
  sprites : SizeValidation.updateOutOfBoundsSprites.Asked sizeValidationFlags ∨
      SizeValidation.removeOutOfBoundsSprites.Asked sizeValidationFlags

/-- The call returns with every object on the map, and with Anywhere covering
the new map if it covered the old one. -/
def KeepsObjects (layers : MapLayers) (tileWidth tileHeight sizeValidationFlags : UInt16)
    (leftEdge topEdge : ℤ) : Prop :=
  ∃ after, layers.setDimensions tileWidth tileHeight sizeValidationFlags
      leftEdge topEdge = .ok after ∧
    KeepsInside unitPlacement (tileWidth.toNat * 32) (tileHeight.toNat * 32)
      layers.units after.units ∧
    KeepsInside spritePlacement (tileWidth.toNat * 32) (tileHeight.toNat * 32)
      layers.sprites after.sprites ∧
    KeepsInside doodadPlacement (tileWidth.toNat * 32) (tileHeight.toNat * 32)
      layers.doodads after.doodads ∧
    (AnywhereCovers layers.locations layers.tileWidth layers.tileHeight →
      AnywhereCovers after.locations tileWidth tileHeight)

/-- The copies of TILE and MTXM are resized inside their lists. -/
def CopiesReturn (layers : Layers) (tileWidth tileHeight : UInt16) (leftEdge topEdge : ℤ) : Prop :=
  ∀ tiles ∈ [layers.tile, layers.mtxm],
    ∃ resized, setMtxmOrTileDimensions tiles tileWidth tileHeight
      layers.tileWidth layers.tileHeight leftEdge topEdge = .ok resized

/-- The condition: the copies of the tiles are resized inside them, there is a
location Anywhere, no null location is downsized, and if Anywhere covers the
map, the map keeps its size and no location is downsized. -/
structure MeetsResize (layers : MapLayers) (tileWidth tileHeight sizeValidationFlags : UInt16)
    (leftEdge topEdge : ℤ) : Prop where
  copies : CopiesReturn layers.toLayers tileWidth tileHeight leftEdge topEdge
  exists_anywhere : anywhere < layers.locations.length
  filled : SizeValidation.updateOutOfBoundsLocations.Asked
    sizeValidationFlags → none ∉ layers.locations.tail
  standard : AnywhereCovers layers.locations layers.tileWidth layers.tileHeight →
    tileWidth = layers.tileWidth ∧ tileHeight = layers.tileHeight ∧
      ¬ SizeValidation.updateOutOfBoundsLocations.Asked sizeValidationFlags

section Kept

variable {A : Type} {placement : Placement A} {pixelWidth pixelHeight : ℕ}

section

variable {deleteObject : List A → ℕ → List A} (hdelete : deleteObject = deleteItem)

include hdelete

theorem removeAt_append (front back : List A) (object : A) :
    removeAt placement pixelWidth pixelHeight deleteObject
        (front ++ [object] ++ back) front.length =
      .ok (front ++ ([object].filter (Inside placement pixelWidth pixelHeight) ++ back)) := by
  have hobject : (front ++ [object] ++ back)[front.length]? = some object := by
    rw [List.append_assoc, List.getElem?_append_right le_rfl, Nat.sub_self]
    rfl
  have houtside : (pixelWidth ≤ (placement.xc object).toNat ∨
      pixelHeight ≤ (placement.yc object).toNat) ↔
      ¬ Inside placement pixelWidth pixelHeight object := by
    rw [Inside]
    omega
  rw [removeAt, hobject]
  simp only [houtside]
  by_cases hinside : Inside placement pixelWidth pixelHeight object
  · rw [if_neg (not_not.mpr hinside), List.append_assoc]
    simp [hinside]
  · have herased : (front ++ [object] ++ back).eraseIdx front.length = front ++ back := by
      rw [List.append_assoc, List.eraseIdx_append_of_length_le le_rfl, Nat.sub_self]
      rfl
    have hlt : front.length < (front ++ [object] ++ back).length := by
      simp
    rw [if_pos hinside, hdelete, deleteItem, if_pos hlt, herased]
    simp [hinside]

/-- The objects up to some index are examined from the last to the first. -/
theorem foldlM_removeAt (front back : List A) : (List.range front.length).reverse.foldlM
        (removeAt placement pixelWidth pixelHeight deleteObject)
        (front ++ back) =
      .ok (front.filter (Inside placement pixelWidth pixelHeight) ++ back) := by
  induction front using List.reverseRecOn generalizing back with
  | nil => rfl
  | append_singleton front object ih =>
      rw [List.length_append, List.length_singleton, List.range_succ, List.reverse_append,
        List.reverse_singleton, List.singleton_append, List.foldlM_cons,
        removeAt_append hdelete, List.filter_append, List.append_assoc]
      exact ih _

theorem removeOutOfBounds_eq (objects : List A) :
    removeOutOfBounds placement pixelWidth pixelHeight deleteObject objects =
      .ok (objects.filter (Inside placement pixelWidth pixelHeight)) := by
  have hrun := @foldlM_removeAt A placement pixelWidth pixelHeight _ hdelete objects []
  rw [List.append_nil, List.append_nil] at hrun
  exact hrun

end

theorem keepsInside_filter (objects : List A) : KeepsInside placement pixelWidth pixelHeight objects
      (objects.filter (Inside placement pixelWidth pixelHeight)) := by
  refine ⟨fun object hmem => ?_, List.Sublist.refl _⟩
  exact of_decide_eq_true (List.mem_filter.mp hmem).2

theorem toNat_updateCoordinate_lt (hpos : 0 < pixels) (coordinate : UInt16) :
    (updateCoordinate pixels coordinate).toNat < pixels := by
  have hlt := coordinate.toNat_lt
  unfold updateCoordinate
  split
  · rw [UInt16.toNat_ofNat_of_lt']
    · omega
    · rw [UInt16.size]
      omega
  · omega

theorem updateCoordinate_of_lt {coordinate : UInt16} (hlt : coordinate.toNat < pixels) :
    updateCoordinate pixels coordinate = coordinate :=
  if_neg (Nat.not_le_of_lt hlt)

theorem keepsInside_updateOutOfBounds (hwidth : 0 < pixelWidth)
    (hheight : 0 < pixelHeight) (objects : List A) :
    KeepsInside placement pixelWidth pixelHeight objects
      (updateOutOfBounds placement pixelWidth pixelHeight objects) := by
  constructor
  · intro object hmem
    obtain ⟨old, -, rfl⟩ := List.mem_map.mp hmem
    rw [Inside, placement.xc_place, placement.yc_place]
    exact ⟨toNat_updateCoordinate_lt hwidth _, toNat_updateCoordinate_lt hheight _⟩
  · induction objects with
    | nil => exact List.Sublist.refl []
    | cons object rest ih =>
        rw [updateOutOfBounds, List.map_cons]
        by_cases hinside : Inside placement pixelWidth pixelHeight object
        · rw [List.filter_cons, if_pos (decide_eq_true hinside),
            updateCoordinate_of_lt hinside.1, updateCoordinate_of_lt hinside.2,
            placement.place_self]
          exact ih.cons_cons object
        · rw [List.filter_cons, if_neg (by simpa using hinside)]
          exact ih.cons _

end Kept

section Validated

variable {layers after : MapLayers} {sizeValidationFlags : UInt16}

theorem getAnywhere_eq {slot : Option Location} (hslot : layers.locations[anywhere]? = some slot) :
    layers.getAnywhere = .ok slot := by
  rw [MapLayers.getAnywhere, hslot]

/-- Matching Anywhere to the size it has changes nothing. -/
theorem matchAnywhereToDimensions_of_standard
    (hslot : layers.locations[anywhere]? = some (some location))
    (hleft : location.left = 0) (htop : location.top = 0)
    (hright : location.right.toNat = layers.pixelWidth)
    (hbottom : location.bottom.toNat = layers.pixelHeight) :
    layers.matchAnywhereToDimensions = .ok layers := by
  obtain ⟨hlt, hget⟩ := List.getElem?_eq_some_iff.mp hslot
  have hmatched : ({ location with
      left := 0
      top := 0
      right := UInt32.ofNat layers.pixelWidth
      bottom := UInt32.ofNat layers.pixelHeight } : Location) = location := by
    rw [← hright, ← hbottom, UInt32.ofNat_toNat, UInt32.ofNat_toNat]
    cases location
    simp_all
  have hset : layers.locations.set anywhere (some location) =
      layers.locations := by
    rw [← hget, List.set_getElem_self]
  rw [MapLayers.matchAnywhereToDimensions, getAnywhere_eq hslot]
  change Except.ok _ = _
  simp only [hmatched, hset]

/-- Anywhere is compared with the size it is matched to, so it stays. -/
theorem validateAnywhere_eq_ok_iff
    (hasked : SizeValidation.updateAnywhereIfAlreadyStandard.Asked sizeValidationFlags) :
    layers.validateAnywhere sizeValidationFlags = .ok after ↔
      anywhere < layers.locations.length ∧ after = layers := by
  rw [MapLayers.validateAnywhere, if_pos hasked, MapLayers.anywhereIsStandardDimensions]
  cases hslot : layers.locations[anywhere]? with
  | none =>
      rw [MapLayers.getAnywhere, hslot]
      have hshort := List.getElem?_eq_none_iff.mp hslot
      exact iff_of_false nofun fun h => absurd h.1 (Nat.not_lt.mpr hshort)
  | some slot =>
      have hlt := (List.getElem?_eq_some_iff.mp hslot).1
      rw [getAnywhere_eq hslot, and_iff_right hlt]
      change (if coversPixels layers.pixelWidth layers.pixelHeight slot then
        layers.matchAnywhereToDimensions else .ok layers) = _ ↔ _
      have hstays : (if coversPixels layers.pixelWidth layers.pixelHeight slot
          then layers.matchAnywhereToDimensions else .ok layers) =
          .ok layers := by
        split
        · rename_i hcovers
          cases slot with
          | none => cases hcovers
          | some location =>
              obtain ⟨hleft, htop, hright, hbottom⟩ := of_decide_eq_true hcovers
              exact matchAnywhereToDimensions_of_standard hslot hleft htop hright hbottom
        · rfl
      rw [hstays, Except.ok.injEq, eq_comm]

/-- Locations are downsized if no pointer to them is null. -/
theorem mapM_downsizeSlot_eq_ok_iff {pixelWidth pixelHeight : ℕ}
    {locations downsized : List (Option Location)} :
    locations.mapM (downsizeSlot pixelWidth pixelHeight) = .ok downsized ↔
      none ∉ locations ∧ downsized = locations.map
        (Option.map (downsizeLocation pixelWidth pixelHeight)) := by
  induction locations generalizing downsized with
  | nil => simp [pure, Except.pure, eq_comm]
  | cons location rest ih =>
      rw [List.mapM_cons, Fault.bind_eq_ok_iff]
      cases location with
      | none => simp [downsizeSlot]
      | some location =>
          simp only [downsizeSlot, Except.ok.injEq, exists_eq_left', Fault.bind_eq_ok_iff, ih]
          constructor
          · rintro ⟨behind, ⟨hfilled, rfl⟩, hresult⟩
            cases hresult
            exact ⟨by simpa using hfilled, rfl⟩
          · rintro ⟨hfilled, rfl⟩
            exact ⟨_, ⟨by simpa using hfilled, rfl⟩, rfl⟩

/-- The locations behind `validateSizes`. -/
def validatedLocations (layers : MapLayers) (sizeValidationFlags : UInt16) :
    List (Option Location) :=
  if SizeValidation.updateOutOfBoundsLocations.Asked sizeValidationFlags then
    layers.locations.take 1 ++ layers.locations.tail.map (Option.map
      (downsizeLocation layers.pixelWidth layers.pixelHeight))
  else
    layers.locations

theorem validateLocations_eq_ok_iff : layers.validateLocations sizeValidationFlags = .ok after ↔
      (SizeValidation.updateOutOfBoundsLocations.Asked sizeValidationFlags →
        none ∉ layers.locations.tail) ∧
      after = { layers with
        locations := validatedLocations layers sizeValidationFlags } := by
  unfold MapLayers.validateLocations validatedLocations
  by_cases hasked : SizeValidation.updateOutOfBoundsLocations.Asked sizeValidationFlags
  · rw [if_pos hasked, if_pos hasked, MapLayers.downsizeOutOfBoundsLocations, Fault.bind_eq_ok_iff]
    simp only [mapM_downsizeSlot_eq_ok_iff, hasked, forall_const]
    constructor
    · rintro ⟨downsized, ⟨hfilled, rfl⟩, hresult⟩
      cases hresult
      exact ⟨hfilled, rfl⟩
    · rintro ⟨hfilled, rfl⟩
      exact ⟨_, ⟨hfilled, rfl⟩, rfl⟩
  · rw [if_neg hasked, if_neg hasked, and_iff_right fun h => absurd h hasked]
    exact ⟨fun h => (Except.ok.inj h).symm, fun h => h ▸ rfl⟩

theorem validateDoodads_eq (hasked : SizeValidation.removeOutOfBoundsDoodads.Asked
      sizeValidationFlags) :
    ∃ doodads, layers.validateDoodads sizeValidationFlags = .ok { layers with doodads := doodads } ∧
      KeepsInside doodadPlacement layers.pixelWidth layers.pixelHeight layers.doodads doodads := by
  refine ⟨_, ?_, keepsInside_filter layers.doodads⟩
  rw [MapLayers.validateDoodads, if_pos hasked, MapLayers.removeOutOfBoundsDoodads,
    removeOutOfBounds_eq (rfl : deleteDoodad = deleteItem)]
  rfl

variable (hwidth : 0 < layers.pixelWidth) (hheight : 0 < layers.pixelHeight)

include hwidth hheight

theorem validateUnits_eq (hasked : SizeValidation.updateOutOfBoundsUnits.Asked sizeValidationFlags ∨
      SizeValidation.removeOutOfBoundsUnits.Asked sizeValidationFlags) :
    ∃ units, layers.validateUnits sizeValidationFlags = .ok { layers with units := units } ∧
      KeepsInside unitPlacement layers.pixelWidth layers.pixelHeight layers.units units := by
  unfold MapLayers.validateUnits
  split
  · exact ⟨_, rfl, keepsInside_updateOutOfBounds hwidth hheight _⟩
  · rename_i hupdate
    refine ⟨_, ?_, keepsInside_filter layers.units⟩
    rw [if_pos (hasked.resolve_left hupdate), MapLayers.removeOutOfBoundsUnits,
      removeOutOfBounds_eq (rfl : deleteUnit = deleteItem)]
    rfl

theorem validateSprites_eq (hasked :
      SizeValidation.updateOutOfBoundsSprites.Asked sizeValidationFlags ∨
        SizeValidation.removeOutOfBoundsSprites.Asked sizeValidationFlags) :
    ∃ sprites, layers.validateSprites sizeValidationFlags = .ok { layers with sprites := sprites } ∧
      KeepsInside spritePlacement layers.pixelWidth layers.pixelHeight layers.sprites sprites := by
  unfold MapLayers.validateSprites
  split
  · exact ⟨_, rfl, keepsInside_updateOutOfBounds hwidth hheight _⟩
  · rename_i hupdate
    refine ⟨_, ?_, keepsInside_filter layers.sprites⟩
    rw [if_pos (hasked.resolve_left hupdate), MapLayers.removeOutOfBoundsSprites,
      removeOutOfBounds_eq (rfl : deleteSprite = deleteItem)]
    rfl

/-- Objects are always kept inside; what can fail is about locations. -/
theorem validateSizes_eq_ok_iff (hasks : AsksForObjects sizeValidationFlags) :
    ∃ units sprites doodads,
      KeepsInside unitPlacement layers.pixelWidth layers.pixelHeight layers.units units ∧
      KeepsInside spritePlacement layers.pixelWidth layers.pixelHeight layers.sprites sprites ∧
      KeepsInside doodadPlacement layers.pixelWidth layers.pixelHeight layers.doodads doodads ∧
      ∀ after, layers.validateSizes sizeValidationFlags = .ok after ↔
        anywhere < layers.locations.length ∧
        (SizeValidation.updateOutOfBoundsLocations.Asked sizeValidationFlags →
          none ∉ layers.locations.tail) ∧
        after = { layers with
          locations := validatedLocations layers sizeValidationFlags
          units := units
          sprites := sprites
          doodads := doodads } := by
  have hdoodads := @validateDoodads_eq
    { layers with
      locations := validatedLocations layers sizeValidationFlags } _
    hasks.doodads
  obtain ⟨doodads, hdoodads, hkeepsDoodads⟩ := hdoodads
  obtain ⟨units, hunits, hkeepsUnits⟩ := @validateUnits_eq
    { layers with
      locations := validatedLocations layers sizeValidationFlags
      doodads := doodads } _ hwidth hheight hasks.units
  obtain ⟨sprites, hsprites, hkeepsSprites⟩ := @validateSprites_eq
    { layers with
      locations := validatedLocations layers sizeValidationFlags
      doodads := doodads
      units := units } _ hwidth hheight hasks.sprites
  refine ⟨units, sprites, doodads, hkeepsUnits, hkeepsSprites, hkeepsDoodads, fun after => ?_⟩
  simp only [MapLayers.validateSizes, Fault.bind_eq_ok_iff,
    validateAnywhere_eq_ok_iff hasks.anywhere, validateLocations_eq_ok_iff]
  constructor
  · rintro ⟨matched, ⟨hlt, rfl⟩, located, ⟨hfilled, rfl⟩, cleared, hcleared, moved, hmoved, hrest⟩
    rw [hdoodads] at hcleared
    cases hcleared
    rw [hunits] at hmoved
    cases hmoved
    rw [hsprites] at hrest
    cases hrest
    exact ⟨hlt, hfilled, rfl⟩
  · rintro ⟨hlt, hfilled, rfl⟩
    exact ⟨layers, ⟨hlt, rfl⟩, _, ⟨hfilled, rfl⟩, _, hdoodads, _, hunits, hsprites⟩

omit hheight in
/-- A location that was downsized does not reach the right edge. -/
theorem toNat_right_downsizeLocation_lt (location : Location) :
    (downsizeLocation layers.pixelWidth layers.pixelHeight
      location).right.toNat < layers.pixelWidth := by
  have hedge := location.right.toNat_lt
  unfold downsizeLocation
  simp only
  split
  · rw [UInt32.toNat_ofNat_of_lt']
    · omega
    · rw [UInt32.size]
      omega
  · omega

omit hwidth hheight in
theorem getElem?_validatedLocations
    (hasked : SizeValidation.updateOutOfBoundsLocations.Asked sizeValidationFlags)
    (hslot : layers.locations[anywhere]? = some (some location)) :
    (validatedLocations layers sizeValidationFlags)[anywhere]? =
      some (some (downsizeLocation layers.pixelWidth layers.pixelHeight location)) := by
  rw [validatedLocations, if_pos hasked]
  cases hlocations : layers.locations with
  | nil =>
      rw [hlocations] at hslot
      cases hslot
  | cons first rest =>
      rw [hlocations, anywhere, List.getElem?_cons_succ] at hslot
      rw [anywhere, List.take_succ_cons, List.take_zero, List.tail_cons,
        List.singleton_append, List.getElem?_cons_succ, List.getElem?_map, hslot]
      rfl

omit hheight in
/-- A map that Anywhere covered is covered behind the validation if it has the
size it had and locations are not downsized. -/
theorem anywhereCovers_validatedLocations_iff {oldWidth oldHeight : UInt16}
    (hcovers : AnywhereCovers layers.locations oldWidth oldHeight) :
    AnywhereCovers (validatedLocations layers sizeValidationFlags)
        layers.tileWidth layers.tileHeight ↔
      layers.tileWidth = oldWidth ∧ layers.tileHeight = oldHeight ∧
        ¬ SizeValidation.updateOutOfBoundsLocations.Asked
          sizeValidationFlags := by
  obtain ⟨location, hslot, hleft, htop, hright, hbottom⟩ := hcovers
  by_cases hasked : SizeValidation.updateOutOfBoundsLocations.Asked sizeValidationFlags
  · apply iff_of_false
    · rintro ⟨downsized, hdownsized, -, -, hcovered, -⟩
      rw [getElem?_validatedLocations hasked hslot, Option.some.injEq,
        Option.some.injEq] at hdownsized
      rw [← hdownsized] at hcovered
      have hlt := toNat_right_downsizeLocation_lt hwidth location
      exact hlt.ne hcovered
    · exact fun h => h.2.2 hasked
  · rw [validatedLocations, if_neg hasked]
    constructor
    · rintro ⟨same, hsame, -, -, hwide, hhigh⟩
      rw [hslot, Option.some.injEq, Option.some.injEq] at hsame
      subst hsame
      refine ⟨UInt16.toNat_inj.mp ?_, UInt16.toNat_inj.mp ?_, hasked⟩
      · omega
      · omega
    · rintro ⟨hsameWidth, hsameHeight, -⟩
      rw [hsameWidth, hsameHeight]
      exact ⟨location, hslot, hleft, htop, hright, hbottom⟩

end Validated

theorem Layers.setDimensions_eq_ok_iff {layers terrain : Layers} :
    layers.setDimensions tileWidth tileHeight leftEdge topEdge = .ok terrain ↔
      CopiesReturn layers tileWidth tileHeight leftEdge topEdge ∧ terrain = { layers with
          isomEntries := isomSetDimensions layers.isomEntries tileWidth tileHeight
          tileWidth := tileWidth
          tileHeight := tileHeight } := by
  simp only [Layers.setDimensions, Layers.resizeSections, CopiesReturn,
    Fault.bind_eq_ok_iff, List.forall_mem_cons, List.not_mem_nil,
    IsEmpty.forall_iff, implies_true, and_true]
  constructor
  · rintro ⟨resized, ⟨tiles, htiles, others, hothers, hresized⟩, hterrain⟩
    cases hresized
    cases hterrain
    exact ⟨⟨⟨tiles, htiles⟩, ⟨others, hothers⟩⟩, rfl⟩
  · rintro ⟨⟨⟨tiles, htiles⟩, ⟨others, hothers⟩⟩, rfl⟩
    exact ⟨_, ⟨tiles, htiles, others, hothers, rfl⟩, rfl⟩

/-- On a map whose tiles have its size the copies are resized inside them
exactly if the columns fit. -/
theorem copiesReturn_iff_copyInside {layers : Layers}
    (hsize : HasSize layers.tileWidth layers.tileHeight layers)
    (hwidth : 0 < layers.tileWidth.toNat) (hheight : 0 < layers.tileHeight.toNat)
    (leftEdge topEdge : ℤ) :
    CopiesReturn layers tileWidth tileHeight leftEdge topEdge ↔
      CopyInside tileWidth tileHeight layers.tileWidth layers.tileHeight leftEdge topEdge := by
  have htile := setMtxmOrTileDimensions_ok_iff hwidth hheight hsize.tile
    tileWidth tileHeight leftEdge topEdge
  have hmtxm := setMtxmOrTileDimensions_ok_iff hwidth hheight hsize.mtxm
    tileWidth tileHeight leftEdge topEdge
  simp only [CopiesReturn, List.forall_mem_cons, List.not_mem_nil,
    IsEmpty.forall_iff, implies_true, and_true, htile, hmtxm, and_self]

/-- The layers between the resize of the terrain and the validation. -/
def MapLayers.resized (layers : MapLayers) (tileWidth tileHeight : UInt16) : MapLayers :=
  { layers with
    isomEntries := isomSetDimensions layers.isomEntries tileWidth tileHeight
    tileWidth := tileWidth
    tileHeight := tileHeight }

section Calls

variable {layers : MapLayers}
  {tileWidth tileHeight sizeValidationFlags : UInt16}
  (hwidth : 0 < tileWidth.toNat) (hheight : 0 < tileHeight.toNat)

theorem MapLayers.setDimensions_eq_ok_iff {after : MapLayers} :
    layers.setDimensions tileWidth tileHeight sizeValidationFlags leftEdge topEdge = .ok after ↔
      CopiesReturn layers.toLayers tileWidth tileHeight leftEdge topEdge ∧
        (layers.resized tileWidth tileHeight).validateSizes sizeValidationFlags = .ok after := by
  rw [MapLayers.setDimensions, Fault.bind_eq_ok_iff]
  simp only [Layers.setDimensions_eq_ok_iff, Fault.ofHazard_eq_ok_iff]
  constructor
  · rintro ⟨terrain, ⟨hcopies, rfl⟩, hvalid⟩
    exact ⟨hcopies, hvalid⟩
  · rintro ⟨hcopies, hvalid⟩
    exact ⟨_, ⟨hcopies, rfl⟩, hvalid⟩

include hwidth

/-- Anywhere behind a call, if it covered the map before. -/
theorem anywhereCovers_resized_iff
    (hcovers : AnywhereCovers layers.locations layers.tileWidth layers.tileHeight) :
    AnywhereCovers (validatedLocations (layers.resized tileWidth tileHeight)
        sizeValidationFlags) tileWidth tileHeight ↔
      tileWidth = layers.tileWidth ∧ tileHeight = layers.tileHeight ∧
        ¬ SizeValidation.updateOutOfBoundsLocations.Asked
          sizeValidationFlags :=
  @anywhereCovers_validatedLocations_iff (layers.resized tileWidth tileHeight) sizeValidationFlags
    (Nat.mul_pos hwidth (by decide)) _ _ hcovers

include hheight

/-- The objects of a map are kept on it, and Anywhere covers it as before,
exactly under the condition. -/
theorem keepsObjects_iff (hasks : AsksForObjects sizeValidationFlags) (leftEdge topEdge : ℤ) :
    KeepsObjects layers tileWidth tileHeight sizeValidationFlags leftEdge topEdge ↔
      MeetsResize layers tileWidth tileHeight sizeValidationFlags leftEdge
        topEdge := by
  obtain ⟨units, sprites, doodads, hunits, hsprites, hdoodads, hvalidate⟩ :=
    @validateSizes_eq_ok_iff (layers.resized tileWidth tileHeight) _
      (Nat.mul_pos hwidth (by decide)) (Nat.mul_pos hheight (by decide)) hasks
  simp only [KeepsObjects, MapLayers.setDimensions_eq_ok_iff, hvalidate]
  constructor
  · rintro ⟨after, ⟨hcopies, hlt, hfilled, rfl⟩, -, -, -, hanywhere⟩
    exact ⟨hcopies, hlt, hfilled, fun hcovers =>
      (anywhereCovers_resized_iff hwidth hcovers).mp (hanywhere hcovers)⟩
  · rintro ⟨hcopies, hlt, hfilled, hstandard⟩
    exact ⟨_, ⟨hcopies, hlt, hfilled, rfl⟩, hunits, hsprites, hdoodads,
      fun hcovers => (anywhereCovers_resized_iff hwidth hcovers).mpr (hstandard hcovers)⟩

end Calls

/-- A new map of this size with one unit. -/
def oneUnitLayers (width height xc yc : UInt16) (locations : List (Option Location)) : MapLayers :=
  { newLayers width height with
    units := [{ unitCodec.decode (List.replicate 36 0) with
      xc := xc
      yc := yc }]
    sprites := []
    doodads := []
    locations := locations }

/-- Without locations that cover it, a map of 4 times 3 tiles is made 2 tiles
wide, and its unit moved to the edge. -/
theorem keepsObjects_smaller : KeepsObjects (oneUnitLayers 4 3 100 50
      (List.replicate 65 (some blankLocation))) 2 3 0x5A 0 0 := by
  rw [keepsObjects_iff (by decide) (by decide)
    ⟨by decide, by decide, .inl (by decide), .inl (by decide)⟩]
  refine ⟨?_, by decide, ?_, ?_⟩
  · rw [copiesReturn_iff_copyInside (hasSize_newLayers 4 3) (by decide) (by decide)]
    decide
  · intro hasked
    revert hasked
    decide
  · rintro ⟨location, hslot, -, -, hright, -⟩
    rw [show location = blankLocation from
      (Option.some.inj (Option.some.inj hslot)).symm] at hright
    revert hright
    decide

/-- Anywhere of a new map does not follow its size. -/
theorem setDimensions_leaves_anywhere :
    ¬ KeepsObjects (oneUnitLayers 64 64 0 0 (defaultMrgn 64 64)) 96 96 0x5A 0 0 := by
  rintro ⟨after, hafter, -, -, -, hanywhere⟩
  have hcovers : AnywhereCovers (defaultMrgn 64 64) 64 64 :=
    ⟨_, rfl, by decide, by decide, by decide, by decide⟩
  obtain ⟨-, hvalid⟩ := MapLayers.setDimensions_eq_ok_iff.mp hafter
  obtain ⟨units, sprites, doodads, -, -, -, hvalidate⟩ :=
    @validateSizes_eq_ok_iff ((oneUnitLayers 64 64 0 0
      (defaultMrgn 64 64)).resized 96 96) 0x5A (by decide) (by decide)
      ⟨by decide, by decide, .inl (by decide), .inl (by decide)⟩
  obtain ⟨-, -, rfl⟩ := (hvalidate after).mp hvalid
  have hiff := @anywhereCovers_resized_iff (oneUnitLayers 64 64 0 0
    (defaultMrgn 64 64)) 96 96 0x5A (by decide) hcovers
  exact absurd (hiff.mp (hanywhere hcovers)).1 (by decide)

end Chkdraft.Scenario
