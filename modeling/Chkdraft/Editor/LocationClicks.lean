import Chkdraft.Scenario.Locations

/-!
# Clicks on locations

A click selects the first location below it that is not selected and was not
selected recently.  If there is none it starts again with the first one that is
not selected.  The recent locations are kept as bytes, and the loop over the
locations counts with 16 bits, so ids behind 255 and tables of 65535 locations
behave differently.
-/

namespace Chkdraft.Editor

open Chk Scenario

variable {firstRecentlySelected : UInt16} {i m : ℕ} {indices : List ℕ}

/-- `NO_LOCATION`. -/
def noLocation : UInt16 := 0xFFFF

/-- The location part of `Selections`; of `recentLocations` the first
`numRecentLocations` entries. -/
structure LocationSelection where
  selectedLocation : UInt16
  recentLocations : List UInt8
deriving DecidableEq

/-- The arguments of a click. -/
structure Click where
  clickX : Int32
  clickY : Int32
  canSelectAnywhere : Bool

/-- `MrgnSection::numLocations`. -/
def numLocations (locations : List Location) : ℕ := locations.length - 1

/-- `MrgnSection::getLocation`; slot 0 is null. -/
def locationAt (locations : List Location) (locationId : ℕ) : Option Location :=
  if locationId = 0 then none else locations[locationId]?

namespace Click

/-- The click is inside the location, whose sides may be swapped. -/
def inside (click : Click) (location : Location) : Bool :=
  let locLeft := (min location.left location.right).toInt32
  let locRight := (max location.left location.right).toInt32
  let locTop := (min location.top location.bottom).toInt32
  let locBottom := (max location.top location.bottom).toInt32
  click.clickX ≥ locLeft && click.clickX ≤ locRight &&
    click.clickY ≥ locTop && click.clickY ≤ locBottom

/-- The click is inside a location that it may select. -/
def covers (click : Click) (locations : List Location) (locationId : ℕ) : Bool :=
  (locationId ≠ anywhere || click.canSelectAnywhere) &&
    (locationAt locations locationId).any click.inside

def selectable (click : Click) (locations : List Location) : List ℕ :=
  (List.range' 1 (numLocations locations)).filter (click.covers locations)

end Click

namespace LocationSelection

/-- The location was selected recently; only ids below 256 are found. -/
def Recent (selections : LocationSelection) (locationId : ℕ) : Prop :=
  locationId ∈ selections.recentLocations.map UInt8.toNat

instance (selections : LocationSelection) (locationId : ℕ) :
    Decidable (selections.Recent locationId) :=
  inferInstanceAs (Decidable (_ ∈ _))

/-- Select a location that was not selected recently. -/
def choose (selections : LocationSelection) (i : UInt16) : LocationSelection where
  selectedLocation := i
  recentLocations :=
    if selections.recentLocations.length < totalLocations then
      selections.recentLocations ++ [i.toUInt8]
    else
      [i.toUInt8]

/-- Select the first recent location, or `NO_LOCATION`. -/
def restart (firstRecentlySelected : UInt16) : LocationSelection where
  selectedLocation := firstRecentlySelected
  recentLocations := [firstRecentlySelected.toUInt8]

end LocationSelection

open LocationSelection

/-- The variables of the loop in `selectLocation`. -/
structure Scanning where
  i : UInt16
  firstRecentlySelected : UInt16

def clickPass (locations : List Location) (click : Click)
    (selections : LocationSelection) (state : Scanning) :
    Loop.Control Scanning LocationSelection :=
  if state.i.toNat ≤ numLocations locations then
    if state.i ≠ selections.selectedLocation ∧ click.covers locations state.i.toNat then
      if selections.Recent state.i.toNat then
        .next ⟨state.i + 1,
          if state.firstRecentlySelected = noLocation then state.i
          else state.firstRecentlySelected⟩
      else
        .done (selections.choose state.i)
    else
      .next { state with i := state.i + 1 }
  else
    .done (restart state.firstRecentlySelected)

/-- A loop that is still running when the counter is back at 0 never ends. -/
def selectLocation (locations : List Location) (click : Click)
    (selections : LocationSelection) : Except Hazard LocationSelection :=
  match Loop.run (clickPass locations click selections) 65536 ⟨1, noLocation⟩ with
  | some after => .ok after
  | none => .error .endlessLoop

section OneClick

variable {locations : List Location} {click : Click}
  {selections : LocationSelection}

def scanned (locations : List Location) (click : Click) : List ℕ :=
  (List.range' 1 (min (numLocations locations) 65535)).filter (click.covers locations)

/-- A click selects the location at once. -/
def LocationSelection.Fresh (selections : LocationSelection) (locationId : ℕ) : Prop :=
  locationId ≠ selections.selectedLocation.toNat ∧ ¬ selections.Recent locationId

instance (selections : LocationSelection) (locationId : ℕ) :
    Decidable (selections.Fresh locationId) :=
  inferInstanceAs (Decidable (_ ∧ _))

theorem LocationSelection.Recent.lt {locationId : ℕ}
    (hrecent : selections.Recent locationId) : locationId < 256 := by
  obtain ⟨recent, -, rfl⟩ := List.mem_map.mp hrecent
  exact recent.toNat_lt

theorem not_covers_zero (locations : List Location) (click : Click) :
    click.covers locations 0 = false := by
  simp [Click.covers, locationAt]

/-- What the loop returns from an index on, if the indices up to its end are as
many as the passes. -/
def scanResult (locations : List Location) (selections : LocationSelection)
    (firstRecentlySelected : UInt16) (indices : List ℕ) :
    Option LocationSelection :=
  match indices.find? (selections.Fresh ·) with
  | some i => some (selections.choose (UInt16.ofNat i))
  | none =>
      if numLocations locations < 65535 then
        some (restart (if firstRecentlySelected = noLocation then
          ((indices.find? (· ≠ selections.selectedLocation.toNat)).map UInt16.ofNat).getD noLocation
          else firstRecentlySelected))
      else
        none

theorem scanResult_cons_selected (hselected : i = selections.selectedLocation.toNat) :
    scanResult locations selections firstRecentlySelected (i :: indices) =
      scanResult locations selections firstRecentlySelected indices := by
  have hfresh : ¬ selections.Fresh i := fun hfresh => hfresh.1 hselected
  simp only [scanResult]
  rw [List.find?_cons_of_neg (by simpa using hfresh),
    List.find?_cons_of_neg (by simpa using hselected)]

theorem scanResult_cons_recent (hother : i ≠ selections.selectedLocation.toNat)
    (hrecent : selections.Recent i) :
    scanResult locations selections firstRecentlySelected (i :: indices) =
      scanResult locations selections (if firstRecentlySelected = noLocation then UInt16.ofNat i
          else firstRecentlySelected) indices := by
  have hfresh : ¬ selections.Fresh i := fun hfresh => hfresh.2 hrecent
  have hvalid : UInt16.ofNat i ≠ noLocation := by
    intro heq
    have hlt := hrecent.lt
    have hvalue := congrArg UInt16.toNat heq
    rw [UInt16.toNat_ofNat_of_lt' (by rw [UInt16.size]; omega)] at hvalue
    rw [hvalue] at hlt
    exact absurd hlt (by decide)
  simp only [scanResult]
  rw [List.find?_cons_of_neg (by simpa using hfresh),
    List.find?_cons_of_pos (by simpa using hother)]
  by_cases hfirst : firstRecentlySelected = noLocation
  · simp [hfirst, hvalid]
  · simp [hfirst]

theorem scanResult_cons_fresh (hfresh : selections.Fresh i) :
    scanResult locations selections firstRecentlySelected (i :: indices) =
      some (selections.choose (UInt16.ofNat i)) := by
  rw [scanResult, List.find?_cons_of_pos (by simpa using hfresh)]

theorem run_clickPass (locations : List Location) (click : Click)
    (selections : LocationSelection) (count i : ℕ)
    (firstRecentlySelected : UInt16)
    (hend : i + count = min (numLocations locations) 65535 + 1) :
    Loop.run (clickPass locations click selections) (count + 1)
        ⟨UInt16.ofNat i, firstRecentlySelected⟩ =
      scanResult locations selections firstRecentlySelected
        ((List.range' i count).filter (click.covers locations)) := by
  induction count generalizing i firstRecentlySelected with
  | zero =>
      rw [List.range'_zero, List.filter_nil, Loop.run, clickPass]
      by_cases hfits : numLocations locations < 65535
      · have hi : (UInt16.ofNat i).toNat = i :=
          UInt16.toNat_ofNat_of_lt' (by rw [UInt16.size]; omega)
        have hover : ¬ i ≤ numLocations locations := by omega
        by_cases hfirst : firstRecentlySelected = noLocation
        · simp [hi, hover, scanResult, hfits, hfirst]
        · simp [hi, hover, scanResult, hfits, hfirst]
      · -- The counter has wrapped around to slot 0.
        have hi : i = 65536 := by omega
        simp [hi, not_covers_zero, scanResult, hfits, Loop.run]
  | succ count ih =>
      have hi : (UInt16.ofNat i).toNat = i := UInt16.toNat_ofNat_of_lt' (by rw [UInt16.size]; omega)
      have hle : i ≤ numLocations locations := by omega
      have hsame : UInt16.ofNat i = selections.selectedLocation ↔
          i = selections.selectedLocation.toNat := by
        rw [← UInt16.toNat_inj, hi]
      have hnext := fun first => ih (i + 1) first (by omega)
      rw [UInt16.ofNat_add] at hnext
      rw [List.range'_succ, Loop.run, clickPass, hi, if_pos hle]
      cases hcovers : click.covers locations i with
      | false =>
          rw [List.filter_cons_of_neg (by simp [hcovers])]
          simpa using hnext _
      | true =>
          rw [List.filter_cons_of_pos hcovers]
          by_cases hselected : i = selections.selectedLocation.toNat
          · rw [scanResult_cons_selected hselected]
            simpa [hsame.mpr hselected] using hnext _
          · have hother : UInt16.ofNat i ≠ selections.selectedLocation :=
              fun heq => hselected (hsame.mp heq)
            by_cases hrecent : selections.Recent i
            · rw [scanResult_cons_recent hselected hrecent]
              simpa [hother, hrecent] using hnext _
            · rw [scanResult_cons_fresh ⟨hselected, hrecent⟩]
              simp [hother, hrecent]

/-- One click: the first fresh location, else the first one that is not
selected, if the loop ends. -/
theorem selectLocation_eq : selectLocation locations click selections =
      match scanResult locations selections noLocation (scanned locations click) with
      | some after => .ok after
      | none => .error .endlessLoop := by
  have hrun := run_clickPass locations click selections
    (min (numLocations locations) 65535) 1 noLocation (Nat.add_comm _ _)
  rw [selectLocation, scanned]
  by_cases hfits : numLocations locations < 65535
  · have hsome : ∃ after, scanResult locations selections noLocation
        ((List.range' 1 (min (numLocations locations) 65535)).filter
          (click.covers locations)) = some after := by
      rw [scanResult]
      split
      · exact ⟨_, rfl⟩
      · exact ⟨_, if_pos hfits⟩
    obtain ⟨after, hafter⟩ := hsome
    rw [hafter] at hrun ⊢
    have hall := Loop.run_add hrun (65536 - (min (numLocations locations) 65535 + 1))
    have hone : UInt16.ofNat 1 = 1 := rfl
    rw [Nat.add_sub_of_le (by omega), hone] at hall
    rw [hall]
  · have hcount : min (numLocations locations) 65535 = 65535 := by omega
    rw [hcount] at hrun ⊢
    rw [← hrun]
    rfl

theorem selectLocation_of_fresh
    (hfind : (scanned locations click).find? (selections.Fresh ·) = some i) :
    selectLocation locations click selections = .ok (selections.choose (UInt16.ofNat i)) := by
  rw [selectLocation_eq, scanResult, hfind]

theorem selectLocation_of_not_fresh (hnone : ∀ i ∈ scanned locations click, ¬ selections.Fresh i) :
    selectLocation locations click selections =
      if numLocations locations < 65535 then
        .ok (restart ((((scanned locations click).find?
          (· ≠ selections.selectedLocation.toNat)).map UInt16.ofNat).getD noLocation))
      else
        .error .endlessLoop := by
  have hfind : (scanned locations click).find? (selections.Fresh ·) = none :=
    List.find?_eq_none.mpr (by simpa using hnone)
  rw [selectLocation_eq, scanResult, hfind]
  by_cases hfits : numLocations locations < 65535
  · simp [hfits]
  · simp [hfits]

theorem mem_scanned : i ∈ scanned locations click ↔ i ∈ click.selectable locations ∧ i ≤ 65535 := by
  simp only [scanned, Click.selectable, List.mem_filter, List.mem_range'_1]
  constructor
  · rintro ⟨⟨hpos, hlt⟩, hcovers⟩
    exact ⟨⟨⟨hpos, by omega⟩, hcovers⟩, by omega⟩
  · rintro ⟨⟨⟨hpos, hlt⟩, hcovers⟩, hle⟩
    exact ⟨⟨hpos, by omega⟩, hcovers⟩

end OneClick

def clicks (locations : List Location) (click : Click) :
    ℕ → LocationSelection → Except Hazard LocationSelection
  | 0, selections => .ok selections
  | count + 1, selections =>
      clicks locations click count selections >>= selectLocation locations click

/-- The clicks return and select each selectable location once, and the next
ones repeat them in the same order. -/
def Cycles (locations : List Location) (click : Click) (selections : LocationSelection) : Prop :=
  ∃ order : List ℕ, order.Perm (click.selectable locations) ∧ ∀ count, ∃ after,
      clicks locations click (count + 1) selections = .ok after ∧
        order[count % order.length]? = some after.selectedLocation.toNat

/-- None of the selectable locations is selected or recent, and there is room
for all of them. -/
structure Unvisited (locations : List Location) (click : Click)
    (selections : LocationSelection) : Prop where
  notSelected : selections.selectedLocation.toNat ∉ click.selectable locations
  notRecent : ∀ i ∈ click.selectable locations, ¬ selections.Recent i
  room : selections.recentLocations.length + (click.selectable locations).length ≤ totalLocations

/-- All but the last of the ids are kept in a byte. -/
def AllButLastFit (selectable : List ℕ) : Prop := ∀ i ∈ selectable.dropLast, i < 256

section Cycle

variable {locations : List Location} {click : Click}
  {selections : LocationSelection}

theorem pairwise_selectable (locations : List Location) (click : Click) :
    (click.selectable locations).Pairwise (· < ·) :=
  List.Pairwise.filter _ List.pairwise_lt_range'

theorem nodup_selectable (locations : List Location) (click : Click) :
    (click.selectable locations).Nodup :=
  (pairwise_selectable locations click).imp Nat.ne_of_lt

section

variable (hle : ∀ i ∈ click.selectable locations, i ≤ 65535)

include hle

theorem scanned_eq : scanned locations click = click.selectable locations := by
  apply List.Pairwise.eq_of_mem_iff (List.Pairwise.filter _ List.pairwise_lt_range')
    (pairwise_selectable locations click)
  intro i
  exact mem_scanned.trans (and_iff_left_of_imp (hle i))

theorem selectLocation_getElem {j : ℕ} (hj : j < (click.selectable locations).length)
    (hfresh : selections.Fresh (click.selectable locations)[j])
    (hbefore : ∀ m, (hm : m < j) → ¬ selections.Fresh (click.selectable locations)[m]) :
    selectLocation locations click selections = .ok (selections.choose
        (UInt16.ofNat (click.selectable locations)[j])) := by
  apply selectLocation_of_fresh
  rw [scanned_eq hle]
  refine List.find?_eq_some_iff_getElem.mpr ⟨by simpa using hfresh, j, hj, rfl, fun m hm => ?_⟩
  simpa using hbefore m hm

theorem toNat_ofNat_getElem {j : ℕ} (hj : j < (click.selectable locations).length) :
    (UInt16.ofNat (click.selectable locations)[j]).toNat = (click.selectable locations)[j] := by
  have hi := hle _ (List.getElem_mem hj)
  exact UInt16.toNat_ofNat_of_lt' (by rw [UInt16.size]; omega)

end

/-- The location at a position was just selected, and the recent ones are some
others and all up to it. -/
structure Visits (locations : List Location) (click : Click)
    (others : List UInt8) (j : ℕ) (selections : LocationSelection) : Prop where
  selected : (click.selectable locations)[j]? = some selections.selectedLocation.toNat
  recent : selections.recentLocations = others ++
    ((click.selectable locations).take (j + 1)).map UInt8.ofNat

/-- Recent locations from elsewhere that leave room for the cycle. -/
structure Elsewhere (locations : List Location) (click : Click) (others : List UInt8) : Prop where
  notRecent : ∀ i ∈ click.selectable locations, i ∉ others.map UInt8.toNat
  room : others.length + (click.selectable locations).length ≤ totalLocations

section Visits

variable {others : List UInt8} {j : ℕ}

theorem Unvisited.elsewhere (hunvisited : Unvisited locations click selections) :
    Elsewhere locations click selections.recentLocations :=
  ⟨hunvisited.notRecent, hunvisited.room⟩

theorem visits_choose (helsewhere : Elsewhere locations click others)
    (hle : ∀ i ∈ click.selectable locations, i ≤ 65535)
    (hj : j < (click.selectable locations).length)
    (hrecent : selections.recentLocations =
      others ++ ((click.selectable locations).take j).map UInt8.ofNat) :
    Visits locations click others j
      (selections.choose (UInt16.ofNat (click.selectable locations)[j])) := by
  have hroom : selections.recentLocations.length < totalLocations := by
    have hroom := helsewhere.room
    rw [hrecent, List.length_append, List.length_map, List.length_take]
    omega
  constructor
  · rw [List.getElem?_eq_getElem hj]
    exact congrArg some (toNat_ofNat_getElem hle hj).symm
  · rw [LocationSelection.choose, if_pos hroom, hrecent, List.append_assoc,
      List.take_add_one, List.getElem?_eq_getElem hj, Option.toList_some,
      List.map_append, List.map_singleton, UInt16.toUInt8_ofNat']

theorem Unvisited.visits (hunvisited : Unvisited locations click selections)
    (hle : ∀ i ∈ click.selectable locations, i ≤ 65535)
    (hpos : 0 < (click.selectable locations).length) :
    ∃ after, selectLocation locations click selections = .ok after ∧
      Visits locations click selections.recentLocations 0 after := by
  have hmem := List.getElem_mem hpos
  have hfresh : selections.Fresh (click.selectable locations)[0] :=
    ⟨fun heq => hunvisited.notSelected (heq ▸ hmem), hunvisited.notRecent _ hmem⟩
  refine ⟨_, selectLocation_getElem hle hpos hfresh fun m hm => absurd hm m.not_lt_zero, ?_⟩
  exact visits_choose hunvisited.elsewhere hle hpos (by simp)

section

variable (hvisits : Visits locations click others j selections)

include hvisits

theorem Visits.selected_eq (hj : j < (click.selectable locations).length) :
    (click.selectable locations)[j] = selections.selectedLocation.toNat := by
  have hselected := hvisits.selected
  rw [List.getElem?_eq_getElem hj] at hselected
  exact Option.some.inj hselected

/-- A location up to the position that fits in a byte is recent. -/
theorem Visits.recent_of_le (hm : m ≤ j) (hlt : m < (click.selectable locations).length)
    (hfits : (click.selectable locations)[m] < 256) :
    selections.Recent (click.selectable locations)[m] := by
  have hmem : (click.selectable locations)[m] ∈ (click.selectable locations).take (j + 1) :=
    List.mem_take_iff_getElem.mpr ⟨m, by omega, rfl⟩
  rw [LocationSelection.Recent, hvisits.recent, List.map_append, List.map_map]
  apply List.mem_append_right
  refine List.mem_map.mpr ⟨_, hmem, ?_⟩
  exact UInt8.toNat_ofNat_of_lt' hfits

theorem Visits.not_recent (helsewhere : Elsewhere locations click others)
    (hm : j < m) (hlt : m < (click.selectable locations).length) :
    ¬ selections.Recent (click.selectable locations)[m] := by
  intro hrecent
  have hbyte := hrecent.lt
  rw [LocationSelection.Recent, hvisits.recent, List.map_append, List.map_map] at hrecent
  rcases List.mem_append.mp hrecent with hothers | hcycle
  · exact helsewhere.notRecent _ (List.getElem_mem hlt) hothers
  · obtain ⟨i, hi, heq⟩ := List.mem_map.mp hcycle
    obtain ⟨before, hbefore, rfl⟩ := List.mem_take_iff_getElem.mp hi
    have hsmaller := List.pairwise_iff_getElem.mp
      (pairwise_selectable locations click) before m (by omega) hlt (by omega)
    rw [Function.comp_apply, UInt8.toNat_ofNat_of_lt' (Nat.lt_trans hsmaller hbyte)] at heq
    omega

/-- The next click, if the locations passed before fit in a byte. -/
theorem Visits.next (helsewhere : Elsewhere locations click others)
    (hle : ∀ i ∈ click.selectable locations, i ≤ 65535)
    (hj : j + 1 < (click.selectable locations).length)
    (hfit : ∀ m, (hm : m < j) → (click.selectable locations)[m] < 256) :
    ∃ after, selectLocation locations click selections = .ok after ∧
      Visits locations click others (j + 1) after := by
  have hselected := hvisits.selected_eq (Nat.lt_of_succ_lt hj)
  have hfresh : selections.Fresh (click.selectable locations)[j + 1] := by
    refine ⟨fun heq => ?_, hvisits.not_recent helsewhere j.lt_succ_self hj⟩
    rw [← hselected] at heq
    have hsame := (nodup_selectable locations click).getElem_inj_iff.mp heq
    omega
  refine ⟨_, selectLocation_getElem hle hj hfresh fun m hm hfresh => ?_,
    visits_choose helsewhere hle hj hvisits.recent⟩
  rcases Nat.lt_succ_iff_lt_or_eq.mp hm with hbefore | rfl
  · exact hfresh.2 (hvisits.recent_of_le hbefore.le (by omega) (hfit m hbefore))
  · exact hfresh.1 hselected

end

theorem AllButLastFit.getElem_lt {selectable : List ℕ}
    (hfit : AllButLastFit selectable) (hm : m + 1 < selectable.length) :
    selectable[m] < 256 := by
  have hlt : m < selectable.dropLast.length := by
    rw [List.length_dropLast]
    omega
  have hmem := List.getElem_mem hlt
  rw [List.getElem_dropLast] at hmem
  exact hfit _ hmem

section

variable (hvisits : Visits locations click others j selections)
  (hle : ∀ i ∈ click.selectable locations, i ≤ 65535)
  (hlast : j + 1 = (click.selectable locations).length)

include hvisits hle hlast

theorem Visits.not_fresh (hfit : AllButLastFit (click.selectable locations)) :
    ∀ i ∈ scanned locations click, ¬ selections.Fresh i := by
  intro i hi hfresh
  rw [scanned_eq hle] at hi
  obtain ⟨m, hm, rfl⟩ := List.getElem_of_mem hi
  rcases Nat.lt_succ_iff_lt_or_eq.mp (hlast ▸ hm) with hbefore | rfl
  · exact hfresh.2 (hvisits.recent_of_le hbefore.le hm (hfit.getElem_lt (by omega)))
  · exact hfresh.1 (hvisits.selected_eq hm)

theorem Visits.restarts (hpos : 0 < j) (hfit : AllButLastFit (click.selectable locations))
    (hend : numLocations locations < 65535) :
    ∃ after, selectLocation locations click selections = .ok after ∧
      Visits locations click [] 0 after := by
  have hfirst : 0 < (click.selectable locations).length := by omega
  have hother : (click.selectable locations)[0] ≠
      selections.selectedLocation.toNat := by
    rw [← hvisits.selected_eq (by omega)]
    intro heq
    have hsame := (nodup_selectable locations click).getElem_inj_iff.mp heq
    omega
  have hfind : (click.selectable locations).find?
      (· ≠ selections.selectedLocation.toNat) = some (click.selectable locations)[0] :=
    List.find?_eq_some_iff_getElem.mpr ⟨by simpa using hother, 0, hfirst, rfl,
      fun m hm => absurd hm m.not_lt_zero⟩
  refine ⟨restart (UInt16.ofNat (click.selectable locations)[0]), ?_, ?_, ?_⟩
  · rw [selectLocation_of_not_fresh (hvisits.not_fresh hle hlast hfit),
      if_pos hend, scanned_eq hle, hfind]
    rfl
  · rw [List.getElem?_eq_getElem hfirst]
    exact congrArg some (toNat_ofNat_getElem hle hfirst).symm
  · rw [restart, List.take_add_one, List.getElem?_eq_getElem hfirst]
    simp

end

end Visits

/-! ## When clicks cycle -/

theorem clicks_succ {count : ℕ} {middle after : LocationSelection}
    (hmiddle : clicks locations click count selections = .ok middle)
    (hafter : selectLocation locations click middle = .ok after) :
    clicks locations click (count + 1) selections = .ok after := by
  rw [clicks, hmiddle]
  exact hafter

section

variable (hunvisited : Unvisited locations click selections)

include hunvisited

/-- While the locations passed fit in a byte, they are visited in order. -/
theorem Unvisited.visits_clicks (hle : ∀ i ∈ click.selectable locations, i ≤ 65535) {j : ℕ}
    (hj : j < (click.selectable locations).length)
    (hfit : ∀ m, (hm : m + 1 < j) → (click.selectable locations)[m] < 256) :
    ∃ after, clicks locations click (j + 1) selections = .ok after ∧
      Visits locations click selections.recentLocations j after := by
  induction j with
  | zero =>
      obtain ⟨after, hafter, hvisits⟩ := hunvisited.visits hle hj
      exact ⟨after, clicks_succ rfl hafter, hvisits⟩
  | succ j ih =>
      obtain ⟨middle, hmiddle, hmiddleVisits⟩ := ih (Nat.lt_of_succ_lt hj)
        fun m hm => hfit m (by omega)
      obtain ⟨after, hafter, hvisits⟩ := hmiddleVisits.next
        hunvisited.elsewhere hle hj fun m hm => hfit m (by omega)
      exact ⟨after, clicks_succ hmiddle hafter, hvisits⟩

/-- The cycle with ids that fit in a byte, but for the last one. -/
theorem cycles_of_allButLastFit (htwo : 2 ≤ (click.selectable locations).length)
    (hend : numLocations locations < 65535)
    (hfit : AllButLastFit (click.selectable locations)) :
    Cycles locations click selections := by
  have hle : ∀ i ∈ click.selectable locations, i ≤ 65535 := by
    intro i hi
    have hrange := List.mem_range'_1.mp (List.mem_of_mem_filter hi)
    omega
  have hempty : Elsewhere locations click [] := ⟨fun i _ => List.not_mem_nil, by
      have hroom := hunvisited.room
      rw [List.length_nil]
      omega⟩
  have hrun (count : ℕ) : ∃ after others,
      clicks locations click (count + 1) selections = .ok after ∧ Elsewhere locations click others ∧
        Visits locations click others (count % (click.selectable locations).length) after := by
    induction count with
    | zero =>
        obtain ⟨after, hafter, hvisits⟩ := hunvisited.visits hle (by omega)
        rw [Nat.zero_mod]
        exact ⟨after, _, clicks_succ rfl hafter, hunvisited.elsewhere, hvisits⟩
    | succ count ih =>
        obtain ⟨middle, others, hmiddle, helsewhere, hvisits⟩ := ih
        have hlt := Nat.mod_lt count (Nat.zero_lt_of_lt htwo)
        by_cases hlast : count % (click.selectable locations).length + 1 =
            (click.selectable locations).length
        · obtain ⟨after, hafter, hnext⟩ := hvisits.restarts hle hlast (by omega) hfit hend
          have hmod : (count + 1) % (click.selectable locations).length = 0 := by
            rw [Nat.add_mod, Nat.mod_eq_of_lt htwo, hlast, Nat.mod_self]
          rw [hmod]
          exact ⟨after, [], clicks_succ hmiddle hafter, hempty, hnext⟩
        · obtain ⟨after, hafter, hnext⟩ := hvisits.next helsewhere hle
            (by omega) fun m hm => hfit.getElem_lt (by omega)
          have hmod : (count + 1) % (click.selectable locations).length =
              count % (click.selectable locations).length + 1 := by
            rw [Nat.add_mod, Nat.mod_eq_of_lt htwo, Nat.mod_eq_of_lt (by omega)]
          rw [hmod]
          exact ⟨after, others, clicks_succ hmiddle hafter, helsewhere, hnext⟩
  refine ⟨_, List.Perm.refl _, fun count => ?_⟩
  obtain ⟨after, others, hafter, -, hvisits⟩ := hrun count
  exact ⟨after, hafter, hvisits.selected⟩

/-- Two ids that do not fit in a byte are never recent, and alternate. -/
theorem cycles_of_two (htwo : (click.selectable locations).length = 2)
    (hwide : ∀ i ∈ click.selectable locations, 255 < i ∧ i ≤ 65535) :
    Cycles locations click selections := by
  have hle : ∀ i ∈ click.selectable locations, i ≤ 65535 := fun i hi =>
    (hwide i hi).2
  have hclick (now : LocationSelection) {j : ℕ} (hj : j < (click.selectable locations).length)
      (hother : (click.selectable locations)[j] ≠ now.selectedLocation.toNat)
      (hbefore : ∀ m, (hm : m < j) → (click.selectable locations)[m] = now.selectedLocation.toNat) :
      ∃ after, selectLocation locations click now = .ok after ∧
        (click.selectable locations)[j]? = some after.selectedLocation.toNat := by
    have hfresh : now.Fresh (click.selectable locations)[j] := ⟨hother, fun hrecent => by
        have hlt := hrecent.lt
        have hgt := (hwide _ (List.getElem_mem hj)).1
        omega⟩
    refine ⟨_, selectLocation_getElem hle hj hfresh fun m hm hfresh =>
      hfresh.1 (hbefore m hm), ?_⟩
    rw [List.getElem?_eq_getElem hj]
    exact congrArg some (toNat_ofNat_getElem hle hj).symm
  have hdifferent : (click.selectable locations)[0] ≠ (click.selectable locations)[1] := by
    intro heq
    have hsame := (nodup_selectable locations click).getElem_inj_iff.mp heq
    omega
  refine ⟨_, List.Perm.refl _, fun count => ?_⟩
  rw [htwo]
  induction count with
  | zero =>
      obtain ⟨after, hafter, hselected⟩ := hclick selections (j := 0) (by omega)
        (fun heq => hunvisited.notSelected (heq ▸ List.getElem_mem _))
        fun m hm => absurd hm m.not_lt_zero
      exact ⟨after, clicks_succ rfl hafter, hselected⟩
  | succ count ih =>
      obtain ⟨middle, hmiddle, hselected⟩ := ih
      rcases Nat.mod_two_eq_zero_or_one count with heven | hodd
      · rw [heven, List.getElem?_eq_getElem (by omega), Option.some.injEq] at hselected
        have hmod : (count + 1) % 2 = 1 := by omega
        obtain ⟨after, hafter, hnext⟩ := hclick middle (j := 1)
          (by omega) (fun heq => hdifferent (hselected.trans heq.symm))
          fun m hm => by
            obtain rfl := Nat.lt_one_iff.mp hm
            exact hselected
        exact ⟨after, clicks_succ hmiddle hafter, by rwa [hmod]⟩
      · rw [hodd, List.getElem?_eq_getElem (by omega), Option.some.injEq] at hselected
        have hmod : (count + 1) % 2 = 0 := by omega
        obtain ⟨after, hafter, hnext⟩ := hclick middle (j := 0)
          (by omega) (fun heq => hdifferent (heq.trans hselected.symm))
          fun m hm => absurd hm m.not_lt_zero
        exact ⟨after, clicks_succ hmiddle hafter, by rwa [hmod]⟩

/-- The first id that does not fit in a byte is selected a second time after
the next one. -/
theorem Unvisited.clicks_again (hle : ∀ i ∈ click.selectable locations, i ≤ 65535) {p : ℕ}
    (hp : p + 1 < (click.selectable locations).length)
    (hover : 255 < (click.selectable locations)[p])
    (hbefore : ∀ m, (hm : m < p) → (click.selectable locations)[m] < 256) :
    ∃ first again, clicks locations click (p + 1) selections = .ok first ∧
      clicks locations click (p + 3) selections = .ok again ∧
      again.selectedLocation.toNat = first.selectedLocation.toNat := by
  obtain ⟨first, hfirstClicks, hfirstVisits⟩ := hunvisited.visits_clicks hle
    (j := p) (by omega) fun m hm => hbefore m (by omega)
  obtain ⟨second, hsecondClicks, hsecondVisits⟩ := hunvisited.visits_clicks hle
    hp fun m hm => hbefore m (by omega)
  have hfresh : second.Fresh (click.selectable locations)[p] := by
    refine ⟨fun heq => ?_, fun hrecent => ?_⟩
    · rw [← hsecondVisits.selected_eq hp] at heq
      have hsame := (nodup_selectable locations click).getElem_inj_iff.mp heq
      omega
    · have hlt := hrecent.lt
      omega
  have hthird := clicks_succ hsecondClicks
    (selectLocation_getElem hle (by omega) hfresh fun m hm hfresh =>
      hfresh.2 (hsecondVisits.recent_of_le (by omega) (by omega) (hbefore m hm)))
  refine ⟨first, _, hfirstClicks, hthird, ?_⟩
  rw [LocationSelection.choose, toNat_ofNat_getElem hle (by omega),
    hfirstVisits.selected_eq (by omega)]

/-- Two ids that do not fit in a byte are selected in turn, before the
others are selected again. -/
theorem two_of_cycles (hle : ∀ i ∈ click.selectable locations, i ≤ 65535)
    (hcycles : Cycles locations click selections)
    (hwide : ¬ AllButLastFit (click.selectable locations)) :
    (click.selectable locations).length = 2 ∧ ∀ i ∈ click.selectable locations, 255 < i := by
  have hexists : ∃ p, ∃ hp : p + 1 < (click.selectable locations).length,
      255 < (click.selectable locations)[p] := by
    simp only [AllButLastFit, not_forall] at hwide
    obtain ⟨i, hi, hover⟩ := hwide
    obtain ⟨p, hp, rfl⟩ := List.getElem_of_mem hi
    rw [List.getElem_dropLast] at hover
    rw [List.length_dropLast] at hp
    exact ⟨p, by omega, by omega⟩
  -- The first id that does not fit, with those in front of it.
  obtain ⟨p, ⟨hp, hover⟩, hfirst⟩ := Nat.findX hexists
  have hbefore : ∀ m, (hm : m < p) → (click.selectable locations)[m] < 256 := by
    intro m hm
    by_contra hlarge
    exact hfirst m hm ⟨by omega, by omega⟩
  obtain ⟨first, again, hfirstClicks, hagainClicks, hagain⟩ :=
    hunvisited.clicks_again hle hp hover hbefore
  obtain ⟨order, hperm, horder⟩ := hcycles
  have hat {count : ℕ} {after : LocationSelection}
      (hclicks : clicks locations click (count + 1) selections = .ok after) :
      order[count % order.length]? = some after.selectedLocation.toNat := by
    obtain ⟨other, hother, hselected⟩ := horder count
    rwa [Except.ok.inj (hclicks.symm.trans hother)]
  have hsame : order[p % order.length]? = order[(p + 2) % order.length]? := by
    rw [hat hfirstClicks, hat hagainClicks, hagain]
  have hlength := hperm.length_eq
  have hmod := (List.getElem?_inj (Nat.mod_lt p (by omega))
    (hperm.nodup_iff.mpr (nodup_selectable locations click))).mp hsame
  rw [Nat.mod_eq_of_lt (by omega)] at hmod
  have htwo : p + 2 = order.length := by
    by_contra hne
    rw [Nat.mod_eq_of_lt (by omega)] at hmod
    omega
  rw [htwo, Nat.mod_self] at hmod
  subst hmod
  refine ⟨by omega, fun i hi => ?_⟩
  obtain ⟨m, hm, rfl⟩ := List.getElem_of_mem hi
  rcases Nat.eq_zero_or_pos m with rfl | hpos
  · exact hover
  · exact hover.trans (List.pairwise_iff_getElem.mp
      (pairwise_selectable locations click) 0 m _ hm hpos)

/-- The loop never ends when the cycle should start again. -/
theorem numLocations_lt_of_cycles (htwo : 2 ≤ (click.selectable locations).length)
    (hle : ∀ i ∈ click.selectable locations, i ≤ 65535)
    (hcycles : Cycles locations click selections)
    (hfit : AllButLastFit (click.selectable locations)) :
    numLocations locations < 65535 := by
  by_contra hmany
  obtain ⟨order, -, horder⟩ := hcycles
  obtain ⟨last, hlast, hvisits⟩ := hunvisited.visits_clicks hle
    (j := (click.selectable locations).length - 1) (by omega)
    fun m hm => hfit.getElem_lt (by omega)
  rw [Nat.sub_add_cancel (by omega)] at hlast
  obtain ⟨after, hafter, -⟩ := horder (click.selectable locations).length
  rw [clicks, hlast] at hafter
  have hclick := selectLocation_of_not_fresh (hvisits.not_fresh hle (by omega) hfit)
  rw [if_neg hmany] at hclick
  exact nomatch hafter.symm.trans hclick

end

end Cycle

/-- Clicks cycle exactly if all ids but the highest one are below 256 and there
are fewer than 65535 locations, or if there are two ids and both are not below
256. -/
theorem cycles_iff (locations : List Location) (click : Click) (selections : LocationSelection)
    (htwo : 2 ≤ (click.selectable locations).length)
    (hunvisited : Unvisited locations click selections) :
    Cycles locations click selections ↔ (numLocations locations < 65535 ∧
        ∀ i ∈ (click.selectable locations).dropLast, i < 256) ∨
      ((click.selectable locations).length = 2 ∧
        ∀ i ∈ click.selectable locations, 255 < i ∧ i ≤ 65535) := by
  constructor
  · intro hcycles
    have hle : ∀ i ∈ click.selectable locations, i ≤ 65535 := by
      obtain ⟨order, hperm, horder⟩ := hcycles
      intro i hi
      obtain ⟨count, hcount, rfl⟩ := List.getElem_of_mem (hperm.mem_iff.mpr hi)
      obtain ⟨after, -, hselected⟩ := horder count
      rw [Nat.mod_eq_of_lt hcount, List.getElem?_eq_getElem hcount, Option.some.injEq] at hselected
      have hlt := after.selectedLocation.toNat_lt
      omega
    by_cases hfit : AllButLastFit (click.selectable locations)
    · exact .inl ⟨numLocations_lt_of_cycles hunvisited htwo hle hcycles hfit, hfit⟩
    · obtain ⟨hlength, hwide⟩ := two_of_cycles hunvisited hle hcycles hfit
      exact .inr ⟨hlength, fun i hi => ⟨hwide i hi, hle i hi⟩⟩
  · rintro (⟨hend, hfit⟩ | ⟨hlength, hwide⟩)
    · exact cycles_of_allButLastFit hunvisited htwo hend hfit
    · exact cycles_of_two hunvisited hlength hwide

/-- A table whose locations are blank but for those with certain ids, which
overlap. -/
def overlapping (count : ℕ) (ids : List ℕ) : List Location :=
  (List.range count).map fun locationId =>
    if locationId ∈ ids then ⟨0, 0, 32, 32, 0, 0⟩ else blankLocation

theorem cycles_three : Cycles (overlapping 8 [2, 3, 7]) ⟨10, 10, false⟩ ⟨4, [4]⟩ ↔
      (numLocations (overlapping 8 [2, 3, 7]) < 65535 ∧ ∀ i ∈ (Click.selectable ⟨10, 10, false⟩
          (overlapping 8 [2, 3, 7])).dropLast, i < 256) ∨
      ((Click.selectable ⟨10, 10, false⟩ (overlapping 8 [2, 3, 7])).length = 2 ∧
        ∀ i ∈ Click.selectable ⟨10, 10, false⟩ (overlapping 8 [2, 3, 7]), 255 < i ∧ i ≤ 65535) :=
  cycles_iff (overlapping 8 [2, 3, 7]) ⟨10, 10, false⟩ ⟨4, [4]⟩ (by decide)
    ⟨by decide, by decide, by decide⟩

/-- Location 256 is selected again before location 1. -/
theorem not_cycles_wide : Unvisited (overlapping 258 [1, 256, 257]) ⟨10, 10, false⟩ ⟨65535, []⟩ ∧
      (Click.selectable ⟨10, 10, false⟩ (overlapping 258 [1, 256, 257])).length = 3 ∧
      ¬ Cycles (overlapping 258 [1, 256, 257]) ⟨10, 10, false⟩ ⟨65535, []⟩ := by
  have hselectable : Click.selectable ⟨10, 10, false⟩
      (overlapping 258 [1, 256, 257]) = [1, 256, 257] := by
    decide +kernel
  have hunvisited : Unvisited (overlapping 258 [1, 256, 257]) ⟨10, 10, false⟩ ⟨65535, []⟩ := by
    constructor
    · rw [hselectable]
      decide
    · rw [hselectable]
      decide
    · rw [hselectable]
      decide
  refine ⟨hunvisited, by rw [hselectable]; rfl, fun hcycles => ?_⟩
  have hlength := (two_of_cycles hunvisited (by rw [hselectable]; decide)
    hcycles (by rw [hselectable]; unfold AllButLastFit; decide)).1
  rw [hselectable] at hlength
  exact absurd hlength (by decide)

end Chkdraft.Editor
