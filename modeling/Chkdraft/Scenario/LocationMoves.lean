import Chkdraft.Scenario.Locations

/-!
# Moving a location to a slot

`MrgnSection::moveLocation` swaps neighbours.  A longer move takes the location
out and inserts it one place before its slot, and reports success only where a
locked Anywhere had to be swapped back.
-/

namespace Chkdraft.Scenario.MrgnSection

open Chk

/-- `std::swap` of two slots that exist. -/
def swapSlots (locations : List (Option Location)) (left right : ℕ) : List (Option Location) :=
  match locations[left]?, locations[right]? with
  | some leftLocation, some rightLocation =>
      (locations.set left rightLocation).set right leftLocation
  | _, _ => locations

/-- `MrgnSection::moveLocation`: whether it reports success, and the slots. -/
def moveLocation (locations : List (Option Location))
    (locationIdFrom locationIdTo : ℕ) (lockAnywhere : Bool) :
    Bool × List (Option Location) :=
  let locationIdMin := min locationIdFrom locationIdTo
  let locationIdMax := max locationIdFrom locationIdTo
  if h : 0 < locationIdFrom ∧ 0 < locationIdTo ∧
      max locationIdFrom locationIdTo < locations.length ∧
      locationIdFrom ≠ locationIdTo ∧
      (lockAnywhere = false ∨ locationIdMin ≠ anywhere ∧ locationIdMax ≠ anywhere) then
    if locationIdMax - locationIdMin = 1 ∧ locationIdMax < locations.length then
      (true, swapSlots locations locationIdMin locationIdMax)
    else
      let moved := (locations.eraseIdx locationIdFrom).insertIdx
        (locationIdTo - 1) locations[locationIdFrom]
      if lockAnywhere = true ∧ locationIdMin < anywhere ∧ anywhere < locationIdMax then
        (true, swapSlots moved (anywhere - 1) anywhere)
      else
        (false, moved)
  else
    (false, locations)

/-- Slot 0 is null and all others are filled. -/
structure LocationTable (locations : List (Option Location)) : Prop where
  slotZero : locations[0]? = some none
  filled : ∀ slot, 0 < slot → locations[slot]? ≠ some none

/-- The slots in their order, but for one and, when it is locked, that of
Anywhere. -/
def otherSlots (lockAnywhere : Bool) (locations : List (Option Location))
    (slot : ℕ) : List (Option Location) :=
  if lockAnywhere then
    (locations.eraseIdx (max slot anywhere)).eraseIdx (min slot anywhere)
  else
    locations.eraseIdx slot

/-- The location is in the slot it was moved to, and the others are as they
were: in the same order, with Anywhere in its slot when it is locked. -/
structure MovesLocation (locations : List (Option Location))
    (locationIdFrom locationIdTo : ℕ) (lockAnywhere : Bool)
    (result : Bool × List (Option Location)) : Prop where
  succeeds : result.1 = true
  length_eq : result.2.length = locations.length
  table : LocationTable result.2
  moved : result.2[locationIdTo]? = locations[locationIdFrom]?
  order : otherSlots lockAnywhere result.2 locationIdTo =
    otherSlots lockAnywhere locations locationIdFrom
  locked : lockAnywhere = true → result.2[anywhere]? = locations[anywhere]?

/-- The condition: neighbours, or a move across a locked Anywhere beside
locations that are equal. -/
def MeetsLocationMove (locations : List (Option Location))
    (locationIdFrom locationIdTo : ℕ) (lockAnywhere : Bool) : Prop :=
  locationIdTo = locationIdFrom + 1 ∨ locationIdFrom = locationIdTo + 1 ∨
    lockAnywhere = true ∧ (locationIdFrom < anywhere ∧ anywhere < locationIdTo ∧
          locations[locationIdTo]? = locations[locationIdFrom]? ∨
        locationIdTo < anywhere ∧ anywhere < locationIdFrom ∧ 1 < locationIdTo ∧
          locations[locationIdTo - 1]? = locations[locationIdFrom]? ∧
          locations[anywhere - 2]? = locations[anywhere - 1]? ∧
          locations[anywhere - 1]? = locations[anywhere]?)

section Slots

variable {locations : List (Option Location)} {left right slot : ℕ}

section

variable (hleft : left < locations.length) (hright : right < locations.length)

include hleft hright

theorem swapSlots_eq : swapSlots locations left right =
      (locations.set left locations[right]).set right locations[left] := by
  rw [swapSlots, List.getElem?_eq_getElem hleft, List.getElem?_eq_getElem hright]

theorem getElem?_swapSlots (slot : ℕ) : (swapSlots locations left right)[slot]? =
      if slot = right then locations[left]?
      else if slot = left then locations[right]? else locations[slot]? := by
  rw [swapSlots_eq hleft hright, List.getElem?_set, List.getElem?_set,
    List.length_set, if_pos hright, if_pos hleft,
    List.getElem?_eq_getElem hleft, List.getElem?_eq_getElem hright]
  simp only [eq_comm (a := slot)]

theorem length_swapSlots : (swapSlots locations left right).length = locations.length := by
  rw [swapSlots_eq hleft hright, List.length_set, List.length_set]

end

theorem getElem?_otherSlots_true (locations : List (Option Location)) (slot index : ℕ) :
    (otherSlots true locations slot)[index]? =
      if index < min slot anywhere then locations[index]?
      else if index + 1 < max slot anywhere then locations[index + 1]?
      else locations[index + 2]? := by
  rw [otherSlots, if_pos rfl, List.getElem?_eraseIdx]
  split
  · rw [List.getElem?_eraseIdx_of_lt (by omega)]
  · rw [List.getElem?_eraseIdx]

theorem getElem?_eraseIdx_insertIdx {locationIdFrom locationIdTo : ℕ}
    (hfrom : locationIdFrom < locations.length)
    (hto : locationIdTo < locations.length) (slot : ℕ) :
    ((locations.eraseIdx locationIdFrom).insertIdx locationIdTo locations[locationIdFrom])[slot]? =
      if slot = locationIdTo then locations[locationIdFrom]?
      else if slot < locationIdTo then
        if slot < locationIdFrom then locations[slot]?
        else locations[slot + 1]?
      else if slot ≤ locationIdFrom then locations[slot - 1]?
      else locations[slot]? := by
  have hlength := List.length_eraseIdx_of_lt hfrom
  rw [List.getElem?_insertIdx, List.getElem?_eraseIdx, List.getElem?_eraseIdx,
    hlength, List.getElem?_eq_getElem hfrom]
  rcases Nat.lt_trichotomy slot locationIdTo with hlt | rfl | hgt
  · rw [if_pos hlt, if_neg hlt.ne, if_pos hlt]
  · rw [if_neg (Nat.lt_irrefl slot), if_pos rfl, if_pos rfl, if_pos (by omega)]
  · rw [if_neg hgt.not_gt, if_neg hgt.ne', if_neg hgt.ne', if_neg hgt.not_gt]
    by_cases hle : slot ≤ locationIdFrom
    · rw [if_pos hle, if_pos (by omega)]
    · rw [if_neg hle, if_neg (by omega), Nat.sub_add_cancel (by omega)]

end Slots

/-! ## The kinds of moves -/

/-- Two different filled slots, neither of them Anywhere when it is locked. -/
structure Movable (locations : List (Option Location))
    (locationIdFrom locationIdTo : ℕ) (lockAnywhere : Bool) : Prop where
  from_pos : 0 < locationIdFrom
  to_pos : 0 < locationIdTo
  from_lt : locationIdFrom < locations.length
  to_lt : locationIdTo < locations.length
  ne : locationIdFrom ≠ locationIdTo
  unlocked : lockAnywhere = true → locationIdFrom ≠ anywhere ∧ locationIdTo ≠ anywhere

section Moves

variable {locations : List (Option Location)}
  {locationIdFrom locationIdTo : ℕ} {lockAnywhere : Bool}

theorem moveLocation_eq (hmovable : Movable locations locationIdFrom locationIdTo lockAnywhere) :
    moveLocation locations locationIdFrom locationIdTo lockAnywhere =
      if max locationIdFrom locationIdTo - min locationIdFrom locationIdTo = 1 then
        (true, swapSlots locations (min locationIdFrom locationIdTo)
          (max locationIdFrom locationIdTo))
      else
        let moved := (locations.eraseIdx locationIdFrom).insertIdx
          (locationIdTo - 1) (locations.get ⟨locationIdFrom, hmovable.from_lt⟩)
        if lockAnywhere = true ∧ min locationIdFrom locationIdTo < anywhere ∧
            anywhere < max locationIdFrom locationIdTo then
          (true, swapSlots moved (anywhere - 1) anywhere)
        else
          (false, moved) := by
  obtain ⟨hfromPos, htoPos, hfrom, hto, hne, hunlocked⟩ := hmovable
  have hguard : lockAnywhere = false ∨ min locationIdFrom locationIdTo ≠ anywhere ∧
        max locationIdFrom locationIdTo ≠ anywhere := by
    cases lockAnywhere with
    | false => exact .inl rfl
    | true =>
        have hids := hunlocked rfl
        omega
  have hmax : max locationIdFrom locationIdTo < locations.length := by omega
  unfold moveLocation
  rw [dif_pos ⟨hfromPos, htoPos, hmax, hne, hguard⟩]
  simp only [hmax, and_true, List.get_eq_getElem]

/-- A swap of neighbours is right, with or without the lock. -/
theorem movesLocation_of_neighbours (htable : LocationTable locations)
    (hmovable : Movable locations locationIdFrom locationIdTo lockAnywhere)
    (hnear : locationIdTo = locationIdFrom + 1 ∨ locationIdFrom = locationIdTo + 1) :
    MovesLocation locations locationIdFrom locationIdTo lockAnywhere
      (moveLocation locations locationIdFrom locationIdTo lockAnywhere) := by
  rw [moveLocation_eq hmovable, if_pos (by omega)]
  obtain ⟨hfromPos, htoPos, hfrom, hto, hne, hunlocked⟩ := hmovable
  have hmin : min locationIdFrom locationIdTo < locations.length := by omega
  have hmax : max locationIdFrom locationIdTo < locations.length := by omega
  have hslots := getElem?_swapSlots hmin hmax
  refine ⟨rfl, length_swapSlots hmin hmax, ⟨?_, ?_⟩, ?_, ?_, ?_⟩
  · rw [hslots, if_neg (by omega), if_neg (by omega)]
    exact htable.slotZero
  · intro slot hpos
    rw [hslots]
    split
    · exact htable.filled _ (by omega)
    · split
      · exact htable.filled _ (by omega)
      · exact htable.filled slot hpos
  · rw [hslots]
    rcases hnear with rfl | rfl
    · rw [if_pos (by omega), Nat.min_eq_left (by omega)]
    · rw [if_neg (by omega), if_pos (by omega), Nat.max_eq_left (by omega)]
  · apply List.ext_getElem?
    intro index
    cases lockAnywhere with
    | false =>
        simp only [otherSlots, Bool.false_eq_true, if_false, List.getElem?_eraseIdx, hslots]
        rcases hnear with rfl | rfl
        · grind
        · grind
    | true =>
        obtain ⟨hfromNe, htoNe⟩ := hunlocked rfl
        simp only [getElem?_otherSlots_true, hslots]
        rcases hnear with rfl | rfl
        · grind
        · grind
  · intro hlock
    have hids := hunlocked hlock
    rw [hslots, if_neg (by omega), if_neg (by omega)]

/-- A longer move reports failure unless it crosses a locked Anywhere. -/
theorem not_movesLocation_of_far
    (hmovable : Movable locations locationIdFrom locationIdTo lockAnywhere)
    (hfar : max locationIdFrom locationIdTo - min locationIdFrom locationIdTo ≠ 1)
    (hcross : ¬ (lockAnywhere = true ∧ min locationIdFrom locationIdTo < anywhere ∧
      anywhere < max locationIdFrom locationIdTo)) :
    ¬ MovesLocation locations locationIdFrom locationIdTo lockAnywhere
      (moveLocation locations locationIdFrom locationIdTo lockAnywhere) := by
  intro hmoves
  have hsucceeds := hmoves.succeeds
  rw [moveLocation_eq hmovable, if_neg hfar] at hsucceeds
  simp only [if_neg hcross] at hsucceeds
  cases hsucceeds

/-- The slots after a move across a locked Anywhere: the location is inserted
one place before its slot, then the two slots up to Anywhere are exchanged. -/
theorem exists_crossed (hmovable : Movable locations locationIdFrom locationIdTo true)
    (hcross : min locationIdFrom locationIdTo < anywhere ∧
      anywhere < max locationIdFrom locationIdTo) :
    ∃ inserted crossed : List (Option Location),
      moveLocation locations locationIdFrom locationIdTo true = (true, crossed) ∧
      crossed.length = locations.length ∧
      (∀ slot, inserted[slot]? =
        if slot = locationIdTo - 1 then locations[locationIdFrom]?
        else if slot < locationIdTo - 1 then
          if slot < locationIdFrom then locations[slot]?
          else locations[slot + 1]?
        else if slot ≤ locationIdFrom then locations[slot - 1]?
        else locations[slot]?) ∧
      ∀ slot, crossed[slot]? =
        if slot = anywhere then inserted[anywhere - 1]?
        else if slot = anywhere - 1 then inserted[anywhere]?
        else inserted[slot]? := by
  have hslots := getElem?_eraseIdx_insertIdx hmovable.from_lt
    (show locationIdTo - 1 < locations.length from
      (Nat.sub_le _ _).trans_lt hmovable.to_lt)
  have heq := moveLocation_eq hmovable
  obtain ⟨hfromPos, htoPos, hfrom, hto, hne, hunlocked⟩ := hmovable
  rw [if_neg (by omega)] at heq
  simp only [true_and, if_pos hcross, List.get_eq_getElem] at heq
  have hlength : ((locations.eraseIdx locationIdFrom).insertIdx
      (locationIdTo - 1) locations[locationIdFrom]).length =
      locations.length := by
    rw [List.length_insertIdx_of_le_length, List.length_eraseIdx_of_lt hfrom]
    · omega
    · rw [List.length_eraseIdx_of_lt hfrom]
      omega
  refine ⟨_, _, heq, ?_, hslots, ?_⟩
  · rw [length_swapSlots (by omega) (by omega), hlength]
  · exact getElem?_swapSlots (by omega) (by omega)

theorem movesLocation_up_iff (htable : LocationTable locations)
    (hmovable : Movable locations locationIdFrom locationIdTo true)
    (hbelow : locationIdFrom < anywhere) (habove : anywhere < locationIdTo) :
    MovesLocation locations locationIdFrom locationIdTo true
        (moveLocation locations locationIdFrom locationIdTo true) ↔
      locations[locationIdTo]? = locations[locationIdFrom]? := by
  obtain ⟨inserted, crossed, heq, hlength, hinserted, hslots⟩ := exists_crossed hmovable (by omega)
  obtain ⟨hfromPos, htoPos, hfrom, hto, hne, -⟩ := hmovable
  have hlast : crossed[locationIdTo]? = locations[locationIdTo]? := by
    rw [hslots, if_neg (by omega), if_neg (by omega), hinserted,
      if_neg (by omega), if_neg (by omega), if_neg (by omega)]
  rw [heq]
  constructor
  · intro hmoves
    rw [← hmoves.moved]
    exact hlast.symm
  · intro hequal
    refine ⟨rfl, hlength, ⟨?_, ?_⟩, hlast.trans hequal, ?_, fun _ => ?_⟩
    · rw [hslots, if_neg (by omega), if_neg (by omega), hinserted,
        if_neg (by omega), if_pos (by omega), if_pos hfromPos]
      exact htable.slotZero
    · intro slot hpos
      simp only [hslots, hinserted]
      split_ifs
      all_goals exact htable.filled _ (by omega)
    · apply List.ext_getElem?
      intro index
      simp only [getElem?_otherSlots_true, hslots, hinserted, Nat.min_eq_left hbelow.le,
        Nat.min_eq_right habove.le, Nat.max_eq_right hbelow.le, Nat.max_eq_left habove.le]
      clear hslots hinserted hlast
      grind
    · rw [hslots, if_pos rfl, hinserted, if_neg (by omega), if_pos (by omega),
        if_neg (by omega), Nat.sub_add_cancel (by omega)]

/-- The slots after a move across a locked Anywhere to a lower slot: the
locations between are moved up by one, and Anywhere has gone with them. -/
theorem exists_crossed_down (hmovable : Movable locations locationIdFrom locationIdTo true)
    (hbelow : locationIdTo < anywhere) (habove : anywhere < locationIdFrom) :
    ∃ crossed : List (Option Location),
      moveLocation locations locationIdFrom locationIdTo true = (true, crossed) ∧
      crossed.length = locations.length ∧
      ∀ slot, crossed[slot]? =
        if slot + 1 < locationIdTo then locations[slot]?
        else if slot + 1 = locationIdTo then locations[locationIdFrom]?
        else if slot = anywhere then locations[anywhere - 2]?
        else if slot = anywhere - 1 then locations[anywhere - 1]?
        else if slot ≤ locationIdFrom then locations[slot - 1]?
        else locations[slot]? := by
  obtain ⟨inserted, crossed, heq, hlength, hinserted, hslots⟩ := exists_crossed hmovable (by omega)
  obtain ⟨hfromPos, htoPos, hfrom, hto, hne, -⟩ := hmovable
  refine ⟨crossed, heq, hlength, ?_⟩
  intro slot
  rw [hslots]
  simp only [hinserted]
  clear hslots hinserted
  split_ifs <;> first | omega | rfl

theorem movesLocation_down_iff (htable : LocationTable locations)
    (hmovable : Movable locations locationIdFrom locationIdTo true)
    (hbelow : locationIdTo < anywhere) (habove : anywhere < locationIdFrom) :
    MovesLocation locations locationIdFrom locationIdTo true
        (moveLocation locations locationIdFrom locationIdTo true) ↔
      1 < locationIdTo ∧ locations[locationIdTo - 1]? = locations[locationIdFrom]? ∧
        locations[anywhere - 2]? = locations[anywhere - 1]? ∧
        locations[anywhere - 1]? = locations[anywhere]? := by
  obtain ⟨crossed, heq, hlength, hcrossed⟩ := exists_crossed_down hmovable hbelow habove
  obtain ⟨hfromPos, htoPos, hfrom, hto, hne, -⟩ := hmovable
  have horder : ∀ index : ℕ, (otherSlots true locations locationIdFrom)[index]? =
      if index < anywhere then locations[index]?
      else if index + 1 < locationIdFrom then locations[index + 1]?
      else locations[index + 2]? := by
    intro index
    rw [getElem?_otherSlots_true, Nat.min_eq_right habove.le, Nat.max_eq_left habove.le]
  rw [heq]
  constructor
  · intro hmoves
    have hone : 1 < locationIdTo := by
      by_contra hfirst
      have hzero := hmoves.table.slotZero
      rw [hcrossed, if_neg (by omega), if_pos (by omega)] at hzero
      exact htable.filled locationIdFrom hfromPos hzero
    rw [← hmoves.order] at horder
    simp only [getElem?_otherSlots_true, Nat.min_eq_left hbelow.le,
      Nat.max_eq_right hbelow.le] at horder
    -- Behind the slot the locations up to Anywhere have moved by one.
    have hplace := horder (locationIdTo - 1)
    have hsecond := horder (anywhere - 1)
    rw [if_pos (by omega), if_pos (by omega), hcrossed, if_neg (by omega),
      if_pos (by omega)] at hplace
    rw [if_neg (by omega), if_neg (by omega), if_pos (by omega), hcrossed,
      if_neg (by omega), if_neg (by omega), if_neg (by omega),
      if_neg (by omega), if_pos (by omega)] at hsecond
    have hlocked := hmoves.locked rfl
    rw [hcrossed, if_neg (by omega), if_neg (by omega), if_pos rfl] at hlocked
    have hanywhere : anywhere - 1 + 2 - 1 = anywhere := by omega
    rw [hanywhere] at hsecond
    exact ⟨hone, hplace.symm, hlocked.trans hsecond, hsecond.symm⟩
  · rintro ⟨hone, hplace, hfirst, hsecond⟩
    refine ⟨rfl, hlength, ⟨?_, ?_⟩, ?_, ?_, fun _ => ?_⟩
    · rw [hcrossed, if_pos (by omega)]
      exact htable.slotZero
    · intro slot hpos
      rw [hcrossed]
      split_ifs
      all_goals exact htable.filled _ (by omega)
    · rw [hcrossed]
      grind
    · apply List.ext_getElem?
      intro index
      rw [horder, getElem?_otherSlots_true, hcrossed, hcrossed, hcrossed,
        Nat.min_eq_left hbelow.le, Nat.max_eq_right hbelow.le]
      clear hcrossed horder
      grind
    · rw [hcrossed, if_neg (by omega), if_neg (by omega), if_pos rfl]
      exact hfirst.trans hsecond

/-- A location is moved as it should be exactly under the condition. -/
theorem movesLocation_iff (htable : LocationTable locations)
    (hmovable : Movable locations locationIdFrom locationIdTo lockAnywhere) :
    MovesLocation locations locationIdFrom locationIdTo lockAnywhere
        (moveLocation locations locationIdFrom locationIdTo lockAnywhere) ↔
      MeetsLocationMove locations locationIdFrom locationIdTo
        lockAnywhere := by
  by_cases hnear : locationIdTo = locationIdFrom + 1 ∨ locationIdFrom = locationIdTo + 1
  · exact iff_of_true (movesLocation_of_neighbours htable hmovable hnear) (or_assoc.mp (.inl hnear))
  obtain ⟨hup, hdown⟩ := not_or.mp hnear
  have hne := hmovable.ne
  rw [MeetsLocationMove, or_iff_right hup, or_iff_right hdown]
  by_cases hcross : lockAnywhere = true ∧ min locationIdFrom locationIdTo < anywhere ∧
      anywhere < max locationIdFrom locationIdTo
  · obtain ⟨rfl, hmin, hmax⟩ := hcross
    rw [and_iff_right rfl]
    rcases Nat.lt_or_gt_of_ne hne with hlt | hgt
    · have hbelow : locationIdFrom < anywhere := by omega
      have habove : anywhere < locationIdTo := by omega
      rw [movesLocation_up_iff htable hmovable hbelow habove]
      constructor
      · intro hequal
        exact .inl ⟨hbelow, habove, hequal⟩
      · rintro (⟨-, -, hequal⟩ | ⟨hother, -⟩)
        · exact hequal
        · omega
    · have hbelow : locationIdTo < anywhere := by omega
      have habove : anywhere < locationIdFrom := by omega
      rw [movesLocation_down_iff htable hmovable hbelow habove]
      constructor
      · intro hequal
        exact .inr ⟨hbelow, habove, hequal⟩
      · rintro (⟨hother, -⟩ | ⟨-, -, hequal⟩)
        · omega
        · exact hequal
  · apply iff_of_false
    · exact not_movesLocation_of_far hmovable (by omega) hcross
    · rintro ⟨hlock, hother⟩
      exact hcross ⟨hlock, by omega⟩

end Moves

/-- Three locations that differ in their names. -/
def threeLocations : List (Option Location) :=
  [none, some ⟨0, 0, 0, 0, 1, 0⟩, some ⟨0, 0, 0, 0, 2, 0⟩, some ⟨0, 0, 0, 0, 3, 0⟩]

theorem locationTable_threeLocations : LocationTable threeLocations where
  slotZero := rfl
  filled := by
    intro slot hpos
    match slot, hpos with
    | 1, _ => decide
    | 2, _ => decide
    | 3, _ => decide
    | slot + 4, _ => exact nofun

/-- The first of them is moved to the second slot. -/
theorem movesLocation_neighbour : MovesLocation threeLocations 1 2 true
      (moveLocation threeLocations 1 2 true) :=
  (movesLocation_iff locationTable_threeLocations
    ⟨by decide, by decide, by decide, by decide, by decide, fun _ => by decide⟩).mpr (.inl rfl)

/-- The first of them, moved to the third slot, gets the second, and the call
reports failure. -/
theorem moveLocation_one_short : Movable threeLocations 1 3 false ∧
      ¬ MovesLocation threeLocations 1 3 false (moveLocation threeLocations 1 3 false) := by
  refine ⟨⟨by decide, by decide, by decide, by decide, by decide, nofun⟩, ?_⟩
  intro hmoves
  have hmoved := hmoves.moved
  revert hmoved
  decide

end Chkdraft.Scenario.MrgnSection
