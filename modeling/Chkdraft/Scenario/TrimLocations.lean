import Chkdraft.Scenario.LocationPacking

/-!
# Trimming the locations

What `MrgnSection::trimToOriginal` does to the locations of a map and to the ids
in its triggers.  Only ids 1 to 254 are looked at for locations that are not
blank, ids behind 255 are dropped, an id in use behind the end of the list is
followed, and the destinations of actions are not renumbered.
-/

namespace Chkdraft.Scenario

open Chk Sections Packing

variable {locationId slot : ℕ} {action : Action}

def resolveLocation (locations : List (Option Location)) (locationId : ℕ) : Option Location :=
  if locationId = 0 then none else locations.getD locationId none

/-- The locations the conditions and actions of a trigger lead to. -/
def resolvedLocations (locations : List (Option Location))
    (trigger : Trigger) : List (List (Option Location)) :=
  trigger.conditions.toList.map (fun condition =>
      (conditionLocations condition).map (resolveLocation locations)) ++
    trigger.actions.toList.map fun action =>
      (actionLocations action).map (resolveLocation locations)

/-- A location that is not blank, or that a trigger names. -/
def Needed (locations : List (Option Location)) (triggers : List Trigger) (locationId : ℕ) : Prop :=
  0 < locationId ∧ ∃ location, locations.getD locationId none = some location ∧
      (location ≠ blankLocation ∨ Referenced triggers locationId)

/-- What a conversion of the locations should achieve. -/
structure Trimmed (lockAnywhere : Bool) (locations trimmed : List (Option Location))
    (triggers remapped : List Trigger) : Prop where
  slots : trimmed.length ≤ totalOriginalLocations + 1
  kept : ∃ target : ℕ → ℕ, Set.InjOn target {id | Needed locations triggers id} ∧
    ∀ locationId, Needed locations triggers locationId →
      0 < target locationId ∧ trimmed.getD (target locationId) none = locations.getD locationId none
  resolves : remapped.map (resolvedLocations trimmed) = triggers.map (resolvedLocations locations)
  locked : lockAnywhere = true → trimmed[anywhere]? = locations[anywhere]?

/-- The call returns whether the locations fit; if they do the conversion is
right, and if they do not nothing has changed. -/
def TrimsRight (locations : List (Option Location)) (triggers : List Trigger)
    (lockAnywhere : Bool) : Prop :=
  ∃ fits trimmed remapped, trimToOriginal locations triggers lockAnywhere =
      .ok (fits, trimmed, remapped) ∧
    fits = locationsFitOriginal locations triggers lockAnywhere ∧
    (fits = true → Trimmed lockAnywhere locations trimmed triggers remapped) ∧
    (fits = false → trimmed = locations ∧ remapped = triggers)

section Conditions

variable (locations : List (Option Location)) (triggers : List Trigger) (lockAnywhere : Bool)

abbrev Packable (locationId : ℕ) : Prop :=
  Movable (locationIdUsed locations triggers) lockAnywhere locationId

/-- The rank of an id among those whose locations are packed. -/
abbrev packRank (locationId : ℕ) : ℕ :=
  movableRank (locationIdUsed locations triggers) lockAnywhere locationId

/-- What is in a slot of the packed list: the location with that rank, or else
what was in the slot unless that went elsewhere. -/
def packedAt (slot : ℕ) : Option Location :=
  if totalOriginalLocations < slot then
    none
  else
    match (List.range (totalLocations + 1)).find? fun locationId =>
        Packable locations triggers lockAnywhere locationId ∧
          packRank locations triggers lockAnywhere locationId = slot with
    | some locationId => locations.getD locationId none
    | none =>
        if Packable locations triggers lockAnywhere slot then
          some blankLocation
        else
          locations.getD slot none

/-- The condition on an action with a secondary location: its first location is
not packed into an id in use for other data, and the slot of its secondary
location holds the same when packed. -/
def SecondaryStays (action : Action) : Prop :=
  let first := packedId (locationIdUsed locations triggers) lockAnywhere action.locationId.toNat
  (Packable locations triggers lockAnywhere first → locations.getD first none =
      locations.getD action.locationId.toNat none) ∧
  (action.number ≠ 0 → packedAt locations triggers lockAnywhere action.number.toNat =
      locations.getD action.number.toNat none)

/-- The condition on locations that fit and are more than 63. -/
structure Trimmable : Prop where
  inside : ∀ locationId, locationIdUsed locations triggers locationId = true →
    locationId < locations.length
  last : NonBlank locations totalLocations → Referenced triggers totalLocations
  behind : ∀ locationId, totalLocations < locationId →
    ¬ NonBlank locations locationId ∧ (Referenced triggers locationId →
        locations.getD locationId none = none)
  secondary : ∀ trigger ∈ triggers, ∀ action ∈ trigger.actions.toList,
    actionUsesSecondaryLocationArg action.actionType = true →
    SecondaryStays locations triggers lockAnywhere action

def TrimsRightWhen : Prop :=
  if totalOriginalLocations < locations.length then
    locationsFitOriginal locations triggers lockAnywhere = true →
      Trimmable locations triggers lockAnywhere
  else
    locationsFitOriginal locations triggers lockAnywhere = false

end Conditions

section Packed

variable {locations : List (Option Location)} {triggers : List Trigger}
  {lockAnywhere : Bool}

/-- In a list that fits, all ranks are below 65, and below 64 next to a locked
Anywhere. -/
theorem movableCount_le (hfits : countUsedOrCreated locations triggers lockAnywhere ≤
      totalOriginalLocations) :
    movableCount (locationIdUsed locations triggers) lockAnywhere ≤ totalOriginalLocations ∧
      (lockAnywhere = true →
        movableCount (locationIdUsed locations triggers) lockAnywhere < anywhere) := by
  rw [countUsedOrCreated_eq] at hfits
  constructor
  · omega
  · rintro rfl
    rw [if_pos rfl] at hfits
    exact hfits

theorem packedAt_of_rank (hslot : slot ≤ totalOriginalLocations)
    (hpackable : Packable locations triggers lockAnywhere locationId)
    (hrank : packRank locations triggers lockAnywhere locationId = slot) :
    packedAt locations triggers lockAnywhere slot = locations.getD locationId none := by
  rw [packedAt, if_neg (Nat.not_lt_of_le hslot)]
  split
  · rename_i other hfind
    have hother := List.find?_some hfind
    simp only [decide_eq_true_eq] at hother
    rw [rank_injective hother.1 hpackable (hother.2.trans hrank.symm)]
  · rename_i hfind
    have hnot := List.find?_eq_none.mp hfind locationId
      (List.mem_range.mpr (Nat.lt_succ_of_le hpackable.1))
    simp only [decide_eq_true_eq] at hnot
    exact absurd ⟨hpackable, hrank⟩ hnot

theorem packedAt_of_no_rank (hslot : slot ≤ totalOriginalLocations)
    (hnone : ∀ locationId, Packable locations triggers lockAnywhere locationId →
      packRank locations triggers lockAnywhere locationId ≠ slot) :
    packedAt locations triggers lockAnywhere slot =
      if Packable locations triggers lockAnywhere slot then some blankLocation
      else locations.getD slot none := by
  rw [packedAt, if_neg (Nat.not_lt_of_le hslot)]
  split
  · rename_i other hfind
    have hother := List.find?_some hfind
    simp only [decide_eq_true_eq] at hother
    exact absurd hother.2 (hnone other hother.1)
  · rfl

theorem packRank_le (hfits : countUsedOrCreated locations triggers lockAnywhere ≤
      totalOriginalLocations)
    (hpackable : Packable locations triggers lockAnywhere locationId) :
    packRank locations triggers lockAnywhere locationId ≤
      totalOriginalLocations :=
  (rank_le_movableCount hpackable).trans (movableCount_le hfits).1

theorem eq_anywhere_of_not_packable (hused : locationIdUsed locations triggers locationId = true)
    (hnot : ¬ Packable locations triggers lockAnywhere locationId) :
    locationId = anywhere ∧ lockAnywhere = true := by
  constructor
  · by_contra hne
    exact hnot ⟨le_of_locationIdUsed hused, hused, .inl hne⟩
  · by_contra hunlocked
    rw [Bool.not_eq_true] at hunlocked
    exact hnot ⟨le_of_locationIdUsed hused, hused, .inr hunlocked⟩

/-- The loop on locations that fit: it packs them, or follows an id behind the
end of the list. -/
theorem trimToOriginal_cases (hlong : totalOriginalLocations < locations.length)
    (hfits : countUsedOrCreated locations triggers lockAnywhere ≤ totalOriginalLocations) :
    (∃ final, Packed locations (locationIdUsed locations triggers)
          lockAnywhere totalLocations final ∧
        trimToOriginal locations triggers lockAnywhere =
          .ok (true, final.locations.take (totalOriginalLocations + 1),
            triggers.map (triggerRemapLocationIds final.remappings)) ∧
        ∀ locationId, locationIdUsed locations triggers locationId = true →
          locationId < locations.length) ∨
      (trimToOriginal locations triggers lockAnywhere = .error .undefinedBehavior ∧
        ∃ locationId, locationIdUsed locations triggers locationId = true ∧
          locations.length ≤ locationId) := by
  have htrim : trimToOriginal locations triggers lockAnywhere =
      ((List.range' 1 totalLocations).foldlM (moveToUnused lockAnywhere)
        ⟨locations, locationIdUsed locations triggers, []⟩).map fun state =>
          (true, state.locations.take (totalOriginalLocations + 1),
            triggers.map (triggerRemapLocationIds state.remappings)) := by
    rw [trimToOriginal, if_pos ⟨hlong, hfits⟩]
    rfl
  have hloop := @packed_foldlM locations _ _
    (locationIdUsed_zero locations triggers) (movableCount_le hfits).2
    totalLocations (Nat.le_refl _)
  rcases hloop with
    ⟨final, hfinal, hpacked⟩ | ⟨hhazard, locationId, hmovable, hle⟩
  · left
    refine ⟨final, hpacked, ?_, ?_⟩
    · rw [htrim, hfinal]
      rfl
    · intro locationId hused
      by_cases hpackable : Packable locations triggers lockAnywhere locationId
      · have hrank := packRank_le hfits hpackable
        by_cases hself : packRank locations triggers lockAnywhere locationId = locationId
        · omega
        · exact hpacked.inside locationId hpackable (hrank.trans (by decide)) hself
      · rw [(eq_anywhere_of_not_packable hused hpackable).1]
        exact hlong
  · right
    refine ⟨?_, locationId, hmovable.2.1, hle⟩
    rw [htrim, hhazard]
    rfl

section Final

variable {final : Trimming}
  (hpacked : Packed locations (locationIdUsed locations triggers) lockAnywhere totalLocations final)
  (hfits : countUsedOrCreated locations triggers lockAnywhere ≤ totalOriginalLocations)

include hpacked hfits

omit hpacked in
theorem placeAfter_eq (hpackable : Packable locations triggers lockAnywhere locationId) :
    placeAfter (locationIdUsed locations triggers) lockAnywhere totalLocations locationId =
      packRank locations triggers lockAnywhere locationId := by
  have hle := packRank_le hfits hpackable
  rw [placeAfter, if_pos (hle.trans (by decide))]

theorem getD_trimmed (slot : ℕ) :
    (final.locations.take (totalOriginalLocations + 1)).getD slot none =
      packedAt locations triggers lockAnywhere slot := by
  rw [List.getD_eq_getElem?_getD, List.getElem?_take]
  by_cases hslot : slot ≤ totalOriginalLocations
  · rw [if_pos (Nat.lt_succ_of_le hslot), ← List.getD_eq_getElem?_getD]
    by_cases hrank : ∃ locationId, Packable locations triggers lockAnywhere locationId ∧
          packRank locations triggers lockAnywhere locationId = slot
    · obtain ⟨locationId, hpackable, heq⟩ := hrank
      rw [packedAt_of_rank hslot hpackable heq, ← hpacked.moved locationId hpackable,
        placeAfter_eq hfits hpackable, heq]
    · rw [packedAt_of_no_rank hslot fun locationId hpackable heq =>
        hrank ⟨locationId, hpackable, heq⟩]
      apply hpacked.others
      intro locationId hpackable heq
      rw [placeAfter_eq hfits hpackable] at heq
      exact hrank ⟨locationId, hpackable, heq.symm⟩
  · rw [if_neg (by omega), packedAt, if_pos (by omega)]
    rfl

theorem toNat_remapLocationId (locationId : UInt32) :
    (remapLocationId final.remappings locationId).toNat =
      packedId (locationIdUsed locations triggers) lockAnywhere
        locationId.toNat := by
  unfold remapLocationId packedId
  rw [hpacked.remappings]
  by_cases hpackable : Packable locations triggers lockAnywhere locationId.toNat
  · have hle := packRank_le hfits hpackable
    have hbound : packRank locations triggers lockAnywhere locationId.toNat ≤
        totalLocations := hle.trans (by decide)
    rw [if_pos hpackable]
    by_cases hself : packRank locations triggers lockAnywhere locationId.toNat = locationId.toNat
    · rw [if_neg fun h => h.2.2 hself]
      exact hself.symm
    · rw [if_pos ⟨hpackable, hbound, hself⟩]
      simp only
      rw [UInt32.toNat_ofNat_of_lt']
      exact (Nat.lt_succ_of_le hbound).trans (by decide)
  · rw [if_neg hpackable, if_neg fun h => hpackable h.1]

/-! ## The triggers -/

theorem conditionLocations_remapLocationIds (condition : Condition) :
    conditionLocations (conditionRemapLocationIds final.remappings condition) =
      (conditionLocations condition).map
        (packedId (locationIdUsed locations triggers) lockAnywhere) := by
  unfold conditionLocations conditionRemapLocationIds
  cases huses : conditionUsesLocationArg condition.conditionType with
  | true =>
      simp only [huses, if_true, List.map_cons, List.map_nil, toNat_remapLocationId hpacked hfits]
  | false =>
      simp only [huses, if_false, List.map_nil, Bool.false_eq_true]

theorem actionLocations_remapLocationIds
    (hsingle : actionUsesSecondaryLocationArg action.actionType = false) :
    actionLocations (actionRemapLocationIds final.remappings action) = (actionLocations action).map
        (packedId (locationIdUsed locations triggers) lockAnywhere) := by
  unfold actionLocations actionRemapLocationIds
  cases huses : actionUsesLocationArg action.actionType with
  | true =>
      simp only [if_true, hsingle, huses, Bool.false_eq_true, if_false, List.append_nil,
        List.map_cons, List.map_nil, toNat_remapLocationId hpacked hfits]
  | false =>
      simp only [hsingle, huses, Bool.false_eq_true, if_false, List.append_nil, List.map_nil]

omit hpacked hfits in
theorem actionUsesLocationArg_of_secondary {actionType : UInt8}
    (hsecondary : actionUsesSecondaryLocationArg actionType = true) :
    actionUsesLocationArg actionType = true := by
  simp only [actionUsesSecondaryLocationArg, List.mem_cons,
    List.not_mem_nil, or_false, decide_eq_true_eq] at hsecondary
  rcases hsecondary with rfl | rfl | rfl <;> decide

theorem actionLocations_remapLocationIds_of_secondary
    (hsecondary : actionUsesSecondaryLocationArg action.actionType = true) :
    actionLocations (actionRemapLocationIds final.remappings action) =
      [packedId (locationIdUsed locations triggers) lockAnywhere
          (packedId (locationIdUsed locations triggers) lockAnywhere action.locationId.toNat),
        action.number.toNat] := by
  have huses := actionUsesLocationArg_of_secondary hsecondary
  unfold actionLocations actionRemapLocationIds
  simp only [huses, hsecondary, if_true, List.singleton_append, toNat_remapLocationId hpacked hfits]

omit hpacked in
/-- The slot a used id is packed into holds its location. -/
theorem packedAt_packedId (hused : locationIdUsed locations triggers locationId = true) :
    packedAt locations triggers lockAnywhere
        (packedId (locationIdUsed locations triggers) lockAnywhere locationId) =
      locations.getD locationId none := by
  by_cases hpackable : Packable locations triggers lockAnywhere locationId
  · rw [packedId, if_pos hpackable]
    exact packedAt_of_rank (packRank_le hfits hpackable) hpackable rfl
  · obtain ⟨hlocation, hlocked⟩ := eq_anywhere_of_not_packable hused hpackable
    subst hlocation
    rw [packedId, if_neg hpackable, packedAt_of_no_rank (by decide), if_neg hpackable]
    intro other hother heq
    have hle := rank_le_movableCount hother
    have hlt := (movableCount_le hfits).2 hlocked
    change packRank locations triggers lockAnywhere other ≤ _ at hle
    omega

omit hpacked hfits in
/-- An id that a trigger names is used, unless it is 0 or behind 255. -/
theorem locationIdUsed_of_referenced
    (hreferenced : Referenced triggers locationId) (hpos : locationId ≠ 0)
    (hle : locationId ≤ totalLocations) :
    locationIdUsed locations triggers locationId = true := by
  rw [locationIdUsed, decide_eq_true ⟨hreferenced, hpos, hle⟩, Bool.true_or]

omit hpacked hfits in
theorem packedId_ne_zero (hpos : locationId ≠ 0) :
    packedId (locationIdUsed locations triggers) lockAnywhere locationId ≠ 0 := by
  unfold packedId
  split
  · rename_i hpackable
    exact Nat.ne_of_gt (rank_pos hpackable)
  · exact hpos

theorem resolveLocation_trimmed (slot : ℕ) :
    resolveLocation (final.locations.take (totalOriginalLocations + 1)) slot =
      if slot = 0 then none
      else packedAt locations triggers lockAnywhere slot := by
  rw [resolveLocation, getD_trimmed hpacked hfits]

/-- A new id leads to the old location, unless it is behind the ids that are
looked at. -/
theorem resolve_packedId_iff (hreferenced : Referenced triggers locationId) :
    resolveLocation (final.locations.take (totalOriginalLocations + 1))
          (packedId (locationIdUsed locations triggers) lockAnywhere locationId) =
        resolveLocation locations locationId ↔
      (totalLocations < locationId → locations.getD locationId none = none) := by
  rw [resolveLocation_trimmed hpacked hfits, resolveLocation]
  by_cases hpos : locationId = 0
  · have hzero : packedId (locationIdUsed locations triggers) lockAnywhere 0 = 0 := by
      rw [packedId, if_neg (not_movable_zero (locationIdUsed_zero locations triggers))]
    rw [hpos, hzero]
    exact iff_of_true rfl fun h => absurd h (Nat.not_lt_zero _)
  · rw [if_neg (packedId_ne_zero hpos), if_neg hpos]
    by_cases hle : locationId ≤ totalLocations
    · have hused : locationIdUsed locations triggers locationId = true :=
        locationIdUsed_of_referenced hreferenced hpos hle
      exact iff_of_true (packedAt_packedId hfits hused) fun h =>
        absurd h (Nat.not_lt_of_le hle)
    · have hbehind : packedAt locations triggers lockAnywhere locationId =
          none := by
        rw [packedAt, if_pos ((by decide : totalOriginalLocations ≤
          totalLocations).trans_lt (Nat.lt_of_not_le hle))]
      rw [packedId, if_neg fun h => hle h.1, hbehind]
      exact ⟨fun h _ => h.symm, fun h => (h (Nat.lt_of_not_le hle)).symm⟩

/-- An id looked up twice leads to the old location, unless the first new id is
itself in use. -/
theorem resolve_packedId_twice_iff (hreferenced : Referenced triggers locationId) :
    resolveLocation (final.locations.take (totalOriginalLocations + 1))
          (packedId (locationIdUsed locations triggers) lockAnywhere
            (packedId (locationIdUsed locations triggers) lockAnywhere locationId)) =
        resolveLocation locations locationId ↔
      (totalLocations < locationId → locations.getD locationId none = none) ∧
      (Packable locations triggers lockAnywhere
          (packedId (locationIdUsed locations triggers) lockAnywhere locationId) →
        locations.getD (packedId (locationIdUsed locations triggers) lockAnywhere locationId) none =
          locations.getD locationId none) := by
  by_cases hagain : Packable locations triggers lockAnywhere
      (packedId (locationIdUsed locations triggers) lockAnywhere locationId)
  · have hpackable : Packable locations triggers lockAnywhere locationId := by
      by_contra hnot
      rw [packedId, if_neg hnot] at hagain
      exact hnot hagain
    have hle : ¬ totalLocations < locationId := Nat.not_lt_of_le hpackable.1
    have hpos : locationId ≠ 0 := by
      rintro rfl
      exact not_movable_zero (locationIdUsed_zero locations triggers) hpackable
    rw [resolveLocation_trimmed hpacked hfits, if_neg (packedId_ne_zero (packedId_ne_zero hpos)),
      packedAt_packedId hfits hagain.2.1, resolveLocation, if_neg hpos]
    exact ⟨fun h => ⟨fun hlt => absurd hlt hle, fun _ => h⟩, fun h => h.2 hagain⟩
  · have hsame : packedId (locationIdUsed locations triggers) lockAnywhere
          (packedId (locationIdUsed locations triggers) lockAnywhere locationId) =
        packedId (locationIdUsed locations triggers) lockAnywhere
          locationId := if_neg hagain
    rw [hsame, resolve_packedId_iff hpacked hfits hreferenced]
    exact ⟨fun h => ⟨h, fun hnot => absurd hnot hagain⟩, fun h => h.1⟩

theorem resolve_number_iff (number : ℕ) :
    resolveLocation (final.locations.take (totalOriginalLocations + 1)) number =
        resolveLocation locations number ↔
      (number ≠ 0 → packedAt locations triggers lockAnywhere number =
        locations.getD number none) := by
  rw [resolveLocation_trimmed hpacked hfits, resolveLocation]
  by_cases hpos : number = 0
  · rw [if_pos hpos, if_pos hpos]
    exact iff_of_true rfl fun h => absurd hpos h
  · rw [if_neg hpos, if_neg hpos]
    exact ⟨fun h _ => h, fun h => h hpos⟩

theorem resolves_condition_iff {condition : Condition}
    (hreferenced : ∀ locationId ∈ conditionLocations condition, Referenced triggers locationId) :
    (conditionLocations (conditionRemapLocationIds final.remappings condition)).map
          (resolveLocation (final.locations.take (totalOriginalLocations + 1))) =
        (conditionLocations condition).map (resolveLocation locations) ↔
      ∀ locationId ∈ conditionLocations condition, totalLocations < locationId →
          locations.getD locationId none = none := by
  rw [conditionLocations_remapLocationIds hpacked hfits, List.map_map, List.map_inj_left]
  exact forall₂_congr fun locationId hmem =>
    resolve_packedId_iff hpacked hfits (hreferenced locationId hmem)

theorem resolves_action_iff (hreferenced : ∀ locationId ∈ actionLocations action,
      Referenced triggers locationId) :
    (actionLocations (actionRemapLocationIds final.remappings action)).map
          (resolveLocation (final.locations.take (totalOriginalLocations + 1))) =
        (actionLocations action).map (resolveLocation locations) ↔
      (∀ locationId ∈ actionLocations action, totalLocations < locationId →
        locations.getD locationId none = none) ∧
      (actionUsesSecondaryLocationArg action.actionType = true →
        SecondaryStays locations triggers lockAnywhere action) := by
  cases hsecondary : actionUsesSecondaryLocationArg action.actionType with
  | false =>
      rw [actionLocations_remapLocationIds hpacked hfits hsecondary,
        List.map_map, List.map_inj_left]
      simp only [Bool.false_eq_true, false_implies, and_true]
      exact forall₂_congr fun locationId hmem =>
        resolve_packedId_iff hpacked hfits (hreferenced locationId hmem)
  | true =>
      have hlist : actionLocations action = [action.locationId.toNat, action.number.toNat] := by
        simp only [actionLocations, hsecondary,
          actionUsesLocationArg_of_secondary hsecondary, if_true, List.singleton_append]
      rw [hlist] at hreferenced
      have hfirst := resolve_packedId_twice_iff hpacked hfits
        (hreferenced action.locationId.toNat (by simp))
      have hnumber := resolve_number_iff hpacked hfits action.number.toNat
      have hzero : action.number ≠ 0 ↔ action.number.toNat ≠ 0 := by
        rw [ne_eq, ← UInt32.toNat_inj]
        rfl
      -- Behind 255 the trimmed list has nothing either.
      have hbehind : (action.number.toNat ≠ 0 →
          packedAt locations triggers lockAnywhere action.number.toNat =
            locations.getD action.number.toNat none) →
          totalLocations < action.number.toNat →
          locations.getD action.number.toNat none = none := by
        intro hsame hlt
        have hpast : totalOriginalLocations < action.number.toNat :=
          (by decide : totalOriginalLocations ≤ totalLocations).trans_lt hlt
        rw [← hsame (Nat.ne_of_gt (Nat.zero_lt_of_lt hlt)), packedAt, if_pos hpast]
      rw [actionLocations_remapLocationIds_of_secondary hpacked hfits hsecondary, hlist]
      simp only [List.map_cons, List.map_nil, List.cons.injEq, and_true,
        hfirst, hnumber, List.mem_cons, List.not_mem_nil, or_false,
        forall_eq_or_imp, forall_eq, true_implies, SecondaryStays, hzero]
      constructor
      · rintro ⟨⟨hle, hstays⟩, hsame⟩
        exact ⟨⟨hle, hbehind hsame⟩, hstays, hsame⟩
      · rintro ⟨⟨hle, -⟩, hstays, hsame⟩
        exact ⟨⟨hle, hstays⟩, hsame⟩

omit hpacked hfits in
theorem toList_conditions_remapLocationIds (remappings : List (ℕ × ℕ)) (trigger : Trigger) :
    (triggerRemapLocationIds remappings trigger).conditions.toList =
      trigger.conditions.toList.map (conditionRemapLocationIds remappings) :=
  List.Vector.toList_map _ _

omit hpacked hfits in
theorem toList_actions_remapLocationIds (remappings : List (ℕ × ℕ)) (trigger : Trigger) :
    (triggerRemapLocationIds remappings trigger).actions.toList =
      trigger.actions.toList.map (actionRemapLocationIds remappings) :=
  List.Vector.toList_map _ _

theorem resolves_trigger_iff {trigger : Trigger}
    (hreferenced : ∀ locationId ∈ triggerLocations trigger, Referenced triggers locationId) :
    resolvedLocations (final.locations.take (totalOriginalLocations + 1))
          (triggerRemapLocationIds final.remappings trigger) =
        resolvedLocations locations trigger ↔
      (∀ locationId ∈ triggerLocations trigger, totalLocations < locationId →
        locations.getD locationId none = none) ∧
      ∀ action ∈ trigger.actions.toList, actionUsesSecondaryLocationArg action.actionType = true →
        SecondaryStays locations triggers lockAnywhere action := by
  have hmemCondition : ∀ condition ∈ trigger.conditions.toList,
      ∀ locationId ∈ conditionLocations condition, locationId ∈ triggerLocations trigger := by
    intro condition hmem locationId hlocation
    exact List.mem_append_left _ (List.mem_flatMap.mpr ⟨condition, hmem, hlocation⟩)
  have hmemAction : ∀ action ∈ trigger.actions.toList,
      ∀ locationId ∈ actionLocations action, locationId ∈ triggerLocations trigger := by
    intro action hmem locationId hlocation
    exact List.mem_append_right _ (List.mem_flatMap.mpr ⟨action, hmem, hlocation⟩)
  have hconditions : ∀ condition ∈ trigger.conditions.toList, _ :=
    fun condition hmem => resolves_condition_iff hpacked hfits
      fun locationId hlocation => hreferenced locationId
        (hmemCondition condition hmem locationId hlocation)
  have hactions : ∀ action ∈ trigger.actions.toList, _ :=
    fun action hmem => resolves_action_iff hpacked hfits
      fun locationId hlocation => hreferenced locationId
        (hmemAction action hmem locationId hlocation)
  unfold resolvedLocations
  rw [toList_conditions_remapLocationIds, toList_actions_remapLocationIds,
    List.map_map, List.map_map]
  constructor
  · intro happend
    obtain ⟨hkeptConditions, hkeptActions⟩ :=
      List.append_inj happend (by simp only [List.length_map])
    rw [List.map_inj_left] at hkeptConditions hkeptActions
    constructor
    · intro locationId hmem
      rcases List.mem_append.mp hmem with hmem | hmem
      · obtain ⟨condition, hcondition, hlocation⟩ := List.mem_flatMap.mp hmem
        exact (hconditions condition hcondition).mp
          (hkeptConditions condition hcondition) locationId hlocation
      · obtain ⟨action, haction, hlocation⟩ := List.mem_flatMap.mp hmem
        exact ((hactions action haction).mp (hkeptActions action haction)).1 locationId hlocation
    · intro action haction
      exact ((hactions action haction).mp (hkeptActions action haction)).2
  · rintro ⟨hbehind, hsecondary⟩
    refine congrArg₂ _ (List.map_inj_left.mpr ?_) (List.map_inj_left.mpr ?_)
    · intro condition hcondition
      exact (hconditions condition hcondition).mpr fun locationId hlocation =>
        hbehind locationId (hmemCondition condition hcondition locationId hlocation)
    · intro action haction
      exact (hactions action haction).mpr ⟨fun locationId hlocation => hbehind locationId
          (hmemAction action haction locationId hlocation),
        hsecondary action haction⟩

theorem resolves_iff : (triggers.map (triggerRemapLocationIds final.remappings)).map
          (resolvedLocations (final.locations.take (totalOriginalLocations + 1))) =
        triggers.map (resolvedLocations locations) ↔
      (∀ locationId, totalLocations < locationId → Referenced triggers locationId →
        locations.getD locationId none = none) ∧
      ∀ trigger ∈ triggers, ∀ action ∈ trigger.actions.toList,
        actionUsesSecondaryLocationArg action.actionType = true →
        SecondaryStays locations triggers lockAnywhere action := by
  have htriggers : ∀ trigger ∈ triggers, _ := fun trigger hmem =>
    resolves_trigger_iff hpacked hfits fun locationId hlocation => ⟨trigger, hmem, hlocation⟩
  rw [List.map_map, List.map_inj_left]
  constructor
  · intro hkept
    constructor
    · rintro locationId hlt ⟨trigger, hmem, hlocation⟩
      exact ((htriggers trigger hmem).mp (hkept trigger hmem)).1 locationId hlocation hlt
    · intro trigger hmem
      exact ((htriggers trigger hmem).mp (hkept trigger hmem)).2
  · rintro ⟨hbehind, hsecondary⟩ trigger hmem
    exact (htriggers trigger hmem).mpr ⟨fun locationId hlocation hlt =>
        hbehind locationId hlt ⟨trigger, hmem, hlocation⟩,
      hsecondary trigger hmem⟩

omit hpacked hfits in
theorem lt_length_of_getD {location : Location}
    (hlocation : locations.getD locationId none = some location) :
    locationId < locations.length := by
  by_contra hout
  rw [List.getD_eq_default _ _ (Nat.le_of_not_lt hout)] at hlocation
  cases hlocation

omit hpacked hfits in
theorem locationIdUsed_of_nonBlank (hblank : NonBlank locations locationId)
    (hpos : 0 < locationId) (hlt : locationId < totalLocations) :
    locationIdUsed locations triggers locationId = true := by
  obtain ⟨location, hlocation, -⟩ := id hblank
  have hinside := lt_length_of_getD hlocation
  rw [locationIdUsed, Bool.or_eq_true, decide_eq_true_eq, decide_eq_true_eq]
  exact .inr ⟨hblank, hpos, Nat.lt_min.mpr ⟨hlt, hinside⟩⟩

omit hpacked hfits in
theorem exists_used_of_packedAt {location : Location} (hpos : 0 < slot)
    (hblank : location ≠ blankLocation)
    (hslot : packedAt locations triggers lockAnywhere slot = some location) :
    ∃ locationId, locationIdUsed locations triggers locationId = true ∧
      0 < locationId ∧ locations.getD locationId none = some location ∧
      packedId (locationIdUsed locations triggers) lockAnywhere locationId =
        slot := by
  have hle : slot ≤ totalOriginalLocations := by
    by_contra hgt
    rw [packedAt, if_pos (Nat.lt_of_not_le hgt)] at hslot
    cases hslot
  by_cases hrank : ∃ locationId, Packable locations triggers lockAnywhere locationId ∧
        packRank locations triggers lockAnywhere locationId = slot
  · obtain ⟨locationId, hpackable, heq⟩ := hrank
    rw [packedAt_of_rank hle hpackable heq] at hslot
    refine ⟨locationId, hpackable.2.1, ?_, hslot, ?_⟩
    · rw [Nat.pos_iff_ne_zero]
      rintro rfl
      exact not_movable_zero (locationIdUsed_zero locations triggers) hpackable
    · rw [packedId, if_pos hpackable]
      exact heq
  · rw [packedAt_of_no_rank hle fun locationId hpackable heq =>
      hrank ⟨locationId, hpackable, heq⟩] at hslot
    split at hslot
    · cases hslot
      exact absurd rfl hblank
    · rename_i hpackable
      have hused := @locationIdUsed_of_nonBlank slot locations triggers
        ⟨location, hslot, hblank⟩ hpos (hle.trans_lt (by decide))
      exact ⟨slot, hused, hpos, hslot, if_neg hpackable⟩

/-- A location that is not blank and not in use has no slot of its own: all
slots with its data are taken by locations in use. -/
theorem locationIdUsed_of_kept {target : ℕ → ℕ}
    (hinjective : Set.InjOn target {id | Needed locations triggers id})
    (hkept : ∀ locationId, Needed locations triggers locationId → 0 < target locationId ∧
      (final.locations.take (totalOriginalLocations + 1)).getD (target locationId) none =
        locations.getD locationId none) (hpos : 0 < locationId)
    (hnonBlank : NonBlank locations locationId) :
    locationIdUsed locations triggers locationId = true := by
  by_contra hunused
  obtain ⟨location, hlocation, hblank⟩ := hnonBlank
  let holders := (Finset.range locations.length).filter fun holder =>
    0 < holder ∧ locations.getD holder none = some location
  let slots := (Finset.range (totalOriginalLocations + 1)).filter fun slot =>
    0 < slot ∧ packedAt locations triggers lockAnywhere slot = some location
  let usedHolders := holders.filter fun holder =>
    locationIdUsed locations triggers holder = true
  have hslots : holders.card ≤ slots.card := by
    apply Finset.card_le_card_of_injOn target
    · intro holder hmem
      obtain ⟨-, hholder, hdata⟩ := Finset.mem_filter.mp hmem
      obtain ⟨htarget, hsame⟩ := hkept holder ⟨hholder, location, hdata, .inl hblank⟩
      rw [getD_trimmed hpacked hfits, hdata] at hsame
      refine Finset.mem_coe.mpr (Finset.mem_filter.mpr ⟨?_, htarget, hsame⟩)
      rw [Finset.mem_range]
      by_contra hout
      rw [packedAt, if_pos (Nat.lt_of_not_le fun h =>
        hout (Nat.lt_succ_of_le h))] at hsame
      cases hsame
    · intro first hfirst second hsecond
      obtain ⟨-, hfirstPos, hfirstData⟩ := Finset.mem_filter.mp hfirst
      obtain ⟨-, hsecondPos, hsecondData⟩ := Finset.mem_filter.mp hsecond
      exact hinjective ⟨hfirstPos, location, hfirstData, .inl hblank⟩
        ⟨hsecondPos, location, hsecondData, .inl hblank⟩
  have hused : slots.card ≤ usedHolders.card := by
    refine (Finset.card_le_card ?_).trans (Finset.card_image_le
      (f := packedId (locationIdUsed locations triggers) lockAnywhere))
    intro slot hmem
    obtain ⟨-, hslot, hdata⟩ := Finset.mem_filter.mp hmem
    obtain ⟨holder, hholderUsed, hholder, hholderData, heq⟩ :=
      exists_used_of_packedAt hslot hblank hdata
    refine Finset.mem_image.mpr ⟨holder, ?_, heq⟩
    refine Finset.mem_filter.mpr ⟨Finset.mem_filter.mpr ⟨?_, hholder, hholderData⟩, hholderUsed⟩
    exact Finset.mem_range.mpr (lt_length_of_getD hholderData)
  have hfewer : usedHolders.card < holders.card := by
    apply Finset.card_lt_card
    refine Finset.filter_ssubset.mpr ⟨locationId, ?_, hunused⟩
    exact Finset.mem_filter.mpr
      ⟨Finset.mem_range.mpr (lt_length_of_getD hlocation), hpos, hlocation⟩
  omega

omit hpacked in
theorem packedId_injOn : Set.InjOn (packedId (locationIdUsed locations triggers) lockAnywhere)
      {id | locationIdUsed locations triggers id = true} := by
  -- The rank of a packed id is not the id of the locked Anywhere.
  have hapart : ∀ first second, locationIdUsed locations triggers second = true →
      Packable locations triggers lockAnywhere first →
      ¬ Packable locations triggers lockAnywhere second →
      packRank locations triggers lockAnywhere first ≠ second := by
    intro first second hused hpackable hnot heq
    obtain ⟨rfl, hlocked⟩ := eq_anywhere_of_not_packable hused hnot
    have hle := rank_le_movableCount hpackable
    have hlt := (movableCount_le hfits).2 hlocked
    change packRank locations triggers lockAnywhere first ≤ _ at hle
    omega
  intro first hfirst second hsecond heq
  by_cases hfirstPackable : Packable locations triggers lockAnywhere first
  · by_cases hsecondPackable : Packable locations triggers lockAnywhere second
    · rw [packedId, packedId, if_pos hfirstPackable, if_pos hsecondPackable] at heq
      exact rank_injective hfirstPackable hsecondPackable heq
    · rw [packedId, packedId, if_pos hfirstPackable, if_neg hsecondPackable] at heq
      exact absurd heq (hapart first second hsecond hfirstPackable hsecondPackable)
  · by_cases hsecondPackable : Packable locations triggers lockAnywhere second
    · rw [packedId, packedId, if_neg hfirstPackable, if_pos hsecondPackable] at heq
      exact absurd heq.symm (hapart second first hfirst hsecondPackable hfirstPackable)
    · rw [packedId, packedId, if_neg hfirstPackable, if_neg hsecondPackable] at heq
      exact heq

theorem locked_trimmed (hlong : totalOriginalLocations < locations.length)
    (hlocked : lockAnywhere = true) :
    (final.locations.take (totalOriginalLocations + 1))[anywhere]? = locations[anywhere]? := by
  have hinside : anywhere < locations.length := hlong
  have hfinal : anywhere < final.locations.length := by
    rw [hpacked.length]
    exact hlong
  have hnot : ¬ Packable locations triggers lockAnywhere anywhere := by
    rintro ⟨-, -, hne | hunlocked⟩
    · exact hne rfl
    · rw [hlocked] at hunlocked
      cases hunlocked
  have hsame : final.locations.getD anywhere none = locations.getD anywhere none := by
    rw [hpacked.others anywhere, if_neg hnot]
    intro other hother heq
    rw [placeAfter_eq hfits hother] at heq
    have hle := rank_le_movableCount hother
    have hlt := (movableCount_le hfits).2 hlocked
    change packRank locations triggers lockAnywhere other ≤ _ at hle
    omega
  rw [List.getElem?_take, if_pos (by decide), List.getElem?_eq_getElem hfinal,
    List.getElem?_eq_getElem hinside]
  rw [List.getD_eq_getElem _ _ hfinal, List.getD_eq_getElem _ _ hinside] at hsame
  rw [hsame]

end Final

section Call

theorem needed_used (hlast : NonBlank locations totalLocations → Referenced triggers totalLocations)
    (hbehind : ∀ locationId, totalLocations < locationId →
      ¬ NonBlank locations locationId ∧ (Referenced triggers locationId →
          locations.getD locationId none = none))
    (hneeded : Needed locations triggers locationId) :
    locationIdUsed locations triggers locationId = true := by
  obtain ⟨hpos, location, hlocation, hreason⟩ := hneeded
  have hle : locationId ≤ totalLocations := by
    by_contra hgt
    obtain ⟨hblank, hnone⟩ := hbehind locationId (Nat.lt_of_not_le hgt)
    rcases hreason with hne | hreferenced
    · exact hblank ⟨location, hlocation, hne⟩
    · rw [hnone hreferenced] at hlocation
      cases hlocation
  rcases hreason with hne | hreferenced
  · have hnonBlank : NonBlank locations locationId := ⟨location, hlocation, hne⟩
    by_cases hlt : locationId < totalLocations
    · exact locationIdUsed_of_nonBlank hnonBlank hpos hlt
    · have hlocationLast : locationId = totalLocations := by omega
      subst hlocationLast
      exact locationIdUsed_of_referenced (hlast hnonBlank) (Nat.ne_of_gt hpos) hle
  · exact locationIdUsed_of_referenced hreferenced (Nat.ne_of_gt hpos) hle

theorem trimmed_of_trimmable (hlong : totalOriginalLocations < locations.length)
    (hfits : countUsedOrCreated locations triggers lockAnywhere ≤ totalOriginalLocations)
    (htrimmable : Trimmable locations triggers lockAnywhere) {final : Trimming}
    (hpacked : Packed locations (locationIdUsed locations triggers)
      lockAnywhere totalLocations final) :
    Trimmed lockAnywhere locations (final.locations.take (totalOriginalLocations + 1)) triggers
      (triggers.map (triggerRemapLocationIds final.remappings)) where
  slots := by
    rw [List.length_take]
    exact Nat.min_le_left _ _
  kept := by
    have hused : ∀ locationId, Needed locations triggers locationId →
        locationIdUsed locations triggers locationId = true :=
      fun locationId => needed_used htrimmable.last htrimmable.behind
    refine ⟨packedId (locationIdUsed locations triggers) lockAnywhere,
      (packedId_injOn hfits).mono hused, ?_⟩
    intro locationId hneeded
    constructor
    · exact Nat.pos_of_ne_zero (packedId_ne_zero (Nat.ne_of_gt hneeded.1))
    · rw [getD_trimmed hpacked hfits]
      exact packedAt_packedId hfits (hused locationId hneeded)
  resolves := (resolves_iff hpacked hfits).mpr
    ⟨fun locationId hlt => (htrimmable.behind locationId hlt).2, htrimmable.secondary⟩
  locked := locked_trimmed hpacked hfits hlong

theorem trimmable_of_trimmed (hfits : countUsedOrCreated locations triggers lockAnywhere ≤
      totalOriginalLocations)
    (hinside : ∀ locationId, locationIdUsed locations triggers locationId = true →
        locationId < locations.length) {final : Trimming}
    (hpacked : Packed locations (locationIdUsed locations triggers)
      lockAnywhere totalLocations final)
    (htrimmed : Trimmed lockAnywhere locations
      (final.locations.take (totalOriginalLocations + 1)) triggers
      (triggers.map (triggerRemapLocationIds final.remappings))) :
    Trimmable locations triggers lockAnywhere := by
  obtain ⟨target, hinjective, hkept⟩ := htrimmed.kept
  obtain ⟨hbehind, hsecondary⟩ := (resolves_iff hpacked hfits).mp htrimmed.resolves
  have hused : ∀ locationId, 0 < locationId → NonBlank locations locationId →
      locationIdUsed locations triggers locationId = true :=
    fun locationId => locationIdUsed_of_kept hpacked hfits hinjective hkept
  refine ⟨hinside, ?_, ?_, hsecondary⟩
  · intro hnonBlank
    have hlast := hused totalLocations (by decide) hnonBlank
    rw [locationIdUsed, Bool.or_eq_true, decide_eq_true_eq, decide_eq_true_eq] at hlast
    rcases hlast with ⟨hreferenced, -⟩ | ⟨-, -, hlt⟩
    · exact hreferenced
    · exact absurd (Nat.lt_min.mp hlt).1 (Nat.lt_irrefl _)
  · intro locationId hlt
    refine ⟨?_, hbehind locationId hlt⟩
    intro hnonBlank
    have hle := le_of_locationIdUsed (hused locationId (Nat.zero_lt_of_lt hlt) hnonBlank)
    exact absurd hlt (Nat.not_lt_of_le hle)

section

variable (hlong : totalOriginalLocations < locations.length)
  (hfits : locationsFitOriginal locations triggers lockAnywhere = true)

include hlong hfits

theorem trimmable_of_trimsRight (hright : TrimsRight locations triggers lockAnywhere) :
    Trimmable locations triggers lockAnywhere := by
  obtain ⟨fits, trimmed, remapped, hcall, hanswer, htrimmed, -⟩ := hright
  have hcount := of_decide_eq_true hfits
  rcases trimToOriginal_cases hlong hcount with
    ⟨final, hpacked, hok, hinside⟩ | ⟨herror, -⟩
  · rw [hok] at hcall
    cases hcall
    exact trimmable_of_trimmed hcount hinside hpacked (htrimmed rfl)
  · rw [herror] at hcall
    cases hcall

theorem trimsRight_of_trimmable (htrimmable : Trimmable locations triggers lockAnywhere) :
    TrimsRight locations triggers lockAnywhere := by
  have hcount := of_decide_eq_true hfits
  rcases trimToOriginal_cases hlong hcount with
    ⟨final, hpacked, hok, -⟩ | ⟨-, locationId, hused, hout⟩
  · refine ⟨true, _, _, hok, hfits.symm, ?_, fun h => by cases h⟩
    intro _
    exact trimmed_of_trimmable hlong hcount htrimmable hpacked
  · exact absurd (htrimmable.inside locationId hused) (Nat.not_lt_of_le hout)

end

/-- A call on few locations, or on locations that do not fit, returns false. -/
theorem trimToOriginal_refuses (hrefuse : ¬ (totalOriginalLocations < locations.length ∧
      locationsFitOriginal locations triggers lockAnywhere = true)) :
    trimToOriginal locations triggers lockAnywhere = .ok (false, locations, triggers) := by
  rw [locationsFitOriginal, decide_eq_true_eq] at hrefuse
  rw [trimToOriginal, if_neg hrefuse]

theorem trimToOriginal_false_iff {after : List (Option Location)}
    {triggersAfter : List Trigger} :
    trimToOriginal locations triggers lockAnywhere = .ok (false, after, triggersAfter) ↔
      ¬ (totalOriginalLocations < locations.length ∧
        locationsFitOriginal locations triggers lockAnywhere = true) ∧
      after = locations ∧ triggersAfter = triggers := by
  by_cases htrims : totalOriginalLocations < locations.length ∧
      locationsFitOriginal locations triggers lockAnywhere = true
  · apply iff_of_false
    · intro hcall
      rcases trimToOriginal_cases htrims.1 (of_decide_eq_true htrims.2) with
        ⟨final, -, hok, -⟩ | ⟨herror, -⟩
      · rw [hok] at hcall
        cases hcall
      · rw [herror] at hcall
        cases hcall
    · exact fun h => h.1 htrims
  · rw [trimToOriginal_refuses htrims]
    constructor
    · intro hcall
      cases hcall
      exact ⟨htrims, rfl, rfl⟩
    · rintro ⟨-, rfl, rfl⟩
      rfl

theorem trimsRight_of_refuses (hrefuse : ¬ (totalOriginalLocations < locations.length ∧
      locationsFitOriginal locations triggers lockAnywhere = true)) :
    TrimsRight locations triggers lockAnywhere ↔
      locationsFitOriginal locations triggers lockAnywhere = false := by
  have hcall := trimToOriginal_refuses hrefuse
  constructor
  · rintro ⟨fits, trimmed, remapped, hresult, hanswer, -⟩
    rw [hcall] at hresult
    cases hresult
    exact hanswer.symm
  · intro hfits
    exact ⟨false, locations, triggers, hcall, hfits.symm,
      fun h => (by cases h), fun _ => ⟨rfl, rfl⟩⟩

/-- The call is right on exactly these locations and triggers. -/
theorem trimsRight_iff (locations : List (Option Location))
    (triggers : List Trigger) (lockAnywhere : Bool) :
    TrimsRight locations triggers lockAnywhere ↔
      TrimsRightWhen locations triggers lockAnywhere := by
  unfold TrimsRightWhen
  by_cases hlong : totalOriginalLocations < locations.length
  · rw [if_pos hlong]
    by_cases hfits : locationsFitOriginal locations triggers lockAnywhere = true
    · exact ⟨fun hright _ => trimmable_of_trimsRight hlong hfits hright,
        fun htrimmable => trimsRight_of_trimmable hlong hfits (htrimmable hfits)⟩
    · rw [trimsRight_of_refuses fun h => hfits h.2]
      rw [Bool.not_eq_true] at hfits
      exact iff_of_true hfits fun h => by rw [hfits] at h; cases h
  · rw [if_neg hlong]
    exact trimsRight_of_refuses fun h => hlong h.1

end Call

end Packed

def twoLocations : List (Option Location) := [none, some blankLocation, some ⟨0, 0, 32, 32, 0, 0⟩,
    some ⟨64, 64, 96, 96, 0, 0⟩] ++ List.replicate 252 (some blankLocation)

/-- Move Unit from location 2 to location 3. -/
def moveUnitAction : Action :=
  { (default : Action) with locationId := 2, number := 3, actionType := 39 }

def moveUnitTrigger : Trigger :=
  { blankTrigger with
    actions := moveUnitAction ::ᵥ List.Vector.replicate 63 default }

/-- Location 3 becomes location 2, and the trigger moves its unit to a blank
location. -/
theorem trimToOriginal_loses_destination : ¬ TrimsRight twoLocations [moveUnitTrigger] false := by
  intro hright
  have htrimmable := trimmable_of_trimsRight (by decide +kernel) (by decide +kernel) hright
  have hstays := (htrimmable.secondary moveUnitTrigger (List.mem_singleton.mpr rfl) moveUnitAction
    (by decide +kernel) (by decide +kernel)).2 (by decide +kernel)
  revert hstays
  decide +kernel

end Chkdraft.Scenario
