import Chkdraft.Core.Packing
import Chkdraft.Core.Table
import Chkdraft.Scenario.Locations

/-!
# Packing the locations

The loop of `MrgnSection::trimToOriginal` in closed form: the used locations are
packed, each at its rank among them, the locked Anywhere aside.
-/

namespace Chkdraft.Scenario

open Chk Sections Packing

variable {locationId other slot : ℕ}

section Places

variable (used : ℕ → Bool) (lockAnywhere : Bool)

/-- The ids the loop takes locations from. -/
def Movable (locationId : ℕ) : Prop := locationId ≤ totalLocations ∧ used locationId = true ∧
    (locationId ≠ anywhere ∨ lockAnywhere = false)

instance : DecidablePred (Movable used lockAnywhere) :=
  fun _ => inferInstanceAs (Decidable (_ ∧ _ ∧ _))

/-- The rank of an id among those the loop takes locations from. -/
abbrev movableRank (locationId : ℕ) : ℕ := rank (Movable used lockAnywhere) locationId

abbrev movableCount : ℕ := movableRank used lockAnywhere totalLocations

/-- Where the loop puts the location of an id. -/
def packedId (locationId : ℕ) : ℕ :=
  if Movable used lockAnywhere locationId then
    movableRank used lockAnywhere locationId
  else
    locationId

/-- Where the location of a movable id is after `count` rounds. -/
def placeAfter (count locationId : ℕ) : ℕ :=
  if movableRank used lockAnywhere locationId ≤ count then
    movableRank used lockAnywhere locationId
  else
    locationId

end Places

/-! ## The loop -/

/-- The state behind `count` rounds of the loop. -/
structure Packed (locations : List (Option Location)) (used : ℕ → Bool)
    (lockAnywhere : Bool) (count : ℕ) (state : Trimming) : Prop where
  length : state.locations.length = locations.length
  used_iff : ∀ slot, 0 < slot → slot ≤ totalLocations → (slot ≠ anywhere ∨ lockAnywhere = false) →
    (state.used slot = true ↔
      if slot ≤ count then slot ≤ movableCount used lockAnywhere
      else Movable used lockAnywhere slot ∧ count < movableRank used lockAnywhere slot)
  moved : ∀ locationId, Movable used lockAnywhere locationId →
    state.locations.getD (placeAfter used lockAnywhere count locationId) none =
      locations.getD locationId none
  others : ∀ slot, (∀ locationId, Movable used lockAnywhere locationId →
      slot ≠ placeAfter used lockAnywhere count locationId) →
    state.locations.getD slot none =
      if Movable used lockAnywhere slot then some blankLocation
      else locations.getD slot none
  remappings : ∀ locationId, (state.remappings.find? fun entry => entry.1 = locationId) =
      if Movable used lockAnywhere locationId ∧ movableRank used lockAnywhere locationId ≤ count ∧
          movableRank used lockAnywhere locationId ≠ locationId then
        some (locationId, movableRank used lockAnywhere locationId)
      else none
  inside : ∀ locationId, Movable used lockAnywhere locationId →
    movableRank used lockAnywhere locationId ≤ count →
    movableRank used lockAnywhere locationId ≠ locationId →
    locationId < locations.length

section Loop

variable {locations : List (Option Location)} {used : ℕ → Bool}
  {lockAnywhere : Bool} {count : ℕ} {state : Trimming}

theorem placeAfter_zero (hmovable : Movable used lockAnywhere locationId) :
    placeAfter used lockAnywhere 0 locationId = locationId := by
  have hpos : 0 < movableRank used lockAnywhere locationId := rank_pos hmovable
  rw [placeAfter, if_neg (Nat.not_le_of_lt hpos)]

theorem rank_le_movableCount (hmovable : Movable used lockAnywhere locationId) :
    movableRank used lockAnywhere locationId ≤ movableCount used lockAnywhere :=
  rank_mono hmovable.1

theorem packed_start : Packed locations used lockAnywhere 0 ⟨locations, used, []⟩ where
  length := rfl
  used_iff := by
    intro slot hpos hle hfree
    rw [if_neg (Nat.not_le_of_lt hpos)]
    constructor
    · intro hused
      have hmovable : Movable used lockAnywhere slot := ⟨hle, hused, hfree⟩
      exact ⟨hmovable, rank_pos hmovable⟩
    · rintro ⟨hmovable, -⟩
      exact hmovable.2.1
  moved := by
    intro locationId hmovable
    rw [placeAfter_zero hmovable]
  others := by
    intro slot hfree
    rw [if_neg]
    intro hmovable
    exact hfree slot hmovable (placeAfter_zero hmovable).symm
  remappings := by
    intro locationId
    rw [if_neg]
    · rfl
    · rintro ⟨hmovable, hle, -⟩
      have hpos : 0 < movableRank used lockAnywhere locationId := rank_pos hmovable
      omega
  inside := by
    intro locationId hmovable hle
    have hpos : 0 < movableRank used lockAnywhere locationId := rank_pos hmovable
    omega

/-- A round that moves nothing, where no id has the rank of the slot or only the
slot itself. -/
theorem Packed.keep (hpacked : Packed locations used lockAnywhere count state)
    (hrank : ∀ locationId, Movable used lockAnywhere locationId →
      movableRank used lockAnywhere locationId = count + 1 →
      locationId = count + 1)
    (hslot : count + 1 ≤ totalLocations → (count + 1 ≠ anywhere ∨ lockAnywhere = false) →
      (state.used (count + 1) = true ↔ count + 1 ≤ movableCount used lockAnywhere)) :
    Packed locations used lockAnywhere (count + 1) state := by
  have hplace : ∀ locationId, Movable used lockAnywhere locationId →
      placeAfter used lockAnywhere (count + 1) locationId =
        placeAfter used lockAnywhere count locationId := by
    intro locationId hmovable
    have hself := hrank locationId hmovable
    unfold placeAfter
    split <;> split <;> omega
  refine ⟨hpacked.length, ?_, ?_, ?_, ?_, ?_⟩
  · intro slot hpos hle hfree
    rcases Nat.lt_trichotomy slot (count + 1) with hlt | rfl | hgt
    · rw [hpacked.used_iff slot hpos hle hfree, if_pos (by omega), if_pos (by omega)]
    · rw [if_pos (Nat.le_refl _)]
      exact hslot hle hfree
    · rw [hpacked.used_iff slot hpos hle hfree, if_neg (by omega), if_neg (by omega)]
      constructor
      · rintro ⟨hmovable, hlt⟩
        refine ⟨hmovable, ?_⟩
        have hself := hrank slot hmovable
        omega
      · rintro ⟨hmovable, hlt⟩
        exact ⟨hmovable, by omega⟩
  · intro locationId hmovable
    rw [hplace locationId hmovable]
    exact hpacked.moved locationId hmovable
  · intro slot hfree
    apply hpacked.others
    intro locationId hmovable
    rw [← hplace locationId hmovable]
    exact hfree locationId hmovable
  · intro locationId
    rw [hpacked.remappings]
    congr 1
    apply propext
    constructor
    · rintro ⟨hmovable, hle, hne⟩
      exact ⟨hmovable, by omega, hne⟩
    · rintro ⟨hmovable, hle, hne⟩
      have hself := hrank locationId hmovable
      exact ⟨hmovable, by omega, hne⟩
  · intro locationId hmovable hle hne
    have hself := hrank locationId hmovable
    exact hpacked.inside locationId hmovable (by omega) hne

/-- The state after the location of an id was moved to a slot. -/
def moveLocation (state : Trimming) (locationId slot : ℕ) : Trimming where
  locations := (state.locations.set slot
    (state.locations.getD locationId none)).set locationId (some blankLocation)
  used := Function.update (Function.update state.used slot true) locationId false
  remappings := state.remappings ++ [(locationId, slot)]

theorem getD_moveLocation (hlt : slot < locationId)
    (hinside : locationId < state.locations.length) (other : ℕ) :
    (moveLocation state locationId slot).locations.getD other none =
      if other = locationId then some blankLocation
      else if other = slot then state.locations.getD locationId none
      else state.locations.getD other none := by
  have hslot : slot < state.locations.length := hlt.trans hinside
  rw [moveLocation, Table.getD_set _ _ _ _ (by rwa [List.length_set]), Table.getD_set _ _ _ _ hslot]

section Move

variable {locationId : ℕ} (hmovable : Movable used lockAnywhere locationId)
  (hrank : movableRank used lockAnywhere locationId = count + 1)

include hrank

theorem placeAfter_next : placeAfter used lockAnywhere (count + 1) locationId = count + 1 := by
  rw [placeAfter, if_pos hrank.le, hrank]

theorem placeAfter_before : placeAfter used lockAnywhere count locationId = locationId := by
  rw [placeAfter, if_neg (by omega)]

include hmovable

theorem rank_ne_of_ne (hother : Movable used lockAnywhere other)
    (hne : other ≠ locationId) : movableRank used lockAnywhere other ≠ count + 1 := by
  intro heq
  exact hne (rank_injective hother hmovable (heq.trans hrank.symm))

theorem placeAfter_of_ne (hother : Movable used lockAnywhere other) (hne : other ≠ locationId) :
    placeAfter used lockAnywhere (count + 1) other = placeAfter used lockAnywhere count other := by
  have hdiffers := rank_ne_of_ne hmovable hrank hother hne
  unfold placeAfter
  split <;> split <;> omega

omit hmovable hrank in
theorem placeAfter_apart (hlt : count + 1 < locationId)
    (hslot : Movable used lockAnywhere (count + 1) →
      movableRank used lockAnywhere (count + 1) ≤ count)
    (hother : Movable used lockAnywhere other) (hne : other ≠ locationId) :
    placeAfter used lockAnywhere count other ≠ locationId ∧
      placeAfter used lockAnywhere count other ≠ count + 1 := by
  unfold placeAfter
  split
  · omega
  · refine ⟨hne, ?_⟩
    rintro rfl
    have hle := hslot hother
    omega

section

variable (hpacked : Packed locations used lockAnywhere count state) (hlt : count + 1 < locationId)

include hpacked hlt

/-- The slots in use after a location was moved to its rank. -/
theorem Packed.used_moveLocation (hpos : 0 < slot) (hle : slot ≤ totalLocations)
    (hfree : slot ≠ anywhere ∨ lockAnywhere = false) :
    (moveLocation state locationId (count + 1)).used slot = true ↔
      if slot ≤ count + 1 then slot ≤ movableCount used lockAnywhere
      else Movable used lockAnywhere slot ∧ count + 1 < movableRank used lockAnywhere slot := by
  have hused : (moveLocation state locationId (count + 1)).used slot =
      if slot = locationId then false
      else if slot = count + 1 then true else state.used slot := by
    simp only [moveLocation, Function.update_apply]
  rw [hused]
  by_cases hself : slot = locationId
  · rw [if_pos hself, if_neg (by omega), hself, hrank]
    simp
  rw [if_neg hself]
  rcases Nat.lt_trichotomy slot (count + 1) with hbelow | heq | habove
  · rw [if_neg (by omega), hpacked.used_iff slot hpos hle hfree,
      if_pos (by omega), if_pos (by omega)]
  · have htotal := rank_le_movableCount hmovable
    rw [if_pos heq, if_pos heq.le]
    exact iff_of_true rfl (by omega)
  · rw [if_neg (by omega), hpacked.used_iff slot hpos hle hfree,
      if_neg (by omega), if_neg (by omega)]
    constructor
    · rintro ⟨hslotMovable, hslotRank⟩
      have hdiffers := rank_ne_of_ne hmovable hrank hslotMovable hself
      exact ⟨hslotMovable, by omega⟩
    · rintro ⟨hslotMovable, hslotRank⟩
      exact ⟨hslotMovable, by omega⟩

/-- The move is the one entry that is added to the renumbering. -/
theorem Packed.remappings_moveLocation (other : ℕ) :
    ((moveLocation state locationId (count + 1)).remappings.find? fun entry => entry.1 = other) =
      if Movable used lockAnywhere other ∧ movableRank used lockAnywhere other ≤ count + 1 ∧
          movableRank used lockAnywhere other ≠ other then
        some (other, movableRank used lockAnywhere other)
      else none := by
  rw [moveLocation, List.find?_append, hpacked.remappings]
  by_cases hself : other = locationId
  · subst hself
    rw [if_neg (by omega), if_pos ⟨hmovable, hrank.le, by omega⟩, hrank]
    simp
  have hsame : (Movable used lockAnywhere other ∧ movableRank used lockAnywhere other ≤ count ∧
      movableRank used lockAnywhere other ≠ other) ↔
      (Movable used lockAnywhere other ∧
      movableRank used lockAnywhere other ≤ count + 1 ∧
      movableRank used lockAnywhere other ≠ other) := by
    constructor
    · rintro ⟨hother, hle, hne⟩
      exact ⟨hother, by omega, hne⟩
    · rintro ⟨hother, hle, hne⟩
      have hdiffers := rank_ne_of_ne hmovable hrank hother hself
      exact ⟨hother, by omega, hne⟩
  rw [if_congr hsame rfl rfl]
  have hnot : ¬ locationId = other := fun h => hself h.symm
  split
  · rfl
  · simp [hnot]

/-- A round that moves the location whose rank is the slot. -/
theorem Packed.move (hinside : locationId < locations.length)
    (hslot : Movable used lockAnywhere (count + 1) →
      movableRank used lockAnywhere (count + 1) ≤ count) :
    Packed locations used lockAnywhere (count + 1) (moveLocation state locationId (count + 1)) := by
  have hinside' : locationId < state.locations.length := by
    rw [hpacked.length]
    exact hinside
  refine ⟨?_, ?_, ?_, ?_, ?_, ?_⟩
  · simp only [moveLocation, List.length_set]
    exact hpacked.length
  · intro slot hpos hle hfree
    exact hpacked.used_moveLocation hmovable hrank hlt hpos hle hfree
  · intro other hother
    rw [getD_moveLocation hlt hinside']
    by_cases hself : other = locationId
    · have hmoved := hpacked.moved other hother
      rw [hself, placeAfter_before hrank] at hmoved
      rw [hself, placeAfter_next hrank, if_neg (by omega), if_pos rfl, hmoved]
    · obtain ⟨hneFrom, hneTo⟩ := placeAfter_apart hlt hslot hother hself
      rw [placeAfter_of_ne hmovable hrank hother hself, if_neg hneFrom, if_neg hneTo]
      exact hpacked.moved other hother
  · intro slot hfree
    have hneTo : slot ≠ count + 1 := by
      rw [← placeAfter_next hrank]
      exact hfree locationId hmovable
    rw [getD_moveLocation hlt hinside']
    by_cases hself : slot = locationId
    · rw [if_pos hself, hself, if_pos hmovable]
    · rw [if_neg hself, if_neg hneTo]
      apply hpacked.others
      intro other hother
      by_cases hsame : other = locationId
      · rw [hsame, placeAfter_before hrank]
        exact hself
      · rw [← placeAfter_of_ne hmovable hrank hother hsame]
        exact hfree other hother
  · exact hpacked.remappings_moveLocation hmovable hrank hlt
  · intro other hother hle hne
    by_cases hself : other = locationId
    · rw [hself]
      exact hinside
    · have hdiffers := rank_ne_of_ne hmovable hrank hother hself
      exact hpacked.inside other hother (by omega) hne

end

end Move

section Round

variable (hpacked : Packed locations used lockAnywhere count state)
  (hzero : used 0 = false) (hcount : count < totalLocations)

omit hcount

include hzero in
theorem not_movable_zero : ¬ Movable used lockAnywhere 0 := by
  rintro ⟨-, hused, -⟩
  rw [hzero] at hused
  cases hused

include hzero in
/-- The first movable location behind a free slot has the slot as its rank. -/
theorem rank_of_first {locationId : ℕ} (hlt : count < movableRank used lockAnywhere locationId)
    (hslot : Movable used lockAnywhere (count + 1) →
      movableRank used lockAnywhere (count + 1) ≤ count)
    (hfirst : ∀ other, Movable used lockAnywhere other →
      count < movableRank used lockAnywhere other → count + 1 < other →
      ¬ other < locationId) :
    movableRank used lockAnywhere locationId = count + 1 := by
  obtain ⟨holder, hle, hholder, heq⟩ := exists_rank_eq (Nat.succ_pos count) (Nat.succ_le_of_lt hlt)
  change movableRank used lockAnywhere holder = count + 1 at heq
  have hself : movableRank used lockAnywhere holder ≤ holder :=
    rank_le (not_movable_zero hzero) holder
  have hneSlot : holder ≠ count + 1 := by
    rintro rfl
    have hbelow := hslot hholder
    omega
  have hnot := hfirst holder hholder (by omega) (by omega)
  have hsame : holder = locationId := by omega
  rw [← hsame, heq]

include hpacked hzero hcount

theorem Packed.keep_used (hfree : count + 1 ≠ anywhere ∨ lockAnywhere = false)
    (hused : state.used (count + 1) = true) :
    Packed locations used lockAnywhere (count + 1) state := by
  have hstate := hpacked.used_iff (count + 1) (Nat.succ_pos count) hcount hfree
  rw [if_neg (by omega)] at hstate
  obtain ⟨hmovable, hlt⟩ := hstate.mp hused
  have hle : movableRank used lockAnywhere (count + 1) ≤ count + 1 :=
    rank_le (not_movable_zero hzero) (count + 1)
  have hrank : movableRank used lockAnywhere (count + 1) = count + 1 := by
    omega
  apply hpacked.keep
  · intro other hother heq
    exact rank_injective hother hmovable (heq.trans hrank.symm)
  · intro _ _
    have htotal := rank_le_movableCount hmovable
    exact iff_of_true hused (by omega)

omit hcount in
/-- With no location left to move, all of them are packed. -/
theorem Packed.keep_unused (hslot : Movable used lockAnywhere (count + 1) →
      movableRank used lockAnywhere (count + 1) ≤ count)
    (hunused : state.used (count + 1) = false)
    (hnone : ∀ locationId, Movable used lockAnywhere locationId →
      count < movableRank used lockAnywhere locationId →
      ¬ count + 1 < locationId) :
    Packed locations used lockAnywhere (count + 1) state := by
  have hrank : ∀ locationId, Movable used lockAnywhere locationId →
      movableRank used lockAnywhere locationId = count + 1 → False := by
    intro locationId hmovable heq
    have hle : movableRank used lockAnywhere locationId ≤ locationId :=
      rank_le (not_movable_zero hzero) locationId
    have hnot := hnone locationId hmovable (by omega)
    have hsame : locationId = count + 1 := by omega
    subst hsame
    have hbelow := hslot hmovable
    omega
  apply hpacked.keep
  · intro locationId hmovable heq
    exact absurd heq (hrank locationId hmovable)
  · intro _ _
    rw [hunused]
    apply iff_of_false (by simp)
    intro hle
    obtain ⟨holder, -, hholder, heq⟩ := exists_rank_eq (Nat.succ_pos count) hle
    exact hrank holder hholder heq

/-- One round packs one more slot, or takes a location from behind the list. -/
theorem Packed.round (hlocked : lockAnywhere = true → movableCount used lockAnywhere < anywhere) :
    (∃ following, moveToUnused lockAnywhere state (count + 1) = .ok following ∧
        Packed locations used lockAnywhere (count + 1) following) ∨
      (moveToUnused lockAnywhere state (count + 1) = .error .undefinedBehavior ∧
        ∃ locationId, Movable used lockAnywhere locationId ∧ locations.length ≤ locationId) := by
  unfold moveToUnused
  by_cases hfree : count + 1 ≠ anywhere ∨ lockAnywhere = false
  · cases hused : state.used (count + 1) with
    | true =>
        rw [if_neg (by simp)]
        exact .inl ⟨state, rfl, hpacked.keep_used hzero hcount hfree hused⟩
    | false =>
        rw [if_pos ⟨rfl, hfree⟩]
        -- The used ids behind the slot are the movable ones not packed yet.
        have hbehind : ∀ locationId, count + 1 ≤ locationId → locationId ≤ totalLocations →
            (locationId ≠ anywhere ∨ lockAnywhere = false) →
            (state.used locationId = true ↔ Movable used lockAnywhere locationId ∧
                count < movableRank used lockAnywhere locationId) := by
          intro locationId hle hlast hother
          rw [hpacked.used_iff locationId (by omega) hlast hother, if_neg (by omega)]
        have hslot : Movable used lockAnywhere (count + 1) →
            movableRank used lockAnywhere (count + 1) ≤ count := by
          intro hmovable
          by_contra hgt
          have htrue := (hbehind (count + 1) (Nat.le_refl _) hcount hfree).mpr
            ⟨hmovable, Nat.lt_of_not_le hgt⟩
          rw [hused] at htrue
          cases htrue
        split
        · rename_i locationId hfind
          rw [List.find?_range'_eq_some] at hfind
          obtain ⟨htest, hmem, hfirst⟩ := hfind
          rw [List.mem_range'_1] at hmem
          simp only [Bool.and_eq_true, Bool.or_eq_true, decide_eq_true_eq,
            Bool.not_eq_true'] at htest
          obtain ⟨hmovable, hlt⟩ := (hbehind locationId (by omega) (by omega) htest.2).mp htest.1
          have hrank := rank_of_first hzero hlt hslot (by
            intro other hother hotherRank hgt hbefore
            have hotherUsed := (hbehind other (by omega) hother.1
              hother.2.2).mpr ⟨hother, hotherRank⟩
            have hnot := hfirst other (by omega) hbefore
            rw [hotherUsed] at hnot
            rcases hother.2.2 with hneAnywhere | hunlocked
            · simp [hneAnywhere] at hnot
            · simp [hunlocked] at hnot)
          split
          · rename_i hinside
            rw [hpacked.length] at hinside
            exact .inl ⟨_, rfl, hpacked.move hmovable hrank (by omega) hinside hslot⟩
          · rename_i houtside
            rw [hpacked.length] at houtside
            exact .inr ⟨rfl, locationId, hmovable, Nat.le_of_not_lt houtside⟩
        · rename_i hfind
          refine .inl ⟨state, rfl, hpacked.keep_unused hzero hslot hused ?_⟩
          intro locationId hmovable hlt hgt
          have hlast := hmovable.1
          have hnot := List.find?_eq_none.mp hfind locationId (by rw [List.mem_range'_1]; omega)
          have hlocationUsed := (hbehind locationId (by omega) hmovable.1
            hmovable.2.2).mpr ⟨hmovable, hlt⟩
          rw [hlocationUsed] at hnot
          rcases hmovable.2.2 with hneAnywhere | hunlocked
          · simp [hneAnywhere] at hnot
          · simp [hunlocked] at hnot
  · rw [if_neg fun h => hfree h.2]
    refine .inl ⟨state, rfl, hpacked.keep ?_ fun _ h => absurd h hfree⟩
    intro locationId hmovable heq
    simp only [not_or, not_not, Bool.not_eq_false] at hfree
    have hbelow := hlocked hfree.2
    have hle := rank_le_movableCount hmovable
    omega

end Round

theorem packed_foldlM (hzero : used 0 = false) (hlocked : lockAnywhere = true →
      movableCount used lockAnywhere < anywhere) :
    ∀ count ≤ totalLocations, (∃ final, (List.range' 1 count).foldlM (moveToUnused lockAnywhere)
          ⟨locations, used, []⟩ = .ok final ∧
          Packed locations used lockAnywhere count final) ∨
        ((List.range' 1 count).foldlM (moveToUnused lockAnywhere)
            ⟨locations, used, []⟩ = .error .undefinedBehavior ∧
          ∃ locationId, Movable used lockAnywhere locationId ∧ locations.length ≤ locationId) := by
  intro count hcount
  induction count with
  | zero => exact .inl ⟨_, rfl, packed_start⟩
  | succ count ih =>
      rw [List.range'_1_concat, List.foldlM_append]
      rcases ih (by omega) with ⟨middle, hmiddle, hpacked⟩ | ⟨hhazard, hwhere⟩
      · rw [hmiddle]
        have hlast : ([1 + count].foldlM (moveToUnused lockAnywhere) middle) =
            moveToUnused lockAnywhere middle (count + 1) := by
          rw [List.foldlM_cons, Nat.add_comm]
          cases moveToUnused lockAnywhere middle (count + 1) <;> rfl
        rcases hpacked.round hzero hcount hlocked with
          ⟨final, hfinal, hnext⟩ | ⟨hhazard, hwhere⟩
        · exact .inl ⟨final, hlast.trans hfinal, hnext⟩
        · exact .inr ⟨hlast.trans hhazard, hwhere⟩
      · rw [hhazard]
        exact .inr ⟨rfl, hwhere⟩

end Loop

section Behind

variable {locations : List (Option Location)} {triggers : List Trigger}
  {lockAnywhere : Bool}

theorem locationIdUsed_zero (locations : List (Option Location)) (triggers : List Trigger) :
    locationIdUsed locations triggers 0 = false := by
  simp [locationIdUsed]

theorem le_of_locationIdUsed {locationId : ℕ}
    (hused : locationIdUsed locations triggers locationId = true) :
    locationId ≤ totalLocations := by
  simp only [locationIdUsed, Bool.or_eq_true, decide_eq_true_eq] at hused
  omega

theorem countP_movable (ids : List ℕ) : (ids.countP fun locationId =>
        locationIdUsed locations triggers locationId ||
          (decide (locationId = anywhere) && lockAnywhere)) =
      (ids.countP fun locationId =>
        Movable (locationIdUsed locations triggers) lockAnywhere locationId) +
      ids.countP fun locationId =>
        decide (locationId = anywhere) && lockAnywhere := by
  induction ids with
  | nil => rfl
  | cons locationId rest ih =>
      rw [List.countP_cons, List.countP_cons, List.countP_cons, ih]
      by_cases hlocked : locationId = anywhere ∧ lockAnywhere = true
      · have hanywhere : (decide (locationId = anywhere) && lockAnywhere) =
            true := by
          simp [hlocked.1, hlocked.2]
        have hnot : ¬ Movable (locationIdUsed locations triggers) lockAnywhere
            locationId := by
          rintro ⟨-, -, hne | hfalse⟩
          · exact hne hlocked.1
          · rw [hlocked.2] at hfalse
            cases hfalse
        rw [hanywhere, Bool.or_true, decide_eq_false hnot, if_pos rfl, if_neg Bool.false_ne_true]
        omega
      · have hfree : locationId ≠ anywhere ∨ lockAnywhere = false := by
          cases lockAnywhere with
          | false => exact .inr rfl
          | true => exact .inl fun h => hlocked ⟨h, rfl⟩
        have hanywhere : (decide (locationId = anywhere) && lockAnywhere) =
            false := by
          rcases hfree with h | h <;> simp [h]
        have hsame : Movable (locationIdUsed locations triggers) lockAnywhere locationId ↔
            locationIdUsed locations triggers locationId = true :=
          ⟨fun h => h.2.1, fun h => ⟨le_of_locationIdUsed h, h, hfree⟩⟩
        rw [hanywhere, Bool.or_false, if_neg Bool.false_ne_true]
        simp only [decide_eq_true_eq, hsame]
        omega

/-- What counts as used is packed, or is the locked Anywhere. -/
theorem countUsedOrCreated_eq : countUsedOrCreated locations triggers lockAnywhere =
      movableCount (locationIdUsed locations triggers) lockAnywhere +
        if lockAnywhere then 1 else 0 := by
  have hmovable : movableCount (locationIdUsed locations triggers)
      lockAnywhere = (List.range' 1 totalLocations).countP fun locationId =>
        Movable (locationIdUsed locations triggers) lockAnywhere
          locationId := by
    have hrange : List.range (totalLocations + 1) = 0 :: List.range' 1 totalLocations := by
      rw [List.range_eq_range', List.range'_succ]
    rw [movableCount, movableRank, rank, Nat.count, hrange, List.countP_cons_of_neg]
    simpa using not_movable_zero (locationIdUsed_zero locations triggers)
  have hlocked : ((List.range' 1 totalLocations).countP fun locationId =>
      decide (locationId = anywhere) && lockAnywhere) =
      if lockAnywhere then 1 else 0 := by
    cases lockAnywhere <;> decide +kernel
  rw [countUsedOrCreated, countP_movable, hmovable, hlocked]

end Behind

end Chkdraft.Scenario
