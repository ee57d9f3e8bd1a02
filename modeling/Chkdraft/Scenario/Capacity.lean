import Chkdraft.Scenario.Defragment

/-!
# The capacity of the game strings

`StrSection::setCapacity` grows or cuts the table.  It refuses when there are
more used strings than room for them, and defragments when the highest used id
is above the capacity.  An id equal to the capacity is cut off all the same, and
so is a string whose packed id is beyond it.  `StrSection::addString` grows the
table to the first id nobody uses.
-/

namespace Chkdraft.Scenario

open Chk Scan Sections Table

variable {strings : List (Option ScStr)} {stringId : ℕ}
  {scenario : LoadedScenario} {str : ScStr}

/-- Every user that had a string has the same string. -/
def KeepsContents (before after : LoadedScenario) : Prop :=
  ∀ flag, List.Forall₂ (fun old new => old ≠ none → new = old)
    (gameContents before flag) (gameContents after flag)

namespace LoadedScenario

theorem resolve_ne_none_iff : resolve strings stringId ≠ none ↔
      0 < stringId ∧ strings.getD stringId none ≠ none := by
  rw [resolve]
  split
  · rename_i hzero
    exact iff_of_false (fun h => h rfl) (by omega)
  · rw [getString, ne_eq, Option.map_eq_none_iff]
    exact (and_iff_right (by omega)).symm

def ResolvesId (scenario : LoadedScenario) (stringId : ℕ) : Prop :=
  0 < stringId ∧ scenario.str.strings.getD stringId none ≠ none ∧
    ∃ flag, stringId ∈ scenario.gameStringIds flag

/-- Contents are kept if every id with a string leads to the string. -/
theorem keepsContents_iff {after : LoadedScenario}
    {target : StringUserFlag → ℕ → ℕ}
    (hids : ∀ flag, after.gameStringIds flag = (scenario.gameStringIds flag).map (target flag)) :
    KeepsContents scenario after ↔ ∀ flag, ∀ stringId ∈ scenario.gameStringIds flag, 0 < stringId →
        scenario.str.strings.getD stringId none ≠ none →
        resolve after.str.strings (target flag stringId) =
          getString scenario.str.strings stringId := by
  apply forall_congr'
  intro flag
  rw [gameContents_eq, gameContents_eq, hids, List.map_map,
    List.forall₂_map_left_iff, List.forall₂_map_right_iff, List.forall₂_same]
  apply forall₂_congr
  intro stringId _
  rw [resolve_ne_none_iff, and_imp]
  apply forall_congr'
  intro hpos
  have hresolve : resolve scenario.str.strings stringId =
      getString scenario.str.strings stringId := if_neg (by omega)
  rw [hresolve]
  rfl

theorem resolve_resize {source : List (Option ScStr)}
    {stringCapacity target : ℕ} (hstored : source.getD stringId none ≠ none)
    (hfound : strings.getD target none = source.getD stringId none) :
    resolve (resize strings stringCapacity) target = getString source stringId ↔
      0 < target ∧ target < stringCapacity := by
  obtain ⟨string, hstring⟩ := Option.ne_none_iff_exists'.mp hstored
  rw [resolve, getString, getString, getD_resize, hfound, hstring]
  by_cases hzero : target = 0
  · rw [if_pos hzero]
    exact iff_of_false (fun h => Option.some_ne_none _ h.symm) (by omega)
  · rw [if_neg hzero]
    by_cases hlt : target < stringCapacity
    · rw [if_pos hlt]
      exact iff_of_true rfl ⟨by omega, hlt⟩
    · rw [if_neg hlt]
      exact iff_of_false (fun h => Option.some_ne_none _ h.symm) (by omega)

/-- Cutting the table keeps the strings below the capacity. -/
theorem keepsContents_resize_iff (scenario : LoadedScenario) (stringCapacity : ℕ) :
    KeepsContents scenario (scenario.withStrings (resize scenario.str.strings stringCapacity)) ↔
      ∀ stringId, scenario.ResolvesId stringId → stringId < stringCapacity := by
  have hids : ∀ flag, (scenario.withStrings (resize scenario.str.strings
      stringCapacity)).gameStringIds flag = (scenario.gameStringIds flag).map id := by
    intro flag
    rw [gameStringIds_withStrings, List.map_id]
  rw [keepsContents_iff hids]
  constructor
  · rintro hkept stringId ⟨hpos, hstored, flag, hmem⟩
    exact ((resolve_resize hstored rfl).mp (hkept flag stringId hmem hpos hstored)).2
  · intro hbelow flag stringId hmem hpos hstored
    exact (resolve_resize hstored rfl).mpr ⟨hpos, hbelow stringId ⟨hpos, hstored, flag, hmem⟩⟩

/-- Cutting the table after defragmenting keeps the strings whose packed id is
not 0 and below the capacity. -/
theorem keepsContents_defragment_resize_iff (scenario : LoadedScenario) (stringCapacity : ℕ) :
    KeepsContents scenario (scenario.defragment.withStrings
        (resize scenario.defragment.str.strings stringCapacity)) ↔
      ∀ stringId, scenario.ResolvesId stringId → 0 < packed scenario.str.strings stringId ∧
          packed scenario.str.strings stringId < stringCapacity := by
  have hids : ∀ flag, (scenario.defragment.withStrings (resize
      scenario.defragment.str.strings stringCapacity)).gameStringIds flag =
        (scenario.gameStringIds flag).map fun stringId =>
          remapped (fillHoles scenario.str.strings).2 stringId % 2 ^ flag.idWidth := by
    intro flag
    rw [gameStringIds_withStrings, defragment_eq, gameStringIds_remapStringIds,
      gameStringIds_withStrings]
  have htarget : ∀ flag, ∀ stringId ∈ scenario.gameStringIds flag,
      scenario.str.strings.getD stringId none ≠ none →
      remapped (fillHoles scenario.str.strings).2 stringId %
        2 ^ flag.idWidth = packed scenario.str.strings stringId := by
    intro flag stringId hmem hstored
    rw [remapped_fillHoles, if_pos hstored]
    exact Nat.mod_eq_of_lt (lt_of_le_of_lt (packed_le _ _) (lt_of_mem_gameStringIds hmem))
  rw [keepsContents_iff hids]
  constructor
  · rintro hkept stringId ⟨hpos, hstored, flag, hmem⟩
    have hresolve := hkept flag stringId hmem hpos hstored
    rw [htarget flag stringId hmem hstored] at hresolve
    exact (resolve_resize hstored (getD_fillHoles_packed hstored)).mp hresolve
  · intro hbelow flag stringId hmem hpos hstored
    rw [htarget flag stringId hmem hstored]
    exact (resolve_resize hstored (getD_fillHoles_packed hstored)).mpr
      (hbelow stringId ⟨hpos, hstored, flag, hmem⟩)

/-- `StrSection::setCapacity`, with the scenario it leaves behind. -/
def setCapacityWith (scenario : LoadedScenario) (stringCapacity : ℕ)
    (autoDefragment : Bool) : Except Exception Bool × LoadedScenario :=
  if maxStrings < stringCapacity then
    (.error .maximumStringsExceeded, scenario)
  else
    let used := scenario.validUsedStringIds
    if stringCapacity < used.length then
      (.error (.insufficientStringCapacity used.length stringCapacity), scenario)
    else if stringCapacity < used.getLastD 0 then
      if autoDefragment ∧ used.length ≤ stringCapacity then
        let scenario := scenario.defragment
        (.ok true, scenario.withStrings (resize scenario.str.strings stringCapacity))
      else
        (.error (.insufficientStringCapacity used.length stringCapacity), scenario)
    else
      (.ok true, scenario.withStrings (resize scenario.str.strings stringCapacity))

/-- With automatic defragmentation it is the function callers use. -/
theorem setCapacityWith_true (scenario : LoadedScenario) (stringCapacity : ℕ) :
    scenario.setCapacityWith stringCapacity true =
      match scenario.setCapacity stringCapacity with
      | .ok after => (.ok true, after)
      | .error exception => (.error exception, scenario) := by
  rw [setCapacityWith, setCapacity]
  by_cases hmax : maxStrings < stringCapacity
  · rw [if_pos hmax, if_pos hmax]
  · rw [if_neg hmax, if_neg hmax]
    simp only
    by_cases hcount : stringCapacity < scenario.validUsedStringIds.length
    · rw [if_pos hcount, if_pos hcount]
    · rw [if_neg hcount, if_neg hcount]
      by_cases hlast : stringCapacity < scenario.validUsedStringIds.getLastD 0
      · rw [if_pos hlast, if_pos hlast, if_pos ⟨trivial, by omega⟩]
      · rw [if_neg hlast, if_neg hlast]

theorem lt_getLastD_validUsedStringIds {stringCapacity : ℕ} :
    stringCapacity < scenario.validUsedStringIds.getLastD 0 ↔
      ∃ stringId ∈ scenario.validUsedStringIds, stringCapacity < stringId := by
  have hsorted : scenario.validUsedStringIds.Pairwise (· < ·) := List.pairwise_lt_range.filter _
  rcases List.eq_nil_or_concat scenario.validUsedStringIds with
    hnil | ⟨front, last, hconcat⟩
  · simp [hnil]
  · rw [hconcat] at hsorted ⊢
    rw [List.concat_eq_append, List.pairwise_append] at hsorted
    simp only [List.concat_eq_append, List.getLastD_concat]
    constructor
    · intro hlt
      exact ⟨last, by simp, hlt⟩
    · rintro ⟨stringId, hmem, hlt⟩
      rcases List.mem_append.mp hmem with hfront | hlast
      · have hbelow := hsorted.2.2 stringId hfront last (by simp)
        omega
      · rw [List.mem_singleton.mp hlast] at hlt
        exact hlt

theorem mem_validUsedStringIds : stringId ∈ scenario.validUsedStringIds ↔
      stringId < maxStrings ∧ scenario.ResolvesId stringId := by
  rw [validUsedStringIds, List.mem_filter, List.mem_range, decide_eq_true_eq,
    marksGameString, ResolvesId]
  simp only [UserMask.all, true_and]
  tauto

/-- `StrSection::addString<RawString>`, where the caller chooses whether the
table may be defragmented to make room. -/
def addStringWith (scenario : LoadedScenario) (str : ScStr) (autoDefragment : Bool) :
    Except Exception (ℕ × LoadedScenario) :=
  let stringId := findString scenario.str.strings str
  if stringId ≠ 0 then
    .ok (stringId, scenario)
  else
    let next := scenario.nextUnusedStringId
    let grown : Except Exception LoadedScenario :=
      if scenario.str.strings.length ≤ next then
        match scenario.setCapacityWith (next + 1) autoDefragment with
        | (.ok _, scenario) => .ok scenario
        | (.error exception, _) => .error exception
      else if next = 0 then
        .error .maximumStringsExceeded
      else
        .ok scenario
    grown.map fun scenario =>
      (next, scenario.withStrings (scenario.str.strings.set next (some str)))

/-- The choice does not matter, since every stored string lies below the capacity
that is asked for. -/
theorem addStringWith_eq (scenario : LoadedScenario) (str : ScStr) (autoDefragment : Bool) :
    scenario.addStringWith str autoDefragment = scenario.addString str := by
  have hgrow : ∀ next, scenario.str.strings.length ≤ next →
      scenario.setCapacityWith (next + 1) autoDefragment =
        scenario.setCapacityWith (next + 1) true := by
    intro next hle
    have hlast : ¬ next + 1 < scenario.validUsedStringIds.getLastD 0 := by
      rw [lt_getLastD_validUsedStringIds]
      rintro ⟨stringId, hmem, hlt⟩
      have hstored := (mem_validUsedStringIds.mp hmem).2.2.1
      exact hstored (List.getD_eq_default _ _ (by omega))
    simp only [setCapacityWith, if_neg hlast]
  rw [addStringWith, addString]
  simp only
  by_cases hle : scenario.str.strings.length ≤ scenario.nextUnusedStringId
  · rw [if_pos hle, if_pos hle, hgrow _ hle, setCapacityWith_true]
    cases scenario.setCapacity (scenario.nextUnusedStringId + 1) <;> rfl
  · rw [if_neg hle, if_neg hle]

/-- Setting the capacity is safe exactly if it is refused, if every string
somebody has lies below the capacity, or if defragmenting puts every such string
above id 0 and below the capacity. -/
theorem setCapacityWith_safe_iff (scenario : LoadedScenario)
    (stringCapacity : ℕ) (autoDefragment : Bool) :
    ((∃ exception, scenario.setCapacityWith stringCapacity autoDefragment =
        (.error exception, scenario)) ∨
      ∃ after, scenario.setCapacityWith stringCapacity autoDefragment =
        (.ok true, after) ∧ KeepsContents scenario after) ↔
      maxStrings < stringCapacity ∨
      stringCapacity < scenario.validUsedStringIds.length ∨
      (∀ stringId, scenario.ResolvesId stringId → stringId < stringCapacity) ∨
      (∃ stringId, stringId < maxStrings ∧ scenario.ResolvesId stringId ∧
        stringCapacity < stringId) ∧
      (autoDefragment = false ∨ ∀ stringId, scenario.ResolvesId stringId →
          ∃ below, below < stringId ∧ scenario.str.strings.getD below none ≠ none ∧
            (∀ between, below < between → between < stringId →
              scenario.str.strings.getD between none = none) ∧
            below + 1 < stringCapacity) := by
  have hpacked : ∀ stringId, (0 < packed scenario.str.strings stringId ∧
      packed scenario.str.strings stringId < stringCapacity) ↔
      ∃ below, below < stringId ∧ scenario.str.strings.getD below none ≠ none ∧
        (∀ between, below < between → between < stringId →
          scenario.str.strings.getD between none = none) ∧
        below + 1 < stringCapacity := by
    intro stringId
    constructor
    · rintro ⟨hpos, hlt⟩
      obtain ⟨below, hbelow⟩ := Nat.exists_eq_succ_of_ne_zero hpos.ne'
      obtain ⟨hless, hstored, hholes⟩ := (packed_eq_succ_iff _).mp hbelow
      exact ⟨below, hless, hstored, hholes, by omega⟩
    · rintro ⟨below, hless, hstored, hholes, hroom⟩
      rw [(packed_eq_succ_iff _).mpr ⟨hless, hstored, hholes⟩]
      omega
  have hhighest : stringCapacity < scenario.validUsedStringIds.getLastD 0 ↔
      ∃ stringId, stringId < maxStrings ∧ scenario.ResolvesId stringId ∧
        stringCapacity < stringId := by
    rw [lt_getLastD_validUsedStringIds]
    simp only [mem_validUsedStringIds, and_assoc]
  rw [setCapacityWith]
  by_cases hmax : maxStrings < stringCapacity
  · rw [if_pos hmax]
    exact iff_of_true (.inl ⟨_, rfl⟩) (.inl hmax)
  rw [if_neg hmax]
  simp only
  by_cases hcount : stringCapacity < scenario.validUsedStringIds.length
  · rw [if_pos hcount]
    exact iff_of_true (.inl ⟨_, rfl⟩) (.inr (.inl hcount))
  rw [if_neg hcount]
  simp only [hmax, hcount, false_or]
  by_cases hlast : stringCapacity < scenario.validUsedStringIds.getLastD 0
  · have hbeyond := hhighest.mp hlast
    have hnotBelow : ¬ ∀ stringId, scenario.ResolvesId stringId → stringId < stringCapacity := by
      intro hbelow
      obtain ⟨stringId, -, hresolves, hlt⟩ := hbeyond
      have := hbelow stringId hresolves
      omega
    rw [if_pos hlast, or_iff_right hnotBelow, and_iff_right hbeyond]
    cases autoDefragment with
    | false =>
        rw [if_neg (by simp)]
        exact iff_of_true (.inl ⟨_, rfl⟩) (.inl rfl)
    | true =>
        rw [if_pos ⟨rfl, by omega⟩]
        simp only [← hpacked, ← keepsContents_defragment_resize_iff]
        simp
  · have hnone := mt hhighest.mpr hlast
    rw [if_neg hlast]
    simp only [hnone, false_and, or_false, ← keepsContents_resize_iff]
    simp

/-- The name of a scenario has the highest id, which is the capacity: it is cut
off although one string would fit. -/
theorem setCapacityWith_cuts_name : ∃ scenario after : LoadedScenario,
      scenario.str.strings = [none, some [65], some [66]] ∧
      gameContents scenario .scenarioName = [some [66]] ∧
      scenario.setCapacityWith 2 true = (.ok true, after) ∧
      gameContents after .scenarioName = [none] := by
  let scenario : LoadedScenario :=
    { (bareScenario [] []).withStrings [none, some [65], some [66]] with
      scenarioNameStringId := 2 }
  have hroom : scenario.str.strings.length ≤ 2 + 1 := by decide
  have hset : scenario.setCapacityWith 2 true =
      (.ok true, scenario.withStrings (resize scenario.str.strings 2)) := by
    obtain ⟨hcount, hlast⟩ := validUsedStringIds_le hroom
    rw [setCapacityWith, if_neg (by decide), if_neg (by omega), if_neg (by omega)]
  exact ⟨scenario, _, rfl, by decide, hset, by decide⟩

theorem findString_eq_zero_iff : findString strings str = 0 ↔ ∀ stringId, 0 < stringId →
        getString strings stringId ≠ some (untilNul str) := by
  constructor
  · intro hzero stringId hpos hget
    have hlt := lt_length_of_getString hget
    rw [findString] at hzero
    cases hfind : (List.range strings.length).find? fun stringId =>
        0 < stringId ∧ getString strings stringId = some (untilNul str) with
    | none =>
        have hnot := List.find?_eq_none.mp hfind stringId (List.mem_range.mpr hlt)
        exact hnot (decide_eq_true ⟨hpos, hget⟩)
    | some found =>
        have hfound := List.find?_some hfind
        simp only [decide_eq_true_eq] at hfound
        rw [hfind] at hzero
        exact absurd hzero hfound.1.ne'
  · intro hnone
    by_contra hfound
    exact hnone _ (Nat.pos_of_ne_zero hfound) (getString_findString hfound)

/-- A string that is not stored is found where it was put. -/
theorem findString_set (hpos : 0 < stringId) (hlt : stringId < strings.length)
    (hnone : findString strings str = 0) :
    findString (strings.set stringId (some str)) str = stringId := by
  have hget : ∀ other, getString (strings.set stringId (some str)) other =
        if other = stringId then some (untilNul str)
        else getString strings other := by
    intro other
    rw [getString, getD_set strings stringId other _ hlt]
    split <;> rfl
  rw [findString_eq_zero_iff] at hnone
  have hfind : (List.range (strings.set stringId (some str)).length).find?
      (fun other => 0 < other ∧ getString (strings.set stringId (some str)) other =
          some (untilNul str)) = some stringId := by
    rw [List.find?_range_eq_some]
    refine ⟨?_, ?_, ?_⟩
    · exact decide_eq_true ⟨hpos, by rw [hget, if_pos rfl]⟩
    · rw [List.length_set]
      exact List.mem_range.mpr hlt
    · intro other hother
      rw [Bool.not_eq_true', decide_eq_false_iff_not]
      rintro ⟨hother', hfound⟩
      rw [hget, if_neg (by omega)] at hfound
      exact hnone other hother' hfound
  rw [findString, hfind]
  rfl

theorem addString_of_found (hfound : findString scenario.str.strings str ≠ 0) :
    scenario.addString str = .ok (findString scenario.str.strings str, scenario) := by
  rw [addString]
  exact if_pos hfound

/-- What a user resolves to depends on the entries of the table only. -/
theorem gameContents_withStrings_eq {flag : StringUserFlag}
    (hsame : ∀ stringId ∈ scenario.gameStringIds flag, 0 < stringId →
      strings.getD stringId none = scenario.str.strings.getD stringId none) :
    gameContents (scenario.withStrings strings) flag = gameContents scenario flag := by
  rw [gameContents_eq, gameContents_eq, gameStringIds_withStrings]
  apply List.map_congr_left
  intro stringId hmem
  rw [resolve, resolve]
  split
  · rfl
  · rename_i hne
    rw [getString, getString, withStrings, hsame stringId hmem (by omega)]

/-- Adding a string returns an id that has it, keeps what the users resolve to
and does nothing the second time, unless the table is empty and every id is
used. -/
theorem addString_stores_iff {scenario added : LoadedScenario} {str : ScStr}
    {stringId : ℕ} (hnul : (0 : UInt8) ∉ str)
    (hadd : scenario.addString str = .ok (stringId, added)) :
    (1 ≤ stringId ∧ getString added.str.strings stringId = some str ∧
      (∀ flag, gameContents added flag = gameContents scenario flag) ∧
      added.addString str = .ok (stringId, added)) ↔
      scenario.str.strings ≠ [] ∨ ∃ unused, 1 ≤ unused ∧ unused < maxStrings ∧
          ¬ scenario.marksGameString .all unused := by
  have hstr : untilNul str = str := untilNul_of_nul_not_mem hnul
  by_cases hfound : findString scenario.str.strings str ≠ 0
  · rw [addString_of_found hfound] at hadd
    cases hadd
    have hget := getString_findString hfound
    have hnonempty : scenario.str.strings ≠ [] := by
      intro hnil
      have hlt := lt_length_of_getString hget
      simp [hnil] at hlt
    apply iff_of_true _ (.inl hnonempty)
    exact ⟨Nat.pos_of_ne_zero hfound, by rw [hget, hstr], fun _ => rfl, addString_of_found hfound⟩
  · have hzero : findString scenario.str.strings str = 0 := not_not.mp hfound
    obtain ⟨heq, hne, -⟩ | ⟨hnext, strings, rfl, hlt, -, hsame⟩ := addString_cases hadd
    · exact absurd (heq.trans hzero) hne
    have hfree := scenario.nextUnusedStringId_spec.2
    by_cases hpos : 0 < stringId
    · -- The string is put at an id that no user holds.
      apply iff_of_true
      · have hnone : findString strings str = 0 := by
          rw [findString_eq_zero_iff] at hzero ⊢
          intro other hother
          rw [getString, hsame other]
          exact hzero other hother
        have hset := findString_set hpos hlt hnone
        refine ⟨hpos, ?_, fun flag => ?_, ?_⟩
        · have hget := getString_findString (hset.trans_ne hpos.ne')
          rw [hset, hstr] at hget
          exact hget
        · apply gameContents_withStrings_eq
          intro other hmem hother
          have hne : other ≠ stringId := by
            rintro rfl
            apply hfree
            rw [← hnext]
            exact ⟨hother, hnext ▸ scenario.nextUnusedStringId_spec.1, flag,
              rfl, hmem⟩
          rw [getD_set _ _ _ _ hlt, if_neg hne, hsame]
        · have hagain : findString (scenario.withStrings
              (strings.set stringId (some str))).str.strings str =
                stringId := hset
          rw [addString_of_found (hagain.trans_ne hpos.ne'), hagain]
      · right
        refine ⟨stringId, hpos, ?_, ?_⟩
        · rw [hnext]
          exact scenario.nextUnusedStringId_spec.1
        · rw [hnext]
          exact hfree
    · have hnextZero : scenario.nextUnusedStringId = 0 := by omega
      apply iff_of_false
      · rintro ⟨hone, -⟩
        exact hpos hone
      · rintro (hnonempty | ⟨unused, hone, hlt, hunused⟩)
        · -- A table with entries is not grown: no free id is an error.
          rw [addString] at hadd
          simp only at hadd
          have hlength : ¬ scenario.str.strings.length ≤
              scenario.nextUnusedStringId := by
            rw [hnextZero]
            have := List.length_pos_iff.mpr hnonempty
            omega
          rw [if_neg hfound, if_neg hlength, if_pos hnextZero] at hadd
          cases hadd
        · exact hunused ((nextUnusedStringId_eq_zero_iff scenario).mp hnextZero unused hone hlt)

/-- A table with a free id. -/
theorem addString_stores_first : ∃ added,
      ((bareScenario [] []).withStrings [none, none]).addString [65] = .ok (1, added) ∧
      1 ≤ 1 ∧ getString added.str.strings 1 = some [65] ∧
      (∀ flag, gameContents added flag = gameContents
        ((bareScenario [] []).withStrings [none, none]) flag) ∧
      added.addString [65] = .ok (1, added) := by
  have hadd : ((bareScenario [] []).withStrings [none, none]).addString [65] =
        .ok (1, (bareScenario [] []).withStrings [none, some [65]]) := by
    decide +kernel
  exact ⟨_, hadd, (addString_stores_iff (by decide) hadd).mpr (.inl (by decide))⟩

/-- With an empty table and no free id, the string is stored under id 0. -/
theorem addString_returns_zero : ∃ scenario added : LoadedScenario, scenario.str.strings = [] ∧
      scenario.addString [65] = .ok (0, added) := by
  have hbare : ∀ mbrf, ∃ scenario : LoadedScenario,
      scenario.str.strings = [] ∧ scenario.mbrf = mbrf := fun mbrf =>
    ⟨(bareScenario [] mbrf).withStrings [], rfl, rfl⟩
  obtain ⟨scenario, hstrings, hmbrf⟩ := hbare crowdedBriefing
  have hnext : scenario.nextUnusedStringId = 0 :=
    (nextUnusedStringId_eq_zero_iff scenario).mpr fun stringId hpos hlt =>
      marksGameString_crowdedBriefing hmbrf hpos hlt
  have hlength : scenario.str.strings.length ≤ 0 := by simp [hstrings]
  have hgrow := setCapacity_succ hlength (by decide)
  have hfound : ¬ findString scenario.str.strings [65] ≠ 0 := by
    rw [hstrings]
    decide
  have hadd : scenario.addString [65] = .ok (0, scenario.withStrings
        ((resize scenario.str.strings (0 + 1)).set 0 (some [65]))) := by
    rw [addString]
    simp only
    rw [if_neg hfound, hnext, if_pos hlength, hgrow]
    rfl
  exact ⟨scenario, _, hstrings, hadd⟩

end LoadedScenario

end Chkdraft.Scenario
