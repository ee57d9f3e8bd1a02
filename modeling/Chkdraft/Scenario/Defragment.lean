import Chkdraft.Core.Table
import Chkdraft.Scenario.References

/-!
# Defragmenting the game strings

`StrSection::defragment` fills the holes of the table from below: an empty id
takes the next stored string, and the users of the string are renumbered.  The
string is not removed from where it was, and the first hole is id 0, which
nobody can refer to.
-/

namespace Chkdraft.Scenario

open Chk Sections Table

/-- The table and the renumbering after the first `count` ids were visited.
Above them nothing has changed; below them a hole holds the next stored string.
An id is renumbered to the lowest hole its string was put in. -/
structure Filled (strings : List (Option ScStr)) (count : ℕ)
    (state : List (Option ScStr) × List (ℕ × ℕ)) : Prop where
  length : state.1.length = strings.length
  ahead : ∀ stringId, count ≤ stringId → state.1.getD stringId none = strings.getD stringId none
  holds : ∀ stringId, strings.getD stringId none ≠ none →
    ∀ hole, packed strings stringId ≤ hole → hole ≤ stringId → hole < count →
      state.1.getD hole none = strings.getD stringId none
  renumbered : ∀ stringId, (state.2.find? fun entry => entry.1 = stringId) =
      if strings.getD stringId none ≠ none ∧ packed strings stringId < stringId ∧
          packed strings stringId < count then
        some (stringId, packed strings stringId)
      else none

namespace Filled

variable {strings : List (Option ScStr)} {count : ℕ}
  {state : List (Option ScStr) × List (ℕ × ℕ)}

theorem start (strings : List (Option ScStr)) : Filled strings 0 (strings, []) where
  length := rfl
  ahead := fun _ _ => rfl
  holds := fun _ _ _ _ _ hlt => absurd hlt (Nat.not_lt_zero _)
  renumbered := by
    intro stringId
    rw [if_neg fun h => Nat.not_lt_zero _ h.2.2]
    rfl

/-- An id whose packed place is the visited one is found right behind it. -/
theorem packed_eq_count {stringId : ℕ} (hstored : strings.getD stringId none ≠ none)
    (hle : packed strings stringId ≤ count) (hlt : count < stringId)
    {other : ℕ} (hother : strings.getD other none ≠ none)
    (hcount : count < other)
    (hbetween : ∀ between, count < between → between < other → strings.getD between none = none) :
    stringId = other := by
  rcases Nat.lt_trichotomy stringId other with hlower | heq | hhigher
  · exact absurd (hbetween stringId hlt hlower) hstored
  · exact heq
  · exact absurd ((packed_le_iff strings hlt.le).mp hle other hcount.le hhigher) hother

section

variable (h : Filled strings count state)

include h

theorem step_stored (hstored : strings.getD count none ≠ none) :
    Filled strings (count + 1) (defragmentAt state count) := by
  have hsame : defragmentAt state count = state := by
    rw [defragmentAt, if_neg (by rw [h.ahead count le_rfl]; exact hstored)]
  have hpacked : ∀ stringId, packed strings stringId = count → stringId = count := by
    intro stringId heq
    have hle := packed_le strings stringId
    by_contra hne
    exact hstored ((packed_le_iff strings (by omega)).mp heq.le count le_rfl (by omega))
  rw [hsame]
  refine ⟨h.length, fun stringId hle => h.ahead stringId (by omega), ?_, ?_⟩
  · intro stringId hne hole hfrom hto hlt
    by_cases heq : hole = count
    · subst heq
      rcases Nat.eq_or_lt_of_le hto with rfl | hto
      · exact h.ahead hole le_rfl
      · exact absurd ((packed_le_iff strings hto.le).mp hfrom hole le_rfl hto) hstored
    · exact h.holds stringId hne hole hfrom hto (by omega)
  · intro stringId
    rw [h.renumbered stringId]
    have hiff : packed strings stringId < count ∨ ¬ packed strings stringId < stringId ∨
        ¬ packed strings stringId < count + 1 := by
      by_contra hnone
      simp only [not_or, not_not] at hnone
      have heq : packed strings stringId = count := by omega
      have := hpacked stringId heq
      omega
    congr 1
    apply propext
    constructor
    · rintro ⟨hne, hlt, hcount⟩
      exact ⟨hne, hlt, by omega⟩
    · rintro ⟨hne, hlt, hcount⟩
      exact ⟨hne, hlt, by omega⟩

theorem step_hole (hhole : strings.getD count none = none) {other : ℕ}
    (hother : strings.getD other none ≠ none) (hcount : count < other)
    (hbetween : ∀ between, count < between → between < other → strings.getD between none = none) :
    Filled strings (count + 1) (state.1.set count (strings.getD other none),
        state.2 ++ [(other, count)]) := by
  have hlength : other < strings.length := by
    by_contra hge
    exact hother (List.getD_eq_default _ _ (by omega))
  have hget : ∀ stringId, (state.1.set count (strings.getD other none)).getD stringId none =
        if stringId = count then strings.getD other none
        else state.1.getD stringId none := fun stringId =>
    getD_set state.1 count stringId _ (by rw [h.length]; omega)
  have hpacked : packed strings other ≤ count := by
    apply (packed_le_iff strings hcount.le).mpr
    intro between hfrom hto
    rcases Nat.eq_or_lt_of_le hfrom with rfl | hfrom
    · exact hhole
    · exact hbetween between hfrom hto
  refine ⟨by simpa using h.length, ?_, ?_, ?_⟩
  · intro stringId hle
    rw [hget, if_neg (by omega)]
    exact h.ahead stringId (by omega)
  · intro stringId hne hole hfrom hto hlt
    rw [hget]
    by_cases heq : hole = count
    · subst heq
      have hbelow : hole < stringId := by
        rcases Nat.eq_or_lt_of_le hto with rfl | hbelow
        · exact absurd hhole hne
        · exact hbelow
      rw [if_pos rfl, packed_eq_count hne hfrom hbelow hother hcount hbetween]
    · rw [if_neg heq]
      exact h.holds stringId hne hole hfrom hto (by omega)
  · intro stringId
    rw [List.find?_append, h.renumbered stringId]
    by_cases hearlier : strings.getD stringId none ≠ none ∧
        packed strings stringId < stringId ∧ packed strings stringId < count
    · rw [if_pos hearlier, if_pos ⟨hearlier.1, hearlier.2.1, by omega⟩]
      rfl
    · rw [if_neg hearlier]
      by_cases heq : other = stringId
      · subst heq
        have hat : packed strings other = count := by
          by_contra hne
          exact hearlier ⟨hother, by omega, by omega⟩
        rw [if_pos ⟨hother, by omega, by omega⟩, hat]
        simp
      · have hnot : ¬ (strings.getD stringId none ≠ none ∧ packed strings stringId < stringId ∧
            packed strings stringId < count + 1) := by
          rintro ⟨hne, hlt, hcount'⟩
          have hat : packed strings stringId = count := by
            by_contra hne'
            exact hearlier ⟨hne, hlt, by omega⟩
          exact heq (packed_eq_count hne hat.le (by omega) hother hcount hbetween).symm
        rw [if_neg hnot]
        simp [heq]

theorem step_end (hnone : ∀ stringId, count ≤ stringId → strings.getD stringId none = none) :
    Filled strings (count + 1) state := by
  refine ⟨h.length, fun stringId hle => h.ahead stringId (by omega), ?_, ?_⟩
  · intro stringId hne hole hfrom hto hlt
    have hbelow : stringId < count := by
      by_contra hge
      exact hne (hnone stringId (by omega))
    exact h.holds stringId hne hole hfrom hto (by omega)
  · intro stringId
    rw [h.renumbered stringId]
    by_cases hne : strings.getD stringId none ≠ none
    · have hbelow : stringId < count := by
        by_contra hge
        exact hne (hnone stringId (by omega))
      congr 1
      apply propext
      constructor
      · rintro ⟨_, hlt, _⟩
        exact ⟨hne, hlt, by omega⟩
      · rintro ⟨_, hlt, _⟩
        exact ⟨hne, hlt, by omega⟩
    · rw [if_neg fun h => hne h.1, if_neg fun h => hne h.1]

theorem step : Filled strings (count + 1) (defragmentAt state count) := by
  by_cases hstored : strings.getD count none ≠ none
  · exact h.step_stored hstored
  · have hhole : strings.getD count none = none := not_not.mp hstored
    have hahead := h.ahead
    rw [defragmentAt]
    simp only
    rw [if_pos (by rw [hahead count le_rfl]; exact hhole)]
    cases hfind : (List.range' (count + 1) (state.1.length - (count + 1))).find?
          fun other => state.1.getD other none ≠ none with
    | none =>
        apply h.step_end
        intro stringId hle
        rcases Nat.eq_or_lt_of_le hle with rfl | hlt
        · exact hhole
        · by_contra hne
          have hinside : stringId < strings.length := by
            by_contra hge
            exact hne (List.getD_eq_default _ _ (by omega))
          have hmem : stringId ∈ List.range' (count + 1) (state.1.length - (count + 1)) := by
            rw [List.mem_range'_1, h.length]
            omega
          have hempty := List.find?_eq_none.mp hfind stringId hmem
          rw [hahead stringId hle] at hempty
          exact hempty (decide_eq_true hne)
    | some other =>
        rw [List.find?_range'_eq_some] at hfind
        obtain ⟨hother, hmem, hbetween⟩ := hfind
        rw [List.mem_range'_1] at hmem
        have hother : strings.getD other none ≠ none := by
          rw [← hahead other (by omega)]
          exact of_decide_eq_true hother
        simp only
        rw [hahead other (by omega)]
        apply h.step_hole hhole hother (by omega)
        intro between hfrom hto
        have hempty := hbetween between hfrom hto
        rw [← hahead between (by omega)]
        simpa using hempty

end

theorem run (strings : List (Option ScStr)) (count : ℕ) : Filled strings count
      ((List.range count).foldl defragmentAt (strings, [])) := by
  induction count with
  | zero => exact start strings
  | succ count ih =>
      rw [List.range_succ, List.foldl_append]
      exact ih.step

end Filled

/-- The table and the renumbering of `defragment`. -/
def fillHoles (strings : List (Option ScStr)) : List (Option ScStr) × List (ℕ × ℕ) :=
  (List.range strings.length).foldl defragmentAt (strings, [])

theorem getD_fillHoles_packed {strings : List (Option ScStr)} {stringId : ℕ}
    (hstored : strings.getD stringId none ≠ none) :
    (fillHoles strings).1.getD (packed strings stringId) none = strings.getD stringId none := by
  have hle := packed_le strings stringId
  have hinside : stringId < strings.length := by
    by_contra hge
    exact hstored (List.getD_eq_default _ _ (by omega))
  exact (Filled.run strings strings.length).holds stringId hstored _ le_rfl hle (by omega)

/-- The users of a stored string follow it; other ids are not renumbered. -/
theorem remapped_fillHoles (strings : List (Option ScStr)) (stringId : ℕ) :
    remapped (fillHoles strings).2 stringId =
      if strings.getD stringId none ≠ none then packed strings stringId
      else stringId := by
  have hle := packed_le strings stringId
  rw [remapped, fillHoles, (Filled.run strings strings.length).renumbered stringId]
  by_cases hstored : strings.getD stringId none ≠ none
  · have hinside : stringId < strings.length := by
      by_contra hge
      exact hstored (List.getD_eq_default _ _ (by omega))
    rw [if_pos hstored]
    by_cases hlt : packed strings stringId < stringId
    · rw [if_pos ⟨hstored, hlt, by omega⟩]
    · rw [if_neg fun h => hlt h.2.1]
      simp only
      omega
  · rw [if_neg hstored, if_neg fun h => hstored h.1]

/-- Without a stored string there is nothing to fill a hole with. -/
theorem fillHoles_of_empty {strings : List (Option ScStr)}
    (hempty : ∀ stringId, strings.getD stringId none = none) :
    fillHoles strings = (strings, []) := by
  have hround : ∀ stringId, defragmentAt (strings, []) stringId = (strings, []) := by
    intro stringId
    have hnone : (List.range' (stringId + 1) (strings.length - (stringId + 1))).find?
          (fun other => strings.getD other none ≠ none) = none := by
      apply List.find?_eq_none.mpr
      intro other _
      simpa using hempty other
    rw [defragmentAt]
    simp only
    rw [if_pos (hempty stringId), hnone]
  rw [fillHoles]
  induction List.range strings.length with
  | nil => rfl
  | cons stringId rest ih => rw [List.foldl_cons, hround, ih]

namespace LoadedScenario

variable {scenario : LoadedScenario}

theorem defragment_eq (scenario : LoadedScenario) : scenario.defragment =
      (scenario.withStrings (fillHoles scenario.str.strings).1).remapStringIds
        (fillHoles scenario.str.strings).2 := rfl

theorem getD_defragment_zero {stringId : ℕ}
    (hstored : scenario.str.strings.getD stringId none ≠ none) :
    scenario.defragment.str.strings.getD 0 none ≠ none := by
  classical
  have hexists : ∃ first, scenario.str.strings.getD first none ≠ none := ⟨stringId, hstored⟩
  have hfirst := Nat.find_spec hexists
  have hpacked : packed scenario.str.strings (Nat.find hexists) = 0 := by
    apply Nat.le_zero.mp
    apply (packed_le_iff _ (Nat.zero_le _)).mpr
    intro between _ hlt
    exact not_not.mp (Nat.find_min hexists hlt)
  have hget := getD_fillHoles_packed hfirst
  rw [hpacked] at hget
  rw [defragment_eq]
  exact hget.trans_ne hfirst

/-- Defragmenting keeps what the users resolve to and packs the strings behind
id 0 exactly if there are no strings. -/
theorem defragment_packs_iff (scenario : LoadedScenario) :
    ((∀ flag, gameContents scenario.defragment flag = gameContents scenario flag) ∧
      scenario.defragment.str.strings.getD 0 none = none ∧
      (∀ string, scenario.str.strings.count (some string) = 1 →
        scenario.defragment.str.strings.count (some string) ≤ 1) ∧
      ∃ count, ∀ stringId, scenario.defragment.str.strings.getD stringId none ≠ none ↔
          1 ≤ stringId ∧ stringId ≤ count) ↔
      ∀ stringId, scenario.str.strings.getD stringId none = none := by
  constructor
  · rintro ⟨-, hzero, -, -⟩ stringId
    by_contra hstored
    exact getD_defragment_zero hstored hzero
  · intro hempty
    have hstrings : scenario.defragment.str.strings = scenario.str.strings := by
      rw [defragment_eq, fillHoles_of_empty hempty]
      rfl
    refine ⟨fun flag => ?_, ?_, ?_, 0, ?_⟩
    · rw [defragment_eq, fillHoles_of_empty hempty, gameContents_remapStringIds, gameContents_eq]
      apply List.map_congr_left
      intro stringId hmem
      have hsame : remapped [] stringId = stringId := rfl
      simp only
      rw [hsame, Nat.mod_eq_of_lt (lt_of_mem_gameStringIds hmem)]
    · rw [hstrings]
      exact hempty 0
    · intro string hcount
      rw [hstrings]
      exact hcount.le
    · intro stringId
      rw [hstrings]
      apply iff_of_false (not_not.mpr (hempty stringId))
      omega

/-- The only string, the scenario name, ends up at id 0, and nobody sees it any
more. -/
theorem defragment_loses_name : ∃ scenario : LoadedScenario,
      scenario.str.strings = [none, some [65]] ∧
      gameContents scenario .scenarioName = [some [65]] ∧
      scenario.defragment.str.strings = [some [65], some [65]] ∧
      gameContents scenario.defragment .scenarioName = [none] :=
  ⟨{ (bareScenario [] []).withStrings [none, some [65]] with
      scenarioNameStringId := 1 }, rfl, by decide, by decide, by decide⟩

end LoadedScenario

end Chkdraft.Scenario
