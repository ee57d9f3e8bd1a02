import Chkdraft.Core.Loop
import Chkdraft.Core.Table
import Chkdraft.Scenario.References
import Chkdraft.Scenario.UsageAgreement

/-!
# Moving a game string

`StrSection::moveString` puts a string under another id.  Strings in the way
should be shifted towards the place it leaves, but the ids in the way are asked
for with a storage scope that marks none, so the loops never run: the string
under the target id is overwritten, and its users are left with the string that
was moved.
-/

namespace Chkdraft.Scenario

open BitSet Chk Sections

/-- The table while strings are shifted, with the ids in use and the ids that
were changed. -/
structure Cascade where
  strings : List (Option ScStr)
  used : Bits
  remappings : List (ℕ × ℕ)

namespace Cascade

/-- The string under one id goes to an id that is free. -/
def shift (cascade : Cascade) (source target : ℕ) : Cascade where
  strings := (cascade.strings.set source none).set target (cascade.strings.getD source none)
  used := Function.update (Function.update cascade.used source false) target true
  remappings := cascade.remappings ++ [(source, target)]

/-- A pass of the loop for a move to a lower id: the first free id behind the
block takes the string in front of it. -/
def down (stringIdFrom stringIdTo : ℕ) (cascade : Cascade) : Loop.Control Cascade Cascade :=
  if cascade.used stringIdTo then
    match (List.range' (stringIdTo + 1) (stringIdFrom - stringIdTo)).find?
        fun stringId => !cascade.used stringId with
    | some stringId => .next (cascade.shift (stringId - 1) stringId)
    | none => .next cascade
  else
    .done cascade

/-- A pass of the loop for a move to a higher id. -/
def up (stringIdFrom stringIdTo : ℕ) (cascade : Cascade) : Loop.Control Cascade Cascade :=
  if cascade.used stringIdTo then
    match (List.range' stringIdFrom (stringIdTo - stringIdFrom)).reverse.find?
        fun stringId => !cascade.used stringId with
    | some stringId => .next (cascade.shift (stringId + 1) stringId)
    | none => .next cascade
  else
    .done cascade

/-- The loops; every pass that shifts a string brings the free id nearer to the
target. -/
def run (cascade : Cascade) (stringIdFrom stringIdTo : ℕ) : Except Hazard Cascade :=
  let body :=
    if stringIdTo < stringIdFrom then down stringIdFrom stringIdTo
    else up stringIdFrom stringIdTo
  match Loop.run body (max stringIdFrom stringIdTo + 1) cascade with
  | some final => .ok final
  | none => .error .endlessLoop

theorem run_of_free {stringIdFrom stringIdTo : ℕ} {cascade : Cascade}
    (hfree : cascade.used stringIdTo = false) :
    cascade.run stringIdFrom stringIdTo = .ok cascade := by
  unfold run
  by_cases hlower : stringIdTo < stringIdFrom
  · simp [hlower, Loop.run, down, hfree]
  · simp [hlower, Loop.run, up, hfree]

end Cascade

namespace LoadedScenario

/-- `StrSection::moveString`.  An id equal to the size of the table passes its
test and is an access behind the end. -/
def moveString (scenario : LoadedScenario) (stringIdFrom stringIdTo : ℕ) :
    Except Hazard LoadedScenario :=
  if 0 < min stringIdFrom stringIdTo ∧ max stringIdFrom stringIdTo ≤ scenario.str.strings.length ∧
      stringIdFrom ≠ stringIdTo then do
    let used ← scenario.markUsedStrings .game .both .all fun _ => false
    if max stringIdFrom stringIdTo < scenario.str.strings.length ∧
        max stringIdFrom stringIdTo < maxStrings then do
      let cascade ← Cascade.run ⟨scenario.str.strings, Function.update used stringIdFrom false, []⟩
        stringIdFrom stringIdTo
      pure ((scenario.withStrings (cascade.strings.set stringIdTo
          (scenario.str.strings.getD stringIdFrom none))).remapStringIds
        (cascade.remappings ++ [(stringIdFrom, stringIdTo)]))
    else
      .error .undefinedBehavior
  else
    .ok scenario

section Move

variable {scenario : LoadedScenario} {stringIdFrom stringIdTo : ℕ}

/-- No id is found in the way, so the target is overwritten. -/
theorem moveString_eq (hfrom : 0 < stringIdFrom) (hto : 0 < stringIdTo)
    (hfromLt : stringIdFrom < scenario.str.strings.length)
    (htoLt : stringIdTo < scenario.str.strings.length)
    (hne : stringIdFrom ≠ stringIdTo) :
    scenario.moveString stringIdFrom stringIdTo =
      if max stringIdFrom stringIdTo < maxStrings then
        .ok ((scenario.withStrings (scenario.str.strings.set stringIdTo
          (scenario.str.strings.getD stringIdFrom none))).remapStringIds
            [(stringIdFrom, stringIdTo)])
      else
        .error .undefinedBehavior := by
  have hguard : 0 < min stringIdFrom stringIdTo ∧
      max stringIdFrom stringIdTo ≤ scenario.str.strings.length ∧
      stringIdFrom ≠ stringIdTo := ⟨by omega, by omega, hne⟩
  -- The storage scope defaults to `Either`, for which no section is asked.
  have hbits : scenario.markUsedStrings .game .both .all (fun _ => false) =
      .ok fun _ => false := rfl
  have hfree : Function.update (fun _ : ℕ => false) stringIdFrom false stringIdTo = false := by
    rw [Function.update_of_ne (Ne.symm hne)]
  have hinside : max stringIdFrom stringIdTo < scenario.str.strings.length := by
    omega
  rw [moveString, if_pos hguard, hbits]
  by_cases hlt : max stringIdFrom stringIdTo < maxStrings
  · rw [if_pos hlt]
    change (if _ then _ else _) = _
    rw [if_pos ⟨hinside, hlt⟩, Cascade.run_of_free hfree]
    rfl
  · rw [if_neg hlt]
    change (if _ then _ else _) = _
    rw [if_neg fun h => hlt h.2]

/-- Every user resolves to the same string when both ids hold the same. -/
theorem gameContents_moveString (hto : 0 < stringIdTo)
    (htoLt : stringIdTo < maxStrings) (hfrom : 0 < stringIdFrom)
    (hsame : scenario.str.strings.getD stringIdFrom none =
      scenario.str.strings.getD stringIdTo none) (flag : StringUserFlag) :
    gameContents ((scenario.withStrings
        scenario.str.strings).remapStringIds [(stringIdFrom, stringIdTo)])
          flag = gameContents scenario flag := by
  rw [gameContents_remapStringIds, gameContents_eq]
  apply List.map_congr_left
  intro stringId hmem
  have hlt := lt_of_mem_gameStringIds hmem
  have hwidth : 2 ^ 16 ≤ 2 ^ flag.idWidth := by
    cases flag <;> decide
  by_cases heq : stringIdFrom = stringId
  · subst heq
    have hremapped : remapped [(stringIdFrom, stringIdTo)] stringIdFrom %
        2 ^ flag.idWidth = stringIdTo := by
      simp only [remapped, List.find?_cons, decide_true]
      exact Nat.mod_eq_of_lt (lt_of_lt_of_le htoLt hwidth)
    rw [hremapped, resolve, resolve, if_neg (by omega), if_neg (by omega),
      getString, getString, hsame]
  · have hremapped : remapped [(stringIdFrom, stringIdTo)] stringId =
        stringId := by
      simp [remapped, heq]
    rw [hremapped, Nat.mod_eq_of_lt hlt]

/-- A move keeps the strings and what their users show exactly if the two ids
hold equal strings, or no strings, to begin with. -/
theorem moveString_keeps_iff (hfrom : 1 ≤ stringIdFrom)
    (hfromLt : stringIdFrom < scenario.str.strings.length)
    (hto : 1 ≤ stringIdTo) (htoLt : stringIdTo < scenario.str.strings.length)
    (hne : stringIdFrom ≠ stringIdTo) :
    (∃ moved, scenario.moveString stringIdFrom stringIdTo = .ok moved ∧
      moved.str.strings.getD stringIdTo none = scenario.str.strings.getD stringIdFrom none ∧
      (∀ flag, gameContents moved flag = gameContents scenario flag) ∧
      moved.str.strings.reduceOption.Perm scenario.str.strings.reduceOption) ↔
      scenario.str.strings.getD stringIdFrom none = scenario.str.strings.getD stringIdTo none ∧
        stringIdFrom < maxStrings ∧ stringIdTo < maxStrings := by
  rw [moveString_eq hfrom hto hfromLt htoLt hne]
  constructor
  · rintro ⟨moved, hmove, -, -, hperm⟩
    split at hmove
    · rename_i hlt
      cases hmove
      exact ⟨(Table.perm_reduceOption_set_iff htoLt _).mp hperm, by omega, by omega⟩
    · cases hmove
  · rintro ⟨hsame, hfromMax, htoMax⟩
    have hset : scenario.str.strings.set stringIdTo (scenario.str.strings.getD stringIdFrom none) =
        scenario.str.strings := by
      rw [hsame, List.getD_eq_getElem _ _ htoLt]
      exact List.set_getElem_self htoLt
    rw [if_pos (by omega), hset]
    exact ⟨_, rfl, hsame.symm, gameContents_moveString hto htoMax hfrom hsame, List.Perm.refl _⟩

end Move

/-- A scenario with one text under two ids, whose name is the second of them. -/
def doubledString : LoadedScenario :=
  { (bareScenario [] []).withStrings [none, some [65], some [65], some [66]] with
    scenarioNameStringId := 2
    scenarioDescriptionStringId := 3 }

/-- Its name and its description stay. -/
theorem moveString_keeps_doubled : gameContents doubledString .scenarioName = [some [65]] ∧
      ∃ moved, doubledString.moveString 1 2 = .ok moved ∧
        moved.str.strings.getD 2 none = some [65] ∧
        (∀ flag, gameContents moved flag = gameContents doubledString flag) ∧
        moved.str.strings.reduceOption.Perm [[65], [65], [66]] :=
  ⟨by decide, (moveString_keeps_iff (by decide) (by decide) (by decide)
    (by decide) (by decide)).mpr ⟨rfl, by decide, by decide⟩⟩

/-- Moving a string to the id of the scenario name loses the name. -/
theorem moveString_overwrites : ∃ (scenario moved : LoadedScenario),
      scenario.str.strings = [none, some [65], some [66]] ∧
      scenario.moveString 1 2 = .ok moved ∧
      gameContents scenario .scenarioName = [some [66]] ∧
      gameContents moved .scenarioName = [some [65]] ∧
      ¬ moved.str.strings.reduceOption.Perm
        scenario.str.strings.reduceOption := by
  refine ⟨{ (bareScenario [] []).withStrings [none, some [65], some [66]] with
    scenarioNameStringId := 2 }, _, rfl,
    moveString_eq (by decide) (by decide) (by decide) (by decide) (by decide),
    by decide, by decide, by decide⟩

end LoadedScenario

end Chkdraft.Scenario
