import Chkdraft.TextTrigs.Building

/-!
# The triggers around a compiled range

What a compilation does to the triggers outside its range, and what is left of a
scenario when it fails.  On success the list is exchanged for the parsed
triggers, so that only a range over the whole list keeps the rest.  On failure
the roll-back relies on the range having kept its length, and editor strings
that were deleted are not put back.
-/

namespace Chkdraft.TextTrigs

open Chk Scan Sections Scenario

/-- The trigger list after a call of `replaceRange`, which throws before it
changes anything. -/
def listAfterReplaceRange (triggers : List Trigger) (beginIndex endIndex : ℕ)
    (replacement : List Trigger) : List Trigger :=
  match replaceRange triggers beginIndex endIndex replacement with
  | .ok (changed, _) => changed
  | .error _ => triggers

/-- A range inside the list is replaced and returned, any other range makes the
call throw and leaves the list. -/
def ReplacesRange (triggers : List Trigger) (beginIndex endIndex : ℕ)
    (replacement : List Trigger) : Prop :=
  (beginIndex < endIndex ∧ endIndex ≤ triggers.length →
    replaceRange triggers beginIndex endIndex replacement =
      .ok (triggers.take beginIndex ++ replacement ++ triggers.drop endIndex,
        (triggers.drop beginIndex).take (endIndex - beginIndex))) ∧
  (¬ (beginIndex < endIndex ∧ endIndex ≤ triggers.length) →
    (∃ exception, replaceRange triggers beginIndex endIndex replacement = .error exception) ∧
    listAfterReplaceRange triggers beginIndex endIndex replacement = triggers)

/-- A list is exchanged as a whole when the range starts at 0 and is as long as
the replacement, so a call is right exactly if such a range is the whole list,
and not empty. -/
theorem replaceRange_replaces_iff (triggers : List Trigger)
    (beginIndex endIndex : ℕ) (replacement : List Trigger) :
    ReplacesRange triggers beginIndex endIndex replacement ↔
      (beginIndex = 0 ∧ endIndex = replacement.length →
        0 < endIndex ∧ endIndex = triggers.length) := by
  by_cases hwhole : beginIndex = 0 ∧ endIndex = replacement.length
  · obtain ⟨rfl, rfl⟩ := hwhole
    have hcall : replaceRange triggers 0 replacement.length replacement =
        .ok (replacement, triggers) := if_pos ⟨rfl, rfl⟩
    rw [ReplacesRange, hcall]
    constructor
    · rintro ⟨hinside, houtside⟩ -
      have hrange : 0 < replacement.length ∧ replacement.length ≤ triggers.length := by
        by_contra hnot
        obtain ⟨⟨exception, hthrown⟩, -⟩ := houtside hnot
        cases hthrown
      have hpair := Except.ok.inj (hinside hrange)
      have hlength := congrArg (List.length ∘ Prod.snd) hpair
      simp only [Function.comp_apply, List.drop_zero, Nat.sub_zero, List.length_take] at hlength
      exact ⟨hrange.1, by omega⟩
    · intro hmeets
      obtain ⟨hpos, heq⟩ := hmeets ⟨rfl, rfl⟩
      constructor
      · intro _
        rw [heq, List.take_zero, List.drop_length, List.drop_zero,
          Nat.sub_zero, List.take_length, List.nil_append, List.append_nil]
      · intro hnot
        exact absurd ⟨hpos, heq.le⟩ hnot
  · apply iff_of_true
    · constructor
      · intro hinside
        rw [replaceRange, if_neg hwhole, if_pos hinside]
      · intro houtside
        have hthrown : replaceRange triggers beginIndex endIndex replacement =
            .error .outOfRange := by
          rw [replaceRange, if_neg hwhole, if_neg houtside]
        refine ⟨⟨_, hthrown⟩, ?_⟩
        rw [listAfterReplaceRange, hthrown]
    · intro h
      exact absurd h hwhole

/-- The first of two triggers, replaced by one, takes the second with it. -/
theorem replaceRange_drops_second :
    ¬ ReplacesRange [blankTrigger, blankTrigger] 0 1 [blankTrigger] := by
  rintro ⟨hinside, -⟩
  have hpair := Except.ok.inj (hinside (by decide))
  have hlength := congrArg (List.length ∘ Prod.fst) hpair
  exact absurd hlength (by decide)

/-- The list in which the parsed triggers have replaced a range. -/
theorem replaceRange_append {triggers replacement trig replaced : List Trigger}
    {trigIndexBegin trigIndexEnd : ℕ} (hlt : trigIndexBegin < trigIndexEnd)
    (hle : trigIndexEnd ≤ triggers.length)
    (hreplace : replaceRange triggers trigIndexBegin trigIndexEnd replacement =
      .ok (trig, replaced)) :
    ∃ before after, trig = before ++ replacement ++ after ∧ before.length = trigIndexBegin := by
  rcases replaceRange_cases hlt hle with ⟨hzero, -, hok⟩ | ⟨-, hok⟩
  · rw [hok] at hreplace
    cases hreplace
    exact ⟨[], [], by simp, hzero.symm⟩
  · rw [hok] at hreplace
    cases hreplace
    exact ⟨_, _, rfl, by rw [List.length_take]; omega⟩

/-- Ids are written into the parsed triggers, as if these had had them when the
range was replaced. -/
theorem assignStrings_trig {scenario assigned : LoadedScenario}
    {parsed : Parsed} {stringContents : List Text}
    {initial : List StringTableNode}
    (hliterals : ParsedLiterals stringContents initial parsed)
    {trigIndexBegin trigIndexEnd : ℕ} (hlt : trigIndexBegin < trigIndexEnd)
    (hle : trigIndexEnd ≤ scenario.trig.length)
    {trig replaced : List Trigger} {success : Bool}
    (hreplace : replaceRange scenario.trig trigIndexBegin trigIndexEnd
      parsed.output = .ok (trig, replaced))
    (hassign : assignStrings trigIndexBegin parsed.unassignedStrings
      (withTriggers scenario trig).withoutUnusedStrings = (success, assigned)) :
    ∃ strings stringIds written, assigned = withTriggers ((withTriggers scenario
        trig).withoutUnusedStrings.withStrings strings) written ∧
      replaceRange scenario.trig trigIndexBegin trigIndexEnd
        (parsed.withStringIds stringIds) = .ok (written, replaced) ∧
      (success = true → stringIds.length = parsed.unassignedStrings.length) := by
  obtain ⟨strings, stringIds, rfl, hall⟩ := assignStrings_spec hassign
  refine ⟨strings, stringIds, assignAll trigIndexBegin
    parsed.unassignedStrings stringIds trig, rfl, ?_, hall⟩
  have hcount : (parsed.withStringIds stringIds).length =
      parsed.output.length := length_assignAll ..
  have hassignees : ∀ node ∈ parsed.unassignedStrings, ∀ assignee ∈ node.assignees,
        assignee.trigger < parsed.output.length :=
    fun node hnode assignee hassignee => hliterals.assignee_lt hnode hassignee
  rcases replaceRange_cases hlt hle with ⟨hzero, hwhole, hok⟩ | ⟨hpart, hok⟩
  · rw [hok] at hreplace
    cases hreplace
    rw [replaceRange, hcount, if_pos ⟨hzero, hwhole⟩, hzero]
    rfl
  · rw [hok] at hreplace
    cases hreplace
    have hbefore : (scenario.trig.take trigIndexBegin).length =
        trigIndexBegin := by
      rw [List.length_take]
      omega
    have happend := @assignAll_append (scenario.trig.drop trigIndexEnd)
      (scenario.trig.take trigIndexBegin) parsed.output _ hassignees stringIds
    rw [hbefore] at happend
    rw [happend, replaceRange, hcount, if_neg hpart, if_pos ⟨hlt, hle⟩]
    rfl

section Compiled

variable {settings : CompilerSettings} {scenario after : LoadedScenario}
  {text : Text} {trigIndexBegin trigIndexEnd : ℕ} {parsed : Parsed}

/-- After a compilation the list holds the parsed triggers, with ids for their
new strings, and nothing else. -/
theorem compileTriggers_compiled_trig (hlt : trigIndexBegin < trigIndexEnd)
    (hle : trigIndexEnd ≤ scenario.trig.length)
    (hparse : parseText settings scenario text trigIndexBegin trigIndexEnd = .ok (.ok parsed))
    (hcompile : compileTriggers settings scenario text trigIndexBegin
      trigIndexEnd = .ok (.compiled, after)) :
    ∃ stringIds, stringIds.length = parsed.unassignedStrings.length ∧
      after.trig = parsed.withStringIds stringIds := by
  obtain ⟨-, _, _, _, hliterals⟩ := parseText_spec hparse
  obtain ⟨trig, replaced, built, hreplace, hassign, rfl⟩ := compileTriggers_compiled hparse hcompile
  obtain ⟨strings, stringIds, written, rfl, hwritten, hall⟩ :=
    assignStrings_trig hliterals hlt hle hreplace hassign
  obtain ⟨before, behind, rfl, hbefore⟩ := replaceRange_append hlt hle hwritten
  refine ⟨stringIds, hall rfl, ?_⟩
  simp only [parsedTriggers, withTriggers]
  rw [← hbefore, List.append_assoc, List.drop_left, List.take_left']
  exact length_assignAll ..

/-- Compiling a range replaces only that range exactly when the range is the
whole list. -/
theorem compileTriggers_replaces_range_iff (hlt : trigIndexBegin < trigIndexEnd)
    (hle : trigIndexEnd ≤ scenario.trig.length)
    (hparse : parseText settings scenario text trigIndexBegin trigIndexEnd = .ok (.ok parsed))
    (hcompile : compileTriggers settings scenario text trigIndexBegin
      trigIndexEnd = .ok (.compiled, after)) :
    (∃ stringIds, stringIds.length = parsed.unassignedStrings.length ∧
      after.trig = scenario.trig.take trigIndexBegin ++
        parsed.withStringIds stringIds ++ scenario.trig.drop trigIndexEnd) ↔
      trigIndexBegin = 0 ∧ trigIndexEnd = scenario.trig.length := by
  obtain ⟨stringIds, hcount, htrig⟩ := compileTriggers_compiled_trig hlt hle hparse hcompile
  constructor
  · rintro ⟨others, -, hsplice⟩
    have hlength := congrArg List.length (htrig.symm.trans hsplice)
    simp only [List.length_append, List.length_take, List.length_drop,
      Parsed.withStringIds, length_assignAll] at hlength
    omega
  · rintro ⟨rfl, rfl⟩
    exact ⟨stringIds, hcount, by simpa using htrig⟩

end Compiled

/-- The triggers behind a range are lost: of two triggers the first is replaced
by a new one, and the second is gone. -/
theorem compileTriggers_drops_rest :
    ∃ settings scenario text trigIndexBegin trigIndexEnd parsed after,
      trigIndexBegin < trigIndexEnd ∧ trigIndexEnd ≤ scenario.trig.length ∧
      parseText settings scenario text trigIndexBegin trigIndexEnd = .ok (.ok parsed) ∧
      compileTriggers settings scenario text trigIndexBegin trigIndexEnd = .ok (.compiled, after) ∧
      ∀ stringIds, after.trig ≠ scenario.trig.take trigIndexBegin ++
        parsed.withStringIds stringIds ++ scenario.trig.drop trigIndexEnd := by
  obtain ⟨parsed, after, hparse, hcompile, hcount, hlength⟩ :=
    @exists_compiled_of_eval (bareScenario [blankTrigger, blankTrigger] []) 0 1
      ⟨false, 0, 0⟩ (ascii "Trigger()\x7b\x7d") _ _
      (fun parsed => parsed.output.length) 1
      (fun after => after.trig.length) 1 (by decide +kernel) (by decide +kernel)
  refine ⟨_, _, _, 0, 1, parsed, after, by decide, by decide, hparse, hcompile,
    fun stringIds heq => ?_⟩
  have hlengths := congrArg List.length heq
  rw [List.length_append, List.length_append, Parsed.withStringIds,
    length_assignAll, hcount, hlength] at hlengths
  exact absurd hlengths (by decide)

/-- A list of two triggers is replaced as a whole, by three of which two share
a new string. -/
theorem compileTriggers_replaces_only_trigger : ∃ settings scenario text parsed after,
      scenario.trig.length = 2 ∧ parsed.output.length = 3 ∧
      parsed.unassignedStrings.length = 1 ∧
      parseText settings scenario text 0 2 = .ok (.ok parsed) ∧
      compileTriggers settings scenario text 0 2 = .ok (.compiled, after) ∧
      ∃ stringIds, stringIds.length = parsed.unassignedStrings.length ∧
        after.trig = scenario.trig.take 0 ++ parsed.withStringIds stringIds ++
          scenario.trig.drop 2 := by
  obtain ⟨parsed, after, hparse, hcompile, hcounts, -⟩ :=
    @exists_compiled_of_eval ((bareScenario [blankTrigger, blankTrigger]
        []).withStrings [none, none]) 0 2 ⟨false, 0, 0⟩
      (ascii "Trigger()\x7bActions: Comment(\"X\");\x7d Trigger()\x7b\x7d" ++
        ascii "Trigger()\x7bActions: Comment(\"X\");\x7d") _ _
      (fun parsed => (parsed.output.length, parsed.unassignedStrings.length))
      (3, 1) (fun _ => ()) () (by decide +kernel) (by decide +kernel)
  obtain ⟨hcount, hone⟩ := Prod.mk.inj hcounts
  exact ⟨_, _, _, parsed, after, rfl, hcount, hone, hparse, hcompile,
    (compileTriggers_replaces_range_iff (by decide) (by decide) hparse hcompile).mpr ⟨rfl, rfl⟩⟩

/-- Replacing the range at its old length by the triggers it had restores the
list exactly when the range has kept its length or was the whole list. -/
theorem replaceRange_rollBack_iff {triggers changed trig replaced restored
    rest : List Trigger} {trigIndexBegin trigIndexEnd : ℕ}
    (hlt : trigIndexBegin < trigIndexEnd) (hle : trigIndexEnd ≤ triggers.length)
    (hreplace : replaceRange triggers trigIndexBegin trigIndexEnd changed = .ok (trig, replaced))
    (hback : replaceRange trig trigIndexBegin
      (trigIndexBegin + replaced.length) replaced = .ok (restored, rest)) :
    restored = triggers ↔ trigIndexBegin = 0 ∧ trigIndexEnd = triggers.length ∨
        changed.length = trigIndexEnd - trigIndexBegin := by
  rcases replaceRange_cases hlt hle with ⟨rfl, hwhole, hok⟩ | ⟨hpart, hok⟩
  · -- The whole list was exchanged, and is exchanged again.
    rw [hok] at hreplace
    cases hreplace
    rw [replaceRange, if_pos ⟨rfl, Nat.zero_add _⟩] at hback
    cases hback
    exact iff_of_true rfl (.inr (by omega))
  · rw [hok] at hreplace
    cases hreplace
    have hreplaced : ((triggers.drop trigIndexBegin).take
        (trigIndexEnd - trigIndexBegin)).length = trigIndexEnd - trigIndexBegin := by
      rw [List.length_take, List.length_drop]
      omega
    rw [hreplaced, Nat.add_sub_cancel' (Nat.le_of_lt hlt), replaceRange, hreplaced] at hback
    by_cases hzero : trigIndexBegin = 0
    · -- At the front the whole list is exchanged for the replaced triggers.
      subst hzero
      rw [if_pos ⟨rfl, rfl⟩] at hback
      cases hback
      constructor
      · intro heq
        have hlength := congrArg List.length heq
        rw [hreplaced] at hlength
        exact .inl ⟨rfl, by omega⟩
      · rintro (⟨-, hend⟩ | hcount)
        · rw [hend, List.drop_zero, Nat.sub_zero, List.take_length]
        · exact absurd ⟨rfl, by omega⟩ hpart
    · rw [if_neg fun hboth => hzero hboth.1] at hback
      split at hback
      case isFalse => cases hback
      case isTrue hroom =>
        cases hback
        have hbefore : (triggers.take trigIndexBegin).length =
            trigIndexBegin := by
          rw [List.length_take]
          omega
        have hlengths := hroom.2
        simp only [List.length_append, hbefore, List.length_drop] at hlengths
        constructor
        · intro heq
          have hlength := congrArg List.length heq
          simp only [List.length_append, List.length_take, List.length_drop] at hlength
          exact .inr (by omega)
        · rintro (⟨hboth, -⟩ | hcount)
          · exact absurd hboth hzero
          · have hfront : (triggers.take trigIndexBegin ++ changed).length =
                trigIndexEnd := by
              rw [List.length_append, hbefore]
              omega
            rw [List.drop_left' hfront, List.append_assoc (triggers.take trigIndexBegin) changed,
              List.take_left' hbefore, List.append_assoc]
            conv_rhs => rw [← List.take_append_drop trigIndexBegin triggers]
            congr 1
            conv_rhs => rw [← List.take_append_drop (trigIndexEnd -
              trigIndexBegin) (triggers.drop trigIndexBegin)]
            rw [List.drop_drop, Nat.add_sub_cancel' (Nat.le_of_lt hlt)]

/-- Every stored editor string has a user. -/
def EditorStringsUsed (scenario : LoadedScenario) : Prop :=
  ∀ stringId, scenario.kstr.strings.getD stringId none ≠ none →
    scenario.marksEditorString .all stringId

section Failed

variable {settings : CompilerSettings} {scenario built : LoadedScenario}
  {text : Text} {trigIndexBegin trigIndexEnd : ℕ} {parsed : Parsed}

/-- A map that could not be built is as before exactly when the list was
restored and no editor string was deleted. -/
theorem buildNewMap_restores_iff (hlt : trigIndexBegin < trigIndexEnd)
    (hle : trigIndexEnd ≤ scenario.trig.length)
    (hparse : parseText settings scenario text trigIndexBegin trigIndexEnd = .ok (.ok parsed))
    (hbuild : buildNewMap scenario trigIndexBegin trigIndexEnd parsed = .ok (false, built)) :
    built = scenario ↔ (trigIndexBegin = 0 ∧ trigIndexEnd = scenario.trig.length ∨
        parsed.output.length = trigIndexEnd - trigIndexBegin) ∧
        EditorStringsUsed scenario := by
  obtain ⟨hrange, _, _, _, hliterals⟩ := parseText_spec hparse
  obtain ⟨⟨trig, replaced⟩, hreplace, -⟩ := Fault.bind_eq_ok_iff.mp hbuild
  rw [Fault.mapError_eq_ok_iff] at hreplace
  obtain ⟨assigned, hassign, hbuilt⟩ := buildNewMap_cases hrange hreplace hbuild
  obtain ⟨strings, stringIds, written, rfl, hwritten, -⟩ :=
    assignStrings_trig hliterals hlt hle hreplace hassign
  rw [if_neg Bool.false_ne_true] at hbuilt
  obtain ⟨restored, rest, hback, rfl⟩ := hbuilt
  have htrig := replaceRange_rollBack_iff hlt hle hwritten hback
  rw [Parsed.withStringIds, length_assignAll] at htrig
  have hkstr : dropUnmarked (fun stringId => scenario.marksEditorString .all stringId)
      scenario.kstr.strings = scenario.kstr.strings ↔ EditorStringsUsed scenario := by
    rw [dropUnmarked_eq_self_iff]
    simp only [decide_eq_true_eq, EditorStringsUsed]
  rw [← htrig, ← hkstr]
  constructor
  · intro heq
    exact ⟨congrArg LoadedScenario.trig heq, congrArg (fun scenario => scenario.kstr.strings) heq⟩
  · rintro ⟨htrigSame, hkstrSame⟩
    -- Only these two fields could differ.
    calc
      _ = { scenario with
            trig := restored
            kstr :=
              { scenario.kstr with
                strings := dropUnmarked (fun stringId => scenario.marksEditorString .all stringId)
                  scenario.kstr.strings } } := rfl
      _ = scenario := by rw [htrigSame, hkstrSame]

end Failed

/-- A failed compilation changes nothing exactly when its text does not parse
(to one trigger, for `compileTrigger`), or when the range kept its length or was
the whole list and every stored editor string has a user. -/
theorem compile_failure_changes_nothing_iff (settings : CompilerSettings)
    (scenario : LoadedScenario) (text : Text) :
    (∀ trigIndexBegin trigIndexEnd report after,
      trigIndexBegin < trigIndexEnd → trigIndexEnd ≤ scenario.trig.length →
      compileTriggers settings scenario text trigIndexBegin trigIndexEnd = .ok (report, after) →
      report ≠ .compiled →
      (after = scenario ↔ ∀ parsed, parseText settings scenario text trigIndexBegin
            trigIndexEnd = .ok (.ok parsed) →
          (trigIndexBegin = 0 ∧ trigIndexEnd = scenario.trig.length ∨
            parsed.output.length = trigIndexEnd - trigIndexBegin) ∧
            EditorStringsUsed scenario)) ∧
    (∀ trigIndex report after, trigIndex < scenario.trig.length →
      compileTrigger settings scenario text trigIndex = .ok (report, after) →
      report ≠ .compiled →
      (after = scenario ↔ ∀ parsed, parseText settings scenario text trigIndex
            (trigIndex + 1) = .ok (.ok parsed) →
          parsed.output.length = 1 → EditorStringsUsed scenario)) := by
  constructor
  · intro trigIndexBegin trigIndexEnd report after hlt hle hcompile hfailed
    rcases compileTriggers_cases hcompile with
      ⟨error, hparse, -, rfl⟩ | ⟨parsed, success, built, hparse, hbuild, hreport⟩
    · refine iff_of_true rfl fun parsed hok => ?_
      rw [hparse] at hok
      cases hok
    · cases success with
      | true => exact absurd hreport.1 hfailed
      | false =>
          rw [hreport.2, buildNewMap_restores_iff hlt hle hparse hbuild]
          constructor
          · intro hrestored other hother
            rw [hparse] at hother
            cases hother
            exact hrestored
          · intro hall
            exact hall parsed hparse
  · intro trigIndex report after hlt hcompile hfailed
    rcases compileTrigger_cases hcompile with
      ⟨-, rfl, hnone⟩ | ⟨parsed, success, built, hparse, hone, hbuild, hreport,
        rfl⟩
    · exact iff_of_true rfl fun parsed hok hone => absurd hone (hnone parsed hok)
    · cases success with
      | true => exact absurd hreport hfailed
      | false =>
          rw [buildNewMap_restores_iff (Nat.lt_succ_self _) hlt hparse hbuild]
          constructor
          · intro hrestored _ _ _
            exact hrestored.2
          · intro hall
            exact ⟨.inr (by omega), hall parsed hparse hone⟩

theorem addString_crowdedBriefing {scenario : LoadedScenario}
    (hmbrf : scenario.mbrf = crowdedBriefing)
    (hstrings : scenario.str.strings = [none]) (str : ScStr) :
    scenario.addString str = .error .maximumStringsExceeded := by
  have hnext : scenario.nextUnusedStringId = 0 :=
    scenario.nextUnusedStringId_eq_zero_iff.mpr fun _ =>
      marksGameString_crowdedBriefing hmbrf
  rw [LoadedScenario.addString, hnext, hstrings]
  rfl

/-- No new string fits into a map whose briefing uses every id. -/
theorem assignStrings_crowdedBriefing (base : ℕ) (node : StringTableNode)
    (changed : List Trigger) {scenario : LoadedScenario}
    (hmbrf : scenario.mbrf = crowdedBriefing)
    (hnull : scenario.str.strings = [none]) :
    (assignStrings base [node] (withTriggers scenario changed).withoutUnusedStrings) =
      (false, (withTriggers scenario changed).withoutUnusedStrings) := by
  have hstrings : (withTriggers scenario changed).withoutUnusedStrings.str.strings = [none] := by
    change dropUnmarked _ scenario.str.strings = _
    rw [hnull]
    change [if _ then none else none] = _
    rw [ite_self]
  have hbriefing : (withTriggers scenario changed).withoutUnusedStrings.mbrf =
        crowdedBriefing := hmbrf
  rw [assignStrings, addString_crowdedBriefing hbriefing hstrings]

/-- Three triggers of a map whose briefing uses every id. -/
def crowdedScenario : LoadedScenario := bareScenario (List.replicate 3 blankTrigger) crowdedBriefing

def commentText : Text :=
  ascii "Trigger()\x7bActions: Comment(\"X\");\x7d"

/-- It is not compiled, and what the range held is put back over as many
triggers. -/
theorem exists_buildFailed (trigIndexEnd : ℕ) {restored : List Trigger}
    (hcounts : (parseText ⟨false, 0, 0⟩ crowdedScenario commentText 0
      trigIndexEnd).toOption.map (fun result => result.toOption.map fun parsed =>
        (parsed.output.length, parsed.unassignedStrings.length)) = some (some (1, 1)))
    (hreplace : ∀ trigger, ∃ trig replaced rest,
      replaceRange (List.replicate 3 blankTrigger) 0 trigIndexEnd [trigger] = .ok (trig, replaced) ∧
      replaceRange trig 0 (0 + replaced.length) replaced = .ok (restored, rest)) :
    ∃ parsed after, parseText ⟨false, 0, 0⟩ crowdedScenario commentText 0 trigIndexEnd =
        .ok (.ok parsed) ∧ parsed.output.length = 1 ∧
      compileTriggers ⟨false, 0, 0⟩ crowdedScenario commentText 0
        trigIndexEnd = .ok (.buildFailed, after) ∧ after.trig = restored := by
  obtain ⟨result, hresult, hread⟩ := Fault.exists_ok_of_toOption_map hcounts
  obtain ⟨parsed, rfl, hcounts⟩ := Fault.exists_ok_of_toOption_map hread
  obtain ⟨hcount, hone⟩ := Prod.mk.inj hcounts
  obtain ⟨trigger, htrigger⟩ := List.length_eq_one_iff.mp hcount
  obtain ⟨node, hnode⟩ := List.length_eq_one_iff.mp hone
  obtain ⟨trig, replaced, rest, hput, hback⟩ := hreplace trigger
  rw [← htrigger] at hput
  have hbuild := @buildNewMap_eq _ crowdedScenario _ _ _ _ (parseText_spec hresult).1 hput
  have hbare : ∀ trig mbrf, (bareScenario trig mbrf).mbrf = mbrf := fun _ _ => rfl
  have hmbrf : crowdedScenario.mbrf = crowdedBriefing := hbare _ _
  rw [hnode, assignStrings_crowdedBriefing 0 node _ hmbrf rfl] at hbuild
  change _ = ((replaceRange trig 0 _ replaced).mapError _).map _ at hbuild
  rw [hback] at hbuild
  refine ⟨parsed, { (withTriggers crowdedScenario trig).withoutUnusedStrings with
    trig := restored
    str := crowdedScenario.str }, hresult, hcount, ?_, rfl⟩
  rw [compileTriggers, hresult]
  change (buildNewMap crowdedScenario 0 trigIndexEnd parsed >>= _) = _
  rw [hbuild]
  rfl

/-- A trigger that needs a string, where every id is used: of three triggers the
first two are put back, and the third is gone. -/
theorem compileTriggers_failure_drops_trigger :
    ∃ settings scenario text trigIndexBegin trigIndexEnd after,
      trigIndexBegin < trigIndexEnd ∧ trigIndexEnd ≤ scenario.trig.length ∧
      compileTriggers settings scenario text trigIndexBegin trigIndexEnd =
        .ok (.buildFailed, after) ∧
      after.trig ≠ scenario.trig := by
  obtain ⟨parsed, after, -, -, hcompile, htrig⟩ := exists_buildFailed 2
    (by decide +kernel) fun trigger => ⟨[trigger, blankTrigger],
      List.replicate 2 blankTrigger, _, rfl, rfl⟩
  refine ⟨_, _, _, 0, 2, after, by decide, by decide, hcompile, ?_⟩
  rw [htrig]
  exact fun heq => absurd (congrArg List.length heq) (by decide)

/-- The same text over the first trigger only: everything is put back. -/
theorem compileTriggers_failure_restores :
    ∃ after, compileTriggers ⟨false, 0, 0⟩ crowdedScenario commentText 0 1 =
        .ok (.buildFailed, after) ∧ after = crowdedScenario := by
  obtain ⟨parsed, after, hparse, hcount, hcompile, -⟩ := exists_buildFailed 1
    (by decide +kernel) fun trigger => ⟨[trigger], List.replicate 3 blankTrigger, _, rfl, rfl⟩
  refine ⟨after, hcompile, ((compile_failure_changes_nothing_iff ⟨false, 0, 0⟩
    crowdedScenario commentText).1 0 1 _ after (by decide) (by decide) hcompile (by decide)).mpr ?_⟩
  intro other hother
  cases hparse.symm.trans hother
  refine ⟨.inr hcount, fun stringId hstored => absurd ?_ hstored⟩
  cases stringId <;> rfl

end Chkdraft.TextTrigs
