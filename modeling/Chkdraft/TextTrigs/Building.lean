import Chkdraft.TextTrigs.Compiler
import Chkdraft.TextTrigs.Literals

/-!
# What building a map does

The string assignment loop changes two things: game strings are added, and their
ids are written into the parsed triggers.  From this follow the trigger list a
compilation leaves behind when it succeeds, and what its roll-back restores when
it fails.
-/

namespace Chkdraft.TextTrigs

open Chk Scan Sections Scenario

variable {after before trig triggers : List Trigger} {scenario : LoadedScenario}
  {trigIndexBegin trigIndexEnd : ℕ}

/-- Write the ids of several nodes into the fields that wait for them. -/
def assignAll (base : ℕ) (nodes : List StringTableNode) (stringIds : List ℕ)
    (triggers : List Trigger) : List Trigger :=
  (nodes.zip stringIds).foldl (fun triggers entry =>
      entry.1.assignees.foldl (assignStringId base entry.2) triggers)
    triggers

/-- The parsed triggers with ids for the new strings. -/
def Parsed.withStringIds (parsed : Parsed) (stringIds : List ℕ) : List Trigger :=
  assignAll 0 parsed.unassignedStrings stringIds parsed.output

/-- The triggers in front of and behind the parsed ones stay out of it. -/
theorem assignStringId_append {assignee : Assignee}
    (hlt : assignee.trigger < triggers.length) (stringId : ℕ) :
    assignStringId before.length stringId (before ++ triggers ++ after) assignee =
      before ++ assignStringId 0 stringId triggers assignee ++ after := by
  rw [assignStringId, assignStringId, List.append_assoc, List.append_assoc]
  apply List.ext_getElem?
  intro index
  rw [List.getElem?_modify]
  rcases Nat.lt_or_ge index before.length with hbefore | hbefore
  · have hne : before.length + assignee.trigger ≠ index := by omega
    simp [List.getElem?_append_left hbefore, hne]
  · obtain ⟨offset, rfl⟩ := Nat.exists_eq_add_of_le hbefore
    simp only [List.getElem?_append_right hbefore, Nat.add_sub_cancel_left,
      Nat.add_left_cancel_iff, Nat.zero_add]
    rcases Nat.lt_or_ge offset triggers.length with hinside | hinside
    · rw [List.getElem?_append_left hinside, List.getElem?_append_left
        (by simpa using hinside), List.getElem?_modify]
    · have hne : assignee.trigger ≠ offset := by omega
      rw [List.getElem?_append_right hinside, List.getElem?_append_right
        (by simpa using hinside), List.length_modify]
      simp [hne]

@[simp]
theorem length_assignStringId (base stringId : ℕ) (triggers : List Trigger) (assignee : Assignee) :
    (assignStringId base stringId triggers assignee).length =
      triggers.length :=
  List.length_modify ..

theorem length_foldl_assignStringId (base stringId : ℕ)
    (assignees : List Assignee) (triggers : List Trigger) :
    (assignees.foldl (assignStringId base stringId) triggers).length =
      triggers.length := by
  induction assignees generalizing triggers with
  | nil => rfl
  | cons assignee rest ih => rw [List.foldl_cons, ih, length_assignStringId]

theorem foldl_assignStringId_append {assignees : List Assignee}
    (hlt : ∀ assignee ∈ assignees, assignee.trigger < triggers.length)
    (stringId : ℕ) :
    assignees.foldl (assignStringId before.length stringId) (before ++ triggers ++ after) =
      before ++ assignees.foldl (assignStringId 0 stringId) triggers ++
        after := by
  induction assignees generalizing triggers with
  | nil => rfl
  | cons assignee rest ih =>
      rw [List.foldl_cons, List.foldl_cons, assignStringId_append (hlt _ List.mem_cons_self)]
      apply ih
      intro other hother
      rw [length_assignStringId]
      exact hlt other (List.mem_cons_of_mem _ hother)

@[simp]
theorem length_assignAll (base : ℕ) (nodes : List StringTableNode)
    (stringIds : List ℕ) (triggers : List Trigger) :
    (assignAll base nodes stringIds triggers).length = triggers.length := by
  rw [assignAll]
  induction nodes.zip stringIds generalizing triggers with
  | nil => rfl
  | cons entry rest ih =>
      rw [List.foldl_cons, ih, length_foldl_assignStringId]

theorem assignAll_append {nodes : List StringTableNode}
    (hlt : ∀ node ∈ nodes, ∀ assignee ∈ node.assignees,
      assignee.trigger < triggers.length) (stringIds : List ℕ) :
    assignAll before.length nodes stringIds (before ++ triggers ++ after) =
      before ++ assignAll 0 nodes stringIds triggers ++ after := by
  induction nodes generalizing triggers stringIds with
  | nil => rfl
  | cons node rest ih =>
      cases stringIds with
      | nil => rfl
      | cons stringId stringIds =>
          simp only [assignAll, List.zip_cons_cons, List.foldl_cons] at ih ⊢
          rw [foldl_assignStringId_append (hlt _ List.mem_cons_self)]
          apply ih
          intro other hother assignee hassignee
          rw [length_foldl_assignStringId]
          exact hlt other (List.mem_cons_of_mem _ hother) assignee hassignee

/-- The loop adds game strings and writes ids, one for each node it gets to. -/
theorem assignStrings_spec {base : ℕ} {nodes : List StringTableNode}
    {built : LoadedScenario} {success : Bool}
    (hassign : assignStrings base nodes scenario = (success, built)) :
    ∃ strings stringIds, built = { scenario.withStrings strings with
        trig := assignAll base nodes stringIds scenario.trig } ∧
      (success = true → stringIds.length = nodes.length) := by
  induction nodes generalizing scenario with
  | nil =>
      cases hassign
      exact ⟨built.str.strings, [], rfl, fun _ => rfl⟩
  | cons node rest ih =>
      rw [assignStrings] at hassign
      cases hadd : scenario.addString (untilNul node.scStr) with
      | error exception =>
          rw [hadd] at hassign
          cases hassign
          exact ⟨built.str.strings, [], rfl, fun hfalse => nomatch hfalse⟩
      | ok result =>
          obtain ⟨stringId, added⟩ := result
          rw [hadd] at hassign
          obtain ⟨strings, rfl, -⟩ := LoadedScenario.addString_spec hadd
          simp only at hassign
          split at hassign
          · cases hassign
            exact ⟨strings, [], rfl, fun hfalse => nomatch hfalse⟩
          · obtain ⟨last, stringIds, rfl, hall⟩ := ih hassign
            refine ⟨last, stringId :: stringIds, rfl, fun hsuccess => ?_⟩
            rw [List.length_cons, List.length_cons, hall hsuccess]

variable {parsed : Parsed}

section

variable {settings : CompilerSettings} {text : Text}
  (hparse : parseText settings scenario text trigIndexBegin trigIndexEnd = .ok (.ok parsed))

include hparse

/-- A text that is parsed comes from tables in range and is cleaned for the
parser. -/
theorem parseText_parses : stringTablesInRange scenario = true ∧ ∃ cleaned, ∃ input : CompilerInput,
        cleanText text = some (cleaned, input.stringContents) ∧
        EndsWithNul input.text ∧
        parseTriggers input (prepStringTable scenario trigIndexBegin trigIndexEnd) =
            .ok parsed := by
  rw [parseText, Fault.bind_eq_ok_iff] at hparse
  obtain ⟨⟨tables, nodes⟩, hload, hparse⟩ := hparse
  obtain ⟨hrange, rfl⟩ := loadCompiler_spec hload
  refine ⟨hrange, ?_⟩
  simp only at hparse
  split at hparse
  · cases hparse
  · rename_i cleaned stringContents hclean
    split at hparse
    · cases hparse
    · cases hparse
    · rename_i result hresult
      cases hparse
      exact ⟨cleaned, _, hclean, ⟨cleaned, rfl⟩, hresult⟩

/-- The quoted texts of a text that is parsed are as the parser leaves them. -/
theorem parseText_spec : stringTablesInRange scenario = true ∧ ∃ cleaned stringContents,
        cleanText text = some (cleaned, stringContents) ∧
        ParsedLiterals stringContents
          (prepStringTable scenario trigIndexBegin trigIndexEnd) parsed := by
  obtain ⟨hrange, cleaned, input, hclean, hnul, hresult⟩ := parseText_parses hparse
  exact ⟨hrange, cleaned, _, hclean, parseTriggers_parsedLiterals hnul
    (fun node hnode => (prepStringTable_ofMap hnode).assignees) hresult⟩

end

theorem ParsedLiterals.assignee_lt {stringContents : List Text}
    {initial : List StringTableNode}
    (hliterals : ParsedLiterals stringContents initial parsed)
    {node : StringTableNode} (hnode : node ∈ parsed.unassignedStrings)
    {assignee : Assignee} (hassignee : assignee ∈ node.assignees) :
    assignee.trigger < parsed.output.length := by
  obtain ⟨content, hmem, -⟩ := hliterals.assigned node
    (List.mem_of_mem_filter hnode) assignee hassignee
  exact hliterals.finished _ hmem

def withTriggers (scenario : LoadedScenario) (trig : List Trigger) : LoadedScenario :=
  { scenario with trig := trig }

/-- The string tables stay in range, so nothing is undefined while unused
strings are deleted. -/
theorem deleteUnusedStrings_eq_ok
    (hrange : stringTablesInRange scenario = true) (trig : List Trigger) :
    (withTriggers scenario trig).deleteUnusedStrings =
      .ok (withTriggers scenario trig).withoutUnusedStrings := by
  simp only [stringTablesInRange, decide_eq_true_eq] at hrange
  have hmarks : (withTriggers scenario trig).editorMarkOutOfRange =
      scenario.editorMarkOutOfRange := rfl
  rw [LoadedScenario.deleteUnusedStrings, hmarks, hrange.2.2, if_neg]
  simp only [withTriggers, Bool.false_eq_true, or_false]
  omega

/-- For a range inside the list: the parsed triggers stand at its beginning,
and the triggers behind them are either those behind the range or, when as many
triggers were parsed as the list's front has, gone. -/
theorem replaceRange_cases {replacement : List Trigger} (hlt : trigIndexBegin < trigIndexEnd)
    (hle : trigIndexEnd ≤ triggers.length) :
    (trigIndexBegin = 0 ∧ trigIndexEnd = replacement.length ∧
      replaceRange triggers trigIndexBegin trigIndexEnd replacement = .ok (replacement, triggers)) ∨
    (¬ (trigIndexBegin = 0 ∧ trigIndexEnd = replacement.length) ∧
      replaceRange triggers trigIndexBegin trigIndexEnd replacement =
        .ok (triggers.take trigIndexBegin ++ replacement ++ triggers.drop trigIndexEnd,
          (triggers.drop trigIndexBegin).take (trigIndexEnd - trigIndexBegin))) := by
  by_cases hwhole : trigIndexBegin = 0 ∧ trigIndexEnd = replacement.length
  · exact .inl ⟨hwhole.1, hwhole.2, by rw [replaceRange, if_pos hwhole]⟩
  · exact .inr ⟨hwhole, by rw [replaceRange, if_neg hwhole, if_pos ⟨hlt, hle⟩]⟩

section

variable {replaced : List Trigger} (hrange : stringTablesInRange scenario = true)
  (hreplace : replaceRange scenario.trig trigIndexBegin trigIndexEnd
      parsed.output = .ok (trig, replaced))

include hrange hreplace

/-- `buildNewMap` once the range is replaced: the loop over the new strings, and
the roll-back when one of them finds no id. -/
theorem buildNewMap_eq : buildNewMap scenario trigIndexBegin trigIndexEnd parsed =
      match assignStrings trigIndexBegin parsed.unassignedStrings
        (withTriggers scenario trig).withoutUnusedStrings with
      | (true, built) => .ok (true, built)
      | (false, built) =>
          ((replaceRange built.trig trigIndexBegin
            (trigIndexBegin + replaced.length) replaced).mapError Fault.thrown).map fun restored =>
            (false, { built with trig := restored.1, str := scenario.str }) := by
  have hclean := deleteUnusedStrings_eq_ok hrange trig
  rw [withTriggers] at hclean
  rw [buildNewMap, hreplace]
  change (Fault.ofHazard _ >>= _) = _
  rw [hclean, withTriggers]
  change (if (assignStrings _ _ _).1 then _ else _) = _
  rcases assignStrings _ _ _ with ⟨success, built⟩
  cases success with
  | true => rfl
  | false =>
      simp only [Bool.false_eq_true, if_false]
      cases replaceRange _ _ _ _ <;> rfl

/-- A map that was built: the new list, the loop over its strings, and on
failure the roll-back. -/
theorem buildNewMap_cases {built : LoadedScenario} {success : Bool}
    (hbuild : buildNewMap scenario trigIndexBegin trigIndexEnd parsed = .ok (success, built)) :
    ∃ assigned, assignStrings trigIndexBegin parsed.unassignedStrings
        (withTriggers scenario trig).withoutUnusedStrings = (success, assigned) ∧
      if success then built = assigned
      else ∃ restored rest, replaceRange assigned.trig trigIndexBegin
          (trigIndexBegin + replaced.length) replaced = .ok (restored, rest) ∧
        built = { assigned with trig := restored, str := scenario.str } := by
  rw [buildNewMap_eq hrange hreplace] at hbuild
  split at hbuild
  · rename_i assigned hassign
    cases hbuild
    exact ⟨_, hassign, rfl⟩
  · rename_i assigned hassign
    rw [Fault.map_eq_ok_iff] at hbuild
    obtain ⟨⟨restored, rest⟩, hrestore, hbuild⟩ := hbuild
    cases hbuild
    rw [Fault.mapError_eq_ok_iff] at hrestore
    exact ⟨assigned, hassign, restored, rest, hrestore, rfl⟩

end

section Reports

variable {settings : CompilerSettings} {scenario after : LoadedScenario}
  {text : Text} {trigIndex trigIndexBegin trigIndexEnd : ℕ} {report : Report}

theorem compileTriggers_cases (hcompile : compileTriggers settings scenario text trigIndexBegin
      trigIndexEnd = .ok (report, after)) :
    (∃ error, parseText settings scenario text trigIndexBegin trigIndexEnd =
        .ok (.error error) ∧ report = .textError error ∧ after = scenario) ∨
    ∃ parsed success built, parseText settings scenario text trigIndexBegin trigIndexEnd =
        .ok (.ok parsed) ∧
      buildNewMap scenario trigIndexBegin trigIndexEnd parsed = .ok (success, built) ∧
      if success then
        report = .compiled ∧ after = withTriggers built
          (parsedTriggers trigIndexBegin parsed.output.length built.trig)
      else report = .buildFailed ∧ after = built := by
  rw [compileTriggers] at hcompile
  obtain ⟨result, hparse, hcompile⟩ := Fault.bind_eq_ok_iff.mp hcompile
  cases result with
  | error error =>
      cases hcompile
      exact .inl ⟨error, hparse, rfl, rfl⟩
  | ok parsed =>
      obtain ⟨⟨success, built⟩, hbuild, hcompile⟩ := Fault.bind_eq_ok_iff.mp hcompile
      refine .inr ⟨parsed, success, built, hparse, hbuild, ?_⟩
      cases success with
      | true =>
          cases hcompile
          exact ⟨rfl, rfl⟩
      | false =>
          cases hcompile
          exact ⟨rfl, rfl⟩

/-- A compilation that succeeds: the range is replaced, unused strings are
deleted, the new ones get their ids, and the parsed triggers are what is left
of the list. -/
theorem compileTriggers_compiled
    (hparse : parseText settings scenario text trigIndexBegin trigIndexEnd = .ok (.ok parsed))
    (hcompile : compileTriggers settings scenario text trigIndexBegin
      trigIndexEnd = .ok (.compiled, after)) :
    ∃ trig replaced built, replaceRange scenario.trig trigIndexBegin trigIndexEnd parsed.output =
        .ok (trig, replaced) ∧
      assignStrings trigIndexBegin parsed.unassignedStrings
          (withTriggers scenario trig).withoutUnusedStrings = (true, built) ∧
      after = withTriggers built
        (parsedTriggers trigIndexBegin parsed.output.length built.trig) := by
  obtain ⟨hrange, -⟩ := parseText_spec hparse
  rcases compileTriggers_cases hcompile with
    ⟨error, -, hreport, -⟩ | ⟨other, success, built, hother, hbuild, hreport⟩
  · cases hreport
  · rw [hparse] at hother
    cases hother
    cases success with
    | false => cases hreport.1
    | true =>
        obtain ⟨⟨trig, replaced⟩, hreplace, -⟩ := Fault.bind_eq_ok_iff.mp hbuild
        rw [Fault.mapError_eq_ok_iff] at hreplace
        obtain ⟨assigned, hassign, hbuilt⟩ := buildNewMap_cases hrange hreplace hbuild
        rw [if_pos rfl] at hbuilt
        subst hbuilt
        exact ⟨trig, replaced, built, hreplace, hassign, hreport.2⟩

theorem compileTrigger_cases (hcompile : compileTrigger settings scenario text trigIndex =
      .ok (report, after)) :
    (report ≠ .compiled ∧ after = scenario ∧ ∀ parsed,
        parseText settings scenario text trigIndex (trigIndex + 1) =
          .ok (.ok parsed) → parsed.output.length ≠ 1) ∨
    ∃ parsed success built, parseText settings scenario text trigIndex (trigIndex + 1) =
        .ok (.ok parsed) ∧ parsed.output.length = 1 ∧
      buildNewMap scenario trigIndex (trigIndex + 1) parsed = .ok (success, built) ∧
      report = (if success then .compiled else .buildFailed) ∧
      after = built := by
  rw [compileTrigger] at hcompile
  obtain ⟨result, hparse, hcompile⟩ := Fault.bind_eq_ok_iff.mp hcompile
  cases result with
  | error error =>
      cases hcompile
      refine .inl ⟨nofun, rfl, fun parsed hok => ?_⟩
      rw [hparse] at hok
      cases hok
  | ok parsed =>
      simp only at hcompile
      split at hcompile
      · rename_i hone
        obtain ⟨⟨success, built⟩, hbuild, hcompile⟩ := Fault.bind_eq_ok_iff.mp hcompile
        cases hcompile
        exact .inr ⟨parsed, success, _, hparse, hone, hbuild, rfl, rfl⟩
      · rename_i hcount
        cases hcompile
        refine .inl ⟨nofun, rfl, fun other hok => ?_⟩
        rw [hparse] at hok
        cases hok
        exact hcount

end Reports

/-- What is parsed, and whether it is compiled, can be evaluated together. -/
theorem exists_compiled_of_eval {settings : CompilerSettings} {text : Text}
    {A B : Type} {query : Parsed → A} {found : A}
    {question : LoadedScenario → B} {answer : B}
    (hparse : (parseText settings scenario text trigIndexBegin
      trigIndexEnd).toOption.map (fun result => result.toOption.map query) = some (some found))
    (hcompile : (compileTriggers settings scenario text trigIndexBegin
      trigIndexEnd).toOption.map (fun result =>
        (result.1, question result.2)) = some (.compiled, answer)) :
    ∃ parsed after, parseText settings scenario text trigIndexBegin trigIndexEnd =
        .ok (.ok parsed) ∧
      compileTriggers settings scenario text trigIndexBegin trigIndexEnd = .ok (.compiled, after) ∧
      query parsed = found ∧ question after = answer := by
  obtain ⟨result, hresult, hread⟩ := Fault.exists_ok_of_toOption_map hparse
  obtain ⟨parsed, rfl, hquery⟩ := Fault.exists_ok_of_toOption_map hread
  obtain ⟨⟨report, after⟩, hafter, hanswer⟩ := Fault.exists_ok_of_toOption_map hcompile
  obtain ⟨rfl, hanswer⟩ := Prod.mk.inj hanswer
  exact ⟨parsed, after, hresult, hafter, hquery, hanswer⟩

end Chkdraft.TextTrigs
