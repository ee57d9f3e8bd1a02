import Chkdraft.TextTrigs.StringAssignment
import Chkdraft.TextTrigs.WaitingFields

/-!
# Strings after a compilation

A quoted text that is a string of the map stays with its field if somebody uses
its id; a new text does if the loop over new texts keeps its node.  Other users
keep their strings.
-/

namespace Chkdraft.TextTrigs

open Chk Scan Sections Scenario Table

variable {trig : List Trigger} {stringContents : List Text}
  {initial : List StringTableNode} {entry : Assignee × Text}
  {node : StringTableNode}

/-! ## The whole range -/

theorem replaceRange_whole {triggers replacement replaced : List Trigger}
    (hreplace : replaceRange triggers 0 triggers.length replacement =
      .ok (trig, replaced)) : trig = replacement := by
  rw [replaceRange] at hreplace
  split at hreplace
  · cases hreplace
    rfl
  · split at hreplace
    · cases hreplace
      simp
    · cases hreplace

section Whole

variable {settings : CompilerSettings} {scenario after : LoadedScenario}
  {text : Text} {parsed : Parsed}

/-- Compiling the whole range: unused strings are deleted for the parsed
triggers, and the new ones assigned. -/
theorem compileTriggers_whole
    (hparse : parseText settings scenario text 0 scenario.trig.length = .ok (.ok parsed))
    (hcompile : compileTriggers settings scenario text 0
      scenario.trig.length = .ok (.compiled, after)) :
    assignStrings 0 parsed.unassignedStrings
      (withTriggers scenario parsed.output).withoutUnusedStrings = (true, after) := by
  obtain ⟨trig, replaced, built, hreplace, hassign, rfl⟩ := compileTriggers_compiled hparse hcompile
  obtain rfl := replaceRange_whole hreplace
  obtain ⟨strings, stringIds, hassigned, -⟩ := assignStrings_spec hassign
  have hcount : built.trig.length = parsed.output.length := by
    rw [hassigned]
    exact length_assignAll ..
  rw [hassign, parsedTriggers, List.drop_zero, ← hcount, List.take_length]
  rfl

section

variable (hliterals : ParsedLiterals stringContents initial parsed)

include hliterals

theorem ParsedLiterals.exists_actionAt (hentry : entry ∈ parsed.literals) :
    ∃ action, actionAt parsed.output entry.1 = some action := by
  have htrigger := hliterals.finished entry hentry
  have haction := (hliterals.listed entry hentry).1
  rw [actionAt, List.getElem?_eq_getElem htrigger, Option.bind_some,
    List.getElem?_eq_getElem (by rw [List.Vector.toList_length]; exact haction)]
  exact ⟨_, rfl⟩

theorem ParsedLiterals.content_unique (hentry : entry ∈ parsed.literals)
    {content : Text} (hcontent : (entry.1, content) ∈ parsed.literals) :
    content = entry.2 :=
  congrArg Prod.snd (List.inj_on_of_nodup_map hliterals.nodup hcontent hentry
    rfl)

/-- The tables of the map, and the loop's nodes, in front of the first round. -/
theorem ParsedLiterals.awaits (hlength : scenario.str.strings.length ≤ maxStrings)
    (hapart : parsed.nodes.Pairwise StringTableNode.Apart)
    (hwaiting : ∀ field ∈ waitingFields parsed.nodes, ∀ action,
      actionAt parsed.output field = some action →
      stringField field.isSound action = 0) :
    Awaits (withTriggers scenario parsed.output).withoutUnusedStrings parsed.unassignedStrings where
  length := by
    rw [LoadedScenario.withoutUnusedStrings, length_dropUnmarked]
    exact hlength
  apart := by
    rw [Parsed.unassignedStrings, List.pairwise_filter]
    apply hapart.imp_of_mem
    intro node other hnode hother hne hzero _
    have htexts := hne (.inl (of_decide_eq_true hzero))
    refine ⟨htexts, fun field hfield hshared => htexts ?_⟩
    obtain ⟨content, hentry, hcontent⟩ := hliterals.assigned node hnode field hfield
    obtain ⟨again, hagain, hsame⟩ := hliterals.assigned other hother field hshared
    rw [hcontent, hsame]
    exact congrArg untilNul (hliterals.content_unique hagain hentry)
  fields node hnode field hfield value hvalue := by
    obtain ⟨hmem, hzero⟩ := List.mem_filter.mp hnode
    obtain ⟨action, haction, rfl⟩ := Option.map_eq_some_iff.mp hvalue
    exact hwaiting field (mem_waitingFields.mpr
      ⟨node, hmem, of_decide_eq_true hzero, hfield⟩) action haction
  fresh node _ stringId hget := by
    by_contra hmarks
    rw [marksGameString_withoutUnusedStrings] at hmarks
    rw [getString, LoadedScenario.withoutUnusedStrings, getD_dropUnmarked,
      if_neg (by simpa using hmarks)] at hget
    cases hget

end

/-- Users other than trigger actions resolve to the same game strings. -/
theorem gameContents_of_assignStrings {nodes : List StringTableNode}
    (hlength : scenario.str.strings.length ≤ maxStrings)
    (hawaits : Awaits (withTriggers scenario trig).withoutUnusedStrings nodes)
    (hassign : assignStrings 0 nodes
      (withTriggers scenario trig).withoutUnusedStrings = (true, after))
    {flag : StringUserFlag} (hflag : UserMask.exceptTriggers flag = true) :
    gameContents after flag = gameContents scenario flag := by
  have hgrown := assignStrings_length hawaits hassign
  have hids : after.gameStringIds flag = scenario.gameStringIds flag := by
    obtain ⟨strings, stringIds, rfl, -⟩ := assignStrings_spec hassign
    cases flag <;> first | rfl | cases hflag
  rw [gameContents, gameContents, hids]
  apply List.map_congr_left
  intro stringId hmem
  rcases Nat.eq_zero_or_pos stringId with rfl | hpos
  · rfl
  · rw [if_neg (Nat.ne_of_gt hpos), if_neg (Nat.ne_of_gt hpos)]
    rcases Nat.lt_or_ge stringId maxStrings with hlt | hge
    · have hmarks : (withTriggers scenario trig).marksGameString .all
          stringId := by
        rw [marksGameString_iff, marksGameString_withTriggers]
        exact .inl ⟨hpos, hlt, flag, hflag, hmem⟩
      rw [assignStrings_kept hawaits hassign
        (marksGameString_withoutUnusedStrings.mpr hmarks), getString,
        LoadedScenario.getD_withoutUnusedStrings hmarks]
      rfl
    · rw [getString, getString, List.getD_eq_default _ _ (Nat.le_trans hgrown hge),
        List.getD_eq_default _ _ (Nat.le_trans hlength hge)]

/-- All users of editor strings resolve to the same strings. -/
theorem editorContents_of_assignStrings {nodes : List StringTableNode}
    (hassign : assignStrings 0 nodes
      (withTriggers scenario trig).withoutUnusedStrings = (true, after))
    (flag : StringUserFlag) :
    editorContents after flag = editorContents scenario flag := by
  obtain ⟨strings, stringIds, rfl, -⟩ := assignStrings_spec hassign
  apply List.map_congr_left
  intro stringId hmem
  rcases Nat.eq_zero_or_pos stringId with rfl | hpos
  · rfl
  · rw [if_neg (Nat.ne_of_gt hpos), if_neg (Nat.ne_of_gt hpos)]
    have hmarks : (withTriggers scenario trig).marksEditorString .all
        stringId := ⟨hpos, flag, rfl, hmem⟩
    exact LoadedScenario.getD_withoutUnusedEditorStrings hmarks

theorem getString_withoutUnusedStrings {stringId : ℕ} :
    getString scenario.withoutUnusedStrings.str.strings stringId =
      if scenario.marksGameString .all stringId
        then getString scenario.str.strings stringId else none := by
  rw [getString, LoadedScenario.withoutUnusedStrings, getD_dropUnmarked]
  simp only [decide_eq_true_eq]
  split <;> rfl

theorem keepsNode_withoutUnusedStrings {behind : List StringTableNode} :
    KeepsNode scenario.withoutUnusedStrings node behind ↔ KeepsNode scenario node behind := by
  have huse : ∀ text, InUse scenario.withoutUnusedStrings text ↔ InUse scenario text := by
    intro text
    apply exists_congr
    intro stringId
    rw [marksGameString_withoutUnusedStrings]
    apply and_congr_right
    intro hmarks
    rw [getString_withoutUnusedStrings, if_pos hmarks]
  simp only [KeepsNode, huse]
  rfl

/-- When a quoted text stays with its field.  The id of a string of the map has
to be used by somebody in the map with the parsed triggers; a new text needs a
node that is kept. -/
def KeepsText (scenario : LoadedScenario) (parsed : Parsed) (entry : Assignee × Text) : Prop :=
  (∀ value, fieldAt parsed.output entry.1 = some value → value.2 ≠ 0 →
    scenario.marksGameString .all value.2.toNat) ∧
  ∀ before node behind, parsed.unassignedStrings = before ++ node :: behind →
    entry.1 ∈ node.assignees → KeepsNode scenario node behind

/-- A quoted text is stored under the id of its field. -/
def ResolvesText (scenario : LoadedScenario) (entry : Assignee × Text) : Prop :=
  ∃ action, actionAt scenario.trig entry.1 = some action ∧ getString scenario.str.strings
      (stringField entry.1.isSound action).toNat = some entry.2

theorem resolvesText_iff {value : UInt8 × UInt32}
    (hvalue : fieldAt scenario.trig entry.1 = some value) :
    ResolvesText scenario entry ↔ getString scenario.str.strings value.2.toNat = some entry.2 := by
  obtain ⟨action, haction, rfl⟩ := Option.map_eq_some_iff.mp hvalue
  simp [ResolvesText, haction]

section Entries

variable {stringContents : List Text} {entry : Assignee × Text}
  {value : UInt8 × UInt32}

theorem untilNul_ne_of_apart (hapart : parsed.nodes.Pairwise StringTableNode.Apart)
    {other : StringTableNode} (hnode : node ∈ parsed.nodes)
    (hid : node.stringId ≠ 0) (hother : other ∈ parsed.unassignedStrings) :
    untilNul other.scStr ≠ untilNul node.scStr := by
  obtain ⟨hother, hzero⟩ := List.mem_filter.mp hother
  have hzero : other.stringId = 0 := of_decide_eq_true hzero
  have : Std.Symm StringTableNode.Apart := ⟨fun _ _ hne heither => (hne heither.symm).symm⟩
  apply hapart.forall hother hnode _ (.inl hzero)
  rintro rfl
  exact hid hzero

/-- A quoted text that is a string of the map: its id is written while parsing
and stays, and the string stays if it is used. -/
theorem ParsedLiterals.resolvesText_iff_of_map (hrange : stringTablesInRange scenario = true)
    (hliterals : ParsedLiterals stringContents
      (prepStringTable scenario 0 scenario.trig.length) parsed)
    (hapart : parsed.nodes.Pairwise StringTableNode.Apart)
    (hawaits : Awaits (withTriggers scenario parsed.output).withoutUnusedStrings
      parsed.unassignedStrings)
    (hassign : assignStrings 0 parsed.unassignedStrings
      (withTriggers scenario parsed.output).withoutUnusedStrings =
        (true, after)) (hentry : entry ∈ parsed.literals)
    (hnul : untilNul entry.2 = entry.2)
    (hvalue : fieldAt parsed.output entry.1 = some value)
    (hnode : node ∈ parsed.nodes)
    (hcontent : untilNul node.scStr = untilNul entry.2)
    (hid : node.stringId ≠ 0)
    (hwritten : value.2 = UInt32.ofNat node.stringId) :
    ResolvesText after entry ↔ KeepsText (withTriggers scenario parsed.output) parsed entry := by
  have htexts : ∀ other ∈ parsed.unassignedStrings, untilNul other.scStr ≠ entry.2 := by
    rw [← hnul, ← hcontent]
    exact fun other => untilNul_ne_of_apart hapart hnode hid
  have hnot : ∀ other ∈ parsed.unassignedStrings, entry.1 ∉ other.assignees := by
    intro other hother hmem
    obtain ⟨content, hmember, hsame⟩ := hliterals.assigned other
      (List.mem_of_mem_filter hother) entry.1 hmem
    rw [hliterals.content_unique hentry hmember, hnul] at hsame
    exact htexts other hother hsame
  have hstored : getString scenario.str.strings node.stringId = some entry.2 := by
    obtain ⟨source, hsource, hscStr, hsourceId⟩ := hliterals.original node hnode hid
    have hstored := (prepStringTable_ofMap hsource).stored
    rw [hscStr, hsourceId] at hstored
    obtain ⟨stored, -, hread⟩ := getString_eq_some_iff.mp hstored
    rw [hstored, ← hnul, ← hcontent, ← hread, untilNul_untilNul]
  have hlt := lt_length_of_getString hstored
  have hlength : scenario.str.strings.length < maxStrings := by
    simp only [stringTablesInRange, decide_eq_true_eq] at hrange
    exact hrange.1
  have hmax : maxStrings = 65536 := rfl
  have hnumber : value.2.toNat = node.stringId := by
    rw [hwritten, UInt32.toNat_ofNat']
    exact Nat.mod_eq_of_lt (by omega)
  rw [resolvesText_iff ((fieldAt_assignStrings hawaits hassign hnot).trans hvalue), hnumber]
  by_cases hmarks : (withTriggers scenario parsed.output).marksGameString .all node.stringId
  · apply iff_of_true
    · rw [assignStrings_kept hawaits hassign (marksGameString_withoutUnusedStrings.mpr hmarks),
        getString_withoutUnusedStrings, if_pos hmarks]
      exact hstored
    · refine ⟨fun other hother _ => ?_, ?_⟩
      · rw [hvalue] at hother
        rw [← Option.some.inj hother, hnumber]
        exact hmarks
      · intro before other behind hsplit hmem
        exact absurd hmem (hnot other (by simp [hsplit]))
  · apply iff_of_false
    · apply assignStrings_ne hawaits hassign htexts
      rw [getString_withoutUnusedStrings, if_neg hmarks]
      exact Option.some_ne_none _ |>.symm
    · intro hkeeps
      apply hmarks
      rw [← hnumber]
      apply hkeeps.1 value hvalue
      intro hzero
      rw [hzero] at hnumber
      exact hid hnumber.symm

/-- A quoted text that is new: its field gets the id of its node. -/
theorem ParsedLiterals.resolvesText_iff_of_new
    (hliterals : ParsedLiterals stringContents initial parsed)
    (hawaits : Awaits (withTriggers scenario parsed.output).withoutUnusedStrings
      parsed.unassignedStrings)
    (hassign : assignStrings 0 parsed.unassignedStrings
      (withTriggers scenario parsed.output).withoutUnusedStrings =
        (true, after)) (hentry : entry ∈ parsed.literals)
    (hnul : untilNul entry.2 = entry.2)
    (hvalue : fieldAt parsed.output entry.1 = some value)
    (hnode : node ∈ parsed.unassignedStrings)
    (hfield : entry.1 ∈ node.assignees) :
    ResolvesText after entry ↔ KeepsText (withTriggers scenario parsed.output) parsed entry := by
  have hkeeps : ∀ before other behind, parsed.unassignedStrings = before ++ other :: behind →
      entry.1 ∈ other.assignees →
      (ResolvesText after entry ↔
        KeepsNode (withTriggers scenario parsed.output) other behind) := by
    intro before other behind hsplit hmem
    have hother : other ∈ parsed.unassignedStrings := by simp [hsplit]
    obtain ⟨content, hmember, hsame⟩ := hliterals.assigned other
      (List.mem_of_mem_filter hother) entry.1 hmem
    rw [hliterals.content_unique hentry hmember, hnul] at hsame
    rw [hsplit] at hawaits hassign
    obtain ⟨stringId, hlt, hbuilt, hkept⟩ := assignStrings_keeps_iff hawaits hassign hmem hvalue
    have hmax : maxStrings = 65536 := rfl
    have hnumber : (UInt32.ofNat stringId).toNat = stringId := by
      rw [UInt32.toNat_ofNat']
      exact Nat.mod_eq_of_lt (by omega)
    rw [resolvesText_iff hbuilt, hnumber, ← hsame, hkept, keepsNode_withoutUnusedStrings]
  obtain ⟨before, behind, hsplit⟩ := List.append_of_mem hnode
  constructor
  · intro hresolves
    refine ⟨fun other hother hne => absurd ?_ hne, ?_⟩
    · exact hawaits.fields node hnode entry.1 hfield other hother
    · intro before other behind hsplit hmem
      exact (hkeeps before other behind hsplit hmem).mp hresolves
  · intro hkept
    exact (hkeeps before node behind hsplit hfield).mpr (hkept.2 before node behind hsplit hfield)

end Entries

/-- After the whole range was compiled, every other user has its string, and
the quoted texts are stored under the ids of their fields exactly if each one is
kept. -/
theorem compileTriggers_strings_resolve_iff
    (hparse : parseText settings scenario text 0 scenario.trig.length = .ok (.ok parsed))
    (hcompile : compileTriggers settings scenario text 0
      scenario.trig.length = .ok (.compiled, after)) :
    ((∀ entry ∈ parsed.literals, ResolvesText after entry) ∧
      (∀ flag, UserMask.exceptTriggers flag = true →
        gameContents after flag = gameContents scenario flag) ∧
      ∀ flag, editorContents after flag = editorContents scenario flag) ↔
      ∀ entry ∈ parsed.literals, KeepsText (withTriggers scenario parsed.output) parsed entry := by
  obtain ⟨hrange, cleaned, input, hclean, hends, hresult⟩ := parseText_parses hparse
  have hliterals := parseTriggers_parsedLiterals hends
    (fun node hnode => (prepStringTable_ofMap hnode).assignees) hresult
  obtain ⟨hapart, hwaiting⟩ := parseTriggers_waiting hends
    (fun node hnode => (prepStringTable_ofMap hnode).assignees)
    (fun node hnode => (prepStringTable_ofMap hnode).stringId) hresult
  have hassign := compileTriggers_whole hparse hcompile
  have hlength : scenario.str.strings.length ≤ maxStrings := by
    simp only [stringTablesInRange, decide_eq_true_eq] at hrange
    exact Nat.le_of_lt hrange.1
  have hawaits := hliterals.awaits hlength hapart hwaiting
  rw [and_iff_left ⟨fun flag => gameContents_of_assignStrings hlength hawaits
    hassign, editorContents_of_assignStrings hassign⟩]
  apply forall₂_congr
  intro entry hentry
  have hnul : untilNul entry.2 = entry.2 := untilNul_of_nul_not_mem
    (nul_not_mem_of_cleanText hclean _ (hliterals.listed entry hentry).2)
  obtain ⟨action, haction⟩ := hliterals.exists_actionAt hentry
  have hvalue : fieldAt parsed.output entry.1 =
      some (action.actionType, stringField entry.1.isSound action) := by
    rw [fieldAt, haction]
    rfl
  obtain ⟨node, hnode, hcontent, hfield⟩ := hliterals.resolved entry hentry
  split at hfield
  · rename_i hzero
    exact hliterals.resolvesText_iff_of_new hawaits hassign hentry hnul hvalue
      (List.mem_filter.mpr ⟨hnode, by simpa using hzero⟩) hfield
  · rename_i hid
    obtain ⟨same, hsame, hwritten⟩ := hfield
    rw [haction] at hsame
    obtain rfl := Option.some.inj hsame
    exact hliterals.resolvesText_iff_of_map hrange hapart hawaits hassign
      hentry hnul hvalue hnode hcontent hid hwritten

end Whole

/-- A map with one trigger, whose name is its only string, and room for two
more. -/
def namedScenario : LoadedScenario :=
  { (bareScenario [blankTrigger] []).withStrings
      [none, some (ascii "m"), none, none] with
    scenarioNameStringId := 1 }

/-- Two custom actions of a type without a sound: their sounds get the same id,
and the first one is lost. -/
theorem compileTriggers_loses_sound : ∃ settings scenario text parsed after entry action,
      parseText settings scenario text 0 scenario.trig.length = .ok (.ok parsed) ∧
      compileTriggers settings scenario text 0 scenario.trig.length = .ok (.compiled, after) ∧
      entry ∈ parsed.literals ∧ actionAt after.trig entry.1 = some action ∧
      getString after.str.strings (stringField entry.1.isSound action).toNat ≠ some entry.2 := by
  obtain ⟨parsed, after, hparse, hcompile, hliterals, hafter⟩ :=
    @exists_compiled_of_eval namedScenario 0 1 ⟨false, 0, 0⟩
      (ascii "Trigger()\x7bActions: Custom(0,0,\"a\",0,0,0,1,0,0,0,0);" ++
        ascii "Custom(0,0,\"b\",0,0,0,1,0,0,0,0);\x7d") _ _
      Parsed.literals [(⟨0, 0, true⟩, ascii "a"), (⟨0, 1, true⟩, ascii "b")]
      (fun after => ((actionAt after.trig ⟨0, 0, true⟩).map
        Action.soundStringId, getString after.str.strings 2))
      (some 2, some (ascii "b")) (by decide +kernel) (by decide +kernel)
  obtain ⟨haction, hstring⟩ := Prod.mk.inj hafter
  obtain ⟨action, haction, hsound⟩ := Option.map_eq_some_iff.mp haction
  refine ⟨_, _, _, parsed, after, (⟨0, 0, true⟩, ascii "a"), action, hparse,
    hcompile, by rw [hliterals]; exact List.mem_cons_self,
    haction, ?_⟩
  change getString after.str.strings action.soundStringId.toNat ≠ _
  rw [hsound]
  change getString after.str.strings 2 ≠ _
  rw [hstring]
  decide

/-- A string of the map, a new string that two comments share, and the sound of
a custom action of a type without a sound, behind which nothing is new. -/
theorem compileTriggers_resolves_three : ∃ settings scenario text parsed after,
      parseText settings scenario text 0 scenario.trig.length = .ok (.ok parsed) ∧
      compileTriggers settings scenario text 0 scenario.trig.length = .ok (.compiled, after) ∧
      parsed.literals = [(⟨0, 0, false⟩, ascii "m"),
        (⟨0, 1, false⟩, ascii "X"), (⟨0, 2, false⟩, ascii "X"),
        (⟨0, 3, true⟩, ascii "a")] ∧
      (∀ entry ∈ parsed.literals, ResolvesText after entry) ∧
      (∀ flag, UserMask.exceptTriggers flag = true →
        gameContents after flag = gameContents scenario flag) ∧
      ∀ flag, editorContents after flag = editorContents scenario flag := by
  obtain ⟨parsed, after, hparse, hcompile, hquery, -⟩ :=
    @exists_compiled_of_eval namedScenario 0 1 ⟨false, 0, 0⟩
      (ascii "Trigger()\x7bActions: Comment(\"m\"); Comment(\"X\");" ++
        ascii "Comment(\"X\"); Custom(0,0,\"a\",0,0,0,1,0,0,0,0);\x7d") _ _
      (fun parsed =>
        decide (parsed.literals =
          [(⟨0, 0, false⟩, ascii "m"), (⟨0, 1, false⟩, ascii "X"),
            (⟨0, 2, false⟩, ascii "X"), (⟨0, 3, true⟩, ascii "a")]) &&
        decide (parsed.unassignedStrings =
          [⟨false, ascii "X", 0, [⟨0, 1, false⟩, ⟨0, 2, false⟩]⟩,
            ⟨false, ascii "a", 0, [⟨0, 3, true⟩]⟩]) &&
        decide (parsed.literals.map (fun entry =>
          fieldAt parsed.output entry.1) =
            [some (47, 1), some (47, 0), some (47, 0), some (1, 0)])) true
      (fun _ => ()) () (by decide +kernel) (by decide +kernel)
  simp only [Bool.and_eq_true, decide_eq_true_eq] at hquery
  obtain ⟨⟨hliterals, hunassigned⟩, hfields⟩ := hquery
  refine ⟨_, _, _, parsed, after, hparse, hcompile, hliterals,
    (compileTriggers_strings_resolve_iff hparse hcompile).mpr ?_⟩
  rw [hliterals] at hfields ⊢
  simp only [List.map_cons, List.map_nil, List.cons.injEq, and_true] at hfields
  obtain ⟨hmap, hnew, hshared, hsound⟩ := hfields
  have hsplit : ∀ before node behind, parsed.unassignedStrings = before ++ node :: behind →
        node = ⟨false, ascii "X", 0, [⟨0, 1, false⟩, ⟨0, 2, false⟩]⟩ ∨
        node = ⟨false, ascii "a", 0, [⟨0, 3, true⟩]⟩ ∧ behind = [] := by
    intro before node behind heq
    rw [hunassigned] at heq
    rcases before with _ | ⟨first, _ | ⟨second, rest⟩⟩ <;> simp_all
  have hkept : ∀ field before node behind, parsed.unassignedStrings = before ++ node :: behind →
      field ∈ node.assignees →
      KeepsNode (withTriggers namedScenario parsed.output) node behind := by
    intro field before node behind heq hfield
    rcases hsplit before node behind heq with rfl | ⟨rfl, rfl⟩
    · exact .inr (.inl ⟨⟨0, 1, false⟩, List.mem_cons_self, _, hnew, rfl⟩)
    · exact .inr (.inr (by simp))
  have hnone : ∀ {field : Assignee} {actionType : UInt8},
      fieldAt parsed.output field = some (actionType, 0) →
      ∀ value, fieldAt parsed.output field = some value → value.2 ≠ 0 →
      (withTriggers namedScenario parsed.output).marksGameString .all value.2.toNat := by
    intro field actionType hfield value hvalue hne
    rw [hfield] at hvalue
    cases hvalue
    exact absurd rfl hne
  simp only [List.forall_mem_cons]
  refine ⟨⟨?_, hkept _⟩, ⟨hnone hnew, hkept _⟩, ⟨hnone hshared, hkept _⟩,
    ⟨hnone hsound, hkept _⟩, by simp⟩
  intro value hvalue _
  rw [hmap] at hvalue
  cases hvalue
  exact ⟨by decide, by decide, .scenarioName, rfl, List.mem_cons_self⟩

end Chkdraft.TextTrigs
