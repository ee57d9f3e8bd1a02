import Chkdraft.TextTrigs.Building

/-!
# When a compilation returns

The parser compares the number of conditions with the maximum before it takes
the next one, and lets a full trigger pass, so that one condition too many
reaches the accessor, which throws.  Actions are counted in the same way.  The
other ways not to return are a literal that is never closed, tables that are too
large, undefined behaviour in an argument, and a roll-back of a range the list
no longer has.
-/

namespace Chkdraft.TextTrigs

open Chk Scan Sections Scenario

variable {fault : Fault Exception} {actionEnd conditionEnd : ℕ}
  {conditionId : VirtualCondition} {actionId : VirtualAction} {message : String}
  {nodes : List StringTableNode}

variable {stateFlags : UInt8} {argIndex : ℕ} {state : ParserState}

/-- A part neither goes on nor reports a text error. -/
def Faults {A : Type} (result : Except Stop A) : Prop := ∃ fault, result = .error (.fault fault)

section Faults

variable {A B : Type} {cursor : Cursor} {text : Text}

@[simp]
theorem not_faults_ok (value : A) : ¬ Faults (.ok value : Except Stop A) := by
  rintro ⟨fault, hfault⟩
  cases hfault

@[simp]
theorem not_faults_fail (message : String) : ¬ Faults (cursor.fail message : Except Stop A) := by
  rintro ⟨fault, hfault⟩
  cases hfault

@[simp]
theorem not_faults_stepOver (character : UInt8) (message : String) (expecting : Expecting) :
    ¬ Faults (cursor.stepOver text character message expecting) := by
  rw [Cursor.stepOver]
  split
  · exact not_faults_ok _
  · exact not_faults_fail _

@[simp]
theorem faults_map {result : Except Stop A} {change : A → B} :
    Faults (result.map change) ↔ Faults result := by
  cases result with
  | ok value => simp [Except.map]
  | error stop => simp [Faults, Except.map]

theorem call_eq_fault {result : Except Hazard A} {rest : A → Except Stop B} :
    (Stop.ofHazard result >>= rest) = .error (.fault fault) ↔
      (∃ hazard, fault = .hazard hazard ∧ result = .error hazard) ∨
        ∃ value, result = .ok value ∧ rest value = .error (.fault fault) := by
  cases result with
  | error hazard =>
      constructor
      · intro hfault
        cases hfault
        exact .inl ⟨hazard, rfl, rfl⟩
      · rintro (⟨other, rfl, herror⟩ | ⟨value, hok, -⟩)
        · cases herror
          rfl
        · cases hok
  | ok value =>
      constructor
      · intro hfault
        exact .inr ⟨value, rfl, hfault⟩
      · rintro (⟨hazard, -, herror⟩ | ⟨other, hok, hfault⟩)
        · cases herror
        · cases hok
          exact hfault

theorem call_eq_fault_iff {result : Except Hazard A} {rest : A → Except Stop B}
    (hrest : ∀ value, ¬ Faults (rest value)) :
    (Stop.ofHazard result >>= rest) = .error (.fault fault) ↔
      ∃ hazard, fault = .hazard hazard ∧ result = .error hazard := by
  rw [call_eq_fault]
  constructor
  · rintro (herror | ⟨value, -, hfault⟩)
    · exact herror
    · exact absurd ⟨fault, hfault⟩ (hrest value)
  · exact .inl

end Faults

/-! ## Where the parser can fault -/

/-- The parser stands in front of a condition or an action its trigger has no
room for, or of something whose reading leaves defined behaviour. -/
def StandsAtFault (input : CompilerInput) (state : ParserState) : Prop :=
  let (cursor, parsed) := state
  match cursor.expecting with
  | .playerOrEndOfPlayers =>
      charAt input.text cursor.pos ≠ 41 ∧
        ∃ stop hazard, playerEnd input.text cursor.pos = some stop ∧
          parseExecutingPlayer input cursor.pos stop cursor.nextString = .error hazard
  | .conditionStartOrNonConditionSectionStart =>
      ∃ start stop, conditionNameAt input.text cursor = some (start, stop) ∧
        ((∃ hazard, parseCondition input.text start stop = .error hazard) ∨
          parsed.numConditions = maxConditions ∧ ∃ conditionId,
            parseCondition input.text start stop = .ok (some conditionId))
  | .conditionArgOrEndOfCondition conditionId argIndex =>
      ∃ argument argEnd hazard, argumentAt input.text conditionId.textArguments argIndex cursor =
          some (argument, argEnd) ∧
        parseConditionArg input argument cursor.pos argEnd
          parsed.currCondition cursor.nextString = .error hazard
  | .actionStartOrFlagSectionStartOrEndOfTrigger =>
      ∃ start stop, actionNameAt input.text cursor = some (start, stop) ∧
        ((∃ hazard, parseAction input.text start stop = .error hazard) ∨
          parsed.numActions = maxActions ∧ ∃ actionId,
            parseAction input.text start stop = .ok (some actionId))
  | .actionArgOrEndOfAction actionId argIndex =>
      ∃ argument argEnd hazard, argumentAt input.text actionId.textArguments argIndex cursor =
          some (argument, argEnd) ∧
        parseActionArg input argument cursor.pos argEnd parsed.currAction
          cursor.nextString = .error hazard
  | .executionFlags =>
      charAt input.text cursor.pos ≠ 59 ∧
        ∃ flagsEnd hazard, find input.text 59 cursor.pos = some flagsEnd ∧
          parseExecutionFlags input.text cursor.pos flagsEnd = .error hazard
  | _ => False

section Parts

variable {input : CompilerInput} {text : Text} {cursor : Cursor}
  {parsed : Parsed} {fault : Fault Exception}

theorem not_faults_parsePartZero : ¬ Faults (parsePartZero text cursor parsed) := by
  rw [parsePartZero, faults_map]
  split
  · exact not_faults_ok _
  · split <;> exact not_faults_stepOver _ _ _

theorem parsePartOne_fault_iff : parsePartOne input cursor parsed = .error (.fault fault) ↔
      charAt input.text cursor.pos ≠ 41 ∧
        ∃ stop hazard, playerEnd input.text cursor.pos = some stop ∧ fault = .hazard hazard ∧
          parseExecutingPlayer input cursor.pos stop cursor.nextString = .error hazard := by
  rw [parsePartOne]
  split
  · rename_i hclose
    simp [hclose]
  · rename_i hclose
    cases playerEnd input.text cursor.pos with
    | none => simp [Cursor.fail]
    | some stop =>
        refine (call_eq_fault_iff ?_).trans ?_
        · rintro ⟨player, nextString⟩
          cases player <;> simp [pure, Except.pure]
        · simp [hclose]

theorem not_faults_parsePartThree : ¬ Faults (parsePartThree text cursor) := by
  rw [parsePartThree]
  repeat' split
  all_goals simp

theorem not_faults_parsePartSix : ¬ Faults (parsePartSix text cursor) := by
  rw [parsePartSix]
  repeat' split
  all_goals simp

theorem not_faults_parsePartNine : ¬ Faults (parsePartNine text cursor) := by
  rw [parsePartNine]
  repeat' split
  all_goals simp

/-- The accessor throws when there is no room for the condition. -/
theorem beginCondition_fault_iff :
    beginCondition text cursor parsed conditionEnd stateFlags = .error (.fault fault) ↔
      (∃ hazard, fault = .hazard hazard ∧
        parseCondition text cursor.pos conditionEnd = .error hazard) ∨
      fault = .thrown .outOfRange ∧ parsed.numConditions = maxConditions ∧
        ∃ conditionId, parseCondition text cursor.pos conditionEnd = .ok (some conditionId) := by
  rw [beginCondition, call_eq_fault]
  apply or_congr Iff.rfl
  constructor
  · rintro ⟨conditionId, hparse, hfault⟩
    cases conditionId with
    | none => exact absurd ⟨fault, hfault⟩ (not_faults_fail _)
    | some conditionId =>
        simp only at hfault
        split at hfault
        · exact absurd ⟨fault, hfault⟩ (not_faults_fail _)
        · rename_i hcount
          rw [Parsed.addCondition] at hfault
          split at hfault
          · exact absurd (faults_map.mp ⟨fault, hfault⟩) (not_faults_stepOver _ _ _)
          · cases hfault
            exact ⟨rfl, by omega, conditionId, hparse⟩
  · rintro ⟨rfl, hcount, conditionId, hparse⟩
    refine ⟨some conditionId, hparse, ?_⟩
    simp only [hcount, Nat.lt_irrefl, if_false, Parsed.addCondition]
    rfl

theorem parsePartFour_fault_iff : parsePartFour text cursor parsed = .error (.fault fault) ↔
      ∃ start stop, conditionNameAt text cursor = some (start, stop) ∧
        ((∃ hazard, fault = .hazard hazard ∧ parseCondition text start stop = .error hazard) ∨
          fault = .thrown .outOfRange ∧ parsed.numConditions = maxConditions ∧ ∃ conditionId,
              parseCondition text start stop = .ok (some conditionId)) := by
  have hcalm : ∀ {A : Type} {result : Except Stop A}, ¬ Faults result →
      result ≠ .error (.fault fault) := fun hcalm hfault => hcalm ⟨fault, hfault⟩
  rw [parsePartFour, conditionNameAt]
  split
  · -- A disabled condition.
    cases hfind : find text 40 ((cursor.advance 1 cursor.expecting).skipNewlines text).pos with
    | none => simp [hfind, Cursor.fail]
    | some found => simp [hfind, beginCondition_fault_iff]
  · by_cases hbrace : charAt text cursor.pos = 125
    · simp [hbrace]
    · rw [if_neg hbrace]
      by_cases hactions : continuesWith text cursor.pos "ACTIONS" = true
      · rw [if_pos hactions, if_pos (.inr (.inl hactions))]
        exact iff_of_false (hcalm (by simp)) (by simp)
      · rw [if_neg hactions]
        by_cases hflags : continuesWith text cursor.pos "FLAGS" = true
        · rw [if_pos hflags, if_pos (.inr (.inr hflags))]
          exact iff_of_false (hcalm (by simp)) (by simp)
        · rw [if_neg hflags, if_neg (by simp [hbrace, hactions, hflags])]
          cases hfind : find text 40 cursor.pos with
          | none => simp [Cursor.fail]
          | some found => simp [beginCondition_fault_iff]

theorem beginAction_fault_iff :
    beginAction text cursor parsed actionEnd stateFlags = .error (.fault fault) ↔
      (∃ hazard, fault = .hazard hazard ∧ parseAction text cursor.pos actionEnd = .error hazard) ∨
      fault = .thrown .outOfRange ∧ parsed.numActions = maxActions ∧
        ∃ actionId, parseAction text cursor.pos actionEnd = .ok (some actionId) := by
  rw [beginAction, call_eq_fault]
  apply or_congr Iff.rfl
  constructor
  · rintro ⟨actionId, hparse, hfault⟩
    cases actionId with
    | none => exact absurd ⟨fault, hfault⟩ (not_faults_fail _)
    | some actionId =>
        simp only at hfault
        split at hfault
        · exact absurd ⟨fault, hfault⟩ (not_faults_fail _)
        · rename_i hcount
          rw [Parsed.addAction] at hfault
          split at hfault
          · cases hfault
          · cases hfault
            exact ⟨rfl, by omega, actionId, hparse⟩
  · rintro ⟨rfl, hcount, actionId, hparse⟩
    refine ⟨some actionId, hparse, ?_⟩
    simp only [hcount, Nat.lt_irrefl, if_false, Parsed.addAction]
    rfl

theorem parsePartSeven_fault_iff : parsePartSeven text cursor parsed = .error (.fault fault) ↔
      ∃ start stop, actionNameAt text cursor = some (start, stop) ∧
        ((∃ hazard, fault = .hazard hazard ∧ parseAction text start stop = .error hazard) ∨
          fault = .thrown .outOfRange ∧ parsed.numActions = maxActions ∧ ∃ actionId,
              parseAction text start stop = .ok (some actionId)) := by
  rw [parsePartSeven, actionNameAt]
  split
  · -- A disabled action.
    simp only [Cursor.pos_advance]
    cases hfind : find text 40 (cursor.pos + 1) with
    | none => simp
    | some found => simp [beginAction_fault_iff]
  · by_cases hbrace : charAt text cursor.pos = 125
    · simp [hbrace]
    · rw [if_neg hbrace]
      by_cases hflags : continuesWith text cursor.pos "FLAGS" = true
      · rw [if_pos hflags, if_pos (.inr hflags)]
        apply iff_of_false
        · exact fun hfault => not_faults_stepOver _ _ _ (faults_map.mp ⟨fault, hfault⟩)
        · simp
      · rw [if_neg hflags, if_neg (by simp [hbrace, hflags])]
        cases hfind : find text 40 cursor.pos with
        | none => simp [Cursor.fail]
        | some found => simp [beginAction_fault_iff]

theorem parsePartFive_fault_iff :
    parsePartFive input conditionId argIndex cursor parsed = .error (.fault fault) ↔
      ∃ argument argEnd hazard, argumentAt input.text conditionId.textArguments argIndex cursor =
          some (argument, argEnd) ∧ fault = .hazard hazard ∧
        parseConditionArg input argument cursor.pos argEnd
          parsed.currCondition cursor.nextString = .error hazard := by
  rw [parsePartFive, argumentAt]
  split
  · apply iff_of_false
    · intro hfault
      split at hfault
      · cases hfault
      · exact not_faults_stepOver _ _ _ (faults_map.mp ⟨fault, hfault⟩)
    · simp
  · cases conditionId.textArguments[argIndex]? with
    | none => simp [Cursor.fail]
    | some argument =>
        simp only [Option.bind_some, decide_eq_true_eq]
        cases find input.text (if conditionId.textArguments.length ≤
            argIndex + 1 then 41 else 44) cursor.pos with
        | none => simp [Cursor.fail]
        | some argEnd =>
            refine (call_eq_fault_iff ?_).trans ?_
            · rintro ⟨value, nextString⟩
              cases value <;> simp [pure, Except.pure]
            · simp

theorem parsePartEight_fault_iff :
    parsePartEight input actionId argIndex cursor parsed = .error (.fault fault) ↔
      ∃ argument argEnd hazard, argumentAt input.text actionId.textArguments argIndex cursor =
          some (argument, argEnd) ∧ fault = .hazard hazard ∧
        parseActionArg input argument cursor.pos argEnd parsed.currAction
          cursor.nextString = .error hazard := by
  rw [parsePartEight, argumentAt]
  split
  · apply iff_of_false
    · intro hfault
      split at hfault
      · cases hfault
      · exact not_faults_stepOver _ _ _ (faults_map.mp ⟨fault, hfault⟩)
    · simp
  · cases actionId.textArguments[argIndex]? with
    | none => simp [Cursor.fail]
    | some argument =>
        simp only [Option.bind_some, decide_eq_true_eq]
        cases find input.text (if actionId.textArguments.length ≤
            argIndex + 1 then 41 else 44) cursor.pos with
        | none => simp [Cursor.fail]
        | some argEnd =>
            refine (call_eq_fault_iff ?_).trans ?_
            · rintro ⟨value, nextString⟩
              cases value <;> simp [pure, Except.pure]
            · simp

theorem parsePartTen_fault_iff : parsePartTen text cursor parsed = .error (.fault fault) ↔
      charAt text cursor.pos ≠ 59 ∧ ∃ flagsEnd hazard, find text 59 cursor.pos = some flagsEnd ∧
          fault = .hazard hazard ∧
          parseExecutionFlags text cursor.pos flagsEnd = .error hazard := by
  rw [parsePartTen]
  split
  · rename_i hsemicolon
    simp [hsemicolon]
  · rename_i hsemicolon
    cases find text 59 cursor.pos with
    | none => simp [Cursor.fail]
    | some flagsEnd =>
        refine (call_eq_fault_iff ?_).trans ?_
        · intro flags
          cases flags <;> simp [pure, Except.pure]
        · simp [hsemicolon]

/-- The parser stands in front of something whose reading meets a hazard. -/
def StandsAtHazard (input : CompilerInput) (state : ParserState) (hazard : Hazard) : Prop :=
  let (cursor, parsed) := state
  match cursor.expecting with
  | .playerOrEndOfPlayers =>
      charAt input.text cursor.pos ≠ 41 ∧ ∃ stop, playerEnd input.text cursor.pos = some stop ∧
          parseExecutingPlayer input cursor.pos stop cursor.nextString = .error hazard
  | .conditionStartOrNonConditionSectionStart =>
      ∃ start stop, conditionNameAt input.text cursor = some (start, stop) ∧
        parseCondition input.text start stop = .error hazard
  | .conditionArgOrEndOfCondition conditionId argIndex =>
      ∃ argument argEnd, argumentAt input.text conditionId.textArguments argIndex cursor =
          some (argument, argEnd) ∧
        parseConditionArg input argument cursor.pos argEnd
          parsed.currCondition cursor.nextString = .error hazard
  | .actionStartOrFlagSectionStartOrEndOfTrigger =>
      ∃ start stop, actionNameAt input.text cursor = some (start, stop) ∧
        parseAction input.text start stop = .error hazard
  | .actionArgOrEndOfAction actionId argIndex =>
      ∃ argument argEnd, argumentAt input.text actionId.textArguments argIndex cursor =
          some (argument, argEnd) ∧
        parseActionArg input argument cursor.pos argEnd parsed.currAction
          cursor.nextString = .error hazard
  | .executionFlags =>
      charAt input.text cursor.pos ≠ 59 ∧
        ∃ flagsEnd, find input.text 59 cursor.pos = some flagsEnd ∧
          parseExecutionFlags input.text cursor.pos flagsEnd = .error hazard
  | _ => False

/-- A name is read with a hazard, or there is no room for what it names. -/
theorem exists_fault_iff {named throws : ℕ → ℕ → Prop}
    {meets : ℕ → ℕ → Hazard → Prop} :
    (∃ (fault : Fault Exception) (start stop : ℕ), named start stop ∧
        ((∃ hazard, fault = .hazard hazard ∧ meets start stop hazard) ∨
          fault = .thrown .outOfRange ∧ throws start stop)) ↔
      ∃ start stop, named start stop ∧
        ((∃ hazard, meets start stop hazard) ∨ throws start stop) := by
  constructor
  · rintro ⟨fault, start, stop, hnamed, ⟨hazard, -, hmeets⟩ | ⟨-, hthrows⟩⟩
    · exact ⟨start, stop, hnamed, .inl ⟨hazard, hmeets⟩⟩
    · exact ⟨start, stop, hnamed, .inr hthrows⟩
  · rintro ⟨start, stop, hnamed, ⟨hazard, hmeets⟩ | hthrows⟩
    · exact ⟨.hazard hazard, start, stop, hnamed, .inl ⟨hazard, rfl, hmeets⟩⟩
    · exact ⟨.thrown .outOfRange, start, stop, hnamed, .inr ⟨rfl, hthrows⟩⟩

/-- A part faults exactly where the parser stands at a fault. -/
theorem faults_parsePart_iff : Faults (parsePart input state) ↔ StandsAtFault input state := by
  obtain ⟨cursor, parsed⟩ := state
  simp only [parsePart, StandsAtFault]
  cases hexpecting : cursor.expecting with
  | triggerOrEndOfText => simp [not_faults_parsePartZero]
  | playerOrEndOfPlayers => simp [Faults, parsePartOne_fault_iff]
  | openTriggerBody => simp [parsePartTwo]
  | sectionStartOrEndOfTrigger => simp [not_faults_parsePartThree]
  | conditionStartOrNonConditionSectionStart =>
      simp only [Faults, parsePartFour_fault_iff]
      exact exists_fault_iff
  | conditionArgOrEndOfCondition => simp [Faults, parsePartFive_fault_iff]
  | nonConditionSectionStartOrEndOfTrigger => simp [not_faults_parsePartSix]
  | actionStartOrFlagSectionStartOrEndOfTrigger =>
      simp only [Faults, parsePartSeven_fault_iff]
      exact exists_fault_iff
  | actionArgOrEndOfAction => simp [Faults, parsePartEight_fault_iff]
  | flagSectionStartOrEndOfTrigger => simp [not_faults_parsePartNine]
  | executionFlags => simp [Faults, parsePartTen_fault_iff]
  | endOfTrigger => simp [parsePartEleven]
  | last => simp

/-- A part meets a hazard exactly where the parser stands at it. -/
theorem parsePart_hazard_iff {hazard : Hazard} :
    parsePart input state = .error (.fault (.hazard hazard)) ↔
      StandsAtHazard input state hazard := by
  have hcalm : ∀ {A : Type} {result : Except Stop A}, ¬ Faults result →
      (result = .error (.fault (.hazard hazard)) ↔ False) :=
    fun hcalm => iff_false_intro fun hfault => hcalm ⟨_, hfault⟩
  obtain ⟨cursor, parsed⟩ := state
  simp only [parsePart, StandsAtHazard]
  cases hexpecting : cursor.expecting with
  | triggerOrEndOfText => exact hcalm not_faults_parsePartZero
  | playerOrEndOfPlayers => simp [parsePartOne_fault_iff]
  | openTriggerBody => exact hcalm (by simp [parsePartTwo])
  | sectionStartOrEndOfTrigger => exact hcalm (by simp [not_faults_parsePartThree])
  | conditionStartOrNonConditionSectionStart =>
      simp [parsePartFour_fault_iff]
  | conditionArgOrEndOfCondition => simp [parsePartFive_fault_iff]
  | nonConditionSectionStartOrEndOfTrigger =>
      exact hcalm (by simp [not_faults_parsePartSix])
  | actionStartOrFlagSectionStartOrEndOfTrigger =>
      simp [parsePartSeven_fault_iff]
  | actionArgOrEndOfAction => simp [parsePartEight_fault_iff]
  | flagSectionStartOrEndOfTrigger =>
      exact hcalm (by simp [not_faults_parsePartNine])
  | executionFlags => simp [parsePartTen_fault_iff]
  | endOfTrigger => exact hcalm (by simp [parsePartEleven])
  | last => exact hcalm (by simp)

end Parts

/-- The parser gets to a place where it stands at a fault. -/
def MeetsFault (input : CompilerInput) (nodes : List StringTableNode) : Prop :=
  ∃ state, Loop.Reaches (parsePass input) (.start, .start nodes) state ∧
    state.1.pos < input.text.length ∧
    charAt input.text state.1.pos ≠ newline ∧ StandsAtFault input state

theorem parsePass_fault_iff {input : CompilerInput} :
    (∃ fault, parsePass input state = .done (.error (.fault fault))) ↔
      state.1.pos < input.text.length ∧ charAt input.text state.1.pos ≠ newline ∧
        StandsAtFault input state := by
  simp only [parsePass_error_iff, ← faults_parsePart_iff, Faults, exists_and_left]

theorem faults_parseTriggers_iff {input : CompilerInput}
    (hnul : EndsWithNul input.text) (nodes : List StringTableNode) :
    Faults (parseTriggers input nodes) ↔ MeetsFault input nodes := by
  simp only [Faults, parseTriggers_eq_iff hnul, Loop.returns_iff_reaches_done,
    MeetsFault, ← parsePass_fault_iff]
  constructor
  · rintro ⟨fault, state, hreaches, hpass⟩
    exact ⟨state, hreaches, fault, hpass⟩
  · rintro ⟨state, hreaches, fault, hpass⟩
    exact ⟨fault, state, hreaches, hpass⟩

def SaysExpected {A : Type} (result : Except Stop A) : Prop :=
  ∀ error, result = .error (.textError error) → error.message.toList.head? = some 'E'

section SaysExpected

variable {A B : Type} {cursor : Cursor} {text : Text}

theorem saysExpected_ok (value : A) : SaysExpected (.ok value : Except Stop A) := nofun

theorem saysExpected_fail (hmessage : message.toList.head? = some 'E') :
    SaysExpected (cursor.fail message : Except Stop A) := by
  intro error herror
  cases herror
  exact hmessage

theorem saysExpected_stepOver {character : UInt8} {expecting : Expecting}
    (hmessage : message.toList.head? = some 'E') :
    SaysExpected (cursor.stepOver text character message expecting) := by
  rw [Cursor.stepOver]
  split
  · exact saysExpected_ok _
  · exact saysExpected_fail hmessage

theorem SaysExpected.map {result : Except Stop A} {change : A → B}
    (hresult : SaysExpected result) : SaysExpected (result.map change) := by
  intro error herror
  cases result with
  | ok value => cases herror
  | error stop =>
      cases herror
      exact hresult _ rfl

theorem saysExpected_call {result : Except Hazard A}
    {rest : A → Except Stop B} (hrest : ∀ value, SaysExpected (rest value)) :
    SaysExpected (Stop.ofHazard result >>= rest) := by
  intro error herror
  cases result with
  | error hazard => cases herror
  | ok value => exact hrest value error herror

end SaysExpected

section Parts

variable {input : CompilerInput} {text : Text} {cursor : Cursor}
  {parsed : Parsed}

theorem saysExpected_beginCondition (hcount : parsed.numConditions ≤ maxConditions) :
    SaysExpected (beginCondition text cursor parsed conditionEnd stateFlags) := by
  apply saysExpected_call
  intro conditionId
  cases conditionId with
  | none => exact saysExpected_fail rfl
  | some conditionId =>
      simp only
      rw [if_neg (Nat.not_lt.mpr hcount), Parsed.addCondition]
      split
      · exact (saysExpected_stepOver rfl).map
      · intro error hfaults
        cases hfaults

theorem saysExpected_beginAction (hcount : parsed.numActions ≤ maxActions) :
    SaysExpected (beginAction text cursor parsed actionEnd stateFlags) := by
  apply saysExpected_call
  intro actionId
  cases actionId with
  | none => exact saysExpected_fail rfl
  | some actionId =>
      simp only
      rw [if_neg (Nat.not_lt.mpr hcount), Parsed.addAction]
      split
      · intro error hfaults
        cases hfaults
      · intro error hfaults
        cases hfaults

-- Stated for the list of a literal, so that no text is decoded.
theorem head_ofList (first : Char) (rest : List Char) :
    (String.ofList (first :: rest)).toList.head? = some first := by
  rw [String.toList_ofList]
  rfl

theorem head_expectedConditionArg (useAddressesForMemory : Bool) (argument : ConditionArgument) :
    (expectedConditionArg useAddressesForMemory argument).toList.head? = some 'E' := by
  cases argument with
  | memoryOffset =>
      cases useAddressesForMemory <;> exact head_ofList 'E' _
  | _ => exact head_ofList 'E' _

theorem saysExpected_parsePartOne : SaysExpected (parsePartOne input cursor parsed) := by
  simp only [parsePartOne]
  split
  · exact saysExpected_ok _
  · split
    · exact saysExpected_fail rfl
    · apply saysExpected_call
      rintro ⟨player, nextString⟩
      cases player with
      | none => exact saysExpected_fail rfl
      | some player => exact saysExpected_ok _

theorem saysExpected_parsePartFive :
    SaysExpected (parsePartFive input conditionId argIndex cursor parsed) := by
  simp only [parsePartFive]
  split
  · split
    · exact saysExpected_fail rfl
    · exact (saysExpected_stepOver rfl).map
  · split
    · exact saysExpected_fail rfl
    · split
      · exact saysExpected_fail (by split <;> rfl)
      · apply saysExpected_call
        rintro ⟨condition, nextString⟩
        cases condition with
        | none =>
            exact saysExpected_fail (head_expectedConditionArg _ _)
        | some condition => exact saysExpected_ok _

theorem saysExpected_parsePartEight :
    SaysExpected (parsePartEight input actionId argIndex cursor parsed) := by
  simp only [parsePartEight]
  split
  · split
    · exact saysExpected_fail rfl
    · exact (saysExpected_stepOver rfl).map
  · split
    · exact saysExpected_fail rfl
    · split
      · exact saysExpected_fail (by split <;> rfl)
      · apply saysExpected_call
        rintro ⟨effect, nextString⟩
        cases effect with
        | none =>
            apply saysExpected_fail
            rw [String.toList_append]
            rfl
        | some effect => exact saysExpected_ok _

theorem saysExpected_parsePartTen : SaysExpected (parsePartTen text cursor parsed) := by
  simp only [parsePartTen]
  split
  · exact saysExpected_ok _
  · split
    · exact saysExpected_fail rfl
    · apply saysExpected_call
      intro flags
      cases flags with
      | none => exact saysExpected_fail rfl
      | some flags => exact saysExpected_ok _

theorem saysExpected_parsePart (hconditions : state.2.numConditions ≤ maxConditions)
    (hactions : state.2.numActions ≤ maxActions) :
    SaysExpected (parsePart input state) := by
  obtain ⟨cursor, parsed⟩ := state
  simp only [parsePart]
  cases cursor.expecting with
  | triggerOrEndOfText =>
      apply SaysExpected.map
      split
      · exact saysExpected_ok _
      · split <;> exact saysExpected_stepOver rfl
  | playerOrEndOfPlayers => exact saysExpected_parsePartOne
  | openTriggerBody => exact (saysExpected_stepOver rfl).map
  | sectionStartOrEndOfTrigger =>
      apply SaysExpected.map
      rw [parsePartThree]
      repeat' split
      all_goals
        first
        | exact saysExpected_ok _
        | exact saysExpected_stepOver rfl
        | exact saysExpected_fail rfl
  | conditionStartOrNonConditionSectionStart =>
      simp only [parsePartFour]
      repeat' split
      all_goals
        first
        | exact saysExpected_ok _
        | exact saysExpected_beginCondition hconditions
        | exact (saysExpected_stepOver rfl).map
        | exact saysExpected_fail rfl
  | conditionArgOrEndOfCondition conditionId argIndex =>
      exact saysExpected_parsePartFive
  | nonConditionSectionStartOrEndOfTrigger =>
      apply SaysExpected.map
      rw [parsePartSix]
      repeat' split
      all_goals
        first
        | exact saysExpected_ok _
        | exact saysExpected_fail rfl
  | actionStartOrFlagSectionStartOrEndOfTrigger =>
      simp only [parsePartSeven]
      repeat' split
      all_goals
        first
        | exact saysExpected_ok _
        | exact saysExpected_beginAction hactions
        | exact (saysExpected_stepOver rfl).map
        | exact saysExpected_fail rfl
  | actionArgOrEndOfAction actionId argIndex =>
      exact saysExpected_parsePartEight
  | flagSectionStartOrEndOfTrigger =>
      apply SaysExpected.map
      rw [parsePartNine]
      repeat' split
      all_goals
        first
        | exact saysExpected_ok _
        | exact saysExpected_fail rfl
  | executionFlags => exact saysExpected_parsePartTen
  | endOfTrigger => exact (saysExpected_stepOver rfl).map
  | last => exact saysExpected_ok _

/-- No trigger gets more conditions or actions than it has room for. -/
theorem counts_le (hnul : EndsWithNul input.text)
    (hreaches : Loop.Reaches (parsePass input) (.start, .start nodes) state) :
    state.2.numConditions ≤ maxConditions ∧ state.2.numActions ≤ maxActions := by
  apply partStep_invariant hnul hreaches
  · exact ⟨Nat.zero_le _, Nat.zero_le _⟩
  · rintro state following ⟨hconditions, hactions⟩ hstep
    cases hstep with
    | moves | begins | owner | conditionArg | flags =>
        exact ⟨hconditions, hactions⟩
    | condition _ _ hadded =>
        rw [Parsed.addCondition] at hadded
        split at hadded
        · rename_i hroom
          cases hadded
          exact ⟨hroom, hactions⟩
        · cases hadded
    | action _ _ hadded =>
        rw [Parsed.addAction] at hadded
        split at hadded
        · rename_i hroom
          cases hadded
          exact ⟨hconditions, hroom⟩
        · cases hadded
    | @actionArg _ _ _ _ _ _ _ _ effect =>
        cases effect with
        | set action => exact ⟨hconditions, hactions⟩
        | refer isSound content =>
            simp only [Parsed.applyEffect, Parsed.refer]
            split <;> exact ⟨hconditions, hactions⟩
    | finishes => exact ⟨Nat.zero_le _, Nat.zero_le _⟩

end Parts

theorem saysExpected_parseTriggers {input : CompilerInput}
    (hnul : EndsWithNul input.text) (nodes : List StringTableNode) :
    SaysExpected (parseTriggers input nodes) := by
  intro error herror
  rw [parseTriggers_eq_iff hnul, Loop.returns_iff_reaches_done] at herror
  obtain ⟨state, hreaches, hpass⟩ := herror
  obtain ⟨hconditions, hactions⟩ := counts_le hnul hreaches
  have hpart := @saysExpected_parsePart state input hconditions hactions
  exact hpart error (parsePass_error_iff.mp hpass).2.2

theorem mapM_returns_iff {E A B : Type} {read : A → Except E B}
    {elements : List A} :
    (∃ values, elements.mapM read = .ok values) ↔
      ∀ element ∈ elements, ∃ value, read element = .ok value := by
  induction elements with
  | nil => simp [pure, Except.pure]
  | cons element rest ih =>
      simp only [List.mapM_cons, Fault.bind_eq_ok_iff, List.forall_mem_cons, ← ih]
      constructor
      · rintro ⟨values, value, hvalue, others, hothers, -⟩
        exact ⟨⟨value, hvalue⟩, others, hothers⟩
      · rintro ⟨⟨value, hvalue⟩, others, hothers⟩
        exact ⟨_, value, hvalue, others, hothers, rfl⟩

theorem prepLocationTable_returns_iff (scenario : LoadedScenario) :
    (∃ table, prepLocationTable scenario = .ok table) ↔ scenario.locations.length ≤ 256 := by
  have hread : ∀ location locationId, (∃ entries, locationEntries scenario locationId location =
        .ok entries) ↔ locationId ≤ 255 := by
    intro location locationId
    rw [locationEntries]
    split
    · rename_i hanywhere
      simp [hanywhere, anywhere]
    · split
      · rename_i hbeyond
        simp
        omega
      · rename_i hwithin
        simp
        omega
  have htable : (∃ table, prepLocationTable scenario = .ok table) ↔
      ∃ entries, (scenario.locations.tail.zipIdx 1).mapM
        (fun entry => locationEntries scenario entry.2 entry.1) = .ok entries := by
    simp only [prepLocationTable, Fault.bind_eq_ok_iff]
    constructor
    · rintro ⟨table, entries, hentries, -⟩
      exact ⟨entries, hentries⟩
    · rintro ⟨entries, hentries⟩
      exact ⟨_, entries, hentries, rfl⟩
  rw [htable, mapM_returns_iff]
  simp only [hread]
  constructor
  · intro hall
    by_contra hmany
    have hlt : 255 < scenario.locations.tail.length := by
      rw [List.length_tail]
      omega
    have hmem : (scenario.locations.tail[255], 256) ∈ scenario.locations.tail.zipIdx 1 :=
      List.mk_mem_zipIdx_iff_le_and_getElem?_sub.mpr ⟨by decide, List.getElem?_eq_getElem hlt⟩
    exact absurd (hall _ hmem) (Nat.not_succ_le_self 255)
  · rintro hfew ⟨location, locationId⟩ hmem
    have hbound := List.snd_lt_add_of_mem_zipIdx hmem
    rw [List.length_tail] at hbound
    omega

theorem loadCompiler_returns_iff (scenario : LoadedScenario)
    (namedScripts trigIndexBegin trigIndexEnd : ℕ) :
    (∃ loaded, loadCompiler scenario namedScripts trigIndexBegin trigIndexEnd = .ok loaded) ↔
      scenario.locations.length ≤ 256 ∧ stringTablesInRange scenario = true := by
  rw [← prepLocationTable_returns_iff]
  simp only [loadCompiler, Fault.bind_eq_ok_iff, Fault.mapError_eq_ok_iff]
  constructor
  · rintro ⟨loaded, table, htable, hloaded⟩
    split at hloaded
    · rename_i hrange
      exact ⟨⟨table, htable⟩, hrange⟩
    · cases hloaded
  · rintro ⟨⟨table, htable⟩, hrange⟩
    exact ⟨_, table, htable, if_pos hrange⟩

/-- What the parser is given for a text that is compiled. -/
def CompilerInput.of (settings : CompilerSettings) (tables : NameTables)
    (cleaned : Text) (stringContents : List Text) : CompilerInput where
  text := cleaned ++ [0]
  stringContents := stringContents
  tables := tables
  useAddressesForMemory := settings.useAddressesForMemory
  deathTableOffset := settings.deathTableOffset

section Returns

variable {settings : CompilerSettings} {scenario : LoadedScenario}
  {text : Text} {trigIndexBegin trigIndexEnd : ℕ}

/-- Once the tables are loaded and the text is clean, only the parser can
fault. -/
theorem parseText_returns_iff_of_loaded {tables : NameTables} {cleaned : Text}
    {stringContents : List Text}
    (hload : loadCompiler scenario settings.namedScripts trigIndexBegin
      trigIndexEnd = .ok (tables, nodes))
    (hclean : cleanText text = some (cleaned, stringContents)) :
    (∃ result, parseText settings scenario text trigIndexBegin trigIndexEnd = .ok result) ↔
      ¬ MeetsFault (.of settings tables cleaned stringContents) nodes := by
  have hnul : EndsWithNul (CompilerInput.of settings tables cleaned
      stringContents).text := ⟨cleaned, rfl⟩
  rw [← faults_parseTriggers_iff hnul nodes, parseText, hload, hclean, CompilerInput.of]
  simp only [bind, Except.bind]
  cases parseTriggers _ nodes with
  | ok parsed => simp
  | error stop =>
      cases stop with
      | textError error => simp [Faults]
      | fault fault => simp [Faults]

theorem parseText_returns_iff :
    (∃ result, parseText settings scenario text trigIndexBegin trigIndexEnd = .ok result) ↔
      scenario.locations.length ≤ 256 ∧
        stringTablesInRange scenario = true ∧ ¬ MeetsOpenLiteral text ∧
        ∀ tables nodes cleaned stringContents,
          loadCompiler scenario settings.namedScripts trigIndexBegin
            trigIndexEnd = .ok (tables, nodes) →
          cleanText text = some (cleaned, stringContents) →
          ¬ MeetsFault (.of settings tables cleaned stringContents) nodes := by
  rw [← and_assoc, ← loadCompiler_returns_iff scenario settings.namedScripts
    trigIndexBegin trigIndexEnd, ← cleanText_eq_none_iff]
  constructor
  · rintro ⟨result, hresult⟩
    have hparse := hresult
    rw [parseText, Fault.bind_eq_ok_iff] at hparse
    obtain ⟨⟨tables, nodes⟩, hload, hparse⟩ := hparse
    refine ⟨⟨_, hload⟩, ?_, ?_⟩
    · intro hclean
      rw [hclean] at hparse
      cases hparse
    · intro tables nodes cleaned stringContents hload hclean
      exact (parseText_returns_iff_of_loaded hload hclean).mp ⟨result, hresult⟩
  · rintro ⟨⟨⟨tables, nodes⟩, hload⟩, hclean, hnone⟩
    obtain ⟨⟨cleaned, stringContents⟩, hclean⟩ := Option.ne_none_iff_exists'.mp hclean
    exact (parseText_returns_iff_of_loaded hload hclean).mpr (hnone _ _ _ _ hload hclean)

/-- There is room for the strings of triggers that replace a range. -/
def RoomForStrings (scenario : LoadedScenario) (trigIndexBegin
    trigIndexEnd : ℕ) (parsed : Parsed) : Prop :=
  (assignStrings trigIndexBegin parsed.unassignedStrings
    (withTriggers scenario (scenario.trig.take trigIndexBegin ++ parsed.output ++
        scenario.trig.drop trigIndexEnd)).withoutUnusedStrings).1 = true

/-- A map is built or rolled back unless the range to roll back is longer than
the list that was left. -/
theorem buildNewMap_returns_iff (hlt : trigIndexBegin < trigIndexEnd)
    (hle : trigIndexEnd ≤ scenario.trig.length) {parsed : Parsed}
    (hrange : stringTablesInRange scenario = true) :
    (∃ result, buildNewMap scenario trigIndexBegin trigIndexEnd parsed = .ok result) ↔
      RoomForStrings scenario trigIndexBegin trigIndexEnd parsed ∨ trigIndexBegin = 0 ∨
        trigIndexEnd ≤ trigIndexBegin + parsed.output.length +
          (scenario.trig.length - trigIndexEnd) := by
  rcases @replaceRange_cases scenario.trig _ _ parsed.output hlt hle with
    ⟨rfl, -, hreplace⟩ | ⟨hpart, hreplace⟩
  · -- The whole list was exchanged, and can be exchanged again.
    rw [buildNewMap_eq hrange hreplace]
    apply iff_of_true _ (.inr (.inl rfl))
    split
    · exact ⟨_, rfl⟩
    · rw [replaceRange, if_pos ⟨rfl, Nat.zero_add _⟩]
      exact ⟨_, rfl⟩
  · rw [buildNewMap_eq hrange hreplace, RoomForStrings]
    obtain ⟨success, built, hassign⟩ : ∃ success built,
        assignStrings trigIndexBegin parsed.unassignedStrings
          (withTriggers scenario (scenario.trig.take trigIndexBegin ++ parsed.output ++
              scenario.trig.drop trigIndexEnd)).withoutUnusedStrings =
          (success, built) := ⟨_, _, rfl⟩
    rw [hassign]
    cases success with
    | true => simp
    | false =>
        have hbuilt : built.trig.length = trigIndexBegin + parsed.output.length +
              (scenario.trig.length - trigIndexEnd) := by
          obtain ⟨strings, stringIds, rfl, -⟩ := assignStrings_spec hassign
          simp only [length_assignAll, LoadedScenario.withoutUnusedStrings, withTriggers,
            List.length_append, List.length_take, List.length_drop]
          omega
        have hreplaced : ((scenario.trig.drop trigIndexBegin).take
            (trigIndexEnd - trigIndexBegin)).length = trigIndexEnd - trigIndexBegin := by
          rw [List.length_take, List.length_drop]
          omega
        simp only [Fault.map_eq_ok_iff, Fault.mapError_eq_ok_iff, Bool.false_eq_true, false_or]
        rw [hreplaced, Nat.add_sub_cancel' (Nat.le_of_lt hlt), replaceRange, hreplaced, ← hbuilt]
        by_cases hzero : trigIndexBegin = 0
        · rw [if_pos ⟨hzero, by omega⟩]
          exact iff_of_true ⟨_, _, rfl, rfl⟩ (.inl hzero)
        · rw [if_neg fun hboth => hzero hboth.1]
          by_cases hroom : trigIndexEnd ≤ built.trig.length
          · rw [if_pos ⟨hlt, hroom⟩]
            exact iff_of_true ⟨_, _, rfl, rfl⟩ (.inr hroom)
          · rw [if_neg fun hboth => hroom hboth.2]
            simp [hzero, hroom]

theorem compileTriggers_eq_ok_iff :
    (∃ report after, compileTriggers settings scenario text trigIndexBegin
      trigIndexEnd = .ok (report, after)) ↔
      (∃ result, parseText settings scenario text trigIndexBegin trigIndexEnd = .ok result) ∧
      ∀ parsed, parseText settings scenario text trigIndexBegin trigIndexEnd = .ok (.ok parsed) →
        ∃ result, buildNewMap scenario trigIndexBegin trigIndexEnd parsed = .ok result := by
  rw [compileTriggers]
  cases parseText settings scenario text trigIndexBegin trigIndexEnd with
  | error fault => simp [bind, Except.bind]
  | ok result =>
      cases result with
      | error error => simp [bind, Except.bind, pure, Except.pure]
      | ok parsed =>
          simp only [Except.ok.injEq, exists_eq', true_and, forall_eq']
          change (∃ report after, (buildNewMap scenario trigIndexBegin
            trigIndexEnd parsed >>= _) = .ok (report, after)) ↔ _
          cases buildNewMap scenario trigIndexBegin trigIndexEnd parsed with
          | error fault => simp [bind, Except.bind]
          | ok pair =>
              obtain ⟨success, built⟩ := pair
              apply iff_of_true _ ⟨_, rfl⟩
              cases success with
              | true => exact ⟨_, _, rfl⟩
              | false => exact ⟨_, _, rfl⟩

theorem parseText_error_says_expected {error : TextError}
    (hparse : parseText settings scenario text trigIndexBegin trigIndexEnd =
      .ok (.error error)) : error.message.toList.head? = some 'E' := by
  rw [parseText, Fault.bind_eq_ok_iff] at hparse
  obtain ⟨⟨tables, nodes⟩, -, hparse⟩ := hparse
  simp only at hparse
  split at hparse
  · cases hparse
  · rename_i cleaned stringContents hclean
    split at hparse
    · cases hparse
    · rename_i other hother
      cases hparse
      exact saysExpected_parseTriggers ⟨cleaned, rfl⟩ nodes error hother
    · cases hparse

/-- A compilation returns exactly when the tables fit, every quoted text is
closed, the parser meets no fault, and the list still has the range when strings
do not fit.  The number of conditions or actions is never the reason for a text
error: a full trigger is accepted, and one more of either is a fault. -/
theorem compileTriggers_returns_iff (hlt : trigIndexBegin < trigIndexEnd)
    (hle : trigIndexEnd ≤ scenario.trig.length) :
    ((∃ report after, compileTriggers settings scenario text trigIndexBegin
      trigIndexEnd = .ok (report, after)) ↔
      scenario.locations.length ≤ 256 ∧
      stringTablesInRange scenario = true ∧
      ¬ MeetsOpenLiteral text ∧
      (∀ tables nodes cleaned stringContents,
        loadCompiler scenario settings.namedScripts trigIndexBegin
          trigIndexEnd = .ok (tables, nodes) →
        cleanText text = some (cleaned, stringContents) →
        ¬ MeetsFault (.of settings tables cleaned stringContents) nodes) ∧
      ∀ parsed, parseText settings scenario text trigIndexBegin trigIndexEnd = .ok (.ok parsed) →
        RoomForStrings scenario trigIndexBegin trigIndexEnd parsed ∨ trigIndexBegin = 0 ∨
          trigIndexEnd ≤ trigIndexBegin + parsed.output.length +
            (scenario.trig.length - trigIndexEnd)) ∧
    ∀ error after, compileTriggers settings scenario text trigIndexBegin
        trigIndexEnd = .ok (.textError error, after) →
      error.message ≠ "Condition Max Exceeded!" ∧
        error.message ≠ "Action Max Exceeded!" := by
  constructor
  · rw [compileTriggers_eq_ok_iff, parseText_returns_iff, and_assoc, and_assoc, and_assoc]
    apply and_congr_right
    intro _
    apply and_congr_right
    intro hrange
    apply and_congr_right
    intro _
    apply and_congr_right
    intro _
    apply forall_congr'
    intro parsed
    apply imp_congr_right
    intro _
    exact buildNewMap_returns_iff hlt hle hrange
  · intro error after hcompile
    rcases compileTriggers_cases hcompile with
      ⟨other, hparse, hreport, -⟩ | ⟨_, success, _, -, -, hreport⟩
    · cases hreport
      have hhead := parseText_error_says_expected hparse
      constructor
      · intro hmessage
        rw [hmessage] at hhead
        exact absurd hhead (by decide)
      · intro hmessage
        rw [hmessage] at hhead
        exact absurd hhead (by decide)
    · cases success <;> cases hreport.1

end Returns

def countedTrigger (conditions : ℕ) : Text :=
  ascii "Trigger()\x7bConditions:" ++
    (List.replicate conditions (ascii "Always();")).flatten ++ ascii "\x7d"

/-- One condition more than a trigger has room for. -/
theorem compileTriggers_throws : ∃ settings scenario text trigIndexBegin trigIndexEnd,
      trigIndexBegin < trigIndexEnd ∧ trigIndexEnd ≤ scenario.trig.length ∧
      compileTriggers settings scenario text trigIndexBegin trigIndexEnd =
        .error (.thrown .outOfRange) := by
  have hthrows : (match compileTriggers ⟨false, 0, 0⟩
      (bareScenario [blankTrigger] []) (countedTrigger 17) 0 1 with
      | .error fault => some fault
      | .ok _ => none) = some (.thrown .outOfRange) := by
    decide +kernel
  refine ⟨⟨false, 0, 0⟩, bareScenario [blankTrigger] [], countedTrigger 17,
    0, 1, by decide, by decide, ?_⟩
  cases hcompile : compileTriggers ⟨false, 0, 0⟩
      (bareScenario [blankTrigger] []) (countedTrigger 17) 0 1 with
  | error fault =>
      rw [hcompile] at hthrows
      rw [Option.some.inj hthrows]
  | ok result =>
      rw [hcompile] at hthrows
      cases hthrows

/-- A trigger that is full of conditions is compiled, and meets no fault. -/
theorem compileTriggers_full_trigger :
    ∃ after, compileTriggers ⟨false, 0, 0⟩ (bareScenario [blankTrigger] [])
        (countedTrigger 16) 0 1 = .ok (.compiled, after) ∧
      ∀ tables nodes cleaned stringContents,
        loadCompiler (bareScenario [blankTrigger] []) 0 0 1 = .ok (tables, nodes) →
        cleanText (countedTrigger 16) = some (cleaned, stringContents) →
        ¬ MeetsFault (.of ⟨false, 0, 0⟩ tables cleaned stringContents)
          nodes := by
  obtain ⟨⟨report, after⟩, hcompile, hreport⟩ : ∃ result,
      compileTriggers ⟨false, 0, 0⟩ (bareScenario [blankTrigger] [])
        (countedTrigger 16) 0 1 = .ok result ∧
        result.1 = .compiled :=
    Fault.exists_ok_of_toOption_map (by decide +kernel)
  obtain rfl : report = .compiled := hreport
  obtain ⟨hreturns, -⟩ := @compileTriggers_returns_iff ⟨false, 0, 0⟩
    (bareScenario [blankTrigger] []) (countedTrigger 16) 0 1 (by decide)
    (by decide)
  exact ⟨after, hcompile, (hreturns.mp ⟨_, _, hcompile⟩).2.2.2.1⟩

end Chkdraft.TextTrigs
