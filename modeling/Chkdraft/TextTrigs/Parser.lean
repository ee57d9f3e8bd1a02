import Chkdraft.TextTrigs.Arguments

/-!
# Parsing trigger text

`parseTriggers` is a state machine over the cleaned text.  Each pass of its loop
skips a line end or runs the part for what is expected next; a part moves the
cursor and may extend the triggers parsed so far.  The parser stops with a text
error, with an exception of the accessors it calls, or with the triggers.
-/

namespace Chkdraft.TextTrigs

open Chk Scan Sections Scenario

/-- A name as it is compared: with the beginning of the text, or with all of
it. -/
inductive NamePattern where
  | beginsWith (name : String)
  | exactly (name : String)

def NamePattern.matches (arg : Text) : NamePattern → Bool
  | .beginsWith name => continuesWith arg 0 name
  | .exactly name => arg = ascii name

/-- The comparisons of `parseConditionName` in their order; the nested ones are
written out. -/
def conditionNames : List (NamePattern × VirtualCondition) :=
  [(.beginsWith "ACCUMULATE", .accumulate), (.beginsWith "ALWAYS", .always),
    (.beginsWith "BRING", .bring),
    (.beginsWith "COMMANDTHELEASTAT", .commandTheLeastAt),
    (.exactly "COMMANDTHELEAST", .commandTheLeast),
    (.beginsWith "COMMANDTHEMOSTAT", .commandTheMostAt),
    (.exactly "COMMANDTHEMOST", .commandTheMost),
    (.beginsWith "COMMANDSTHEMOSTAT", .commandTheMostAt),
    (.exactly "COMMAND", .command),
    (.beginsWith "COUNTDOWNTIMER", .countdownTimer),
    (.beginsWith "CUSTOM", .custom), (.beginsWith "DEATHS", .deaths),
    (.beginsWith "ELAPSEDTIME", .elapsedTime),
    (.beginsWith "HIGHESTSCORE", .highestScore), (.beginsWith "KILL", .kill),
    (.beginsWith "LEASTKILLS", .leastKills),
    (.beginsWith "LEASTRESOURCES", .leastResources),
    (.beginsWith "LOWESTSCORE", .lowestScore), (.beginsWith "MEMORY", .memory),
    (.beginsWith "MOSTKILLS", .mostKills),
    (.beginsWith "MOSTRESOURCES", .mostResources),
    (.beginsWith "NEVER", .never), (.beginsWith "OPPONENTS", .opponents),
    (.beginsWith "SCORE", .score), (.beginsWith "SWITCH", .switch)]

/-- The comparisons of `parseAction`. -/
def actionNames : List (NamePattern × VirtualAction) :=
  [(.beginsWith "COMMENT", .comment),
    (.beginsWith "CREATEUNITWITHPROPERTIES", .createUnitWithProperties),
    (.exactly "CREATEUNIT", .createUnit),
    (.beginsWith "CENTERVIEW", .centerView), (.beginsWith "CUSTOM", .custom),
    (.beginsWith "DISPLAYTEXTMESSAGE", .displayTextMessage),
    (.beginsWith "DEFEAT", .defeat), (.beginsWith "DRAW", .draw),
    (.beginsWith "GIVEUNITSTOPLAYER", .giveUnitsToPlayer),
    (.beginsWith "KILLUNITATLOCATION", .killUnitAtLocation),
    (.exactly "KILLUNIT", .killUnit),
    (.beginsWith "LEADERBOARDGOALCONTROLATLOCATION", .leaderboardGoalCtrlAtLoc),
    (.exactly "LEADERBOARDGOALCONTROL", .leaderboardGoalCtrl),
    (.beginsWith "LEADERBOARDGOALKILLS", .leaderboardGoalKills),
    (.beginsWith "LEADERBOARDGOALPOINTS", .leaderboardGoalPoints),
    (.beginsWith "LEADERBOARDGOALRESOURCES", .leaderboardGoalResources),
    (.beginsWith "LEADERBOARDCONTROLATLOCATION", .leaderboardCtrlAtLoc),
    (.exactly "LEADERBOARDCONTROL", .leaderboardCtrl),
    (.beginsWith "LEADERBOARDGREED", .leaderboardGreed),
    (.beginsWith "LEADERBOARDKILLS", .leaderboardKills),
    (.beginsWith "LEADERBOARDPOINTS", .leaderboardPoints),
    (.beginsWith "LEADERBOARDRESOURCES", .leaderboardResources),
    (.beginsWith "LEADERBOARDCOMPUTERPLAYERS", .leaderboardCompPlayers),
    (.beginsWith "MEMORY", .setMemory), (.beginsWith "MOVEUNIT", .moveUnit),
    (.beginsWith "MOVELOCATION", .moveLocation),
    (.beginsWith "MODIFYUNITENERGY", .modifyUnitEnergy),
    (.beginsWith "MODIFYUNITHANGERCOUNT", .modifyUnitHangerCount),
    (.beginsWith "MODIFYUNITHITPOINTS", .modifyUnitHitpoints),
    (.beginsWith "MODIFYUNITRESOURCEAMOUNT", .modifyUnitResourceAmount),
    (.beginsWith "MODIFYUNITSHIELDPOINTS", .modifyUnitShieldPoints),
    (.beginsWith "MINIMAPPING", .minimapPing),
    (.beginsWith "MUTEUNITSPEECH", .muteUnitSpeech),
    (.beginsWith "ORDER", .order),
    (.beginsWith "PRESERVETRIGGER", .preserveTrigger),
    (.beginsWith "PLAYWAV", .playSound), (.beginsWith "PAUSEGAME", .pauseGame),
    (.beginsWith "PAUSETIMER", .pauseTimer),
    (.beginsWith "REMOVEUNITATLOCATION", .removeUnitAtLocation),
    (.exactly "REMOVEUNIT", .removeUnit),
    (.beginsWith "RUNAISCRIPTATLOCATION", .runAiScriptAtLocation),
    (.exactly "RUNAISCRIPT", .runAiScript),
    (.beginsWith "SETDEATHS", .setDeaths), (.beginsWith "SETSWITCH", .setSwitch),
    (.beginsWith "SETRESOURCES", .setResources),
    (.beginsWith "SETSCORE", .setScore),
    (.beginsWith "SETALLIANCESTATUS", .setAllianceStatus),
    (.beginsWith "SETCOUNTDOWNTIMER", .setCountdownTimer),
    (.beginsWith "SETDOODADSTATE", .setDoodadState),
    (.beginsWith "SETINVINCIBILITY", .setInvincibility),
    (.beginsWith "SETMISSIONOBJECTIVES", .setMissionObjectives),
    (.beginsWith "SETNEXTSCENARIO", .setNextScenario),
    (.beginsWith "SETMEMORY", .setMemory),
    (.beginsWith "TALKINGPORTRAIT", .talkingPortrait),
    (.beginsWith "TRANSMISSION", .transmission),
    (.beginsWith "UNPAUSETIMER", .unpauseTimer),
    (.beginsWith "UNPAUSEGAME", .unpauseGame),
    (.beginsWith "UNMUTEUNITSPEECH", .unmuteUnitSpeech),
    (.beginsWith "VICTORY", .victory), (.beginsWith "WAIT", .wait)]

def findName {A : Type} (names : List (NamePattern × A)) (arg : Text) : Option A :=
  (names.find? fun entry => entry.1.matches arg).map Prod.snd

/-- `parseCondition`. -/
def parseCondition (text : Text) (pos stop : ℕ) : Except Hazard (Option VirtualCondition) :=
  (copyUpperCase (slice text pos stop)).map (findName conditionNames)

/-- `parseAction`. -/
def parseAction (text : Text) (pos stop : ℕ) : Except Hazard (Option VirtualAction) :=
  (copyUpperCase (slice text pos stop)).map (findName actionNames)

/-- `Expecting`.  The condition or action whose arguments are read belongs to
the state that reads them, with the index of the next argument. -/
inductive Expecting where
  | triggerOrEndOfText
  | playerOrEndOfPlayers
  | openTriggerBody
  | sectionStartOrEndOfTrigger
  | conditionStartOrNonConditionSectionStart
  | conditionArgOrEndOfCondition (conditionId : VirtualCondition)
      (argIndex : ℕ)
  | nonConditionSectionStartOrEndOfTrigger
  | actionStartOrFlagSectionStartOrEndOfTrigger
  | actionArgOrEndOfAction (actionId : VirtualAction) (argIndex : ℕ)
  | flagSectionStartOrEndOfTrigger
  | executionFlags
  | endOfTrigger
  | last
deriving DecidableEq

structure Cursor where
  pos : ℕ
  line : UInt32
  expecting : Expecting
  nextString : ℕ
deriving DecidableEq

/-- An error in the text, which is shown with its line in front. -/
structure TextError where
  line : UInt32
  message : String
deriving DecidableEq

/-- Why the parser stops without its triggers. -/
inductive Stop where
  | textError (error : TextError)
  | fault (fault : Fault Exception)
deriving DecidableEq

def Stop.ofHazard {A : Type} (result : Except Hazard A) : Except Stop A :=
  result.mapError fun hazard => .fault (.hazard hazard)

namespace Cursor

variable {A : Type}

/-- Report a text error on the current line. -/
def fail (cursor : Cursor) (message : String) : Except Stop A :=
  .error (.textError ⟨cursor.line, message⟩)

/-- Go on behind `count` characters with another expectation. -/
def advance (cursor : Cursor) (count : ℕ) (expecting : Expecting) : Cursor :=
  { cursor with pos := cursor.pos + count, expecting := expecting }

/-- `while ( text[pos] == '\n' )`. -/
def skipNewlines (text : Text) (cursor : Cursor) : Cursor :=
  let count := ((text.drop cursor.pos).takeWhile (· = newline)).length
  { cursor with
    pos := cursor.pos + count
    line := cursor.line + UInt32.ofNat count }

/-- Step over one character or report that it was expected. -/
def stepOver (text : Text) (character : UInt8) (message : String)
    (expecting : Expecting) (cursor : Cursor) : Except Stop Cursor :=
  if charAt text cursor.pos = character then
    .ok (cursor.advance 1 expecting)
  else
    cursor.fail message

end Cursor

/-- The end of the current line, or of the text. -/
def lineEnd (text : Text) (pos : ℕ) : ℕ := (find text newline pos).getD text.length

/-- `findNext`: the next `character` that no `terminator` precedes. -/
def findNext (text : Text) (pos : ℕ) (character terminator : UInt8) : Option ℕ :=
  (((text.drop pos).findIdx? fun current =>
    current = character ∨ current = terminator).map (· + pos)).filter
      fun found => charAt text found = character

/-- Replace the element at an index, if there is one. -/
def modifyAt {A : Type} {count : ℕ} (elements : List.Vector A count)
    (index : ℕ) (change : A → A) : List.Vector A count :=
  ⟨elements.toList.modify index change, by simp⟩

/-- The triggers parsed so far and the strings they refer to.  `literals`
records which string fields were given as quoted texts; the source keeps no
such record, and no definition of the parser reads it. -/
structure Parsed where
  numConditions : ℕ
  numActions : ℕ
  currTrig : Trigger
  output : List Trigger
  nodes : List StringTableNode
  literals : List (Assignee × Text)
deriving DecidableEq

/-- The part of `parseString` that finds or makes the node of a literal: the id
of a string of the map, or else a node that keeps the assignee. -/
def internString (nodes : List StringTableNode) (content : Text)
    (assignee : Assignee) : Option ℕ × List StringTableNode :=
  match nodes.findIdx? fun node => untilNul node.scStr = untilNul content with
  | none => (none, nodes ++ [⟨false, content, 0, [assignee]⟩])
  | some index =>
      let stringId := (nodes.map StringTableNode.stringId).getD index 0
      if stringId = 0 then
        (none, nodes.modify index fun node =>
          { node with unused := false, assignees := node.assignees ++ [assignee] })
      else
        (some stringId, nodes.modify index fun node =>
          { node with unused := false })

namespace Parsed

def beginTrigger (parsed : Parsed) : Parsed :=
  { parsed with currTrig := blankTrigger }

def setOwner (parsed : Parsed) (group : ℕ) (owned : UInt8) : Parsed :=
  { parsed with
    currTrig :=
      { parsed.currTrig with
        owners := modifyAt parsed.currTrig.owners group fun _ => owned } }

/-- The next condition; `Trigger::condition` throws behind the last one. -/
def addCondition (parsed : Parsed) (conditionId : VirtualCondition)
    (stateFlags : UInt8) : Except Exception Parsed :=
  if parsed.numConditions < maxConditions then
    .ok
      { parsed with
        currTrig :=
          { parsed.currTrig with
            conditions := modifyAt parsed.currTrig.conditions parsed.numConditions fun condition =>
                { condition with
                  flags := conditionId.defaultFlags ||| stateFlags
                  conditionType := conditionId.conditionType } }
        numConditions := parsed.numConditions + 1 }
  else
    .error .outOfRange

def currCondition (parsed : Parsed) : Condition :=
  parsed.currTrig.conditions.toList.getD (parsed.numConditions - 1) default

def setCondition (parsed : Parsed) (condition : Condition) : Parsed :=
  { parsed with
    currTrig :=
      { parsed.currTrig with
        conditions := modifyAt parsed.currTrig.conditions
          (parsed.numConditions - 1) fun _ => condition } }

/-- The next action; `Trigger::action` throws behind the last one. -/
def addAction (parsed : Parsed) (actionId : VirtualAction)
    (stateFlags : UInt8) : Except Exception Parsed :=
  if parsed.numActions < maxActions then
    .ok
      { parsed with
        currTrig :=
          { parsed.currTrig with
            actions := modifyAt parsed.currTrig.actions parsed.numActions fun action =>
                { action with
                  flags := actionId.defaultFlags ||| stateFlags
                  actionType := actionId.actionType } }
        numActions := parsed.numActions + 1 }
  else
    .error .outOfRange

def currAction (parsed : Parsed) : Action :=
  parsed.currTrig.actions.toList.getD (parsed.numActions - 1) default

def setAction (parsed : Parsed) (action : Action) : Parsed :=
  { parsed with
    currTrig :=
      { parsed.currTrig with
        actions := modifyAt parsed.currTrig.actions (parsed.numActions - 1) fun _ => action } }

/-- The string or sound field of the action that is being read. -/
def assignee (parsed : Parsed) (isSound : Bool) : Assignee :=
  ⟨parsed.output.length, parsed.numActions - 1, isSound⟩

/-- Make a field of the current action refer to a quoted text. -/
def refer (parsed : Parsed) (isSound : Bool) (content : Text) : Parsed :=
  let assignee := parsed.assignee isSound
  let (stringId, nodes) := internString parsed.nodes content assignee
  let parsed := match stringId with
    | some stringId => parsed.setAction
        (setStringId isSound (UInt32.ofNat stringId) parsed.currAction)
    | none => parsed
  { parsed with
    nodes := nodes
    literals := parsed.literals ++ [(assignee, content)] }

def applyEffect (parsed : Parsed) : ActionEffect → Parsed
  | .set action => parsed.setAction action
  | .refer isSound content => parsed.refer isSound content

def setFlags (parsed : Parsed) (flags : UInt32) : Parsed :=
  { parsed with currTrig := { parsed.currTrig with flags := flags } }

def finishTrigger (parsed : Parsed) : Parsed :=
  { parsed with
    numConditions := 0
    numActions := 0
    output := parsed.output ++ [parsed.currTrig] }

end Parsed

/-! ## The parts -/

abbrev ParserState := Cursor × Parsed

/-- `parsePartZero`. -/
def parsePartZero (text : Text) (cursor : Cursor) (parsed : Parsed) : Except Stop ParserState :=
  let moved :=
    if continuesWith text cursor.pos "TRIGGER(" then
      .ok (cursor.advance 8 .playerOrEndOfPlayers)
    else if continuesWith text cursor.pos "TRIGGER" then
      ((cursor.advance 7 cursor.expecting).skipNewlines text).stepOver text 40
        "Expected: '('" .playerOrEndOfPlayers
    else
      cursor.stepOver text 0 "Expected: \"Trigger\" or End of Text"
        cursor.expecting
  moved.map (·, parsed.beginTrigger)

/-- `parseExecutingPlayer`.  The separator may stand anywhere behind the player,
and a literal in front of it is used up even when the player is then read
without it. -/
def parseExecutingPlayer (input : CompilerInput) (pos stop : ℕ) : Attempt (UInt32 × UInt8) :=
  let isOwner := fun group : UInt32 => decide (group.toNat < maxOwners)
  let plain := ((parsePlayer input pos stop).filter isOwner).map (·, 1)
  match find input.text 58 pos with
  | some separator =>
      (((parsePlayer input pos separator).filter isOwner).map
        (·, (parseByte input.text (separator + 1) stop).getD 1)).orElse plain
  | none => plain

/-- Where the current player ends: at the next comma, or without one at the
closing parenthesis, but not behind the line. -/
def playerEnd (text : Text) (pos : ℕ) : Option ℕ :=
  (findNext text pos 44 123 <|> findNext text pos 41 123).map (min · (lineEnd text pos))

/-- `parsePartOne`. -/
def parsePartOne (input : CompilerInput) (cursor : Cursor) (parsed : Parsed) :
    Except Stop ParserState :=
  if charAt input.text cursor.pos = 41 then
    .ok (cursor.advance 1 .openTriggerBody, parsed)
  else
    match playerEnd input.text cursor.pos with
    | none => cursor.fail "Expected: ',' or ')'"
    | some stop => do
        match ← Stop.ofHazard (parseExecutingPlayer input cursor.pos stop cursor.nextString) with
        | (none, _) => cursor.fail "Expected: Player Identifier"
        | (some (group, owned), nextString) =>
            let cursor := Cursor.skipNewlines input.text
              { cursor with pos := stop, nextString := nextString }
            let expecting :=
              if charAt input.text cursor.pos = 41 then .openTriggerBody
              else cursor.expecting
            return (cursor.advance 1 expecting, parsed.setOwner group.toNat owned)

/-- `parsePartTwo`. -/
def parsePartTwo (text : Text) (cursor : Cursor) : Except Stop Cursor :=
  cursor.stepOver text 123 "Expected: '\x7b'" .sectionStartOrEndOfTrigger

/-- `parsePartThree`. -/
def parsePartThree (text : Text) (cursor : Cursor) : Except Stop Cursor :=
  if continuesWith text cursor.pos "CONDITIONS:" then
    .ok (cursor.advance 11 .conditionStartOrNonConditionSectionStart)
  else if continuesWith text cursor.pos "ACTIONS:" then
    .ok (cursor.advance 8 .actionStartOrFlagSectionStartOrEndOfTrigger)
  else if continuesWith text cursor.pos "FLAGS:" then
    .ok (cursor.advance 6 .executionFlags)
  else if charAt text cursor.pos = 125 then
    .ok (cursor.advance 1 .last)
  else if continuesWith text cursor.pos "CONDITIONS" then
    ((cursor.advance 10 cursor.expecting).skipNewlines text).stepOver text 58
      "Expected: ':'" .conditionStartOrNonConditionSectionStart
  else if continuesWith text cursor.pos "ACTIONS" then
    ((cursor.advance 7 cursor.expecting).skipNewlines text).stepOver text 58
      "Expected: ':'" .actionStartOrFlagSectionStartOrEndOfTrigger
  else
    cursor.fail "Expected: \"Conditions\" or \"Actions\" or \"Flags\" or '\x7d'"

/-- The common end of the condition branches of `parsePartFour`: the count is
compared with the maximum before the condition is taken. -/
def beginCondition (text : Text) (cursor : Cursor) (parsed : Parsed)
    (conditionEnd : ℕ) (stateFlags : UInt8) : Except Stop ParserState := do
  match ← Stop.ofHazard (parseCondition text cursor.pos conditionEnd) with
  | none => cursor.fail "Expected: Condition Name"
  | some conditionId =>
      if maxConditions < parsed.numConditions then
        cursor.fail "Condition Max Exceeded!"
      else
        let parsed ← (parsed.addCondition conditionId stateFlags).mapError
          fun exception => Stop.fault (.thrown exception)
        (({ cursor with pos := conditionEnd }.skipNewlines text).stepOver text
          40 "Expected: '('"
          (.conditionArgOrEndOfCondition conditionId 0)).map (·, parsed)

/-- `parsePartFour`.  Only an enabled condition has to be on one line: the test
for a missing line end is the wrong way round for disabled ones. -/
def parsePartFour (text : Text) (cursor : Cursor) (parsed : Parsed) : Except Stop ParserState :=
  if charAt text cursor.pos = 59 then
    let cursor := (cursor.advance 1 cursor.expecting).skipNewlines text
    match find text 40 cursor.pos with
    | some conditionEnd =>
        beginCondition text cursor parsed conditionEnd disabledFlag
    | none => cursor.fail "Expected: '('"
  else if charAt text cursor.pos = 125 then
    .ok (cursor.advance 1 .last, parsed)
  else if continuesWith text cursor.pos "ACTIONS" then
    (((cursor.advance 7 cursor.expecting).skipNewlines text).stepOver text 58
      "Expected: ':'" .actionStartOrFlagSectionStartOrEndOfTrigger).map
        (·, parsed)
  else if continuesWith text cursor.pos "FLAGS" then
    ((cursor.advance 5 cursor.expecting).stepOver text 58 "Expected: ':'"
      .executionFlags).map (·, parsed)
  else
    match find text 40 cursor.pos with
    | some found =>
        beginCondition text cursor parsed (min found (lineEnd text cursor.pos)) 0
    | none => cursor.fail "Expected: '('"

/-- `parsePartFive`, for the condition and argument of the current state. -/
def parsePartFive (input : CompilerInput) (conditionId : VirtualCondition)
    (argIndex : ℕ) (cursor : Cursor) (parsed : Parsed) :
    Except Stop ParserState :=
  let argument := conditionId.textArguments[argIndex]?
  if charAt input.text cursor.pos = 41 then
    if argument.isSome then
      cursor.fail "Expected: Condition Argument"
    else
      (((cursor.advance 1 cursor.expecting).skipNewlines input.text).stepOver
        input.text 59 "Expected: ';'"
        .conditionStartOrNonConditionSectionStart).map (·, parsed)
  else
    match argument with
    | none => cursor.fail "Expected: ')'"
    | some argument =>
        let isLast : Bool := conditionId.textArguments.length ≤ argIndex + 1
        match find input.text (if isLast then 41 else 44) cursor.pos with
        | none =>
            cursor.fail (if isLast then "Expected: ')'" else "Expected: ','")
        | some argEnd => do
            match ← Stop.ofHazard (parseConditionArg input argument cursor.pos
                argEnd parsed.currCondition cursor.nextString) with
            | (none, _) =>
                cursor.fail (expectedConditionArg input.useAddressesForMemory argument)
            | (some condition, nextString) =>
                return (
                  { cursor with
                    pos := if isLast then argEnd else argEnd + 1
                    nextString := nextString
                    expecting := .conditionArgOrEndOfCondition conditionId (argIndex + 1) },
                  parsed.setCondition condition)

/-- `parsePartSix`. -/
def parsePartSix (text : Text) (cursor : Cursor) : Except Stop Cursor :=
  if charAt text cursor.pos = 125 then
    .ok (cursor.advance 1 .last)
  else if continuesWith text cursor.pos "ACTIONS:" then
    .ok (cursor.advance 8 .actionStartOrFlagSectionStartOrEndOfTrigger)
  else if continuesWith text cursor.pos "FLAGS:" then
    .ok (cursor.advance 6 .executionFlags)
  else if continuesWith text cursor.pos "ACTIONS" ∨
      continuesWith text cursor.pos "FLAGS" then
    cursor.fail "Expected: ':'"
  else
    cursor.fail "Expected: \"Actions\" or \"Flags\" or '\x7d'"

/-- The common end of the action branches of `parsePartSeven`.  The character
behind the name is not looked at. -/
def beginAction (text : Text) (cursor : Cursor) (parsed : Parsed)
    (actionEnd : ℕ) (stateFlags : UInt8) : Except Stop ParserState := do
  match ← Stop.ofHazard (parseAction text cursor.pos actionEnd) with
  | none => cursor.fail "Expected: Action Name or '\x7d'"
  | some actionId =>
      if maxActions < parsed.numActions then
        cursor.fail "Action Max Exceeded!"
      else
        let parsed ← (parsed.addAction actionId stateFlags).mapError
          fun exception => Stop.fault (.thrown exception)
        return (
          { cursor with
            pos := actionEnd + 1
            expecting := .actionArgOrEndOfAction actionId 0 },
          parsed)

/-- `parsePartSeven`.  A semicolon with no parenthesis behind it is skipped. -/
def parsePartSeven (text : Text) (cursor : Cursor) (parsed : Parsed) : Except Stop ParserState :=
  if charAt text cursor.pos = 59 then
    let cursor := cursor.advance 1 cursor.expecting
    match find text 40 cursor.pos with
    | some found =>
        beginAction text cursor parsed (min found (lineEnd text cursor.pos)) disabledFlag
    | none => .ok (cursor, parsed)
  else if charAt text cursor.pos = 125 then
    .ok (cursor.advance 1 .last, parsed)
  else if continuesWith text cursor.pos "FLAGS" then
    ((cursor.advance 5 cursor.expecting).stepOver text 58 "Expected: ':'"
      .executionFlags).map (·, parsed)
  else
    match find text 40 cursor.pos with
    | some found =>
        beginAction text cursor parsed (min found (lineEnd text cursor.pos)) 0
    | none => cursor.fail "Expected: '('"

/-- `parsePartEight`, for the action and argument of the current state. -/
def parsePartEight (input : CompilerInput) (actionId : VirtualAction)
    (argIndex : ℕ) (cursor : Cursor) (parsed : Parsed) :
    Except Stop ParserState :=
  let argument := actionId.textArguments[argIndex]?
  if charAt input.text cursor.pos = 41 then
    if argument.isSome then
      cursor.fail "Expected: Action Argument"
    else
      (((cursor.advance 1 cursor.expecting).skipNewlines input.text).stepOver
        input.text 59 "Expected: ';'"
        .actionStartOrFlagSectionStartOrEndOfTrigger).map (·, parsed)
  else
    match argument with
    | none => cursor.fail "Expected: ')'"
    | some argument =>
        let isLast : Bool := actionId.textArguments.length ≤ argIndex + 1
        match find input.text (if isLast then 41 else 44) cursor.pos with
        | none =>
            cursor.fail (if isLast then "Expected: ')'"
              else "Expected: Additional Arguments")
        | some argEnd => do
            match ← Stop.ofHazard (parseActionArg input argument cursor.pos
                argEnd parsed.currAction cursor.nextString) with
            | (none, _) =>
                cursor.fail ("Expected: Action Argument\n\n" ++
                  expectedActionArg input.useAddressesForMemory argument)
            | (some effect, nextString) =>
                return (
                  { cursor with
                    pos := if isLast then argEnd else argEnd + 1
                    nextString := nextString
                    expecting := .actionArgOrEndOfAction actionId (argIndex + 1) },
                  parsed.applyEffect effect)

/-- `parsePartNine`. -/
def parsePartNine (text : Text) (cursor : Cursor) : Except Stop Cursor :=
  if charAt text cursor.pos = 125 then
    .ok (cursor.advance 1 .last)
  else if continuesWith text cursor.pos "FLAGS:" then
    .ok (cursor.advance 6 .executionFlags)
  else if continuesWith text cursor.pos "FLAGS" then
    cursor.fail "Expected: ':'"
  else
    cursor.fail "Expected: \"Flags\" or '\x7d'"

/-- `parsePartTen`. -/
def parsePartTen (text : Text) (cursor : Cursor) (parsed : Parsed) : Except Stop ParserState :=
  if charAt text cursor.pos = 59 then
    .ok (cursor.advance 1 .endOfTrigger, parsed)
  else
    match find text 59 cursor.pos with
    | none => cursor.fail "Expected: ';'"
    | some flagsEnd => do
        match ← Stop.ofHazard (parseExecutionFlags text cursor.pos flagsEnd) with
        | none => cursor.fail "Expected: Binary Execution Flags (32-bit max)."
        | some flags =>
            return (
              { cursor with pos := flagsEnd + 1, expecting := .endOfTrigger },
              parsed.setFlags flags)

/-- `parsePartEleven`. -/
def parsePartEleven (text : Text) (cursor : Cursor) : Except Stop Cursor :=
  cursor.stepOver text 125 "Expected: '\x7d'" .last

/-- The part for what is expected; the end of a trigger is no part of its
own. -/
def parsePart (input : CompilerInput) (state : ParserState) : Except Stop ParserState :=
  let (cursor, parsed) := state
  match cursor.expecting with
  | .triggerOrEndOfText => parsePartZero input.text cursor parsed
  | .playerOrEndOfPlayers => parsePartOne input cursor parsed
  | .openTriggerBody => (parsePartTwo input.text cursor).map (·, parsed)
  | .sectionStartOrEndOfTrigger =>
      (parsePartThree input.text cursor).map (·, parsed)
  | .conditionStartOrNonConditionSectionStart =>
      parsePartFour input.text cursor parsed
  | .conditionArgOrEndOfCondition conditionId argIndex =>
      parsePartFive input conditionId argIndex cursor parsed
  | .nonConditionSectionStartOrEndOfTrigger =>
      (parsePartSix input.text cursor).map (·, parsed)
  | .actionStartOrFlagSectionStartOrEndOfTrigger =>
      parsePartSeven input.text cursor parsed
  | .actionArgOrEndOfAction actionId argIndex =>
      parsePartEight input actionId argIndex cursor parsed
  | .flagSectionStartOrEndOfTrigger =>
      (parsePartNine input.text cursor).map (·, parsed)
  | .executionFlags => parsePartTen input.text cursor parsed
  | .endOfTrigger => (parsePartEleven input.text cursor).map (·, parsed)
  | .last =>
      .ok ({ cursor with expecting := .triggerOrEndOfText }, parsed.finishTrigger)

/-- One pass of the loop of `parseTriggers`. -/
def parsePass (input : CompilerInput) (state : ParserState) :
    Loop.Control ParserState (Except Stop Parsed) :=
  let (cursor, parsed) := state
  if cursor.pos < input.text.length then
    if charAt input.text cursor.pos = newline then
      .next ({ cursor with pos := cursor.pos + 1, line := cursor.line + 1 }, parsed)
    else
      match parsePart input state with
      | .error stop => .done (.error stop)
      | .ok following =>
          if cursor.expecting = .last ∧ charAt input.text cursor.pos = 0 then
            .done (.ok following.2)
          else
            .next following
  else
    .done (.ok parsed)

def Parsed.start (nodes : List StringTableNode) : Parsed where
  numConditions := 0
  numActions := 0
  currTrig := blankTrigger
  output := []
  nodes := nodes
  literals := []

def Cursor.start : Cursor := ⟨0, 1, .triggerOrEndOfText, 0⟩

/-- `parseTriggers` on a text that ends with the added NUL.  A pass moves on in
the text or ends a trigger, so that the fuel is never used up. -/
def parseTriggers (input : CompilerInput) (nodes : List StringTableNode) : Except Stop Parsed :=
  (Loop.run (parsePass input) (2 * input.text.length + 2)
    (.start, .start nodes)).getD (.error (.fault (.hazard .endlessLoop)))

end Chkdraft.TextTrigs
