import Chkdraft.TextTrigs.CleanText
import Chkdraft.TextTrigs.NameTables

/-!
# Arguments of trigger text

The parsers for numbers, keywords, names and strings that stand between commas.
A quoted argument is taken from the list of literals, so an attempt counts the
literals it uses up, also when it fails.  None of these functions throws; they
leave defined behaviour where a literal is missing or where a keyword buffer is
too short for the argument copied to it.
-/

namespace Chkdraft.TextTrigs

open Chk Scan

/-- An attempt to read an argument, from the number of the next literal: the
value, if there is one, and the number of the literal after it. -/
abbrev Attempt (A : Type) := ℕ → Except Hazard (Option A × ℕ)

namespace Attempt

variable {A B : Type}

def ofResult (result : Except Hazard (Option A)) : Attempt A :=
  fun nextString => result.map fun value => (value, nextString)

def ofOption (value : Option A) : Attempt A := ofResult (.ok value)

def map (change : A → B) (attempt : Attempt A) : Attempt B := fun nextString =>
    (attempt nextString).map fun (value, following) =>
      (value.map change, following)

/-- The attempt also fails for values outside a range. -/
def filter (accepts : A → Bool) (attempt : Attempt A) : Attempt A := fun nextString =>
    (attempt nextString).map fun (value, following) =>
      (value.filter accepts, following)

/-- `first || second`: the second attempt goes on behind the literals the first
one has used. -/
def orElse (first second : Attempt A) : Attempt A := fun nextString =>
  match first nextString with
  | .ok (none, following) => second following
  | result => result

/-- Take the next literal, `stringContents[nextString++]`. -/
def literal (stringContents : List Text)
    (read : Text → Except Hazard (Option A)) : Attempt A := fun nextString =>
  match stringContents[nextString]? with
  | some content => (read content).map fun value => (value, nextString + 1)
  | none => .error .undefinedBehavior

end Attempt

/-- What argument parsers read besides the span of the argument. -/
structure CompilerInput where
  text : Text
  stringContents : List Text
  tables : NameTables
  useAddressesForMemory : Bool
  deathTableOffset : UInt32

/-- The quoted or plain text of an argument, read by `read`. -/
def parseName {A : Type} (read : Text → Except Hazard (Option A))
    (input : CompilerInput) (pos stop : ℕ) : Attempt A :=
  if charAt input.text pos = quote then
    Attempt.literal input.stringContents read
  else
    Attempt.ofResult (read (slice input.text pos stop))

/-- Conversion to an unsigned integer of the given width. -/
def truncated (width : ℕ) (value : ℤ) : ℕ := (value % 2 ^ width).toNat

/-- The common shape of `parseLong`, `parseShort` and `parseByte`: fewer than
`limit` characters, and 0 only as the single digit or in hexadecimal. -/
def parseNumber (limit width : ℕ) (text : Text) (pos stop : ℕ) : Option ℕ :=
  let size := stop - pos
  if pos ≤ stop ∧ size < limit then
    if size = 1 ∧ charAt text pos = 48 then
      some 0
    else if 2 < size ∧ charAt text pos = 48 ∧
        (charAt text (pos + 1) = 120 ∨ charAt text (pos + 1) = 88) then
      (numeral 16 (slice text (pos + 2) stop)).map (truncated width)
    else
      let value := truncated width (decimal (slice text pos stop))
      if value = 0 then none else some value
  else
    none

def parseLong (text : Text) (pos stop : ℕ) : Option UInt32 :=
  (parseNumber 12 32 text pos stop).map UInt32.ofNat

def parseShort (text : Text) (pos stop : ℕ) : Option UInt16 :=
  (parseNumber 7 16 text pos stop).map UInt16.ofNat

def parseByte (text : Text) (pos stop : ℕ) : Option UInt8 :=
  (parseNumber 5 8 text pos stop).map UInt8.ofNat

/-- `parseBinaryLong` on a whole text. -/
def parseBinaryLong (text : Text) : Option UInt32 :=
  if text.length < 33 then
    if text.all (· = 48) then
      some 0
    else
      let value := truncated 32 ((numeral 2 text).getD 0)
      if value = 0 then none else some (UInt32.ofNat value)
  else
    none

/-- `parseMemoryAddress`, with the unsigned arithmetic of the source. -/
def parseMemoryAddress (deathTableOffset : UInt32) (text : Text) (pos stop : ℕ) : Option UInt32 :=
  (parseLong text pos stop).map fun address =>
    (address / 4 * 4 - deathTableOffset) / 4

/-- The copies made with a 32-bit counter do not end for longer texts. -/
def copyUpperCase (source : Text) : Except Hazard Text :=
  if source.length < 2 ^ 32 then .ok (upperNoBlanks source)
  else .error .endlessLoop

def parseExecutionFlags (text : Text) (pos stop : ℕ) : Except Hazard (Option UInt32) :=
  (copyUpperCase (slice text pos stop)).map parseBinaryLong

/-- `copyUpperCaseNoSpace` into an array of `capacity` zeros, seen as a C
string.  The NUL behind the copy is written at the length of the source. -/
def copyUpperCaseNoSpace (capacity : ℕ) (source : Text) : Except Hazard Text :=
  if source.length < capacity then .ok (untilNul (upperNoSpace source))
  else .error .undefinedBehavior

/-- The common shape of the keyword parsers. -/
def parseKeyword {A : Type} (capacity : ℕ) (keywords : List (String × A)) :
    CompilerInput → ℕ → ℕ → Attempt A :=
  parseName fun source =>
    (copyUpperCaseNoSpace capacity source).map fun copied =>
      (keywords.find? fun entry => ascii entry.1 = copied).map Prod.snd

def parseNumericComparison :=
  parseKeyword 12 [("ATLEAST", (0 : UInt8)), ("ATMOST", 1), ("EXACTLY", 10)]

def parseSwitchState :=
  parseKeyword 8 [("CLEARED", (3 : UInt8)), ("NOTSET", 3), ("SET", 2)]

def parseSpecialUnitAmount := parseKeyword 4 [("ALL", (0 : UInt8))]

def parseAllianceStatus :=
  parseKeyword 16 [("ALLIEDVICTORY", (2 : UInt16)), ("ALLY", 1), ("ENEMY", 0)]

def parseResourceType :=
  parseKeyword 12 [("ORE", (0 : UInt8)), ("OREANDGAS", 2), ("GAS", 1)]

def parseScoreType := parseKeyword 20
    [("BUILDINGS", (2 : UInt8)), ("CUSTOM", 7), ("KILLS", 4),
      ("KILLSANDRAZINGS", 6), ("RAZINGS", 5), ("TOTAL", 0), ("UNITS", 1),
      ("UNITSANDBUILDINGS", 3)]

def parseTextDisplayFlag := parseKeyword 24
    [("ALWAYSDISPLAY", fun flags : UInt8 => flags ||| alwaysDisplayFlag),
      ("DON'TALWAYSDISPLAY", fun flags => flags &&& 0xFB)]

def parseNumericModifier :=
  parseKeyword 12 [("ADD", (8 : UInt8)), ("SETTO", 7), ("SUBTRACT", 9)]

def parseSwitchMod := parseKeyword 10
    [("CLEAR", (5 : UInt8)), ("RANDOMIZE", 11), ("SET", 4), ("TOGGLE", 6)]

def parseStateMod := parseKeyword 12
    [("DISABLE", (5 : UInt8)), ("DISABLED", 5), ("ENABLE", 4), ("ENABLED", 4),
      ("TOGGLE", 6)]

def parseOrder :=
  parseKeyword 8 [("ATTACK", (2 : UInt8)), ("MOVE", 0), ("PATROL", 1)]

/-- A name that may also be a number when it is not quoted. -/
def parseNumberOrName {A : Type} (number : Option A)
    (read : Text → Except Hazard (Option A)) (input : CompilerInput)
    (pos stop : ℕ) : Attempt A :=
  if charAt input.text pos ≠ quote ∧ number.isSome then
    Attempt.ofOption number
  else
    parseName read input pos stop

def locationNamed (tables : NameTables) (name : Text) : Option UInt32 :=
  let name := if name = ascii "anywhere" then ascii "Anywhere" else name
  (lookupLowest tables.locationTable name).map UInt32.ofNat

/-- `parseLocationName`; an empty argument is not quoted, whatever follows. -/
def parseLocationName (input : CompilerInput) (pos stop : ℕ) : Attempt UInt32 :=
  let span := slice input.text pos stop
  if span = ascii "NOLOCATION" then
    Attempt.ofOption (some 0)
  else if pos < stop then
    parseNumberOrName (parseLong input.text pos stop)
      (fun name => .ok (locationNamed input.tables name)) input pos stop
  else
    Attempt.ofOption (locationNamed input.tables span)

/-- A unit given as `ID:` and a number.  The number is read in a C string copy
of the name, so that a NUL inside the name cuts the copy short. -/
def unitById (name : Text) : Except Hazard (Option UInt16) :=
  if name.length - 3 < 7 ∧ (untilNul name).length + 1 < name.length then
    .error .undefinedBehavior
  else
    .ok (parseShort name 3 name.length)

/-- The search for a unit name in the standard names, the names of the map and
the legacy names. -/
def unitNamed (tables : NameTables) (name : Text) : Except Hazard (Option UInt16) := do
  let upper := untilNul (name.map upperCase)
  let short := name.length < 40
  let standard ←
    if short ∧ continuesWith upper 0 "ID:" then
      unitById (name.map upperCase)
    else if short then
      .ok ((lookupUnitName standardUnitNames upper).map UInt16.ofNat)
    else
      .ok none
  let inMap := (lookupLowest tables.unitTable name).map UInt16.ofNat
  let legacy :=
    if short then (lookupUnitName legacyUnitNames upper).map UInt16.ofNat
    else none
  return standard <|> inMap <|> legacy

def parseUnitName (input : CompilerInput) (pos stop : ℕ) : Attempt UInt16 :=
  if charAt input.text pos = quote ∧ stop - pos < 2 then
    Attempt.ofOption none
  else
    parseNumberOrName (parseShort input.text pos stop) (unitNamed input.tables) input pos stop

/-- `atoi`, which is undefined for numbers that do not fit an `int`. -/
def atoi (text : Text) : Except Hazard ℤ :=
  let value := decimal text
  if -2 ^ 31 ≤ value ∧ value < 2 ^ 31 then .ok value
  else .error .undefinedBehavior

/-- A number from 1 to `last`, written behind a player or force name. -/
def numbered (first last : ℕ) (text : Text) : Except Hazard (Option UInt32) :=
  (atoi text).map fun number : ℤ =>
    if 0 < number ∧ number ≤ last then
      some (UInt32.ofNat (number.toNat - 1 + first))
    else
      none

def nonzero (text : Text) : Except Hazard (Option UInt32) := (atoi text).map fun number : ℤ =>
    if number = 0 then none else some (UInt32.ofNat (truncated 32 number))

def isDigit (character : UInt8) : Bool := 48 ≤ character ∧ character ≤ 57

/-- The first of several beginnings a name starts with. -/
def startingWith (upper : Text) (names : List (String × UInt32)) : Option UInt32 :=
  (names.find? fun entry => continuesWith upper 0 entry.1).map Prod.snd

/-- The built-in groups of `parsePlayer`, in the upper case copy of a name.  A
number directly behind `P` or `F` is read from its second digit on. -/
def groupKeyword (upper : Text) : Except Hazard (Option UInt32) :=
  if continuesWith upper 0 "PLAYER" then
    numbered 0 12 (upper.drop 6)
  else if charAt upper 0 = 80 ∧ isDigit (charAt upper 1) then
    numbered 0 12 (upper.drop 2)
  else if continuesWith upper 0 "FORCE" then
    numbered 18 4 (upper.drop 5)
  else if charAt upper 0 = 70 ∧ isDigit (charAt upper 1) then
    numbered 18 4 (upper.drop 2)
  else if continuesWith upper 0 "ID:" then
    nonzero (upper.drop 3)
  else if isDigit (charAt upper 0) then
    nonzero upper
  else
    .ok (startingWith upper
      [("FOES", 14), ("ALLPLAYERS", 17), ("ALLIES", 15), ("AP", 17),
        ("CURRENTPLAYER", 13), ("CP", 13), ("NEUTRALPLAYERS", 16),
        ("NONALLIEDVICTORYPLAYERS", 26), ("NONE", 12), ("NONAVPLAYERS", 26),
        ("UNKNOWN/UNUSED", 12), ("UNUSED1", 22), ("UNUSED2", 23),
        ("UNUSED3", 24), ("UNUSED4", 25)])

def groupNamed (tables : NameTables) (name : Text) : Except Hazard (Option UInt32) := do
  let upper ← copyUpperCase name
  let keyword ← groupKeyword upper
  return keyword <|> (lookupLowest tables.groupTable name).map UInt32.ofNat

def parsePlayer (input : CompilerInput) (pos stop : ℕ) : Attempt UInt32 :=
  parseNumberOrName (parseLong input.text pos stop) (groupNamed input.tables) input pos stop

/-- `Switch` and a number.  The array the name is copied to is not initialised:
where blanks were skipped, there is no NUL behind the copied characters. -/
def standardSwitch (name : Text) : Except Hazard (Option UInt8) :=
  let copied := upperNoSpace name
  let terminated := copied.length = name.length
  if continuesWith copied 0 "SWITCH" then
    if terminated ∨ numeralEndsInside (copied.drop 6) then
      let number := truncated 8 (decimal (copied.drop 6))
      .ok (if number = 0 then none else some (UInt8.ofNat (number - 1)))
    else
      .error .undefinedBehavior
  else if ¬ terminated ∧ copied.isPrefixOf (ascii "SWITCH") then
    .error .undefinedBehavior
  else
    .ok none

def switchNamed (tables : NameTables) (name : Text) : Except Hazard (Option UInt8) := do
  let standard ← if name.length < 12 then standardSwitch name else .ok none
  return standard <|> (lookupLowest tables.switchTable name).map UInt8.ofNat

def parseSwitch (input : CompilerInput) (pos stop : ℕ) : Attempt UInt8 :=
  parseNumberOrName (parseByte input.text pos stop) (switchNamed input.tables) input pos stop

/-- The script a name stands for; a name of four characters is its own id. -/
def scriptNamed (tables : NameTables) (isQuoted : Bool) (name : Text) : Option UInt32 :=
  match tables.scriptTable.find? fun entry => entry.1 = name with
  | some entry => some (UInt32.ofNat entry.2)
  | none =>
      match name with
      | [first, second, third, fourth] =>
          if isQuoted ∨ ¬ name.all isDigit then
            some (first.toUInt32 ||| second.toUInt32 <<< 8 |||
              third.toUInt32 <<< 16 ||| fourth.toUInt32 <<< 24)
          else
            none
      | _ => none

def parseScript (input : CompilerInput) (pos stop : ℕ) : Attempt UInt32 :=
  if slice input.text pos stop = ascii "NOSCRIPT" then
    Attempt.ofOption (some 0)
  else
    let isQuoted : Bool := charAt input.text pos = quote
    parseName (fun name => .ok (scriptNamed input.tables isQuoted name)) input pos stop

/-- What a string argument refers to: an id, or a string by its content. -/
inductive StringReference where
  | id (stringId : UInt32)
  | literal (content : Text)
deriving DecidableEq

/-- The part of `parseString` that reads the text. -/
def parseString (input : CompilerInput) (pos stop : ℕ) : Attempt StringReference :=
  if slice input.text pos stop = ascii "NOSTRING" then
    Attempt.ofOption (some (.id 0))
  else if pos < stop ∧ charAt input.text pos = quote then
    Attempt.literal input.stringContents fun content =>
      .ok (some (.literal content))
  else
    Attempt.ofOption ((parseLong input.text pos stop).map .id)

def parseSoundName (input : CompilerInput) (pos stop : ℕ) : Attempt StringReference :=
  if slice input.text pos stop = ascii "NOWAV" then
    Attempt.ofOption (some (.id 0))
  else
    parseString input pos stop

/-- `parseConditionArg`: the condition with the argument set. -/
def parseConditionArg (input : CompilerInput) (argument : ConditionArgument)
    (pos stop : ℕ) (condition : Condition) : Attempt Condition :=
  let byte := Attempt.ofOption (parseByte input.text pos stop)
  let short := Attempt.ofOption (parseShort input.text pos stop)
  let long := Attempt.ofOption (parseLong input.text pos stop)
  match argument with
  | .unit =>
      ((parseUnitName input pos stop).orElse short).map fun unitType =>
        { condition with unitType := unitType }
  | .location =>
      ((parseLocationName input pos stop).orElse long).map fun locationId =>
        { condition with locationId := locationId }
  | .player =>
      ((parsePlayer input pos stop).orElse long).map fun player =>
        { condition with player := player }
  | .amount => long.map fun amount => { condition with amount := amount }
  | .numericComparison =>
      ((parseNumericComparison input pos stop).orElse byte).map
        fun comparison => { condition with comparison := comparison }
  | .resource =>
      ((parseResourceType input pos stop).orElse byte).map fun typeIndex =>
        { condition with typeIndex := typeIndex }
  | .score =>
      ((parseScoreType input pos stop).orElse byte).map fun typeIndex =>
        { condition with typeIndex := typeIndex }
  | .switch =>
      ((parseSwitch input pos stop).orElse byte).map fun typeIndex =>
        { condition with typeIndex := typeIndex }
  | .switchState =>
      ((parseSwitchState input pos stop).orElse byte).map fun comparison =>
        { condition with comparison := comparison }
  | .comparison =>
      (byte.orElse <| (parseNumericComparison input pos stop).orElse <|
        parseSwitchState input pos stop).map fun comparison =>
          { condition with comparison := comparison }
  | .conditionType =>
      byte.map fun conditionType =>
        { condition with conditionType := conditionType }
  | .typeIndex =>
      (byte.orElse <| (parseResourceType input pos stop).orElse <|
        (parseScoreType input pos stop).orElse <|
        parseSwitch input pos stop).map fun typeIndex =>
          { condition with typeIndex := typeIndex }
  | .flags => byte.map fun flags => { condition with flags := flags }
  | .maskFlag =>
      short.map fun maskFlag => { condition with maskFlag := maskFlag }
  | .memoryOffset =>
      (if input.useAddressesForMemory then
        Attempt.ofOption (parseMemoryAddress input.deathTableOffset input.text pos stop)
      else long).map fun player => { condition with player := player }

/-- The message for an argument that is none. -/
def expectedConditionArg (useAddressesForMemory : Bool) : ConditionArgument → String
  | .unit => "Expected: Unit name or 2-byte unitID"
  | .location => "Expected: Location name or 4-byte locationNum"
  | .player => "Expected: Player/group name or 4-byte id"
  | .amount => "Expected: 4-byte amount"
  | .numericComparison => "Expected: Numeric comparison or 1-byte comparisonID"
  | .resource => "Expected: Resource type or 1-byte resourceID"
  | .score => "Expected: Score type or 1-byte scoreID"
  | .switch => "Expected: Switch name or 1-byte switchID"
  | .switchState => "Expected: Switch state or 1-byte comparisonID"
  | .comparison => "Expected: 1-byte comparison"
  | .conditionType => "Expected: 1-byte conditionID"
  | .typeIndex =>
      "Expected: 1-byte typeId, resource type, score type, or switch name"
  | .flags => "Expected: 1-byte flags"
  | .maskFlag => "Expected: 2-byte internal data"
  | .memoryOffset =>
      if useAddressesForMemory then "Expected: 4-byte address"
      else "Expected: 4-byte death table offset"

/-- What an argument does to an action: set a field, or make its string or its
sound refer to a quoted text. -/
inductive ActionEffect where
  | set (action : Action)
  | refer (isSound : Bool) (content : Text)
deriving DecidableEq

/-- Set the string or the sound of an action. -/
def setStringId (isSound : Bool) (stringId : UInt32) (action : Action) : Action :=
  if isSound then { action with soundStringId := stringId }
  else { action with stringId := stringId }

def StringReference.effect (isSound : Bool) (action : Action) : StringReference → ActionEffect
  | .id stringId => .set (setStringId isSound stringId action)
  | .literal content => .refer isSound content

/-- `parseActionArg`. -/
def parseActionArg (input : CompilerInput) (argument : ActionArgument)
    (pos stop : ℕ) (action : Action) : Attempt ActionEffect :=
  let byte := Attempt.ofOption (parseByte input.text pos stop)
  let short := Attempt.ofOption (parseShort input.text pos stop)
  let long := Attempt.ofOption (parseLong input.text pos stop)
  match argument with
  | .location =>
      ((parseLocationName input pos stop).orElse long).map fun locationId =>
        .set { action with locationId := locationId }
  | .secondaryLocation =>
      ((parseLocationName input pos stop).orElse long).map fun number =>
        .set { action with number := number }
  | .string =>
      ((parseString input pos stop).orElse (long.map .id)).map (StringReference.effect false action)
  | .player =>
      ((parsePlayer input pos stop).orElse long).map fun group =>
        .set { action with group := group }
  | .destPlayer =>
      ((parsePlayer input pos stop).orElse long).map fun number =>
        .set { action with number := number }
  | .unit =>
      ((parseUnitName input pos stop).orElse short).map fun type =>
        .set { action with type := type }
  | .numUnits =>
      ((parseSpecialUnitAmount input pos stop).orElse byte).map fun type2 =>
        .set { action with type2 := type2 }
  | .unitQuantity => byte.map fun type2 => .set { action with type2 := type2 }
  | .cuwp | .percent | .amount =>
      long.map fun number => .set { action with number := number }
  | .score =>
      (((parseScoreType input pos stop).map UInt8.toUInt16).orElse short).map
        fun type => .set { action with type := type }
  | .resource =>
      (((parseResourceType input pos stop).map UInt8.toUInt16).orElse
        short).map fun type => .set { action with type := type }
  | .stateMod =>
      ((parseStateMod input pos stop).orElse byte).map fun type2 =>
        .set { action with type2 := type2 }
  | .order =>
      ((parseOrder input pos stop).orElse byte).map fun type2 =>
        .set { action with type2 := type2 }
  | .sound =>
      ((parseSoundName input pos stop).orElse (long.map .id)).map
        (StringReference.effect true action)
  | .duration => long.map fun time => .set { action with time := time }
  | .script =>
      ((parseScript input pos stop).orElse long).map fun number =>
        .set { action with number := number }
  | .allyState =>
      ((parseAllianceStatus input pos stop).orElse short).map fun type =>
        .set { action with type := type }
  | .numericMod =>
      ((parseNumericModifier input pos stop).orElse byte).map fun type2 =>
        .set { action with type2 := type2 }
  | .switch =>
      (((parseSwitch input pos stop).map UInt8.toUInt32).orElse long).map
        fun number => .set { action with number := number }
  | .switchMod =>
      ((parseSwitchMod input pos stop).orElse byte).map fun type2 =>
        .set { action with type2 := type2 }
  | .actionType =>
      byte.map fun actionType => .set { action with actionType := actionType }
  | .textFlags | .flags =>
      (((parseTextDisplayFlag input pos stop).map (· action.flags)).orElse
        byte).map fun flags => .set { action with flags := flags }
  | .number =>
      ((parsePlayer input pos stop).orElse <| (parseLocationName input pos stop).orElse <|
        (parseScript input pos stop).orElse <|
        ((parseSwitch input pos stop).map UInt8.toUInt32).orElse long).map
          fun number => .set { action with number := number }
  | .typeIndex =>
      ((parseUnitName input pos stop).orElse <|
        ((parseScoreType input pos stop).map UInt8.toUInt16).orElse <|
        ((parseResourceType input pos stop).map UInt8.toUInt16).orElse <|
        (parseAllianceStatus input pos stop).orElse short).map
          fun type => .set { action with type := type }
  | .secondaryTypeIndex =>
      ((parseSwitchMod input pos stop).orElse <| (parseOrder input pos stop).orElse <|
        (parseNumericModifier input pos stop).orElse <|
        (parseStateMod input pos stop).orElse byte).map
          fun type2 => .set { action with type2 := type2 }
  | .padding => byte.map fun padding => .set { action with padding := padding }
  | .maskFlag =>
      short.map fun maskFlag => .set { action with maskFlag := maskFlag }
  | .memoryOffset =>
      (if input.useAddressesForMemory then
        Attempt.ofOption (parseMemoryAddress input.deathTableOffset input.text pos stop)
      else long).map fun group => .set { action with group := group }

def expectedActionArg (useAddressesForMemory : Bool) : ActionArgument → String
  | .location | .secondaryLocation =>
      "Expected: Location name or 4-byte locationNum"
  | .string => "Expected: String or stringNum"
  | .player | .destPlayer => "Expected: Group name or 4-byte groupID"
  | .unit => "Expected: Unit name or 2-byte unitID"
  | .numUnits | .unitQuantity => "Expected: 1-byte number"
  | .cuwp | .percent | .amount => "Expected: 4-byte number"
  | .score => "Expected: Score type or 1-byte scoreID"
  | .resource => "Expected: Resource type or 2-byte number"
  | .stateMod => "Expected: State modifier or 1-byte number"
  | .order => "Expected: Order or 1-byte number"
  | .sound => "Expected: Wav name or 4-byte wavID"
  | .duration => "Expected: 4-byte duration"
  | .script => "Expected: Script name or 4-byte script num"
  | .allyState => "Expected: Alliance status or 2-byte number"
  | .numericMod => "Expected: Numeric modifier or 1-byte number"
  | .switch => "Expected: Switch name or 4-byte number"
  | .switchMod => "Expected: Switch modifier or 1-byte number"
  | .actionType => "Expected: 1-byte actionID"
  | .textFlags | .flags =>
      "Expected: Always display text flags or 1-byte flag data"
  | .number => "Expected: Group, location, script, switch, or 4-byte number"
  | .typeIndex =>
      "Expected: Unit, score type, resource type, alliance status, or 2-byte typeID"
  | .secondaryTypeIndex =>
      "Expected: Switch modifier, order, numeric modifier, state modifier, or 1-byte number"
  | .padding => "Expected: 1-byte padding"
  | .maskFlag => "Expected: 2-byte mask flag"
  | .memoryOffset =>
      if useAddressesForMemory then "Expected: 4-byte address"
      else "Expected: 4-byte death table offset"

end Chkdraft.TextTrigs
