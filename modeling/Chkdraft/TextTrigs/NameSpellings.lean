import Chkdraft.TextTrigs.NameRecognition

/-!
# Names and what is accepted for them

Generated text has one name for each type of a condition or an action.  The
compiler accepts these names, two further spellings, and whatever begins with a
name that it compares with the beginning of the text only.
-/

namespace Chkdraft.TextTrigs

open Chk Scan

/-- The names of conditions or actions in generated text, and other spellings
that are accepted. -/
structure NameTable (A : Type) where
  printed : List String
  nameOf : A → String
  others : List (String × A)

namespace NameTable

variable {A : Type} [DecidableEq A] (table : NameTable A)

def spellings (value : A) : List Text := upperNoBlanks (ascii (table.nameOf value)) ::
    (table.others.filter fun entry => entry.2 = value).map fun entry =>
      ascii entry.1

def all : List Text := (table.printed.map fun name => upperNoBlanks (ascii name)) ++
    table.others.map fun entry => ascii entry.1

/-- A name gives a type that is spelled so, and every spelling gives a type. -/
def RecognisedExactly (parsed : Except Hazard (Option A)) (arg : Text) : Prop :=
  (∀ value, parsed = .ok (some value) → arg ∈ table.spellings value) ∧
    (arg ∈ table.all → ∃ value, parsed = .ok (some value))

end NameTable

/-- `legacyConditionNames` of the generator. -/
def legacyConditionNames : List String :=
  ["No Condition", "Countdown Timer", "Command", "Bring", "Accumulate", "Kill",
    "Command the Most", "Commands the Most At", "Most Kills", "Highest Score",
    "Most Resources", "Switch", "Elapsed Time", "Never", "Opponents", "Deaths",
    "Command the Least", "Command the Least At", "Least Kills", "Lowest Score",
    "Least Resources", "Score", "Always", "Never"]

/-- `legacyActionNames` of the generator. -/
def legacyActionNames : List String :=
  ["No Action", "Victory", "Defeat", "Preserve Trigger", "Wait", "Pause Game",
    "Unpause Game", "Transmission", "Play WAV", "Display Text Message",
    "Center View", "Create Unit with Properties", "Set Mission Objectives",
    "Set Switch", "Set Countdown Timer", "Run AI Script",
    "Run AI Script At Location", "Leader Board Control",
    "Leader Board Control At Location", "Leader Board Resources",
    "Leader Board Kills", "Leader Board Points", "Kill Unit",
    "Kill Unit At Location", "Remove Unit", "Remove Unit At Location",
    "Set Resources", "Set Score", "Minimap Ping", "Talking Portrait",
    "Mute Unit Speech", "Unmute Unit Speech", "Leaderboard Computer Players",
    "Leaderboard Goal Control", "Leaderboard Goal Control At Location",
    "Leaderboard Goal Resources", "Leaderboard Goal Kills",
    "Leaderboard Goal Points", "Move Location", "Move Unit",
    "Leaderboard Greed", "Set Next Scenario", "Set Doodad State",
    "Set Invincibility", "Create Unit", "Set Deaths", "Order", "Comment",
    "Give Units to Player", "Modify Unit Hit Points", "Modify Unit Energy",
    "Modify Unit Shield Points", "Modify Unit Resource Amount",
    "Modify Unit Hanger Count", "Pause Timer", "Unpause Timer", "Draw",
    "Set Alliance Status", "Disable Debug Mode", "Enable Debug Mode"]

/-- The first entry stands for no condition and is not printed; types behind the
table are `Custom`, and deaths of a memory address `Memory`. -/
def conditionTable : NameTable VirtualCondition where
  printed := legacyConditionNames.tail ++ ["Custom", "Memory"]
  nameOf := fun condition =>
    if condition = .memory then "Memory"
    else legacyConditionNames.getD condition.conditionType.toNat "Custom"
  others := [("COMMANDTHEMOSTAT", .commandTheMostAt)]

def actionTable : NameTable VirtualAction where
  printed := legacyActionNames.tail ++ ["Custom", "Set Memory"]
  nameOf := fun action =>
    if action = .setMemory then "Set Memory"
    else legacyActionNames.getD action.actionType.toNat "Custom"
  others := [("MEMORY", .setMemory)]

/-- The text is not longer than a name it begins with. -/
def NotLonger {A : Type} (names : List (NamePattern × A)) (arg : Text) : Prop :=
  ∀ entry ∈ names, ∀ name, entry.1 = .beginsWith name →
    continuesWith arg 0 name = true → arg = ascii name

/-- The list compares the spellings of the table, but for some it leaves
unread. -/
structure Compares {A : Type} [DecidableEq A] (names : List (NamePattern × A))
    (table : NameTable A) (unread : List Text) : Prop where
  spelled : ∀ entry ∈ names, ascii entry.1.name ∈ table.spellings entry.2
  compared : ∀ entry ∈ names, ∀ spelling ∈ table.spellings entry.2,
    ∃ other ∈ names, ascii other.1.name = spelling
  complete : ∀ spelling ∈ table.all,
    spelling ∈ unread ∨ ∃ entry ∈ names, ascii entry.1.name = spelling
  unreadSpelled : ∀ spelling ∈ unread, spelling ∈ table.all
  unreadNone : ∀ spelling ∈ unread, findName names spelling = none

theorem compares_iff {A : Type} [DecidableEq A] {names : List (NamePattern × A)}
    {table : NameTable A} {unread : List Text} :
    Compares names table unread ↔ (∀ entry ∈ names, ascii entry.1.name ∈ table.spellings entry.2) ∧
      (∀ entry ∈ names, ∀ spelling ∈ table.spellings entry.2,
        ∃ other ∈ names, ascii other.1.name = spelling) ∧
      (∀ spelling ∈ table.all, spelling ∈ unread ∨ ∃ entry ∈ names, ascii entry.1.name = spelling) ∧
      (∀ spelling ∈ unread, spelling ∈ table.all) ∧
      ∀ spelling ∈ unread, findName names spelling = none :=
  ⟨fun h => ⟨h.1, h.2, h.3, h.4, h.5⟩,
    fun ⟨spelled, compared, complete, unreadSpelled, unreadNone⟩ =>
      ⟨spelled, compared, complete, unreadSpelled, unreadNone⟩⟩

theorem compares_conditionNames : Compares conditionNames conditionTable [] := by
  simp only [compares_iff, NameTable.spellings, NameTable.all, ascii_eq_asciiBytes]
  decide +kernel

/-- The generator prints two names that nothing compares. -/
theorem compares_actionNames : Compares actionNames actionTable
      [ascii "DISABLEDEBUGMODE", ascii "ENABLEDEBUGMODE"] := by
  simp only [compares_iff, NameTable.spellings, NameTable.all, ascii_eq_asciiBytes]
  decide +kernel

theorem notLonger_iff {A : Type} {names : List (NamePattern × A)}
    {arg : Text} :
    NotLonger names arg ↔ ∀ entry ∈ names, entry.1.matches arg = true →
        arg = ascii entry.1.name := by
  constructor
  · rintro hnotLonger ⟨pattern, value⟩ hentry hmatches
    cases pattern with
    | beginsWith name => exact hnotLonger _ hentry name rfl hmatches
    | exactly name => exact of_decide_eq_true hmatches
  · rintro hnames ⟨pattern, value⟩ hentry name rfl hcontinues
    exact hnames _ hentry hcontinues

section Accepted

variable {A : Type} [DecidableEq A] {names : List (NamePattern × A)}
  {table : NameTable A} {unread : List Text} {arg : Text}

/-- A text found for a type is a spelling of the type unless it is longer than a
name. -/
theorem Compares.mem_spellings_iff (hcompares : Compares names table unread)
    (hunambiguous : Unambiguous names) {entry : NamePattern × A}
    (hentry : entry ∈ names) (hmatches : entry.1.matches arg = true) :
    arg ∈ table.spellings entry.2 ↔ arg = ascii entry.1.name := by
  constructor
  · intro harg
    obtain ⟨other, hother, rfl⟩ := hcompares.compared entry hentry arg harg
    rw [hunambiguous.eq hentry hother hmatches other.1.matches_name]
  · intro harg
    rw [harg]
    exact hcompares.spelled entry hentry

theorem Compares.recognisedExactly_iff (hcompares : Compares names table unread)
    (hunambiguous : Unambiguous names) (arg : Text) :
    table.RecognisedExactly (.ok (findName names arg)) arg ↔
      NotLonger names arg ∧ arg ∉ unread := by
  simp only [NameTable.RecognisedExactly, Except.ok.injEq, notLonger_iff]
  constructor
  · rintro ⟨hspelled, hfound⟩
    constructor
    · intro entry hentry hmatches
      have harg := hspelled entry.2 ((findName_eq_some_iff hunambiguous).mpr
        ⟨entry, hentry, hmatches, rfl⟩)
      exact (hcompares.mem_spellings_iff hunambiguous hentry hmatches).mp harg
    · intro hunread
      obtain ⟨value, hvalue⟩ := hfound (hcompares.unreadSpelled arg hunread)
      rw [hcompares.unreadNone arg hunread] at hvalue
      nomatch hvalue
  · rintro ⟨hnames, hread⟩
    constructor
    · intro value hvalue
      obtain ⟨entry, hentry, hmatches, rfl⟩ := (findName_eq_some_iff hunambiguous).mp hvalue
      exact (hcompares.mem_spellings_iff hunambiguous hentry hmatches).mpr
        (hnames entry hentry hmatches)
    · intro hall
      rcases hcompares.complete arg hall with hunread | ⟨entry, hentry, rfl⟩
      · exact absurd hunread hread
      · exact ⟨entry.2, (findName_eq_some_iff hunambiguous).mpr
          ⟨entry, hentry, entry.1.matches_name, rfl⟩⟩

/-- A text that is too long for the copy is not read at all. -/
theorem recognisedExactly_error {hazard : Hazard} :
    table.RecognisedExactly (.error hazard) arg ↔ arg ∉ table.all := by
  simp [NameTable.RecognisedExactly]

end Accepted

/-- `parseCondition` and `parseAction` give a type exactly to its spellings as
long as no text is longer than a name it begins with and none is a name that
only the generator has. -/
theorem namesRecognisedExactly_iff (text : Text) (pos stop : ℕ) :
    (conditionTable.RecognisedExactly (parseCondition text pos stop)
        (upperNoBlanks (slice text pos stop)) ↔
      if (slice text pos stop).length < 2 ^ 32 then
        NotLonger conditionNames (upperNoBlanks (slice text pos stop))
      else upperNoBlanks (slice text pos stop) ∉ conditionTable.all) ∧
    (actionTable.RecognisedExactly (parseAction text pos stop)
        (upperNoBlanks (slice text pos stop)) ↔
      if (slice text pos stop).length < 2 ^ 32 then
        NotLonger actionNames (upperNoBlanks (slice text pos stop)) ∧
          upperNoBlanks (slice text pos stop) ∉
            [ascii "DISABLEDEBUGMODE", ascii "ENABLEDEBUGMODE"]
      else upperNoBlanks (slice text pos stop) ∉ actionTable.all) := by
  have hcondition := compares_conditionNames.recognisedExactly_iff
    recognises_conditionNamed.unambiguous
    (upperNoBlanks (slice text pos stop))
  have haction := compares_actionNames.recognisedExactly_iff recognises_actionNamed.unambiguous
    (upperNoBlanks (slice text pos stop))
  rw [parseCondition, parseAction, copyUpperCase]
  split
  · constructor
    · rw [Except.map, hcondition]
      exact and_iff_left List.not_mem_nil
    · rw [Except.map, haction]
  · exact ⟨recognisedExactly_error, recognisedExactly_error⟩

theorem not_recognisedExactly_killed :
    ¬ conditionTable.RecognisedExactly (parseCondition (ascii "Killed") 0 6)
      (upperNoBlanks (slice (ascii "Killed") 0 6)) := by
  rintro ⟨hspelled, -⟩
  have hparsed : parseCondition (ascii "Killed") 0 6 = .ok (some .kill) := by
    decide
  exact absurd (hspelled .kill hparsed) (by decide)

end Chkdraft.TextTrigs
