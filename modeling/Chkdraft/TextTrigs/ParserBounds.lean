import Chkdraft.TextTrigs.Faults
import Chkdraft.TextTrigs.LiteralLexing

/-!
# Bounds of the parser

Every pass of the parser leaves the loop or lowers a measure of the rest of the
text and of what is expected, and no character behind the NUL is looked at.
Names, flags and players are copied with a counter of 32 bits, however, and the
copy of a longer text never ends.
-/

namespace Chkdraft.TextTrigs

open Chk Scan Sections Scenario

/-- The characters `while ( text[pos] == '\n' )` looks at, up to the one that
ends it. -/
def skipReads (text : Text) (pos : ℕ) : List ℕ :=
  List.range' pos (((text.drop pos).takeWhile (· = newline)).length + 1)

/-- The first character of a span, which decides how it is read, and those in
the span. -/
def spanReads (pos stop : ℕ) : List ℕ := pos :: List.range' pos (stop - pos)

/-- The positions at which a part may look at a character by index.  Comparisons
with a name and searches stay inside the text by themselves. -/
def partReads (input : CompilerInput) (cursor : Cursor) : List ℕ :=
  let text := input.text
  let pos := cursor.pos
  match cursor.expecting with
  | .triggerOrEndOfText =>
      if continuesWith text pos "TRIGGER(" then []
      else if continuesWith text pos "TRIGGER" then skipReads text (pos + 7)
      else [pos]
  | .playerOrEndOfPlayers =>
      pos :: ((playerEnd text pos).toList.flatMap fun stop =>
        spanReads pos stop ++ skipReads text stop ++
        ((find text 58 pos).toList.flatMap fun separator =>
          spanReads pos separator ++
          List.range' (separator + 1) (stop - (separator + 1))))
  | .sectionStartOrEndOfTrigger =>
      pos ::
        if continuesWith text pos "CONDITIONS" then skipReads text (pos + 10)
        else if continuesWith text pos "ACTIONS" then skipReads text (pos + 7)
        else []
  | .conditionStartOrNonConditionSectionStart =>
      pos :: (if charAt text pos = 59 then skipReads text (pos + 1) else []) ++
        (if continuesWith text pos "ACTIONS" then skipReads text (pos + 7)
        else if continuesWith text pos "FLAGS" then [pos + 5]
        else []) ++
        ((conditionNameAt text cursor).toList.flatMap fun (start, stop) =>
          spanReads start stop ++ skipReads text stop)
  | .conditionArgOrEndOfCondition conditionId argIndex =>
      pos :: (if charAt text pos = 41 then skipReads text (pos + 1) else []) ++
        ((argumentAt text conditionId.textArguments argIndex
          cursor).toList.flatMap fun (_, argEnd) => spanReads pos argEnd)
  | .actionStartOrFlagSectionStartOrEndOfTrigger =>
      pos ::
        (if continuesWith text pos "FLAGS" then [pos + 5] else []) ++
        ((actionNameAt text cursor).toList.flatMap fun (start, stop) =>
          spanReads start stop)
  | .actionArgOrEndOfAction actionId argIndex =>
      pos :: (if charAt text pos = 41 then skipReads text (pos + 1) else []) ++
        ((argumentAt text actionId.textArguments argIndex
          cursor).toList.flatMap fun (_, argEnd) => spanReads pos argEnd)
  | .executionFlags =>
      pos :: (find text 59 pos).toList.flatMap fun flagsEnd =>
        spanReads pos flagsEnd
  | _ => [pos]

def passReads (input : CompilerInput) (cursor : Cursor) : List ℕ :=
  if cursor.pos < input.text.length then
    cursor.pos ::
      if charAt input.text cursor.pos = newline then []
      else partReads input cursor
  else
    []

def InText (text : Text) (positions : List ℕ) : Prop := ∀ pos ∈ positions, pos < text.length

section InText

variable {text : Text} {positions others : List ℕ} {pos stop : ℕ}

@[simp]
theorem inText_nil : InText text [] := by simp [InText]

@[simp]
theorem inText_cons : InText text (pos :: positions) ↔ pos < text.length ∧ InText text positions :=
  List.forall_mem_cons

@[simp]
theorem inText_append : InText text (positions ++ others) ↔
      InText text positions ∧ InText text others :=
  List.forall_mem_append

theorem inText_flatMap_toList {A : Type} {value : Option A}
    {reads : A → List ℕ}
    (hreads : ∀ found, value = some found → InText text (reads found)) :
    InText text (value.toList.flatMap reads) := by
  cases value with
  | none => simp
  | some found => simpa using hreads found rfl

theorem inText_range' {count : ℕ} (hstop : pos + count ≤ text.length) :
    InText text (List.range' pos count) := by
  intro index hmem
  rw [List.mem_range'_1] at hmem
  omega

theorem inText_spanReads (hpos : pos < text.length) (hstop : stop < text.length) :
    InText text (spanReads pos stop) := by
  rw [spanReads, inText_cons]
  exact ⟨hpos, inText_range' (by omega)⟩

theorem inText_skipReads (hnul : EndsWithNul text) (hpos : pos < text.length) :
    InText text (skipReads text pos) := by
  apply inText_range'
  obtain ⟨body, rfl⟩ := hnul
  rw [List.length_append, List.length_singleton] at hpos ⊢
  rw [List.drop_append_of_le_length (by omega), List.takeWhile_append]
  have hbody := (List.takeWhile_sublist (p := fun character : UInt8 =>
    decide (character = newline)) (l := body.drop pos)).length_le
  rw [List.length_drop] at hbody
  split
  · have hlast : ([0] : Text).takeWhile (· = newline) = [] := by decide
    rw [hlast, List.append_nil, List.length_drop]
    omega
  · omega

end InText

section Reads

variable {text : Text} {cursor : Cursor} {start stop : ℕ}

/-- The reads of an argument, or of what stands behind the last one. -/
theorem inText_argumentReads {A : Type} {arguments : List A} {argIndex : ℕ}
    (hnul : EndsWithNul text) (hpos : cursor.pos < text.length) :
    InText text (cursor.pos :: (if charAt text cursor.pos = 41 then skipReads text (cursor.pos + 1)
        else []) ++
      ((argumentAt text arguments argIndex cursor).toList.flatMap
        fun (_, argEnd) => spanReads cursor.pos argEnd)) := by
  refine inText_append.mpr ⟨inText_cons.mpr ⟨hpos, ?_⟩, ?_⟩
  · split
    · rename_i hchar
      apply inText_skipReads hnul
      exact hnul.lt_of_charAt (hchar ▸ (by decide : (41 : UInt8) ≠ 0))
    · exact inText_nil
  · apply inText_flatMap_toList
    rintro ⟨argument, argEnd⟩ hargument
    obtain ⟨-, -, hfind⟩ := argumentAt_eq_some_iff.mp hargument
    exact inText_spanReads hpos (find_spec hfind).2.1

theorem inText_partReads {input : CompilerInput}
    (hnul : EndsWithNul input.text) (hpos : cursor.pos < input.text.length) :
    InText input.text (partReads input cursor) := by
  have hkeyword : ∀ {name : String}, 0 ∉ ascii name → 0 < name.length →
      continuesWith input.text cursor.pos name = true →
      cursor.pos + name.length < input.text.length :=
    fun hzero hempty hname => hnul.lt_of_continuesWith hname hzero hempty
  rw [partReads]
  cases cursor.expecting with
  | triggerOrEndOfText =>
      simp only
      split
      · exact inText_nil
      · split
        · rename_i hname
          exact inText_skipReads hnul (hkeyword (by decide) (by decide) hname)
        · simpa using hpos
  | playerOrEndOfPlayers =>
      refine inText_cons.mpr ⟨hpos, inText_flatMap_toList fun stop hstop => ?_⟩
      obtain ⟨-, hlt, -⟩ := playerEnd_spec hstop
      refine inText_append.mpr ⟨inText_append.mpr ⟨inText_spanReads hpos hlt,
        inText_skipReads hnul hlt⟩, inText_flatMap_toList ?_⟩
      intro separator hfind
      refine inText_append.mpr ⟨inText_spanReads hpos (find_spec hfind).2.1, ?_⟩
      have hseparator := (find_spec hfind).2.1
      exact inText_range' (by omega)
  | sectionStartOrEndOfTrigger =>
      refine inText_cons.mpr ⟨hpos, ?_⟩
      split
      · rename_i hname
        exact inText_skipReads hnul (hkeyword (by decide) (by decide) hname)
      · split
        · rename_i hname
          exact inText_skipReads hnul (hkeyword (by decide) (by decide) hname)
        · exact inText_nil
  | conditionStartOrNonConditionSectionStart =>
      refine inText_append.mpr ⟨inText_append.mpr
        ⟨inText_cons.mpr ⟨hpos, ?_⟩, ?_⟩, inText_flatMap_toList ?_⟩
      · split
        · rename_i hchar
          apply inText_skipReads hnul
          exact hnul.lt_of_charAt (hchar ▸ (by decide : (59 : UInt8) ≠ 0))
        · exact inText_nil
      · split
        · rename_i hname
          exact inText_skipReads hnul (hkeyword (by decide) (by decide) hname)
        · split
          · rename_i hname
            exact inText_cons.mpr ⟨hkeyword (by decide) (by decide) hname, inText_nil⟩
          · exact inText_nil
      · rintro ⟨start, stop⟩ hname
        obtain ⟨-, hle, hstop⟩ := conditionNameAt_spec hname
        exact inText_append.mpr ⟨inText_spanReads (Nat.lt_of_le_of_lt hle hstop) hstop,
            inText_skipReads hnul hstop⟩
  | conditionArgOrEndOfCondition conditionId argIndex =>
      exact inText_argumentReads hnul hpos
  | actionStartOrFlagSectionStartOrEndOfTrigger =>
      refine inText_append.mpr ⟨inText_cons.mpr ⟨hpos, ?_⟩, inText_flatMap_toList ?_⟩
      · split
        · rename_i hname
          exact inText_cons.mpr ⟨hkeyword (by decide) (by decide) hname, inText_nil⟩
        · exact inText_nil
      · rintro ⟨start, stop⟩ hname
        obtain ⟨-, hle, hstop, -⟩ := actionNameAt_spec hname
        exact inText_spanReads (Nat.lt_of_le_of_lt hle hstop) hstop
  | actionArgOrEndOfAction actionId argIndex =>
      exact inText_argumentReads hnul hpos
  | executionFlags =>
      refine inText_cons.mpr ⟨hpos, inText_flatMap_toList fun flagsEnd hfind => ?_⟩
      exact inText_spanReads hpos (find_spec hfind).2.1
  | _ => simpa using hpos

theorem inText_passReads {input : CompilerInput} (hnul : EndsWithNul input.text) (cursor : Cursor) :
    InText input.text (passReads input cursor) := by
  rw [passReads]
  split
  · rename_i hpos
    refine inText_cons.mpr ⟨hpos, ?_⟩
    split
    · exact inText_nil
    · exact inText_partReads hnul hpos
  · exact inText_nil

end Reads

/-- The text `parsePlayer` copies, unless it reads a number. -/
def playerName (input : CompilerInput) (pos stop nextString : ℕ) : Option Text :=
  if charAt input.text pos = quote then input.stringContents[nextString]?
  else if (parseLong input.text pos stop).isSome then none
  else some (slice input.text pos stop)

/-- The texts `parseExecutingPlayer` copies: up to the separator, and once more
if that names no owner. -/
def executingPlayerNames (input : CompilerInput) (pos stop nextString : ℕ) : List Text :=
  match find input.text 58 pos with
  | none => (playerName input pos stop nextString).toList
  | some separator =>
      (playerName input pos separator nextString).toList ++
        match ((parsePlayer input pos separator).filter fun group =>
            decide (group.toNat < maxOwners)) nextString with
        | .ok (none, following) =>
            (playerName input pos stop following).toList
        | _ => []

/-- The texts a pass copies with a counter of 32 bits. -/
def copiedTexts (input : CompilerInput) (cursor : Cursor) : List Text :=
  let text := input.text
  match cursor.expecting with
  | .playerOrEndOfPlayers =>
      if charAt text cursor.pos = 41 then []
      else (playerEnd text cursor.pos).toList.flatMap fun stop =>
        executingPlayerNames input cursor.pos stop cursor.nextString
  | .conditionStartOrNonConditionSectionStart =>
      (conditionNameAt text cursor).toList.map fun (start, stop) =>
        slice text start stop
  | .conditionArgOrEndOfCondition conditionId argIndex =>
      (argumentAt text conditionId.textArguments argIndex
        cursor).toList.flatMap fun (argument, argEnd) =>
          match argument with
          | .player => (playerName input cursor.pos argEnd
              cursor.nextString).toList
          | _ => []
  | .actionStartOrFlagSectionStartOrEndOfTrigger =>
      (actionNameAt text cursor).toList.map fun (start, stop) =>
        slice text start stop
  | .actionArgOrEndOfAction actionId argIndex =>
      (argumentAt text actionId.textArguments argIndex
        cursor).toList.flatMap fun (argument, argEnd) =>
          match argument with
          | .player | .destPlayer | .number =>
              (playerName input cursor.pos argEnd cursor.nextString).toList
          | _ => []
  | .executionFlags =>
      if charAt text cursor.pos = 59 then []
      else (find text 59 cursor.pos).toList.map fun flagsEnd =>
        slice text cursor.pos flagsEnd
  | _ => []

/-- Some text is too long for its counter. -/
def TooLong (texts : List Text) : Prop := ∃ copied ∈ texts, 2 ^ 32 ≤ copied.length

/-- An attempt that always comes to an end. -/
def Attempt.Ends {A : Type} (attempt : Attempt A) : Prop :=
  ∀ nextString, attempt nextString ≠ .error .endlessLoop

namespace Attempt

variable {A B : Type} {attempt first second : Attempt A} {nextString : ℕ}

theorem map_eq_endless_iff {change : A → B} : attempt.map change nextString = .error .endlessLoop ↔
      attempt nextString = .error .endlessLoop := by
  rw [map]
  cases attempt nextString <;> simp [Except.map]

theorem filter_eq_endless_iff {accepts : A → Bool} :
    attempt.filter accepts nextString = .error .endlessLoop ↔
      attempt nextString = .error .endlessLoop := by
  rw [filter]
  cases attempt nextString <;> simp [Except.map]

/-- The second attempt is only made when the first finds nothing. -/
theorem orElse_eq_endless_iff :
    first.orElse second nextString = .error .endlessLoop ↔
      first nextString = .error .endlessLoop ∨
        ∃ following, first nextString = .ok (none, following) ∧
          second following = .error .endlessLoop := by
  rw [orElse]
  split
  · rename_i following hfirst
    simp [hfirst]
  · rename_i hfirst
    constructor
    · exact .inl
    · rintro (hendless | ⟨following, hnone, -⟩)
      · exact hendless
      · exact absurd hnone (hfirst following)

theorem ends_ofOption (value : Option A) : (ofOption value).Ends := nofun

theorem ends_ofResult {result : Except Hazard (Option A)}
    (hresult : result ≠ .error .endlessLoop) : (ofResult result).Ends := by
  intro nextString
  cases result with
  | ok value => exact nofun
  | error hazard => simpa [ofResult, Except.map] using hresult

theorem ends_literal {stringContents : List Text}
    {read : Text → Except Hazard (Option A)}
    (hread : ∀ content, read content ≠ .error .endlessLoop) :
    (literal stringContents read).Ends := by
  intro nextString
  rw [literal]
  split
  · rename_i content _
    exact (ends_ofResult (hread content)) (nextString + 1)
  · intro hendless
    cases hendless

theorem Ends.map (change : A → B) (hends : attempt.Ends) : (attempt.map change).Ends :=
  fun nextString hendless => hends nextString (map_eq_endless_iff.mp hendless)

theorem Ends.orElse (hfirst : first.Ends) (hsecond : second.Ends) : (first.orElse second).Ends := by
  intro nextString hendless
  rcases orElse_eq_endless_iff.mp hendless with hendless | ⟨following, -, hendless⟩
  · exact hfirst nextString hendless
  · exact hsecond following hendless

theorem orElse_eq_endless_iff_of_ends (hsecond : second.Ends) :
    first.orElse second nextString = .error .endlessLoop ↔
      first nextString = .error .endlessLoop := by
  rw [orElse_eq_endless_iff]
  constructor
  · rintro (hendless | ⟨following, -, hendless⟩)
    · exact hendless
    · exact absurd hendless (hsecond following)
  · exact .inl

end Attempt

section Ends

variable {A : Type} {input : CompilerInput} {pos stop : ℕ}

theorem ends_parseName {read : Text → Except Hazard (Option A)}
    (hread : ∀ content, read content ≠ .error .endlessLoop) :
    (parseName read input pos stop).Ends := by
  rw [parseName]
  split
  · exact Attempt.ends_literal hread
  · exact Attempt.ends_ofResult (hread _)

theorem ends_parseNumberOrName {number : Option A}
    {read : Text → Except Hazard (Option A)}
    (hread : ∀ content, read content ≠ .error .endlessLoop) :
    (parseNumberOrName number read input pos stop).Ends := by
  rw [parseNumberOrName]
  split
  · exact Attempt.ends_ofOption _
  · exact ends_parseName hread

theorem ends_parseKeyword {capacity : ℕ} {keywords : List (String × A)} :
    (parseKeyword capacity keywords input pos stop).Ends := by
  apply ends_parseName
  intro content
  rw [copyUpperCaseNoSpace]
  split <;> exact nofun

theorem ends_parseLocationName : (parseLocationName input pos stop).Ends := by
  simp only [parseLocationName]
  split
  · exact Attempt.ends_ofOption _
  · split
    · exact ends_parseNumberOrName nofun
    · exact Attempt.ends_ofOption _

theorem unitNamed_ne_endless (tables : NameTables) (name : Text) :
    unitNamed tables name ≠ .error .endlessLoop := by
  simp only [unitNamed]
  split
  · rw [unitById]
    split <;> exact nofun
  · split <;> exact nofun

theorem ends_parseUnitName : (parseUnitName input pos stop).Ends := by
  rw [parseUnitName]
  split
  · exact Attempt.ends_ofOption _
  · exact ends_parseNumberOrName (unitNamed_ne_endless _)

theorem standardSwitch_ne_endless (name : Text) : standardSwitch name ≠ .error .endlessLoop := by
  simp only [standardSwitch]
  split
  · split <;> exact nofun
  · split <;> exact nofun

theorem switchNamed_ne_endless (tables : NameTables) (name : Text) :
    switchNamed tables name ≠ .error .endlessLoop := by
  rw [switchNamed]
  split
  · have hstandard := standardSwitch_ne_endless name
    cases hread : standardSwitch name with
    | ok value => exact nofun
    | error hazard =>
        rw [hread] at hstandard
        simpa [bind, Except.bind] using hstandard
  · exact nofun

theorem ends_parseSwitch : (parseSwitch input pos stop).Ends :=
  ends_parseNumberOrName (switchNamed_ne_endless _)

theorem ends_parseScript : (parseScript input pos stop).Ends := by
  rw [parseScript]
  split
  · exact Attempt.ends_ofOption _
  · exact ends_parseName nofun

theorem ends_parseString : (parseString input pos stop).Ends := by
  rw [parseString]
  split
  · exact Attempt.ends_ofOption _
  · split
    · apply Attempt.ends_literal
      intro content hendless
      cases hendless
    · exact Attempt.ends_ofOption _

theorem ends_parseSoundName : (parseSoundName input pos stop).Ends := by
  rw [parseSoundName]
  split
  · exact Attempt.ends_ofOption _
  · exact ends_parseString

end Ends

/-! ## Copies that do not end -/

section Copies

variable {input : CompilerInput} {pos stop nextString : ℕ}

theorem copyUpperCase_map_eq_endless_iff {A : Type} {source : Text}
    {change : Text → A} :
    (copyUpperCase source).map change = .error .endlessLoop ↔ 2 ^ 32 ≤ source.length := by
  rw [copyUpperCase]
  split
  · rename_i hlt
    exact iff_of_false nofun (Nat.not_le.mpr hlt)
  · rename_i hle
    exact iff_of_true rfl (Nat.le_of_not_lt hle)

theorem atoi_map_ne_endless {A : Type} {text : Text} {change : ℤ → A} :
    (atoi text).map change ≠ .error .endlessLoop := by
  simp only [atoi]
  split <;> exact nofun

theorem groupKeyword_ne_endless (upper : Text) : groupKeyword upper ≠ .error .endlessLoop := by
  rw [groupKeyword]
  repeat' split
  all_goals first | exact atoi_map_ne_endless | exact nofun

theorem groupNamed_eq_endless_iff {tables : NameTables} {name : Text} :
    groupNamed tables name = .error .endlessLoop ↔ 2 ^ 32 ≤ name.length := by
  rw [groupNamed, copyUpperCase]
  split
  · rename_i hlt
    apply iff_of_false _ (Nat.not_le.mpr hlt)
    have hkeyword := groupKeyword_ne_endless (upperNoBlanks name)
    simp only [bind, Except.bind]
    cases hread : groupKeyword (upperNoBlanks name) with
    | ok value => exact nofun
    | error hazard =>
        rw [hread] at hkeyword
        simpa using hkeyword
  · rename_i hle
    exact iff_of_true rfl (Nat.le_of_not_lt hle)

theorem parsePlayer_eq_endless_iff : parsePlayer input pos stop nextString = .error .endlessLoop ↔
      TooLong (playerName input pos stop nextString).toList := by
  have hread : ∀ (name : Text) (following : ℕ), (groupNamed input.tables name).map (·, following) =
        .error .endlessLoop ↔ 2 ^ 32 ≤ name.length := by
    intro name following
    rw [← @groupNamed_eq_endless_iff input.tables name]
    cases groupNamed input.tables name <;> simp [Except.map]
  simp only [parsePlayer, parseNumberOrName, parseName, playerName, TooLong]
  by_cases hquote : charAt input.text pos = quote
  · simp only [hquote, ne_eq, not_true_eq_false, false_and, if_false, if_true, Attempt.literal]
    cases input.stringContents[nextString]? with
    | none => simp
    | some content => simpa using hread content (nextString + 1)
  · simp only [hquote, ne_eq, not_false_eq_true, true_and, if_false]
    by_cases hnumber : (parseLong input.text pos stop).isSome = true
    · simp only [hnumber, if_true]
      exact iff_of_false (Attempt.ends_ofOption _ _) (by simp)
    · simp only [hnumber]
      simpa [Attempt.ofResult] using hread (slice input.text pos stop) nextString

theorem tooLong_append {first second : List Text} :
    TooLong (first ++ second) ↔ TooLong first ∨ TooLong second := by
  simp only [TooLong, List.mem_append, or_and_right, exists_or]

theorem not_tooLong_nil : ¬ TooLong [] := by
  rintro ⟨copied, hmem, -⟩
  cases hmem

theorem parseExecutingPlayer_eq_endless_iff :
    parseExecutingPlayer input pos stop nextString = .error .endlessLoop ↔
      TooLong (executingPlayerNames input pos stop nextString) := by
  have hplain : ∀ following, (((parsePlayer input pos stop).filter fun group =>
        decide (group.toNat < maxOwners)).map (·, (1 : UInt8))) following = .error .endlessLoop ↔
        TooLong (playerName input pos stop following).toList := by
    intro following
    rw [Attempt.map_eq_endless_iff, Attempt.filter_eq_endless_iff, parsePlayer_eq_endless_iff]
  simp only [parseExecutingPlayer, executingPlayerNames]
  cases find input.text 58 pos with
  | none => exact hplain nextString
  | some separator =>
      simp only
      rw [Attempt.orElse_eq_endless_iff, tooLong_append, Attempt.map_eq_endless_iff,
        Attempt.filter_eq_endless_iff, parsePlayer_eq_endless_iff]
      apply or_congr Iff.rfl
      simp only [hplain]
      -- The second reading starts behind the literals of the first.
      rw [Attempt.map]
      generalize ((parsePlayer input pos separator).filter _) nextString =
        first
      rcases first with hazard | ⟨_ | group, following⟩
      · simp [Except.map, not_tooLong_nil]
      · simp [Except.map]
      · simp [Except.map, not_tooLong_nil]

theorem parseConditionArg_eq_endless_iff {argument : ConditionArgument}
    {condition : Condition} :
    parseConditionArg input argument pos stop condition nextString = .error .endlessLoop ↔
      argument = .player ∧ TooLong (playerName input pos stop nextString).toList := by
  have hends : ∀ {A : Type} {attempt : Attempt A} {change : A → Condition},
      attempt.Ends → argument ≠ .player →
      (attempt.map change nextString = .error .endlessLoop ↔ argument = .player ∧
          TooLong (playerName input pos stop nextString).toList) := by
    intro A attempt change hattempt hother
    exact iff_of_false (hattempt.map change nextString) fun hboth => hother hboth.1
  have hnumber : ∀ {A : Type} (value : Option A),
      (Attempt.ofOption value).Ends := fun value => Attempt.ends_ofOption value
  unfold parseConditionArg
  cases argument with
  | player =>
      simp only [true_and]
      rw [Attempt.map_eq_endless_iff, Attempt.orElse_eq_endless_iff_of_ends (hnumber _),
        parsePlayer_eq_endless_iff]
  | unit => exact hends (ends_parseUnitName.orElse (hnumber _)) nofun
  | location => exact hends (ends_parseLocationName.orElse (hnumber _)) nofun
  | switch => exact hends (ends_parseSwitch.orElse (hnumber _)) nofun
  | numericComparison | resource | score | switchState =>
      exact hends (ends_parseKeyword.orElse (hnumber _)) nofun
  | comparison =>
      exact hends ((hnumber _).orElse (ends_parseKeyword.orElse ends_parseKeyword)) nofun
  | typeIndex =>
      exact hends ((hnumber _).orElse (ends_parseKeyword.orElse
        (ends_parseKeyword.orElse ends_parseSwitch))) nofun
  | amount | conditionType | flags | maskFlag =>
      exact hends (hnumber _) nofun
  | memoryOffset =>
      apply hends _ nofun
      split <;> exact hnumber _

theorem parseActionArg_eq_endless_iff {argument : ActionArgument}
    {action : Action} :
    parseActionArg input argument pos stop action nextString = .error .endlessLoop ↔
      (argument = .player ∨ argument = .destPlayer ∨ argument = .number) ∧
        TooLong (playerName input pos stop nextString).toList := by
  have hends : ∀ {A : Type} {attempt : Attempt A} {change : A → ActionEffect}, attempt.Ends →
      ¬ (argument = .player ∨ argument = .destPlayer ∨ argument = .number) →
      (attempt.map change nextString = .error .endlessLoop ↔
        (argument = .player ∨ argument = .destPlayer ∨ argument = .number) ∧
          TooLong (playerName input pos stop nextString).toList) := by
    intro A attempt change hattempt hother
    exact iff_of_false (hattempt.map change nextString) fun hboth => hother hboth.1
  have hnumber : ∀ {A : Type} (value : Option A),
      (Attempt.ofOption value).Ends := fun value => Attempt.ends_ofOption value
  unfold parseActionArg
  cases argument with
  | player | destPlayer =>
      simp only [true_or, or_true, true_and]
      rw [Attempt.map_eq_endless_iff, Attempt.orElse_eq_endless_iff_of_ends (hnumber _),
        parsePlayer_eq_endless_iff]
  | number =>
      simp only [or_true, true_and]
      rw [Attempt.map_eq_endless_iff,
        Attempt.orElse_eq_endless_iff_of_ends (ends_parseLocationName.orElse (ends_parseScript.orElse ((ends_parseSwitch.map _).orElse (hnumber _)))),
        parsePlayer_eq_endless_iff]
  | location | secondaryLocation =>
      exact hends (ends_parseLocationName.orElse (hnumber _)) (by simp)
  | string =>
      exact hends (ends_parseString.orElse ((hnumber _).map _)) (by simp)
  | sound =>
      exact hends (ends_parseSoundName.orElse ((hnumber _).map _)) (by simp)
  | unit => exact hends (ends_parseUnitName.orElse (hnumber _)) (by simp)
  | script => exact hends (ends_parseScript.orElse (hnumber _)) (by simp)
  | switch =>
      exact hends ((ends_parseSwitch.map _).orElse (hnumber _)) (by simp)
  | numUnits | stateMod | order | allyState | numericMod | switchMod =>
      exact hends (ends_parseKeyword.orElse (hnumber _)) (by simp)
  | score | resource | textFlags | flags =>
      exact hends ((ends_parseKeyword.map _).orElse (hnumber _)) (by simp)
  | typeIndex =>
      exact hends (ends_parseUnitName.orElse ((ends_parseKeyword.map _).orElse
        ((ends_parseKeyword.map _).orElse (ends_parseKeyword.orElse (hnumber _))))) (by simp)
  | secondaryTypeIndex =>
      exact hends (ends_parseKeyword.orElse (ends_parseKeyword.orElse
        (ends_parseKeyword.orElse (ends_parseKeyword.orElse (hnumber _)))))
        (by simp)
  | unitQuantity | cuwp | percent | amount | duration | actionType | padding
  | maskFlag => exact hends (hnumber _) (by simp)
  | memoryOffset =>
      apply hends _ (by simp)
      split <;> exact hnumber _

end Copies

/-- What a pass copies, if it comes to a part. -/
def passCopies (input : CompilerInput) (cursor : Cursor) : List Text :=
  if cursor.pos < input.text.length ∧ charAt input.text cursor.pos ≠ newline
  then copiedTexts input cursor
  else []

theorem tooLong_singleton {copied : Text} : TooLong [copied] ↔ 2 ^ 32 ≤ copied.length := by
  simp [TooLong]

theorem standsAtEndless_iff {input : CompilerInput} {state : ParserState} :
    StandsAtHazard input state .endlessLoop ↔ TooLong (copiedTexts input state.1) := by
  have hspan : ∀ {A : Type} {first : A} {second : ℕ} {reads : A → ℕ → Prop},
      (∃ start stop, some (first, second) = some (start, stop) ∧
        reads start stop) ↔ reads first second := by simp
  obtain ⟨cursor, parsed⟩ := state
  simp only [StandsAtHazard, copiedTexts]
  cases cursor.expecting with
  | playerOrEndOfPlayers =>
      by_cases hchar : charAt input.text cursor.pos = 41
      · simp [hchar, not_tooLong_nil]
      · cases playerEnd input.text cursor.pos with
        | none => simp [hchar, not_tooLong_nil]
        | some stop => simp [hchar, parseExecutingPlayer_eq_endless_iff]
  | conditionStartOrNonConditionSectionStart =>
      cases conditionNameAt input.text cursor with
      | none => simp [not_tooLong_nil]
      | some name =>
          rw [hspan, Option.toList_some, List.map_singleton, tooLong_singleton]
          exact copyUpperCase_map_eq_endless_iff
  | conditionArgOrEndOfCondition conditionId argIndex =>
      simp only
      cases argumentAt input.text conditionId.textArguments argIndex cursor with
      | none => simp [not_tooLong_nil]
      | some found =>
          rw [hspan, Option.toList_some, List.flatMap_singleton, parseConditionArg_eq_endless_iff]
          split
          · rename_i hplayer
            simp [hplayer]
          · rename_i hother
            exact iff_of_false (fun hboth => hother hboth.1) not_tooLong_nil
  | actionStartOrFlagSectionStartOrEndOfTrigger =>
      cases actionNameAt input.text cursor with
      | none => simp [not_tooLong_nil]
      | some name =>
          rw [hspan, Option.toList_some, List.map_singleton, tooLong_singleton]
          exact copyUpperCase_map_eq_endless_iff
  | actionArgOrEndOfAction actionId argIndex =>
      simp only
      cases argumentAt input.text actionId.textArguments argIndex cursor with
      | none => simp [not_tooLong_nil]
      | some found =>
          rw [hspan, Option.toList_some, List.flatMap_singleton, parseActionArg_eq_endless_iff]
          split
          case h_1 hplayer => simp [hplayer]
          case h_2 hplayer => simp [hplayer]
          case h_3 hplayer => simp [hplayer]
          case h_4 hplayer hdest hnumber =>
            apply iff_of_false _ not_tooLong_nil
            rintro ⟨heq | heq | heq, -⟩
            · exact hplayer heq
            · exact hdest heq
            · exact hnumber heq
  | executionFlags =>
      by_cases hchar : charAt input.text cursor.pos = 59
      · simp [hchar, not_tooLong_nil]
      · cases find input.text 59 cursor.pos with
        | none => simp [hchar, not_tooLong_nil]
        | some flagsEnd =>
            simp only [ne_eq, hchar, not_false_eq_true, true_and, if_false,
              Option.some.injEq, exists_eq_left', Option.toList_some,
              List.map_singleton, tooLong_singleton]
            exact copyUpperCase_map_eq_endless_iff
  | _ => exact iff_of_false id not_tooLong_nil

theorem parsePass_endless_iff {input : CompilerInput} {state : ParserState} :
    parsePass input state = .done (.error (.fault (.hazard .endlessLoop))) ↔
      TooLong (passCopies input state.1) := by
  rw [parsePass_error_iff, parsePart_hazard_iff, standsAtEndless_iff, passCopies, ← and_assoc]
  split
  · rename_i hpart
    exact and_iff_right hpart
  · rename_i hpart
    exact iff_of_false (fun hboth => hpart hboth.1) not_tooLong_nil

/-- The parser comes to an end: the loop leaves, each pass leaves it or lowers
the number of passes left, and none looks at a character behind the text.  An
argument whose reading has no defined behaviour leaves the loop as well. -/
def ParsesInBounds (input : CompilerInput) (nodes : List StringTableNode) : Prop :=
  (∃ result, Loop.Returns (parsePass input) (.start, .start nodes) result ∧
    result ≠ .error (.fault (.hazard .endlessLoop))) ∧
  ∀ state, Loop.Reaches (parsePass input) (.start, .start nodes) state →
    (match parsePass input state with
      | .done result => result ≠ .error (.fault (.hazard .endlessLoop))
      | .next following => passesLeft input.text following.1 <
          passesLeft input.text state.1) ∧
    InText input.text (passReads input state.1)

/-- The parser comes to an end exactly when each text it copies is shorter than
the counter can count. -/
theorem parsesInBounds_iff (settings : CompilerSettings) (tables : NameTables)
    (cleaned : Text) (stringContents : List Text)
    (nodes : List StringTableNode) :
    let input := CompilerInput.of settings tables cleaned stringContents
    ParsesInBounds input nodes ↔
      ∀ state, Loop.Reaches (parsePass input) (.start, .start nodes) state →
        ∀ copied ∈ passCopies input state.1, copied.length < 2 ^ 32 := by
  intro input
  have hnul : EndsWithNul input.text := ⟨cleaned, rfl⟩
  have hshort : ∀ state : ParserState,
      (∀ copied ∈ passCopies input state.1, copied.length < 2 ^ 32) ↔
        parsePass input state ≠ .done (.error (.fault (.hazard .endlessLoop))) := by
    intro state
    rw [Ne, parsePass_endless_iff, TooLong]
    push Not
    rfl
  simp only [hshort]
  constructor
  · rintro ⟨-, hpasses⟩ state hreaches hendless
    have hpass := (hpasses state hreaches).1
    rw [hendless] at hpass
    exact hpass rfl
  · intro hends
    refine ⟨⟨parseTriggers input nodes, (parseTriggers_eq_iff hnul nodes _).mp rfl, ?_⟩, ?_⟩
    · intro hresult
      rw [parseTriggers_eq_iff hnul, Loop.returns_iff_reaches_done] at hresult
      obtain ⟨state, hreaches, hendless⟩ := hresult
      exact hends state hreaches hendless
    · intro state hreaches
      refine ⟨?_, inText_passReads hnul state.1⟩
      have hpass := hends state hreaches
      cases hresult : parsePass input state with
      | done result =>
          rintro rfl
          exact hpass hresult
      | next following => exact passesLeft_lt hnul hresult

theorem not_parsesInBounds_of_long (settings : CompilerSettings)
    (tables : NameTables) {name : Text} (hlong : 2 ^ 32 ≤ name.length)
    (nodes : List StringTableNode) :
    ¬ ParsesInBounds (.of settings tables (ascii "TRIGGER(\"\")") [name])
      nodes := by
  rintro ⟨-, hpasses⟩
  have hfirst : parsePass
      (.of settings tables (ascii "TRIGGER(\"\")") [name])
      (.start, .start nodes) = .next (⟨8, 1, .playerOrEndOfPlayers, 0⟩,
        (Parsed.start nodes).beginTrigger) := by
    rfl
  have hcopies : passCopies
      (.of settings tables (ascii "TRIGGER(\"\")") [name])
      ⟨8, 1, .playerOrEndOfPlayers, 0⟩ = [name] := by
    rfl
  have hsecond := (hpasses _ (.next .start hfirst)).1
  rw [parsePass_endless_iff.mpr (by
    rw [hcopies, tooLong_singleton]
    exact hlong)] at hsecond
  exact hsecond rfl

/-- A quoted player of 2 ^ 32 blanks. -/
theorem not_parsesInBounds_blanks : ∃ text cleaned stringContents,
      cleanText text = some (cleaned, stringContents) ∧ ∀ settings tables nodes, ¬ ParsesInBounds
          (.of settings tables cleaned stringContents) nodes := by
  have hplain : ∀ character ∈ ascii "TRIGGER(" ++ ascii ")",
      IsPlain character := by
    decide +kernel
  refine ⟨withLiteral (ascii "TRIGGER(") (List.replicate (2 ^ 32) 32)
    (ascii ")"), _, _, cleanText_withLiteral ?_ ?_ ?_ ?_,
    fun settings tables nodes => ?_⟩
  · exact fun character hmem => hplain character (List.mem_append_left _ hmem)
  · exact fun hmem => absurd (List.eq_of_mem_replicate hmem) (by decide)
  · intro hlast
    have hmem := List.mem_of_getLast? hlast
    exact absurd (List.eq_of_mem_replicate hmem) (by decide)
  · exact fun character hmem => hplain character (List.mem_append_right _ hmem)
  · apply not_parsesInBounds_of_long settings tables _ nodes
    rw [List.length_replicate]

end Chkdraft.TextTrigs
