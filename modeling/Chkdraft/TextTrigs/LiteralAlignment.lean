import Chkdraft.TextTrigs.Faults
import Chkdraft.TextTrigs.LiteralLexing
import Chkdraft.TextTrigs.LiteralReads

/-!
# Literals and the arguments they belong to

A cleaned text has a pair of quotes for each literal, and the parser finds the
literal of an argument by counting.  The count is right in front of a pass if
every argument so far had one pair of quotes, at its beginning, when it was read
with a literal, and none otherwise, and if no literal was read twice.
-/

namespace Chkdraft.TextTrigs

open Chk Scan Scenario

def literalsBefore (text : Text) (pos : ℕ) : ℕ := (text.take pos).count quote / 2

section LiteralsBefore

variable {text : Text} {pos : ℕ}

theorem count_take_succ (text : Text) (pos : ℕ) :
    (text.take (pos + 1)).count quote = (text.take pos).count quote +
      if charAt text pos = quote then 1 else 0 := by
  rw [List.take_add_one, List.count_append]
  congr 1
  by_cases hlt : pos < text.length
  · rw [List.getElem?_eq_getElem hlt, charAt_eq_getElem hlt,
      Option.toList_some, List.count_singleton]
    simp
  · have hchar : charAt text pos = 0 := by
      rw [charAt, List.getD_eq_default _ _ (Nat.le_of_not_lt hlt)]
    rw [List.getElem?_eq_none (Nat.le_of_not_lt hlt), hchar]
    rfl

theorem literalsBefore_succ (hchar : charAt text pos ≠ quote) :
    literalsBefore text (pos + 1) = literalsBefore text pos := by
  rw [literalsBefore, count_take_succ, if_neg hchar, Nat.add_zero, literalsBefore]

theorem literalsBefore_add {count : ℕ}
    (hchars : ∀ index < count, charAt text (pos + index) ≠ quote) :
    literalsBefore text (pos + count) = literalsBefore text pos := by
  induction count with
  | zero => rfl
  | succ count ih =>
      rw [← Nat.add_assoc, literalsBefore_succ (hchars count (Nat.lt_succ_self _))]
      exact ih fun index hlt => hchars index (by omega)

end LiteralsBefore

/-- A text in which quotes stand in pairs, and the number of pairs. -/
inductive Paired : Text → ℕ → Prop where
  | nil : Paired [] 0
  | character {text : Text} {count : ℕ} {character : UInt8}
      (hpaired : Paired text count) (hchar : character ≠ quote) :
      Paired (text ++ [character]) count
  | literal {text : Text} {count : ℕ} (hpaired : Paired text count) :
      Paired (text ++ [quote, quote]) (count + 1)

namespace Paired

variable {text : Text} {count : ℕ}

theorem count_quote (hpaired : Paired text count) : text.count quote = 2 * count := by
  induction hpaired with
  | nil => rfl
  | character _ hchar ih =>
      rw [List.count_append, ih, List.count_singleton]
      simp [hchar]
  | literal _ ih =>
      rw [List.count_append, ih]
      simp
      omega

theorem literalsBefore_lt (hpaired : Paired text count) {pos : ℕ}
    (hquote : charAt text pos = quote) : literalsBefore text pos < count := by
  have hsucc := count_take_succ text pos
  rw [if_pos hquote] at hsucc
  have hle := (List.take_sublist (pos + 1) text).count_le quote
  rw [hsucc, hpaired.count_quote] at hle
  rw [literalsBefore]
  omega

theorem count_take_even (hpaired : Paired text count) {pos : ℕ} (hchar : charAt text pos ≠ quote)
    (hquote : charAt text (pos + 1) = quote) :
    (text.take (pos + 1)).count quote % 2 = 0 := by
  induction hpaired with
  | nil => simp [charAt, quote] at hquote
  | @character text count character hpaired hother ih =>
      by_cases hlt : pos + 1 < text.length
      · rw [charAt_append_of_lt (by omega)] at hchar
        rw [charAt_append_of_lt hlt] at hquote
        rw [List.take_append_of_le_length (by omega)]
        exact ih hchar hquote
      · -- The last character is no quote, and there is none behind it.
        rw [charAt_append_of_le (by omega)] at hquote
        generalize pos + 1 - text.length = index at hquote
        cases index with
        | zero => exact absurd hquote hother
        | succ index => simp [charAt, quote] at hquote
  | @literal text count hpaired ih =>
      by_cases hlt : pos + 1 < text.length
      · rw [charAt_append_of_lt (by omega)] at hchar
        rw [charAt_append_of_lt hlt] at hquote
        rw [List.take_append_of_le_length (by omega)]
        exact ih hchar hquote
      · by_cases heq : pos + 1 = text.length
        · rw [heq, List.take_left, hpaired.count_quote]
          omega
        · -- The second quote stands behind the first one.
          exfalso
          rw [charAt_append_of_le (by omega)] at hchar hquote
          obtain ⟨index, rfl⟩ := Nat.exists_eq_add_of_le (show text.length ≤ pos by omega)
          rw [Nat.add_sub_cancel_left] at hchar
          rw [Nat.add_assoc, Nat.add_sub_cancel_left] at hquote
          cases index with
          | zero => exact hchar rfl
          | succ index => simp [charAt, quote] at hquote

/-- A step over one character behind a character that is no quote does not
complete a pair. -/
theorem literalsBefore_step (hpaired : Paired text count) {pos : ℕ}
    (hchar : charAt text pos ≠ quote) :
    literalsBefore text (pos + 1 + 1) = literalsBefore text (pos + 1) := by
  by_cases hquote : charAt text (pos + 1) = quote
  · have heven := hpaired.count_take_even hchar hquote
    rw [literalsBefore, count_take_succ, if_pos hquote, literalsBefore]
    omega
  · exact literalsBefore_succ hquote

end Paired

theorem upperCase_ne_quote {character : UInt8} (hchar : character ≠ quote) :
    upperCase character ≠ quote := by
  rw [upperCase]
  split
  · rename_i hletter
    intro heq
    have hvalue : character = 66 := by
      rw [← UInt8.sub_add_cancel character 32, heq]
      rfl
    rw [hvalue] at hletter
    exact absurd hletter.1 (by decide)
  · exact hchar

theorem Paired.cleanCharacter {state : CleanState}
    (hpaired : Paired state.dest state.stringContents.length) (text : Text)
    (character : UInt8) :
    Paired (cleanCharacter text character state).dest
      (cleanCharacter text character state).stringContents.length := by
  have hline : Paired (state.dest ++ [newline]) state.stringContents.length :=
    hpaired.character (by decide)
  by_cases hquote : character = quote
  · rw [hquote, cleanCharacter_quote, List.length_append, List.length_singleton]
    exact hpaired.literal
  · simp only [TextTrigs.cleanCharacter, if_neg hquote]
    split
    · exact hpaired
    · split
      · exact hline
      · split
        · exact hline
        · split
          · split <;> exact hpaired
          · exact hpaired.character (upperCase_ne_quote hquote)

theorem paired_of_cleanText {text cleaned : Text} {stringContents : List Text}
    (hclean : cleanText text = some (cleaned, stringContents)) :
    Paired cleaned stringContents.length := by
  rw [cleanText_eq_some_iff, Loop.returns_iff_reaches_done] at hclean
  obtain ⟨state, hreaches, hdone⟩ := hclean
  have hstate : Paired state.dest state.stringContents.length := by
    refine @Loop.Reaches.invariant _ _ _ _ _ (fun state : CleanState =>
        Paired state.dest state.stringContents.length) hreaches .nil ?_
    intro state following hstate hpass
    rw [cleanPass] at hpass
    split at hpass
    · cases hpass
      exact @Paired.cleanCharacter { state with pos := state.pos + 1 } hstate _ _
    · cases hpass
  rw [cleanPass] at hdone
  split at hdone
  · cases hdone
  · cases hdone
    exact hstate

namespace Cursor

variable {text : Text} {cursor middle following : Cursor}

/-- As many literals were counted as are in front of the cursor. -/
def Aligned (text : Text) (cursor : Cursor) : Prop :=
  cursor.nextString = literalsBefore text cursor.pos

/-- The cursor moves, but not behind a literal. -/
def Skips (text : Text) (cursor following : Cursor) : Prop :=
  following.nextString = cursor.nextString ∧
    literalsBefore text following.pos = literalsBefore text cursor.pos

theorem Skips.refl (text : Text) (cursor : Cursor) : cursor.Skips text cursor := ⟨rfl, rfl⟩

theorem Skips.trans (hfirst : cursor.Skips text middle)
    (hsecond : middle.Skips text following) : cursor.Skips text following :=
  ⟨hsecond.1.trans hfirst.1, hsecond.2.trans hfirst.2⟩

theorem Skips.aligned (hskips : cursor.Skips text following)
    (haligned : cursor.Aligned text) : following.Aligned text := by
  rw [Aligned, hskips.1, hskips.2]
  exact haligned

/-- The characters `skipNewlines` goes over. -/
theorem charAt_skipped {index : ℕ} (hlt : index <
      ((text.drop cursor.pos).takeWhile (· = newline)).length) :
    charAt text (cursor.pos + index) = newline := by
  have hline := List.mem_takeWhile_imp (List.getElem_mem hlt)
  have hhead := List.takeWhile_prefix (l := text.drop cursor.pos)
    fun character : UInt8 => decide (character = newline)
  have hget := hhead.getElem hlt
  have hbound := hhead.length_le
  rw [List.length_drop] at hbound
  rw [hget, List.getElem_drop] at hline
  rw [charAt_eq_getElem (by omega), of_decide_eq_true hline]

theorem skips_skipNewlines (text : Text) (cursor : Cursor) :
    cursor.Skips text (cursor.skipNewlines text) := by
  refine ⟨rfl, literalsBefore_add fun index hlt => ?_⟩
  rw [charAt_skipped hlt]
  decide

/-- Whatever stands behind the line ends, a step over it does not complete a
literal. -/
theorem skips_behind_newlines {count : ℕ} (hpaired : Paired text count)
    (hchar : charAt text cursor.pos ≠ quote) (expecting : Expecting) :
    cursor.Skips text ((cursor.skipNewlines text).advance 1 expecting) := by
  refine (skips_skipNewlines text cursor).trans ⟨rfl, ?_⟩
  simp only [pos_advance, skipNewlines]
  cases hlines : ((text.drop cursor.pos).takeWhile (· = newline)).length with
  | zero => exact literalsBefore_succ hchar
  | succ lines =>
      have hline : charAt text (cursor.pos + lines) ≠ quote := by
        rw [charAt_skipped (by omega)]
        decide
      exact hpaired.literalsBefore_step hline

theorem skips_advance_one (hchar : charAt text cursor.pos ≠ quote) (expecting : Expecting) :
    cursor.Skips text (cursor.advance 1 expecting) :=
  ⟨rfl, literalsBefore_succ hchar⟩

theorem skips_keyword {name : String} (hname : continuesWith text cursor.pos name = true)
    (hquote : quote ∉ ascii name) (expecting : Expecting) :
    cursor.Skips text (cursor.advance name.length expecting) := by
  refine ⟨rfl, literalsBefore_add fun index hlt => ?_⟩
  rw [continuesWith, List.isPrefixOf_iff_prefix] at hname
  have hlength : (ascii name).length = name.length := by
    rw [ascii, List.length_map, String.length_toList]
  have hindex : index < (ascii name).length := by omega
  have hget := hname.getElem hindex
  have hbound := hname.length_le
  rw [List.length_drop] at hbound
  rw [List.getElem_drop] at hget
  rw [charAt_eq_getElem (by omega), ← hget]
  exact fun heq => hquote (heq ▸ List.getElem_mem hindex)

theorem Passes.skips (hpasses : cursor.Passes text following) : cursor.Skips text following := by
  have hmarks : quote ∉ marks := by decide
  have hkeywords : ∀ name ∈ keywords, quote ∉ ascii name := by decide
  induction hpasses with
  | start => exact .refl text cursor
  | mark _ hmark expecting ih =>
      exact ih.trans (skips_advance_one (fun heq => hmarks (heq ▸ hmark)) _)
  | keyword _ hname hkeyword expecting ih =>
      exact ih.trans (skips_keyword hname (hkeywords _ hkeyword) _)
  | newlines _ ih => exact ih.trans (skips_skipNewlines text _)

theorem StepsOver.skips (hsteps : cursor.StepsOver text following) : cursor.Skips text following :=
  hsteps.passes.skips

end Cursor

/-- A name, flags or an argument was read. -/
def isAccepted {A : Type} : Except Hazard (Option A) → Bool
  | .ok (some _) => true
  | _ => false

/-- A name or flags that are accepted have no literal in them. -/
def nameKept {A : Type} (result : Except Hazard (Option A)) (text : Text) (start stop : ℕ) : Bool :=
  isAccepted result → literalsBefore text stop = literalsBefore text start

/-- A player or an argument that is accepted has one literal if it starts with a
quote, and else none; and if it does, its literal is not read twice. -/
def argumentKept {A : Type} (result : Except Hazard (Option A × ℕ))
    (readsOnce : Bool) (text : Text) (pos stop : ℕ) : Bool :=
  (charAt text pos = quote → readsOnce) ∧ (isAccepted (result.map Prod.fst) →
      literalsBefore text stop = literalsBefore text pos +
        if charAt text pos = quote then 1 else 0)

/-- What keeps the count of literals right in a pass. -/
def keepsLiterals (input : CompilerInput) (state : ParserState) : Bool :=
  let (cursor, parsed) := state
  let text := input.text
  let pos := cursor.pos
  if text.length ≤ pos ∨ charAt text pos = newline then
    true
  else
    match cursor.expecting with
    | .playerOrEndOfPlayers =>
        if charAt text pos = 41 then true
        else
          (playerEnd text pos).all fun stop => argumentKept
            (parseExecutingPlayer input pos stop cursor.nextString)
            (playerAccepted input pos cursor.nextString) text pos stop
    | .conditionStartOrNonConditionSectionStart =>
        (conditionNameAt text cursor).all fun (start, stop) =>
          nameKept (parseCondition text start stop) text start stop
    | .conditionArgOrEndOfCondition conditionId argIndex =>
        (argumentAt text conditionId.textArguments argIndex cursor).all
          fun (argument, argEnd) => argumentKept
            (parseConditionArg input argument pos argEnd parsed.currCondition cursor.nextString)
            (conditionArgAccepted input argument pos argEnd cursor.nextString)
            text pos argEnd
    | .actionStartOrFlagSectionStartOrEndOfTrigger =>
        (actionNameAt text cursor).all fun (start, stop) =>
          nameKept (parseAction text start stop) text start stop
    | .actionArgOrEndOfAction actionId argIndex =>
        (argumentAt text actionId.textArguments argIndex cursor).all
          fun (argument, argEnd) => argumentKept
            (parseActionArg input argument pos argEnd parsed.currAction cursor.nextString)
            (actionArgAccepted input argument pos argEnd cursor.nextString)
            text pos argEnd
    | .executionFlags =>
        if charAt text pos = 59 then true
        else
          (find text 59 pos).all fun flagsEnd => nameKept
            (parseExecutionFlags text pos flagsEnd) text pos flagsEnd
    | _ => true

section Reading

variable {input : CompilerInput} {text : Text} {cursor following : Cursor}
  {parsed changed : Parsed} {count : ℕ}

theorem ne_quote_of_mem {characters : List UInt8} {pos : ℕ}
    (hmem : charAt text pos ∈ characters) (hquote : quote ∉ characters) :
    charAt text pos ≠ quote :=
  fun heq => hquote (heq ▸ hmem)

theorem nameKept_of_accepted {A : Type} {result : Except Hazard (Option A)}
    {value : A} {start stop : ℕ}
    (hkept : nameKept result text start stop = true)
    (hresult : result = .ok (some value)) :
    literalsBefore text stop = literalsBefore text start := by
  rw [nameKept, decide_eq_true_eq] at hkept
  exact hkept (by rw [hresult]; rfl)

theorem skips_behindName {A : Type} {result : Except Hazard (Option A)}
    {value : A} {stop : ℕ} {expecting : Expecting}
    (hkept : nameKept result text cursor.pos stop = true)
    (hresult : result = .ok (some value))
    (hend : charAt text stop ≠ quote) :
    cursor.Skips text
      { cursor with pos := stop + 1, expecting := expecting } := by
  refine ⟨rfl, ?_⟩
  rw [← nameKept_of_accepted hkept hresult]
  exact literalsBefore_succ hend

theorem parsePartFour_skips
    (hcurrent : cursor.expecting = .conditionStartOrNonConditionSectionStart)
    (hkept : ∀ start stop, conditionNameAt text cursor = some (start, stop) →
      nameKept (parseCondition text start stop) text start stop = true)
    (hpart : parsePartFour text cursor parsed = .ok (following, changed)) :
    cursor.Skips text following := by
  rcases parsePartFour_cases hcurrent hpart with
    ⟨⟨hsteps, -⟩, -⟩ | ⟨start, stop, stateFlags, hpasses, hname, hbegin⟩
  · exact hsteps.skips
  · obtain ⟨conditionId, hcondition, -, hchar, rfl⟩ := beginCondition_cases hbegin
    have hbehind : start.Skips text { start with pos := stop } :=
      ⟨rfl, nameKept_of_accepted (hkept _ _ hname) hcondition⟩
    have hlines := hbehind.trans (Cursor.skips_skipNewlines text _)
    exact (hpasses.skips.trans hlines).trans (Cursor.skips_advance_one (by rw [hchar]; decide) _)

theorem parsePartSeven_skips (hcurrent :
      cursor.expecting = .actionStartOrFlagSectionStartOrEndOfTrigger)
    (hkept : ∀ start stop, actionNameAt text cursor = some (start, stop) →
      nameKept (parseAction text start stop) text start stop = true)
    (hpart : parsePartSeven text cursor parsed = .ok (following, changed)) :
    cursor.Skips text following := by
  rcases parsePartSeven_cases hcurrent hpart with
    ⟨⟨hsteps, -⟩, -⟩ | ⟨start, stop, stateFlags, hpasses, hname, hbegin⟩
  · exact hsteps.skips
  · obtain ⟨actionId, haction, -, rfl⟩ := beginAction_cases hbegin
    have hend := (actionNameAt_spec hname).2.2.2
    exact hpasses.skips.trans (skips_behindName (hkept _ _ hname) haction
      (ne_quote_of_mem hend (by decide)))

theorem parsePartTen_skips (hkept : charAt text cursor.pos ≠ 59 → ∀ flagsEnd,
      find text 59 cursor.pos = some flagsEnd →
      nameKept (parseExecutionFlags text cursor.pos flagsEnd) text cursor.pos flagsEnd = true)
    (hpart : parsePartTen text cursor parsed = .ok (following, changed)) :
    cursor.Skips text following := by
  rcases parsePartTen_cases hpart with
    ⟨hchar, rfl, -⟩ | ⟨hchar, flagsEnd, flags, hfind, hflags, rfl, -⟩
  · exact Cursor.skips_advance_one (by rw [hchar]; decide) _
  · exact skips_behindName (hkept hchar flagsEnd hfind) hflags
      (by rw [(find_spec hfind).2.2]; decide)

theorem argumentKept_readsOnce {A : Type} {pos stop : ℕ}
    {result : Except Hazard (Option A × ℕ)} {readsOnce : Bool}
    (hkept : argumentKept result readsOnce text pos stop = true)
    (hquote : charAt text pos = quote) : readsOnce = true := by
  rw [argumentKept, decide_eq_true_eq] at hkept
  exact hkept.1 hquote

/-- An argument with its own literal, or with none, ends aligned. -/
theorem argument_aligned {A : Type} {attempt : List Text → Attempt A}
    {stringContents : List Text} {stop next : ℕ} {value : A}
    {readsOnce : Bool}
    (hreads : Attempt.Reads (charAt text cursor.pos = quote) attempt
      stringContents cursor.nextString)
    (hkept : argumentKept (attempt stringContents cursor.nextString) readsOnce
      text cursor.pos stop = true)
    (haligned : cursor.Aligned text)
    (hvalue : attempt stringContents cursor.nextString =
      .ok (some value, next)) : next = literalsBefore text stop := by
  rw [argumentKept, decide_eq_true_eq] at hkept
  rw [hkept.2 (by rw [hvalue]; rfl), hreads.following value next hvalue, haligned]

theorem parsePartOne_aligned (hpaired : Paired input.text count)
    (hkept : charAt input.text cursor.pos ≠ 41 → ∀ stop,
      playerEnd input.text cursor.pos = some stop →
      argumentKept (parseExecutingPlayer input cursor.pos stop
        cursor.nextString) (playerAccepted input cursor.pos cursor.nextString)
        input.text cursor.pos stop = true)
    (haligned : cursor.Aligned input.text)
    (hpart : parsePartOne input cursor parsed = .ok (following, changed)) :
    following.Aligned input.text := by
  rcases parsePartOne_cases hpart with ⟨hchar, rfl, -⟩ |
    ⟨hchar, stop, group, owned, nextString, hstop, hplayer, rfl, -⟩
  · exact (Cursor.skips_advance_one (by rw [hchar]; decide) _).aligned haligned
  · have hargument := hkept hchar stop hstop
    have hreads := @reads_parseExecutingPlayer input cursor.pos stop
      cursor.nextString (argumentKept_readsOnce hargument)
    have hnext := argument_aligned hreads hargument haligned hplayer
    have hend := (playerEnd_spec hstop).2.2
    exact (Cursor.skips_behind_newlines hpaired (ne_quote_of_mem hend (by decide)) _).aligned hnext

section Argument

variable {A : Type} {arguments : List A} {argIndex : ℕ} {argument : A}
  {argEnd : ℕ}

theorem separator_ne_quote {isLast : Prop} [Decidable isLast] :
    (if isLast then 41 else 44 : UInt8) ≠ quote := by
  split <;> decide

theorem argumentAt_lt_of_quote (hargument : argumentAt text arguments argIndex cursor =
      some (argument, argEnd))
    (hquote : charAt text cursor.pos = quote) : cursor.pos < argEnd := by
  obtain ⟨-, -, hfind⟩ := argumentAt_eq_some_iff.mp hargument
  obtain ⟨hle, -, hchar⟩ := find_spec hfind
  rcases Nat.lt_or_eq_of_le hle with hlt | rfl
  · exact hlt
  · exact absurd (hchar.symm.trans hquote) separator_ne_quote

/-- Behind an argument the cursor stands at its end or behind the comma. -/
theorem behindArgument_aligned (hargument : argumentAt text arguments argIndex cursor =
      some (argument, argEnd)) {nextString : ℕ}
    (hnext : nextString = literalsBefore text argEnd) (expecting : Expecting) :
    (cursor.behindArgument arguments argIndex argEnd nextString expecting).Aligned text := by
  obtain ⟨-, -, hfind⟩ := argumentAt_eq_some_iff.mp hargument
  have hend : charAt text argEnd ≠ quote := by
    rw [(find_spec hfind).2.2]
    exact separator_ne_quote
  rw [Cursor.Aligned, Cursor.behindArgument]
  simp only
  split
  · exact hnext
  · rw [hnext, literalsBefore_succ hend]

end Argument

theorem parsePartFive_aligned {conditionId : VirtualCondition} {argIndex : ℕ} (hcurrent :
      cursor.expecting = .conditionArgOrEndOfCondition conditionId argIndex)
    (hkept : ∀ argument argEnd, argumentAt input.text conditionId.textArguments argIndex cursor =
        some (argument, argEnd) →
      argumentKept (parseConditionArg input argument cursor.pos argEnd
        parsed.currCondition cursor.nextString) (conditionArgAccepted input
          argument cursor.pos argEnd cursor.nextString)
        input.text cursor.pos argEnd = true)
    (haligned : cursor.Aligned input.text)
    (hpart : parsePartFive input conditionId argIndex cursor parsed =
      .ok (following, changed)) : following.Aligned input.text := by
  rcases parsePartFive_cases hcurrent hpart with ⟨⟨hsteps, -⟩, -⟩ |
    ⟨argument, argEnd, condition, nextString, hargument, hcondition, rfl, -⟩
  · exact hsteps.skips.aligned haligned
  · have hargumentKept := hkept argument argEnd hargument
    have hreads := @reads_parseConditionArg input cursor.pos argEnd
      cursor.nextString argument (fun hquote =>
        ⟨argumentAt_lt_of_quote hargument hquote, argumentKept_readsOnce hargumentKept hquote⟩)
      parsed.currCondition
    exact behindArgument_aligned hargument
      (argument_aligned hreads hargumentKept haligned hcondition) _

theorem parsePartEight_aligned {actionId : VirtualAction} {argIndex : ℕ}
    (hcurrent : cursor.expecting = .actionArgOrEndOfAction actionId argIndex)
    (hkept : ∀ argument argEnd, argumentAt input.text actionId.textArguments argIndex cursor =
        some (argument, argEnd) →
      argumentKept (parseActionArg input argument cursor.pos argEnd
        parsed.currAction cursor.nextString) (actionArgAccepted input
          argument cursor.pos argEnd cursor.nextString)
        input.text cursor.pos argEnd = true)
    (haligned : cursor.Aligned input.text)
    (hpart : parsePartEight input actionId argIndex cursor parsed =
      .ok (following, changed)) : following.Aligned input.text := by
  rcases parsePartEight_cases hcurrent hpart with ⟨⟨hsteps, -⟩, -⟩ |
    ⟨argument, argEnd, effect, nextString, hargument, heffect, rfl, -⟩
  · exact hsteps.skips.aligned haligned
  · have hargumentKept := hkept argument argEnd hargument
    have hreads := @reads_parseActionArg input cursor.pos argEnd
      cursor.nextString argument (fun hquote =>
        ⟨argumentAt_lt_of_quote hargument hquote, argumentKept_readsOnce hargumentKept hquote⟩)
      parsed.currAction
    exact behindArgument_aligned hargument
      (argument_aligned hreads hargumentKept haligned heffect) _

end Reading

section Pass

variable {input : CompilerInput} {cursor following : Cursor}
  {parsed changed : Parsed} {count : ℕ}

theorem parsePart_aligned (hpaired : Paired input.text count)
    (hpos : cursor.pos < input.text.length)
    (hchar : charAt input.text cursor.pos ≠ newline)
    (hkeeps : keepsLiterals input (cursor, parsed) = true)
    (haligned : cursor.Aligned input.text)
    (hpart : parsePart input (cursor, parsed) = .ok (following, changed)) :
    following.Aligned input.text := by
  have hmap : ∀ {result : Except Stop Cursor}, result.map (·, parsed) = .ok (following, changed) →
      (∀ moved, result = .ok moved → cursor.StepsOver input.text moved ∧
        cursor.expecting.leadsTo moved.expecting = true) →
      following.Aligned input.text := by
    intro result hresult hsteps
    obtain ⟨moved, hmoved, hpair⟩ := Fault.map_eq_ok_iff.mp hresult
    cases hpair
    exact (hsteps following hmoved).1.skips.aligned haligned
  simp only [keepsLiterals] at hkeeps
  rw [if_neg (by simp [hchar]; omega)] at hkeeps
  cases hcurrent : cursor.expecting with
  | triggerOrEndOfText =>
      simp only [parsePart, hcurrent] at hpart
      rcases (parsePartZero_cases hpart).2 with ⟨hsteps, -⟩ | ⟨hzero, rfl⟩
      · exact hsteps.skips.aligned haligned
      · exact (Cursor.skips_advance_one (by rw [hzero]; decide) _).aligned haligned
  | playerOrEndOfPlayers =>
      simp only [parsePart, hcurrent] at hpart hkeeps
      refine parsePartOne_aligned hpaired ?_ haligned hpart
      intro hopen stop hstop
      rw [if_neg hopen, hstop] at hkeeps
      exact hkeeps
  | openTriggerBody =>
      simp only [parsePart, hcurrent] at hpart
      exact hmap hpart (leadsOver_parsePartTwo hcurrent)
  | sectionStartOrEndOfTrigger =>
      simp only [parsePart, hcurrent] at hpart
      exact hmap hpart (leadsOver_parsePartThree hcurrent)
  | conditionStartOrNonConditionSectionStart =>
      simp only [parsePart, hcurrent] at hpart hkeeps
      refine (parsePartFour_skips hcurrent ?_ hpart).aligned haligned
      intro start stop hname
      rw [hname] at hkeeps
      exact hkeeps
  | conditionArgOrEndOfCondition conditionId argIndex =>
      simp only [parsePart, hcurrent] at hpart hkeeps
      refine parsePartFive_aligned hcurrent ?_ haligned hpart
      intro argument argEnd hargument
      rw [hargument] at hkeeps
      exact hkeeps
  | nonConditionSectionStartOrEndOfTrigger =>
      simp only [parsePart, hcurrent] at hpart
      exact hmap hpart (leadsOver_parsePartSix hcurrent)
  | actionStartOrFlagSectionStartOrEndOfTrigger =>
      simp only [parsePart, hcurrent] at hpart hkeeps
      refine (parsePartSeven_skips hcurrent ?_ hpart).aligned haligned
      intro start stop hname
      rw [hname] at hkeeps
      exact hkeeps
  | actionArgOrEndOfAction actionId argIndex =>
      simp only [parsePart, hcurrent] at hpart hkeeps
      refine parsePartEight_aligned hcurrent ?_ haligned hpart
      intro argument argEnd hargument
      rw [hargument] at hkeeps
      exact hkeeps
  | flagSectionStartOrEndOfTrigger =>
      simp only [parsePart, hcurrent] at hpart
      exact hmap hpart (leadsOver_parsePartNine hcurrent)
  | executionFlags =>
      simp only [parsePart, hcurrent] at hpart hkeeps
      refine (parsePartTen_skips ?_ hpart).aligned haligned
      intro hopen flagsEnd hfind
      rw [if_neg hopen, hfind] at hkeeps
      exact hkeeps
  | endOfTrigger =>
      simp only [parsePart, hcurrent] at hpart
      exact hmap hpart (leadsOver_parsePartEleven hcurrent)
  | last =>
      simp only [parsePart, hcurrent] at hpart
      cases hpart
      exact haligned

/-! ### Other literals -/

theorem parsePartOne_withStrings {other : List Text}
    (hcall : charAt input.text cursor.pos ≠ 41 → ∀ stop,
      playerEnd input.text cursor.pos = some stop →
      parseExecutingPlayer (input.withStrings other) cursor.pos stop cursor.nextString =
        parseExecutingPlayer input cursor.pos stop cursor.nextString) :
    parsePartOne (input.withStrings other) cursor parsed = parsePartOne input cursor parsed := by
  obtain ⟨text, stringContents, tables, useAddresses, offset⟩ := input
  simp only [CompilerInput.withStrings] at hcall ⊢
  simp only [parsePartOne]
  by_cases hclose : charAt text cursor.pos = 41
  · rw [if_pos hclose, if_pos hclose]
  · rw [if_neg hclose, if_neg hclose]
    cases hstop : playerEnd text cursor.pos with
    | none => rfl
    | some stop => simp only [hcall hclose stop hstop]

theorem parsePartFive_withStrings {conditionId : VirtualCondition}
    {argIndex : ℕ} {other : List Text}
    (hcall : ∀ argument argEnd, argumentAt input.text conditionId.textArguments argIndex cursor =
        some (argument, argEnd) →
      parseConditionArg (input.withStrings other) argument cursor.pos argEnd
          parsed.currCondition cursor.nextString =
        parseConditionArg input argument cursor.pos argEnd parsed.currCondition cursor.nextString) :
    parsePartFive (input.withStrings other) conditionId argIndex cursor
        parsed = parsePartFive input conditionId argIndex cursor parsed := by
  obtain ⟨text, stringContents, tables, useAddresses, offset⟩ := input
  simp only [CompilerInput.withStrings, parsePartFive, decide_eq_true_eq] at hcall ⊢
  split
  · rfl
  · rename_i hchar
    split
    · rfl
    · rename_i argument hargument
      split
      · rfl
      · rename_i argEnd hfind
        rw [hcall argument argEnd (argumentAt_eq_some_iff.mpr ⟨hchar, hargument, hfind⟩)]

theorem parsePartEight_withStrings {actionId : VirtualAction}
    {argIndex : ℕ} {other : List Text}
    (hcall : ∀ argument argEnd, argumentAt input.text actionId.textArguments argIndex cursor =
        some (argument, argEnd) →
      parseActionArg (input.withStrings other) argument cursor.pos argEnd
          parsed.currAction cursor.nextString =
        parseActionArg input argument cursor.pos argEnd parsed.currAction cursor.nextString) :
    parsePartEight (input.withStrings other) actionId argIndex cursor parsed =
      parsePartEight input actionId argIndex cursor parsed := by
  obtain ⟨text, stringContents, tables, useAddresses, offset⟩ := input
  simp only [CompilerInput.withStrings, parsePartEight, decide_eq_true_eq] at hcall ⊢
  split
  · rfl
  · rename_i hchar
    split
    · rfl
    · rename_i argument hargument
      split
      · rfl
      · rename_i argEnd hfind
        rw [hcall argument argEnd (argumentAt_eq_some_iff.mpr ⟨hchar, hargument, hfind⟩)]

/-- Under its condition a part does the same with any literals that agree on the
one the next quote stands for. -/
theorem parsePart_withStrings (hpos : cursor.pos < input.text.length)
    (hchar : charAt input.text cursor.pos ≠ newline)
    (hkeeps : keepsLiterals input (cursor, parsed) = true) {other : List Text}
    (hother : charAt input.text cursor.pos = quote →
      other[cursor.nextString]? = input.stringContents[cursor.nextString]?) :
    parsePart (input.withStrings other) (cursor, parsed) = parsePart input (cursor, parsed) := by
  simp only [keepsLiterals] at hkeeps
  rw [if_neg (by simp [hchar]; omega)] at hkeeps
  simp only [parsePart]
  cases hcurrent : cursor.expecting with
  | playerOrEndOfPlayers =>
      simp only [hcurrent] at hkeeps
      refine parsePartOne_withStrings fun hopen stop hstop => ?_
      rw [if_neg hopen, hstop] at hkeeps
      exact (reads_parseExecutingPlayer (argumentKept_readsOnce hkeeps)).congr other hother
  | conditionArgOrEndOfCondition conditionId argIndex =>
      simp only [hcurrent] at hkeeps
      refine parsePartFive_withStrings fun argument argEnd hargument => ?_
      rw [hargument] at hkeeps
      exact (reads_parseConditionArg (fun hquote =>
        ⟨argumentAt_lt_of_quote hargument hquote,
          argumentKept_readsOnce hkeeps hquote⟩) _).congr other hother
  | actionArgOrEndOfAction actionId argIndex =>
      simp only [hcurrent] at hkeeps
      refine parsePartEight_withStrings fun argument argEnd hargument => ?_
      rw [hargument] at hkeeps
      exact (reads_parseActionArg (fun hquote =>
        ⟨argumentAt_lt_of_quote hargument hquote,
          argumentKept_readsOnce hkeeps hquote⟩) _).congr other hother
  | _ => rfl

/-- The count of literals is right, there is a literal for the next quote, and
the pass reads no other one. -/
structure AlignedAt (input : CompilerInput) (state : ParserState) : Prop where
  counted : state.1.nextString = literalsBefore input.text state.1.pos
  in_range : charAt input.text state.1.pos = quote →
    literalsBefore input.text state.1.pos < input.stringContents.length
  own : ∀ other : List Text, (charAt input.text state.1.pos = quote →
      other[literalsBefore input.text state.1.pos]? =
        input.stringContents[literalsBefore input.text state.1.pos]?) →
    parsePass (input.withStrings other) state = parsePass input state

theorem alignedAt_of_aligned {state : ParserState}
    (hpaired : Paired input.text input.stringContents.length)
    (hkeeps : keepsLiterals input state = true)
    (haligned : state.1.Aligned input.text) : AlignedAt input state := by
  refine ⟨haligned, hpaired.literalsBefore_lt, fun other hother => ?_⟩
  obtain ⟨cursor, parsed⟩ := state
  by_cases hpos : cursor.pos < input.text.length
  · by_cases hchar : charAt input.text cursor.pos = newline
    · have hline : ∀ input' : CompilerInput, input'.text = input.text →
          parsePass input' (cursor, parsed) = .next
            ({ cursor with pos := cursor.pos + 1, line := cursor.line + 1 }, parsed) := by
        intro input' htext
        rw [parsePass, htext, if_pos hpos, if_pos hchar]
      exact (hline (input.withStrings other) rfl).trans (hline input rfl).symm
    · have hpart := @parsePart_withStrings input cursor parsed hpos hchar hkeeps
        other (by rw [haligned]; exact hother)
      have htext : (input.withStrings other).text = input.text := rfl
      simp only [parsePass, hpart, htext]
  · have hend : ∀ input' : CompilerInput, input'.text = input.text →
        parsePass input' (cursor, parsed) = .done (.ok parsed) := by
      intro input' htext
      rw [parsePass, htext, if_neg hpos]
    exact (hend (input.withStrings other) rfl).trans (hend input rfl).symm

theorem parsePass_aligned {state next : ParserState} (hpaired : Paired input.text count)
    (hkeeps : keepsLiterals input state = true)
    (haligned : state.1.Aligned input.text)
    (hpass : parsePass input state = .next next) :
    next.1.Aligned input.text := by
  obtain ⟨cursor, parsed⟩ := state
  obtain ⟨hpos, ⟨hchar, rfl⟩ | ⟨hchar, hpart⟩⟩ := parsePass_next_cases hpass
  · rw [Cursor.Aligned]
    simp only
    rw [literalsBefore_succ (by rw [hchar]; decide)]
    exact haligned
  · exact parsePart_aligned hpaired hpos hchar hkeeps haligned hpart

end Pass

/-- In a run whose passes all meet their condition, the arguments stay aligned
with their literals. -/
theorem literals_aligned {text cleaned : Text} {stringContents : List Text}
    (hclean : cleanText text = some (cleaned, stringContents))
    (settings : CompilerSettings) (tables : NameTables)
    (nodes : List StringTableNode) :
    let input := CompilerInput.of settings tables cleaned stringContents
    (∀ state, Loop.Reaches (parsePass input) (.start, .start nodes) state →
      keepsLiterals input state = true) →
    ∀ state, Loop.Reaches (parsePass input) (.start, .start nodes) state →
      AlignedAt input state := by
  intro input hkeeps state hreaches
  have hpaired : Paired input.text input.stringContents.length :=
    (paired_of_cleanText hclean).character (by decide)
  have haligned : state.1.Aligned input.text := by
    induction hreaches with
    | start => simp [Cursor.Aligned, Cursor.start, literalsBefore]
    | next hreaches hpass ih =>
        exact parsePass_aligned hpaired (hkeeps _ hreaches) ih hpass
  exact alignedAt_of_aligned hpaired (hkeeps state hreaches) haligned

def noNames : NameTables := ⟨[], [], [], [], []⟩

/-- A trigger with a quoted player and a quoted comment. -/
def quotedTrigger (player comment : String) : Text :=
  ascii "Trigger(\"" ++ ascii player ++ ascii "\")\x7bActions:Comment(\"" ++
    ascii comment ++ ascii "\");\x7d"

def quotedInput (player comment : String) : CompilerInput := .of ⟨false, 0, 0⟩ noNames
    (ascii "TRIGGER(\"\")\x7bACTIONS:COMMENT(\"\");\x7d")
    [ascii player, ascii comment]

/-- A quoted player and a quoted comment are read with their own literals. -/
theorem literals_aligned_quotedTrigger :
    cleanText (quotedTrigger "Player 1" "a") = some
        (ascii "TRIGGER(\"\")\x7bACTIONS:COMMENT(\"\");\x7d",
          [ascii "Player 1", ascii "a"]) ∧
      ∀ state, Loop.Reaches (parsePass (quotedInput "Player 1" "a"))
          (.start, .start []) state →
        AlignedAt (quotedInput "Player 1" "a") state := by
  have hclean : cleanText (quotedTrigger "Player 1" "a") = some
      (ascii "TRIGGER(\"\")\x7bACTIONS:COMMENT(\"\");\x7d",
        [ascii "Player 1", ascii "a"]) := by
    decide +kernel
  have hrun : Loop.run (parsePass (quotedInput "Player 1" "a")) 40
      (.start, .start []) ≠ none := by
    rw [← Option.isSome_iff_ne_none]
    decide +kernel
  have hkeeps : (Loop.trace (parsePass (quotedInput "Player 1" "a")) 40
      (.start, .start [])).all
        (keepsLiterals (quotedInput "Player 1" "a")) = true := by
    decide +kernel
  refine ⟨hclean, literals_aligned hclean ⟨false, 0, 0⟩ noNames [] ?_⟩
  intro state hreaches
  exact List.all_eq_true.mp hkeeps state ((Loop.mem_trace_iff hrun).mpr hreaches)

/-- A quoted player that is no owner: the name of the player is looked for in the
comment too, and the comment is left without a literal. -/
theorem not_aligned_unknown_player :
    cleanText (quotedTrigger "a" "Player 1") = some
        (ascii "TRIGGER(\"\")\x7bACTIONS:COMMENT(\"\");\x7d",
          [ascii "a", ascii "Player 1"]) ∧
      ∃ state, Loop.Reaches (parsePass (quotedInput "a" "Player 1"))
          (.start, .start []) state ∧
        ¬ AlignedAt (quotedInput "a" "Player 1") state := by
  have hrun : Loop.run (parsePass (quotedInput "a" "Player 1")) 40
      (.start, .start []) ≠ none := by
    rw [← Option.isSome_iff_ne_none]
    decide +kernel
  have hmiscounted : (Loop.trace (parsePass (quotedInput "a" "Player 1")) 40
      (.start, .start [])).any (fun state => decide (state.1.nextString ≠
        literalsBefore (quotedInput "a" "Player 1").text state.1.pos)) =
          true := by
    decide +kernel
  refine ⟨by decide +kernel, ?_⟩
  obtain ⟨state, hmem, hne⟩ := List.any_eq_true.mp hmiscounted
  refine ⟨state, (Loop.mem_trace_iff hrun).mp hmem, fun haligned => ?_⟩
  exact of_decide_eq_true hne haligned.counted

end Chkdraft.TextTrigs
