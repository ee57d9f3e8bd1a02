import Chkdraft.TextTrigs.CleanText
import Chkdraft.TextTrigs.EscapeRoundTrip

/-!
# Quoted texts in trigger text

The end of a literal is the next quote that no backslash precedes.  Quotes
inside an escaped string always follow a backslash, but so does the closing
quote of a string that ends with one.

A scan with three modes says which quotes open a literal.  As long as the text
does not end inside a literal, cleaning passes over the text once and collects a
string for each opening quote.
-/

namespace Chkdraft.TextTrigs

open Scan

variable {character : UInt8} {following : CleanState}

variable {index pos : ℕ} {text : Text} {state : CleanState}

/-! ## Literals made of escaped strings -/

theorem hexDigit_ne {value : UInt8} (hvalue : value < 16) :
    hexDigit value ≠ quote ∧ hexDigit value ≠ 92 := by
  have hdigit := oneCharHexVal_hexDigit hvalue
  constructor
  · intro heq
    rw [heq] at hdigit
    cases hdigit
  · intro heq
    rw [heq] at hdigit
    cases hdigit

theorem escapeChar_quote (hquote : (escapeChar character)[index]? = some quote) :
    0 < index ∧ (escapeChar character)[index - 1]? = some 92 := by
  rcases escapeChar_cases character with
    ⟨letter, heq, -⟩ | heq | ⟨heq, hne, -⟩
  · rw [heq] at hquote ⊢
    rcases index with _ | _ | index
    · simp [quote] at hquote
    · exact ⟨Nat.one_pos, rfl⟩
    · simp at hquote
  · have hhigh := (hexDigit_ne (div_sixteen_lt character)).1
    have hlow := (hexDigit_ne (mod_sixteen_lt character)).1
    rw [heq] at hquote ⊢
    rcases index with _ | _ | _ | _ | index
    · simp [quote] at hquote
    · exact ⟨Nat.one_pos, rfl⟩
    · simp [hhigh] at hquote
    · simp [hlow] at hquote
    · simp at hquote
  · rw [heq] at hquote
    cases index with
    | zero => exact absurd (Option.some.inj hquote) hne
    | succ index => simp at hquote

theorem getLast?_escapeChar (character : UInt8) :
    (escapeChar character).getLast? = some 92 ↔ character = 92 := by
  constructor
  · intro hlast
    rcases escapeChar_cases character with
      ⟨letter, heq, -, hname⟩ | heq | ⟨heq, -, -⟩
    · rw [heq] at hlast
      obtain rfl : letter = 92 := by simpa using hlast
      exact hname.symm
    · rw [heq] at hlast
      exact absurd (by simpa using hlast) (hexDigit_ne (mod_sixteen_lt character)).2
    · rw [heq] at hlast
      simpa using hlast
  · rintro rfl
    decide

theorem escapeChar_ne_nil (character : UInt8) : escapeChar character ≠ [] := by
  rcases escapeChar_cases character with ⟨_, heq, -⟩ | heq | ⟨heq, -⟩ <;>
    simp [heq]

theorem makeEscStr_quote {rawString : Text} (hquote : (makeEscStr rawString)[index]? = some quote) :
    0 < index ∧ (makeEscStr rawString)[index - 1]? = some 92 := by
  induction rawString generalizing index with
  | nil => simp [makeEscStr] at hquote
  | cons character rest ih =>
      rw [makeEscStr, List.flatMap_cons] at hquote ⊢
      by_cases hlt : index < (escapeChar character).length
      · rw [List.getElem?_append_left hlt] at hquote
        obtain ⟨hpos, hslash⟩ := escapeChar_quote hquote
        exact ⟨hpos, by rwa [List.getElem?_append_left (by omega)]⟩
      · rw [List.getElem?_append_right (by omega)] at hquote
        obtain ⟨hpos, hslash⟩ := ih hquote
        refine ⟨by omega, ?_⟩
        rw [List.getElem?_append_right (by omega), Nat.sub_right_comm]
        exact hslash

/-- An escaped string ends with a backslash if the string does. -/
theorem getLast?_makeEscStr (rawString : Text) :
    (makeEscStr rawString).getLast? = some 92 ↔ rawString.getLast? = some 92 := by
  rcases rawString.eq_nil_or_concat' with rfl | ⟨init, last, rfl⟩
  · simp [makeEscStr]
  · rw [makeEscStr, List.flatMap_append, List.flatMap_singleton,
      List.getLast?_append_of_ne_nil _ (escapeChar_ne_nil last), getLast?_escapeChar]
    simp

def IsStringEnd (text : Text) (index : ℕ) : Prop :=
  charAt text index = quote ∧ ¬ (0 < index ∧ charAt text (index - 1) = 92)

theorem findStringEnd_eq_some_iff {found : ℕ} : findStringEnd text pos = some found ↔
      pos ≤ found ∧ found < text.length ∧ IsStringEnd text found ∧
        ∀ index, pos ≤ index → index < found → ¬ IsStringEnd text index := by
  simp only [findStringEnd, List.find?_range'_eq_some, decide_eq_true_eq,
    List.mem_range'_1, Bool.not_eq_true', decide_eq_false_iff_not]
  constructor
  · rintro ⟨hend, ⟨hle, hlt⟩, hbefore⟩
    exact ⟨hle, by omega, hend, hbefore⟩
  · rintro ⟨hle, hlt, hend, hbefore⟩
    exact ⟨hend, ⟨hle, by omega⟩, hbefore⟩

theorem findStringEnd_eq_none_iff : findStringEnd text pos = none ↔
      ∀ index, pos ≤ index → index < text.length → ¬ IsStringEnd text index := by
  simp only [findStringEnd, List.find?_range'_eq_none, Bool.not_eq_true', decide_eq_false_iff_not]
  constructor
  · intro hnone index hle hlt
    exact hnone index hle (by omega)
  · intro hnone index hle hlt
    exact hnone index hle (by omega)

def withLiteral (before rawString after : Text) : Text :=
  before ++ quote :: (makeEscStr rawString ++ quote :: after)

section Literal

variable {before rawString after : Text}

theorem charAt_withLiteral (index : ℕ) :
    charAt (withLiteral before rawString after) (before.length + 1 + index) =
      charAt (makeEscStr rawString ++ quote :: after) index := by
  rw [withLiteral, charAt_append_of_le (by omega), Nat.add_assoc, Nat.add_sub_cancel_left, Nat.add_comm 1 index]
  rfl

theorem charAt_withLiteral_close : charAt (withLiteral before rawString after)
      (before.length + 1 + (makeEscStr rawString).length) = quote := by
  rw [charAt_withLiteral, charAt_append_of_le (by omega)]
  simp [charAt]

theorem not_isStringEnd_inside (hlt : index < (makeEscStr rawString).length) :
    ¬ IsStringEnd (withLiteral before rawString after) (before.length + 1 + index) := by
  rintro ⟨hquote, hslash⟩
  rw [charAt_withLiteral, charAt_append_of_lt hlt, charAt, List.getD_eq_getElem _ _ hlt] at hquote
  have hinside : (makeEscStr rawString)[index]? = some quote := by
    rw [List.getElem?_eq_getElem hlt, hquote]
  obtain ⟨hpos, hescaped⟩ := makeEscStr_quote hinside
  apply hslash
  have hindex : before.length + 1 + index - 1 = before.length + 1 + (index - 1) := by
    omega
  rw [hindex, charAt_withLiteral, charAt_append_of_lt (by omega), charAt,
    List.getD_eq_getElem?_getD, hescaped]
  exact ⟨by omega, rfl⟩

/-- The closing quote ends the literal unless a backslash is escaped directly in
front of it. -/
theorem isStringEnd_close_iff : IsStringEnd (withLiteral before rawString after)
        (before.length + 1 + (makeEscStr rawString).length) ↔
      rawString.getLast? ≠ some 92 := by
  rw [IsStringEnd, charAt_withLiteral_close, Ne, ← getLast?_makeEscStr,
    and_iff_right rfl, not_iff_not,
    and_iff_right (by omega : 0 < before.length + 1 + (makeEscStr rawString).length)]
  rcases (makeEscStr rawString).eq_nil_or_concat' with hnil | ⟨init, last, heq⟩
  · rw [hnil]
    simp [charAt, withLiteral, quote]
  · have hlength : (makeEscStr rawString).length = init.length + 1 := by
      rw [heq, List.length_append, List.length_singleton]
    have hindex : before.length + 1 + (makeEscStr rawString).length - 1 =
        before.length + 1 + init.length := by
      omega
    rw [hindex, charAt_withLiteral, heq]
    simp [charAt]

theorem findStringEnd_withLiteral :
    findStringEnd (withLiteral before rawString after) (before.length + 1) =
        some (before.length + 1 + (makeEscStr rawString).length) ↔
      rawString.getLast? ≠ some 92 := by
  rw [findStringEnd_eq_some_iff, ← isStringEnd_close_iff]
  constructor
  · exact fun hfound => hfound.2.2.1
  · intro hend
    refine ⟨by omega, ?_, hend, fun index hle hlt => ?_⟩
    · simp [withLiteral]
      omega
    · obtain ⟨offset, rfl⟩ := Nat.exists_eq_add_of_le hle
      exact not_isStringEnd_inside (by omega)

theorem slice_withLiteral : slice (withLiteral before rawString after) (before.length + 1)
      (before.length + 1 + (makeEscStr rawString).length) = makeEscStr rawString := by
  have hsplit : withLiteral before rawString after =
      (before ++ [quote]) ++ (makeEscStr rawString ++ quote :: after) := by
    simp [withLiteral]
  rw [slice, hsplit, List.drop_left' (by simp), Nat.add_sub_cancel_left, List.take_left]

end Literal

theorem cleanCharacter_quote (text : Text) (state : CleanState) : cleanCharacter text quote state =
      { pos := ((findStringEnd text state.pos).map (· + 1)).getD 0
        dest := state.dest ++ [quote, quote]
        stringContents := state.stringContents ++ [parseEscStr (slice text state.pos
            ((findStringEnd text state.pos).getD text.length))] } := by
  rfl

/-- A pass that stands at the opening quote finds the closing one and collects
the string. -/
def LexesLiteral (before rawString after : Text) : Prop :=
  let text := withLiteral before rawString after
  let closeQuotePos := before.length + 1 + (makeEscStr rawString).length
  findStringEnd text (before.length + 1) = some closeQuotePos ∧
    ∀ state : CleanState, state.pos = before.length → cleanPass text state = .next
        { pos := closeQuotePos + 1
          dest := state.dest ++ [quote, quote]
          stringContents := state.stringContents ++ [rawString] }

theorem cleanPass_withLiteral {before rawString after : Text}
    (hnul : 0 ∉ rawString) (hlast : rawString.getLast? ≠ some 92)
    (hpos : state.pos = before.length) :
    cleanPass (withLiteral before rawString after) state = .next
      { pos := before.length + 1 + (makeEscStr rawString).length + 1
        dest := state.dest ++ [quote, quote]
        stringContents := state.stringContents ++ [rawString] } := by
  have hfound := (@findStringEnd_withLiteral before rawString after).mpr hlast
  have hlt : state.pos < (withLiteral before rawString after).length := by
    simp [withLiteral, hpos]
  have hquote : charAt (withLiteral before rawString after) state.pos =
      quote := by
    simp [withLiteral, charAt, hpos]
  have hread : parseEscStr (makeEscStr rawString) = rawString := by
    rw [parseEscStr, parseEscChars_of_makeEscStr hnul, Option.getD_some]
  rw [cleanPass, if_pos hlt, hquote, hpos, cleanCharacter_quote, hfound,
    Option.getD_some, slice_withLiteral, hread]
  rfl

/-- Only a backslash at the end of a string hides the closing quote. -/
theorem lexesLiteral_iff {rawString : Text} (hnul : 0 ∉ rawString) (before after : Text) :
    LexesLiteral before rawString after ↔ rawString.getLast? ≠ some 92 := by
  constructor
  · exact fun hlexes => findStringEnd_withLiteral.mp hlexes.1
  · intro hlast
    exact ⟨findStringEnd_withLiteral.mpr hlast,
      fun state hpos => cleanPass_withLiteral hnul hlast hpos⟩

/-- A string that ends with a quote. -/
theorem lexesLiteral_quoted :
    0 ∉ ascii "a\"" ∧ LexesLiteral (ascii "(") (ascii "a\"") (ascii ")") := by
  refine ⟨by decide, (lexesLiteral_iff (by decide) _ _).mpr (by decide)⟩

/-- A string of one backslash: the quote behind it is taken for an escaped
one. -/
theorem not_lexesLiteral_backslash : ¬ LexesLiteral [] [92] [] := by
  rintro ⟨hfound, -⟩
  exact absurd hfound (by decide)

/-- A character that is kept as it is, or capitalised. -/
def IsPlain (character : UInt8) : Prop := character ∉ [32, 9, 13, 10, 11, 12, 47, quote]

instance (character : UInt8) : Decidable (IsPlain character) := inferInstanceAs (Decidable (_ ∉ _))

theorem cleanCharacter_plain (hplain : IsPlain character) (text : Text) (state : CleanState) :
    cleanCharacter text character state =
      { state with dest := state.dest ++ [upperCase character] } := by
  simp only [IsPlain, List.mem_cons, List.not_mem_nil, or_false, not_or] at hplain
  obtain ⟨hblank, htab, hreturn, hfeed, hvertical, hform, hslash, hquote⟩ := hplain
  rw [cleanCharacter, if_neg (by simp [hblank, htab]), if_neg hreturn,
    if_neg (by simp [hfeed, hvertical, hform]), if_neg hslash, if_neg hquote]

theorem returns_plain_iff {left run right dest : Text}
    {stringContents : List Text} {result : Text × List Text}
    (hplain : ∀ character ∈ run, IsPlain character) :
    Loop.Returns (cleanPass (left ++ (run ++ right))) ⟨left.length, dest, stringContents⟩ result ↔
      Loop.Returns (cleanPass (left ++ (run ++ right)))
        ⟨left.length + run.length, dest ++ run.map upperCase, stringContents⟩
        result := by
  induction run generalizing left dest with
  | nil => simp
  | cons character run ih =>
      have hpass : cleanPass (left ++ (character :: run ++ right))
          ⟨left.length, dest, stringContents⟩ = .next
            ⟨left.length + 1, dest ++ [upperCase character], stringContents⟩ := by
        have hchar : charAt (left ++ (character :: run ++ right)) left.length =
            character := by
          simp [charAt]
        rw [cleanPass, if_pos (by simp), hchar,
          cleanCharacter_plain (hplain character List.mem_cons_self)]
      have hrest := @ih (left ++ [character]) (dest ++ [upperCase character])
        fun other hmem => hplain other (List.mem_cons_of_mem character hmem)
      rw [Loop.returns_next_iff hpass]
      simpa [Nat.add_assoc, Nat.add_comm 1] using hrest

theorem cleanText_withLiteral {before rawString after : Text}
    (hbefore : ∀ character ∈ before, IsPlain character)
    (hnul : 0 ∉ rawString) (hlast : rawString.getLast? ≠ some 92)
    (hafter : ∀ character ∈ after, IsPlain character) :
    cleanText (withLiteral before rawString after) =
      some (before.map upperCase ++ [quote, quote] ++ after.map upperCase, [rawString]) := by
  rw [cleanText_eq_some_iff]
  apply (@returns_plain_iff [] before _ [] [] _ hbefore).mpr
  rw [List.nil_append, List.length_nil, Nat.zero_add, List.nil_append]
  rw [← withLiteral, Loop.returns_next_iff (cleanPass_withLiteral hnul hlast rfl), List.nil_append]
  have hsplit : withLiteral before rawString after =
      (before ++ quote :: makeEscStr rawString ++ [quote]) ++ (after ++ []) := by
    simp [withLiteral]
  have hlength : before.length + 1 + (makeEscStr rawString).length + 1 =
      (before ++ quote :: makeEscStr rawString ++ [quote]).length := by
    simp
    omega
  rw [hsplit, hlength]
  refine (returns_plain_iff hafter).mpr (Loop.returns_of_done ?_)
  apply cleanPass_of_le
  simp
  omega

/-- What a character of trigger text belongs to. -/
inductive LexMode where
  | code
  | literal
  | comment
deriving DecidableEq

instance (text : Text) (index : ℕ) : Decidable (IsStringEnd text index) :=
  inferInstanceAs (Decidable (_ ∧ _))

/-- The mode behind a character.  A comment goes up to the character that ends
its line. -/
def LexMode.next (text : Text) (pos : ℕ) : LexMode → LexMode
  | .code =>
      if charAt text pos = quote then .literal
      else if charAt text pos = 47 ∧ charAt text (pos + 1) = 47 then .comment
      else .code
  | .literal => if IsStringEnd text pos then .code else .literal
  | .comment =>
      if commentEnd text (pos + 1) = pos + 1 then .code else .comment

/-- The mode in front of the character at a position. -/
def lexModeAt (text : Text) : ℕ → LexMode
  | 0 => .code
  | pos + 1 => (lexModeAt text pos).next text pos

def IsOpening (text : Text) (pos : ℕ) : Prop := lexModeAt text pos = .code ∧ charAt text pos = quote

instance (text : Text) (pos : ℕ) : Decidable (IsOpening text pos) :=
  inferInstanceAs (Decidable (_ ∧ _))

/-- How many literals open in front of a position. -/
def openingsBefore (text : Text) (pos : ℕ) : ℕ :=
  (List.range pos).countP fun index => decide (IsOpening text index)

/-- A literal is still open at the end of the text. -/
def EndsInLiteral (text : Text) : Prop := lexModeAt text text.length = .literal

theorem lexModeAt_literal (hopening : IsOpening text pos) (hlt : pos < index)
    (hinside : ∀ inner, pos < inner → inner < index →
      ¬ IsStringEnd text inner) : lexModeAt text index = .literal := by
  induction index, hlt using Nat.le_induction with
  | base => simp [lexModeAt, hopening.1, LexMode.next, hopening.2]
  | succ index hle ih =>
      have hliteral := ih fun inner hinner hlt => hinside inner hinner (by omega)
      rw [lexModeAt, hliteral, LexMode.next, if_neg (hinside index hle (Nat.lt_succ_self index))]

section

variable (hmode : lexModeAt text pos = .code) (hfirst : charAt text pos = 47)
  (hsecond : charAt text (pos + 1) = 47)

include hmode hfirst hsecond

theorem lexModeAt_comment (hlt : pos < index) (hend : index < commentEnd text (pos + 1)) :
    lexModeAt text index = .comment := by
  induction index, hlt using Nat.le_induction with
  | base => simp [lexModeAt, hmode, LexMode.next, hfirst, hsecond, quote]
  | succ index hle ih =>
      have hsame := commentEnd_eq_of_le (show pos + 1 ≤ index + 1 by omega) (Nat.le_of_lt hend)
      rw [lexModeAt, ih (by omega), LexMode.next, if_neg (by omega)]

theorem lexModeAt_commentEnd : lexModeAt text (commentEnd text (pos + 1)) = .code := by
  have hlt : pos + 1 < text.length := charAt_lt_of_ne_zero (by rw [hsecond]; decide)
  obtain ⟨hle, -⟩ := commentEnd_bounds (Nat.le_of_lt hlt)
  have hsame := commentEnd_eq_of_le hle (Nat.le_refl _)
  -- The second slash is no line end.
  have hne : commentEnd text (pos + 1) ≠ pos + 1 := by
    intro heq
    rw [commentEnd_eq_findSome] at heq
    cases hfind : [10, 13, 11, 12].findSome? (find text · (pos + 1)) with
    | none =>
        rw [hfind, Option.getD_none] at heq
        omega
    | some found =>
        obtain ⟨character, hmem, hfound⟩ := List.exists_of_findSome?_eq_some hfind
        rw [hfind, Option.getD_some] at heq
        rw [heq] at hfound
        rw [← (find_spec hfound).2.2, hsecond] at hmem
        exact absurd hmem (by decide)
  obtain ⟨last, hlast⟩ : ∃ last, commentEnd text (pos + 1) = last + 1 :=
    ⟨commentEnd text (pos + 1) - 1, by omega⟩
  rw [hlast] at hsame ⊢
  rw [lexModeAt, lexModeAt_comment hmode hfirst hsecond (by omega) (by omega),
    LexMode.next, if_pos hsame]

end

/-- A pass in front of a character outside literals and comments gets to the
next such place. -/
theorem nextCleanPosition_spec (hlt : pos < text.length) (hmode : lexModeAt text pos = .code)
    (hopen : nextCleanPosition text pos ≠ 0) :
    pos < nextCleanPosition text pos ∧ nextCleanPosition text pos ≤ text.length ∧
      lexModeAt text (nextCleanPosition text pos) = .code ∧
      ∀ index, pos < index → index < nextCleanPosition text pos → ¬ IsOpening text index := by
  refine ⟨(lt_nextCleanPosition_or hlt).resolve_right hopen, ?_⟩
  rcases nextCleanPosition_cases text pos with
    ⟨hquote, hnext⟩ | ⟨hfirst, hsecond, hnext⟩ | ⟨hquote, hcomment, hnext⟩
  · rw [hnext] at hopen ⊢
    cases hfound : findStringEnd text (pos + 1) with
    | none => exact absurd (by rw [hfound]; rfl) hopen
    | some found =>
        obtain ⟨hle, hbound, hend, hinside⟩ := findStringEnd_eq_some_iff.mp hfound
        rw [Option.map_some, Option.getD_some]
        have hliteral : ∀ index, pos < index → index ≤ found → lexModeAt text index = .literal := by
          intro index hindex hle
          apply lexModeAt_literal ⟨hmode, hquote⟩ hindex
          intro inner hinner hless
          exact hinside inner hinner (by omega)
        refine ⟨hbound, ?_, fun index hindex hless hopening => ?_⟩
        · rw [lexModeAt, hliteral found hle (Nat.le_refl _), LexMode.next, if_pos hend]
        · have hcode := hopening.1
          rw [hliteral index hindex (by omega)] at hcode
          cases hcode
  · rw [hnext]
    refine ⟨(commentEnd_bounds hlt).2, lexModeAt_commentEnd hmode hfirst hsecond,
      fun index hindex hless hopening => ?_⟩
    have hcode := hopening.1
    rw [lexModeAt_comment hmode hfirst hsecond hindex hless] at hcode
    cases hcode
  · have hcode : lexModeAt text (pos + 1) = .code := by
      rw [lexModeAt, hmode, LexMode.next, if_neg hquote, if_neg hcomment]
    rcases hnext with hnext | ⟨hfeed, hnext⟩
    · rw [hnext]
      exact ⟨hlt, hcode, fun index _ _ => by omega⟩
    · have hbound : pos + 1 < text.length := charAt_lt_of_ne_zero (by rw [hfeed]; decide)
      rw [hnext]
      refine ⟨hbound, ?_, fun index hindex hless hopening => ?_⟩
      · rw [lexModeAt, hcode, LexMode.next, hfeed]
        rfl
      · obtain rfl : index = pos + 1 := by omega
        have hchar := hopening.2
        rw [hfeed] at hchar
        cases hchar

theorem openingsBefore_of_lt {next : ℕ} (hlt : pos < next)
    (hbetween : ∀ index, pos < index → index < next → ¬ IsOpening text index) :
    openingsBefore text next = openingsBefore text pos + if IsOpening text pos then 1 else 0 := by
  induction next, hlt using Nat.le_induction with
  | base =>
      rw [openingsBefore, List.range_succ, List.countP_append, List.countP_singleton]
      simp [openingsBefore]
  | succ next hle ih =>
      have hlast := hbetween next hle (Nat.lt_succ_self next)
      rw [openingsBefore, List.range_succ, List.countP_append,
        List.countP_singleton, if_neg (by simpa using hlast), Nat.add_zero]
      exact ih fun index hindex hless => hbetween index hindex (by omega)

theorem length_stringContents_cleanCharacter (text : Text) (character : UInt8)
    (state : CleanState) :
    (cleanCharacter text character state).stringContents.length =
      state.stringContents.length + if character = quote then 1 else 0 := by
  by_cases hquote : character = quote
  · rw [hquote, cleanCharacter_quote, if_pos rfl]
    simp
  · rw [cleanCharacter, if_neg hquote, if_neg hquote]
    repeat' split
    all_goals rfl

/-- What holds in front of every pass: the position is outside literals and
comments, and there is a string for each literal in front of it. -/
structure InOrder (text : Text) (state : CleanState) : Prop where
  le_length : state.pos ≤ text.length
  code : lexModeAt text state.pos = .code
  collected : state.stringContents.length = openingsBefore text state.pos

theorem InOrder.start (text : Text) : InOrder text .start where
  le_length := Nat.zero_le _
  code := rfl
  collected := rfl

theorem InOrder.next (hinv : InOrder text state)
    (hpass : cleanPass text state = .next following) (hforward : following.pos ≠ 0) :
    state.pos < following.pos ∧ InOrder text following := by
  rw [cleanPass] at hpass
  split at hpass
  case isFalse => cases hpass
  case isTrue hlt =>
    have hpos : following.pos = nextCleanPosition text state.pos := by
      cases hpass
      exact pos_cleanCharacter _ _ _ _ _
    rw [hpos] at hforward ⊢
    obtain ⟨hless, hle, hcode, hbetween⟩ := nextCleanPosition_spec hlt hinv.code hforward
    refine ⟨hless, ⟨hpos ▸ hle, hpos ▸ hcode, ?_⟩⟩
    rw [hpos, openingsBefore_of_lt hless hbetween, ← hinv.collected]
    cases hpass
    rw [length_stringContents_cleanCharacter]
    simp [IsOpening, hinv.code]

/-- A literal that is never closed lasts to the end of the text. -/
theorem InOrder.endsInLiteral (hinv : InOrder text state)
    (hpass : cleanPass text state = .next following) (hback : following.pos = 0) :
    EndsInLiteral text := by
  rw [cleanPass] at hpass
  split at hpass
  case isFalse => cases hpass
  case isTrue hlt =>
    have hpos : nextCleanPosition text state.pos = 0 := by
      cases hpass
      rw [← hback]
      exact (pos_cleanCharacter _ _ _ _ _).symm
    obtain ⟨hquote, hnone⟩ := (nextCleanPosition_eq_zero_iff hlt).mp hpos
    exact lexModeAt_literal ⟨hinv.code, hquote⟩ hlt (findStringEnd_eq_none_iff.mp hnone)

/-- `cleanText` returns, each pass moves on, and there is a string for each
literal that was opened. -/
def CleansInOrder (text : Text) : Prop :=
  Loop.Terminates (cleanPass text) .start ∧ ∀ state, Loop.Reaches (cleanPass text) .start state →
      (∀ following, cleanPass text state = .next following → state.pos < following.pos) ∧
      state.stringContents.length = openingsBefore text state.pos

theorem cleansInOrder_iff (text : Text) : CleansInOrder text ↔ ¬ EndsInLiteral text := by
  constructor
  · rintro ⟨⟨result, hreturns⟩, hpasses⟩ hends
    have hinv : ∀ state, Loop.Reaches (cleanPass text) .start state → InOrder text state := by
      intro state hreaches
      induction hreaches with
      | start => exact .start text
      | next hreaches hpass ih =>
          have hless := (hpasses _ hreaches).1 _ hpass
          exact (ih.next hpass (Nat.ne_of_gt (Nat.zero_lt_of_lt hless))).2
    obtain ⟨state, hreaches, hdone⟩ := Loop.returns_iff_reaches_done.mp hreturns
    have hlast := hinv state hreaches
    have hend : state.pos = text.length := by
      rw [cleanPass] at hdone
      split at hdone
      · cases hdone
      · exact Nat.le_antisymm hlast.le_length (by omega)
    have hcode := hlast.code
    rw [hend, hends] at hcode
    cases hcode
  · intro hends
    have hstep : ∀ state following, InOrder text state → cleanPass text state = .next following →
        state.pos < following.pos ∧ InOrder text following := by
      intro state following hinv hpass
      exact hinv.next hpass fun hback => hends (hinv.endsInLiteral hpass hback)
    constructor
    · have hrun : Loop.run (cleanPass text) (text.length + 1) .start ≠ none := by
        apply @Loop.run_ne_none_of_measure _ _ _ (InOrder text)
          (fun state => text.length - state.pos)
        · intro state following hinv hpass
          obtain ⟨hless, hfollowing⟩ := hstep state following hinv hpass
          have hbound := hfollowing.le_length
          exact ⟨hfollowing, by omega⟩
        · exact .start text
        · simp [CleanState.start]
      obtain ⟨result, hresult⟩ := Option.ne_none_iff_exists'.mp hrun
      exact ⟨result, _, hresult⟩
    · intro state hreaches
      have hinv : InOrder text state := hreaches.invariant (.start text)
        fun state following hinv hpass => (hstep state following hinv hpass).2
      exact ⟨fun following hpass => (hstep state following hinv hpass).1, hinv.collected⟩

/-- A text of one quote is cleaned forever. -/
theorem not_cleansInOrder_quote : ¬ CleansInOrder (ascii "\"") := by
  rintro ⟨-, hpasses⟩
  have hpass : cleanPass (ascii "\"") .start = .next ⟨0, [34, 34], [[]]⟩ := by
    rfl
  exact absurd ((hpasses _ .start).1 _ hpass) (by decide)

end Chkdraft.TextTrigs
