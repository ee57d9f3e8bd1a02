import Chkdraft.TextTrigs.EscapeRoundTrip

/-!
# Strings as the editor shows them

The editor writes control characters as `<XX>` and escapes backslashes and
angle brackets with a backslash.  A line end of two characters is kept, or
written as `\r\n` when the string has to stay on one line.  Both forms are read
back by `parseChkdStr`, which also takes every escape of the C-style strings.

An escape that denotes NUL is not rejected: its first character is taken for a
plain one.  `parseChkdBytes` pushes the last escaped character in place of every
plain one.
-/

namespace Chkdraft.TextTrigs

open Scan

variable {write : Option UInt8 → UInt8 → Option UInt8 → Text} {count : ℕ}
  {earlier : Option UInt8}

variable {chkdString rest : Text} {escape : UInt8 × ℕ}

def isControl (character : UInt8) : Bool := character < 32 ∨ character = 127

def angleEscape (character : UInt8) : Text :=
  [60, hexDigit (character / 16), hexDigit (character % 16), 62]

/-- What `MakeOneLineChkdStr` writes for a character between its neighbours. -/
def oneLineChar (previous : Option UInt8) (character : UInt8) (next : Option UInt8) : Text :=
  if character = 13 ∧ next = some 10 then ascii "\\r"
  else if character = 10 ∧ previous = some 13 then ascii "\\n"
  else if character = 9 then ascii "\\t"
  else if isControl character then angleEscape character
  else if character = 60 then ascii "\\<"
  else if character = 92 then ascii "\\\\"
  else [character]

/-- What `makeChkdStr` writes for a character between its neighbours. -/
def multiLineChar (previous : Option UInt8) (character : UInt8) (next : Option UInt8) : Text :=
  let partOfNewLine : Prop := character = 13 ∧ next = some 10 ∨ character = 10 ∧ previous = some 13
  if isControl character ∧ character ≠ 9 ∧ ¬ partOfNewLine then
    angleEscape character
  else if character = 60 then ascii "\\<"
  else if character = 92 then ascii "\\\\"
  else [character]

def writeChars (write : Option UInt8 → UInt8 → Option UInt8 → Text) : Option UInt8 → Text → Text
  | _, [] => []
  | previous, character :: rest =>
      write previous character rest.head? ++ writeChars write (some character) rest

def makeOneLineChkdStr (rawString : Text) : Text := writeChars oneLineChar none rawString

/-- `makeChkdStr` into a string that may have several lines. -/
def makeChkdStr (rawString : Text) : Text := writeChars multiLineChar none rawString

/-- `getChkdEscCodeChar` on the characters behind an angle bracket: the
character it denotes and how many characters behind the bracket belong to
it. -/
def chkdEscCodeChar (rest : Text) : Option (UInt8 × ℕ) :=
  match rest with
  | [] => some (60, 0)
  | first :: tail =>
      let twoDigits :=
        if tail[1]? = some 62 then
          (oneCharHexVal first).bind fun high =>
            (tail.head?.bind oneCharHexVal).map fun low => (high * 16 + low, 3)
        else none
      let oneDigit :=
        if tail.head? = some 62 then (oneCharHexVal first).map (·, 2) else none
      twoDigits <|> oneDigit

/-- The escape that starts with a character, if there is one. -/
def chkdEscape (character : UInt8) (rest : Text) : Option (UInt8 × ℕ) :=
  if character = 92 then some (slashEscCodeChar rest)
  else if character = 60 then chkdEscCodeChar rest
  else none

/-- The loop of `parseChkdStr`; the first argument counts the characters that
still belong to the last escape. -/
def parseChkdChars : ℕ → Text → Option Text
  | _, [] => some []
  | skip + 1, _ :: rest => parseChkdChars skip rest
  | 0, character :: rest =>
      match (chkdEscape character rest).filter (·.1 ≠ 0) with
      | some escape => (parseChkdChars escape.2 rest).map (escape.1 :: ·)
      | none =>
          if character = 0 then none
          else (parseChkdChars 0 rest).map (character :: ·)

/-- What `parseChkdStr` returns, and its output. -/
def parseChkdStr (chkdString : Text) : Bool × Text :=
  match parseChkdChars 0 chkdString with
  | some rawString => (true, rawString)
  | none => (false, [])

/-- The loop of `parseChkdBytes`.  A failed search for an escape behind an angle
bracket clears the last escaped character. -/
def parseChkdByteChars : UInt8 → ℕ → Text → List UInt8
  | _, _, [] => []
  | escapedChar, skip + 1, _ :: rest => parseChkdByteChars escapedChar skip rest
  | escapedChar, 0, character :: rest =>
      match chkdEscape character rest with
      | some escape => escape.1 :: parseChkdByteChars escape.1 escape.2 rest
      | none =>
          let escapedChar := if character = 60 then 0 else escapedChar
          escapedChar :: parseChkdByteChars escapedChar 0 rest

def parseChkdBytes (chkdString : Text) : List UInt8 := parseChkdByteChars 0 0 chkdString

example : parseChkdStr (ascii "<7>\\t<41>") = (true, [7, 9, 65]) := by decide

inductive Token where
  | escape (character : UInt8)
  | plain (character : UInt8)
deriving DecidableEq

def Token.character : Token → UInt8
  | .escape character => character
  | .plain character => character

def chkdToken (character : UInt8) (rest : Text) : Token × ℕ :=
  match chkdEscape character rest with
  | some escape => (.escape escape.1, escape.2)
  | none => (.plain character, 0)

/-- The escapes and plain characters of an editor string. -/
def chkdTokens (chkdString : Text) : List Token := Tokens.scan chkdToken 0 chkdString

theorem parseChkdChars_eq_drop (skip : ℕ) (chkdString : Text) :
    parseChkdChars skip chkdString = parseChkdChars 0 (chkdString.drop skip) := by
  induction chkdString generalizing skip with
  | nil => simp [parseChkdChars]
  | cons character rest ih =>
      cases skip with
      | zero => rfl
      | succ skip => exact ih skip

theorem parseChkdChars_escape {character : UInt8}
    (hescape : chkdEscape character rest = some escape) (hnul : escape.1 ≠ 0) :
    parseChkdChars 0 (character :: rest) =
      (parseChkdChars 0 (rest.drop escape.2)).map (escape.1 :: ·) := by
  have hfilter : (chkdEscape character rest).filter (·.1 ≠ 0) = some escape := by
    rw [hescape, Option.filter_some, if_pos (decide_eq_true hnul)]
  rw [parseChkdChars, hfilter, ← parseChkdChars_eq_drop]

theorem parseChkdChars_plain {character : UInt8}
    (hescape : ∀ escape, chkdEscape character rest = some escape →
      escape.1 = 0) (hnul : character ≠ 0) :
    parseChkdChars 0 (character :: rest) = (parseChkdChars 0 rest).map (character :: ·) := by
  have hfilter : (chkdEscape character rest).filter (·.1 ≠ 0) = none := by
    rw [Option.filter_eq_none_iff]
    intro escape hmem
    simpa using hescape escape hmem
  rw [parseChkdChars, hfilter]
  exact if_neg hnul

theorem chkdTokens_escape {character : UInt8} (hescape : chkdEscape character rest = some escape) :
    chkdTokens (character :: rest) = .escape escape.1 :: chkdTokens (rest.drop escape.2) := by
  rw [chkdTokens, Tokens.scan, chkdToken, hescape, Tokens.scan_eq_drop]
  rfl

theorem chkdTokens_plain {character : UInt8} (hescape : chkdEscape character rest = none) :
    chkdTokens (character :: rest) = .plain character :: chkdTokens rest := by
  rw [chkdTokens, Tokens.scan, chkdToken, hescape]
  rfl

theorem parseChkdChars_eq_tokens (hnul : 0 ∉ (chkdTokens chkdString).map Token.character) :
    parseChkdChars 0 chkdString = some ((chkdTokens chkdString).map Token.character) := by
  induction chkdString using Tokens.induction_on_drop with
  | hnil => rfl
  | hcons character rest ih =>
      cases hescape : chkdEscape character rest with
      | some escape =>
          rw [chkdTokens_escape hescape, List.map_cons, List.mem_cons, not_or] at hnul
          rw [chkdTokens_escape hescape,
            parseChkdChars_escape hescape (Ne.symm hnul.1), ih _ hnul.2]
          rfl
      | none =>
          rw [chkdTokens_plain hescape, List.map_cons, List.mem_cons, not_or] at hnul
          have hchar : character ≠ 0 := Ne.symm hnul.1
          have hrest : parseChkdChars 0 rest =
              some ((chkdTokens rest).map Token.character) := ih 0 hnul.2
          rw [chkdTokens_plain hescape, parseChkdChars_plain (by simp [hescape]) hchar, hrest]
          rfl

/-- A character that is read, and how many characters behind it belong to it. -/
def chkdByte (character : UInt8) (rest : Text) : UInt8 × ℕ :=
  ((chkdToken character rest).1.character, (chkdToken character rest).2)

theorem map_character_chkdTokens (chkdString : Text) :
    (chkdTokens chkdString).map Token.character = Tokens.scan chkdByte 0 chkdString := by
  induction chkdString using Tokens.induction_on_drop with
  | hnil => rfl
  | hcons character rest ih =>
      rw [chkdTokens, Tokens.scan, Tokens.scan, Tokens.scan_eq_drop,
        Tokens.scan_eq_drop (chkdByte character rest).2]
      exact congrArg _ (ih _)

/-- A character behind a backslash that stands for itself. -/
theorem slash_readsAs {letter character : UInt8}
    (hletter : letter ≠ 88 ∧ letter ≠ 120 ∧ oneCharOctVal letter = none)
    (hname : namedEscape letter = character) :
    Tokens.ReadsAs chkdByte [92, letter] character := by
  refine ⟨92, [letter], rfl, fun rest => ?_⟩
  simp only [chkdByte, chkdToken, chkdEscape, List.singleton_append,
    slashEscCodeChar_named hletter, hname]
  rfl

theorem angleEscape_readsAs (character : UInt8) :
    Tokens.ReadsAs chkdByte (angleEscape character) character := by
  refine ⟨60, _, rfl, fun rest => ?_⟩
  have hcode : chkdEscCodeChar (hexDigit (character / 16) ::
      hexDigit (character % 16) :: 62 :: rest) = some (character, 3) := by
    simp [chkdEscCodeChar, oneCharHexVal_hexDigit (div_sixteen_lt character),
      oneCharHexVal_hexDigit (mod_sixteen_lt character), div_add_mod_sixteen]
  simp [chkdByte, chkdToken, chkdEscape, hcode, Token.character]

theorem plain_readsAs {character : UInt8} (hslash : character ≠ 92) (hbracket : character ≠ 60) :
    Tokens.ReadsAs chkdByte [character] character := by
  refine ⟨character, [], rfl, fun rest => ?_⟩
  simp [chkdByte, chkdToken, chkdEscape, hslash, hbracket, Token.character]

theorem multiLineChar_readsAs (previous : Option UInt8) (character : UInt8) (next : Option UInt8) :
    Tokens.ReadsAs chkdByte (multiLineChar previous character next)
      character := by
  rw [multiLineChar]
  split
  case isTrue => exact angleEscape_readsAs character
  split
  case isTrue hchar => exact slash_readsAs (by decide) hchar.symm
  split
  case isTrue hchar => exact slash_readsAs (by decide) hchar.symm
  case isFalse hbracket hslash => exact plain_readsAs hslash hbracket

theorem oneLineChar_readsAs (previous : Option UInt8) (character : UInt8) (next : Option UInt8) :
    Tokens.ReadsAs chkdByte (oneLineChar previous character next)
      character := by
  rw [oneLineChar]
  split
  case isTrue hchar => exact slash_readsAs (by decide) hchar.1.symm
  split
  case isTrue hchar => exact slash_readsAs (by decide) hchar.1.symm
  split
  case isTrue hchar => exact slash_readsAs (by decide) hchar.symm
  split
  case isTrue => exact angleEscape_readsAs character
  split
  case isTrue hchar => exact slash_readsAs (by decide) hchar.symm
  split
  case isTrue hchar => exact slash_readsAs (by decide) hchar.symm
  case isFalse hbracket hslash => exact plain_readsAs hslash hbracket

/-- The neighbours decide how a character is written, but not how it is read. -/
theorem scan_writeChars (hreads : ∀ previous character next,
      Tokens.ReadsAs chkdByte (write previous character next) character)
    (previous : Option UInt8) (rawString : Text) :
    Tokens.scan chkdByte 0 (writeChars write previous rawString) =
      rawString := by
  induction rawString generalizing previous with
  | nil => rfl
  | cons character rest ih =>
      rw [writeChars, (hreads previous character rest.head?).scan_append, ih]

theorem parseChkdStr_writeChars (hreads : ∀ previous character next,
      Tokens.ReadsAs chkdByte (write previous character next) character)
    {rawString : Text} (hnul : 0 ∉ rawString) :
    parseChkdStr (writeChars write none rawString) = (true, rawString) := by
  have htokens := map_character_chkdTokens (writeChars write none rawString)
  rw [scan_writeChars hreads] at htokens
  rw [parseChkdStr, parseChkdChars_eq_tokens (by rwa [htokens]), htokens]

theorem isControl_hexDigit {value : UInt8} (hvalue : value < 16) :
    isControl (hexDigit value) = false := by
  have hdigits : ∀ digit : Fin 16, isControl (hexDigit (UInt8.ofNat digit)) = false := by
    decide
  have hself : value = UInt8.ofNat value.toNat := by simp
  rw [hself]
  exact hdigits ⟨value.toNat, hvalue⟩

theorem isControl_oneLineChar (previous : Option UInt8) (character : UInt8) (next : Option UInt8) :
    ∀ written ∈ oneLineChar previous character next, isControl written = false := by
  rw [oneLineChar]
  split
  case isTrue => decide +kernel
  split
  case isTrue => decide +kernel
  split
  case isTrue => decide +kernel
  split
  case isTrue =>
    simp only [angleEscape, List.forall_mem_cons, isControl_hexDigit (div_sixteen_lt character),
      isControl_hexDigit (mod_sixteen_lt character), true_and]
    decide +kernel
  split
  case isTrue => decide +kernel
  split
  case isTrue => decide +kernel
  case isFalse hcontrol _ _ => simpa using hcontrol

/-- A string on one line has no line ends and no other control characters. -/
theorem isControl_makeOneLineChkdStr (rawString : Text) :
    ∀ written ∈ makeOneLineChkdStr rawString, isControl written = false := by
  have hall : ∀ previous, ∀ written ∈ writeChars oneLineChar previous rawString,
      isControl written = false := by
    induction rawString with
    | nil => simp [writeChars]
    | cons character rest ih =>
        intro previous written hmem
        rw [writeChars, List.mem_append] at hmem
        rcases hmem with hmem | hmem
        · exact isControl_oneLineChar _ _ _ written hmem
        · exact ih _ written hmem
  exact hall none

/-- Strings of the editor are read back in both forms. -/
theorem parseChkdStr_makeChkdStr {rawString : Text} (hnul : 0 ∉ rawString) :
    parseChkdStr (makeChkdStr rawString) = (true, rawString) ∧
      parseChkdStr (makeOneLineChkdStr rawString) = (true, rawString) ∧
      ∀ written ∈ makeOneLineChkdStr rawString, isControl written = false :=
  ⟨parseChkdStr_writeChars multiLineChar_readsAs hnul,
    parseChkdStr_writeChars oneLineChar_readsAs hnul,
    isControl_makeOneLineChkdStr rawString⟩

/-- A line end, a lone line feed and a text that looks like an escape. -/
theorem parseChkdStr_makeChkdStr_line_ends : 0 ∉ [13, 10, 10, 60, 48, 65, 62, 92] ∧
      parseChkdStr (makeChkdStr [13, 10, 10, 60, 48, 65, 62, 92]) =
        (true, [13, 10, 10, 60, 48, 65, 62, 92]) :=
  ⟨by decide, (parseChkdStr_makeChkdStr (by decide)).1⟩

theorem nul_not_mem_take_digits {value : UInt8 → Option UInt8} (hvalue : value 0 = none)
    {first : UInt8} (hfirst : first ≠ 0) {tail : Text}
    (hdigits : none ∉ (tail.map value).take count) :
    0 ∉ (first :: tail).take (count + 1) := by
  rw [List.take_succ_cons, List.mem_cons, not_or]
  refine ⟨Ne.symm hfirst, fun hmem => hdigits ?_⟩
  rw [← List.map_take, ← hvalue]
  exact List.mem_map_of_mem hmem

theorem nul_not_mem_take_slash (hnul : (slashEscCodeChar rest).1 ≠ 0) :
    0 ∉ rest.take (slashEscCodeChar rest).2 := by
  cases rest with
  | nil => simp
  | cons first tail =>
      rw [slashEscCodeChar] at hnul ⊢
      split
      case isTrue hletter =>
        have hfirst : first ≠ 0 := by rcases hletter with rfl | rfl <;> decide
        have hhex : oneCharHexVal 0 = none := by decide
        split
        case h_1 htail =>
          exact nul_not_mem_take_digits hhex hfirst (by simp [htail])
        case h_2 htail =>
          exact nul_not_mem_take_digits hhex hfirst (by simp [htail])
        case h_3 => simpa using Ne.symm hfirst
      case isFalse hletter =>
        have hoct : oneCharOctVal 0 = none := by decide
        split
        case h_1 hhigh =>
          have hfirst : first ≠ 0 := by
            rintro rfl
            cases hhigh
          split
          case h_1 htail =>
            exact nul_not_mem_take_digits hoct hfirst (by simp [htail])
          case h_2 htail =>
            exact nul_not_mem_take_digits hoct hfirst (by simp [htail])
          case h_3 => simpa using Ne.symm hfirst
        case h_2 hhigh =>
          rw [if_neg hletter, hhigh] at hnul
          have hfirst : first ≠ 0 := by
            rintro rfl
            exact hnul rfl
          simpa using Ne.symm hfirst

/-- Behind an angle bracket an escape has digits and a closing bracket. -/
theorem ne_of_mem_take_angle (hescape : chkdEscCodeChar rest = some escape) :
    ∀ character ∈ rest.take escape.2, character ≠ 0 ∧ character ≠ 92 := by
  have hdigit : ∀ {character value : UInt8}, oneCharHexVal character = some value →
      character ≠ 0 ∧ character ≠ 92 := by
    intro character value hvalue
    constructor
    · rintro rfl
      cases hvalue
    · rintro rfl
      cases hvalue
  have hbracket : ∀ character ∈ [(62 : UInt8)], character ≠ 0 ∧ character ≠ 92 := by
    decide +kernel
  cases rest with
  | nil => simp
  | cons first tail =>
      simp only [chkdEscCodeChar, Option.orElse_eq_some] at hescape
      rcases hescape with htwo | ⟨-, hone⟩
      · split at htwo
        case isTrue hthird =>
          simp only [Option.bind_eq_some_iff, Option.map_eq_some_iff] at htwo
          obtain ⟨high, hhigh, low, ⟨second, hsecond, hlow⟩, rfl⟩ := htwo
          obtain ⟨rest, rfl⟩ : ∃ rest, tail = second :: 62 :: rest := by
            rcases tail with _ | ⟨next, _ | ⟨third, rest⟩⟩
            · cases hsecond
            · cases hthird
            · cases hsecond
              cases hthird
              exact ⟨rest, rfl⟩
          exact List.forall_mem_cons.mpr ⟨hdigit hhigh,
            List.forall_mem_cons.mpr ⟨hdigit hlow, hbracket⟩⟩
        case isFalse => cases htwo
      · split at hone
        case isTrue hsecond =>
          obtain ⟨value, hvalue, rfl⟩ := Option.map_eq_some_iff.mp hone
          obtain ⟨rest, rfl⟩ : ∃ rest, tail = 62 :: rest := by
            cases tail with
            | nil => cases hsecond
            | cons next rest =>
                cases hsecond
                exact ⟨rest, rfl⟩
          exact List.forall_mem_cons.mpr ⟨hdigit hvalue, hbracket⟩
        case isFalse => cases hone

theorem chkdEscape_spec {character : UInt8} (hescape : chkdEscape character rest = some escape) :
    character ≠ 0 ∧ (escape.1 ≠ 0 → 0 ∉ rest.take escape.2) := by
  rw [chkdEscape] at hescape
  split at hescape
  case isTrue hslash =>
    cases hescape
    exact ⟨by rw [hslash]; decide, nul_not_mem_take_slash⟩
  split at hescape
  case isTrue hbracket =>
    refine ⟨by rw [hbracket]; decide, fun _ hmem => ?_⟩
    exact (ne_of_mem_take_angle hescape 0 hmem).1 rfl
  case isFalse => cases hescape

theorem parseChkdChars_eq_none_iff (chkdString : Text) :
    parseChkdChars 0 chkdString = none ↔ 0 ∈ chkdString := by
  induction chkdString using Tokens.induction_on_drop with
  | hnil => simp [parseChkdChars]
  | hcons character rest ih =>
      have hrest : parseChkdChars 0 rest = none ↔ 0 ∈ rest := ih 0
      by_cases hescape : ∃ escape, chkdEscape character rest = some escape ∧ escape.1 ≠ 0
      · obtain ⟨escape, hescape, hnul⟩ := hescape
        obtain ⟨hchar, htake⟩ := chkdEscape_spec hescape
        rw [parseChkdChars_escape hescape hnul, Option.map_eq_none_iff, ih,
          List.mem_cons, or_iff_right (Ne.symm hchar)]
        constructor
        · exact List.mem_of_mem_drop
        · intro hmem
          rw [← List.take_append_drop escape.2 rest, List.mem_append] at hmem
          exact hmem.resolve_left (htake hnul)
      · by_cases hchar : character = 0
        · rw [hchar, parseChkdChars]
          simp [chkdEscape]
        · rw [parseChkdChars_plain _ hchar, Option.map_eq_none_iff, hrest,
            List.mem_cons, or_iff_right (Ne.symm hchar)]
          intro escape heq
          by_contra hnul
          exact hescape ⟨escape, heq, hnul⟩

/-- A NUL stands in the string, or an escape in it denotes one. -/
def ContainsNul (chkdString : Text) : Prop := 0 ∈ chkdString ∨ .escape 0 ∈ chkdTokens chkdString

theorem mem_of_plain_mem_chkdTokens {character : UInt8}
    (hmem : .plain character ∈ chkdTokens chkdString) :
    character ∈ chkdString := by
  induction chkdString using Tokens.induction_on_drop with
  | hnil => cases hmem
  | hcons first rest ih =>
      cases hescape : chkdEscape first rest with
      | some escape =>
          rw [chkdTokens_escape hescape, List.mem_cons] at hmem
          rcases hmem with heq | hmem
          · cases heq
          · exact List.mem_cons_of_mem _ (List.mem_of_mem_drop (ih _ hmem))
      | none =>
          rw [chkdTokens_plain hescape, List.mem_cons] at hmem
          rcases hmem with heq | hmem
          · cases heq
            exact List.mem_cons_self
          · exact List.mem_cons_of_mem _ (ih 0 hmem)

theorem nul_not_mem_characters (hnul : ¬ ContainsNul chkdString) :
    0 ∉ (chkdTokens chkdString).map Token.character := by
  intro hmem
  obtain ⟨token, htoken, hzero⟩ := List.mem_map.mp hmem
  cases token with
  | escape character =>
      obtain rfl : character = 0 := hzero
      exact hnul (.inr htoken)
  | plain character =>
      obtain rfl : character = 0 := hzero
      exact hnul (.inl (mem_of_plain_mem_chkdTokens htoken))

theorem parseChkdStr_of_not_containsNul (hnul : ¬ ContainsNul chkdString) :
    parseChkdStr chkdString = (true, (chkdTokens chkdString).map Token.character) := by
  rw [parseChkdStr, parseChkdChars_eq_tokens (nul_not_mem_characters hnul)]

theorem parseChkdStr_eq_false_iff (chkdString : Text) :
    parseChkdStr chkdString = (false, []) ↔ 0 ∈ chkdString := by
  rw [← parseChkdChars_eq_none_iff, parseChkdStr]
  cases parseChkdChars 0 chkdString <;> simp

/-- What the header of `parseChkdStr` says about NULs. -/
def RejectsNul (chkdString : Text) : Prop :=
  (parseChkdStr chkdString = (false, []) ↔ ContainsNul chkdString) ∧ (¬ ContainsNul chkdString →
      (parseChkdStr chkdString).1 = true ∧ 0 ∉ (parseChkdStr chkdString).2)

/-- Only literal NULs are rejected, so the string must have one of them or no
escape that denotes NUL. -/
theorem rejectsNul_iff (chkdString : Text) : RejectsNul chkdString ↔
      0 ∈ chkdString ∨ .escape 0 ∉ chkdTokens chkdString := by
  constructor
  · rintro ⟨hreject, -⟩
    by_contra hnot
    rw [not_or, not_not] at hnot
    have hfalse := hreject.mpr (.inr hnot.2)
    exact hnot.1 ((parseChkdStr_eq_false_iff chkdString).mp hfalse)
  · intro hholds
    refine ⟨?_, fun hnul => ?_⟩
    · rw [parseChkdStr_eq_false_iff]
      constructor
      · exact .inl
      · rintro (hliteral | hescaped)
        · exact hliteral
        · exact hholds.resolve_right (not_not.mpr hescaped)
    · rw [parseChkdStr_of_not_containsNul hnul]
      exact ⟨rfl, nul_not_mem_characters hnul⟩

/-- The digit of an octal escape is kept, and so is the backslash. -/
theorem not_rejectsNul_octal :
    ¬ RejectsNul (ascii "\\0") ∧
      parseChkdStr (ascii "\\0") = (true, ascii "\\0") := by
  have hparse : parseChkdStr (ascii "\\0") = (true, ascii "\\0") := by decide
  refine ⟨fun hrejects => ?_, hparse⟩
  have hfalse := hrejects.1.mpr (.inr (by decide))
  rw [hparse] at hfalse
  cases hfalse

def Token.escaped? : Token → Option UInt8
  | .escape character => some character
  | .plain _ => none

def lastEscape (tokens : List Token) : Option UInt8 := (tokens.filterMap Token.escaped?).getLast?

/-- Every plain character is the character of the last escape in front of it,
and none is an angle bracket; `earlier` is an escape in front of all tokens. -/
def RepeatsEscapes (earlier : Option UInt8) (tokens : List Token) : Prop :=
  ∀ before character after, tokens = before ++ .plain character :: after →
    character ≠ 60 ∧ (lastEscape before).or earlier = some character

theorem repeatsEscapes_nil (earlier : Option UInt8) : RepeatsEscapes earlier [] := by
  intro before character after heq
  simp at heq

variable {tokens : List Token}

theorem repeatsEscapes_escape_cons {character : UInt8} :
    RepeatsEscapes earlier (.escape character :: tokens) ↔
      RepeatsEscapes (some character) tokens := by
  have hlast : ∀ before, (lastEscape (.escape character :: before)).or earlier =
      (lastEscape before).or (some character) := by
    intro before
    simp only [lastEscape, List.filterMap_cons, Token.escaped?, List.getLast?_cons]
    cases (before.filterMap Token.escaped?).getLast? <;> rfl
  constructor
  · intro hrepeats before plain after heq
    rw [← hlast before]
    exact hrepeats (.escape character :: before) plain after (by rw [heq]; rfl)
  · intro hrepeats before plain after heq
    cases before with
    | nil => cases heq
    | cons first before =>
        obtain ⟨rfl, htokens⟩ := List.cons.inj heq
        rw [hlast before]
        exact hrepeats before plain after htokens

theorem repeatsEscapes_plain_cons {character : UInt8} :
    RepeatsEscapes earlier (.plain character :: tokens) ↔
      character ≠ 60 ∧ earlier = some character ∧ RepeatsEscapes earlier tokens := by
  have hlast : ∀ before, lastEscape (.plain character :: before) = lastEscape before := fun _ => rfl
  constructor
  · intro hrepeats
    obtain ⟨hbracket, hearlier⟩ := hrepeats [] character tokens rfl
    refine ⟨hbracket, hearlier, fun before plain after heq => ?_⟩
    exact hrepeats (.plain character :: before) plain after (by rw [heq]; rfl)
  · rintro ⟨hbracket, hearlier, hrepeats⟩ before plain after heq
    cases before with
    | nil =>
        cases heq
        exact ⟨hbracket, hearlier⟩
    | cons first before =>
        obtain ⟨rfl, htokens⟩ := List.cons.inj heq
        exact hrepeats before plain after htokens

theorem parseChkdByteChars_eq_drop (escapedChar : UInt8) (skip : ℕ) (chkdString : Text) :
    parseChkdByteChars escapedChar skip chkdString =
      parseChkdByteChars escapedChar 0 (chkdString.drop skip) := by
  induction chkdString generalizing skip with
  | nil => simp [parseChkdByteChars]
  | cons character rest ih =>
      cases skip with
      | zero => rfl
      | succ skip => exact ih skip

/-- The byte parser gives the tokens exactly where they repeat escapes. -/
theorem parseChkdByteChars_eq_tokens_iff (hnul : 0 ∉ (chkdTokens chkdString).map Token.character)
    (earlier : Option UInt8) :
    parseChkdByteChars (earlier.getD 0) 0 chkdString = (chkdTokens chkdString).map Token.character ↔
      RepeatsEscapes earlier (chkdTokens chkdString) := by
  induction chkdString using Tokens.induction_on_drop generalizing earlier with
  | hnil => exact iff_of_true rfl (repeatsEscapes_nil earlier)
  | hcons character rest ih =>
      cases hescape : chkdEscape character rest with
      | some escape =>
          rw [chkdTokens_escape hescape, List.map_cons, List.mem_cons, not_or] at hnul
          have hrest := ih _ hnul.2 (some escape.1)
          rw [chkdTokens_escape hescape, repeatsEscapes_escape_cons, ← hrest,
            parseChkdByteChars, hescape, List.map_cons]
          simp [Token.character, parseChkdByteChars_eq_drop _ escape.2]
      | none =>
          rw [chkdTokens_plain hescape, List.map_cons, List.mem_cons, not_or] at hnul
          have hchar : character ≠ 0 := Ne.symm hnul.1
          have hrest : parseChkdByteChars (earlier.getD 0) 0 rest =
              (chkdTokens rest).map Token.character ↔
              RepeatsEscapes earlier (chkdTokens rest) := ih 0 hnul.2 earlier
          rw [chkdTokens_plain hescape, repeatsEscapes_plain_cons, ← hrest,
            parseChkdByteChars, hescape, List.map_cons]
          by_cases hbracket : character = 60
          · simp [hbracket, Token.character]
          · have hlast : earlier.getD 0 = character ↔ earlier = some character := by
              cases earlier with
              | none => simpa using Ne.symm hchar
              | some last => simp
            simp [hbracket, Token.character, hlast]

/-- Characters that are no backslashes stand for themselves. -/
theorem scan_escByte_of_not_slash {text : Text} (hslash : 92 ∉ text.take count) :
    Tokens.scan escByte 0 text = text.take count ++ Tokens.scan escByte 0 (text.drop count) := by
  induction text generalizing count with
  | nil => simp
  | cons character rest ih =>
      cases count with
      | zero => rfl
      | succ count =>
          rw [List.take_succ_cons, List.mem_cons, not_or] at hslash
          rw [Tokens.scan, escByte, if_neg (Ne.symm hslash.1)]
          exact congrArg _ (ih hslash.2)

/-- The backslash escapes of an editor string are those of a C-style string. -/
theorem nul_not_mem_parseEscBytes (hnul : ¬ ContainsNul chkdString) :
    0 ∉ parseEscBytes chkdString := by
  rw [parseEscBytes]
  induction chkdString using Tokens.induction_on_drop with
  | hnil => exact List.not_mem_nil
  | hcons character rest ih =>
      rw [ContainsNul, List.mem_cons, not_or, not_or] at hnul
      obtain ⟨⟨hchar, hliteral⟩, hescaped⟩ := hnul
      have hdrop : ∀ skip, 0 ∉ rest.drop skip := fun skip hmem =>
        hliteral (List.mem_of_mem_drop hmem)
      by_cases hslash : character = 92
      · have hescape : chkdEscape character rest = some (slashEscCodeChar rest) := if_pos hslash
        rw [chkdTokens_escape hescape, List.mem_cons, not_or] at hescaped
        rw [Tokens.scan, escByte, if_pos hslash, Tokens.scan_eq_drop, List.mem_cons, not_or]
        refine ⟨fun hzero => ?_, ih _ (not_or.mpr ⟨hdrop _, hescaped.2⟩)⟩
        rw [← hzero] at hescaped
        exact hescaped.1 rfl
      · rw [Tokens.scan, escByte, if_neg hslash, List.mem_cons, not_or]
        refine ⟨hchar, ?_⟩
        cases hescape : chkdEscape character rest with
        | none =>
            rw [chkdTokens_plain hescape, List.mem_cons, not_or] at hescaped
            exact ih 0 (not_or.mpr ⟨hliteral, hescaped.2⟩)
        | some escape =>
            -- The characters behind the bracket are read one by one.
            rw [chkdTokens_escape hescape, List.mem_cons, not_or] at hescaped
            rw [chkdEscape, if_neg hslash] at hescape
            split at hescape
            case isTrue =>
              have htake := ne_of_mem_take_angle hescape
              rw [scan_escByte_of_not_slash fun hmem => (htake 92 hmem).2 rfl,
                List.mem_append, not_or]
              exact ⟨fun hmem => (htake 0 hmem).1 rfl, ih _ (not_or.mpr ⟨hdrop _, hescaped.2⟩)⟩
            case isFalse => cases hescape

/-- The byte parsers give the bytes of what the string parsers give. -/
def ByteParsersAgree (text : Text) : Prop :=
  parseChkdBytes text = (parseChkdStr text).2 ∧ parseEscBytes text = parseEscStr text

/-- `parseEscBytes` always agrees; `parseChkdBytes` only where every plain
character repeats the last escape. -/
theorem byteParsersAgree_iff {text : Text} (hnul : ¬ ContainsNul text) :
    ByteParsersAgree text ↔ RepeatsEscapes none (chkdTokens text) := by
  have hesc : parseEscBytes text = parseEscStr text := by
    rw [parseEscStr, parseEscChars_eq_parseEscBytes (nul_not_mem_parseEscBytes hnul),
      Option.getD_some]
  rw [ByteParsersAgree, and_iff_left hesc, parseChkdStr_of_not_containsNul hnul,
    ← parseChkdByteChars_eq_tokens_iff (nul_not_mem_characters hnul)]
  rfl

/-- An escape and the same character behind it. -/
theorem byteParsersAgree_repeated :
    ¬ ContainsNul (ascii "<41>A") ∧
      (ByteParsersAgree (ascii "<41>A") ↔
        RepeatsEscapes none (chkdTokens (ascii "<41>A"))) := by
  have hnul : ¬ ContainsNul (ascii "<41>A") := by
    rw [ContainsNul]
    decide
  exact ⟨hnul, byteParsersAgree_iff hnul⟩

/-- A plain character becomes a NUL. -/
theorem not_byteParsersAgree_plain :
    ¬ ContainsNul (ascii "a") ∧ ¬ ByteParsersAgree (ascii "a") := by
  constructor
  · rw [ContainsNul]
    decide
  · rintro ⟨hchkd, -⟩
    exact absurd hchkd (by decide)

end Chkdraft.TextTrigs
