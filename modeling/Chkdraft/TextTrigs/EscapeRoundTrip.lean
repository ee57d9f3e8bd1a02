import Chkdraft.TextTrigs.EscapeStrings

/-!
# Escaped strings are read back

Every character is written as a piece that reads back as this character,
whatever stands behind it: the hexadecimal escapes always have two digits, and
the other ones are a single character behind the backslash.
-/

namespace Chkdraft.TextTrigs

open Scan

theorem oneCharHexVal_hexDigit {value : UInt8} (hvalue : value < 16) :
    oneCharHexVal (hexDigit value) = some value := by
  have hdigits : ∀ digit : Fin 16, oneCharHexVal (hexDigit (UInt8.ofNat digit)) =
        some (UInt8.ofNat digit) := by
    decide
  have hself : value = UInt8.ofNat value.toNat := by simp
  rw [hself]
  exact hdigits ⟨value.toNat, hvalue⟩

theorem div_sixteen_lt (character : UInt8) : character / 16 < 16 := by
  have hlt := character.toNat_lt
  rw [UInt8.lt_iff_toNat_lt]
  simp
  omega

theorem mod_sixteen_lt (character : UInt8) : character % 16 < 16 := by
  rw [UInt8.lt_iff_toNat_lt]
  simp
  omega

theorem div_add_mod_sixteen (character : UInt8) :
    character / 16 * 16 + character % 16 = character := by
  apply UInt8.toNat_inj.mp
  have hlt := character.toNat_lt
  simp
  omega

theorem slashEscCodeChar_hex (character : UInt8) (rest : Text) : slashEscCodeChar
        (120 :: hexDigit (character / 16) :: hexDigit (character % 16) ::
          rest) = (character, 3) := by
  simp [slashEscCodeChar, oneCharHexVal_hexDigit (div_sixteen_lt character),
    oneCharHexVal_hexDigit (mod_sixteen_lt character), div_add_mod_sixteen character]

/-- A character that is neither a digit nor the sign of hexadecimal digits. -/
theorem slashEscCodeChar_named {first : UInt8}
    (hfirst : first ≠ 88 ∧ first ≠ 120 ∧ oneCharOctVal first = none)
    (rest : Text) :
    slashEscCodeChar (first :: rest) = (namedEscape first, 1) := by
  obtain ⟨hupper, hlower, hoct⟩ := hfirst
  simp [slashEscCodeChar, hupper, hlower, hoct]

/-- A character is escaped by a letter, by two hexadecimal digits, or not at
all. -/
theorem escapeChar_cases (character : UInt8) : (∃ letter, escapeChar character = [92, letter] ∧
      (letter ≠ 88 ∧ letter ≠ 120 ∧ oneCharOctVal letter = none) ∧
      namedEscape letter = character) ∨
    escapeChar character = [92, 120, hexDigit (character / 16), hexDigit (character % 16)] ∨
    escapeChar character = [character] ∧ character ≠ 34 ∧ character ≠ 92 := by
  rw [escapeChar]
  split
  case isTrue hchar => exact .inl ⟨110, rfl, by decide, hchar.symm⟩
  split
  case isTrue hchar => exact .inl ⟨114, rfl, by decide, hchar.symm⟩
  split
  case isTrue hchar => exact .inl ⟨116, rfl, by decide, hchar.symm⟩
  split
  case isTrue hchar => exact .inl ⟨34, rfl, by decide, hchar.symm⟩
  split
  case isTrue hchar => exact .inl ⟨92, rfl, by decide, hchar.symm⟩
  split
  case isTrue => exact .inr (.inl rfl)
  case isFalse hquote hslash _ => exact .inr (.inr ⟨rfl, hquote, hslash⟩)

theorem escapeChar_readsAs (character : UInt8) :
    Tokens.ReadsAs escByte (escapeChar character) character := by
  rcases escapeChar_cases character with
    ⟨letter, heq, hletter, hname⟩ | heq | ⟨heq, -, hslash⟩
  · refine ⟨92, [letter], heq, fun rest => ?_⟩
    rw [escByte, if_pos rfl, List.singleton_append, slashEscCodeChar_named hletter, hname]
    rfl
  · refine ⟨92, _, heq, fun rest => ?_⟩
    exact slashEscCodeChar_hex character rest
  · refine ⟨character, [], heq, fun rest => ?_⟩
    rw [escByte, if_neg hslash]
    rfl

theorem parseEscChars_eq_drop (skip : ℕ) (escString : Text) :
    parseEscChars skip escString = parseEscChars 0 (escString.drop skip) := by
  induction escString generalizing skip with
  | nil => simp [parseEscChars]
  | cons character rest ih =>
      cases skip with
      | zero => rfl
      | succ skip => exact ih skip

/-- Without NULs the string parser reads what the byte parser reads. -/
theorem parseEscChars_eq_parseEscBytes {escString : Text} (hnul : 0 ∉ parseEscBytes escString) :
    parseEscChars 0 escString = some (parseEscBytes escString) := by
  induction escString using Tokens.induction_on_drop with
  | hnil => rfl
  | hcons character rest ih =>
      rw [parseEscBytes, Tokens.scan, Tokens.scan_eq_drop, List.mem_cons, not_or] at hnul
      rw [parseEscBytes, Tokens.scan, Tokens.scan_eq_drop]
      have hrest := ih _ hnul.2
      by_cases hslash : character = 92
      · simp only [escByte, if_pos hslash] at hnul hrest ⊢
        rw [parseEscChars, if_pos ⟨hslash, Ne.symm hnul.1⟩, parseEscChars_eq_drop, hrest]
        rfl
      · simp only [escByte, if_neg hslash] at hnul hrest ⊢
        rw [parseEscChars, if_neg fun hescape => hslash hescape.1, if_neg (Ne.symm hnul.1)]
        exact congrArg _ hrest

theorem parseEscBytes_of_makeEscStr (rawString : Text) :
    parseEscBytes (makeEscStr rawString) = rawString := by
  have hscan := @Tokens.scan_flatMap _ _ escByte _ escapeChar id rawString
    fun character _ => escapeChar_readsAs character
  rwa [List.map_id] at hscan

theorem parseEscChars_of_makeEscStr {rawString : Text} (hnul : 0 ∉ rawString) :
    parseEscChars 0 (makeEscStr rawString) = some rawString := by
  have hbytes := parseEscBytes_of_makeEscStr rawString
  rw [parseEscChars_eq_parseEscBytes (by rwa [hbytes]), hbytes]

/-- Escaped strings are read back: as strings if they hold no NUL, as bytes
always. -/
theorem parse_makeEscStr (rawString : Text) :
    (0 ∉ rawString → parseEscChars 0 (makeEscStr rawString) = some rawString) ∧
      parseEscBytes (makeEscStr rawString) = rawString :=
  ⟨parseEscChars_of_makeEscStr, parseEscBytes_of_makeEscStr rawString⟩

/-- A control character in front of a digit, a quote and a backslash. -/
theorem parse_makeEscStr_digit_behind_control : 0 ∉ [7, 49, 34, 92] ∧
      parseEscChars 0 (makeEscStr [7, 49, 34, 92]) = some [7, 49, 34, 92] :=
  ⟨by decide, (parse_makeEscStr [7, 49, 34, 92]).1 (by decide)⟩

end Chkdraft.TextTrigs
