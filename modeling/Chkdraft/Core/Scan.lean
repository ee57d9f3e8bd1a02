import Mathlib.Data.List.GetD
import Mathlib.Data.List.TakeWhile
import Mathlib.Data.UInt

/-!
# Character positions and C numerals

Texts are byte strings that are scanned by position.  The accessor reads a NUL
one past the last character, as `std::string::operator[]` does.  Numerals follow
`strtol`: leading white space, one sign, an optional hexadecimal prefix and as
many digits as there are.
-/

namespace Scan

variable {found pos : ℕ} {character : UInt8}

abbrev Text := List UInt8

def ascii (literal : String) : Text := literal.toList.map Char.toUInt8

/-- The character at a position; behind the text it is a NUL. -/
def charAt (text : Text) (pos : ℕ) : UInt8 := text.getD pos 0

variable {text : Text}

theorem charAt_append_of_lt {rest : Text} (hlt : pos < text.length) :
    charAt (text ++ rest) pos = charAt text pos :=
  List.getD_append _ _ _ _ hlt

theorem charAt_append_of_le {rest : Text} (hle : text.length ≤ pos) :
    charAt (text ++ rest) pos = charAt rest (pos - text.length) :=
  List.getD_append_right _ _ _ _ hle

/-- The first position at or behind `pos` that holds `character`. -/
def find (text : Text) (character : UInt8) (pos : ℕ) : Option ℕ :=
  ((text.drop pos).findIdx? (· == character)).map (· + pos)

/-- The characters in `[first, last)`. -/
def slice (text : Text) (first last : ℕ) : Text := (text.drop first).take (last - first)

/-- `text` continues with `name` at `pos`. -/
def continuesWith (text : Text) (pos : ℕ) (name : String) : Bool :=
  (ascii name).isPrefixOf (text.drop pos)

def untilNul (text : Text) : Text := text.takeWhile (· ≠ 0)

@[simp]
theorem untilNul_untilNul (text : Text) : untilNul (untilNul text) = untilNul text :=
  List.takeWhile_idem

theorem untilNul_of_nul_not_mem (hnul : 0 ∉ text) : untilNul text = text := by
  apply List.takeWhile_eq_self_iff.mpr
  intro character hmem
  rw [decide_eq_true_eq]
  rintro rfl
  exact hnul hmem

/-- The bytes as they are stored, if each of them is a character. -/
def asciiBytes (literal : String) : Text :=
  if literal.toByteArray.data.toList.all (· < 128) then
    literal.toByteArray.data.toList
  else
    ascii literal

theorem utf8EncodeChar_of_lt {character : Char}
    (hall : ∀ byte ∈ String.utf8EncodeChar character, byte < 128) :
    String.utf8EncodeChar character = [character.toUInt8] := by
  have hfirst {value : ℕ} {bytes : List UInt8} (hlow : 128 ≤ value) (hhigh : value < 256)
      (hbytes : ∀ byte ∈ UInt8.ofNat value :: bytes, byte < 128) : False := by
    have hbyte := UInt8.lt_iff_toNat_lt.mp (hbytes _ List.mem_cons_self)
    rw [UInt8.toNat_ofNat_of_lt' hhigh] at hbyte
    exact absurd hbyte (Nat.not_lt.mpr hlow)
  simp only [String.utf8EncodeChar] at hall ⊢
  split_ifs at hall ⊢
  · rfl
  · exact (hfirst (by omega) (by omega) hall).elim
  · exact (hfirst (by omega) (by omega) hall).elim
  · exact (hfirst (by omega) (by omega) hall).elim

theorem flatMap_utf8EncodeChar {characters : List Char}
    (hall : ∀ byte ∈ characters.flatMap String.utf8EncodeChar, byte < 128) :
    characters.flatMap String.utf8EncodeChar = characters.map Char.toUInt8 := by
  induction characters with
  | nil => rfl
  | cons character rest ih =>
      rw [List.flatMap_cons, List.forall_mem_append] at hall
      rw [List.flatMap_cons, utf8EncodeChar_of_lt hall.1, ih hall.2]
      rfl

theorem ascii_eq_asciiBytes : ascii = asciiBytes := by
  funext literal
  rw [asciiBytes]
  split
  · rename_i hall
    rw [List.all_eq_true] at hall
    rw [← String.utf8Encode_toList, List.utf8Encode, List.data_toByteArray] at hall ⊢
    exact (flatMap_utf8EncodeChar fun byte hbyte =>
      of_decide_eq_true (hall byte hbyte)).symm
  · rfl

def upperCase (character : UInt8) : UInt8 :=
  if 97 ≤ character ∧ character ≤ 122 then character - 32 else character

/-- An upper-case copy without blanks and tabs. -/
def upperNoBlanks (text : Text) : Text :=
  (text.filter fun character => character ≠ 32 ∧ character ≠ 9).map upperCase

def upperNoSpace (text : Text) : Text := (text.filter fun character => character ≠ 32).map upperCase

/-- `isspace` in the C locale. -/
def isSpace (character : UInt8) : Bool := character = 32 ∨ (9 ≤ character ∧ character ≤ 13)

def digitValue (base : ℕ) (character : UInt8) : Option ℕ :=
  let value :=
    if 48 ≤ character ∧ character ≤ 57 then some (character.toNat - 48)
    else if 65 ≤ character ∧ character ≤ 90 then some (character.toNat - 55)
    else if 97 ≤ character ∧ character ≤ 122 then some (character.toNat - 87)
    else none
  value.filter (· < base)

def leadingDigits (base : ℕ) : Text → List ℕ
  | [] => []
  | character :: rest =>
      match digitValue base character with
      | some digit => digit :: leadingDigits base rest
      | none => []

/-- The sign in front of a numeral and what follows it. -/
def splitSign (text : Text) : Bool × Text :=
  match text with
  | 45 :: rest => (true, rest)
  | 43 :: rest => (false, rest)
  | _ => (false, text)

/-- A hexadecimal prefix counts only in front of a digit. -/
def dropHexPrefix (text : Text) : Text :=
  match text with
  | 48 :: letter :: digit :: rest =>
      if (letter = 120 ∨ letter = 88) ∧ digitValue 16 digit ≠ none then
        digit :: rest
      else
        text
  | _ => text

/-- `strtol` and its relatives on a C string, before any conversion to a
machine integer; `none` when there is no digit. -/
def numeral (base : ℕ) (text : Text) : Option ℤ :=
  let (negative, body) := splitSign ((untilNul text).dropWhile isSpace)
  let digits := leadingDigits base (if base = 16 then dropHexPrefix body else body)
  if digits = [] then none
  else
    let value : ℤ := (digits.foldl (fun sum digit => sum * base + digit) 0 : ℕ)
    some (if negative then -value else value)

/-- `atoi` where the value fits. -/
def decimal (text : Text) : ℤ := (numeral 10 text).getD 0

/-- Whether `atoi` comes to a character that ends the numeral before the text
does. -/
def numeralEndsInside (text : Text) : Bool :=
  let body := (splitSign (text.dropWhile isSpace)).2
  (leadingDigits 10 body).length < body.length

example : numeral 10 (ascii " -42x") = some (-42) := by decide
example : numeral 16 (ascii "0x1F,") = some 31 := by decide

theorem charAt_eq_getElem (hlt : pos < text.length) : charAt text pos = text[pos] := by
  rw [charAt, List.getD_eq_getElem _ _ hlt]

theorem find_eq_some_iff : find text character pos = some found ↔
      pos ≤ found ∧ found < text.length ∧ charAt text found = character ∧
        ∀ index, pos ≤ index → index < found → charAt text index ≠ character := by
  rw [find, Option.map_eq_some_iff]
  simp only [List.findIdx?_eq_some_iff_getElem, List.getElem_drop, beq_iff_eq, List.length_drop]
  constructor
  · rintro ⟨offset, ⟨hlt, hchar, hbefore⟩, rfl⟩
    refine ⟨Nat.le_add_left _ _, by omega, ?_, fun index hle hindex => ?_⟩
    · rw [charAt_eq_getElem (by omega)]
      simpa only [Nat.add_comm] using hchar
    · obtain ⟨inner, rfl⟩ := Nat.exists_eq_add_of_le hle
      rw [charAt_eq_getElem (by omega)]
      exact hbefore inner (by omega)
  · rintro ⟨hle, hlt, hchar, hbefore⟩
    obtain ⟨offset, rfl⟩ := Nat.exists_eq_add_of_le hle
    refine ⟨offset, ⟨by omega, ?_, fun inner hinner => ?_⟩, Nat.add_comm _ _⟩
    · rwa [← charAt_eq_getElem]
    · rw [← charAt_eq_getElem]
      exact hbefore (pos + inner) (by omega) (by omega)

theorem find_eq_none_iff : find text character pos = none ↔
      ∀ index, pos ≤ index → index < text.length → charAt text index ≠ character := by
  rw [find, Option.map_eq_none_iff, List.findIdx?_eq_none_iff_findIdx_eq, List.findIdx_eq_length]
  constructor
  · intro hall index hle hlt heq
    rw [charAt_eq_getElem hlt] at heq
    have hmem : text[index] ∈ text.drop pos := by
      rw [List.mem_drop_iff_getElem]
      exact ⟨index - pos, by omega, by simp [Nat.add_sub_of_le hle]⟩
    simpa [heq] using hall _ hmem
  · intro hall current hmem
    rw [List.mem_drop_iff_getElem] at hmem
    obtain ⟨offset, hlt, rfl⟩ := hmem
    have hne := hall (pos + offset) (by omega) (by omega)
    rw [charAt_eq_getElem (by omega)] at hne
    simpa using hne

theorem find_spec (hfind : find text character pos = some found) :
    pos ≤ found ∧ found < text.length ∧ charAt text found = character := by
  obtain ⟨hle, hlt, hchar, -⟩ := find_eq_some_iff.mp hfind
  exact ⟨hle, hlt, hchar⟩

/-- A search that starts between the start of another one and what that one has
found finds the same. -/
theorem find_eq_some_of_le {start : ℕ}
    (hfind : find text character start = some found) (hle : start ≤ pos)
    (hpos : pos ≤ found) : find text character pos = some found := by
  obtain ⟨-, hlt, hchar, hbefore⟩ := find_eq_some_iff.mp hfind
  exact find_eq_some_iff.mpr ⟨hpos, hlt, hchar, fun index hindex =>
    hbefore index (hle.trans hindex)⟩

theorem find_eq_none_of_le {start : ℕ}
    (hfind : find text character start = none) (hle : start ≤ pos) :
    find text character pos = none :=
  find_eq_none_iff.mpr fun index hindex =>
    find_eq_none_iff.mp hfind index (hle.trans hindex)

theorem charAt_lt_of_ne_zero (hchar : charAt text pos ≠ 0) : pos < text.length := by
  by_contra hle
  rw [charAt, List.getD_eq_default _ _ (by omega)] at hchar
  exact hchar rfl

end Scan
