import Chkdraft.Core.Scan
import Chkdraft.Core.Tokens

/-!
# C-style escaping of strings

Strings are printed in trigger text with backslash escapes and read back by
`parseEscStr`.  The reader never produces a NUL: an escape that denotes one
leaves its backslash in the output, and a literal NUL makes it fail with an
empty output.
-/

namespace Chkdraft.TextTrigs

open Scan

def hexDigit (value : UInt8) : UInt8 :=
  if 9 < value then value + 65 - 10 else value + 48

/-- What `makeEscStr` writes for one character. -/
def escapeChar (character : UInt8) : Text :=
  if character = 10 then ascii "\\n"
  else if character = 13 then ascii "\\r"
  else if character = 9 then ascii "\\t"
  else if character = 34 then ascii "\\\""
  else if character = 92 then ascii "\\\\"
  else if character < 32 ∨ character = 127 then
    [92, 120, hexDigit (character / 16), hexDigit (character % 16)]
  else [character]

def makeEscStr (rawString : Text) : Text := rawString.flatMap escapeChar

/-- `getOneCharHexVal`. -/
def oneCharHexVal (character : UInt8) : Option UInt8 := (digitValue 16 character).map UInt8.ofNat

/-- `getOneCharOctVal`. -/
def oneCharOctVal (character : UInt8) : Option UInt8 := (digitValue 8 character).map UInt8.ofNat

/-- The characters that have a letter of their own after a backslash. -/
def namedEscape (character : UInt8) : UInt8 :=
  if character = 97 then 7
  else if character = 98 then 8
  else if character = 102 then 12
  else if character = 110 then 10
  else if character = 114 then 13
  else if character = 116 then 9
  else if character = 118 then 11
  else character

/-- `getSlashEscCodeChar` on the characters behind a backslash: the character
it denotes and how many characters behind the backslash belong to it. -/
def slashEscCodeChar (rest : Text) : UInt8 × ℕ :=
  match rest with
  | [] => (92, 0)
  | first :: tail =>
      if first = 88 ∨ first = 120 then
        match tail.map oneCharHexVal with
        | some high :: some low :: _ => (high * 16 + low, 3)
        | some digit :: _ => (digit, 2)
        | _ => (first, 1)
      else
        match oneCharOctVal first with
        | some high =>
            match tail.map oneCharOctVal with
            | some middle :: some low :: _ =>
                (high * 64 + middle * 8 + low, 3)
            | some low :: _ => (high * 8 + low, 2)
            | _ => (high, 1)
        | none => (namedEscape first, 1)

/-- The loop of `parseEscStr`; the first argument counts the characters that
still belong to the last escape. -/
def parseEscChars : ℕ → Text → Option Text
  | _, [] => some []
  | skip + 1, _ :: rest => parseEscChars skip rest
  | 0, character :: rest =>
      let escape := slashEscCodeChar rest
      if character = 92 ∧ escape.1 ≠ 0 then
        (parseEscChars escape.2 rest).map (escape.1 :: ·)
      else if character = 0 then none
      else (parseEscChars 0 rest).map (character :: ·)

/-- `convertStr` from an escaped to a raw string: a failed `parseEscStr` leaves
its output empty. -/
def parseEscStr (escString : Text) : Text := (parseEscChars 0 escString).getD []

/-- What a pass of `parseEscBytes` pushes, and how many characters it skips;
here an escape may denote NUL. -/
def escByte (character : UInt8) (rest : Text) : UInt8 × ℕ :=
  if character = 92 then slashEscCodeChar rest else (character, 0)

def parseEscBytes (escString : Text) : List UInt8 := Tokens.scan escByte 0 escString

example : parseEscStr (makeEscStr (ascii "a\n\"b\\")) = ascii "a\n\"b\\" := by
  decide

theorem nul_not_mem_parseEscChars {skip : ℕ} {escString rawString : Text}
    (hparse : parseEscChars skip escString = some rawString) :
    0 ∉ rawString := by
  induction escString generalizing skip rawString with
  | nil =>
      have hempty : rawString = [] := by simpa [parseEscChars] using hparse.symm
      simp [hempty]
  | cons character rest ih =>
      cases skip with
      | succ skip => exact ih hparse
      | zero =>
          simp only [parseEscChars] at hparse
          split at hparse
          · rename_i hescape
            obtain ⟨tail, htail, rfl⟩ := Option.map_eq_some_iff.mp hparse
            exact List.mem_cons.not.mpr (not_or.mpr ⟨Ne.symm hescape.2, ih htail⟩)
          · split at hparse
            · cases hparse
            · rename_i hchar
              obtain ⟨tail, htail, rfl⟩ := Option.map_eq_some_iff.mp hparse
              exact List.mem_cons.not.mpr (not_or.mpr ⟨Ne.symm hchar, ih htail⟩)

theorem nul_not_mem_parseEscStr (escString : Text) : 0 ∉ parseEscStr escString := by
  cases hparse : parseEscChars 0 escString with
  | none => simp [parseEscStr, hparse]
  | some rawString =>
      simpa [parseEscStr, hparse] using nul_not_mem_parseEscChars hparse

end Chkdraft.TextTrigs
