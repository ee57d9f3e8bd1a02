import Chkdraft.Core.Digits
import Chkdraft.TextTrigs.Arguments

/-!
# Numbers in trigger text

The number parsers copy at most a few characters and leave the rest to the C
library, which stops at the first character that is no digit and knows nothing
of the width of the destination.  So they also take a number with something
behind it, and one that does not fit is cut off.  A result of 0 counts as a
failure, unless it is a single digit or hexadecimal.
-/

namespace Chkdraft.TextTrigs

open Scan

variable {numeral rest : Text} {limit width : ℕ}

/-- What stands behind `0x`. -/
def hexPart (numeral : Text) : Option Text :=
  match numeral with
  | 48 :: letter :: rest =>
      if letter = 120 ∨ letter = 88 then some rest else none
  | _ => none

theorem hexPart_cons_cons (first letter : UInt8) (rest : Text) : hexPart (first :: letter :: rest) =
      if first = 48 ∧ (letter = 120 ∨ letter = 88) then some rest
      else none := by
  by_cases hfirst : first = 48
  · simp [hexPart, hfirst]
  · simp [hexPart, hfirst]

/-- A decimal numeral, or a hexadecimal one behind `0x`, and its value. -/
inductive Denotes (numeral : Text) : ℕ → Prop where
  | decimal (hne : numeral ≠ []) (hdigits : AllDigits 10 numeral) :
      Denotes numeral (digitsValue 10 numeral)
  | hex {rest : Text} (hrest : hexPart numeral = some rest) (hne : rest ≠ [])
      (hdigits : AllDigits 16 rest) : Denotes numeral (digitsValue 16 rest)

theorem hexPart_of_digits (hdigits : AllDigits 10 numeral) : hexPart numeral = none := by
  unfold hexPart
  split
  case h_1 letter rest =>
    rw [if_neg]
    rintro (rfl | rfl)
    · exact absurd (hdigits 120 (by simp)) (by decide)
    · exact absurd (hdigits 88 (by simp)) (by decide)
  case h_2 => rfl

theorem denotes_decimal_iff (hne : numeral ≠ []) (hdigits : AllDigits 10 numeral) (value : ℕ) :
    Denotes numeral value ↔ value = digitsValue 10 numeral := by
  constructor
  · intro hdenotes
    cases hdenotes with
    | decimal => rfl
    | hex hrest =>
        rw [hexPart_of_digits hdigits] at hrest
        cases hrest
  · rintro rfl
    exact .decimal hne hdigits

theorem denotes_hex_iff (hrest : hexPart numeral = some rest)
    (hne : rest ≠ []) (hdigits : AllDigits 16 rest) (value : ℕ) :
    Denotes numeral value ↔ value = digitsValue 16 rest := by
  constructor
  · intro hdenotes
    cases hdenotes with
    | decimal _ hdecimal =>
        rw [hexPart_of_digits hdecimal] at hrest
        cases hrest
    | hex hother =>
        rw [hrest] at hother
        cases hother
        rfl
  · rintro rfl
    exact .hex hrest hne hdigits

/-- `parseLong`, `parseShort` and `parseByte` on the characters of a slice. -/
def parseSlice (limit width : ℕ) (numeral : Text) : Option ℕ :=
  if numeral.length < limit then
    if numeral = [48] then
      some 0
    else
      match hexPart numeral with
      | some (digit :: rest) =>
          (Scan.numeral 16 (digit :: rest)).map (truncated width)
      | _ =>
          if truncated width (decimal numeral) = 0 then none
          else some (truncated width (decimal numeral))
  else
    none

theorem slice_append (before numeral after : Text) :
    slice (before ++ numeral ++ after) before.length
      (before.length + numeral.length) = numeral := by
  rw [slice, List.append_assoc, List.drop_left, Nat.add_sub_cancel_left, List.take_left]

theorem parseNumber_eq_parseSlice (limit width : ℕ) (before numeral after : Text) :
    parseNumber limit width (before ++ numeral ++ after) before.length
      (before.length + numeral.length) = parseSlice limit width numeral := by
  have hslice := slice_append before numeral after
  have hchar : ∀ index, charAt (before ++ numeral ++ after)
      (before.length + index) = charAt (numeral ++ after) index := by
    intro index
    rw [List.append_assoc, charAt_append_of_le (by omega), Nat.add_sub_cancel_left]
  have hrest : slice (before ++ numeral ++ after) (before.length + 2)
      (before.length + numeral.length) = numeral.drop 2 := by
    rw [slice, List.append_assoc, List.drop_length_add_append,
      Nat.add_sub_add_left, ← List.drop_take, List.take_left]
  have hfirst : charAt (before ++ numeral ++ after) before.length =
      charAt (numeral ++ after) 0 := hchar 0
  simp only [parseNumber, hslice, hrest, hfirst, hchar 1,
    Nat.add_sub_cancel_left, Nat.le_add_right, true_and, parseSlice]
  by_cases hlength : numeral.length < limit
  · rw [if_pos hlength, if_pos hlength]
    rcases numeral with _ | ⟨first, _ | ⟨letter, _ | ⟨digit, rest⟩⟩⟩
    · simp [hexPart]
    · by_cases hzero : first = 48 <;> simp [charAt, hexPart, hzero]
    · rw [hexPart_cons_cons]
      by_cases hmark : first = 48 ∧ (letter = 120 ∨ letter = 88)
      · simp [hmark]
      · simp [hmark]
    · rw [hexPart_cons_cons]
      by_cases hmark : first = 48 ∧ (letter = 120 ∨ letter = 88)
      · simp [charAt, hmark]
      · simp [charAt, hmark]
  · rw [if_neg hlength, if_neg hlength]

theorem truncated_lt (width : ℕ) (value : ℤ) : truncated width value < 2 ^ width := by
  have hpos : (0 : ℤ) < 2 ^ width := by positivity
  have hnonneg := Int.emod_nonneg value hpos.ne'
  have hlt := Int.emod_lt_of_pos value hpos
  rw [truncated]
  zify
  rwa [Int.toNat_of_nonneg hnonneg]

theorem truncated_natCast (width value : ℕ) : truncated width (value : ℤ) = value % 2 ^ width := by
  rw [truncated]
  norm_cast

theorem truncated_eq_zero_iff (width : ℕ) (value : ℤ) :
    truncated width value = 0 ↔ (2 : ℤ) ^ width ∣ value := by
  have hpos : (0 : ℤ) < 2 ^ width := by positivity
  have hnonneg := Int.emod_nonneg value hpos.ne'
  rw [truncated, Int.toNat_eq_zero, Int.dvd_iff_emod_eq_zero]
  omega

theorem parseSlice_lt {value : ℕ} (hparse : parseSlice limit width numeral = some value) :
    value < 2 ^ width := by
  rw [parseSlice] at hparse
  split at hparse
  case isFalse => cases hparse
  split at hparse
  case isTrue =>
    cases hparse
    positivity
  split at hparse
  · obtain ⟨read, -, rfl⟩ := Option.map_eq_some_iff.mp hparse
    exact truncated_lt _ _
  · split at hparse
    · cases hparse
    · cases hparse
      exact truncated_lt _ _

/-- A result is the value of a numeral that fits the width, and there is one
for every such numeral. -/
def ReadsNumber (width : ℕ) (numeral : Text) (result : Option ℕ) : Prop :=
  ∀ value, result = some value ↔ Denotes numeral value ∧ value < 2 ^ width

/-- The C library finds no number but multiples of `2 ^ width` at the beginning
of a text, and no digit at all behind `0x`. -/
def StartsWithoutNumber (width : ℕ) (numeral : Text) : Prop :=
  match hexPart numeral with
  | some (digit :: rest) => Scan.numeral 16 (digit :: rest) = none
  | _ => (2 : ℤ) ^ width ∣ decimal numeral

/-- Numerals that fit are short and no zeros of several digits; those that do
not fit are too long for the parser or vanish when they are cut off; other texts
are too long or start without a number. -/
structure NumberCondition (limit width : ℕ) (numeral : Text) : Prop where
  fits : ∀ value, Denotes numeral value → value < 2 ^ width →
    numeral.length < limit ∧ (AllDigits 10 numeral → value = 0 → numeral.length = 1)
  exceeds : ∀ value, Denotes numeral value → 2 ^ width ≤ value →
    limit ≤ numeral.length ∨ AllDigits 10 numeral ∧ 2 ^ width ∣ value
  other : (∀ value, ¬ Denotes numeral value) →
    limit ≤ numeral.length ∨ StartsWithoutNumber width numeral

theorem parseSlice_of_le (hle : limit ≤ numeral.length) :
    parseSlice limit width numeral = none := by
  rw [parseSlice, if_neg (Nat.not_lt.mpr hle)]

theorem parseSlice_decimal (hlt : numeral.length < limit) (hne : numeral ≠ [])
    (hdigits : AllDigits 10 numeral) :
    parseSlice limit width numeral =
      if numeral = [48] then some 0
      else if 2 ^ width ∣ digitsValue 10 numeral then none
      else some (digitsValue 10 numeral % 2 ^ width) := by
  have hvalue : decimal numeral = digitsValue 10 numeral := by
    rw [decimal, numeral_of_digits hdigits hne, Option.getD_some]
  rw [parseSlice, if_pos hlt, hexPart_of_digits hdigits, hvalue, truncated_natCast]
  simp only [Nat.dvd_iff_mod_eq_zero]

theorem parseSlice_hex (hlt : numeral.length < limit)
    (hrest : hexPart numeral = some rest) (hne : rest ≠ [])
    (hdigits : AllDigits 16 rest) :
    parseSlice limit width numeral = some (digitsValue 16 rest % 2 ^ width) := by
  have hzero : numeral ≠ [48] := by
    rintro rfl
    cases hrest
  cases rest with
  | nil => exact absurd rfl hne
  | cons digit rest =>
      rw [parseSlice, if_pos hlt, if_neg hzero, hrest]
      simp only [numeral_of_digits hdigits hne, Option.map_some, truncated_natCast]

/-- Other texts are rejected when no number stands at their beginning. -/
theorem parseSlice_eq_none_iff (hlt : numeral.length < limit)
    (hother : ∀ value, ¬ Denotes numeral value) :
    parseSlice limit width numeral = none ↔ StartsWithoutNumber width numeral := by
  have hzero : numeral ≠ [48] := by
    rintro rfl
    exact hother _ (.decimal (by decide) (by decide))
  rw [parseSlice, if_pos hlt, if_neg hzero, StartsWithoutNumber]
  split
  · rw [Option.map_eq_none_iff]
  · rw [← truncated_eq_zero_iff]
    simp

section Condition

variable {limit width : ℕ} {numeral : Text}

/-- Texts that are too long must be no numerals that fit. -/
theorem readsNumber_of_le (hle : limit ≤ numeral.length) :
    ReadsNumber width numeral (parseSlice limit width numeral) ↔
      NumberCondition limit width numeral := by
  rw [parseSlice_of_le hle]
  constructor
  · intro hreads
    refine ⟨fun value hdenotes hlt => ?_, fun _ _ _ => .inl hle, fun _ => .inl hle⟩
    cases (hreads value).mpr ⟨hdenotes, hlt⟩
  · intro hcondition value
    refine iff_of_false (by simp) ?_
    rintro ⟨hdenotes, hlt⟩
    have hshort := (hcondition.fits value hdenotes hlt).1
    omega

theorem readsNumber_decimal (hshort : numeral.length < limit)
    (hne : numeral ≠ []) (hdigits : AllDigits 10 numeral) :
    ReadsNumber width numeral (parseSlice limit width numeral) ↔
      NumberCondition limit width numeral := by
  have hpos : 0 < 2 ^ width := by positivity
  have hdenotes := denotes_decimal_iff hne hdigits
  rw [parseSlice_decimal hshort hne hdigits]
  constructor
  · intro hreads
    constructor
    · intro value hvalue hlt
      refine ⟨hshort, fun _ hzero => ?_⟩
      have hread := (hreads value).mpr ⟨hvalue, hlt⟩
      rw [hdenotes] at hvalue
      split at hread
      case isTrue hsingle => simp [hsingle]
      rw [if_pos (by rw [← hvalue, hzero]; exact Nat.dvd_zero _)] at hread
      cases hread
    · intro value hvalue hle
      rw [hdenotes] at hvalue
      refine .inr ⟨hdigits, ?_⟩
      by_contra hdvd
      have hsingle : numeral ≠ [48] := by
        rintro rfl
        have hzero : digitsValue 10 [48] = 0 := by decide
        omega
      have hread := (hreads (value % 2 ^ width)).mp
        (by rw [if_neg hsingle, if_neg (hvalue ▸ hdvd), hvalue])
      have hsame := (hdenotes _).mp hread.1
      have hless := hread.2
      omega
    · exact fun hother => absurd (.decimal hne hdigits) (hother _)
  · intro hcondition value
    rw [hdenotes]
    by_cases hsingle : numeral = [48]
    · rw [if_pos hsingle, hsingle]
      have hzero : digitsValue 10 [48] = 0 := by decide
      rw [hzero]
      constructor
      · intro heq
        cases heq
        exact ⟨rfl, hpos⟩
      · rintro ⟨rfl, -⟩
        rfl
    · rw [if_neg hsingle]
      by_cases hlt : digitsValue 10 numeral < 2 ^ width
      · have hnonzero : digitsValue 10 numeral ≠ 0 := by
          intro hzero
          have hlength := (hcondition.fits _ ((hdenotes _).mpr rfl) hlt).2 hdigits hzero
          exact hsingle (eq_of_digitsValue_eq_zero (by decide) hdigits hlength hzero)
        rw [if_neg (Nat.not_dvd_of_pos_of_lt (Nat.pos_of_ne_zero hnonzero) hlt),
          Nat.mod_eq_of_lt hlt, Option.some.injEq]
        constructor
        · rintro rfl
          exact ⟨rfl, hlt⟩
        · exact fun heq => heq.1.symm
      · have hdvd := (hcondition.exceeds _ ((hdenotes _).mpr rfl)
          (Nat.le_of_not_lt hlt)).resolve_left (Nat.not_le.mpr hshort)
        rw [if_pos hdvd.2]
        refine iff_of_false (by simp) ?_
        rintro ⟨rfl, hless⟩
        exact hlt hless

theorem readsNumber_hex (hshort : numeral.length < limit)
    (hrest : hexPart numeral = some rest) (hne : rest ≠ [])
    (hdigits : AllDigits 16 rest) :
    ReadsNumber width numeral (parseSlice limit width numeral) ↔
      NumberCondition limit width numeral := by
  have hpos : 0 < 2 ^ width := by positivity
  have hdenotes := denotes_hex_iff hrest hne hdigits
  have hdecimal : ¬ AllDigits 10 numeral := by
    intro hall
    rw [hexPart_of_digits hall] at hrest
    cases hrest
  rw [parseSlice_hex hshort hrest hne hdigits]
  constructor
  · intro hreads
    have hlt : digitsValue 16 rest < 2 ^ width := by
      have hread := (hreads _).mp rfl
      rw [← (hdenotes _).mp hread.1]
      exact hread.2
    refine ⟨fun _ _ _ => ⟨hshort, fun hall => absurd hall hdecimal⟩,
      fun value hvalue hle => ?_, fun hother => absurd (.hex hrest hne hdigits) (hother _)⟩
    rw [hdenotes] at hvalue
    omega
  · intro hcondition value
    have hlt : digitsValue 16 rest < 2 ^ width := by
      by_contra hle
      rcases hcondition.exceeds _ ((hdenotes _).mpr rfl)
        (Nat.le_of_not_lt hle) with hlong | ⟨hall, -⟩
      · omega
      · exact hdecimal hall
    rw [hdenotes, Nat.mod_eq_of_lt hlt, Option.some.injEq]
    constructor
    · rintro rfl
      exact ⟨rfl, hlt⟩
    · exact fun heq => heq.1.symm

theorem readsNumber_other (hshort : numeral.length < limit)
    (hother : ∀ value, ¬ Denotes numeral value) :
    ReadsNumber width numeral (parseSlice limit width numeral) ↔
      NumberCondition limit width numeral := by
  constructor
  · intro hreads
    refine ⟨fun value hvalue => absurd hvalue (hother value),
      fun value hvalue => absurd hvalue (hother value), fun _ => .inr ?_⟩
    rw [← parseSlice_eq_none_iff hshort hother]
    cases hparse : parseSlice limit width numeral with
    | none => rfl
    | some value => exact absurd ((hreads value).mp hparse).1 (hother value)
  · intro hcondition value
    have hnone := (parseSlice_eq_none_iff hshort hother).mpr
      ((hcondition.other hother).resolve_left (Nat.not_le.mpr hshort))
    rw [hnone]
    exact iff_of_false (by simp) fun hread => hother value hread.1

theorem readsNumber_parseSlice_iff : ReadsNumber width numeral (parseSlice limit width numeral) ↔
      NumberCondition limit width numeral := by
  by_cases hshort : numeral.length < limit
  · by_cases hdenotes : ∃ value, Denotes numeral value
    · obtain ⟨value, hvalue⟩ := hdenotes
      cases hvalue with
      | decimal hne hdigits => exact readsNumber_decimal hshort hne hdigits
      | hex hrest hne hdigits => exact readsNumber_hex hshort hrest hne hdigits
    · exact readsNumber_other hshort (not_exists.mp hdenotes)
  · exact readsNumber_of_le (Nat.le_of_not_lt hshort)

end Condition

/-- A result is the value of at most 32 binary digits, and there is one for all
such digits. -/
def ReadsBinary (numeral : Text) (result : Option ℕ) : Prop := ∀ value, result = some value ↔
    AllDigits 2 numeral ∧ numeral.length ≤ 32 ∧ value = digitsValue 2 numeral

theorem parseBinaryLong_digits {numeral : Text} (hdigits : AllDigits 2 numeral)
    (hlength : numeral.length ≤ 32) :
    (parseBinaryLong numeral).map UInt32.toNat = some (digitsValue 2 numeral) := by
  have hlt : digitsValue 2 numeral < 2 ^ 32 :=
    (digitsValue_lt (by decide) numeral).trans_le (Nat.pow_le_pow_right (by decide) hlength)
  rw [parseBinaryLong, if_pos (by omega)]
  have hzeros := digitsValue_eq_zero_iff (by decide) hdigits
  by_cases hall : ∀ character ∈ numeral, character = 48
  · rw [if_pos (by simpa using hall), hzeros.mpr hall]
    rfl
  · have hne : numeral ≠ [] := by
      rintro rfl
      exact hall (by simp)
    have hvalue : truncated 32 ((Scan.numeral 2 numeral).getD 0) = digitsValue 2 numeral := by
      rw [numeral_of_digits hdigits hne, Option.getD_some, truncated_natCast, Nat.mod_eq_of_lt hlt]
    rw [if_neg (by simpa using hall)]
    simp only [hvalue, if_neg (mt hzeros.mp hall), Option.map_some]
    rw [UInt32.toNat_ofNat_of_lt' hlt]

/-- All other texts must be too long or start without a number. -/
theorem readsBinary_iff (numeral : Text) :
    ReadsBinary numeral ((parseBinaryLong numeral).map UInt32.toNat) ↔
      (AllDigits 2 numeral ∨ 32 < numeral.length ∨
        (2 : ℤ) ^ 32 ∣ (Scan.numeral 2 numeral).getD 0) := by
  by_cases hlength : numeral.length ≤ 32
  · by_cases hdigits : AllDigits 2 numeral
    · refine iff_of_true (fun value => ?_) (.inl hdigits)
      rw [parseBinaryLong_digits hdigits hlength, Option.some.injEq]
      constructor
      · rintro rfl
        exact ⟨hdigits, hlength, rfl⟩
      · exact fun hread => hread.2.2.symm
    · have hzeros : ¬ numeral.all (· = 48) = true := by
        intro hall
        apply hdigits
        intro character hmem
        have hzero : character = 48 := by
          simpa using List.all_eq_true.mp hall character hmem
        rw [hzero]
        decide
      have hnone : (parseBinaryLong numeral).map UInt32.toNat = none ↔
          (2 : ℤ) ^ 32 ∣ (Scan.numeral 2 numeral).getD 0 := by
        rw [parseBinaryLong, if_pos (by omega), if_neg hzeros,
          Option.map_eq_none_iff, ← truncated_eq_zero_iff]
        simp
      rw [or_iff_right hdigits, or_iff_right (by omega), ← hnone]
      constructor
      · intro hreads
        cases hparse : (parseBinaryLong numeral).map UInt32.toNat with
        | none => rfl
        | some value => exact absurd ((hreads value).mp hparse).1 hdigits
      · intro hparse value
        rw [hparse]
        exact iff_of_false (by simp) fun hread => hdigits hread.1
  · have hparse : parseBinaryLong numeral = none := by
      rw [parseBinaryLong, if_neg (by omega)]
    refine iff_of_true (fun value => ?_) (.inr (.inl (by omega)))
    rw [hparse]
    exact iff_of_false (by simp) fun hread => hlength hread.2.1

theorem parseLong_append (before numeral after : Text) :
    (parseLong (before ++ numeral ++ after) before.length
      (before.length + numeral.length)).map UInt32.toNat = parseSlice 12 32 numeral := by
  rw [parseLong, parseNumber_eq_parseSlice, Option.map_map]
  cases hparse : parseSlice 12 32 numeral with
  | none => rfl
  | some value =>
      simp [UInt32.toNat_ofNat_of_lt' (parseSlice_lt hparse)]

theorem parseShort_append (before numeral after : Text) :
    (parseShort (before ++ numeral ++ after) before.length
      (before.length + numeral.length)).map UInt16.toNat = parseSlice 7 16 numeral := by
  rw [parseShort, parseNumber_eq_parseSlice, Option.map_map]
  cases hparse : parseSlice 7 16 numeral with
  | none => rfl
  | some value =>
      simp [UInt16.toNat_ofNat_of_lt' (parseSlice_lt hparse)]

theorem parseByte_append (before numeral after : Text) :
    (parseByte (before ++ numeral ++ after) before.length
      (before.length + numeral.length)).map UInt8.toNat = parseSlice 5 8 numeral := by
  rw [parseByte, parseNumber_eq_parseSlice, Option.map_map]
  cases hparse : parseSlice 5 8 numeral with
  | none => rfl
  | some value =>
      simp [UInt8.toNat_ofNat_of_lt' (parseSlice_lt hparse)]

/-- The parsers read numerals that fit, and nothing else, in a slice of a
text. -/
def ReadsNumerals (before numeral after : Text) : Prop :=
  let text := before ++ numeral ++ after
  let pos := before.length
  let stop := before.length + numeral.length
  ReadsNumber 32 numeral ((parseLong text pos stop).map UInt32.toNat) ∧
    ReadsNumber 16 numeral ((parseShort text pos stop).map UInt16.toNat) ∧
    ReadsNumber 8 numeral ((parseByte text pos stop).map UInt8.toNat) ∧
    ReadsBinary numeral ((parseBinaryLong (slice text pos stop)).map UInt32.toNat)

theorem readsNumerals_iff (before numeral after : Text) : ReadsNumerals before numeral after ↔
      NumberCondition 12 32 numeral ∧ NumberCondition 7 16 numeral ∧ NumberCondition 5 8 numeral ∧
        (AllDigits 2 numeral ∨ 32 < numeral.length ∨
          (2 : ℤ) ^ 32 ∣ (Scan.numeral 2 numeral).getD 0) := by
  simp only [ReadsNumerals, parseLong_append, parseShort_append,
    parseByte_append, slice_append, readsNumber_parseSlice_iff, readsBinary_iff]

/-- A number of nine bits is cut off to a byte. -/
theorem not_readsNumerals_nine_bits :
    ¬ ReadsNumerals [] (ascii "257") [] ∧
      parseByte (ascii "257") 0 3 = some 1 := by
  refine ⟨fun hreads => ?_, by decide⟩
  obtain ⟨hdenotes, -⟩ := (hreads.2.2.1 1).mp (by decide)
  rw [denotes_decimal_iff (by decide) (by decide)] at hdenotes
  exact absurd hdenotes (by decide)

/-- `to_hex_string`, that is `0x%X`. -/
def toHexString (value : UInt32) : Text :=
  ascii "0x" ++
    if value = 0 then [48]
    else (Nat.digits 16 value.toNat).reverse.map fun digit =>
      hexDigit (UInt8.ofNat digit)

/-- What `appendMemory` prints for an index of the death table when addresses
are used for memory. -/
def memoryAddress (deathTableOffset memory : UInt32) : Text :=
  toHexString (memory * 4 + deathTableOffset)

theorem digitValue_hexDigit {digit : ℕ} (hdigit : digit < 16) :
    digitValue 16 (hexDigit (UInt8.ofNat digit)) = some digit := by
  have hdigits : ∀ digit : Fin 16,
      digitValue 16 (hexDigit (UInt8.ofNat digit)) = some digit.val := by
    decide
  exact hdigits ⟨digit, hdigit⟩

theorem toHexString_spec (value : UInt32) :
    ∃ digits, toHexString value = ascii "0x" ++ digits ∧ digits ≠ [] ∧
      digits.length ≤ 8 ∧ AllDigits 16 digits ∧
      digitsValue 16 digits = value.toNat := by
  by_cases hzero : value = 0
  · refine ⟨[48], ?_, by decide, by decide, by decide, ?_⟩
    · rw [toHexString, if_pos hzero]
    · rw [hzero]
      decide
  · have hnonzero : value.toNat ≠ 0 := fun heq =>
      hzero (UInt32.toNat_inj.mp (by simpa using heq))
    have hlt : ∀ digit ∈ Nat.digits 16 value.toNat, digit < 16 := by
      intro digit hmem
      exact Nat.digits_lt_base (by decide) hmem
    have hread : ((Nat.digits 16 value.toNat).reverse.map fun digit =>
        hexDigit (UInt8.ofNat digit)).filterMap (digitValue 16) =
          (Nat.digits 16 value.toNat).reverse := by
      rw [List.filterMap_map]
      calc
        (Nat.digits 16 value.toNat).reverse.filterMap
            (digitValue 16 ∘ fun digit => hexDigit (UInt8.ofNat digit)) =
            (Nat.digits 16 value.toNat).reverse.filterMap some := by
          apply List.filterMap_congr
          intro digit hmem
          exact digitValue_hexDigit (hlt digit (List.mem_reverse.mp hmem))
        _ = (Nat.digits 16 value.toNat).reverse := List.filterMap_some
    refine ⟨_, by rw [toHexString, if_neg hzero], ?_, ?_, ?_, ?_⟩
    · simpa [Nat.digits_ne_nil_iff_ne_zero] using hnonzero
    · rw [List.length_map, List.length_reverse, Nat.digits_length_le_iff (by decide)]
      exact value.toNat_lt
    · intro character hmem
      rw [List.mem_map] at hmem
      obtain ⟨digit, hdigit, rfl⟩ := hmem
      rw [digitValue_hexDigit (hlt digit (List.mem_reverse.mp hdigit))]
      rfl
    · rw [digitsValue_eq_ofDigits, hread, List.reverse_reverse, Nat.ofDigits_digits]

theorem parseLong_toHexString (value : UInt32) (before after : Text) :
    parseLong (before ++ toHexString value ++ after) before.length
      (before.length + (toHexString value).length) = some value := by
  obtain ⟨digits, heq, hne, hlength, hdigits, hvalue⟩ := toHexString_spec value
  have hhex : hexPart (toHexString value) = some digits := by
    rw [heq]
    exact hexPart_cons_cons 48 120 digits
  have hshort : (toHexString value).length < 12 := by
    have htwo : (ascii "0x").length = 2 := by decide
    rw [heq, List.length_append, htwo]
    omega
  have hread := parseLong_append before (toHexString value) after
  rw [parseSlice_hex hshort hhex hne hdigits, hvalue,
    Nat.mod_eq_of_lt value.toNat_lt, Option.map_eq_some_iff] at hread
  obtain ⟨other, hother, hsame⟩ := hread
  rw [hother, UInt32.toNat_inj.mp hsame]

theorem toNat_index_of_address {deathTableOffset : UInt32}
    (haligned : 4 ∣ deathTableOffset.toNat) (memory : UInt32) :
    (((memory * 4 + deathTableOffset) / 4 * 4 - deathTableOffset) / 4).toNat =
      memory.toNat % 2 ^ 30 := by
  have hmemory := memory.toNat_lt
  have hoffset := deathTableOffset.toNat_lt
  obtain ⟨quotient, hquotient⟩ := haligned
  simp only [UInt32.toNat_div, UInt32.toNat_sub, UInt32.toNat_mul,
    UInt32.toNat_add, UInt32.reduceToNat]
  rw [hquotient] at hoffset ⊢
  omega

/-- The address that is printed for an index leads back to it, up to the two
bits that are lost when it is multiplied by 4. -/
theorem parseMemoryAddress_memoryAddress (deathTableOffset memory : UInt32)
    (haligned : 4 ∣ deathTableOffset.toNat) (before after : Text) :
    ∃ index, parseMemoryAddress deathTableOffset
        (before ++ memoryAddress deathTableOffset memory ++ after)
        before.length
        (before.length + (memoryAddress deathTableOffset memory).length) = some index ∧
      index.toNat ≡ memory.toNat [MOD 2 ^ 30] ∧
      index * 4 + deathTableOffset = memory * 4 + deathTableOffset := by
  have hindex := toNat_index_of_address haligned memory
  refine ⟨_, by rw [parseMemoryAddress, memoryAddress, parseLong_toHexString,
    Option.map_some], ?_, ?_⟩
  · rw [hindex]
    exact Nat.mod_modEq _ _
  · apply UInt32.toNat_inj.mp
    simp only [UInt32.toNat_add, UInt32.toNat_mul, hindex, UInt32.reduceToNat]
    omega

/-- The offset of the game, and an index above `2 ^ 30`. -/
theorem parseMemoryAddress_memoryAddress_large : 4 ∣ (0x58A364 : UInt32).toNat ∧
      ∃ index, parseMemoryAddress 0x58A364 ([] ++ memoryAddress 0x58A364 0x40000001 ++ []) 0
          (0 + (memoryAddress 0x58A364 0x40000001).length) = some index ∧
        index.toNat ≡ (0x40000001 : UInt32).toNat [MOD 2 ^ 30] ∧
        index * 4 + 0x58A364 = 0x40000001 * 4 + 0x58A364 := by
  have haligned : 4 ∣ (0x58A364 : UInt32).toNat := by decide
  exact ⟨haligned, parseMemoryAddress_memoryAddress 0x58A364 0x40000001 haligned [] []⟩

end Chkdraft.TextTrigs
