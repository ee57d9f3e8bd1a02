import Mathlib.Data.Nat.Digits.Lemmas
import Chkdraft.Core.Scan

/-!
# Texts of digits

A text that consists of digits is a numeral without a sign or blanks.  `strtol`
reads it to its end and gives its value.
-/

namespace Scan

variable {base : ℕ} {text : Text}

def AllDigits (base : ℕ) (text : Text) : Prop :=
  ∀ character ∈ text, (digitValue base character).isSome

def digitsValue (base : ℕ) (text : Text) : ℕ :=
  (text.filterMap (digitValue base)).foldl (fun sum digit => sum * base + digit) 0

instance (base : ℕ) (text : Text) : Decidable (AllDigits base text) := List.decidableBAll _ _

theorem digitsValue_eq_ofDigits (base : ℕ) (text : Text) : digitsValue base text =
      Nat.ofDigits base (text.filterMap (digitValue base)).reverse := by
  rw [digitsValue, Nat.ofDigits_eq_foldr, List.foldr_reverse]
  congr
  funext sum digit
  simp [Nat.mul_comm, Nat.add_comm]

theorem digitValue_lt {character : UInt8} {digit : ℕ}
    (hdigit : digitValue base character = some digit) : digit < base := by
  rw [digitValue, Option.filter_eq_some_iff] at hdigit
  exact of_decide_eq_true hdigit.2

theorem digitsValue_lt (hbase : 1 < base) (text : Text) :
    digitsValue base text < base ^ text.length := by
  rw [digitsValue_eq_ofDigits]
  calc
    Nat.ofDigits base (text.filterMap (digitValue base)).reverse <
        base ^ (text.filterMap (digitValue base)).reverse.length := by
      apply Nat.ofDigits_lt_base_pow_length hbase
      intro digit hmem
      rw [List.mem_reverse, List.mem_filterMap] at hmem
      obtain ⟨character, -, hdigit⟩ := hmem
      exact digitValue_lt hdigit
    _ ≤ base ^ text.length := by
      rw [List.length_reverse]
      exact Nat.pow_le_pow_right (by omega) (List.length_filterMap_le _ _)

section

variable {character : UInt8} (hdigit : (digitValue base character).isSome)

include hdigit

/-- Digits stand behind blanks, signs and control characters. -/
theorem le_of_isSome_digitValue : 48 ≤ character := by
  by_contra hlt
  have hupper : ¬ (65 ≤ character ∧ character ≤ 90) := by
    rintro ⟨hle, -⟩
    exact hlt (UInt8.le_trans (by decide) hle)
  have hlower : ¬ (97 ≤ character ∧ character ≤ 122) := by
    rintro ⟨hle, -⟩
    exact hlt (UInt8.le_trans (by decide) hle)
  rw [digitValue, if_neg fun hle => hlt hle.1, if_neg hupper, if_neg hlower] at hdigit
  cases hdigit

theorem ne_of_isSome_digitValue {other : UInt8} (hother : other < 48) : character ≠ other := by
  rintro rfl
  exact UInt8.not_le.mpr hother (le_of_isSome_digitValue hdigit)

theorem isSpace_of_digit : isSpace character = false := by
  have hle := le_of_isSome_digitValue hdigit
  have hblank := ne_of_isSome_digitValue hdigit (show (32 : UInt8) < 48 by decide)
  have hcontrol : ¬ character ≤ 13 := fun hsmall =>
    absurd (UInt8.le_trans hle hsmall) (by decide)
  simp [isSpace, hblank, hcontrol]

end

theorem eq_of_digitValue_eq_zero {character : UInt8}
    (hzero : digitValue base character = some 0) : character = 48 := by
  rw [digitValue, Option.filter_eq_some_iff] at hzero
  obtain ⟨hvalue, -⟩ := hzero
  split at hvalue
  case isTrue hrange =>
    have hle : 48 ≤ character.toNat := hrange.1
    have hsub : character.toNat - 48 = 0 := Option.some.inj hvalue
    apply UInt8.toNat_inj.mp
    simp
    omega
  split at hvalue
  case isTrue hrange =>
    have hle : 65 ≤ character.toNat := hrange.1
    have hsub : character.toNat - 55 = 0 := Option.some.inj hvalue
    omega
  split at hvalue
  case isTrue hrange =>
    have hle : 97 ≤ character.toNat := hrange.1
    have hsub : character.toNat - 87 = 0 := Option.some.inj hvalue
    omega
  case isFalse => cases hvalue

theorem digitsValue_eq_zero_iff (hbase : 1 < base) (hdigits : AllDigits base text) :
    digitsValue base text = 0 ↔ ∀ character ∈ text, character = 48 := by
  constructor
  · intro hzero character hmem
    rw [digitsValue_eq_ofDigits] at hzero
    obtain ⟨digit, hdigit⟩ := Option.isSome_iff_exists.mp (hdigits character hmem)
    have hall := Nat.digits_zero_of_eq_zero (by omega) hzero digit (by
      rw [List.mem_reverse, List.mem_filterMap]
      exact ⟨character, hmem, hdigit⟩)
    rw [hall] at hdigit
    exact eq_of_digitValue_eq_zero hdigit
  · intro hall
    have hdigit : digitValue base 48 = some 0 := by
      simpa [digitValue] using Nat.zero_lt_of_lt hbase
    clear hdigits
    induction text with
    | nil => rfl
    | cons character rest ih =>
        obtain ⟨rfl, hrest⟩ := List.forall_mem_cons.mp hall
        have hvalue := ih hrest
        rw [digitsValue] at hvalue
        rw [digitsValue, List.filterMap_cons_some hdigit, List.foldl_cons,
          Nat.zero_mul, Nat.add_zero, hvalue]

theorem eq_of_digitsValue_eq_zero (hbase : 1 < base)
    (hdigits : AllDigits base text) (hlength : text.length = 1)
    (hzero : digitsValue base text = 0) : text = [48] := by
  obtain ⟨character, rfl⟩ := List.length_eq_one_iff.mp hlength
  rw [(digitsValue_eq_zero_iff hbase hdigits).mp hzero character List.mem_cons_self]

theorem leadingDigits_eq_filterMap (hdigits : AllDigits base text) :
    leadingDigits base text = text.filterMap (digitValue base) := by
  induction text with
  | nil => rfl
  | cons character rest ih =>
      obtain ⟨hfirst, hrest⟩ := List.forall_mem_cons.mp hdigits
      obtain ⟨digit, hdigit⟩ := Option.isSome_iff_exists.mp hfirst
      rw [leadingDigits, hdigit, List.filterMap_cons_some hdigit, ih hrest]

theorem filterMap_digitValue_ne_nil (hdigits : AllDigits base text)
    (hne : text ≠ []) : text.filterMap (digitValue base) ≠ [] := by
  cases text with
  | nil => exact absurd rfl hne
  | cons character rest =>
      obtain ⟨digit, hdigit⟩ := Option.isSome_iff_exists.mp (List.forall_mem_cons.mp hdigits).1
      rw [List.filterMap_cons_some hdigit]
      exact List.cons_ne_nil _ _

theorem splitSign_of_digits (hdigits : AllDigits base text) : splitSign text = (false, text) := by
  cases text with
  | nil => rfl
  | cons character rest =>
      have hfirst := (List.forall_mem_cons.mp hdigits).1
      have hplus := ne_of_isSome_digitValue hfirst (show (43 : UInt8) < 48 by decide)
      have hminus := ne_of_isSome_digitValue hfirst (show (45 : UInt8) < 48 by decide)
      simp [splitSign, hplus, hminus]

theorem dropHexPrefix_of_digits (hdigits : AllDigits 16 text) : dropHexPrefix text = text := by
  unfold dropHexPrefix
  split
  case h_1 letter digit rest =>
    rw [if_neg]
    rintro ⟨rfl | rfl, -⟩
    · exact absurd (hdigits 120 (by simp)) (by decide)
    · exact absurd (hdigits 88 (by simp)) (by decide)
  case h_2 => rfl

/-- `strtol` reads a text of digits to its end. -/
theorem numeral_of_digits (hdigits : AllDigits base text) (hne : text ≠ []) :
    numeral base text = some (digitsValue base text : ℤ) := by
  have hnul : untilNul text = text := by
    apply untilNul_of_nul_not_mem
    intro hmem
    exact ne_of_isSome_digitValue (hdigits 0 hmem) (by decide) rfl
  have hspace : text.dropWhile isSpace = text := by
    cases text with
    | nil => rfl
    | cons character rest =>
        have hfirst := (List.forall_mem_cons.mp hdigits).1
        rw [List.dropWhile_cons_of_neg (by simp [isSpace_of_digit hfirst])]
  have hbody : (if base = 16 then dropHexPrefix text else text) = text := by
    split
    · rename_i hbase
      exact dropHexPrefix_of_digits (hbase ▸ hdigits)
    · rfl
  simp only [numeral, hnul, hspace, splitSign_of_digits hdigits, hbody,
    leadingDigits_eq_filterMap hdigits, if_neg (filterMap_digitValue_ne_nil hdigits hne),
    Bool.false_eq_true, if_false]
  rfl

end Scan
