import Chkdraft.Core.Scan

/-!
# Numerals with something behind them

A decimal numeral that is read in a text either ends inside the text, and then
nothing behind the text changes it, or the text can be continued by a digit, and
then every digit gives another number.
-/

namespace Scan

section Nul

theorem leadingDigits_untilNul (text : Text) :
    leadingDigits 10 (untilNul text) = leadingDigits 10 text := by
  induction text with
  | nil => rfl
  | cons character rest ih =>
      by_cases hnul : character = 0
      · subst hnul
        rfl
      · rw [untilNul, List.takeWhile_cons_of_pos (by simpa using hnul),
          leadingDigits, leadingDigits, ← untilNul, ih]

theorem dropWhile_isSpace_untilNul (text : Text) :
    (untilNul text).dropWhile isSpace = untilNul (text.dropWhile isSpace) := by
  induction text with
  | nil => rfl
  | cons character rest ih =>
      by_cases hspace : isSpace character = true
      · have hnul : character ≠ 0 := by
          rintro rfl
          exact absurd hspace (by decide)
        rw [untilNul, List.takeWhile_cons_of_pos (by simpa using hnul),
          List.dropWhile_cons_of_pos hspace, ← untilNul, ih,
          List.dropWhile_cons_of_pos hspace]
      · rw [List.dropWhile_cons_of_neg hspace, untilNul, List.takeWhile_cons]
        split
        · rw [List.dropWhile_cons_of_neg hspace]
        · rfl

theorem splitSign_cons (character : UInt8) (rest : Text) : splitSign (character :: rest) =
      if character = 45 then (true, rest)
      else if character = 43 then (false, rest)
      else (false, character :: rest) := by
  by_cases hminus : character = 45
  · subst hminus
    rfl
  by_cases hplus : character = 43
  · subst hplus
    rfl
  simp [splitSign, hminus, hplus]

theorem splitSign_untilNul (text : Text) : splitSign (untilNul text) =
      ((splitSign text).1, untilNul (splitSign text).2) := by
  cases text with
  | nil => rfl
  | cons character rest =>
      by_cases hnul : character = 0
      · subst hnul
        rfl
      · rw [splitSign_cons, untilNul,
          List.takeWhile_cons_of_pos (by simpa using hnul), splitSign_cons]
        split_ifs with hminus hplus
        · rfl
        · rfl
        · rw [untilNul, List.takeWhile_cons_of_pos (by simpa using hnul)]

end Nul

def digitsBehind (text : Text) : List ℕ := leadingDigits 10 (splitSign (text.dropWhile isSpace)).2

def isNegative (text : Text) : Bool := (splitSign (text.dropWhile isSpace)).1

def signed (negative : Bool) (value : ℕ) : ℤ :=
  if negative then -value else value

def valueOf (digits : List ℕ) : ℕ := digits.foldl (fun sum digit => sum * 10 + digit) 0

theorem decimal_eq (text : Text) :
    decimal text = signed (isNegative text) (valueOf (digitsBehind text)) := by
  rw [decimal, numeral, dropWhile_isSpace_untilNul, splitSign_untilNul]
  simp only [leadingDigits_untilNul, Nat.reduceEqDiff, if_false]
  rw [← digitsBehind, ← isNegative]
  split
  · next hnone =>
      rw [hnone]
      cases isNegative text <;> rfl
  · rfl

section Behind

variable {text : Text}

/-- Digits that end inside a text do not go on behind it. -/
theorem leadingDigits_append_of_lt
    (hlt : (leadingDigits 10 text).length < text.length) (behind : Text) :
    leadingDigits 10 (text ++ behind) = leadingDigits 10 text := by
  induction text with
  | nil => exact absurd hlt (Nat.lt_irrefl 0)
  | cons character rest ih =>
      rw [leadingDigits] at hlt
      rw [List.cons_append, leadingDigits, leadingDigits]
      split
      · next digit hdigit =>
          rw [hdigit] at hlt
          rw [ih (Nat.lt_of_succ_lt_succ hlt)]
      · rfl

/-- A text of digits is continued by the digits behind it. -/
theorem leadingDigits_append_of_le
    (hle : text.length ≤ (leadingDigits 10 text).length) (behind : Text) :
    leadingDigits 10 (text ++ behind) = leadingDigits 10 text ++ leadingDigits 10 behind := by
  induction text with
  | nil => rfl
  | cons character rest ih =>
      rw [leadingDigits] at hle
      rw [List.cons_append, leadingDigits, leadingDigits]
      split
      · next digit hdigit =>
          rw [hdigit] at hle
          rw [ih (Nat.le_of_succ_le_succ hle), List.cons_append]
      · next hnone =>
          rw [hnone] at hle
          exact absurd hle (Nat.not_succ_le_zero _)

theorem dropWhile_append_of_ne_nil (hbody : text.dropWhile isSpace ≠ []) (behind : Text) :
    (text ++ behind).dropWhile isSpace = text.dropWhile isSpace ++ behind := by
  rw [List.dropWhile_append, if_neg]
  simpa using hbody

theorem splitSign_append (hne : text ≠ []) (behind : Text) : splitSign (text ++ behind) =
      ((splitSign text).1, (splitSign text).2 ++ behind) := by
  cases text with
  | nil => exact absurd rfl hne
  | cons character rest =>
      rw [List.cons_append, splitSign_cons, splitSign_cons]
      split_ifs
      · rfl
      · rfl
      · rfl

/-- A numeral that ends inside a text is read the same with anything behind
the text. -/
theorem decimal_append_of_endsInside (hends : numeralEndsInside text = true)
    (behind : Text) : decimal (text ++ behind) = decimal text := by
  rw [numeralEndsInside, decide_eq_true_eq] at hends
  have hbody : text.dropWhile isSpace ≠ [] := by
    intro hnil
    rw [hnil] at hends
    exact absurd hends (Nat.lt_irrefl 0)
  rw [decimal_eq, decimal_eq, isNegative, digitsBehind,
    dropWhile_append_of_ne_nil hbody, splitSign_append hbody,
    leadingDigits_append_of_lt hends, ← digitsBehind, ← isNegative]

theorem valueOf_append (digits : List ℕ) (digit : ℕ) :
    valueOf (digits ++ [digit]) = valueOf digits * 10 + digit := by
  rw [valueOf, List.foldl_append, ← valueOf]
  rfl

/-- Any other numeral is continued by a digit behind the text. -/
theorem decimal_append_digit (hopen : numeralEndsInside text = false)
    {character : UInt8} {digit : ℕ}
    (hdigit : digitValue 10 character = some digit)
    (hspace : isSpace character = false) (hsign : 45 < character)
    {behind : Text} (hbehind : leadingDigits 10 behind = []) :
    decimal (text ++ character :: behind) =
      signed (isNegative text) (valueOf (digitsBehind text) * 10 + digit) := by
  rw [numeralEndsInside, decide_eq_false_iff_not, Nat.not_lt] at hopen
  have hbegins : leadingDigits 10 (character :: behind) = [digit] := by
    rw [leadingDigits, hdigit, hbehind]
  rw [decimal_eq]
  by_cases hbody : text.dropWhile isSpace = []
  · have hrest : (text ++ character :: behind).dropWhile isSpace = character :: behind := by
      rw [List.dropWhile_append, hbody, if_pos (by rfl),
        List.dropWhile_cons_of_neg (by simp [hspace])]
    have hplain : splitSign (character :: behind) = (false, character :: behind) := by
      rw [splitSign_cons, if_neg, if_neg]
      · rintro rfl
        exact absurd hsign (by decide)
      · rintro rfl
        exact absurd hsign (by decide)
    rw [isNegative, digitsBehind, hrest, hplain, isNegative, digitsBehind, hbody, hbegins]
    rfl
  · rw [isNegative, digitsBehind, dropWhile_append_of_ne_nil hbody,
      splitSign_append hbody, leadingDigits_append_of_le hopen, hbegins,
      valueOf_append, ← digitsBehind, ← isNegative]

end Behind

end Scan
