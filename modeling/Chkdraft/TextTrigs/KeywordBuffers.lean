import Chkdraft.TextTrigs.Arguments

/-!
# Keyword buffers

The keyword parsers copy their argument to an array of a fixed size, which
nothing compares with the length of the argument.  The copy is described here
write by write; it stays in the array exactly when the whole argument and a NUL
have room in it, blanks included.
-/

namespace Chkdraft.TextTrigs

open Chk Scan

/-- `dest[index] = character`. -/
def write (index : ℕ) (character : UInt8) (dest : List UInt8) : Except Hazard (List UInt8) :=
  if index < dest.length then .ok (dest.set index character)
  else .error .undefinedBehavior

/-- The loop of `copyUpperCaseNoSpace`, from character `i` on. -/
def copyCharacters : Text → ℕ → ℕ → List UInt8 → Except Hazard (List UInt8)
  | [], _, _, dest => .ok dest
  | currChar :: source, i, numSkipped, dest =>
      if 97 ≤ currChar ∧ currChar ≤ 122 then do
        let dest ← write (i - numSkipped) (currChar - 32) dest
        copyCharacters source (i + 1) numSkipped dest
      else if currChar ≠ 32 then do
        let dest ← write (i - numSkipped) currChar dest
        copyCharacters source (i + 1) numSkipped dest
      else
        copyCharacters source (i + 1) (numSkipped + 1) dest

/-- `copyUpperCaseNoSpace` into an array, write by write. -/
def copyInto (dest : List UInt8) (source : Text) : Except Hazard (List UInt8) := do
  let dest ← copyCharacters source 0 0 dest
  write source.length 0 dest

section Copy

variable {source : Text}

theorem length_upperNoSpace_le (source : Text) : (upperNoSpace source).length ≤ source.length := by
  rw [upperNoSpace, List.length_map]
  exact List.length_filter_le ..

theorem upperNoSpace_cons (currChar : UInt8) (source : Text) : upperNoSpace (currChar :: source) =
      if currChar ≠ 32 then upperCase currChar :: upperNoSpace source
      else upperNoSpace source := by
  rw [upperNoSpace, List.filter_cons]
  simp only [decide_eq_true_eq]
  split
  · rfl
  · rfl

/-- A character is put in upper case, unless it is a blank. -/
theorem copyCharacters_cons (currChar : UInt8) (source : Text)
    (i numSkipped : ℕ) (dest : List UInt8) :
    copyCharacters (currChar :: source) i numSkipped dest =
      if currChar ≠ 32 then do
        let dest ← write (i - numSkipped) (upperCase currChar) dest
        copyCharacters source (i + 1) numSkipped dest
      else
        copyCharacters source (i + 1) (numSkipped + 1) dest := by
  rw [copyCharacters, upperCase]
  split
  · next hletter =>
      have hblank : currChar ≠ 32 := by
        rintro rfl
        exact absurd hletter.1 (by decide)
      rw [if_pos hblank]
  · rfl

theorem write_append (done : List UInt8) (old character : UInt8) (rest : List UInt8) :
    write done.length character (done ++ old :: rest) = .ok (done ++ [character] ++ rest) := by
  rw [write, if_pos (by simp), List.set_append_right _ _ (Nat.le_refl _),
    Nat.sub_self, List.set_cons_zero, List.append_assoc,
    List.singleton_append]

/-- The characters are put one behind the other, whatever is skipped. -/
theorem copyCharacters_eq (done : List UInt8) {i numSkipped : ℕ}
    {rest : List UInt8} (hdone : done.length + numSkipped = i)
    (hroom : source.length ≤ rest.length) :
    copyCharacters source i numSkipped (done ++ rest) =
      .ok (done ++ upperNoSpace source ++ rest.drop (upperNoSpace source).length) := by
  induction source generalizing i numSkipped done rest with
  | nil =>
      rw [copyCharacters, upperNoSpace, List.filter_nil, List.map_nil,
        List.length_nil, List.drop_zero, List.append_nil]
  | cons currChar source ih =>
      rw [List.length_cons] at hroom
      rw [copyCharacters_cons, upperNoSpace_cons]
      split
      · cases rest with
        | nil => exact absurd hroom (by simp)
        | cons old rest =>
            rw [List.length_cons] at hroom
            have hindex : i - numSkipped = done.length := by omega
            rw [hindex, write_append]
            have hnext : (done ++ [upperCase currChar]).length + numSkipped = i + 1 := by
              rw [List.length_append, List.length_singleton]
              omega
            refine (ih _ hnext (by omega)).trans ?_
            rw [List.append_assoc done, List.singleton_append, List.length_cons,
              List.drop_succ_cons]
      · exact ih done (by omega) (by omega)

/-- With room for the source and a NUL the copy is followed by what was in the
array, but for the NUL at the length of the source. -/
theorem copyInto_eq {dest : List UInt8} (hroom : source.length < dest.length) :
    copyInto dest source = .ok ((upperNoSpace source ++
        dest.drop (upperNoSpace source).length).set source.length 0) := by
  have hcopied := length_upperNoSpace_le source
  have hloop : copyCharacters source 0 0 dest =
      .ok (upperNoSpace source ++ dest.drop (upperNoSpace source).length) :=
    copyCharacters_eq [] rfl hroom.le
  rw [copyInto, hloop]
  refine if_pos ?_
  rw [List.length_append, List.length_drop]
  omega

theorem write_cases (index : ℕ) (character : UInt8) (dest : List UInt8) :
    index < dest.length ∧ write index character dest = .ok (dest.set index character) ∨
      dest.length ≤ index ∧ write index character dest = .error .undefinedBehavior := by
  rcases Nat.lt_or_ge index dest.length with hlt | hle
  · exact .inl ⟨hlt, if_pos hlt⟩
  · exact .inr ⟨hle, if_neg (Nat.not_lt.mpr hle)⟩

/-- The loop leaves an array of the same size or writes behind it. -/
theorem copyCharacters_cases (source : Text) (i numSkipped : ℕ) (dest : List UInt8) :
    (∃ copied, copyCharacters source i numSkipped dest = .ok copied ∧ copied.length = dest.length) ∨
      copyCharacters source i numSkipped dest = .error .undefinedBehavior := by
  induction source generalizing i numSkipped dest with
  | nil => exact .inl ⟨dest, rfl, rfl⟩
  | cons currChar source ih =>
      rw [copyCharacters_cons]
      split
      · rcases write_cases (i - numSkipped) (upperCase currChar) dest with
          ⟨-, hwrite⟩ | ⟨-, hwrite⟩
        · have hrest := ih (i + 1) numSkipped (dest.set (i - numSkipped) (upperCase currChar))
          rw [List.length_set] at hrest
          rw [hwrite]
          exact hrest
        · rw [hwrite]
          exact .inr rfl
      · exact ih (i + 1) (numSkipped + 1) dest

theorem copyInto_of_le {dest : List UInt8} (hle : dest.length ≤ source.length) :
    copyInto dest source = .error .undefinedBehavior := by
  rw [copyInto]
  rcases copyCharacters_cases source 0 0 dest with
    ⟨copied, hcopied, hlength⟩ | hcopied
  · rw [hcopied]
    exact if_neg (by omega)
  · rw [hcopied]
    rfl

/-- The copy stays in the array exactly when there is room for the source and
a NUL. -/
theorem copyInto_returns_iff {dest : List UInt8} :
    (∃ array, copyInto dest source = .ok array) ↔ source.length < dest.length := by
  constructor
  · rintro ⟨array, hcopy⟩
    by_contra hroom
    rw [copyInto_of_le (Nat.not_lt.mp hroom)] at hcopy
    cases hcopy
  · intro hroom
    exact ⟨_, copyInto_eq hroom⟩

theorem untilNul_append_nul (text rest : Text) : untilNul (text ++ 0 :: rest) = untilNul text := by
  rw [untilNul, untilNul, List.takeWhile_append, List.takeWhile_cons_of_neg (by decide)]
  split
  · next hwhole =>
      rw [List.append_nil, (List.takeWhile_sublist _).eq_of_length hwhole]
  · rfl

theorem untilNul_append_zeros (text : Text) (count : ℕ) :
    untilNul (text ++ List.replicate count 0) = untilNul text := by
  cases count with
  | zero => rw [List.replicate_zero, List.append_nil]
  | succ count => exact untilNul_append_nul ..

/-- In an array of zeros the copy is the C string of the source. -/
theorem copyUpperCaseNoSpace_eq (capacity : ℕ) (source : Text) :
    copyUpperCaseNoSpace capacity source =
      (copyInto (List.replicate capacity 0) source).map untilNul := by
  rw [copyUpperCaseNoSpace]
  have hcopied := length_upperNoSpace_le source
  split
  · next hroom =>
      rw [copyInto_eq (by rwa [List.length_replicate]), List.drop_replicate]
      rw [List.set_append_right _ _ hcopied, List.set_replicate_self]
      exact congrArg Except.ok (untilNul_append_zeros ..).symm
  · next hroom =>
      rw [copyInto_of_le (by rw [List.length_replicate]; omega)]
      rfl

end Copy

/-- The shape of a keyword parser, with its array. -/
def parseInArray {A : Type} (capacity : ℕ) (keywords : List (String × A)) :
    CompilerInput → ℕ → ℕ → Attempt A :=
  parseName fun source => do
    let array ← copyInto (List.replicate capacity 0) source
    .ok ((keywords.find? fun entry => ascii entry.1 = untilNul array).map Prod.snd)

theorem parseKeyword_eq_parseInArray {A : Type} (capacity : ℕ) (keywords : List (String × A)) :
    parseKeyword capacity keywords = parseInArray capacity keywords := by
  have hread : ∀ source : Text, ((copyUpperCaseNoSpace capacity source).map fun copied =>
        (keywords.find? fun entry => ascii entry.1 = copied).map Prod.snd) =
      (do
        let array ← copyInto (List.replicate capacity 0) source
        .ok ((keywords.find? fun entry =>
          ascii entry.1 = untilNul array).map Prod.snd)) := by
    intro source
    rw [copyUpperCaseNoSpace_eq]
    cases copyInto (List.replicate capacity 0) source <;> rfl
  exact congrArg parseName (funext hread)

/-- The parsers with an array of zeros. -/
inductive KeywordParser where
  | numericComparison
  | switchState
  | specialUnitAmount
  | allianceStatus
  | resourceType
  | scoreType
  | textDisplayFlag
  | numericModifier
  | switchMod
  | stateMod
  | order

namespace KeywordParser

def capacity : KeywordParser → ℕ
  | numericComparison => 12
  | switchState => 8
  | specialUnitAmount => 4
  | allianceStatus => 16
  | resourceType => 12
  | scoreType => 20
  | textDisplayFlag => 24
  | numericModifier => 12
  | switchMod => 10
  | stateMod => 12
  | order => 8

/-- What is read: a number, or what is done to flags. -/
def Value : KeywordParser → Type
  | allianceStatus => UInt16
  | textDisplayFlag => UInt8 → UInt8
  | _ => UInt8

def parse : (parser : KeywordParser) → CompilerInput → ℕ → ℕ → Attempt parser.Value
  | numericComparison => parseNumericComparison
  | switchState => parseSwitchState
  | specialUnitAmount => parseSpecialUnitAmount
  | allianceStatus => parseAllianceStatus
  | resourceType => parseResourceType
  | scoreType => parseScoreType
  | textDisplayFlag => parseTextDisplayFlag
  | numericModifier => parseNumericModifier
  | switchMod => parseSwitchMod
  | stateMod => parseStateMod
  | order => parseOrder

theorem exists_parse_eq (parser : KeywordParser) :
    ∃ keywords, parser.parse = parseInArray parser.capacity keywords := by
  cases parser <;> exact ⟨_, parseKeyword_eq_parseInArray ..⟩

end KeywordParser

/-- The text of an argument, quoted or not. -/
def argument (input : CompilerInput) (pos stop nextString : ℕ) : Option Text :=
  if charAt input.text pos = quote then
    input.stringContents[nextString]?
  else
    some (slice input.text pos stop)

/-- The argument is written to the array only, and what has no room in it is
rejected. -/
def StaysInArray (parser : KeywordParser) (input : CompilerInput)
    (pos stop nextString : ℕ) : Prop :=
  ∀ source, argument input pos stop nextString = some source →
    (∃ array, copyInto (List.replicate parser.capacity 0) source = .ok array) ∧
      ∃ found following, parser.parse input pos stop nextString = .ok (found, following) ∧
          (parser.capacity ≤ source.length → found = none)

/-- There is room for the argument and a NUL. -/
def HasRoom (parser : KeywordParser) (input : CompilerInput) (pos stop nextString : ℕ) : Prop :=
  ∀ source, argument input pos stop nextString = some source → source.length < parser.capacity

/-- A parser returns with an argument its array has room for. -/
theorem exists_parseInArray {A : Type} {capacity : ℕ}
    (keywords : List (String × A)) {input : CompilerInput}
    {pos stop nextString : ℕ} {source : Text}
    (hsource : argument input pos stop nextString = some source)
    (hroom : source.length < capacity) :
    ∃ found following, parseInArray capacity keywords input pos stop nextString =
        .ok (found, following) := by
  obtain ⟨array, hcopy⟩ := copyInto_returns_iff.mpr (hroom.trans_eq List.length_replicate.symm)
  rw [argument] at hsource
  rw [parseInArray, parseName]
  split at hsource
  · next hquote =>
      rw [if_pos hquote, Attempt.literal, hsource]
      dsimp only
      rw [hcopy]
      exact ⟨_, _, rfl⟩
  · next hquote =>
      cases hsource
      rw [if_neg hquote, Attempt.ofResult, hcopy]
      exact ⟨_, _, rfl⟩

/-- A parser stays in its array exactly when there is room in it. -/
theorem staysInArray_iff (parser : KeywordParser) (input : CompilerInput)
    (pos stop nextString : ℕ) :
    StaysInArray parser input pos stop nextString ↔ HasRoom parser input pos stop nextString := by
  refine forall₂_congr fun source hsource => ?_
  constructor
  · rintro ⟨hcopy, -⟩
    rw [copyInto_returns_iff, List.length_replicate] at hcopy
    exact hcopy
  · intro hroom
    obtain ⟨keywords, hparse⟩ := parser.exists_parse_eq
    obtain ⟨found, following, hreturns⟩ := exists_parseInArray keywords hsource hroom
    refine ⟨copyInto_returns_iff.mpr (by rwa [List.length_replicate]),
      found, following, hparse ▸ hreturns, fun hle => ?_⟩
    omega

/-- An order that is written longer than its array. -/
theorem attacking_overflows : ¬ StaysInArray .order
      ⟨ascii "attacking", [], ⟨[], [], [], [], []⟩, false, 0⟩ 0 9 0 := by
  intro hstays
  obtain ⟨⟨array, hcopy⟩, -⟩ := hstays (ascii "attacking") (by decide)
  rw [copyInto_of_le (by decide)] at hcopy
  cases hcopy

end Chkdraft.TextTrigs
