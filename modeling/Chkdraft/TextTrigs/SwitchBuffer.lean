import Chkdraft.Core.OpenNumerals
import Chkdraft.TextTrigs.KeywordBuffers

/-!
# The buffer for switch names

`parseSwitch` copies a short name to an array that it does not initialise.  The
copy puts a NUL at the length of the name; where blanks were skipped, the bytes
in front of that NUL are left as they were, and the comparison and the number
conversion may read them.
-/

namespace Chkdraft.TextTrigs

open Scan

variable {named : List UInt8} {copied : Text} {tables : NameTables}
  {dest : UInt8} {found : Option UInt8} {input : CompilerInput}
  {nextString pos stop : ℕ}

/-- The test for a standard name on the array; `dest` is set to the number also
when it is 0. -/
def readSwitch (sw : List UInt8) (dest : UInt8) : Bool × UInt8 :=
  if continuesWith sw 0 "SWITCH" then
    let dest := UInt8.ofNat (truncated 8 (decimal (sw.drop 6)))
    if dest = 0 then (false, dest) else (true, dest - 1)
  else
    (false, dest)

/-- The search in the table of the map's switch names. -/
def searchSwitchTable (tables : NameTables) (str : Text) : Bool × UInt8 → Bool × UInt8
  | (true, dest) => (true, dest)
  | (false, dest) =>
      match lookupLowest tables.switchTable str with
      | some switchId => (true, UInt8.ofNat switchId)
      | none => (false, dest)

/-- `parseSwitch` on a name, with what its array and `dest` hold before. -/
def switchNamedIn (sw : List UInt8) (tables : NameTables) (str : Text)
    (dest : UInt8) : Except Hazard (Bool × UInt8) := do
  if str.length < 12 then
    let sw ← copyInto sw str
    .ok (searchSwitchTable tables str (readSwitch sw dest))
  else
    .ok (searchSwitchTable tables str (false, dest))

/-- What `parseByte` leaves in its destination when it fails. -/
def failedByte (text : Text) (pos stop : ℕ) (dest : UInt8) : UInt8 :=
  let size := stop - pos
  if pos ≤ stop ∧ size < 5 ∧ ¬ (2 < size ∧ charAt text pos = 48 ∧
      (charAt text (pos + 1) = 120 ∨ charAt text (pos + 1) = 88)) then 0
  else dest

/-- `parseSwitch`: the result, `dest` and the number of the next literal. -/
def parseSwitchIn (sw : List UInt8) (input : CompilerInput)
    (pos stop nextString : ℕ) (dest : UInt8) :
    Except Hazard (Bool × UInt8 × ℕ) :=
  if charAt input.text pos = quote then
    match input.stringContents[nextString]? with
    | some str =>
        (switchNamedIn sw input.tables str dest).map fun (success, dest) =>
          (success, dest, nextString + 1)
    | none => .error .undefinedBehavior
  else
    match parseByte input.text pos stop with
    | some byte => .ok (true, byte, nextString)
    | none =>
        (switchNamedIn sw input.tables (slice input.text pos stop)
          (failedByte input.text pos stop dest)).map fun (success, dest) =>
            (success, dest, nextString)

/-- Whatever the array held before, the result and the switch id are the
same. -/
def DependsOnInput (input : CompilerInput) (pos stop nextString : ℕ) (dest : UInt8) : Prop :=
  ∀ sw other : List UInt8, sw.length = 12 → other.length = 12 →
    parseSwitchIn sw input pos stop nextString dest =
      parseSwitchIn other input pos stop nextString dest

/-- The name that comes to the array, and what `dest` holds then. -/
def switchName (input : CompilerInput) (pos stop nextString : ℕ)
    (dest : UInt8) : Option (Text × UInt8) :=
  if charAt input.text pos = quote then
    input.stringContents[nextString]?.map fun str => (str, dest)
  else if (parseByte input.text pos stop).isSome then
    none
  else
    some (slice input.text pos stop, failedByte input.text pos stop dest)

/-- The copied characters, of a name that fits the array and has blanks, settle
the comparison and the number. -/
structure SettledByName (tables : NameTables) (str : Text) (dest : UInt8) : Prop where
  number : continuesWith (upperNoSpace str) 0 "SWITCH" = true →
    numeralEndsInside ((upperNoSpace str).drop 6) = true
  letters : (upperNoSpace str).length < 6 →
    (upperNoSpace str).isPrefixOf (ascii "SWITCH") = true →
    str.length < 6 ∨ str.length = 6 ∧
      (dest = 0 ∨ (lookupLowest tables.switchTable str).isSome = true)

/-- A name without blanks or too long for the array needs nothing else. -/
def MeetsNames (input : CompilerInput) (pos stop nextString : ℕ) (dest : UInt8) : Prop :=
  ∀ str before, switchName input pos stop nextString dest = some (str, before) →
    str.length < 12 → 32 ∈ str → SettledByName input.tables str before

section Array

variable {sw : List UInt8} {str : Text}

theorem length_upperNoSpace_lt_iff (str : Text) :
    (upperNoSpace str).length < str.length ↔ 32 ∈ str := by
  rw [upperNoSpace, List.length_map, List.length_filter_lt_length_iff_exists]
  constructor
  · rintro ⟨character, hmem, hblank⟩
    have heq : character = 32 := by simpa using hblank
    exact heq ▸ hmem
  · intro hmem
    exact ⟨32, hmem, by decide⟩

theorem prefix_append_nul_iff {name text rest : List UInt8} (hnul : 0 ∉ name) :
    name <+: text ++ 0 :: rest ↔ name <+: text := by
  induction name generalizing text with
  | nil => exact iff_of_true List.nil_prefix List.nil_prefix
  | cons character name ih =>
      rw [List.mem_cons, not_or] at hnul
      cases text with
      | nil =>
          rw [List.nil_append, List.cons_prefix_cons]
          constructor
          · rintro ⟨hzero, -⟩
            exact absurd hzero.symm hnul.1
          · intro hnil
            exact absurd (List.prefix_nil.mp hnil) (List.cons_ne_nil _ _)
      | cons head text =>
          rw [List.cons_append, List.cons_prefix_cons, List.cons_prefix_cons, ih hnul.2]

theorem continuesWith_iff (text : Text) (name : String) :
    continuesWith text 0 name = true ↔ ascii name <+: text := by
  rw [continuesWith, List.drop_zero, List.isPrefixOf_iff_prefix]

theorem decimal_append_nul (text rest : Text) : decimal (text ++ 0 :: rest) = decimal text := by
  rw [decimal, decimal, numeral, numeral, untilNul_append_nul]

theorem readSwitch_append_nul (named rest : List UInt8) (dest : UInt8) :
    readSwitch (named ++ 0 :: rest) dest = readSwitch named dest := by
  have hstarts : continuesWith (named ++ 0 :: rest) 0 "SWITCH" =
      continuesWith named 0 "SWITCH" := by
    rw [Bool.eq_iff_iff, continuesWith_iff, continuesWith_iff]
    exact prefix_append_nul_iff (by decide)
  rw [readSwitch, readSwitch, hstarts]
  split
  · next hnamed =>
      have hlength : 6 ≤ named.length := ((continuesWith_iff _ _).mp hnamed).length_le
      rw [List.drop_append_of_le_length hlength, decimal_append_nul]
  · rfl

/-- The bytes between the copied characters and the NUL. -/
def bytesLeft (sw : List UInt8) (str : Text) : List UInt8 :=
  (sw.drop (upperNoSpace str).length).take (str.length - (upperNoSpace str).length)

theorem length_bytesLeft (hsw : sw.length = 12) (hshort : str.length < 12) :
    (bytesLeft sw str).length = str.length - (upperNoSpace str).length := by
  have hcopied := length_upperNoSpace_le str
  rw [bytesLeft, List.length_take, List.length_drop]
  omega

/-- What is found out depends on the copied characters and the bytes left. -/
theorem switchNamedIn_eq (hsw : sw.length = 12) (hshort : str.length < 12)
    (tables : NameTables) (dest : UInt8) :
    switchNamedIn sw tables str dest = .ok (searchSwitchTable tables str
        (readSwitch (upperNoSpace str ++ bytesLeft sw str) dest)) := by
  have hcopied := length_upperNoSpace_le str
  have hcopy : copyInto sw str = .ok (upperNoSpace str ++ bytesLeft sw str ++ 0 ::
        (sw.drop (upperNoSpace str).length).drop (str.length - (upperNoSpace str).length + 1)) := by
    rw [copyInto_eq (by omega), List.set_append_right _ _ hcopied,
      List.set_eq_take_append_cons_drop, if_pos, ← bytesLeft,
      List.append_assoc]
    rw [List.length_drop]
    omega
  rw [switchNamedIn, if_pos hshort, hcopy]
  exact congrArg (fun read => Except.ok (searchSwitchTable tables str read))
    (readSwitch_append_nul ..)

theorem switchNamedIn_of_le (hlong : 12 ≤ str.length) (sw : List UInt8)
    (tables : NameTables) (dest : UInt8) :
    switchNamedIn sw tables str dest = .ok (searchSwitchTable tables str (false, dest)) :=
  if_neg (Nat.not_lt.mpr hlong)

theorem exists_bytesLeft_eq (hshort : str.length < 12) {bytes : List UInt8}
    (hlength : bytes.length = str.length - (upperNoSpace str).length) :
    ∃ sw : List UInt8, sw.length = 12 ∧ bytesLeft sw str = bytes := by
  have hcopied := length_upperNoSpace_le str
  refine ⟨List.replicate (upperNoSpace str).length 0 ++
    (bytes ++ List.replicate (12 - str.length) 0), ?_, ?_⟩
  · simp only [List.length_append, List.length_replicate]
    omega
  · rw [bytesLeft, List.drop_left' List.length_replicate, List.take_left' hlength]

/-- The outcome is the same for all arrays exactly when it is for all bytes
left. -/
theorem switchNamedIn_eq_iff (hshort : str.length < 12) (tables : NameTables) (dest : UInt8) :
    (∀ sw other : List UInt8, sw.length = 12 → other.length = 12 →
      switchNamedIn sw tables str dest = switchNamedIn other tables str dest) ↔
      ∀ bytes other : List UInt8, bytes.length = str.length - (upperNoSpace str).length →
        other.length = str.length - (upperNoSpace str).length →
        searchSwitchTable tables str (readSwitch (upperNoSpace str ++ bytes) dest) =
          searchSwitchTable tables str (readSwitch (upperNoSpace str ++ other) dest) := by
  constructor
  · intro hsame bytes other hbytes hother
    obtain ⟨sw, hsw, rfl⟩ := exists_bytesLeft_eq hshort hbytes
    obtain ⟨sw', hsw', rfl⟩ := exists_bytesLeft_eq hshort hother
    have heq := hsame sw sw' hsw hsw'
    rw [switchNamedIn_eq hsw hshort, switchNamedIn_eq hsw' hshort] at heq
    exact Except.ok.inj heq
  · intro hsame sw other hsw hother
    rw [switchNamedIn_eq hsw hshort, switchNamedIn_eq hother hshort,
      hsame _ _ (length_bytesLeft hsw hshort) (length_bytesLeft hother hshort)]

end Array

section Number

variable {text : Text}

def switchNumber (text : Text) : UInt8 := UInt8.ofNat (truncated 8 (decimal text))

theorem readSwitch_of_other_name (hnamed : ¬ ascii "SWITCH" <+: named)
    (dest : UInt8) : readSwitch named dest = (false, dest) :=
  if_neg (by rwa [continuesWith_iff])

theorem readSwitch_append (number : Text) (dest : UInt8) :
    readSwitch (ascii "SWITCH" ++ number) dest =
      if switchNumber number = 0 then (false, 0)
      else (true, switchNumber number - 1) := by
  rw [readSwitch, if_pos ((continuesWith_iff _ _).mpr
    (List.prefix_append _ _)), List.drop_left' (by decide)]
  change (if switchNumber number = 0 then (false, switchNumber number)
    else _) = _
  split
  · next hzero => rw [hzero]
  · rfl

theorem truncated_signed_ne (negative : Bool) (value : ℕ) {first second : ℕ}
    (hne : first ≠ second) (hfirst : first < 10) (hsecond : second < 10) :
    truncated 8 (signed negative (value * 10 + first)) ≠
      truncated 8 (signed negative (value * 10 + second)) := by
  rw [truncated, truncated, signed, signed]
  split
  · omega
  · omega

theorem ofNat_truncated_inj {first second : ℤ}
    (heq : UInt8.ofNat (truncated 8 first) = UInt8.ofNat (truncated 8 second)) :
    truncated 8 first = truncated 8 second := by
  have hlt : ∀ value : ℤ, truncated 8 value < UInt8.size := by
    intro value
    rw [truncated, UInt8.size]
    omega
  rw [← UInt8.toNat_ofNat_of_lt' (hlt first), heq, UInt8.toNat_ofNat_of_lt' (hlt second)]

/-- The digits 1, 2 and 3 behind a number that goes on give different ones. -/
theorem switchNumber_append_digit_inj (hopen : numeralEndsInside text = false)
    {first second : UInt8} (hfirst : first ∈ [(49 : UInt8), 50, 51])
    (hsecond : second ∈ [(49 : UInt8), 50, 51]) {behind : Text}
    (hbehind : leadingDigits 10 behind = [])
    (heq : switchNumber (text ++ first :: behind) =
      switchNumber (text ++ second :: behind)) : first = second := by
  have hread : ∀ character ∈ [(49 : UInt8), 50, 51],
      digitValue 10 character = some (character.toNat - 48) ∧
        isSpace character = false ∧ 45 < character ∧
          character.toNat - 48 < 10 ∧ 48 ≤ character.toNat := by
    decide +kernel
  obtain ⟨hdigit, hspace, hsign, hlt, hle⟩ := hread first hfirst
  obtain ⟨hdigit', hspace', hsign', hlt', hle'⟩ := hread second hsecond
  have hnumbers := ofNat_truncated_inj heq
  rw [decimal_append_digit hopen hdigit hspace hsign hbehind,
    decimal_append_digit hopen hdigit' hspace' hsign' hbehind] at hnumbers
  by_contra hne
  have hdigits : first.toNat - 48 ≠ second.toNat - 48 := by
    intro hsame
    exact hne (UInt8.toNat_inj.mp (by omega))
  exact truncated_signed_ne _ _ hdigits hlt hlt' hnumbers

/-- Two of the three numbers are switches, and not the same one. -/
theorem exists_readSwitch_ne (hopen : numeralEndsInside text = false)
    {behind : Text} (hbehind : leadingDigits 10 behind = []) (dest : UInt8) :
    ∃ first second : UInt8, ∃ switchId other : UInt8, switchId ≠ other ∧
      readSwitch (ascii "SWITCH" ++ (text ++ first :: behind)) dest =
        (true, switchId) ∧
      readSwitch (ascii "SWITCH" ++ (text ++ second :: behind)) dest =
        (true, other) := by
  have hinj : ∀ first ∈ [(49 : UInt8), 50, 51], ∀ second ∈ [(49 : UInt8), 50, 51], first ≠ second →
        switchNumber (text ++ first :: behind) ≠ switchNumber (text ++ second :: behind) :=
    fun first hfirst second hsecond hne heq =>
      hne (switchNumber_append_digit_inj hopen hfirst hsecond hbehind heq)
  -- At most one of the numbers is 0.
  obtain ⟨first, second, hfirst, hsecond, hne⟩ : ∃ first second : UInt8,
        switchNumber (text ++ first :: behind) ≠ 0 ∧
        switchNumber (text ++ second :: behind) ≠ 0 ∧
        switchNumber (text ++ first :: behind) ≠ switchNumber (text ++ second :: behind) := by
    by_cases hone : switchNumber (text ++ 49 :: behind) = 0
    · refine ⟨50, 51, ?_, ?_, hinj 50 (by decide) 51 (by decide) (by decide)⟩
      · exact hone ▸ hinj 50 (by decide) 49 (by decide) (by decide)
      · exact hone ▸ hinj 51 (by decide) 49 (by decide) (by decide)
    by_cases htwo : switchNumber (text ++ 50 :: behind) = 0
    · refine ⟨49, 51, hone, ?_, hinj 49 (by decide) 51 (by decide) (by decide)⟩
      exact htwo ▸ hinj 51 (by decide) 50 (by decide) (by decide)
    · exact ⟨49, 50, hone, htwo, hinj 49 (by decide) 50 (by decide) (by decide)⟩
  refine ⟨first, second, switchNumber (text ++ first :: behind) - 1,
    switchNumber (text ++ second :: behind) - 1, ?_, ?_, ?_⟩
  · exact fun heq => hne (sub_left_injective heq)
  · rw [readSwitch_append, if_neg hfirst]
  · rw [readSwitch_append, if_neg hsecond]

end Number

section Settled

variable {str : Text} {bytes : List UInt8}

/-- A number that ends in the copied characters is not continued. -/
theorem readSwitch_of_endsInside (hnamed : ascii "SWITCH" <+: copied)
    (hends : numeralEndsInside (copied.drop 6) = true) (bytes : List UInt8)
    (dest : UInt8) :
    readSwitch (copied ++ bytes) dest = readSwitch copied dest := by
  obtain ⟨number, rfl⟩ := hnamed
  rw [List.drop_left' (by decide)] at hends
  rw [List.append_assoc, readSwitch_append, readSwitch_append, switchNumber,
    decimal_append_of_endsInside hends, ← switchNumber]

/-- Other letters are not made to `SWITCH` by what is behind them. -/
theorem readSwitch_of_other_letters (hnamed : ¬ ascii "SWITCH" <+: copied)
    (hletters : ¬ copied <+: ascii "SWITCH") (bytes : List UInt8)
    (dest : UInt8) : readSwitch (copied ++ bytes) dest = (false, dest) := by
  apply readSwitch_of_other_name
  intro hstarts
  rcases List.prefix_or_prefix_of_prefix hstarts
      (List.prefix_append copied bytes) with hbefore | hbefore
  · exact hnamed hbefore
  · exact hletters hbefore

theorem readSwitch_of_short (hshort : named.length < 6) (dest : UInt8) :
    readSwitch named dest = (false, dest) := by
  apply readSwitch_of_other_name
  intro hstarts
  exact absurd hstarts.length_le (Nat.not_le.mpr hshort)

/-- With six characters there is no number, and `dest` may be set to 0. -/
theorem readSwitch_of_length_six (hlength : named.length = 6) (dest : UInt8) :
    readSwitch named dest = (false, dest) ∨ readSwitch named dest = (false, 0) := by
  by_cases hstarts : ascii "SWITCH" <+: named
  · right
    have hnamed := hstarts.eq_of_length (by rw [hlength]; decide)
    rw [← hnamed, ← List.append_nil (ascii "SWITCH"), readSwitch_append]
    rfl
  · exact .inl (readSwitch_of_other_name hstarts dest)

/-- A name with which the outcome depends on nothing else. -/
theorem SettledByName.outcome_eq (hsettled : SettledByName tables str dest)
    {other : List UInt8}
    (hbytes : bytes.length = str.length - (upperNoSpace str).length)
    (hother : other.length = str.length - (upperNoSpace str).length) :
    searchSwitchTable tables str (readSwitch (upperNoSpace str ++ bytes) dest) =
      searchSwitchTable tables str (readSwitch (upperNoSpace str ++ other) dest) := by
  have hcopied := length_upperNoSpace_le str
  by_cases hnamed : ascii "SWITCH" <+: upperNoSpace str
  · have hends := hsettled.number ((continuesWith_iff _ _).mpr hnamed)
    rw [readSwitch_of_endsInside hnamed hends, readSwitch_of_endsInside hnamed hends]
  by_cases hletters : upperNoSpace str <+: ascii "SWITCH"
  swap
  · rw [readSwitch_of_other_letters hnamed hletters, readSwitch_of_other_letters hnamed hletters]
  have hshort : (upperNoSpace str).length < 6 := by
    refine Nat.lt_of_le_of_ne hletters.length_le fun hlength => hnamed ?_
    rw [hletters.eq_of_length hlength]
  rcases hsettled.letters hshort (List.isPrefixOf_iff_prefix.mpr hletters) with
    hlength | ⟨hlength, hend⟩
  · rw [readSwitch_of_short (by rw [List.length_append]; omega),
      readSwitch_of_short (by rw [List.length_append]; omega)]
  have hsix : ∀ left : List UInt8,
      left.length = str.length - (upperNoSpace str).length →
        (upperNoSpace str ++ left).length = 6 := by
    intro left hleft
    rw [List.length_append]
    omega
  have hsame : searchSwitchTable tables str (false, dest) =
      searchSwitchTable tables str (false, 0) := by
    rcases hend with rfl | hfound
    · rfl
    · obtain ⟨switchId, hswitchId⟩ := Option.isSome_iff_exists.mp hfound
      rw [searchSwitchTable, searchSwitchTable, hswitchId]
  have hleft : ∀ left : List UInt8,
      left.length = str.length - (upperNoSpace str).length →
        searchSwitchTable tables str (readSwitch (upperNoSpace str ++ left) dest) =
          searchSwitchTable tables str (false, 0) := by
    intro left hlength
    rcases readSwitch_of_length_six (hsix left hlength) dest with hread | hread
    · rw [hread, hsame]
    · rw [hread]
  rw [hleft bytes hbytes, hleft other hother]

/-- The outcomes are not all the same where a number may go on. -/
theorem exists_outcome_ne (letters number : Text) {left : ℕ}
    (hsplit : copied ++ letters = ascii "SWITCH" ++ number)
    (hopen : numeralEndsInside number = false) (hroom : letters.length < left)
    (tables : NameTables) (str : Text) (dest : UInt8) :
    ∃ bytes other : List UInt8, bytes.length = left ∧ other.length = left ∧
      searchSwitchTable tables str (readSwitch (copied ++ bytes) dest) ≠
        searchSwitchTable tables str (readSwitch (copied ++ other) dest) := by
  have hzeros : ∀ count : ℕ, leadingDigits 10 (List.replicate count (0 : UInt8)) = [] := by
    intro count
    cases count <;> rfl
  obtain ⟨first, second, switchId, switchId', hne, hfirst, hsecond⟩ :=
    exists_readSwitch_ne hopen (hzeros (left - letters.length - 1)) dest
  refine ⟨letters ++ first :: List.replicate (left - letters.length - 1) 0,
    letters ++ second :: List.replicate (left - letters.length - 1) 0,
    ?_, ?_, ?_⟩
  · rw [List.length_append, List.length_cons, List.length_replicate]
    omega
  · rw [List.length_append, List.length_cons, List.length_replicate]
    omega
  · rw [← List.append_assoc, ← List.append_assoc, hsplit, List.append_assoc,
      List.append_assoc, hfirst, hsecond]
    exact fun heq => hne (congrArg Prod.snd heq)

/-- Of six characters, letters that go on to `SWITCH` set `dest` to 0 and
others leave it. -/
theorem exists_outcome_ne_of_six {letters : Text}
    (hsplit : copied ++ letters = ascii "SWITCH") (hletters : letters ≠ [])
    {str : Text} (hnone : lookupLowest tables.switchTable str = none)
    (hdest : dest ≠ 0) :
    ∃ other : List UInt8, other.length = letters.length ∧
      searchSwitchTable tables str (readSwitch (copied ++ letters) dest) ≠
        searchSwitchTable tables str (readSwitch (copied ++ other) dest) := by
  refine ⟨0 :: List.replicate (letters.length - 1) 0, ?_, ?_⟩
  · have hpos := List.length_pos_iff.mpr hletters
    rw [List.length_cons, List.length_replicate]
    omega
  · have hcopied : ¬ ascii "SWITCH" <+: copied := by
      intro hstarts
      have hle := hstarts.length_le
      rw [← hsplit, List.length_append] at hle
      have hpos := List.length_pos_iff.mpr hletters
      omega
    rw [hsplit, ← List.append_nil (ascii "SWITCH"), readSwitch_append,
      readSwitch_append_nul, readSwitch_of_other_name hcopied,
      if_pos (by decide), searchSwitchTable, searchSwitchTable, hnone]
    exact fun heq => hdest (congrArg Prod.snd heq).symm

/-- The outcome depends on nothing but a name with blanks exactly when that
name settles it. -/
theorem outcome_eq_iff (tables : NameTables) (hblank : 32 ∈ str) (dest : UInt8) :
    (∀ bytes other : List UInt8, bytes.length = str.length - (upperNoSpace str).length →
      other.length = str.length - (upperNoSpace str).length →
      searchSwitchTable tables str (readSwitch (upperNoSpace str ++ bytes) dest) =
        searchSwitchTable tables str (readSwitch (upperNoSpace str ++ other) dest)) ↔
      SettledByName tables str dest := by
  have hlt := (length_upperNoSpace_lt_iff str).mpr hblank
  constructor
  · intro hsame
    constructor
    · intro hnamed
      obtain ⟨number, hsplit⟩ := (continuesWith_iff _ _).mp hnamed
      rw [← hsplit, List.drop_left' (by decide)]
      by_contra hopen
      obtain ⟨bytes, other, hbytes, hother, hne⟩ :=
        exists_outcome_ne [] number (by rw [List.append_nil, hsplit]) (Bool.eq_false_iff.mpr hopen)
          (show 0 < str.length - (upperNoSpace str).length by omega)
          tables str dest
      exact hne (hsame bytes other hbytes hother)
    · intro hshort hstarts
      obtain ⟨letters, hsplit⟩ := List.isPrefixOf_iff_prefix.mp hstarts
      have hlength := congrArg List.length hsplit
      rw [List.length_append, show (ascii "SWITCH").length = 6 from rfl]
        at hlength
      by_contra hlong
      rw [not_or, not_and_or, not_or] at hlong
      by_cases hsix : str.length = 6
      · obtain ⟨hdest, hnone⟩ := hlong.2.resolve_left (not_not.mpr hsix)
        rw [Option.not_isSome_iff_eq_none] at hnone
        obtain ⟨other, hother, hne⟩ := exists_outcome_ne_of_six hsplit
          (List.ne_nil_of_length_pos (by omega)) hnone hdest
        exact hne (hsame letters other (by omega) (by omega))
      · obtain ⟨bytes, other, hbytes, hother, hne⟩ :=
          exists_outcome_ne letters [] (by rw [List.append_nil, hsplit]) rfl
            (show letters.length < str.length - (upperNoSpace str).length by
              omega) tables str dest
        exact hne (hsame bytes other hbytes hother)
  · intro hsettled bytes other hbytes hother
    exact hsettled.outcome_eq hbytes hother

/-- The array is not seen in the outcome exactly when the name settles it, or
is too long for the array, or has no blanks. -/
theorem switchNamedIn_settled_iff (tables : NameTables) (str : Text) (dest : UInt8) :
    (∀ sw other : List UInt8, sw.length = 12 → other.length = 12 →
      switchNamedIn sw tables str dest = switchNamedIn other tables str dest) ↔
      (str.length < 12 → 32 ∈ str → SettledByName tables str dest) := by
  by_cases hshort : str.length < 12
  swap
  · refine iff_of_true (fun sw other _ _ => ?_) fun h => absurd h hshort
    rw [switchNamedIn_of_le (Nat.not_lt.mp hshort), switchNamedIn_of_le (Nat.not_lt.mp hshort)]
  rw [switchNamedIn_eq_iff hshort, forall_prop_of_true hshort]
  by_cases hblank : 32 ∈ str
  · rw [outcome_eq_iff tables hblank, forall_prop_of_true hblank]
  · refine iff_of_true (fun bytes other hbytes hother => ?_) fun h => absurd h hblank
    have hnone := (length_upperNoSpace_lt_iff str).not.mpr hblank
    rw [List.length_eq_zero_iff.mp (hbytes.trans (by omega)),
      List.length_eq_zero_iff.mp (hother.trans (by omega))]

end Settled

/-- The result and the switch id of an attempt, with what `dest` holds when it
fails. -/
def outcome (found : Option UInt8) (dest : UInt8) : Bool × UInt8 := (found.isSome, found.getD dest)

theorem ofNat_truncated_eq_zero_iff (value : ℤ) :
    UInt8.ofNat (truncated 8 value) = 0 ↔ truncated 8 value = 0 := by
  constructor
  · intro hzero
    have hnumbers := @ofNat_truncated_inj value 0 (hzero.trans (by decide))
    exact hnumbers.trans (by decide)
  · intro hzero
    rw [hzero]
    rfl

/-- Where the standard name is settled, every array gives it. -/
theorem readSwitch_of_standardSwitch {str : Text}
    (hstandard : standardSwitch str = .ok found) {bytes : List UInt8}
    (hbytes : bytes.length = str.length - (upperNoSpace str).length)
    (dest : UInt8) :
    ∃ left, readSwitch (upperNoSpace str ++ bytes) dest = outcome found left := by
  have hcopied := length_upperNoSpace_le str
  simp only [standardSwitch] at hstandard
  by_cases hnamed : continuesWith (upperNoSpace str) 0 "SWITCH" = true
  · rw [if_pos hnamed] at hstandard
    split at hstandard
    swap
    · cases hstandard
    next hsettled =>
      have hread : readSwitch (upperNoSpace str ++ bytes) dest =
          readSwitch (upperNoSpace str) dest := by
        rcases hsettled with hwhole | hends
        · have hnil : bytes = [] := List.length_eq_zero_iff.mp (by omega)
          rw [hnil, List.append_nil]
        · exact readSwitch_of_endsInside ((continuesWith_iff _ _).mp hnamed) hends bytes dest
      cases hstandard
      refine ⟨0, ?_⟩
      rw [hread, readSwitch, if_pos hnamed]
      by_cases hzero : truncated 8 (decimal ((upperNoSpace str).drop 6)) = 0
      · rw [hzero]
        rfl
      · simp only [ofNat_truncated_eq_zero_iff, if_neg hzero, outcome,
          Option.isSome_some, Option.getD_some]
        rw [UInt8.ofNat_sub (Nat.pos_of_ne_zero hzero)]
        rfl
  · rw [if_neg hnamed] at hstandard
    split at hstandard
    · cases hstandard
    next hletters =>
      cases hstandard
      refine ⟨dest, ?_⟩
      rw [continuesWith_iff] at hnamed
      rw [not_and_or, not_not, List.isPrefixOf_iff_prefix] at hletters
      rcases hletters with hwhole | hletters
      · have hnil : bytes = [] := List.length_eq_zero_iff.mp (by omega)
        rw [hnil, List.append_nil]
        exact readSwitch_of_other_name hnamed dest
      · exact readSwitch_of_other_letters hnamed hletters bytes dest

theorem searchSwitchTable_outcome (tables : NameTables) (str : Text)
    (standard : Option UInt8) (dest : UInt8) :
    searchSwitchTable tables str (outcome standard dest) = outcome (standard <|>
        (lookupLowest tables.switchTable str).map UInt8.ofNat) dest := by
  cases standard with
  | some switchId => rfl
  | none =>
      rw [outcome, Option.isSome_none, Option.getD_none, searchSwitchTable]
      cases lookupLowest tables.switchTable str with
      | none => rfl
      | some switchId => rfl

theorem switchNamedIn_of_switchNamed {str : Text}
    (hnamed : switchNamed tables str = .ok found) {sw : List UInt8}
    (hsw : sw.length = 12) (dest : UInt8) :
    ∃ left, switchNamedIn sw tables str dest = .ok (outcome found left) := by
  rw [switchNamed] at hnamed
  split at hnamed
  · next hshort =>
      obtain ⟨standard, hstandard, hfound⟩ := Fault.bind_eq_ok_iff.mp hnamed
      cases hfound
      obtain ⟨left, hread⟩ := readSwitch_of_standardSwitch hstandard
        (length_bytesLeft hsw hshort) dest
      refine ⟨left, ?_⟩
      rw [switchNamedIn_eq hsw hshort, hread, searchSwitchTable_outcome]
  · next hlong =>
      cases hnamed
      refine ⟨dest, ?_⟩
      rw [switchNamedIn_of_le (Nat.not_lt.mp hlong)]
      exact congrArg Except.ok (searchSwitchTable_outcome tables str none dest)

/-- Where `parseSwitch` returns, it does so with every array. -/
theorem parseSwitchIn_of_parseSwitch {following : ℕ}
    (hparse : parseSwitch input pos stop nextString = .ok (found, following))
    {sw : List UInt8} (hsw : sw.length = 12) (dest : UInt8) :
    ∃ left, parseSwitchIn sw input pos stop nextString dest =
      .ok ((outcome found left).1, (outcome found left).2, following) := by
  rw [parseSwitch, parseNumberOrName, parseName] at hparse
  rw [parseSwitchIn]
  by_cases hquote : charAt input.text pos = quote
  · rw [if_neg fun h => h.1 hquote, if_pos hquote, Attempt.literal] at hparse
    rw [if_pos hquote]
    cases hcontent : input.stringContents[nextString]? with
    | none =>
        rw [hcontent] at hparse
        cases hparse
    | some str =>
        rw [hcontent] at hparse
        obtain ⟨value, hnamed, hpair⟩ := Fault.map_eq_ok_iff.mp hparse
        cases hpair
        obtain ⟨left, hread⟩ := switchNamedIn_of_switchNamed hnamed hsw dest
        refine ⟨left, ?_⟩
        dsimp only
        rw [hread]
        rfl
  · rw [if_neg hquote]
    cases hbyte : parseByte input.text pos stop with
    | some byte =>
        rw [hbyte, if_pos ⟨hquote, rfl⟩] at hparse
        cases hparse
        exact ⟨0, rfl⟩
    | none =>
        rw [hbyte, if_neg (by simp), if_neg hquote] at hparse
        obtain ⟨value, hnamed, hpair⟩ := Fault.map_eq_ok_iff.mp hparse
        cases hpair
        obtain ⟨left, hread⟩ := switchNamedIn_of_switchNamed hnamed hsw
          (failedByte input.text pos stop dest)
        refine ⟨left, ?_⟩
        dsimp only
        rw [hread]
        rfl

/-- `parseSwitch` goes on with the name it finds. -/
theorem parseSwitchIn_of_name {str : Text} {before : UInt8}
    (hname : switchName input pos stop nextString dest = some (str, before)) :
    ∃ following, ∀ sw, parseSwitchIn sw input pos stop nextString dest =
      (switchNamedIn sw input.tables str before).map fun (success, dest) =>
        (success, dest, following) := by
  rw [switchName] at hname
  split at hname
  · next hquote =>
      obtain ⟨content, hcontent, hpair⟩ := Option.map_eq_some_iff.mp hname
      cases hpair
      refine ⟨nextString + 1, fun sw => ?_⟩
      rw [parseSwitchIn, if_pos hquote, hcontent]
  · next hquote =>
      split at hname
      · cases hname
      · next hbyte =>
          cases hname
          rw [Option.not_isSome_iff_eq_none] at hbyte
          refine ⟨nextString, fun sw => ?_⟩
          rw [parseSwitchIn, if_neg hquote, hbyte]

theorem parseSwitchIn_of_no_name (hname : switchName input pos stop nextString dest = none)
    (sw other : List UInt8) :
    parseSwitchIn sw input pos stop nextString dest =
      parseSwitchIn other input pos stop nextString dest := by
  rw [switchName] at hname
  rw [parseSwitchIn, parseSwitchIn]
  split at hname
  · next hquote =>
      rw [Option.map_eq_none_iff] at hname
      rw [if_pos hquote, if_pos hquote, hname]
  · next hquote =>
      split at hname
      · next hbyte =>
          obtain ⟨byte, hread⟩ := Option.isSome_iff_exists.mp hbyte
          rw [if_neg hquote, if_neg hquote, hread]
      · cases hname

/-- `parseSwitch` depends on its input alone exactly when the names with blanks
that come to its array settle the outcome. -/
theorem dependsOnInput_iff (input : CompilerInput) (pos stop nextString : ℕ) (dest : UInt8) :
    DependsOnInput input pos stop nextString dest ↔ MeetsNames input pos stop nextString dest := by
  rw [DependsOnInput, MeetsNames]
  cases hname : switchName input pos stop nextString dest with
  | none =>
      exact iff_of_true (fun sw other _ _ => parseSwitchIn_of_no_name hname sw other) nofun
  | some found =>
      obtain ⟨str, before⟩ := found
      obtain ⟨following, hparse⟩ := parseSwitchIn_of_name hname
      have hinj : Function.Injective fun (result : Bool × UInt8) =>
          (result.1, result.2, following) := by
        rintro ⟨success, dest⟩ ⟨success', dest'⟩ heq
        cases heq
        rfl
      have hsame : ∀ sw other : List UInt8, parseSwitchIn sw input pos stop nextString dest =
              parseSwitchIn other input pos stop nextString dest ↔
            switchNamedIn sw input.tables str before =
              switchNamedIn other input.tables str before := by
        intro sw other
        rw [hparse, hparse]
        exact ⟨Fault.map_injective hinj, fun heq => by rw [heq]⟩
      simp only [hsame]
      rw [switchNamedIn_settled_iff]
      constructor
      · rintro hsettled str' before' heq
        cases heq
        exact hsettled
      · intro hmeets
        exact hmeets str before rfl

/-- A quoted `Switch 1` is switch 1 with one array and switch 15 with
another. -/
theorem switch_one_depends_on_array : ¬ DependsOnInput
      ⟨ascii "\"\"", [ascii "Switch 1"], ⟨[], [], [], [], []⟩, false, 0⟩
      0 2 0 0 := by
  intro hsame
  have heq := hsame (List.replicate 12 0) (List.replicate 12 53) (by decide) (by decide)
  cases heq

end Chkdraft.TextTrigs
