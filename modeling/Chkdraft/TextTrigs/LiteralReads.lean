import Chkdraft.TextTrigs.Parser

/-!
# Literals an argument reads

An argument that does not start with a quote is read without the literals.  One
that does is read with the next literal, and with no other one as long as the
first reader of the literal accepts it: each further reader would take the
literal behind.
-/

namespace Chkdraft.TextTrigs

open Chk Scan

def CompilerInput.withStrings (input : CompilerInput)
    (stringContents : List Text) : CompilerInput :=
  { input with stringContents := stringContents }

namespace Attempt

variable {A B : Type}

/-- The attempt comes to an end without a value. -/
def rejects (attempt : Attempt A) (nextString : ℕ) : Bool :=
  match attempt nextString with
  | .ok (none, _) => true
  | _ => false

theorem orElse_none (attempt : Attempt A) : attempt.orElse (ofOption none) = attempt := by
  funext nextString
  rw [orElse]
  split
  · rename_i following hrejects
    rw [hrejects]
    rfl
  · rfl

theorem none_orElse (attempt : Attempt A) : (ofOption none).orElse attempt = attempt := rfl

theorem orElse_of_not_rejects {first second : Attempt A} {nextString : ℕ}
    (hfirst : first.rejects nextString = false) :
    first.orElse second nextString = first nextString := by
  rw [orElse]
  split
  · rename_i following hrejects
    rw [rejects, hrejects] at hfirst
    cases hfirst
  · rfl

/-- What an attempt may read: the next literal if there is a quote, and else
none. -/
structure Reads (isQuoted : Prop) [Decidable isQuoted]
    (attempt : List Text → Attempt A) (stringContents : List Text)
    (nextString : ℕ) : Prop where
  congr : ∀ other : List Text, (isQuoted → other[nextString]? = stringContents[nextString]?) →
      attempt other nextString = attempt stringContents nextString
  following : ∀ value following, attempt stringContents nextString = .ok (some value, following) →
      following = nextString + if isQuoted then 1 else 0
  /-- Without a quote, an attempt that has no value leaves the literals to the
  attempt after it. -/
  unread : ¬ isQuoted → ∀ following,
    attempt stringContents nextString = .ok (none, following) → following = nextString

section Reads

variable {isQuoted : Prop} [Decidable isQuoted] {stringContents : List Text}
  {nextString : ℕ}

theorem reads_literal (hquoted : isQuoted) (read : Text → Except Hazard (Option A)) :
    Reads isQuoted (literal · read) stringContents nextString := by
  refine ⟨fun other hother => ?_, fun value following hvalue => ?_,
    fun hplain => absurd hquoted hplain⟩
  · simp only [literal, hother hquoted]
  · simp only [literal] at hvalue
    rw [if_pos hquoted]
    split at hvalue
    · obtain ⟨middle, -, hpair⟩ := Fault.map_eq_ok_iff.mp hvalue
      cases hpair
      rfl
    · cases hvalue

theorem reads_ofResult (hplain : ¬ isQuoted) (result : Except Hazard (Option A)) :
    Reads isQuoted (fun _ => ofResult result) stringContents nextString := by
  refine ⟨fun _ _ => rfl, fun value following hvalue => ?_, fun _ following hvalue => ?_⟩
  · obtain ⟨middle, -, hpair⟩ := Fault.map_eq_ok_iff.mp hvalue
    rw [if_neg hplain]
    exact (Prod.mk.inj hpair).2.symm
  · obtain ⟨middle, -, hpair⟩ := Fault.map_eq_ok_iff.mp hvalue
    exact (Prod.mk.inj hpair).2.symm

/-- A number reads no literal; a quoted argument is none. -/
theorem reads_ofOption {value : Option A} (hnumber : isQuoted → value = none) :
    Reads isQuoted (fun _ => ofOption value) stringContents nextString := by
  by_cases hquoted : isQuoted
  · rw [hnumber hquoted]
    refine ⟨fun _ _ => rfl, fun _ _ hvalue => ?_, fun hplain => absurd hquoted hplain⟩
    cases hvalue
  · exact reads_ofResult hquoted _

theorem Reads.of_eq {first second : List Text → Attempt A}
    (hreads : Reads isQuoted second stringContents nextString)
    (heq : ∀ contents, first contents = second contents) :
    Reads isQuoted first stringContents nextString := by
  rwa [funext heq]

theorem Reads.map {attempt : List Text → Attempt A} (change : A → B)
    (hreads : Reads isQuoted attempt stringContents nextString) :
    Reads isQuoted (fun contents => (attempt contents).map change) stringContents nextString := by
  refine ⟨fun other hother => ?_, fun value following hvalue => ?_,
    fun hplain following hvalue => ?_⟩
  · simp only [Attempt.map, hreads.congr other hother]
  · obtain ⟨⟨middle, next⟩, hmiddle, hpair⟩ := Fault.map_eq_ok_iff.mp hvalue
    obtain ⟨hsome, rfl⟩ := Prod.mk.inj hpair
    obtain ⟨source, rfl, -⟩ := Option.map_eq_some_iff.mp hsome
    exact hreads.following source _ hmiddle
  · obtain ⟨⟨middle, next⟩, hmiddle, hpair⟩ := Fault.map_eq_ok_iff.mp hvalue
    obtain ⟨hnone, rfl⟩ := Prod.mk.inj hpair
    rw [Option.map_eq_none_iff.mp hnone] at hmiddle
    exact hreads.unread hplain _ hmiddle

theorem Reads.filter {attempt : List Text → Attempt A} (accepts : A → Bool)
    (hreads : Reads isQuoted attempt stringContents nextString) :
    Reads isQuoted (fun contents => (attempt contents).filter accepts)
      stringContents nextString := by
  refine ⟨fun other hother => ?_, fun value following hvalue => ?_,
    fun hplain following hvalue => ?_⟩
  · simp only [Attempt.filter, hreads.congr other hother]
  · obtain ⟨⟨middle, next⟩, hmiddle, hpair⟩ := Fault.map_eq_ok_iff.mp hvalue
    obtain ⟨hsome, rfl⟩ := Prod.mk.inj hpair
    obtain ⟨rfl, -⟩ := Option.filter_eq_some_iff.mp hsome
    exact hreads.following value _ hmiddle
  · obtain ⟨⟨middle, next⟩, hmiddle, hpair⟩ := Fault.map_eq_ok_iff.mp hvalue
    obtain ⟨-, rfl⟩ := Prod.mk.inj hpair
    cases middle with
    | none => exact hreads.unread hplain _ hmiddle
    | some value =>
        rw [hreads.following value _ hmiddle, if_neg hplain, Nat.add_zero]

/-- Later readers do not matter if the first one accepts its literal. -/
theorem Reads.orElse {first second : List Text → Attempt A}
    (hfirst : Reads isQuoted first stringContents nextString)
    (hsecond : ¬ isQuoted → Reads isQuoted second stringContents nextString)
    (haccepts : isQuoted → (first stringContents).rejects nextString = false) :
    Reads isQuoted (fun contents => (first contents).orElse (second contents))
      stringContents nextString := by
  by_cases hrejects : (first stringContents).rejects nextString = false
  · have hsame : (first stringContents).orElse (second stringContents)
        nextString = first stringContents nextString :=
      orElse_of_not_rejects hrejects
    refine ⟨fun other hother => ?_, fun value following hvalue => ?_,
      fun hplain following hvalue => ?_⟩
    · have hcongr := hfirst.congr other hother
      rw [hsame, ← hcongr]
      apply orElse_of_not_rejects
      rwa [rejects, hcongr, ← rejects]
    · rw [hsame] at hvalue
      exact hfirst.following value following hvalue
    · rw [hsame] at hvalue
      exact hfirst.unread hplain following hvalue
  · have hplain : ¬ isQuoted := fun hquoted => hrejects (haccepts hquoted)
    have hnone : first stringContents nextString = .ok (none, nextString) := by
      rw [rejects] at hrejects
      split at hrejects
      · rename_i following hvalue
        rwa [hfirst.unread hplain following hvalue] at hvalue
      · exact absurd rfl hrejects
    have hreads := hsecond hplain
    have hnext : ∀ other, (isQuoted → other[nextString]? = stringContents[nextString]?) →
          (first other).orElse (second other) nextString = second other nextString := by
      intro other hother
      rw [Attempt.orElse, hfirst.congr other hother, hnone]
    refine ⟨fun other hother => ?_, ?_, ?_⟩
    · rw [hnext other hother, hnext stringContents fun _ => rfl]
      exact hreads.congr other hother
    · rw [hnext stringContents fun _ => rfl]
      exact hreads.following
    · rw [hnext stringContents fun _ => rfl]
      exact hreads.unread

theorem Reads.orElse_ofOption {first : List Text → Attempt A}
    {value : Option A}
    (hfirst : Reads isQuoted first stringContents nextString)
    (hnumber : isQuoted → value = none) :
    Reads isQuoted (fun contents => (first contents).orElse (ofOption value))
      stringContents nextString := by
  by_cases hquoted : isQuoted
  · simpa only [hnumber hquoted, orElse_none] using hfirst
  · exact hfirst.orElse (fun _ => reads_ofOption hnumber) fun hquote => absurd hquote hquoted

theorem Reads.ofOption_orElse {second : List Text → Attempt A}
    {value : Option A} (hnumber : isQuoted → value = none)
    (hsecond : Reads isQuoted second stringContents nextString) :
    Reads isQuoted (fun contents => (ofOption value).orElse (second contents))
      stringContents nextString := by
  by_cases hquoted : isQuoted
  · simpa only [hnumber hquoted, none_orElse] using hsecond
  · exact (reads_ofOption hnumber).orElse (fun _ => hsecond) fun hquote => absurd hquote hquoted

theorem rejects_map {attempt : Attempt A} {change : A → B} :
    (attempt.map change).rejects nextString = attempt.rejects nextString := by
  simp only [rejects, Attempt.map]
  match attempt nextString with
  | .ok (none, _) => rfl
  | .ok (some _, _) => rfl
  | .error _ => rfl

end Reads

end Attempt

section Readers

variable {A : Type} {input : CompilerInput} {pos stop nextString : ℕ}
  {stringContents : List Text}

section

variable {text : Text} (hquote : charAt text pos = quote)

include hquote

theorem parseNumber_quote {limit width : ℕ} : parseNumber limit width text pos stop = none := by
  have hdecimal : decimal (slice text pos stop) = 0 := by
    have hlt : pos < text.length := charAt_lt_of_ne_zero (by rw [hquote]; decide)
    rw [charAt_eq_getElem hlt] at hquote
    rw [slice, List.drop_eq_getElem_cons hlt, hquote]
    cases stop - pos with
    | zero => rfl
    | succ size =>
        have hfirst : untilNul ((quote :: text.drop (pos + 1)).take (size + 1)) =
            quote :: untilNul ((text.drop (pos + 1)).take size) := by
          rfl
        rw [decimal, numeral, hfirst]
        rfl
  have hdigit : charAt text pos ≠ 48 := by
    rw [hquote]
    decide
  rw [parseNumber, hdecimal]
  simp [hdigit, truncated]

theorem parseLong_quote : parseLong text pos stop = none := by
  rw [parseLong, parseNumber_quote hquote, Option.map_none]

theorem parseShort_quote : parseShort text pos stop = none := by
  rw [parseShort, parseNumber_quote hquote, Option.map_none]

theorem parseByte_quote : parseByte text pos stop = none := by
  rw [parseByte, parseNumber_quote hquote, Option.map_none]

theorem parseMemoryAddress_quote {deathTableOffset : UInt32} :
    parseMemoryAddress deathTableOffset text pos stop = none := by
  rw [parseMemoryAddress, parseLong_quote hquote, Option.map_none]

theorem slice_ne_of_quote {name : String} (hlt : pos < stop)
    (hname : (ascii name).head? ≠ some quote) :
    slice text pos stop ≠ ascii name := by
  have hpos : pos < text.length := charAt_lt_of_ne_zero (by rw [hquote]; decide)
  rintro heq
  apply hname
  rw [← heq, slice, List.drop_eq_getElem_cons hpos, ← charAt_eq_getElem hpos,
    hquote, List.head?_take, if_neg (by omega), List.head?_cons]

end

section

variable (input pos stop nextString stringContents)

theorem reads_parseName (read : Text → Except Hazard (Option A)) :
    Attempt.Reads (charAt input.text pos = quote) (fun contents =>
      parseName read (input.withStrings contents) pos stop)
      stringContents nextString := by
  by_cases hquote : charAt input.text pos = quote
  · exact (Attempt.reads_literal hquote read).of_eq fun _ => if_pos hquote
  · exact (Attempt.reads_ofResult hquote
      (read (slice input.text pos stop))).of_eq fun _ => if_neg hquote

theorem reads_parseNumberOrName (number : Option A) (read : Text → Except Hazard (Option A)) :
    Attempt.Reads (charAt input.text pos = quote) (fun contents =>
      parseNumberOrName number read (input.withStrings contents) pos stop)
      stringContents nextString := by
  by_cases hnumber : charAt input.text pos ≠ quote ∧ number.isSome
  · exact (Attempt.reads_ofResult hnumber.1 _).of_eq fun _ => if_pos hnumber
  · exact (reads_parseName input pos stop nextString stringContents
      read).of_eq fun _ => if_neg hnumber

end

theorem reads_parseKeyword {capacity : ℕ} {keywords : List (String × A)} :
    Attempt.Reads (charAt input.text pos = quote) (fun contents =>
      parseKeyword capacity keywords (input.withStrings contents) pos stop)
      stringContents nextString := reads_parseName _ _ _ _ _ _

theorem reads_parsePlayer : Attempt.Reads (charAt input.text pos = quote) (fun contents =>
      parsePlayer (input.withStrings contents) pos stop)
      stringContents nextString :=
  reads_parseNumberOrName _ _ _ _ _ (parseLong input.text pos stop) (groupNamed input.tables)

theorem reads_parseSwitch : Attempt.Reads (charAt input.text pos = quote) (fun contents =>
      parseSwitch (input.withStrings contents) pos stop)
      stringContents nextString :=
  reads_parseNumberOrName _ _ _ _ _ (parseByte input.text pos stop) (switchNamed input.tables)

theorem reads_parseUnitName : Attempt.Reads (charAt input.text pos = quote) (fun contents =>
      parseUnitName (input.withStrings contents) pos stop)
      stringContents nextString := by
  by_cases hshort : charAt input.text pos = quote ∧ stop - pos < 2
  · exact (Attempt.reads_ofOption fun _ => rfl).of_eq fun _ => if_pos hshort
  · exact (reads_parseNumberOrName _ _ _ _ _ (parseShort input.text pos stop)
      (unitNamed input.tables)).of_eq fun _ => if_neg hshort

section

variable (hquoted : charAt input.text pos = quote → pos < stop)

include hquoted

theorem reads_parseLocationName : Attempt.Reads (charAt input.text pos = quote) (fun contents =>
      parseLocationName (input.withStrings contents) pos stop)
      stringContents nextString := by
  by_cases hname : slice input.text pos stop = ascii "NOLOCATION"
  · have hplain : charAt input.text pos ≠ quote := fun hquote =>
      slice_ne_of_quote hquote (hquoted hquote) (by decide) hname
    exact (Attempt.reads_ofResult hplain (.ok (some 0))).of_eq fun _ => if_pos hname
  · by_cases hlt : pos < stop
    · exact (reads_parseNumberOrName _ _ _ _ _ (parseLong input.text pos stop)
        fun name => .ok (locationNamed input.tables name)).of_eq
          fun _ => (if_neg hname).trans (if_pos hlt)
    · exact (Attempt.reads_ofResult (fun hquote => hlt (hquoted hquote))
        (.ok (locationNamed input.tables (slice input.text pos stop)))).of_eq
          fun _ => (if_neg hname).trans (if_neg hlt)

theorem reads_parseScript : Attempt.Reads (charAt input.text pos = quote) (fun contents =>
      parseScript (input.withStrings contents) pos stop)
      stringContents nextString := by
  by_cases hname : slice input.text pos stop = ascii "NOSCRIPT"
  · have hplain : charAt input.text pos ≠ quote := fun hquote =>
      slice_ne_of_quote hquote (hquoted hquote) (by decide) hname
    exact (Attempt.reads_ofResult hplain (.ok (some 0))).of_eq fun _ => if_pos hname
  · exact (reads_parseName _ _ _ _ _ fun name => .ok (scriptNamed
      input.tables (charAt input.text pos = quote) name)).of_eq fun _ => if_neg hname

theorem reads_parseString : Attempt.Reads (charAt input.text pos = quote) (fun contents =>
      parseString (input.withStrings contents) pos stop)
      stringContents nextString := by
  by_cases hname : slice input.text pos stop = ascii "NOSTRING"
  · have hplain : charAt input.text pos ≠ quote := fun hquote =>
      slice_ne_of_quote hquote (hquoted hquote) (by decide) hname
    exact (Attempt.reads_ofResult hplain
      (.ok (some (StringReference.id 0)))).of_eq fun _ => if_pos hname
  · by_cases hquote : charAt input.text pos = quote
    · exact (Attempt.reads_literal hquote fun content =>
        .ok (some (.literal content))).of_eq fun _ =>
          (if_neg hname).trans (if_pos ⟨hquoted hquote, hquote⟩)
    · exact (Attempt.reads_ofResult hquote
        (.ok ((parseLong input.text pos stop).map .id))).of_eq fun _ =>
          (if_neg hname).trans (if_neg fun hboth => hquote hboth.2)

theorem reads_parseSoundName : Attempt.Reads (charAt input.text pos = quote) (fun contents =>
      parseSoundName (input.withStrings contents) pos stop)
      stringContents nextString := by
  by_cases hname : slice input.text pos stop = ascii "NOWAV"
  · have hplain : charAt input.text pos ≠ quote := fun hquote =>
      slice_ne_of_quote hquote (hquoted hquote) (by decide) hname
    exact (Attempt.reads_ofResult hplain
      (.ok (some (StringReference.id 0)))).of_eq fun _ => if_pos hname
  · exact (reads_parseString hquoted).of_eq fun _ => if_neg hname

end

end Readers

/-- If several readers could read a quoted argument of a condition, the first
one accepts its literal. -/
def conditionArgAccepted (input : CompilerInput) (argument : ConditionArgument)
    (pos stop nextString : ℕ) : Bool :=
  match argument with
  | .comparison =>
      !(parseNumericComparison input pos stop).rejects nextString
  | .typeIndex => !(parseResourceType input pos stop).rejects nextString
  | _ => true

/-- The same for an argument of an action. -/
def actionArgAccepted (input : CompilerInput) (argument : ActionArgument)
    (pos stop nextString : ℕ) : Bool :=
  match argument with
  | .number => !(parsePlayer input pos stop).rejects nextString
  | .typeIndex => !(parseUnitName input pos stop).rejects nextString
  | .secondaryTypeIndex => !(parseSwitchMod input pos stop).rejects nextString
  | _ => true

section Arguments

variable {input : CompilerInput} {pos stop nextString : ℕ}

theorem reads_parseMemoryOffset : Attempt.Reads (charAt input.text pos = quote) (fun contents =>
      let input := input.withStrings contents
      if input.useAddressesForMemory then
        Attempt.ofOption (parseMemoryAddress input.deathTableOffset input.text pos stop)
      else Attempt.ofOption (parseLong input.text pos stop))
      input.stringContents nextString := by
  cases haddresses : input.useAddressesForMemory with
  | true =>
      simp only [CompilerInput.withStrings, haddresses, if_true]
      exact Attempt.reads_ofOption fun hquote => parseMemoryAddress_quote hquote
  | false =>
      simp only [CompilerInput.withStrings, haddresses, Bool.false_eq_true, if_false]
      exact Attempt.reads_ofOption parseLong_quote

/-- An argument of a condition reads its own literal if it is quoted, and else
none. -/
theorem reads_parseConditionArg {argument : ConditionArgument}
    (hquoted : charAt input.text pos = quote → pos < stop ∧
      conditionArgAccepted input argument pos stop nextString = true)
    (condition : Condition) :
    Attempt.Reads (charAt input.text pos = quote) (fun stringContents => parseConditionArg
        (input.withStrings stringContents) argument pos stop condition)
      input.stringContents nextString := by
  have hlt := fun hquote => (hquoted hquote).1
  have haccepted := fun hquote => (hquoted hquote).2
  cases argument with
  | unit =>
      exact (reads_parseUnitName.orElse_ofOption parseShort_quote).map _
  | location =>
      exact ((reads_parseLocationName hlt).orElse_ofOption parseLong_quote).map _
  | player => exact (reads_parsePlayer.orElse_ofOption parseLong_quote).map _
  | switch => exact (reads_parseSwitch.orElse_ofOption parseByte_quote).map _
  | numericComparison | resource | score | switchState =>
      exact (reads_parseKeyword.orElse_ofOption parseByte_quote).map _
  | comparison =>
      exact (Attempt.Reads.ofOption_orElse parseByte_quote
        (reads_parseKeyword.orElse (fun _ => reads_parseKeyword)
          fun hquote => (Bool.not_eq_true' _).mp (haccepted hquote))).map _
  | typeIndex =>
      exact (Attempt.Reads.ofOption_orElse parseByte_quote (reads_parseKeyword.orElse (fun hplain =>
          reads_parseKeyword.orElse (fun _ => reads_parseSwitch) fun hquote => absurd hquote hplain)
          fun hquote => (Bool.not_eq_true' _).mp (haccepted hquote))).map _
  | amount => exact (Attempt.reads_ofOption parseLong_quote).map _
  | conditionType | flags =>
      exact (Attempt.reads_ofOption parseByte_quote).map _
  | maskFlag => exact (Attempt.reads_ofOption parseShort_quote).map _
  | memoryOffset => exact reads_parseMemoryOffset.map _

/-- An argument of an action reads its own literal if it is quoted, and else
none. -/
theorem reads_parseActionArg {argument : ActionArgument}
    (hquoted : charAt input.text pos = quote → pos < stop ∧
      actionArgAccepted input argument pos stop nextString = true)
    (action : Action) :
    Attempt.Reads (charAt input.text pos = quote) (fun stringContents => parseActionArg
        (input.withStrings stringContents) argument pos stop action)
      input.stringContents nextString := by
  have hlt := fun hquote => (hquoted hquote).1
  have haccepted := fun hquote => (hquoted hquote).2
  have hstring : charAt input.text pos = quote →
      (parseLong input.text pos stop).map StringReference.id = none :=
    fun hquote => by rw [parseLong_quote hquote, Option.map_none]
  cases argument with
  | location | secondaryLocation =>
      exact ((reads_parseLocationName hlt).orElse_ofOption parseLong_quote).map _
  | string =>
      exact ((reads_parseString hlt).orElse_ofOption hstring).map _
  | sound =>
      exact ((reads_parseSoundName hlt).orElse_ofOption hstring).map _
  | player | destPlayer =>
      exact (reads_parsePlayer.orElse_ofOption parseLong_quote).map _
  | unit =>
      exact (reads_parseUnitName.orElse_ofOption parseShort_quote).map _
  | script =>
      exact ((reads_parseScript hlt).orElse_ofOption parseLong_quote).map _
  | switch =>
      exact ((reads_parseSwitch.map _).orElse_ofOption parseLong_quote).map _
  | numUnits | stateMod | order | numericMod | switchMod =>
      exact (reads_parseKeyword.orElse_ofOption parseByte_quote).map _
  | allyState =>
      exact (reads_parseKeyword.orElse_ofOption parseShort_quote).map _
  | score | resource =>
      exact ((reads_parseKeyword.map _).orElse_ofOption parseShort_quote).map _
  | textFlags | flags =>
      exact ((reads_parseKeyword.map _).orElse_ofOption parseByte_quote).map _
  | number =>
      exact (reads_parsePlayer.orElse (fun hplain =>
        (reads_parseLocationName hlt).orElse (fun _ =>
          (reads_parseScript hlt).orElse (fun _ =>
            (reads_parseSwitch.map _).orElse_ofOption parseLong_quote)
            fun hquote => absurd hquote hplain)
          fun hquote => absurd hquote hplain)
        fun hquote => (Bool.not_eq_true' _).mp (haccepted hquote)).map _
  | typeIndex =>
      exact (reads_parseUnitName.orElse (fun hplain =>
        (reads_parseKeyword.map _).orElse (fun _ =>
          (reads_parseKeyword.map _).orElse (fun _ =>
            reads_parseKeyword.orElse_ofOption parseShort_quote)
            fun hquote => absurd hquote hplain)
          fun hquote => absurd hquote hplain)
        fun hquote => (Bool.not_eq_true' _).mp (haccepted hquote)).map _
  | secondaryTypeIndex =>
      exact (reads_parseKeyword.orElse (fun hplain =>
        reads_parseKeyword.orElse (fun _ =>
          reads_parseKeyword.orElse (fun _ =>
            reads_parseKeyword.orElse_ofOption parseByte_quote)
            fun hquote => absurd hquote hplain)
          fun hquote => absurd hquote hplain)
        fun hquote => (Bool.not_eq_true' _).mp (haccepted hquote)).map _
  | unitQuantity | actionType | padding =>
      exact (Attempt.reads_ofOption parseByte_quote).map _
  | cuwp | percent | amount | duration =>
      exact (Attempt.reads_ofOption parseLong_quote).map _
  | maskFlag => exact (Attempt.reads_ofOption parseShort_quote).map _
  | memoryOffset => exact reads_parseMemoryOffset.map _

end Arguments

/-- If there is a colon anywhere behind a player, the player in front of it is
an owner. -/
def playerAccepted (input : CompilerInput) (pos nextString : ℕ) : Bool :=
  match find input.text 58 pos with
  | some separator =>
      !((parsePlayer input pos separator).filter fun group =>
        decide (group.toNat < maxOwners)).rejects nextString
  | none => true

/-- A player reads its own literal if it is quoted, and else none. -/
theorem reads_parseExecutingPlayer {input : CompilerInput}
    {pos stop nextString : ℕ} (hquoted : charAt input.text pos = quote →
      playerAccepted input pos nextString = true) :
    Attempt.Reads (charAt input.text pos = quote) (fun stringContents => parseExecutingPlayer
        (input.withStrings stringContents) pos stop)
      input.stringContents nextString := by
  have hfind : ∀ contents, find (input.withStrings contents).text 58 pos = find input.text 58 pos :=
    fun _ => rfl
  simp only [parseExecutingPlayer, hfind]
  cases hseparator : find input.text 58 pos with
  | none => exact (reads_parsePlayer.filter _).map _
  | some separator =>
      refine ((reads_parsePlayer.filter _).map
        (·, (parseByte input.text (separator + 1) stop).getD 1)).orElse
          (fun _ => (reads_parsePlayer.filter _).map _) fun hquote => ?_
      have haccepted := hquoted hquote
      rw [playerAccepted, hseparator] at haccepted
      rw [Attempt.rejects_map]
      exact (Bool.not_eq_true' _).mp haccepted

end Chkdraft.TextTrigs
