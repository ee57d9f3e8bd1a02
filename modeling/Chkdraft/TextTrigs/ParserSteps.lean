import Chkdraft.TextTrigs.Parser

/-!
# What a pass of the parser can do

Each part either moves the cursor only or makes one change to the parsed
triggers.  `PartStep` lists the changes together with the expectations between
which they happen, and every invariant of the parser is proved along it.  Since
a part moves the cursor forward and the text ends with a NUL, the loop ends.
-/

namespace Chkdraft.TextTrigs

open Chk Scan Scenario

variable {text : Text} {argIndex found pos : ℕ} {character : UInt8}
  {message : String}

/-- The text of a parser run: a cleaned text with a NUL behind it. -/
def EndsWithNul (text : Text) : Prop := ∃ body, text = body ++ [0]

theorem EndsWithNul.lt_of_charAt (hnul : EndsWithNul text)
    (hchar : charAt text pos ≠ 0) : pos + 1 < text.length := by
  obtain ⟨body, rfl⟩ := hnul
  have hlt := charAt_lt_of_ne_zero hchar
  rw [List.length_append, List.length_singleton] at hlt ⊢
  by_contra hle
  have hpos : pos = body.length := by omega
  rw [hpos, charAt_append_of_le (Nat.le_refl _)] at hchar
  simp [charAt] at hchar

theorem EndsWithNul.lt_of_find (hnul : EndsWithNul text) (hcharacter : character ≠ 0)
    (hfind : find text character pos = some found) :
    pos ≤ found ∧ found + 1 < text.length := by
  obtain ⟨hle, -, hchar⟩ := find_spec hfind
  exact ⟨hle, hnul.lt_of_charAt (hchar ▸ hcharacter)⟩

theorem EndsWithNul.lt_of_continuesWith (hnul : EndsWithNul text)
    {name : String} (hname : continuesWith text pos name = true)
    (hzero : 0 ∉ ascii name) (hempty : 0 < name.length) :
    pos + name.length < text.length := by
  rw [continuesWith, List.isPrefixOf_iff_prefix] at hname
  have hlast : charAt text (pos + (name.length - 1)) ≠ 0 := by
    have hlength : (ascii name).length = name.length := by
      rw [ascii, List.length_map, String.length_toList]
    have hindex : name.length - 1 < (ascii name).length := by omega
    have hget := hname.getElem hindex
    have hbound := hname.length_le
    rw [List.length_drop] at hbound
    rw [List.getElem_drop] at hget
    rw [charAt, List.getD_eq_getElem _ _ (by omega), ← hget]
    intro heq
    exact hzero (heq ▸ List.getElem_mem hindex)
  have hlt := hnul.lt_of_charAt hlast
  omega

/-- The characters the parser steps over one by one. -/
def marks : List UInt8 := [40, 41, 58, 59, 123, 125]

def keywords : List String :=
  ["TRIGGER(", "TRIGGER", "CONDITIONS:", "CONDITIONS", "ACTIONS:", "ACTIONS",
    "FLAGS:", "FLAGS"]

theorem ne_zero_of_mem_marks (hmark : character ∈ marks) : character ≠ 0 := by
  rintro rfl
  exact absurd hmark (by decide)

theorem nul_not_mem_of_mem_keywords {name : String} (hkeyword : name ∈ keywords) :
    0 ∉ ascii name ∧ 0 < name.length := by
  have hall : ∀ name ∈ keywords, 0 ∉ ascii name ∧ 0 < name.length := by
    decide
  exact hall name hkeyword

theorem Stop.ofHazard_eq_ok_iff {A : Type} {result : Except Hazard A}
    {value : A} : Stop.ofHazard result = .ok value ↔ result = .ok value :=
  Fault.mapError_eq_ok_iff

theorem Stop.ofHazard_bind_eq_ok_iff {A B : Type} {result : Except Hazard A}
    {rest : A → Except Stop B} {value : B} :
    (Stop.ofHazard result >>= rest) = .ok value ↔
      ∃ middle, result = .ok middle ∧ rest middle = .ok value := by
  rw [Fault.bind_eq_ok_iff]
  simp only [Stop.ofHazard_eq_ok_iff]

namespace Cursor

variable {text : Text} {cursor following : Cursor}

@[simp]
theorem fail_ne_ok {A : Type} {value : A} : cursor.fail message ≠ .ok value := by
  simp [fail]

@[simp]
theorem pos_advance (count : ℕ) (expecting : Expecting) :
    (cursor.advance count expecting).pos = cursor.pos + count := rfl

theorem stepOver_eq_ok_iff {expecting : Expecting} :
    cursor.stepOver text character message expecting = .ok following ↔
      charAt text cursor.pos = character ∧ following = cursor.advance 1 expecting := by
  by_cases hchar : charAt text cursor.pos = character
  · simp [stepOver, hchar, eq_comm]
  · simp [stepOver, hchar]

/-- The cursor moves on, and it stands behind the text only in front of a
trigger or among its players. -/
def Moves (text : Text) (cursor following : Cursor) : Prop :=
  cursor.pos < following.pos ∧ (following.pos < text.length ∨
      following.expecting = .triggerOrEndOfText ∨
      following.expecting = .playerOrEndOfPlayers)

/-- Over marks, keywords and line ends, in any order. -/
inductive Passes (text : Text) (cursor : Cursor) : Cursor → Prop where
  | start : Passes text cursor cursor
  | mark {middle : Cursor} (hpasses : Passes text cursor middle)
      (hmark : charAt text middle.pos ∈ marks) (expecting : Expecting) :
      Passes text cursor (middle.advance 1 expecting)
  | keyword {middle : Cursor} {name : String}
      (hpasses : Passes text cursor middle)
      (hname : continuesWith text middle.pos name = true)
      (hkeyword : name ∈ keywords) (expecting : Expecting) :
      Passes text cursor (middle.advance name.length expecting)
  | newlines {middle : Cursor} (hpasses : Passes text cursor middle) :
      Passes text cursor (middle.skipNewlines text)

theorem Passes.le (hpasses : cursor.Passes text following) : cursor.pos ≤ following.pos := by
  induction hpasses with
  | start => exact Nat.le_refl _
  | mark _ _ _ ih => exact Nat.le_trans ih (Nat.le_add_right _ _)
  | keyword _ _ _ _ ih => exact Nat.le_trans ih (Nat.le_add_right _ _)
  | newlines _ ih => exact Nat.le_trans ih (Nat.le_add_right _ _)

/-- The last of these steps is over a mark or a keyword. -/
inductive StepsOver (text : Text) (cursor : Cursor) : Cursor → Prop where
  | mark {middle : Cursor} (hpasses : cursor.Passes text middle)
      (hmark : charAt text middle.pos ∈ marks) (expecting : Expecting) :
      StepsOver text cursor (middle.advance 1 expecting)
  | keyword {middle : Cursor} {name : String}
      (hpasses : cursor.Passes text middle)
      (hname : continuesWith text middle.pos name = true)
      (hkeyword : name ∈ keywords) (expecting : Expecting) :
      StepsOver text cursor (middle.advance name.length expecting)

namespace StepsOver

theorem passes (hsteps : cursor.StepsOver text following) : cursor.Passes text following := by
  cases hsteps with
  | mark hpasses hmark expecting => exact hpasses.mark hmark expecting
  | keyword hpasses hname hkeyword expecting =>
      exact hpasses.keyword hname hkeyword expecting

theorem moves (hnul : EndsWithNul text)
    (hsteps : cursor.StepsOver text following) : cursor.Moves text following := by
  cases hsteps with
  | mark hpasses hmark expecting =>
      exact ⟨Nat.lt_succ_of_le hpasses.le, .inl (hnul.lt_of_charAt (ne_zero_of_mem_marks hmark))⟩
  | keyword hpasses hname hkeyword expecting =>
      obtain ⟨hzero, hempty⟩ := nul_not_mem_of_mem_keywords hkeyword
      exact ⟨Nat.lt_of_le_of_lt hpasses.le (Nat.lt_add_of_pos_right hempty),
        .inl (hnul.lt_of_continuesWith hname hzero hempty)⟩

theorem of_stepOver {middle : Cursor} (hpasses : cursor.Passes text middle)
    {expecting : Expecting} (hmark : character ∈ marks)
    (hstep : middle.stepOver text character message expecting = .ok following) :
    cursor.StepsOver text following ∧ following.expecting = expecting := by
  obtain ⟨rfl, rfl⟩ := stepOver_eq_ok_iff.mp hstep
  exact ⟨.mark hpasses hmark expecting, rfl⟩

end StepsOver

end Cursor

namespace Expecting

/-- The states in which the current trigger has no actions yet. -/
def beforeActions : Expecting → Bool
  | .triggerOrEndOfText | .playerOrEndOfPlayers | .openTriggerBody
  | .sectionStartOrEndOfTrigger | .conditionStartOrNonConditionSectionStart
  | .conditionArgOrEndOfCondition _ _
  | .nonConditionSectionStartOrEndOfTrigger => true
  | _ => false

/-- Where the cursor may go without a change of the parsed triggers: never to
the arguments of an action, nor back in front of the actions, nor into a
trigger. -/
def leadsTo : Expecting → Expecting → Bool
  | _, .actionArgOrEndOfAction _ _ => false
  | .triggerOrEndOfText, _ => false
  | current, following => !following.beforeActions || current.beforeActions

theorem beforeActions_of_leadsTo {current following : Expecting}
    (hleads : current.leadsTo following = true)
    (hbefore : following.beforeActions = true) :
    current.beforeActions = true := by
  unfold leadsTo at hleads
  split at hleads
  · cases hleads
  · rfl
  · simpa [hbefore] using hleads

end Expecting

/-- What a part can do. -/
inductive PartStep (input : CompilerInput) : ParserState → ParserState → Prop
    where
  | moves {cursor following : Cursor} {parsed : Parsed}
      (hleads : following.expecting = cursor.expecting ∨
        cursor.expecting.leadsTo following.expecting = true) :
      PartStep input (cursor, parsed) (following, parsed)
  | begins {cursor following : Cursor} {parsed : Parsed}
      (hcurrent : cursor.expecting = .triggerOrEndOfText)
      (hfollowing : following.expecting.beforeActions = true) :
      PartStep input (cursor, parsed) (following, parsed.beginTrigger)
  | owner {cursor following : Cursor} {parsed : Parsed} {group : ℕ}
      {owned : UInt8} (hcurrent : cursor.expecting.beforeActions = true)
      (hfollowing : following.expecting.beforeActions = true)
      (hinside : cursor.expecting ≠ .triggerOrEndOfText) :
      PartStep input (cursor, parsed) (following, parsed.setOwner group owned)
  | condition {cursor following : Cursor} {parsed added : Parsed}
      {conditionId : VirtualCondition} {stateFlags : UInt8}
      (hcurrent : cursor.expecting.beforeActions = true)
      (hfollowing : following.expecting.beforeActions = true)
      (hadded : parsed.addCondition conditionId stateFlags = .ok added)
      (hinside : cursor.expecting ≠ .triggerOrEndOfText) :
      PartStep input (cursor, parsed) (following, added)
  | conditionArg {cursor following : Cursor} {parsed : Parsed}
      {condition : Condition} (hcurrent : cursor.expecting.beforeActions = true)
      (hfollowing : following.expecting.beforeActions = true)
      (hinside : cursor.expecting ≠ .triggerOrEndOfText) :
      PartStep input (cursor, parsed) (following, parsed.setCondition condition)
  | action {cursor following : Cursor} {parsed added : Parsed}
      {actionId : VirtualAction} {stateFlags : UInt8}
      (hcurrent : cursor.expecting = .actionStartOrFlagSectionStartOrEndOfTrigger)
      (hfollowing : following.expecting = .actionArgOrEndOfAction actionId 0)
      (hadded : parsed.addAction actionId stateFlags = .ok added) :
      PartStep input (cursor, parsed) (following, added)
  | actionArg {cursor following : Cursor} {parsed : Parsed}
      {actionId : VirtualAction} {argIndex : ℕ} {argument : ActionArgument}
      {argEnd nextString : ℕ} {effect : ActionEffect}
      (hcurrent : cursor.expecting = .actionArgOrEndOfAction actionId argIndex)
      (hfollowing : following.expecting = .actionArgOrEndOfAction actionId (argIndex + 1))
      (hargument : actionId.textArguments[argIndex]? = some argument)
      (heffect : parseActionArg input argument cursor.pos argEnd
        parsed.currAction cursor.nextString = .ok (some effect, nextString)) :
      PartStep input (cursor, parsed) (following, parsed.applyEffect effect)
  | flags {cursor following : Cursor} {parsed : Parsed} {flags : UInt32}
      (hfollowing : following.expecting = .endOfTrigger)
      (hinside : cursor.expecting ≠ .triggerOrEndOfText) :
      PartStep input (cursor, parsed) (following, parsed.setFlags flags)
  | finishes {cursor following : Cursor} {parsed : Parsed}
      (hfollowing : following.expecting = .triggerOrEndOfText) :
      PartStep input (cursor, parsed) (following, parsed.finishTrigger)

/-- The cursor moves on and the parsed triggers stay as they are. -/
def Cursor.GoesOn (text : Text) (cursor following : Cursor) : Prop :=
  cursor.Moves text following ∧ cursor.expecting.leadsTo following.expecting = true

namespace Cursor.GoesOn

variable {text : Text} {cursor following : Cursor}

theorem of_steps (hnul : EndsWithNul text) (hsteps : cursor.StepsOver text following ∧
      cursor.expecting.leadsTo following.expecting = true) :
    cursor.GoesOn text following :=
  ⟨hsteps.1.moves hnul, hsteps.2⟩

theorem step {input : CompilerInput} (hgoes : cursor.GoesOn text following) (parsed : Parsed) :
    cursor.Moves text following ∧ PartStep input (cursor, parsed) (following, parsed) :=
  ⟨hgoes.1, .moves (.inr hgoes.2)⟩

end Cursor.GoesOn

/-- A result that goes on stepped over a mark or a keyword to where it may
lead. -/
def Cursor.LeadsOver (text : Text) (cursor : Cursor) (result : Except Stop Cursor) : Prop :=
  ∀ following, result = .ok following → cursor.StepsOver text following ∧
    cursor.expecting.leadsTo following.expecting = true

namespace Cursor.LeadsOver

variable {text : Text} {cursor : Cursor} {expecting : Expecting}

theorem fail : cursor.LeadsOver text (cursor.fail message) :=
  fun _ hresult => absurd hresult fail_ne_ok

theorem ite {condition : Prop} [Decidable condition]
    {first second : Except Stop Cursor}
    (hfirst : condition → cursor.LeadsOver text first)
    (hsecond : ¬ condition → cursor.LeadsOver text second) :
    cursor.LeadsOver text (if condition then first else second) := by
  split
  · next hyes => exact hfirst hyes
  · next hno => exact hsecond hno

theorem mark (hchar : charAt text cursor.pos = character) (hmark : character ∈ marks)
    (hleads : cursor.expecting.leadsTo expecting = true) :
    cursor.LeadsOver text (.ok (cursor.advance 1 expecting)) := by
  intro following hresult
  cases hresult
  exact ⟨.mark .start (hchar ▸ hmark) _, hleads⟩

theorem keyword {name : String} (hname : continuesWith text cursor.pos name = true)
    (hkeyword : name ∈ keywords)
    (hleads : cursor.expecting.leadsTo expecting = true) :
    cursor.LeadsOver text (.ok (cursor.advance name.length expecting)) := by
  intro following hresult
  cases hresult
  exact ⟨.keyword .start hname hkeyword _, hleads⟩

theorem stepOver {middle : Cursor} (hpasses : cursor.Passes text middle) (hmark : character ∈ marks)
    (hleads : cursor.expecting.leadsTo expecting = true) :
    cursor.LeadsOver text (middle.stepOver text character message expecting) := by
  intro following hresult
  obtain ⟨hsteps, rfl⟩ := StepsOver.of_stepOver hpasses hmark hresult
  exact ⟨hsteps, hleads⟩

/-- The parsed triggers stay as they are. -/
theorem pair {result : Except Stop Cursor}
    (hleads : cursor.LeadsOver text result) {parsed changed : Parsed}
    {following : Cursor}
    (hresult : result.map (·, parsed) = .ok (following, changed)) :
    (cursor.StepsOver text following ∧ cursor.expecting.leadsTo following.expecting = true) ∧
      changed = parsed := by
  obtain ⟨moved, hmoved, hpair⟩ := Fault.map_eq_ok_iff.mp hresult
  cases hpair
  exact ⟨hleads following hmoved, rfl⟩

end Cursor.LeadsOver

/-- The name of a condition the parser reads next. -/
def conditionNameAt (text : Text) (cursor : Cursor) : Option (ℕ × ℕ) :=
  if charAt text cursor.pos = 59 then
    let start := ((cursor.advance 1 cursor.expecting).skipNewlines text).pos
    (find text 40 start).map fun found => (start, found)
  else if charAt text cursor.pos = 125 ∨
      continuesWith text cursor.pos "ACTIONS" = true ∨
      continuesWith text cursor.pos "FLAGS" = true then
    none
  else
    (find text 40 cursor.pos).map fun found =>
      (cursor.pos, min found (lineEnd text cursor.pos))

/-- The name of an action the parser reads next. -/
def actionNameAt (text : Text) (cursor : Cursor) : Option (ℕ × ℕ) :=
  if charAt text cursor.pos = 59 then
    (find text 40 (cursor.pos + 1)).map fun found =>
      (cursor.pos + 1, min found (lineEnd text (cursor.pos + 1)))
  else if charAt text cursor.pos = 125 ∨
      continuesWith text cursor.pos "FLAGS" = true then
    none
  else
    (find text 40 cursor.pos).map fun found =>
      (cursor.pos, min found (lineEnd text cursor.pos))

/-- The argument the parser reads next, up to its comma or parenthesis. -/
def argumentAt {A : Type} (text : Text) (arguments : List A) (argIndex : ℕ)
    (cursor : Cursor) : Option (A × ℕ) :=
  if charAt text cursor.pos = 41 then
    none
  else
    arguments[argIndex]?.bind fun argument =>
      (find text (if arguments.length ≤ argIndex + 1 then 41 else 44)
        cursor.pos).map fun argEnd => (argument, argEnd)

section Spans

variable {text : Text} {cursor : Cursor} {start stop : ℕ}

theorem le_lineEnd {text : Text} (hpos : pos ≤ text.length) : pos ≤ lineEnd text pos := by
  rw [lineEnd]
  cases hfind : find text newline pos with
  | none => exact hpos
  | some found => exact (find_spec hfind).1

/-- A span that ends at a character that is looked for, or with its line. -/
theorem min_lineEnd_spec (hle : pos ≤ found) (hlt : found < text.length) :
    pos ≤ min found (lineEnd text pos) ∧ min found (lineEnd text pos) < text.length ∧
      (charAt text (min found (lineEnd text pos)) = charAt text found ∨
        charAt text (min found (lineEnd text pos)) = newline) := by
  refine ⟨le_min hle (le_lineEnd (by omega)), Nat.lt_of_le_of_lt (Nat.min_le_left _ _) hlt, ?_⟩
  rcases Nat.le_total found (lineEnd text pos) with hfirst | hfirst
  · rw [Nat.min_eq_left hfirst]
    exact .inl rfl
  · rw [Nat.min_eq_right hfirst]
    rw [lineEnd] at hfirst ⊢
    cases hfind : find text newline pos with
    | some line => exact .inr (find_spec hfind).2.2
    | none =>
        rw [hfind, Option.getD_none] at hfirst
        omega

theorem findNext_spec {terminator : UInt8}
    (hfound : findNext text pos character terminator = some found) :
    pos ≤ found ∧ found < text.length ∧ charAt text found = character := by
  rw [findNext, Option.filter_eq_some_iff, Option.map_eq_some_iff, decide_eq_true_eq] at hfound
  obtain ⟨⟨index, hindex, rfl⟩, hchar⟩ := hfound
  obtain ⟨hlt, -⟩ := List.findIdx?_eq_some_iff_getElem.mp hindex
  rw [List.length_drop] at hlt
  exact ⟨Nat.le_add_left _ _, by omega, hchar⟩

/-- A player ends at a comma or a parenthesis, or with its line. -/
theorem playerEnd_spec (hstop : playerEnd text pos = some stop) :
    pos ≤ stop ∧ stop < text.length ∧ charAt text stop ∈ [44, 41, newline] := by
  rw [playerEnd, Option.map_eq_some_iff] at hstop
  obtain ⟨found, hor, rfl⟩ := hstop
  have hfound : pos ≤ found ∧ found < text.length ∧
      (charAt text found = 44 ∨ charAt text found = 41) := by
    rw [Option.orElse_eq_some] at hor
    rcases hor with hcomma | ⟨-, hparen⟩
    · obtain ⟨hle, hlt, hchar⟩ := findNext_spec hcomma
      exact ⟨hle, hlt, .inl hchar⟩
    · obtain ⟨hle, hlt, hchar⟩ := findNext_spec hparen
      exact ⟨hle, hlt, .inr hchar⟩
  obtain ⟨hle, hlt, hchar⟩ := hfound
  obtain ⟨hstart, hstop, hend⟩ := min_lineEnd_spec hle hlt
  refine ⟨hstart, hstop, ?_⟩
  simp only [List.mem_cons, List.not_mem_nil, or_false]
  rcases hend with hend | hend
  · rw [hend]
    rcases hchar with hchar | hchar
    · exact .inl hchar
    · exact .inr (.inl hchar)
  · exact .inr (.inr hend)

theorem conditionNameAt_spec (hname : conditionNameAt text cursor = some (start, stop)) :
    cursor.pos ≤ start ∧ start ≤ stop ∧ stop < text.length := by
  rw [conditionNameAt] at hname
  split at hname
  · obtain ⟨found, hfind, heq⟩ := Option.map_eq_some_iff.mp hname
    cases heq
    obtain ⟨hle, hlt, -⟩ := find_spec hfind
    exact ⟨Nat.le_trans (Nat.le_succ _) (Nat.le_add_right _ _), hle, hlt⟩
  · split at hname
    · cases hname
    · obtain ⟨found, hfind, heq⟩ := Option.map_eq_some_iff.mp hname
      cases heq
      obtain ⟨hle, hlt, -⟩ := find_spec hfind
      obtain ⟨hstart, hstop, -⟩ := min_lineEnd_spec hle hlt
      exact ⟨Nat.le_refl _, hstart, hstop⟩

theorem actionNameAt_spec (hname : actionNameAt text cursor = some (start, stop)) :
    cursor.pos ≤ start ∧ start ≤ stop ∧ stop < text.length ∧ charAt text stop ∈ [40, newline] := by
  have hspan : ∀ {pos found : ℕ}, find text 40 pos = some found →
      pos ≤ min found (lineEnd text pos) ∧ min found (lineEnd text pos) < text.length ∧
        charAt text (min found (lineEnd text pos)) ∈ [40, newline] := by
    intro pos found hfind
    obtain ⟨hle, hlt, hchar⟩ := find_spec hfind
    obtain ⟨hstart, hstop, hend⟩ := min_lineEnd_spec hle hlt
    rw [hchar] at hend
    exact ⟨hstart, hstop, by simpa using hend⟩
  rw [actionNameAt] at hname
  split at hname
  · obtain ⟨found, hfind, heq⟩ := Option.map_eq_some_iff.mp hname
    cases heq
    exact ⟨Nat.le_succ _, hspan hfind⟩
  · split at hname
    · cases hname
    · obtain ⟨found, hfind, heq⟩ := Option.map_eq_some_iff.mp hname
      cases heq
      exact ⟨Nat.le_refl _, hspan hfind⟩

theorem argumentAt_eq_some_iff {A : Type} {arguments : List A} {argument : A}
    {argEnd : ℕ} :
    argumentAt text arguments argIndex cursor = some (argument, argEnd) ↔
      charAt text cursor.pos ≠ 41 ∧ arguments[argIndex]? = some argument ∧
        find text (if arguments.length ≤ argIndex + 1 then 41 else 44)
          cursor.pos = some argEnd := by
  rw [argumentAt]
  by_cases hchar : charAt text cursor.pos = 41
  · simp [hchar]
  · rw [if_neg hchar, and_iff_right hchar]
    constructor
    · intro hbind
      obtain ⟨found, hargument, hmap⟩ := Option.bind_eq_some_iff.mp hbind
      obtain ⟨stop, hfind, hpair⟩ := Option.map_eq_some_iff.mp hmap
      cases hpair
      exact ⟨hargument, hfind⟩
    · rintro ⟨hargument, hfind⟩
      rw [hargument, Option.bind_some, hfind, Option.map_some]

/-- Where the parser goes on behind an argument. -/
def Cursor.behindArgument (cursor : Cursor) {A : Type} (arguments : List A)
    (argIndex argEnd nextString : ℕ) (expecting : Expecting) : Cursor :=
  { cursor with
    pos := if arguments.length ≤ argIndex + 1 then argEnd else argEnd + 1
    nextString := nextString
    expecting := expecting }

/-- The end of an argument lies behind its start: the parenthesis that ends the
list was handled before. -/
theorem Cursor.moves_behindArgument (hnul : EndsWithNul text) {A : Type}
    {arguments : List A} {argument : A} {argEnd : ℕ}
    (hargument : argumentAt text arguments argIndex cursor =
      some (argument, argEnd)) (nextString : ℕ) (expecting : Expecting) :
    cursor.Moves text (cursor.behindArgument arguments argIndex argEnd nextString expecting) := by
  obtain ⟨hchar, -, hfind⟩ := argumentAt_eq_some_iff.mp hargument
  obtain ⟨hle, hlt⟩ := hnul.lt_of_find (by split <;> decide) hfind
  rw [Moves, behindArgument]
  by_cases hlast : arguments.length ≤ argIndex + 1
  · simp only [if_pos hlast] at hfind ⊢
    have hne : cursor.pos ≠ argEnd := by
      intro heq
      exact hchar (heq ▸ (find_spec hfind).2.2)
    exact ⟨by omega, .inl (by omega)⟩
  · simp only [if_neg hlast]
    exact ⟨Nat.lt_succ_of_le hle, .inl hlt⟩

end Spans

/-! ## The parts one by one -/

section Parts

variable {input : CompilerInput} {text : Text} {cursor following : Cursor}
  {parsed changed : Parsed}

/-- Only the end of the text is stepped over besides keywords. -/
theorem parsePartZero_cases (hpart : parsePartZero text cursor parsed = .ok (following, changed)) :
    changed = parsed.beginTrigger ∧ (cursor.StepsOver text following ∧
          following.expecting = .playerOrEndOfPlayers ∨
        charAt text cursor.pos = 0 ∧ following = cursor.advance 1 cursor.expecting) := by
  simp only [parsePartZero, Fault.map_eq_ok_iff] at hpart
  obtain ⟨middle, hmiddle, hpart⟩ := hpart
  cases hpart
  refine ⟨rfl, ?_⟩
  split at hmiddle
  · rename_i hname
    cases hmiddle
    exact .inl ⟨.keyword .start hname (by decide) _, rfl⟩
  · split at hmiddle
    · rename_i hname
      exact .inl (Cursor.StepsOver.of_stepOver
        (.newlines (.keyword .start hname (by decide) _)) (by decide) hmiddle)
    · exact .inr (Cursor.stepOver_eq_ok_iff.mp hmiddle)

theorem parsePartZero_spec (hnul : EndsWithNul input.text)
    (hcurrent : cursor.expecting = .triggerOrEndOfText)
    (hpart : parsePartZero input.text cursor parsed = .ok (following, changed)) :
    cursor.Moves input.text following ∧ PartStep input (cursor, parsed) (following, changed) := by
  obtain ⟨rfl, hcursor⟩ := parsePartZero_cases hpart
  rcases hcursor with ⟨hsteps, hexpecting⟩ | ⟨-, rfl⟩
  · exact ⟨hsteps.moves hnul, .begins hcurrent (by rw [hexpecting]; rfl)⟩
  · rw [hcurrent]
    exact ⟨⟨Nat.lt_succ_self _, .inr (.inl rfl)⟩, .begins hcurrent rfl⟩

/-- Behind a player: over line ends and one more character. -/
def Cursor.behindPlayer (text : Text) (cursor : Cursor) : Cursor :=
  (cursor.skipNewlines text).advance 1
    (if charAt text (cursor.skipNewlines text).pos = 41 then .openTriggerBody
      else cursor.expecting)

theorem parsePartOne_cases (hpart : parsePartOne input cursor parsed = .ok (following, changed)) :
    charAt input.text cursor.pos = 41 ∧
      following = cursor.advance 1 .openTriggerBody ∧ changed = parsed ∨
    charAt input.text cursor.pos ≠ 41 ∧ ∃ stop group owned nextString,
      playerEnd input.text cursor.pos = some stop ∧
      parseExecutingPlayer input cursor.pos stop cursor.nextString =
        .ok (some (group, owned), nextString) ∧
      following = Cursor.behindPlayer input.text
        { cursor with pos := stop, nextString := nextString } ∧
      changed = parsed.setOwner group.toNat owned := by
  rw [parsePartOne] at hpart
  split at hpart
  · rename_i hchar
    cases hpart
    exact .inl ⟨hchar, rfl, rfl⟩
  · rename_i hchar
    split at hpart
    · exact absurd hpart Cursor.fail_ne_ok
    · rename_i stop hstop
      rw [Stop.ofHazard_bind_eq_ok_iff] at hpart
      obtain ⟨⟨player, nextString⟩, hplayer, hpart⟩ := hpart
      cases player with
      | none => exact absurd hpart Cursor.fail_ne_ok
      | some player =>
          obtain ⟨group, owned⟩ := player
          cases hpart
          exact .inr ⟨hchar, stop, group, owned, nextString, hstop, hplayer,
            rfl, rfl⟩

theorem parsePartOne_spec (hnul : EndsWithNul input.text)
    (hcurrent : cursor.expecting = .playerOrEndOfPlayers)
    (hpart : parsePartOne input cursor parsed = .ok (following, changed)) :
    cursor.Moves input.text following ∧ PartStep input (cursor, parsed) (following, changed) := by
  have hbefore : cursor.expecting.beforeActions = true := by rw [hcurrent]; rfl
  have hinside : cursor.expecting ≠ .triggerOrEndOfText := by simp [hcurrent]
  rcases parsePartOne_cases hpart with
    ⟨hchar, rfl, rfl⟩ | ⟨-, stop, group, owned, nextString, hstop, -, rfl, rfl⟩
  · exact (Cursor.GoesOn.of_steps hnul ⟨.mark .start (by rw [hchar]; decide) .openTriggerBody,
        by rw [hcurrent]; rfl⟩).step _
  · have hle : cursor.pos ≤ (Cursor.skipNewlines input.text
        { cursor with pos := stop, nextString := nextString }).pos :=
      Nat.le_trans (playerEnd_spec hstop).1 (Nat.le_add_right _ _)
    -- The character stepped over may be the NUL, but then players are still
    -- expected.
    rw [Cursor.behindPlayer]
    generalize Cursor.skipNewlines input.text
      { cursor with pos := stop, nextString := nextString } = moved at hle
    by_cases hchar : charAt input.text moved.pos = 41
    · have hlt := hnul.lt_of_charAt (hchar ▸ (by decide : (41 : UInt8) ≠ 0))
      rw [if_pos hchar]
      exact ⟨⟨Nat.lt_succ_of_le hle, .inl hlt⟩, .owner hbefore rfl hinside⟩
    · rw [if_neg hchar]
      exact ⟨⟨Nat.lt_succ_of_le hle, .inr (.inr hcurrent)⟩, .owner hbefore hbefore hinside⟩

theorem leadsOver_parsePartTwo (hcurrent : cursor.expecting = .openTriggerBody) :
    cursor.LeadsOver text (parsePartTwo text cursor) :=
  .stepOver .start (by decide) (by rw [hcurrent]; rfl)

theorem leadsOver_parsePartThree (hcurrent : cursor.expecting = .sectionStartOrEndOfTrigger) :
    cursor.LeadsOver text (parsePartThree text cursor) := by
  rw [parsePartThree]
  refine .ite (fun hname => ?_) fun _ => .ite (fun hname => ?_) fun _ =>
    .ite (fun hname => ?_) fun _ => .ite (fun hchar => ?_) fun _ =>
      .ite (fun hname => ?_) fun _ => .ite (fun hname => ?_) fun _ => .fail
  · exact .keyword hname (by decide) (by rw [hcurrent]; rfl)
  · exact .keyword hname (by decide) (by rw [hcurrent]; rfl)
  · exact .keyword hname (by decide) (by rw [hcurrent]; rfl)
  · exact .mark hchar (by decide) (by rw [hcurrent]; rfl)
  · exact .stepOver (.newlines (.keyword .start hname (by decide) _))
      (by decide) (by rw [hcurrent]; rfl)
  · exact .stepOver (.newlines (.keyword .start hname (by decide) _))
      (by decide) (by rw [hcurrent]; rfl)

theorem beginCondition_cases {conditionEnd : ℕ} {stateFlags : UInt8}
    (hpart : beginCondition text cursor parsed conditionEnd stateFlags = .ok (following, changed)) :
    ∃ conditionId, parseCondition text cursor.pos conditionEnd = .ok (some conditionId) ∧
      parsed.addCondition conditionId stateFlags = .ok changed ∧
      charAt text (Cursor.skipNewlines text
        { cursor with pos := conditionEnd }).pos = 40 ∧
      following = (Cursor.skipNewlines text
        { cursor with pos := conditionEnd }).advance 1
          (.conditionArgOrEndOfCondition conditionId 0) := by
  rw [beginCondition, Stop.ofHazard_bind_eq_ok_iff] at hpart
  obtain ⟨name, hname, hpart⟩ := hpart
  cases name with
  | none => exact absurd hpart Cursor.fail_ne_ok
  | some conditionId =>
      simp only at hpart
      split at hpart
      · exact absurd hpart Cursor.fail_ne_ok
      · rw [Fault.bind_eq_ok_iff] at hpart
        obtain ⟨added, hadded, hpart⟩ := hpart
        obtain ⟨moved, hmoved, hpair⟩ := Fault.map_eq_ok_iff.mp hpart
        cases hpair
        exact ⟨conditionId, hname, Fault.mapError_eq_ok_iff.mp hadded,
          Cursor.stepOver_eq_ok_iff.mp hmoved⟩

/-- The cursor steps on to what comes next, or a condition begins. -/
theorem parsePartFour_cases
    (hcurrent : cursor.expecting = .conditionStartOrNonConditionSectionStart)
    (hpart : parsePartFour text cursor parsed = .ok (following, changed)) :
    (cursor.StepsOver text following ∧ cursor.expecting.leadsTo following.expecting = true) ∧
      changed = parsed ∨
    ∃ start conditionEnd stateFlags, cursor.Passes text start ∧
      conditionNameAt text cursor = some (start.pos, conditionEnd) ∧
      beginCondition text start parsed conditionEnd stateFlags = .ok (following, changed) := by
  simp only [parsePartFour] at hpart
  rw [conditionNameAt]
  split at hpart
  case isTrue hchar =>
    have hmoved : cursor.Passes text ((cursor.advance 1 cursor.expecting).skipNewlines text) :=
      .newlines (.mark .start (by rw [hchar]; decide) _)
    rw [if_pos hchar]
    split at hpart
    · rename_i conditionEnd hfind
      exact .inr ⟨_, conditionEnd, _, hmoved,
        Option.map_eq_some_iff.mpr ⟨conditionEnd, hfind, rfl⟩, hpart⟩
    · exact absurd hpart Cursor.fail_ne_ok
  rename_i hsemicolon
  rw [if_neg hsemicolon]
  split at hpart
  case isTrue hchar =>
    exact .inl (Cursor.LeadsOver.pair (.mark hchar (by decide) (by rw [hcurrent]; rfl)) hpart)
  rename_i hbrace
  split at hpart
  case isTrue hname =>
    exact .inl (Cursor.LeadsOver.pair
      (.stepOver (.newlines (.keyword .start hname (by decide) _)) (by decide)
        (by rw [hcurrent]; rfl)) hpart)
  rename_i hactions
  split at hpart
  case isTrue hname =>
    exact .inl (Cursor.LeadsOver.pair (.stepOver (.keyword .start hname (by decide) _) (by decide)
        (by rw [hcurrent]; rfl)) hpart)
  rename_i hflags
  rw [if_neg (by simp [hbrace, hactions, hflags])]
  split at hpart
  · rename_i found hfind
    exact .inr ⟨cursor, _, _, .start, Option.map_eq_some_iff.mpr ⟨found, hfind, rfl⟩, hpart⟩
  · exact absurd hpart Cursor.fail_ne_ok

theorem parsePartFour_spec (hnul : EndsWithNul input.text)
    (hcurrent : cursor.expecting = .conditionStartOrNonConditionSectionStart)
    (hpart : parsePartFour input.text cursor parsed = .ok (following, changed)) :
    cursor.Moves input.text following ∧ PartStep input (cursor, parsed) (following, changed) := by
  rcases parsePartFour_cases hcurrent hpart with
    ⟨hsteps, rfl⟩ | ⟨start, conditionEnd, stateFlags, -, hname, hbegin⟩
  · exact (Cursor.GoesOn.of_steps hnul hsteps).step _
  · obtain ⟨hstart, hstop, -⟩ := conditionNameAt_spec hname
    obtain ⟨conditionId, -, hadded, hchar, rfl⟩ := beginCondition_cases hbegin
    have hlt := hnul.lt_of_charAt (hchar ▸ (by decide : (40 : UInt8) ≠ 0))
    have hle : cursor.pos ≤ (Cursor.skipNewlines input.text
        { start with pos := conditionEnd }).pos :=
      Nat.le_trans (Nat.le_trans hstart hstop) (Nat.le_add_right _ _)
    exact ⟨⟨Nat.lt_succ_of_le hle, .inl hlt⟩,
      .condition (by rw [hcurrent]; rfl) rfl hadded (by simp [hcurrent])⟩

theorem parsePartFive_cases {conditionId : VirtualCondition} (hcurrent :
      cursor.expecting = .conditionArgOrEndOfCondition conditionId argIndex)
    (hpart : parsePartFive input conditionId argIndex cursor parsed = .ok (following, changed)) :
    (cursor.StepsOver input.text following ∧ cursor.expecting.leadsTo following.expecting = true) ∧
      changed = parsed ∨
    ∃ argument argEnd condition nextString,
      argumentAt input.text conditionId.textArguments argIndex cursor = some (argument, argEnd) ∧
      parseConditionArg input argument cursor.pos argEnd parsed.currCondition
        cursor.nextString = .ok (some condition, nextString) ∧
      following = cursor.behindArgument conditionId.textArguments argIndex argEnd nextString
        (.conditionArgOrEndOfCondition conditionId (argIndex + 1)) ∧
      changed = parsed.setCondition condition := by
  simp only [parsePartFive, decide_eq_true_eq] at hpart
  split at hpart
  case isTrue hchar =>
    split at hpart
    · exact absurd hpart Cursor.fail_ne_ok
    · exact .inl (Cursor.LeadsOver.pair
        (.stepOver (.newlines (.mark .start (by rw [hchar]; decide) _))
          (by decide) (by rw [hcurrent]; rfl)) hpart)
  case isFalse hchar =>
    split at hpart
    · exact absurd hpart Cursor.fail_ne_ok
    · rename_i argument hargument
      split at hpart
      · exact absurd hpart Cursor.fail_ne_ok
      · rename_i argEnd hfind
        rw [Stop.ofHazard_bind_eq_ok_iff] at hpart
        obtain ⟨⟨condition, nextString⟩, hcondition, hpart⟩ := hpart
        cases condition with
        | none => exact absurd hpart Cursor.fail_ne_ok
        | some condition =>
            cases hpart
            exact .inr ⟨argument, argEnd, condition, nextString,
              argumentAt_eq_some_iff.mpr ⟨hchar, hargument, hfind⟩, hcondition,
              rfl, rfl⟩

theorem parsePartFive_spec (hnul : EndsWithNul input.text)
    {conditionId : VirtualCondition}
    (hcurrent : cursor.expecting = .conditionArgOrEndOfCondition conditionId argIndex)
    (hpart : parsePartFive input conditionId argIndex cursor parsed = .ok (following, changed)) :
    cursor.Moves input.text following ∧ PartStep input (cursor, parsed) (following, changed) := by
  rcases parsePartFive_cases hcurrent hpart with
    ⟨hsteps, rfl⟩ | ⟨argument, argEnd, condition, nextString, hargument, -,
      rfl, rfl⟩
  · exact (Cursor.GoesOn.of_steps hnul hsteps).step _
  · exact ⟨Cursor.moves_behindArgument hnul hargument _ _,
      .conditionArg (by rw [hcurrent]; rfl) rfl (by simp [hcurrent])⟩

theorem leadsOver_parsePartSix
    (hcurrent : cursor.expecting = .nonConditionSectionStartOrEndOfTrigger) :
    cursor.LeadsOver text (parsePartSix text cursor) := by
  rw [parsePartSix]
  refine .ite (fun hchar => ?_) fun _ => .ite (fun hname => ?_) fun _ =>
    .ite (fun hname => ?_) fun _ => .ite (fun _ => .fail) fun _ => .fail
  · exact .mark hchar (by decide) (by rw [hcurrent]; rfl)
  · exact .keyword hname (by decide) (by rw [hcurrent]; rfl)
  · exact .keyword hname (by decide) (by rw [hcurrent]; rfl)

theorem beginAction_cases {actionEnd : ℕ} {stateFlags : UInt8}
    (hpart : beginAction text cursor parsed actionEnd stateFlags = .ok (following, changed)) :
    ∃ actionId, parseAction text cursor.pos actionEnd = .ok (some actionId) ∧
      parsed.addAction actionId stateFlags = .ok changed ∧
      following =
        { cursor with
          pos := actionEnd + 1
          expecting := .actionArgOrEndOfAction actionId 0 } := by
  rw [beginAction, Stop.ofHazard_bind_eq_ok_iff] at hpart
  obtain ⟨name, hname, hpart⟩ := hpart
  cases name with
  | none => exact absurd hpart Cursor.fail_ne_ok
  | some actionId =>
      simp only at hpart
      split at hpart
      · exact absurd hpart Cursor.fail_ne_ok
      · rw [Fault.bind_eq_ok_iff] at hpart
        obtain ⟨added, hadded, hpart⟩ := hpart
        cases hpart
        exact ⟨actionId, hname, Fault.mapError_eq_ok_iff.mp hadded, rfl⟩

/-- The cursor steps on to what comes next, or an action begins. -/
theorem parsePartSeven_cases (hcurrent :
      cursor.expecting = .actionStartOrFlagSectionStartOrEndOfTrigger)
    (hpart : parsePartSeven text cursor parsed = .ok (following, changed)) :
    (cursor.StepsOver text following ∧ cursor.expecting.leadsTo following.expecting = true) ∧
      changed = parsed ∨
    ∃ start actionEnd stateFlags, cursor.Passes text start ∧
      actionNameAt text cursor = some (start.pos, actionEnd) ∧
      beginAction text start parsed actionEnd stateFlags = .ok (following, changed) := by
  simp only [parsePartSeven, Cursor.pos_advance] at hpart
  rw [actionNameAt]
  split at hpart
  case isTrue hchar =>
    have hmark : charAt text cursor.pos ∈ marks := by rw [hchar]; decide
    rw [if_pos hchar]
    split at hpart
    · rename_i found hfind
      exact .inr ⟨_, _, _, .mark .start hmark _,
        Option.map_eq_some_iff.mpr ⟨found, hfind, rfl⟩, hpart⟩
    · exact .inl (Cursor.LeadsOver.pair (.mark hchar (by decide) (by rw [hcurrent]; rfl)) hpart)
  rename_i hsemicolon
  rw [if_neg hsemicolon]
  split at hpart
  case isTrue hchar =>
    exact .inl (Cursor.LeadsOver.pair (.mark hchar (by decide) (by rw [hcurrent]; rfl)) hpart)
  rename_i hbrace
  split at hpart
  case isTrue hname =>
    exact .inl (Cursor.LeadsOver.pair (.stepOver (.keyword .start hname (by decide) _) (by decide)
        (by rw [hcurrent]; rfl)) hpart)
  rename_i hflags
  rw [if_neg (by simp [hbrace, hflags])]
  split at hpart
  · rename_i found hfind
    exact .inr ⟨cursor, _, _, .start, Option.map_eq_some_iff.mpr ⟨found, hfind, rfl⟩, hpart⟩
  · exact absurd hpart Cursor.fail_ne_ok

theorem parsePartSeven_spec (hnul : EndsWithNul input.text) (hcurrent :
      cursor.expecting = .actionStartOrFlagSectionStartOrEndOfTrigger)
    (hpart : parsePartSeven input.text cursor parsed = .ok (following, changed)) :
    cursor.Moves input.text following ∧ PartStep input (cursor, parsed) (following, changed) := by
  rcases parsePartSeven_cases hcurrent hpart with
    ⟨hsteps, rfl⟩ | ⟨start, actionEnd, stateFlags, -, hname, hbegin⟩
  · exact (Cursor.GoesOn.of_steps hnul hsteps).step _
  · obtain ⟨hstart, hstop, -, hend⟩ := actionNameAt_spec hname
    obtain ⟨actionId, -, hadded, rfl⟩ := beginAction_cases hbegin
    have hlt : actionEnd + 1 < input.text.length := by
      apply hnul.lt_of_charAt
      intro hzero
      rw [hzero] at hend
      exact absurd hend (by decide)
    exact ⟨⟨Nat.lt_succ_of_le (Nat.le_trans hstart hstop), .inl hlt⟩, .action hcurrent rfl hadded⟩

theorem parsePartEight_cases {actionId : VirtualAction}
    (hcurrent : cursor.expecting = .actionArgOrEndOfAction actionId argIndex)
    (hpart : parsePartEight input actionId argIndex cursor parsed = .ok (following, changed)) :
    (cursor.StepsOver input.text following ∧ cursor.expecting.leadsTo following.expecting = true) ∧
      changed = parsed ∨
    ∃ argument argEnd effect nextString,
      argumentAt input.text actionId.textArguments argIndex cursor = some (argument, argEnd) ∧
      parseActionArg input argument cursor.pos argEnd parsed.currAction
        cursor.nextString = .ok (some effect, nextString) ∧
      following = cursor.behindArgument actionId.textArguments argIndex argEnd
        nextString (.actionArgOrEndOfAction actionId (argIndex + 1)) ∧
      changed = parsed.applyEffect effect := by
  simp only [parsePartEight, decide_eq_true_eq] at hpart
  split at hpart
  case isTrue hchar =>
    split at hpart
    · exact absurd hpart Cursor.fail_ne_ok
    · exact .inl (Cursor.LeadsOver.pair
        (.stepOver (.newlines (.mark .start (by rw [hchar]; decide) _))
          (by decide) (by rw [hcurrent]; rfl)) hpart)
  case isFalse hchar =>
    split at hpart
    · exact absurd hpart Cursor.fail_ne_ok
    · rename_i argument hargument
      split at hpart
      · exact absurd hpart Cursor.fail_ne_ok
      · rename_i argEnd hfind
        rw [Stop.ofHazard_bind_eq_ok_iff] at hpart
        obtain ⟨⟨effect, nextString⟩, heffect, hpart⟩ := hpart
        cases effect with
        | none => exact absurd hpart Cursor.fail_ne_ok
        | some effect =>
            cases hpart
            exact .inr ⟨argument, argEnd, effect, nextString,
              argumentAt_eq_some_iff.mpr ⟨hchar, hargument, hfind⟩, heffect,
              rfl, rfl⟩

theorem parsePartEight_spec (hnul : EndsWithNul input.text)
    {actionId : VirtualAction}
    (hcurrent : cursor.expecting = .actionArgOrEndOfAction actionId argIndex)
    (hpart : parsePartEight input actionId argIndex cursor parsed = .ok (following, changed)) :
    cursor.Moves input.text following ∧ PartStep input (cursor, parsed) (following, changed) := by
  rcases parsePartEight_cases hcurrent hpart with
    ⟨hsteps, rfl⟩ | ⟨argument, argEnd, effect, nextString, hargument, heffect,
      rfl, rfl⟩
  · exact (Cursor.GoesOn.of_steps hnul hsteps).step _
  · exact ⟨Cursor.moves_behindArgument hnul hargument _ _, .actionArg hcurrent
      rfl (argumentAt_eq_some_iff.mp hargument).2.1 heffect⟩

theorem leadsOver_parsePartNine (hcurrent : cursor.expecting = .flagSectionStartOrEndOfTrigger) :
    cursor.LeadsOver text (parsePartNine text cursor) := by
  rw [parsePartNine]
  refine .ite (fun hchar => ?_) fun _ => .ite (fun hname => ?_) fun _ =>
    .ite (fun _ => .fail) fun _ => .fail
  · exact .mark hchar (by decide) (by rw [hcurrent]; rfl)
  · exact .keyword hname (by decide) (by rw [hcurrent]; rfl)

theorem parsePartTen_cases (hpart : parsePartTen text cursor parsed = .ok (following, changed)) :
    charAt text cursor.pos = 59 ∧ following = cursor.advance 1 .endOfTrigger ∧ changed = parsed ∨
    charAt text cursor.pos ≠ 59 ∧ ∃ flagsEnd flags, find text 59 cursor.pos = some flagsEnd ∧
      parseExecutionFlags text cursor.pos flagsEnd = .ok (some flags) ∧
      following =
        { cursor with pos := flagsEnd + 1, expecting := .endOfTrigger } ∧
      changed = parsed.setFlags flags := by
  rw [parsePartTen] at hpart
  split at hpart
  case isTrue hchar =>
    cases hpart
    exact .inl ⟨hchar, rfl, rfl⟩
  case isFalse hchar =>
    split at hpart
    · exact absurd hpart Cursor.fail_ne_ok
    · rename_i flagsEnd hfind
      rw [Stop.ofHazard_bind_eq_ok_iff] at hpart
      obtain ⟨flags, hflags, hpart⟩ := hpart
      cases flags with
      | none => exact absurd hpart Cursor.fail_ne_ok
      | some flags =>
          cases hpart
          exact .inr ⟨hchar, flagsEnd, flags, hfind, hflags, rfl, rfl⟩

theorem parsePartTen_spec (hnul : EndsWithNul input.text)
    (hcurrent : cursor.expecting = .executionFlags)
    (hpart : parsePartTen input.text cursor parsed = .ok (following, changed)) :
    cursor.Moves input.text following ∧ PartStep input (cursor, parsed) (following, changed) := by
  rcases parsePartTen_cases hpart with
    ⟨hchar, rfl, rfl⟩ | ⟨-, flagsEnd, flags, hfind, -, rfl, rfl⟩
  · exact (Cursor.GoesOn.of_steps hnul
      ⟨.mark .start (by rw [hchar]; decide) .endOfTrigger, by rw [hcurrent]; rfl⟩).step _
  · obtain ⟨hle, hlt⟩ := hnul.lt_of_find (by decide) hfind
    exact ⟨⟨Nat.lt_succ_of_le hle, .inl hlt⟩, .flags rfl (by simp [hcurrent])⟩

theorem leadsOver_parsePartEleven (hcurrent : cursor.expecting = .endOfTrigger) :
    cursor.LeadsOver text (parsePartEleven text cursor) :=
  .stepOver .start (by decide) (by rw [hcurrent]; rfl)

/-- Every part makes a step, and all but the end of a trigger move on. -/
theorem parsePart_spec (hnul : EndsWithNul input.text)
    (hpart : parsePart input (cursor, parsed) = .ok (following, changed)) :
    (cursor.Moves input.text following ∨ cursor.expecting = .last ∧ following.pos = cursor.pos ∧
        following.expecting = .triggerOrEndOfText) ∧
      PartStep input (cursor, parsed) (following, changed) := by
  have hmap : ∀ {result : Except Stop Cursor}, cursor.LeadsOver input.text result →
      result.map (·, parsed) = .ok (following, changed) →
      cursor.Moves input.text following ∧ PartStep input (cursor, parsed) (following, changed) := by
    intro result hleads hresult
    obtain ⟨hsteps, rfl⟩ := hleads.pair hresult
    exact (Cursor.GoesOn.of_steps hnul hsteps).step _
  have hor : cursor.Moves input.text following ∧
        PartStep input (cursor, parsed) (following, changed) →
      (cursor.Moves input.text following ∨ cursor.expecting = .last ∧ following.pos = cursor.pos ∧
          following.expecting = .triggerOrEndOfText) ∧
        PartStep input (cursor, parsed) (following, changed) :=
    fun ⟨hmoves, hstep⟩ => ⟨.inl hmoves, hstep⟩
  rw [parsePart] at hpart
  simp only at hpart
  split at hpart
  case h_1 hcurrent => exact hor (parsePartZero_spec hnul hcurrent hpart)
  case h_2 hcurrent => exact hor (parsePartOne_spec hnul hcurrent hpart)
  case h_3 hcurrent =>
    exact hor (hmap (leadsOver_parsePartTwo hcurrent) hpart)
  case h_4 hcurrent =>
    exact hor (hmap (leadsOver_parsePartThree hcurrent) hpart)
  case h_5 hcurrent => exact hor (parsePartFour_spec hnul hcurrent hpart)
  case h_6 conditionId argIndex hcurrent =>
    exact hor (parsePartFive_spec hnul hcurrent hpart)
  case h_7 hcurrent =>
    exact hor (hmap (leadsOver_parsePartSix hcurrent) hpart)
  case h_8 hcurrent => exact hor (parsePartSeven_spec hnul hcurrent hpart)
  case h_9 actionId argIndex hcurrent =>
    exact hor (parsePartEight_spec hnul hcurrent hpart)
  case h_10 hcurrent =>
    exact hor (hmap (leadsOver_parsePartNine hcurrent) hpart)
  case h_11 hcurrent => exact hor (parsePartTen_spec hnul hcurrent hpart)
  case h_12 hcurrent =>
    exact hor (hmap (leadsOver_parsePartEleven hcurrent) hpart)
  case h_13 hcurrent =>
    cases hpart
    exact ⟨.inr ⟨hcurrent, rfl, rfl⟩, .finishes rfl⟩

end Parts

section Run

variable {input : CompilerInput} {state following : ParserState}

/-- A pass that is followed by another one goes over a line end or reads a
part. -/
theorem parsePass_next_cases {cursor : Cursor} {parsed : Parsed}
    (hpass : parsePass input (cursor, parsed) = .next following) :
    cursor.pos < input.text.length ∧ (charAt input.text cursor.pos = newline ∧ following =
          ({ cursor with pos := cursor.pos + 1, line := cursor.line + 1 }, parsed) ∨
        charAt input.text cursor.pos ≠ newline ∧
          parsePart input (cursor, parsed) = .ok following) := by
  rw [parsePass] at hpass
  split at hpass
  case isFalse => cases hpass
  case isTrue hpos =>
    refine ⟨hpos, ?_⟩
    split at hpass
    case isTrue hchar =>
      cases hpass
      exact .inl ⟨hchar, rfl⟩
    case isFalse hchar =>
      split at hpass
      · cases hpass
      · rename_i changed hpart
        split at hpass
        · cases hpass
        · cases hpass
          exact .inr ⟨hchar, hpart⟩

theorem parsePass_next (hnul : EndsWithNul input.text)
    (hpass : parsePass input state = .next following) :
    (state.1.Moves input.text following.1 ∨
      state.1.expecting = .last ∧ following.1.pos = state.1.pos ∧
        following.1.expecting = .triggerOrEndOfText) ∧
      state.1.pos < input.text.length ∧ PartStep input state following := by
  obtain ⟨cursor, parsed⟩ := state
  obtain ⟨hpos, ⟨hchar, rfl⟩ | ⟨-, hpart⟩⟩ := parsePass_next_cases hpass
  · have hlt := hnul.lt_of_charAt (hchar ▸ (by decide : newline ≠ 0))
    exact ⟨.inl ⟨Nat.lt_succ_self _, .inl hlt⟩, hpos, .moves (.inl rfl)⟩
  · obtain ⟨hmoves, hstep⟩ := parsePart_spec hnul hpart
    exact ⟨hmoves, hpos, hstep⟩

theorem parsePass_done {parsed : Parsed} (hpass : parsePass input state = .done (.ok parsed)) :
    input.text.length ≤ state.1.pos ∧ parsed = state.2 ∨
      state.1.expecting = .last ∧ parsed = state.2.finishTrigger := by
  obtain ⟨cursor, current⟩ := state
  rw [parsePass] at hpass
  split at hpass
  case isFalse hpos =>
    cases hpass
    exact .inl ⟨Nat.le_of_not_lt hpos, rfl⟩
  case isTrue =>
    split at hpass
    case isTrue => cases hpass
    case isFalse =>
      split at hpass
      · cases hpass
      · rename_i changed hpart
        split at hpass
        · rename_i hlast
          cases hpass
          simp only [parsePart, hlast.1] at hpart
          cases hpart
          exact .inr ⟨hlast.1, rfl⟩
        · cases hpass

theorem parsePass_error_iff {stop : Stop} :
    parsePass input state = .done (.error stop) ↔ state.1.pos < input.text.length ∧
        charAt input.text state.1.pos ≠ newline ∧
        parsePart input state = .error stop := by
  obtain ⟨cursor, parsed⟩ := state
  simp only [parsePass]
  by_cases hpos : cursor.pos < input.text.length
  · by_cases hchar : charAt input.text cursor.pos = newline
    · simp [hpos, hchar]
    · simp only [hpos, hchar, if_true, if_false, ne_eq, not_false_eq_true, true_and]
      cases parsePart input (cursor, parsed) with
      | error stop => simp
      | ok following =>
          simp only [reduceCtorEq, iff_false]
          intro hpass
          split at hpass <;> cases hpass
  · simp [hpos]

/-- Passes left: the rest of the text, and the pass that ends a trigger. -/
def passesLeft (text : Text) (cursor : Cursor) : ℕ :=
  2 * (text.length - cursor.pos) + if cursor.expecting = .last then 1 else 0

section

variable (hnul : EndsWithNul input.text)

include hnul

theorem passesLeft_lt (hpass : parsePass input state = .next following) :
    passesLeft input.text following.1 < passesLeft input.text state.1 := by
  obtain ⟨hmoves, hpos, -⟩ := parsePass_next hnul hpass
  simp only [passesLeft]
  rcases hmoves with ⟨hlt, -⟩ | ⟨hlast, hsame, hafter⟩
  · have hone : (if following.1.expecting = .last then 1 else 0) ≤ 1 := by
      split <;> omega
    omega
  · rw [if_pos hlast, hafter, hsame]
    simp

/-- The fuel of `parseTriggers` is enough: it computes what the loop of the
source leaves with. -/
theorem parseTriggers_eq_iff (nodes : List StringTableNode) (result : Except Stop Parsed) :
    parseTriggers input nodes = result ↔
      Loop.Returns (parsePass input) (.start, .start nodes) result := by
  have henough : Loop.run (parsePass input) (2 * input.text.length + 2)
      (.start, .start nodes) ≠ none := by
    apply @Loop.run_ne_none_of_measure _ _ _ (fun _ => True)
      (fun state => passesLeft input.text state.1)
    · intro state following _ hpass
      exact ⟨trivial, passesLeft_lt hnul hpass⟩
    · trivial
    · simp [passesLeft, Cursor.start]
  obtain ⟨value, hvalue⟩ := Option.ne_none_iff_exists'.mp henough
  rw [parseTriggers, hvalue, Option.getD_some]
  constructor
  · rintro rfl
    exact ⟨_, hvalue⟩
  · intro hreturns
    exact Loop.Returns.unique ⟨_, hvalue⟩ hreturns

theorem partStep_invariant {start : ParserState} {Inv : ParserState → Prop}
    (hreaches : Loop.Reaches (parsePass input) start state)
    (hstart : Inv start)
    (hstep : ∀ state following, Inv state → PartStep input state following →
      Inv following) : Inv state :=
  hreaches.invariant hstart fun state following hinv hpass =>
    hstep state following hinv (parsePass_next hnul hpass).2.2

/-- The cursor stands behind the text only in front of a trigger or among its
players. -/
theorem beforeActions_of_end {nodes : List StringTableNode}
    (hreaches : Loop.Reaches (parsePass input) (.start, .start nodes) state)
    (hend : input.text.length ≤ state.1.pos) :
    state.1.expecting.beforeActions = true := by
  have hinv : state.1.pos < input.text.length ∨ state.1.expecting.beforeActions = true := by
    apply hreaches.invariant (.inr rfl)
    intro current following _ hpass
    rcases (parsePass_next hnul hpass).1 with
      ⟨-, hlt | heq | heq⟩ | ⟨-, -, heq⟩
    · exact .inl hlt
    all_goals exact .inr (by rw [heq]; rfl)
  exact hinv.resolve_left (Nat.not_lt.mpr hend)

/-- The triggers of a run are those of a state between triggers. -/
theorem parseTriggers_invariant {nodes : List StringTableNode}
    {parsed : Parsed} (hparse : parseTriggers input nodes = .ok parsed)
    {Inv : ParserState → Prop} (hstart : Inv (.start, .start nodes))
    (hstep : ∀ state following, Inv state → PartStep input state following → Inv following) :
    ∃ cursor, Inv (cursor, parsed) ∧ cursor.expecting.beforeActions = true := by
  rw [parseTriggers_eq_iff hnul, Loop.returns_iff_reaches_done] at hparse
  obtain ⟨state, hreaches, hpass⟩ := hparse
  have hinv : Inv state := partStep_invariant hnul hreaches hstart hstep
  rcases parsePass_done hpass with ⟨hend, rfl⟩ | ⟨-, rfl⟩
  · exact ⟨state.1, hinv, beforeActions_of_end hnul hreaches hend⟩
  · exact ⟨{ state.1 with expecting := .triggerOrEndOfText }, hstep _ _ hinv (.finishes rfl), rfl⟩

end

end Run

end Chkdraft.TextTrigs
