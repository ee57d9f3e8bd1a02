import Chkdraft.Core.Loop
import Chkdraft.TextTrigs.EscapeStrings

/-!
# Cleaning trigger text

`cleanText` deletes blanks, tabs and comments, unifies line ends, capitalises
letters and moves the contents of string literals to a list, leaving a pair of
quotes for each.  A literal that is never closed sends the read position back
to the start of the text, after which the loop runs forever.
-/

namespace Chkdraft.TextTrigs

open Scan

variable {text : Text} {pos : ℕ}

def quote : UInt8 := 34

def newline : UInt8 := 10

/-- `findStringEnd`: the next quote that does not follow a backslash. -/
def findStringEnd (text : Text) (pos : ℕ) : Option ℕ :=
  (List.range' pos (text.length - pos)).find? fun index =>
    charAt text index = quote ∧ ¬ (0 < index ∧ charAt text (index - 1) = 92)

/-- Where a comment ends: the first line feed behind it, and only if there is
none the first carriage return, vertical tab or form feed. -/
def commentEnd (text : Text) (pos : ℕ) : ℕ :=
  (find text 10 pos <|> find text 13 pos <|> find text 11 pos <|> find text 12 pos).getD text.length

structure CleanState where
  pos : ℕ
  dest : Text
  stringContents : List Text
deriving DecidableEq

/-- What one pass does with the character it has read; `pos` is already behind
it.  A literal without an end has `npos` for its end, and `npos + 1` is 0. -/
def cleanCharacter (text : Text) (character : UInt8) (state : CleanState) : CleanState :=
  if character = 32 ∨ character = 9 then
    state
  else if character = 13 then
    { state with
      pos := if charAt text state.pos = 10 then state.pos + 1 else state.pos
      dest := state.dest ++ [newline] }
  else if character = 10 ∨ character = 11 ∨ character = 12 then
    { state with dest := state.dest ++ [newline] }
  else if character = 47 then
    if charAt text state.pos = 47 then
      { state with pos := commentEnd text state.pos }
    else
      state
  else if character = quote then
    let closeQuotePos := findStringEnd text state.pos
    let escString := slice text state.pos (closeQuotePos.getD text.length)
    { pos := (closeQuotePos.map (· + 1)).getD 0
      dest := state.dest ++ [quote, quote]
      stringContents := state.stringContents ++ [parseEscStr escString] }
  else
    { state with dest := state.dest ++ [upperCase character] }

/-- One pass of the loop of `cleanText`. -/
def cleanPass (text : Text) (state : CleanState) : Loop.Control CleanState (Text × List Text) :=
  if state.pos < text.length then
    .next (cleanCharacter text (charAt text state.pos)
      { state with pos := state.pos + 1 })
  else
    .done (state.dest, state.stringContents)

def CleanState.start : CleanState := ⟨0, [], []⟩

/-- `cleanText`, `none` if it never returns: each pass of a loop that returns
moves on in the text. -/
def cleanText (text : Text) : Option (Text × List Text) :=
  Loop.run (cleanPass text) (text.length + 1) .start

def nextCleanPosition (text : Text) (pos : ℕ) : ℕ :=
  (cleanCharacter text (charAt text pos) ⟨pos + 1, [], []⟩).pos

theorem pos_cleanCharacter (text : Text) (character : UInt8) (pos : ℕ)
    (dest : Text) (stringContents : List Text) :
    (cleanCharacter text character ⟨pos, dest, stringContents⟩).pos =
      (cleanCharacter text character ⟨pos, [], []⟩).pos := by
  simp only [cleanCharacter]
  repeat' split
  all_goals rfl

variable {state : CleanState}

theorem cleanPass_of_lt (hlt : state.pos < text.length) :
    ∃ following, cleanPass text state = .next following ∧
      following.pos = nextCleanPosition text state.pos :=
  ⟨_, if_pos hlt, pos_cleanCharacter _ _ _ _ _⟩

theorem cleanPass_of_le (hle : text.length ≤ state.pos) :
    cleanPass text state = .done (state.dest, state.stringContents) :=
  if_neg (by omega)

theorem le_findStringEnd {found : ℕ}
    (hfound : findStringEnd text pos = some found) : pos ≤ found := by
  have hmem := List.mem_of_find?_eq_some hfound
  rw [List.mem_range'_1] at hmem
  exact hmem.1

theorem commentEnd_eq_findSome (text : Text) (pos : ℕ) : commentEnd text pos =
      ([10, 13, 11, 12].findSome? (find text · pos)).getD text.length := by
  simp only [commentEnd, List.findSome?]
  cases find text 10 pos with
  | some found => rfl
  | none =>
      cases find text 13 pos with
      | some found => rfl
      | none =>
          cases find text 11 pos with
          | some found => rfl
          | none => cases find text 12 pos <;> rfl

theorem commentEnd_bounds (hpos : pos ≤ text.length) :
    pos ≤ commentEnd text pos ∧ commentEnd text pos ≤ text.length := by
  rw [commentEnd_eq_findSome]
  cases hfind : [10, 13, 11, 12].findSome? (find text · pos) with
  | none => exact ⟨hpos, Nat.le_refl _⟩
  | some found =>
      obtain ⟨character, -, hfound⟩ := List.exists_of_findSome?_eq_some hfind
      obtain ⟨hle, hlt, -⟩ := find_spec hfound
      exact ⟨hle, Nat.le_of_lt hlt⟩

/-- Every position inside a comment has the same end of the comment. -/
theorem commentEnd_eq_of_le {start : ℕ} (hle : start ≤ pos) (hpos : pos ≤ commentEnd text start) :
    commentEnd text pos = commentEnd text start := by
  have hsame : ∀ characters : List UInt8,
      (∀ found, characters.findSome? (find text · start) = some found → pos ≤ found) →
      characters.findSome? (find text · pos) = characters.findSome? (find text · start) := by
    intro characters
    induction characters with
    | nil => exact fun _ => rfl
    | cons character rest ih =>
        intro hbound
        rw [List.findSome?_cons] at hbound ⊢
        rw [List.findSome?_cons]
        cases hfind : find text character start with
        | some found =>
            rw [hfind] at hbound
            rw [find_eq_some_of_le hfind hle (hbound found rfl)]
        | none =>
            rw [hfind] at hbound
            rw [find_eq_none_of_le hfind hle]
            exact ih hbound
  rw [commentEnd_eq_findSome] at hpos ⊢
  rw [commentEnd_eq_findSome, hsame]
  intro found hfound
  rwa [hfound, Option.getD_some] at hpos

/-- Where a pass goes on: behind a literal, at the end of a comment, or behind
the character it has read and a line feed that belongs to it. -/
theorem nextCleanPosition_cases (text : Text) (pos : ℕ) :
    charAt text pos = quote ∧ nextCleanPosition text pos =
      ((findStringEnd text (pos + 1)).map (· + 1)).getD 0 ∨
    charAt text pos = 47 ∧ charAt text (pos + 1) = 47 ∧
      nextCleanPosition text pos = commentEnd text (pos + 1) ∨
    charAt text pos ≠ quote ∧ ¬ (charAt text pos = 47 ∧ charAt text (pos + 1) = 47) ∧
      (nextCleanPosition text pos = pos + 1 ∨
        charAt text (pos + 1) = 10 ∧ nextCleanPosition text pos = pos + 2) := by
  generalize hchar : charAt text pos = character
  rw [nextCleanPosition, hchar, cleanCharacter]
  split
  case isTrue hblank =>
    right; right
    rcases hblank with rfl | rfl
    · exact ⟨by decide, by simp, .inl rfl⟩
    · exact ⟨by decide, by simp, .inl rfl⟩
  split
  case isTrue hreturn =>
    right; right
    subst hreturn
    refine ⟨by decide, by simp, ?_⟩
    by_cases hfeed : charAt text (pos + 1) = 10
    · exact .inr ⟨hfeed, if_pos hfeed⟩
    · exact .inl (if_neg hfeed)
  split
  case isTrue hend =>
    right; right
    rcases hend with rfl | rfl | rfl
    · exact ⟨by decide, by simp, .inl rfl⟩
    · exact ⟨by decide, by simp, .inl rfl⟩
    · exact ⟨by decide, by simp, .inl rfl⟩
  split
  case isTrue hslash =>
    right
    subst hslash
    by_cases hcomment : charAt text (pos + 1) = 47
    · exact .inl ⟨rfl, hcomment, by simp [hcomment]⟩
    · exact .inr ⟨by decide, by simp [hcomment], .inl (by simp [hcomment])⟩
  split
  case isTrue hquote => exact .inl ⟨hquote, rfl⟩
  case isFalse hslash hquote =>
    exact .inr (.inr ⟨hquote, fun hcomment => hslash hcomment.1, .inl rfl⟩)

/-- The position moves on, unless a literal without an end sends it back to the
start. -/
theorem lt_nextCleanPosition_or (hlt : pos < text.length) :
    pos < nextCleanPosition text pos ∨ nextCleanPosition text pos = 0 := by
  rcases nextCleanPosition_cases text pos with
    ⟨-, hnext⟩ | ⟨-, -, hnext⟩ | ⟨-, -, hnext | ⟨-, hnext⟩⟩
  · rw [hnext]
    cases hend : findStringEnd text (pos + 1) with
    | none => exact .inr rfl
    | some closeQuotePos =>
        have hle := le_findStringEnd hend
        left
        simp only [Option.map_some, Option.getD_some]
        omega
  · rw [hnext]
    exact .inl (commentEnd_bounds hlt).1
  · omega
  · omega

/-- The position goes back to the start exactly at a literal without an end. -/
theorem nextCleanPosition_eq_zero_iff (hlt : pos < text.length) : nextCleanPosition text pos = 0 ↔
      charAt text pos = quote ∧ findStringEnd text (pos + 1) = none := by
  rcases nextCleanPosition_cases text pos with
    ⟨hquote, hnext⟩ | ⟨hslash, -, hnext⟩ | ⟨hquote, -, hnext⟩
  · rw [hnext, and_iff_right hquote]
    cases findStringEnd text (pos + 1) <;> simp
  · have hcomment := (commentEnd_bounds (show pos + 1 ≤ text.length from hlt)).1
    rw [hnext, hslash]
    simp [quote]
    omega
  · simp only [hquote, false_and, iff_false]
    omega

/-- Where the next pass stands, if there is one. -/
def cleanStep (text : Text) (pos : ℕ) : Option ℕ :=
  if pos < text.length then some (nextCleanPosition text pos) else none

/-- Some pass of `cleanText` stands at a literal that is never closed. -/
def MeetsOpenLiteral (text : Text) : Prop :=
  ∃ count pos, Loop.visit (cleanStep text) 0 count = some pos ∧
    charAt text pos = quote ∧ findStringEnd text (pos + 1) = none

theorem terminates_cleanPass_iff (text : Text) (state : CleanState) :
    Loop.Terminates (cleanPass text) state ↔
      ∃ count, Loop.visit (cleanStep text) state.pos count = none := by
  apply @Loop.terminates_iff_visit_ends _ _ _ _ CleanState.pos _ fun _ => True
  · intro state _ following hpass
    by_cases hlt : state.pos < text.length
    · obtain ⟨other, hother, hpos⟩ := cleanPass_of_lt hlt
      rw [hother] at hpass
      cases hpass
      exact ⟨by rw [cleanStep, if_pos hlt, hpos], trivial⟩
    · rw [cleanPass_of_le (Nat.le_of_not_lt hlt)] at hpass
      cases hpass
  · intro state _ result hpass
    by_cases hlt : state.pos < text.length
    · obtain ⟨other, hother, -⟩ := cleanPass_of_lt hlt
      rw [hother] at hpass
      cases hpass
    · exact if_neg hlt
  · trivial

theorem not_terminates_of_meetsOpenLiteral (hmeets : MeetsOpenLiteral text) :
    ¬ Loop.Terminates (cleanPass text) .start := by
  obtain ⟨count, pos, hvisit, hquote, hend⟩ := hmeets
  have hlt : pos < text.length := charAt_lt_of_ne_zero (by rw [hquote]; decide)
  have hback : Loop.visit (cleanStep text) 0 (count + 1) = some 0 := by
    rw [Loop.visit, hvisit, Option.bind_some, cleanStep, if_pos hlt,
      (nextCleanPosition_eq_zero_iff hlt).mpr ⟨hquote, hend⟩]
  intro hterminates
  obtain ⟨last, hlast⟩ := (terminates_cleanPass_iff text .start).mp hterminates
  apply Loop.visit_ne_none_of_revisit (Nat.succ_pos count) _ _ last hlast
  · exact hback.symm
  · exact Option.some_ne_none 0

/-- Without open literals each pass moves on, so the text's length bounds the
number of passes. -/
theorem run_cleanPass_ne_none (fuel : ℕ) (state : CleanState)
    (hfuel : text.length - state.pos < fuel)
    (hclosed : ∀ count pos, Loop.visit (cleanStep text) state.pos count = some pos →
      ¬ (charAt text pos = quote ∧ findStringEnd text (pos + 1) = none)) :
    Loop.run (cleanPass text) fuel state ≠ none := by
  induction fuel generalizing state with
  | zero => omega
  | succ fuel ih =>
      by_cases hlt : state.pos < text.length
      · obtain ⟨following, hpass, hpos⟩ := cleanPass_of_lt hlt
        have hnonzero : nextCleanPosition text state.pos ≠ 0 := by
          rw [Ne, nextCleanPosition_eq_zero_iff hlt]
          exact hclosed 0 state.pos rfl
        have hforward := (lt_nextCleanPosition_or hlt).resolve_right hnonzero
        simp only [Loop.run, hpass]
        apply ih following (by omega)
        intro count pos hvisit
        apply hclosed (count + 1) pos
        rw [Loop.visit_succ', cleanStep, if_pos hlt, Option.bind_some, ← hpos]
        exact hvisit
      · simp [Loop.run, cleanPass_of_le (Nat.le_of_not_lt hlt)]

theorem cleanText_eq_none_iff (text : Text) : cleanText text = none ↔ MeetsOpenLiteral text := by
  constructor
  · intro hnone
    by_contra hmeets
    apply run_cleanPass_ne_none (text.length + 1) CleanState.start _ _ hnone
    · exact Nat.lt_succ_of_le (Nat.sub_le _ _)
    · intro count pos hvisit hopen
      exact hmeets ⟨count, pos, hvisit, hopen⟩
  · intro hmeets
    cases hclean : cleanText text with
    | none => rfl
    | some cleaned =>
        exact absurd ⟨cleaned, _, hclean⟩ (not_terminates_of_meetsOpenLiteral hmeets)

/-- Running out of fuel means that the source's loop does not end. -/
theorem cleanText_eq_some_iff (text : Text) (cleaned : Text × List Text) :
    cleanText text = some cleaned ↔ Loop.Returns (cleanPass text) .start cleaned := by
  constructor
  · intro hclean
    exact ⟨_, hclean⟩
  · intro hreturns
    cases hclean : cleanText text with
    | none =>
        rw [cleanText_eq_none_iff] at hclean
        exact absurd ⟨cleaned, hreturns⟩ (not_terminates_of_meetsOpenLiteral hclean)
    | some other => rw [Loop.Returns.unique ⟨_, hclean⟩ hreturns]

theorem nul_not_mem_cleanCharacter (text : Text) (character : UInt8)
    (hstate : ∀ content ∈ state.stringContents, 0 ∉ content) :
    ∀ content ∈ (cleanCharacter text character state).stringContents, 0 ∉ content := by
  simp only [cleanCharacter]
  split
  · exact hstate
  · split
    · exact hstate
    · split
      · exact hstate
      · split
        · split <;> exact hstate
        · split
          · -- Only here a literal is added.
            intro content hcontent
            rcases List.mem_append.mp hcontent with hold | hnew
            · exact hstate content hold
            · rw [List.mem_singleton.mp hnew]
              exact nul_not_mem_parseEscStr _
          · exact hstate

theorem nul_not_mem_of_cleanText {cleaned : Text} {stringContents : List Text}
    (hclean : cleanText text = some (cleaned, stringContents)) :
    ∀ content ∈ stringContents, 0 ∉ content := by
  rw [cleanText_eq_some_iff, Loop.returns_iff_reaches_done] at hclean
  obtain ⟨state, hreaches, hdone⟩ := hclean
  have hstate : ∀ content ∈ state.stringContents, 0 ∉ content := by
    refine @Loop.Reaches.invariant _ _ _ _ _
      (fun state : CleanState => ∀ content ∈ state.stringContents,
        0 ∉ content) hreaches (by simp [CleanState.start]) ?_
    intro state following hstate hpass
    rw [cleanPass] at hpass
    split at hpass
    · cases hpass
      exact nul_not_mem_cleanCharacter _ _ hstate
    · cases hpass
  rw [cleanPass] at hdone
  split at hdone
  · cases hdone
  · cases hdone
    exact hstate

end Chkdraft.TextTrigs
