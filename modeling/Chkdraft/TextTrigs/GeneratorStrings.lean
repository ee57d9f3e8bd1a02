import Chkdraft.Core.Carry
import Chkdraft.Scenario.UsageAgreement
import Chkdraft.TextTrigs.CleanText
import Chkdraft.TextTrigs.NameTables

/-!
# The string tables of the generator

`prepStringTable` fills a table of game strings and one of editor strings, from
which the text of a trigger is printed.  Its two loops share the pointer to the
string that was read last, and the second one puts the entries of unused ids in
the table of the first.
-/

namespace Chkdraft.TextTrigs

open BitSet Chk Scan Sections Scenario

variable {count : ℕ} {table : List Text}

variable {push : Option Text → StringTables → StringTables}

namespace TextTrigGenerator

/-- `unmarkUnstoredStrings`; the bit of id 0 is left as it is. -/
def unmarkUnstoredStrings (strings : List (Option ScStr)) (bits : Bits) :
    Bits := fun stringId =>
  bits stringId && (stringId = 0 || (strings.getD stringId none).isSome)

/-- The strings of the table for game or editor storage. -/
def storedStrings (scenario : LoadedScenario) : Scope → List (Option ScStr)
  | .game => scenario.str.strings
  | .editor => scenario.kstr.strings.map (·.map EditorString.chars)
  | _ => []

/-- `markValidUsedStrings` for users of either kind. -/
def markValidUsedStrings (scenario : LoadedScenario) (storageScope : Scope) :
    Except Hazard Bits := do
  let bits ← scenario.markUsedStrings .both storageScope .all fun _ => false
  .ok (unmarkUnstoredStrings (storedStrings scenario storageScope) bits)

/-- `getString<EscString>`. -/
def getEscString (strings : List (Option ScStr)) (stringId : ℕ) : Option Text :=
  (getString strings stringId).map makeEscStr

/-- `stringUsed[i]`, which is not checked. -/
def bitAt (bits : Bits) (i : ℕ) : Except Hazard Bool :=
  if i < maxStrings then .ok (bits i) else .error .undefinedBehavior

def quoteArg (quoteArgs : Bool) (newString : Text) : Text :=
  if quoteArgs then [quote] ++ newString ++ [quote] else newString

/-- The copy of an editor string, whose quotes are escaped once more. -/
def escapeQuotes (str : Text) : Text := str.flatMap fun character =>
    if character = quote then [92, quote] else [character]

/-- The pointer to the last string and the tables. -/
structure StringTables where
  str : Option Text
  stringTable : List Text
  extendedStringTable : List Text

/-- The entry of a string, or the empty one. -/
def entryText (quoteArgs : Bool) : Option Text → Text
  | some newString => quoteArg quoteArgs newString
  | none => []

/-- The entry of a round of the loop over the game strings. -/
def pushGameString (quoteArgs : Bool) (str : Option Text) (tables : StringTables) : StringTables :=
  { tables with
    str := str
    stringTable := tables.stringTable ++ [entryText quoteArgs str] }

/-- The entry of a round of the loop over the editor strings; an empty one goes
to the table of the game strings. -/
def pushEditorString (quoteArgs : Bool) (str : Option Text)
    (tables : StringTables) : StringTables :=
  match str with
  | some newString =>
      { tables with
        str := str
        extendedStringTable := tables.extendedStringTable ++
          [quoteArg quoteArgs (escapeQuotes newString)] }
  | none =>
      { tables with str := str, stringTable := tables.stringTable ++ [[]] }

/-- A round of either loop: the pointer is set for a string that is used, and
what it points to is pushed. -/
def stringRound (push : Option Text → StringTables → StringTables)
    (strings : List (Option ScStr)) (stringUsed : Bits)
    (tables : StringTables) (i : ℕ) : Except Hazard StringTables := do
  let used ← bitAt stringUsed i
  let str := if used then getEscString strings i else tables.str
  .ok (push str tables)

def prepStringTable (scenario : LoadedScenario) (quoteArgs : Bool) :
    Except Hazard StringTables := do
  let stringUsed ← markValidUsedStrings scenario .game
  let extendedStringUsed ← markValidUsedStrings scenario .editor
  let gameStrings := storedStrings scenario .game
  let tables ← (List.range gameStrings.length).foldlM
    (stringRound (pushGameString quoteArgs) gameStrings stringUsed)
    ⟨none, [], []⟩
  let editorStrings := storedStrings scenario .editor
  (List.range editorStrings.length).foldlM
    (stringRound (pushEditorString quoteArgs) editorStrings extendedStringUsed)
    tables

/-- The string of an id, if somebody uses it. -/
def usedString (scenario : LoadedScenario) : Scope → ℕ → Option Text
  | .game, stringId =>
      if scenario.marksGameString .all stringId then
        getEscString (storedStrings scenario .game) stringId
      else none
  | .editor, stringId =>
      if scenario.marksEditorString .all stringId then
        getEscString (storedStrings scenario .editor) stringId
      else none
  | _, _ => none

/-- Up to the last stored string a table holds the strings that are used. -/
def HoldsStrings (scenario : LoadedScenario) (storageScope : Scope) (table : List Text) : Prop :=
  ∀ stringId stored, stringId ≤ stored →
    (storedStrings scenario storageScope).getD stored none ≠ none → table[stringId]? =
        some (entryText true (usedString scenario storageScope stringId))

/-- The tables are prepared, and hold the strings. -/
def PreparesTables (scenario : LoadedScenario) : Prop :=
  ∃ tables, prepStringTable scenario true = .ok tables ∧
    HoldsStrings scenario .game tables.stringTable ∧
    HoldsStrings scenario .editor tables.extendedStringTable

/-- Ids and tables fit the bit set, there are no editor strings, and no game
string is left unused behind one that is used, up to the last stored one. -/
structure MeetsStrings (scenario : LoadedScenario) : Prop where
  ids : scenario.EditorIdsFit .all
  gameSize : (storedStrings scenario .game).length ≤ maxStrings
  editorSize : (storedStrings scenario .editor).length ≤ maxStrings
  noEditorStrings : ∀ stored, (storedStrings scenario .editor).getD stored none = none
  noGaps : ∀ used stringId stored, used < stringId → stringId ≤ stored →
    (usedString scenario .game used).isSome = true →
    (storedStrings scenario .game).getD stored none ≠ none →
      (usedString scenario .game stringId).isSome = true

section Loops

variable {scenario : LoadedScenario} {strings : List (Option ScStr)}
  {bits : Bits}

def givenString (bits : Bits) (strings : List (Option ScStr)) (i : ℕ) : Option Text :=
  if bits i then getEscString strings i else none

theorem stringRound_eq {i : ℕ} (hlt : i < maxStrings) (tables : StringTables) :
    stringRound push strings bits tables i =
      .ok (push (if bits i = true then getEscString strings i else tables.str) tables) := by
  rw [stringRound, bitAt, if_pos hlt]
  rfl

theorem ite_getEscString_eq (hstored : ∀ i, bits i = true → (getEscString strings i).isSome = true)
    (i : ℕ) (str : Option Text) :
    (if bits i = true then getEscString strings i else str) =
      (givenString bits strings i).or str := by
  rw [givenString]
  split
  · next hbit =>
      obtain ⟨newString, hnew⟩ := Option.isSome_iff_exists.mp (hstored i hbit)
      rw [hnew, Option.some_or]
  · rw [Option.none_or]

/-- The tables in front of a round of the first loop. -/
def gameTables (bits : Bits) (strings : List (Option ScStr)) (i : ℕ) : StringTables :=
  ⟨Carry.lastOf (givenString bits strings) i, (List.range i).map fun stringId =>
      entryText true (Carry.lastOf (givenString bits strings) (stringId + 1)),
    []⟩

/-- The loop over the game strings pushes, for each id, the last string that
was used up to there. -/
theorem foldlM_game_eq (hstored : ∀ i, bits i = true → (getEscString strings i).isSome = true)
    (hle : count ≤ maxStrings) :
    (List.range count).foldlM (stringRound (pushGameString true) strings bits) ⟨none, [], []⟩ =
      .ok (gameTables bits strings count) := by
  refine Carry.foldlM_range_eq (gameTables bits strings) fun i hlt => ?_
  rw [stringRound_eq (by omega), ite_getEscString_eq hstored]
  refine congrArg Except.ok ?_
  rw [pushGameString, gameTables, gameTables, ← Carry.lastOf, List.range_succ, List.map_append]
  rfl

theorem quoteArg_ne_nil (newString : Text) : quoteArg true newString ≠ [] := by
  rw [quoteArg, if_pos rfl, List.append_assoc]
  exact List.cons_ne_nil _ _

theorem entryText_eq_nil_iff {str : Option Text} : entryText true str = [] ↔ str = none := by
  cases str with
  | none => exact iff_of_true rfl rfl
  | some newString => exact iff_of_false (quoteArg_ne_nil _) nofun

/-- A round adds to the tables, and no empty entry to that of the editor
strings. -/
theorem pushEditorString_spec (str : Option Text) (tables : StringTables) :
    tables.stringTable <+: (pushEditorString true str tables).stringTable ∧
      ([] ∉ tables.extendedStringTable →
        [] ∉ (pushEditorString true str tables).extendedStringTable) := by
  cases str with
  | some newString =>
      refine ⟨List.prefix_refl _, fun hnone => ?_⟩
      rw [pushEditorString, List.mem_append, List.mem_singleton, not_or]
      exact ⟨hnone, (quoteArg_ne_nil _).symm⟩
  | none => exact ⟨List.prefix_append _ _, id⟩

theorem exists_foldlM_editor {items : List ℕ}
    (hlt : ∀ i ∈ items, i < maxStrings) (tables : StringTables) :
    ∃ result, items.foldlM (stringRound (pushEditorString true) strings bits) tables = .ok result ∧
      tables.stringTable <+: result.stringTable ∧
      ([] ∉ tables.extendedStringTable → [] ∉ result.extendedStringTable) := by
  induction items generalizing tables with
  | nil => exact ⟨tables, rfl, List.prefix_refl _, id⟩
  | cons i items ih =>
      rw [List.forall_mem_cons] at hlt
      rw [List.foldlM_cons, stringRound_eq hlt.1]
      obtain ⟨result, hrun, hstarts, hentries⟩ := ih hlt.2 (pushEditorString true
          (if bits i = true then getEscString strings i else tables.str) tables)
      obtain ⟨hadded, hnone⟩ := pushEditorString_spec
        (if bits i = true then getEscString strings i else tables.str) tables
      exact ⟨result, hrun, hadded.trans hstarts, fun h => hentries (hnone h)⟩

/-- Neither loop returns for a table that is larger than the bit set. -/
theorem length_le_of_foldlM {start final : StringTables}
    (hrun : (List.range count).foldlM (stringRound push strings bits) start = .ok final) :
    count ≤ maxStrings := by
  by_contra hlt
  have hmem : maxStrings ∈ List.range count := List.mem_range.mpr (by omega)
  refine Fault.foldlM_ne_ok hmem (fun state following hround => ?_) start final hrun
  rw [stringRound, bitAt, if_neg (Nat.lt_irrefl _)] at hround
  cases hround

end Loops

section Bits

variable {scenario : LoadedScenario} {storageScope : Scope} {fits : Prop}
  {marked : Set ℕ}

theorem isSome_getEscString (strings : List (Option ScStr)) (stringId : ℕ) :
    (getEscString strings stringId).isSome = (strings.getD stringId none).isSome := by
  rw [getEscString, getString, Option.isSome_map, Option.isSome_map]

theorem exists_markValidUsedStrings
    (hmarks : Marks (scenario.markUsedStrings .both storageScope .all) fits
      marked) (hzero : 0 ∉ marked) (hfits : fits) :
    ∃ bits, markValidUsedStrings scenario storageScope = .ok bits ∧
      ∀ i, bits i = true ↔ i ∈ marked ∧
        (getEscString (storedStrings scenario storageScope) i).isSome =
          true := by
  obtain ⟨bits, hrun, hbits⟩ := hmarks.returns hfits fun _ => false
  refine ⟨unmarkUnstoredStrings (storedStrings scenario storageScope) bits, ?_, fun i => ?_⟩
  · rw [markValidUsedStrings, hrun]
    rfl
  · have hmarked : bits i = true ↔ i ∈ marked := by
      rw [hbits, or_iff_right Bool.false_ne_true]
    rw [unmarkUnstoredStrings, Bool.and_eq_true, hmarked, Bool.or_eq_true,
      decide_eq_true_eq, isSome_getEscString]
    refine and_congr_right fun hmem => or_iff_right ?_
    rintro rfl
    exact hzero hmem

theorem fits_of_markValidUsedStrings
    (hmarks : Marks (scenario.markUsedStrings .both storageScope .all) fits marked) {bits : Bits}
    (hrun : markValidUsedStrings scenario storageScope = .ok bits) : fits := by
  obtain ⟨middle, hmiddle, -⟩ := Fault.bind_eq_ok_iff.mp hrun
  by_contra hfails
  exact hmarks.fails hfails _ middle hmiddle

theorem zero_not_mem_marked_game : 0 ∉ {index | scenario.marksGameString .all index} :=
  fun hmem => absurd hmem.1 (Nat.lt_irrefl 0)

theorem zero_not_mem_marked_editor : 0 ∉ {index | scenario.marksEditorString .all index} :=
  fun hmem => absurd hmem.1 (Nat.lt_irrefl 0)

theorem givenString_eq_usedString {bits : Bits} (hbits : ∀ i, bits i = true ↔
      i ∈ {index | scenario.marksGameString .all index} ∧
        (getEscString (storedStrings scenario .game) i).isSome = true) :
    givenString bits (storedStrings scenario .game) = usedString scenario .game := by
  funext i
  rw [givenString, usedString]
  by_cases hmarks : scenario.marksGameString .all i
  · rw [if_pos hmarks]
    split
    · rfl
    · next hbit =>
        rw [hbits, not_and, Bool.not_eq_true, Option.isSome_eq_false_iff,
          Option.isNone_iff_eq_none] at hbit
        exact (hbit hmarks).symm
  · rw [if_neg hmarks, if_neg fun hbit => hmarks ((hbits i).mp hbit).1]

end Bits

section Tables

variable {scenario : LoadedScenario}

theorem lt_length_of_getD_ne_none {strings : List (Option ScStr)} {stored : ℕ}
    (hstored : strings.getD stored none ≠ none) : stored < strings.length := by
  by_contra hle
  exact hstored (List.getD_eq_default _ _ (by omega))

theorem getElem?_gameTables {stringId : ℕ} {bits : Bits} {strings : List (Option ScStr)}
    (hstarts : (gameTables bits strings count).stringTable <+: table)
    (hlt : stringId < count) :
    table[stringId]? = some (entryText true
      (Carry.lastOf (givenString bits strings) (stringId + 1))) := by
  obtain ⟨rest, rfl⟩ := hstarts
  rw [gameTables, List.getElem?_append_left (by simpa using hlt),
    List.getElem?_map, List.getElem?_range hlt, Option.map_some]

/-- The game strings are held exactly when there is no gap behind a used
one. -/
theorem holdsStrings_game_iff (htable : ∀ stringId < (storedStrings scenario .game).length,
      table[stringId]? = some (entryText true
        (Carry.lastOf (usedString scenario .game) (stringId + 1)))) :
    HoldsStrings scenario .game table ↔
      ∀ used stringId stored, used < stringId → stringId ≤ stored →
        (usedString scenario .game used).isSome = true →
        (storedStrings scenario .game).getD stored none ≠ none →
          (usedString scenario .game stringId).isSome = true := by
  constructor
  · intro hholds used stringId stored hbefore hle hused hstored
    have hlt := lt_length_of_getD_ne_none hstored
    have hentry := hholds stringId stored hle hstored
    rw [htable stringId (by omega), Option.some.injEq] at hentry
    rw [Option.isSome_iff_ne_none]
    intro hnone
    rw [hnone, entryText_eq_nil_iff.mpr rfl, entryText_eq_nil_iff,
      Carry.lastOf_eq_none_iff] at hentry
    rw [hentry used (by omega)] at hused
    cases hused
  · intro hgaps stringId stored hle hstored
    have hlt := lt_length_of_getD_ne_none hstored
    rw [htable stringId (by omega)]
    cases hused : usedString scenario .game stringId with
    | some newString => rw [Carry.lastOf_succ_of_some hused]
    | none =>
        have hnone : Carry.lastOf (usedString scenario .game) (stringId + 1) =
            none := by
          rw [Carry.lastOf_eq_none_iff]
          intro used hbefore
          rcases Nat.lt_succ_iff_lt_or_eq.mp hbefore with hlt' | rfl
          · by_contra hsome
            have hnext := hgaps used stringId stored hlt' hle
              (Option.isSome_iff_ne_none.mpr hsome) hstored
            rw [hused] at hnext
            cases hnext
          · exact hused
        rw [hnone]

/-- Editor strings are not held by a table without empty entries. -/
theorem holdsStrings_editor_iff (hnone : [] ∉ table) : HoldsStrings scenario .editor table ↔
      ∀ stored, (storedStrings scenario .editor).getD stored none = none := by
  constructor
  · intro hholds stored
    by_contra hstored
    have hentry := hholds 0 stored (Nat.zero_le _) hstored
    have hzero : ¬ scenario.marksEditorString .all 0 := zero_not_mem_marked_editor
    rw [usedString, if_neg hzero] at hentry
    exact hnone (List.mem_of_getElem? hentry)
  · intro hempty stringId stored _ hstored
    exact absurd (hempty stored) hstored

/-- With ids and tables that fit the bit set the tables are prepared. -/
theorem exists_prepStringTable (hids : scenario.EditorIdsFit .all)
    (hgameSize : (storedStrings scenario .game).length ≤ maxStrings)
    (heditorSize : (storedStrings scenario .editor).length ≤ maxStrings) :
    ∃ tables, prepStringTable scenario true = .ok tables ∧ [] ∉ tables.extendedStringTable ∧
      ∀ stringId < (storedStrings scenario .game).length,
        tables.stringTable[stringId]? = some (entryText true
          (Carry.lastOf (usedString scenario .game) (stringId + 1))) := by
  obtain ⟨bits, hgame, hbits⟩ := exists_markValidUsedStrings
    (scenario.marks_gameStorage_both .all) zero_not_mem_marked_game trivial
  obtain ⟨extended, heditor, -⟩ := exists_markValidUsedStrings
    (scenario.marks_editorStorage .all .both) zero_not_mem_marked_editor hids
  have hloop := foldlM_game_eq (fun i hbit => ((hbits i).mp hbit).2) hgameSize
  have hitems : ∀ i ∈ List.range (storedStrings scenario .editor).length, i < maxStrings :=
    fun i hmem => (List.mem_range.mp hmem).trans_le heditorSize
  obtain ⟨result, hresult, hstarts, hentries⟩ :=
    @exists_foldlM_editor (storedStrings scenario .editor) extended _ hitems
      (gameTables bits (storedStrings scenario .game) (storedStrings scenario .game).length)
  refine ⟨result, ?_, hentries List.not_mem_nil, fun stringId hlt => ?_⟩
  · rw [prepStringTable, hgame, heditor]
    refine Fault.bind_eq_ok_iff.mpr ⟨bits, rfl, ?_⟩
    refine Fault.bind_eq_ok_iff.mpr ⟨extended, rfl, ?_⟩
    exact Fault.bind_eq_ok_iff.mpr ⟨_, hloop, hresult⟩
  · rw [getElem?_gameTables hstarts hlt, givenString_eq_usedString hbits]

theorem fits_of_prepStringTable {tables : StringTables}
    (hprep : prepStringTable scenario true = .ok tables) :
    scenario.EditorIdsFit .all ∧ (storedStrings scenario .game).length ≤ maxStrings ∧
      (storedStrings scenario .editor).length ≤ maxStrings := by
  obtain ⟨bits, -, hrest⟩ := Fault.bind_eq_ok_iff.mp hprep
  obtain ⟨extended, heditor, hloops⟩ := Fault.bind_eq_ok_iff.mp hrest
  obtain ⟨middle, hfirst, hsecond⟩ := Fault.bind_eq_ok_iff.mp hloops
  exact ⟨fits_of_markValidUsedStrings (scenario.marks_editorStorage .all .both)
    heditor, length_le_of_foldlM hfirst, length_le_of_foldlM hsecond⟩

/-- The tables are prepared as they should be exactly under these
conditions. -/
theorem preparesTables_iff (scenario : LoadedScenario) :
    PreparesTables scenario ↔ MeetsStrings scenario := by
  constructor
  · rintro ⟨tables, hprep, hgame, heditor⟩
    obtain ⟨hids, hgameSize, heditorSize⟩ := fits_of_prepStringTable hprep
    obtain ⟨tables', hprep', hnone, htable⟩ := exists_prepStringTable hids hgameSize heditorSize
    cases hprep.symm.trans hprep'
    exact ⟨hids, hgameSize, heditorSize, (holdsStrings_editor_iff hnone).mp heditor,
      (holdsStrings_game_iff htable).mp hgame⟩
  · intro hmeets
    obtain ⟨tables, hprep, hnone, htable⟩ :=
      exists_prepStringTable hmeets.ids hmeets.gameSize hmeets.editorSize
    exact ⟨tables, hprep, (holdsStrings_game_iff htable).mpr hmeets.noGaps,
      (holdsStrings_editor_iff hnone).mpr hmeets.noEditorStrings⟩

/-- A scenario with a string for its name and one that nobody uses. -/
def unusedStringScenario : LoadedScenario :=
  { bareScenario [] [] with
    scenarioNameStringId := 1
    str := ⟨[none, some (ascii "Name"), some (ascii "Unused")], [], 4, 0, []⟩ }

/-- The unused string is printed as the name. -/
theorem unused_string_repeats_name : ¬ PreparesTables unusedStringScenario := by
  rintro ⟨tables, hprep, hgame, -⟩
  have hrun : (prepStringTable unusedStringScenario true).toOption.map
      (fun tables => tables.stringTable[2]?) =
        some (some (ascii "\"Name\"")) := by
    decide +kernel
  have hunused : usedString unusedStringScenario .game 2 = none := by
    decide +kernel
  have hentry := hgame 2 2 (Nat.le_refl 2) (by decide)
  rw [hprep] at hrun
  rw [hunused] at hentry
  exact absurd ((Option.some.inj hrun).symm.trans hentry) (by decide)

end Tables

end TextTrigGenerator

end Chkdraft.TextTrigs
