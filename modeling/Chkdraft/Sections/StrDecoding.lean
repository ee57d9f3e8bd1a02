import Mathlib.Data.List.Fold
import Chkdraft.Core.CheckedRead
import Chkdraft.Sections.StrSection

/-!
# Decoding a damaged STR section

The decoder with every access to the byte vector checked, as the source runs
it: a loop over the complete offsets, half an offset at an odd end, null
strings for the ids that are left.  It returns on every vector and agrees with
the description in `StrSection`, from which the shape of the table follows.
-/

namespace Chkdraft.Sections

open Binary

variable {bytes : List UInt8} {stringId : ℕ} {chars : ScStr}

namespace StrSection

/-- `StrSection::loadString` with its accesses checked: the strings with one
more at their end, and the index of the last byte of that one. -/
def loadStringChecked (bytes : List UInt8) (strings : List (Option ScStr))
    (stringOffset : ℕ) : Except Hazard (List (Option ScStr) × ℕ) :=
  if stringOffset < bytes.length then
    let nextNull := findNul bytes stringOffset
    if nextNull ≠ bytes.length then
      if nextNull ≥ stringOffset then do
        let chars ← readCString bytes stringOffset
        .ok (strings ++ [some chars], nextNull)
      else do
        let chars ← readChars bytes stringOffset (bytes.length - stringOffset)
        .ok (strings ++ [some chars], bytes.length - 1)
    else if bytes.length > stringOffset then do
      let chars ← readChars bytes stringOffset (bytes.length - stringOffset)
      .ok (strings ++ [some chars], bytes.length - 1)
    else
      .ok (strings ++ [none], 0)
  else
    .ok (strings ++ [none], 0)

/-- One round of the loop over the complete offsets; the state is the strings
and the largest last byte. -/
def offsetRound (bytes : List UInt8) (state : List (Option ScStr) × ℕ)
    (stringId : ℕ) : Except Hazard (List (Option ScStr) × ℕ) := do
  let stringOffset ← readWord 2 bytes (2 * stringId)
  let (strings, lastCharacter) ← loadStringChecked bytes state.1 stringOffset
  .ok (strings, if lastCharacter > state.2 then lastCharacter else state.2)

/-- The strings behind the complete offsets, up to the claimed number. -/
def outOfBoundsChecked (bytes : List UInt8) (rawNumStrings highestStringWithValidOffset : ℕ)
    (strings : List (Option ScStr)) :
    Except Hazard (List (Option ScStr)) :=
  let stringId := highestStringWithValidOffset + 1
  if highestStringWithValidOffset < rawNumStrings then
    if bytes.length % 2 > 0 then do
      let stringOffset ← readWord 1 bytes (bytes.length - 1)
      let (strings, _) ← loadStringChecked bytes strings stringOffset
      .ok (strings ++ List.replicate (rawNumStrings + 1 - (stringId + 1)) none)
    else
      .ok (strings ++ List.replicate (rawNumStrings + 1 - stringId) none)
  else
    .ok strings

/-- The claimed number of strings; one byte of it may be there. -/
def rawNumStringsChecked (bytes : List UInt8) : Except Hazard ℕ :=
  if bytes.length ≥ 2 then
    readWord 2 bytes 0
  else if bytes.length = 1 then
    readWord 1 bytes 0
  else
    .ok 0

/-- The strings with the bytes split in front of the tail data. -/
def splitTailData (bytes : List UInt8) (strings : List (Option ScStr))
    (regularStrSectionEnd : ℕ) : StrSection :=
  if regularStrSectionEnd < bytes.length then
    { strings := strings
      stringBytes := bytes.take regularStrSectionEnd
      bytePaddedTo := 0
      initialTailDataOffset := regularStrSectionEnd
      tailData := bytes.drop regularStrSectionEnd }
  else
    { strings := strings
      stringBytes := bytes
      bytePaddedTo := 4
      initialTailDataOffset := 0
      tailData := [] }

/-- `StrSection::syncBytesToStrings` with its accesses checked. -/
def syncBytesToStringsChecked (bytes : List UInt8) : Except Hazard StrSection := do
  let rawNumStrings ← rawNumStringsChecked bytes
  let highestStringWithValidOffset :=
    min rawNumStrings (if bytes.length < 4 then 0 else bytes.length / 2 - 1)
  let loaded ← (List.range' 1 highestStringWithValidOffset).foldlM (offsetRound bytes) ([none], 0)
  let strings ← outOfBoundsChecked bytes rawNumStrings highestStringWithValidOffset loaded.1
  let offsetsEnd := 2 + 2 * rawNumStrings
  let charactersEnd := loaded.2 + 1
  .ok (splitTailData bytes strings (max offsetsEnd charactersEnd))

theorem loadStringChecked_eq (bytes : List UInt8)
    (strings : List (Option ScStr)) (stringOffset : ℕ) :
    loadStringChecked bytes strings stringOffset =
      .ok (strings ++ [(loadString bytes stringOffset).1], (loadString bytes stringOffset).2) := by
  unfold loadStringChecked loadString
  by_cases hinside : stringOffset < bytes.length
  · simp only [if_pos hinside]
    have hbound : findNul bytes stringOffset ≤ bytes.length := by
      have hle := (List.takeWhile_sublist (l := bytes.drop stringOffset) (· ≠ 0)).length_le
      rw [List.length_drop] at hle
      unfold findNul
      omega
    have hfind : findNul bytes stringOffset =
        stringOffset + (cString bytes stringOffset).length := rfl
    by_cases hnul : findNul bytes stringOffset = bytes.length
    · -- No NUL follows: the string ends where the section ends.
      have hnone := (findNul_eq_length_iff hinside.le).mp hnul
      have hchars : readChars bytes stringOffset
          (bytes.length - stringOffset) = .ok (cString bytes stringOffset) := by
        rw [readChars, if_pos (by omega), cString, takeWhile_eq_self_of_not_mem hnone,
          List.take_of_length_le (by rw [List.length_drop])]
      rw [if_neg (not_not.mpr hnul), hchars, ← hfind, hnul, if_neg (lt_irrefl _)]
      rfl
    · have hmem : (0 : UInt8) ∈ bytes.drop stringOffset := by
        by_contra hnone
        exact hnul ((findNul_eq_length_iff hinside.le).mpr hnone)
      have hscan : readCString bytes stringOffset =
          .ok (cString bytes stringOffset) := scanString_of_mem hmem
      have hbehind : findNul bytes stringOffset ≥ stringOffset := Nat.le_add_right _ _
      rw [if_pos hnul, if_pos hbehind, hscan, ← hfind, if_pos (lt_of_le_of_ne hbound hnul)]
      rfl
  · simp only [if_neg hinside]

theorem offsetRound_eq (hinside : 2 * stringId + 2 ≤ bytes.length)
    (state : List (Option ScStr) × ℕ) :
    offsetRound bytes state stringId =
      .ok (state.1 ++ [(loadString bytes (wordAt 2 bytes (2 * stringId))).1],
        max state.2 (loadString bytes (wordAt 2 bytes (2 * stringId))).2) := by
  simp only [offsetRound, readWord_of_le hinside]
  change (do
    let loaded ← loadStringChecked bytes state.1 (wordAt 2 bytes (2 * stringId))
    .ok (loaded.1, if loaded.2 > state.2 then loaded.2 else state.2)) = _
  rw [loadStringChecked_eq]
  have hlarger : ∀ left right : ℕ, (if left > right then left else right) = max right left := by
    intro left right
    split <;> omega
  exact congrArg (fun last => Except.ok (_, last)) (hlarger _ _)

/-- The loop over the complete offsets, by induction on their number. -/
theorem foldlM_offsetRound (first count : ℕ)
    (hinside : ∀ stringId, first ≤ stringId → stringId < first + count →
      2 * stringId + 2 ≤ bytes.length) (state : List (Option ScStr) × ℕ) :
    (List.range' first count).foldlM (offsetRound bytes) state =
      .ok (state.1 ++ (List.range' first count).map (fun stringId =>
            (loadString bytes (wordAt 2 bytes (2 * stringId))).1),
        ((List.range' first count).map fun stringId =>
            (loadString bytes (wordAt 2 bytes (2 * stringId))).2).foldl
          max state.2) := by
  induction count generalizing first state with
  | zero =>
      simp only [List.range'_zero, List.foldlM_nil, List.map_nil, List.append_nil, List.foldl_nil]
      rfl
  | succ count ih =>
      have hfirst := hinside first le_rfl (by omega)
      rw [List.range'_succ, List.foldlM_cons, offsetRound_eq hfirst]
      refine (ih (first + 1) (fun stringId hle hlt =>
        hinside stringId (by omega) (by omega)) _).trans ?_
      simp only [List.map_cons, List.foldl_cons, List.append_assoc, List.singleton_append]

theorem map_range'_one_eq_loadedStrings (bytes : List UInt8) :
    (List.range' 1 (highestStringWithValidOffset bytes)).map
        (fun stringId => loadString bytes (wordAt 2 bytes (2 * stringId))) =
      loadedStrings bytes := by
  rw [loadedStrings, List.range'_eq_map_range, List.map_map]
  apply List.map_congr_left
  intro index _
  have hoffset : 2 * (1 + index) = 2 + 2 * index := by omega
  rw [Function.comp_apply, hoffset]

theorem outOfBoundsChecked_eq (bytes : List UInt8) (strings : List (Option ScStr)) :
    outOfBoundsChecked bytes (wordAt 2 bytes 0) (highestStringWithValidOffset bytes) strings =
      .ok (strings ++ outOfBoundsStrings bytes) := by
  unfold outOfBoundsChecked outOfBoundsStrings
  by_cases hmissing : highestStringWithValidOffset bytes < wordAt 2 bytes 0
  · have hsome : 0 < wordAt 2 bytes 0 - highestStringWithValidOffset bytes := by
      omega
    by_cases hodd : bytes.length % 2 > 0
    · have hrest : wordAt 2 bytes 0 + 1 - (highestStringWithValidOffset bytes + 1 + 1) =
          wordAt 2 bytes 0 - highestStringWithValidOffset bytes - 1 := by
        omega
      have hlast : bytes.length - 1 + 1 ≤ bytes.length := by omega
      simp only [if_pos hmissing, if_pos hodd, if_pos hsome, readWord_of_le hlast, hrest]
      change (do
        let loaded ← loadStringChecked bytes strings (wordAt 1 bytes (bytes.length - 1))
        .ok (loaded.1 ++ List.replicate (wordAt 2 bytes 0 -
          highestStringWithValidOffset bytes - 1) none)) = _
      rw [loadStringChecked_eq]
      change Except.ok (strings ++ [_] ++ _) = _
      rw [List.append_assoc, List.singleton_append]
    · have hrest : wordAt 2 bytes 0 + 1 - (highestStringWithValidOffset bytes + 1) =
          wordAt 2 bytes 0 - highestStringWithValidOffset bytes := by
        omega
      simp only [if_pos hmissing, if_neg hodd, if_pos hsome, hrest]
  · have hnone : ¬ 0 < wordAt 2 bytes 0 - highestStringWithValidOffset bytes := by
      omega
    simp only [if_neg hmissing, if_neg hnone, List.append_nil]

/-- The count is read whole, as one byte, or is 0 in an empty section. -/
theorem rawNumStringsChecked_eq (bytes : List UInt8) :
    rawNumStringsChecked bytes = .ok (wordAt 2 bytes 0) := by
  unfold rawNumStringsChecked
  split
  · rename_i htwo
    exact readWord_of_le (by omega)
  · split
    · rename_i hone
      rw [readWord_of_le (by omega), wordAt, wordAt, List.drop_zero,
        List.take_of_length_le (by omega), List.take_of_length_le (by omega)]
    · rename_i hzero
      rw [List.length_eq_zero_iff.mp (by omega : bytes.length = 0)]
      rfl

/-- The checked decoder returns the table that `syncBytesToStrings`
describes. -/
theorem syncBytesToStringsChecked_eq (bytes : List UInt8) :
    syncBytesToStringsChecked bytes = .ok (syncBytesToStrings bytes) := by
  have hinside : ∀ stringId, 1 ≤ stringId → stringId < 1 + highestStringWithValidOffset bytes →
        2 * stringId + 2 ≤ bytes.length := by
    intro stringId hle hlt
    rw [highestStringWithValidOffset] at hlt
    split at hlt <;> omega
  have hloaded := map_range'_one_eq_loadedStrings bytes
  have hstrings : (List.range' 1 (highestStringWithValidOffset bytes)).map (fun stringId =>
        (loadString bytes (wordAt 2 bytes (2 * stringId))).1) =
      (loadedStrings bytes).map Prod.fst := by
    rw [← hloaded, List.map_map]
    rfl
  have hlast : ((List.range' 1 (highestStringWithValidOffset bytes)).map (fun stringId =>
        (loadString bytes (wordAt 2 bytes (2 * stringId))).2)).foldl max 0 =
      sectionLastCharacter bytes := by
    rw [sectionLastCharacter, ← hloaded, List.map_map, List.foldl_eq_foldr]
    rfl
  have hloop := foldlM_offsetRound 1 (highestStringWithValidOffset bytes) hinside ([none], 0)
  rw [hstrings, hlast] at hloop
  have hsplit : splitTailData bytes ([none] ++
      (loadedStrings bytes).map Prod.fst ++ outOfBoundsStrings bytes)
        (regularStrSectionEnd bytes) = syncBytesToStrings bytes := by
    unfold splitTailData syncBytesToStrings
    by_cases htail : regularStrSectionEnd bytes < bytes.length
    · simp only [if_pos htail]
      rfl
    · simp only [if_neg htail, List.take_of_length_le (not_lt.mp htail),
        List.drop_eq_nil_of_le (not_lt.mp htail)]
      rfl
  rw [syncBytesToStringsChecked, rawNumStringsChecked_eq]
  change (do
    let loaded ← (List.range' 1 (highestStringWithValidOffset bytes)).foldlM
      (offsetRound bytes) ([none], 0)
    let strings ← outOfBoundsChecked bytes (wordAt 2 bytes 0)
      (highestStringWithValidOffset bytes) loaded.1
    .ok (splitTailData bytes strings (max (2 + 2 * wordAt 2 bytes 0) (loaded.2 + 1)))) = _
  rw [hloop]
  change (do
    let strings ← outOfBoundsChecked bytes (wordAt 2 bytes 0) (highestStringWithValidOffset bytes)
      ([none] ++ (loadedStrings bytes).map Prod.fst)
    .ok (splitTailData bytes strings (regularStrSectionEnd bytes))) = _
  rw [outOfBoundsChecked_eq]
  exact congrArg Except.ok hsplit

/-- The offset stored for an id: two bytes, or the one byte that an odd length
leaves of it. -/
def entryOffset (bytes : List UInt8) (stringId : ℕ) : Option ℕ :=
  if 2 * stringId + 2 ≤ bytes.length then
    some (wordAt 2 bytes (2 * stringId))
  else if 2 * stringId + 1 = bytes.length then
    some (wordAt 1 bytes (2 * stringId))
  else
    none

/-- A string that is loaded is the one that starts at the offset. -/
theorem maximalRun_of_loadString {offset : ℕ} (hload : (loadString bytes offset).1 = some chars) :
    offset < bytes.length ∧ MaximalRun bytes offset chars := by
  by_cases hinside : offset < bytes.length
  · rw [fst_loadString hinside, Option.some.injEq] at hload
    exact ⟨hinside, hload ▸ maximalRun_cString hinside.le⟩
  · rw [loadString, if_neg hinside] at hload
    cases hload

@[simp]
theorem length_loadedStrings (bytes : List UInt8) :
    (loadedStrings bytes).length = highestStringWithValidOffset bytes := by
  simp [loadedStrings]

theorem length_outOfBoundsStrings (bytes : List UInt8) : (outOfBoundsStrings bytes).length =
      wordAt 2 bytes 0 - highestStringWithValidOffset bytes := by
  unfold outOfBoundsStrings
  simp only
  split
  · split
    · rw [List.length_cons, List.length_replicate]
      omega
    · exact List.length_replicate
  · rw [List.length_nil]
    omega

theorem length_strings_syncBytesToStrings (bytes : List UInt8) :
    (syncBytesToStrings bytes).strings.length = wordAt 2 bytes 0 + 1 := by
  have hle : highestStringWithValidOffset bytes ≤ wordAt 2 bytes 0 := Nat.min_le_left _ _
  simp only [syncBytesToStrings, List.length_append, List.length_cons,
    List.length_map, length_loadedStrings, length_outOfBoundsStrings]
  omega

/-- A string behind the complete offsets is the one of the half offset. -/
theorem entryOffset_of_outOfBounds {index : ℕ}
    (hget : (outOfBoundsStrings bytes)[index]? = some (some chars)) :
    ∃ offset, entryOffset bytes (highestStringWithValidOffset bytes + 1 + index) = some offset ∧
      offset < bytes.length ∧ MaximalRun bytes offset chars := by
  unfold outOfBoundsStrings at hget
  simp only at hget
  split at hget
  · rename_i hmissing
    split at hget
    · rename_i hodd
      cases index with
      | zero =>
          rw [List.getElem?_cons_zero, Option.some.injEq] at hget
          obtain ⟨hinside, hrun⟩ := maximalRun_of_loadString hget
          -- In a section of one byte that byte is the count, which is not 0.
          have hthree : bytes.length ≠ 1 := by
            intro hone
            have hcount : wordAt 2 bytes 0 = wordAt 1 bytes (bytes.length - 1) := by
              rw [hone, wordAt, wordAt, List.drop_zero, List.take_of_length_le (by omega),
                List.take_of_length_le (by omega)]
            omega
          have hposition : 2 * (highestStringWithValidOffset bytes + 1 + 0) + 1 = bytes.length := by
            rw [highestStringWithValidOffset] at hmissing ⊢
            split at hmissing <;> split <;> omega
          refine ⟨wordAt 1 bytes (bytes.length - 1), ?_, hinside, hrun⟩
          rw [entryOffset, if_neg (by omega), if_pos hposition]
          congr 2
          omega
      | succ index =>
          rw [List.getElem?_cons_succ] at hget
          have hmem := List.mem_of_getElem? hget
          cases List.eq_of_mem_replicate hmem
    · have hmem := List.mem_of_getElem? hget
      cases List.eq_of_mem_replicate hmem
  · rw [List.getElem?_nil] at hget
    cases hget

/-- Every stored string is the maximal run at its offset. -/
theorem maximalRun_of_strings
    (hget : (syncBytesToStrings bytes).strings[stringId]? = some (some chars)) :
    ∃ offset, entryOffset bytes stringId = some offset ∧
      offset < bytes.length ∧ MaximalRun bytes offset chars := by
  cases stringId with
  | zero => cases hget
  | succ index =>
      simp only [syncBytesToStrings, List.cons_append, List.getElem?_cons_succ] at hget
      by_cases hcomplete : index < highestStringWithValidOffset bytes
      · have hloaded : (loadString bytes (wordAt 2 bytes (2 + 2 * index))).1 = some chars := by
          rw [List.getElem?_append_left (by simpa using hcomplete),
            loadedStrings, List.map_map, List.getElem?_map,
            List.getElem?_range hcomplete] at hget
          exact Option.some.inj hget
        obtain ⟨hinside, hrun⟩ := maximalRun_of_loadString hloaded
        have hposition : 2 + 2 * index = 2 * (index + 1) := by omega
        have hentry : 2 * (index + 1) + 2 ≤ bytes.length := by
          rw [highestStringWithValidOffset] at hcomplete
          split at hcomplete <;> omega
        refine ⟨_, ?_, hinside, hrun⟩
        rw [entryOffset, if_pos hentry, hposition]
      · have hfront : ((loadedStrings bytes).map Prod.fst).length ≤ index := by
          simpa using hcomplete
        rw [List.getElem?_append_right hfront] at hget
        obtain ⟨offset, hentry, hrest⟩ := entryOffset_of_outOfBounds hget
        refine ⟨offset, ?_, hrest⟩
        rw [← hentry]
        congr 1
        rw [List.length_map, length_loadedStrings]
        omega

/-- Decoding returns on every vector, so it reads only inside it; it fills one
slot for each claimed string and slot 0, every string it stores is the maximal
run at its offset, and it drops no byte. -/
theorem syncBytesToStrings_total (bytes : List UInt8) :
    ∃ table, syncBytesToStringsChecked bytes = .ok table ∧
      table.strings.length = wordAt 2 bytes 0 + 1 ∧
      table.strings[0]? = some none ∧
      (∀ stringId chars, table.strings[stringId]? = some (some chars) →
        ∃ offset, entryOffset bytes stringId = some offset ∧
          offset < bytes.length ∧ MaximalRun bytes offset chars) ∧
      table.stringBytes ++ table.tailData = bytes :=
  ⟨syncBytesToStrings bytes, syncBytesToStringsChecked_eq bytes,
    length_strings_syncBytesToStrings bytes, rfl,
    fun _ _ => maximalRun_of_strings, List.take_append_drop _ bytes⟩

end StrSection

end Chkdraft.Sections
