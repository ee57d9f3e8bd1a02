import Chkdraft.Sections.KstrSection
import Chkdraft.Sections.StrDecoding

/-!
# Decoding a damaged KSTR section

The decoder with every access to the byte vector checked.  Where the section
ends inside the offsets it looks at one, two or three bytes of the last one;
the two bytes are taken from behind the section and the single byte from
another place.  The properties are read without a check that their table is
whole.  The conditions under which it nevertheless reads inside the vector and
gives each id the string of its own offset are spelled out here.
-/

namespace Chkdraft.Sections

open Binary

variable {index offset width : ℕ} {strings : List (Option EditorString)}

variable {bytes : List UInt8} {stringId : ℕ}

namespace KstrSection

/-- `KstrSection::loadString` with its accesses checked: it looks for the
string as the STR section does and returns nothing. -/
def loadStringChecked (bytes : List UInt8)
    (strings : List (Option EditorString)) (stringOffset : ℕ) :
    Except Hazard (List (Option EditorString)) := do
  let loaded ← StrSection.loadStringChecked bytes [] stringOffset
  .ok (strings ++ loaded.1.map fun string =>
    string.map fun chars => ⟨chars, StrProp.default⟩)

/-- The properties of the string just pushed, if its id has some. -/
def loadProperties (bytes : List UInt8)
    (rawNumStrings highestStringWithValidProperties stringId : ℕ)
    (strings : List (Option EditorString)) :
    Except Hazard (List (Option EditorString)) :=
  if stringId ≤ highestStringWithValidProperties then
    match strings[stringId]? with
    | none => .error .undefinedBehavior
    | some none => .ok strings
    | some (some string) => do
        let properties ← readChars bytes (4 + 4 * rawNumStrings + 4 * stringId) 4
        .ok (strings.set stringId (some { string with properties := StrProp.unpack properties }))
  else
    .ok strings

/-- One round of the loop over the complete offsets. -/
def offsetRound (bytes : List UInt8) (rawNumStrings highestStringWithValidProperties : ℕ)
    (strings : List (Option EditorString)) (stringId : ℕ) :
    Except Hazard (List (Option EditorString)) := do
  let stringOffset ← readWord 4 bytes (4 + 4 * stringId)
  let strings ← loadStringChecked bytes strings stringOffset
  loadProperties bytes rawNumStrings highestStringWithValidProperties stringId strings

/-- The strings behind the complete offsets, up to the claimed number. -/
def outOfBoundsChecked (bytes : List UInt8) (rawNumStrings highestStringWithValidOffset : ℕ)
    (strings : List (Option EditorString)) :
    Except Hazard (List (Option EditorString)) :=
  let stringId := highestStringWithValidOffset + 1
  if highestStringWithValidOffset < rawNumStrings then
    if bytes.length % 4 = 3 then do
      let stringOffset ← readWord 3 bytes (bytes.length - 3)
      let strings ← loadStringChecked bytes strings stringOffset
      .ok (strings ++ List.replicate (rawNumStrings + 1 - (stringId + 1)) none)
    else if bytes.length % 4 = 2 then do
      let stringOffset ← readWord 2 bytes bytes.length
      let strings ← loadStringChecked bytes strings stringOffset
      .ok (strings ++ List.replicate (rawNumStrings + 1 - (stringId + 1)) none)
    else if bytes.length % 4 = 1 then do
      let stringOffset ← readWord 1 bytes (4 * highestStringWithValidOffset)
      let strings ← loadStringChecked bytes strings stringOffset
      .ok (strings ++ List.replicate (rawNumStrings + 1 - (stringId + 1)) none)
    else
      .ok (strings ++ List.replicate (rawNumStrings + 1 - stringId) none)
  else
    .ok strings

/-- The version, 0 in a section that does not hold one. -/
def versionChecked (bytes : List UInt8) : Except Hazard ℕ :=
  if bytes.length ≥ 4 then readWord 4 bytes 0 else .ok 0

/-- The claimed number of strings; one to three bytes of it may be there. -/
def rawNumStringsChecked (bytes : List UInt8) : Except Hazard ℕ :=
  if bytes.length ≥ 8 then
    readWord 4 bytes 4
  else if bytes.length = 7 then
    readWord 3 bytes 4
  else if bytes.length = 6 then
    readWord 2 bytes 4
  else if bytes.length = 5 then
    readWord 1 bytes 4
  else
    .ok 0

/-- `KstrSection::syncBytesToStrings` with its accesses checked. -/
def syncBytesToStringsChecked (bytes : List UInt8) : Except Hazard KstrSection := do
  let version ← versionChecked bytes
  let rawNumStrings ← rawNumStringsChecked bytes
  let highestStringWithValidOffset := min rawNumStrings
    (if bytes.length < 12 then 0 else (bytes.length - 8) / 4)
  let highestStringWithValidProperties := min rawNumStrings
    (if bytes.length < 12 then 0 else (bytes.length - 8) / 8)
  let loaded ← (List.range' 1 highestStringWithValidOffset).foldlM
    (offsetRound bytes rawNumStrings highestStringWithValidProperties) [none]
  let strings ← outOfBoundsChecked bytes rawNumStrings highestStringWithValidOffset loaded
  .ok ⟨version, strings, bytes⟩

/-! ## What the checked decoder returns -/

theorem loadStringChecked_eq (bytes : List UInt8)
    (strings : List (Option EditorString)) (stringOffset : ℕ) :
    loadStringChecked bytes strings stringOffset =
      .ok (strings ++ [loadString bytes stringOffset]) := by
  rw [loadStringChecked, StrSection.loadStringChecked_eq]
  change Except.ok (strings ++ [_]) = _
  rw [loadString]
  by_cases hinside : stringOffset < bytes.length
  · rw [StrSection.fst_loadString hinside, if_pos hinside]
    rfl
  · rw [StrSection.loadString, if_neg hinside, if_neg hinside]
    rfl

theorem versionChecked_eq (bytes : List UInt8) : versionChecked bytes =
      .ok (if bytes.length ≥ 4 then wordAt 4 bytes 0 else 0) := by
  unfold versionChecked
  split
  · rename_i hfour
    exact readWord_of_le (by omega)
  · rfl

/-- A word that the section ends in is read with the bytes that are there. -/
theorem wordAt_eq_of_length (hlength : bytes.length = offset + width)
    (hwidth : width ≤ 4) : wordAt width bytes offset = wordAt 4 bytes offset := by
  rw [wordAt, wordAt, List.take_of_length_le, List.take_of_length_le]
  · rw [List.length_drop]
    omega
  · rw [List.length_drop]
    omega

theorem rawNumStringsChecked_eq (bytes : List UInt8) :
    rawNumStringsChecked bytes = .ok (rawNumStrings bytes) := by
  unfold rawNumStringsChecked rawNumStrings
  split
  · rename_i height
    exact readWord_of_le (by omega)
  · split
    · rename_i hseven
      rw [readWord_of_le (by omega), wordAt_eq_of_length hseven (by omega)]
    · split
      · rename_i hsix
        rw [readWord_of_le (by omega), wordAt_eq_of_length hsix (by omega)]
      · split
        · rename_i hfive
          rw [readWord_of_le (by omega), wordAt_eq_of_length hfive (by omega)]
        · rw [wordAt, List.drop_eq_nil_of_le (by omega)]
          rfl

/-- The round of an id returns unless its properties lie outside. -/
def roundInside (bytes : List UInt8) (stringId : ℕ) : Bool :=
  !(stringId ≤ highestStringWithValidProperties bytes) ||
    ((loadString bytes (wordAt 4 bytes (4 + 4 * stringId))).isNone ||
      propertiesPos bytes stringId + 4 ≤ bytes.length)

theorem offsetRound_eq (hinside : 4 + 4 * stringId + 4 ≤ bytes.length)
    (hlength : strings.length = stringId) :
    offsetRound bytes (rawNumStrings bytes)
        (highestStringWithValidProperties bytes) strings stringId =
      if roundInside bytes stringId then
        .ok (strings ++ [loadedString bytes stringId])
      else
        .error .undefinedBehavior := by
  rw [offsetRound, readWord_of_le hinside]
  change (do
    let strings ← loadStringChecked bytes strings (wordAt 4 bytes (4 + 4 * stringId))
    loadProperties bytes (rawNumStrings bytes)
      (highestStringWithValidProperties bytes) stringId strings) = _
  rw [loadStringChecked_eq]
  change loadProperties bytes (rawNumStrings bytes)
    (highestStringWithValidProperties bytes) stringId
      (strings ++ [loadString bytes (wordAt 4 bytes (4 + 4 * stringId))]) = _
  have hpushed : ∀ string : Option EditorString,
      (strings ++ [string])[stringId]? = some string := by
    intro string
    rw [← hlength, List.getElem?_concat_length]
  have hset : ∀ old string : Option EditorString,
      (strings ++ [old]).set stringId string = strings ++ [string] := by
    intro old string
    rw [← hlength, List.set_append_right _ _ le_rfl, Nat.sub_self]
    rfl
  unfold loadProperties roundInside loadedString
  by_cases hproperties : stringId ≤ highestStringWithValidProperties bytes
  · simp only [if_pos hproperties, hpushed, decide_eq_true hproperties,
      Bool.not_true, Bool.false_or]
    cases hload : loadString bytes (wordAt 4 bytes (4 + 4 * stringId)) with
    | none => rfl
    | some string =>
        by_cases hfits : propertiesPos bytes stringId + 4 ≤ bytes.length
        · have hread : readChars bytes (4 + 4 * rawNumStrings bytes + 4 * stringId) 4 =
              .ok ((bytes.drop (propertiesPos bytes stringId)).take 4) :=
            if_pos hfits
          simp only [Option.isNone_some, Bool.false_or, decide_eq_true hfits,
            if_true, hread, Option.map_some]
          change Except.ok _ = _
          rw [hset]
        · have hread : readChars bytes (4 + 4 * rawNumStrings bytes + 4 * stringId) 4 =
              .error .undefinedBehavior := if_neg hfits
          simp only [Option.isNone_some, Bool.false_or, decide_eq_false hfits,
            Bool.false_eq_true, if_false, hread]
          rfl
  · simp only [if_neg hproperties, decide_eq_false hproperties, Bool.not_false,
      Bool.true_or, if_true]

/-- The loop over the complete offsets, by induction on their number: each
round finds as many strings as its id says. -/
theorem foldlM_offsetRound (first count : ℕ)
    (hinside : ∀ stringId, first ≤ stringId → stringId < first + count →
      4 + 4 * stringId + 4 ≤ bytes.length) (hlength : strings.length = first) :
    (List.range' first count).foldlM (offsetRound bytes (rawNumStrings bytes)
        (highestStringWithValidProperties bytes)) strings =
      if (List.range' first count).all (roundInside bytes) then
        .ok (strings ++ (List.range' first count).map (loadedString bytes))
      else
        .error .undefinedBehavior := by
  induction count generalizing first strings with
  | zero =>
      simp only [List.range'_zero, List.foldlM_nil, List.all_nil, if_true,
        List.map_nil, List.append_nil]
      rfl
  | succ count ih =>
      have hfirst := hinside first le_rfl (by omega)
      rw [List.range'_succ, List.foldlM_cons, offsetRound_eq hfirst hlength, List.all_cons]
      by_cases hround : roundInside bytes first = true
      · have hnext : (strings ++ [loadedString bytes first]).length =
            first + 1 := by
          rw [List.length_append, hlength, List.length_singleton]
        rw [if_pos hround, hround, Bool.true_and]
        refine (ih (first + 1) (fun stringId hle hlt =>
          hinside stringId (by omega) (by omega)) hnext).trans ?_
        rw [List.map_cons, List.append_assoc, List.singleton_append]
      · rw [if_neg hround, Bool.eq_false_of_not_eq_true hround, Bool.false_and]
        rfl

/-- One string through part of an offset, the others null. -/
theorem loadPartial_eq (hinside : offset + width ≤ bytes.length)
    (strings rest : List (Option EditorString)) :
    (do
      let stringOffset ← readWord width bytes offset
      let strings ← loadStringChecked bytes strings stringOffset
      .ok (strings ++ rest) : Except Hazard (List (Option EditorString))) =
      .ok (strings ++ loadString bytes (wordAt width bytes offset) :: rest) := by
  rw [readWord_of_le hinside]
  change (do
    let strings ← loadStringChecked bytes strings (wordAt width bytes offset)
    .ok (strings ++ rest)) = _
  rw [loadStringChecked_eq]
  change Except.ok (strings ++ [_] ++ rest) = _
  rw [List.append_assoc, List.singleton_append]

theorem outOfBoundsChecked_eq (bytes : List UInt8) (strings : List (Option EditorString)) :
    outOfBoundsChecked bytes (rawNumStrings bytes) (highestStringWithValidOffset bytes) strings =
      if highestStringWithValidOffset bytes < rawNumStrings bytes && bytes.length % 4 = 2 then
        .error .undefinedBehavior
      else
        .ok (strings ++ outOfBoundsStrings bytes) := by
  unfold outOfBoundsChecked outOfBoundsStrings
  by_cases hmissing : highestStringWithValidOffset bytes < rawNumStrings bytes
  · have hsome : 0 < rawNumStrings bytes - highestStringWithValidOffset bytes := by
      omega
    have hrest : rawNumStrings bytes + 1 - (highestStringWithValidOffset bytes + 1 + 1) =
        rawNumStrings bytes - highestStringWithValidOffset bytes - 1 := by
      omega
    have hall : rawNumStrings bytes + 1 - (highestStringWithValidOffset bytes + 1) =
        rawNumStrings bytes - highestStringWithValidOffset bytes := by
      omega
    simp only [if_pos hmissing, if_pos hsome, decide_eq_true hmissing,
      Bool.true_and, hrest, hall, decide_eq_true_eq]
    by_cases hthree : bytes.length % 4 = 3
    · have hinside : bytes.length - 3 + 3 ≤ bytes.length := by omega
      rw [if_pos hthree, if_neg (by omega), if_pos hthree]
      exact loadPartial_eq hinside strings _
    · rw [if_neg hthree, if_neg hthree]
      by_cases htwo : bytes.length % 4 = 2
      · rw [if_pos htwo, if_pos htwo]
        have houtside : readWord 2 bytes bytes.length =
            .error .undefinedBehavior := if_neg (by omega)
        rw [houtside]
        rfl
      · rw [if_neg htwo, if_neg htwo, if_neg htwo]
        by_cases hone : bytes.length % 4 = 1
        · have hinside : 4 * highestStringWithValidOffset bytes + 1 ≤
              bytes.length := by
            rw [highestStringWithValidOffset]
            split <;> omega
          rw [if_pos hone, if_pos hone]
          exact loadPartial_eq hinside strings _
        · rw [if_neg hone, if_neg hone]
  · have hnone : ¬ 0 < rawNumStrings bytes - highestStringWithValidOffset bytes := by
      omega
    simp only [if_neg hmissing, if_neg hnone, decide_eq_false hmissing,
      Bool.false_and, Bool.false_eq_true, if_false, List.append_nil]

/-- All rounds return exactly when the properties read are inside. -/
theorem all_roundInside_iff (bytes : List UInt8) :
    (List.range' 1 (highestStringWithValidOffset bytes)).all (roundInside bytes) = true ↔
      ∀ stringId, 0 < stringId → stringId ≤ highestStringWithValidProperties bytes →
        (loadString bytes (wordAt 4 bytes (4 + 4 * stringId))).isSome →
          propertiesPos bytes stringId + 4 ≤ bytes.length := by
  have hle : highestStringWithValidProperties bytes ≤ highestStringWithValidOffset bytes := by
    rw [highestStringWithValidProperties, highestStringWithValidOffset]
    split <;> omega
  rw [List.all_eq_true]
  constructor
  · intro hall stringId hpos hid hstring
    have hmem : stringId ∈ List.range' 1 (highestStringWithValidOffset bytes) := by
      rw [List.mem_range'_1]
      omega
    have hround := hall stringId hmem
    rw [roundInside, decide_eq_true hid, Bool.not_true, Bool.false_or,
      Bool.or_eq_true, decide_eq_true_eq] at hround
    rcases hround with hnone | hfits
    · rw [Option.isNone_iff_eq_none] at hnone
      rw [hnone] at hstring
      cases hstring
    · exact hfits
  · intro hfits stringId hmem
    have hpos : 0 < stringId := (List.mem_range'_1.mp hmem).1
    by_cases hid : stringId ≤ highestStringWithValidProperties bytes
    · have hproperties := hfits stringId hpos hid
      cases hload : loadString bytes (wordAt 4 bytes (4 + 4 * stringId)) with
      | none => simp [roundInside, hload]
      | some string =>
          have hinside := hproperties (by rw [hload]; rfl)
          simp [roundInside, hinside]
    · simp [roundInside, hid]

theorem readsInside_eq (bytes : List UInt8) : readsInside bytes =
      ((List.range' 1 (highestStringWithValidOffset bytes)).all (roundInside bytes) &&
        !(highestStringWithValidOffset bytes < rawNumStrings bytes && bytes.length % 4 = 2)) := by
  rw [readsInside]
  congr 1
  rw [Bool.eq_iff_iff, all_roundInside_iff, List.all_eq_true]
  constructor
  · intro hall stringId hpos hid hstring
    obtain ⟨index, rfl⟩ := Nat.exists_eq_add_of_lt hpos
    rw [Nat.zero_add] at hid hstring ⊢
    have hround := hall index (List.mem_range.mpr (by omega))
    rw [Bool.or_eq_true, decide_eq_true_eq] at hround
    rcases hround with hnone | hfits
    · rw [Option.isNone_iff_eq_none] at hnone
      rw [hnone] at hstring
      cases hstring
    · exact hfits
  · intro hfits index hmem
    have hid := List.mem_range.mp hmem
    cases hload : loadString bytes (wordAt 4 bytes (4 + 4 * (index + 1))) with
    | none => rfl
    | some string =>
        have hinside := hfits (index + 1) (by omega) (by omega) (by rw [hload]; rfl)
        simp [hinside]

/-- The checked decoder returns the table that `syncBytesToStrings` describes,
or reads outside the section. -/
theorem syncBytesToStringsChecked_eq (bytes : List UInt8) : syncBytesToStringsChecked bytes =
      if readsInside bytes then .ok (syncBytesToStrings bytes)
      else .error .undefinedBehavior := by
  have hinside : ∀ stringId, 1 ≤ stringId → stringId < 1 + highestStringWithValidOffset bytes →
        4 + 4 * stringId + 4 ≤ bytes.length := by
    intro stringId hle hlt
    rw [highestStringWithValidOffset] at hlt
    split at hlt <;> omega
  have hloop := foldlM_offsetRound 1 (highestStringWithValidOffset bytes)
    hinside (rfl : ([none] : List (Option EditorString)).length = 1)
  have hloaded : (List.range' 1 (highestStringWithValidOffset bytes)).map (loadedString bytes) =
      (List.range (highestStringWithValidOffset bytes)).map
        (fun index => loadedString bytes (index + 1)) := by
    rw [List.range'_eq_map_range, List.map_map]
    apply List.map_congr_left
    intro index _
    rw [Function.comp_apply, Nat.add_comm]
  rw [syncBytesToStringsChecked, versionChecked_eq, rawNumStringsChecked_eq, readsInside_eq]
  change (do
    let loaded ← (List.range' 1 (highestStringWithValidOffset bytes)).foldlM
      (offsetRound bytes (rawNumStrings bytes) (highestStringWithValidProperties bytes)) [none]
    let strings ← outOfBoundsChecked bytes (rawNumStrings bytes)
      (highestStringWithValidOffset bytes) loaded
    .ok (KstrSection.mk (if bytes.length ≥ 4 then wordAt 4 bytes 0 else 0) strings bytes)) = _
  rw [hloop, hloaded]
  by_cases hrounds : (List.range' 1 (highestStringWithValidOffset bytes)).all
      (roundInside bytes) = true
  · rw [if_pos hrounds, hrounds, Bool.true_and]
    change (do
      let strings ← outOfBoundsChecked bytes (rawNumStrings bytes)
        (highestStringWithValidOffset bytes) _
      .ok _) = _
    rw [outOfBoundsChecked_eq]
    by_cases htwo : (decide (highestStringWithValidOffset bytes <
        rawNumStrings bytes) && decide (bytes.length % 4 = 2)) = true
    · rw [if_pos htwo, htwo]
      rfl
    · rw [if_neg htwo, Bool.eq_false_of_not_eq_true htwo]
      rfl
  · rw [if_neg hrounds, Bool.eq_false_of_not_eq_true hrounds]
    rfl

/-! ## Whose string an id gets -/

/-- The characters at an offset, if it lies inside the section. -/
def stringAt (bytes : List UInt8) (offset : ℕ) : Option ScStr :=
  if offset < bytes.length then some (cString bytes offset) else none

/-- The characters the offset entry of an id designates.  Of an entry that the
section ends in, the bytes that are there count. -/
def designated (bytes : List UInt8) (stringId : ℕ) : Option ScStr :=
  if 4 + 4 * stringId < bytes.length then
    stringAt bytes (wordAt 4 bytes (4 + 4 * stringId))
  else
    none

/-- The decoder reads inside the vector, fills one slot for each claimed string
and slot 0, and gives every id the string its offset entry designates. -/
def DecodesAligned (bytes : List UInt8) : Prop :=
  ∃ table, syncBytesToStringsChecked bytes = .ok table ∧
    table.strings.length = rawNumStrings bytes + 1 ∧
    table.strings[0]? = some none ∧
    ∀ stringId, 0 < stringId → stringId ≤ rawNumStrings bytes →
      table.strings[stringId]?.map (·.map EditorString.chars) = some (designated bytes stringId)

/-- The conditions under which the decoder does so. -/
structure Decodable (bytes : List UInt8) : Prop where
  /-- The properties of the strings with complete offsets are inside. -/
  properties : ∀ stringId, 0 < stringId → stringId ≤ highestStringWithValidProperties bytes →
    (designated bytes stringId).isSome → 8 + 4 * rawNumStrings bytes + 4 * stringId ≤ bytes.length
  /-- The offsets do not end with two bytes of one. -/
  twoBytes : highestStringWithValidOffset bytes < rawNumStrings bytes → bytes.length % 4 ≠ 2
  /-- The three bytes of a count without offsets do not lead to a string. -/
  threeBytes : bytes.length = 7 → rawNumStrings bytes = 0 ∨ 7 ≤ rawNumStrings bytes
  /-- The byte taken for a single byte of an offset leads to the same string. -/
  oneByte : highestStringWithValidOffset bytes < rawNumStrings bytes →
    bytes.length % 4 = 1 → stringAt bytes
          (wordAt 1 bytes (4 * highestStringWithValidOffset bytes)) =
        designated bytes (highestStringWithValidOffset bytes + 1)

theorem chars_loadString (bytes : List UInt8) (offset : ℕ) :
    (loadString bytes offset).map EditorString.chars = stringAt bytes offset := by
  unfold loadString stringAt
  split <;> rfl

theorem chars_loadedString (hinside : 4 + 4 * stringId + 4 ≤ bytes.length) :
    (loadedString bytes stringId).map EditorString.chars = designated bytes stringId := by
  rw [designated, if_pos (by omega), ← chars_loadString, loadedString]
  split
  · rw [Option.map_map]
    rfl
  · rfl

/-- The slots behind the complete offsets: one through part of an offset, the
others null. -/
theorem getElem?_outOfBoundsStrings_succ
    (hindex : highestStringWithValidOffset bytes + 1 + index < rawNumStrings bytes) :
    (outOfBoundsStrings bytes)[index + 1]? = some none := by
  have hsome : 0 < rawNumStrings bytes - highestStringWithValidOffset bytes := by
    omega
  simp only [outOfBoundsStrings, if_pos hsome]
  have hnull : (List.replicate (rawNumStrings bytes - highestStringWithValidOffset bytes - 1)
        (none : Option EditorString))[index]? = some none := by
    rw [List.getElem?_replicate, if_pos (by omega)]
  split
  · exact hnull
  · split
    · exact hnull
    · split
      · exact hnull
      · rw [List.getElem?_replicate, if_pos (by omega)]

theorem length_outOfBoundsStrings (bytes : List UInt8) : (outOfBoundsStrings bytes).length =
      rawNumStrings bytes - highestStringWithValidOffset bytes := by
  unfold outOfBoundsStrings
  simp only
  split
  · rename_i hsome
    have hcons : ∀ string : Option EditorString, (string :: List.replicate (rawNumStrings bytes -
          highestStringWithValidOffset bytes - 1) none).length =
        rawNumStrings bytes - highestStringWithValidOffset bytes := by
      intro string
      rw [List.length_cons, List.length_replicate]
      omega
    split
    · exact hcons _
    · split
      · exact hcons _
      · split
        · exact hcons _
        · exact List.length_replicate
  · rw [List.length_nil]
    omega

theorem length_strings_syncBytesToStrings (bytes : List UInt8) :
    (syncBytesToStrings bytes).strings.length = rawNumStrings bytes + 1 := by
  have hle : highestStringWithValidOffset bytes ≤ rawNumStrings bytes := Nat.min_le_left _ _
  simp only [syncBytesToStrings, List.length_append, List.length_cons,
    List.length_map, List.length_range, length_outOfBoundsStrings]
  omega

theorem getElem?_strings_of_lt (hindex : index < highestStringWithValidOffset bytes) :
    (syncBytesToStrings bytes).strings[index + 1]? = some (loadedString bytes (index + 1)) := by
  have hlength : index < ((List.range (highestStringWithValidOffset bytes)).map
        (fun index => loadedString bytes (index + 1))).length := by
    simpa using hindex
  rw [syncBytesToStrings, List.cons_append, List.getElem?_cons_succ,
    List.getElem?_append_left hlength, List.getElem?_map, List.getElem?_range hindex]
  rfl

theorem getElem?_strings_add (bytes : List UInt8) (index : ℕ) :
    (syncBytesToStrings bytes).strings[highestStringWithValidOffset bytes + 1 + index]? =
      (outOfBoundsStrings bytes)[index]? := by
  have hlength : (none :: (List.range (highestStringWithValidOffset bytes)).map
        (fun index => loadedString bytes (index + 1))).length =
      highestStringWithValidOffset bytes + 1 := by
    simp
  rw [syncBytesToStrings, List.getElem?_append_right (by omega), hlength, Nat.add_sub_cancel_left]

section

variable (hmissing : highestStringWithValidOffset bytes < rawNumStrings bytes)

include hmissing

/-- With ids left over, the complete offsets are those that fit. -/
theorem highestStringWithValidOffset_of_lt : highestStringWithValidOffset bytes =
      if bytes.length < 12 then 0 else (bytes.length - 8) / 4 := by
  rw [highestStringWithValidOffset] at hmissing ⊢
  omega

/-- The first slot behind the complete offsets is right under the conditions on
the bytes left of an offset, and only then. -/
theorem firstOutOfBounds_iff (htwo : bytes.length % 4 ≠ 2) :
    (outOfBoundsStrings bytes)[0]?.map (·.map EditorString.chars) =
        some (designated bytes (highestStringWithValidOffset bytes + 1)) ↔
      (bytes.length = 7 → 7 ≤ rawNumStrings bytes) ∧ (bytes.length % 4 = 1 → stringAt bytes
            (wordAt 1 bytes (4 * highestStringWithValidOffset bytes)) =
          designated bytes (highestStringWithValidOffset bytes + 1)) := by
  have hsome : 0 < rawNumStrings bytes - highestStringWithValidOffset bytes := by
    omega
  have hfive : 5 ≤ bytes.length := by
    by_contra hshort
    have hzero : rawNumStrings bytes = 0 := by
      rw [rawNumStrings, wordAt, List.drop_eq_nil_of_le (by omega)]
      rfl
    omega
  have hhighest := highestStringWithValidOffset_of_lt hmissing
  simp only [outOfBoundsStrings, if_pos hsome]
  by_cases hthree : bytes.length % 4 = 3
  · rw [if_pos hthree, List.getElem?_cons_zero, Option.map_some,
      chars_loadString, Option.some.injEq]
    by_cases hseven : bytes.length = 7
    · -- The bytes of the count are taken for those of an offset.
      have hcount : wordAt 3 bytes (bytes.length - 3) = rawNumStrings bytes := by
        rw [hseven, rawNumStrings]
        exact wordAt_eq_of_length hseven (by omega)
      rw [hcount, designated, if_neg (by omega), stringAt]
      constructor
      · intro hnone
        refine ⟨fun _ => ?_, fun hone => by omega⟩
        by_contra hlt
        rw [if_pos (by omega)] at hnone
        cases hnone
      · rintro ⟨hle, -⟩
        rw [if_neg (by have hge := hle hseven; omega)]
    · have hposition : bytes.length - 3 = 4 + 4 * (highestStringWithValidOffset bytes + 1) := by
        rw [hhighest]
        split <;> omega
      have hoffset : wordAt 3 bytes (bytes.length - 3) = wordAt 4 bytes (bytes.length - 3) :=
        wordAt_eq_of_length (by omega) (by omega)
      rw [hoffset, hposition, designated, if_pos (by omega)]
      constructor
      · intro _
        exact ⟨fun h => absurd h hseven, fun hone => by omega⟩
      · intro _
        rfl
  · rw [if_neg hthree, if_neg htwo]
    by_cases hone : bytes.length % 4 = 1
    · rw [if_pos hone, List.getElem?_cons_zero, Option.map_some,
        chars_loadString, Option.some.injEq]
      constructor
      · intro heq
        exact ⟨fun hseven => by omega, fun _ => heq⟩
      · rintro ⟨-, heq⟩
        exact heq hone
    · have hbehind : ¬ 4 + 4 * (highestStringWithValidOffset bytes + 1) <
          bytes.length := by
        rw [hhighest]
        split <;> omega
      rw [if_neg hone, List.getElem?_replicate, if_pos hsome, designated, if_neg hbehind]
      constructor
      · intro _
        exact ⟨fun hseven => by omega, fun h => absurd h hone⟩
      · intro _
        rfl

/-- No part of an offset is left for the ids behind the first one that has no
complete offset. -/
theorem designated_of_lt (hid : highestStringWithValidOffset bytes + 1 < stringId) :
    designated bytes stringId = none := by
  rw [highestStringWithValidOffset_of_lt hmissing] at hid
  rw [designated, if_neg]
  split at hid <;> omega

end

/-- The checks of `readsInside` in terms of the strings designated. -/
theorem readsInside_iff (bytes : List UInt8) : readsInside bytes = true ↔
      (∀ stringId, 0 < stringId → stringId ≤ highestStringWithValidProperties bytes →
        (designated bytes stringId).isSome →
          8 + 4 * rawNumStrings bytes + 4 * stringId ≤ bytes.length) ∧
      (highestStringWithValidOffset bytes < rawNumStrings bytes → bytes.length % 4 ≠ 2) := by
  have hdesignated : ∀ stringId, 0 < stringId → stringId ≤ highestStringWithValidProperties bytes →
      (loadString bytes (wordAt 4 bytes (4 + 4 * stringId))).isSome =
        (designated bytes stringId).isSome := by
    intro stringId hpos hid
    have hinside : 4 + 4 * stringId < bytes.length := by
      rw [highestStringWithValidProperties] at hid
      split at hid <;> omega
    rw [designated, if_pos hinside, ← chars_loadString, Option.isSome_map]
  have hpos : ∀ stringId, propertiesPos bytes stringId + 4 =
      8 + 4 * rawNumStrings bytes + 4 * stringId := by
    intro stringId
    rw [propertiesPos]
    omega
  rw [readsInside_eq, Bool.and_eq_true, all_roundInside_iff]
  apply and_congr
  · constructor
    · intro hfits stringId hid hle hstring
      rw [← hpos]
      exact hfits stringId hid hle (hdesignated stringId hid hle ▸ hstring)
    · intro hfits stringId hid hle hstring
      rw [hpos]
      exact hfits stringId hid hle (hdesignated stringId hid hle ▸ hstring)
  · by_cases hmissing : highestStringWithValidOffset bytes < rawNumStrings bytes
    · simp [hmissing]
    · simp [hmissing]

/-- Under the conditions every id has the string its offset entry designates:
those with complete offsets, the first one without, and the others. -/
theorem Decodable.slot (hconditions : Decodable bytes) (hpos : 0 < stringId)
    (hle : stringId ≤ rawNumStrings bytes) :
    (syncBytesToStrings bytes).strings[stringId]?.map
        (·.map EditorString.chars) = some (designated bytes stringId) := by
  obtain ⟨index, rfl⟩ := Nat.exists_eq_add_of_lt hpos
  rw [Nat.zero_add] at hle ⊢
  by_cases hcomplete : index < highestStringWithValidOffset bytes
  · have hentry : 4 + 4 * (index + 1) + 4 ≤ bytes.length := by
      rw [highestStringWithValidOffset] at hcomplete
      split at hcomplete <;> omega
    rw [getElem?_strings_of_lt hcomplete, Option.map_some, chars_loadedString hentry]
  · have hmissing : highestStringWithValidOffset bytes < rawNumStrings bytes := by
      omega
    obtain ⟨later, rfl⟩ := Nat.exists_eq_add_of_le (not_lt.mp hcomplete)
    rw [Nat.add_right_comm, getElem?_strings_add]
    cases later with
    | zero =>
        refine (firstOutOfBounds_iff hmissing (hconditions.twoBytes hmissing)).mpr ⟨?_, ?_⟩
        · intro hseven
          exact (hconditions.threeBytes hseven).resolve_left (by omega)
        · exact hconditions.oneByte hmissing
    | succ later =>
        rw [getElem?_outOfBoundsStrings_succ (by omega), designated_of_lt hmissing (by omega)]
        rfl

/-- The decoder is safe and aligned exactly under the conditions listed. -/
theorem decodesAligned_iff (bytes : List UInt8) : DecodesAligned bytes ↔ Decodable bytes := by
  constructor
  · rintro ⟨table, hdecode, -, -, hslots⟩
    rw [syncBytesToStringsChecked_eq] at hdecode
    by_cases hinside : readsInside bytes = true
    · rw [if_pos hinside, Except.ok.injEq] at hdecode
      obtain ⟨hproperties, htwo⟩ := (readsInside_iff bytes).mp hinside
      have hfirst : highestStringWithValidOffset bytes < rawNumStrings bytes →
          (bytes.length = 7 → 7 ≤ rawNumStrings bytes) ∧ (bytes.length % 4 = 1 → stringAt bytes
                (wordAt 1 bytes (4 * highestStringWithValidOffset bytes)) =
              designated bytes (highestStringWithValidOffset bytes + 1)) := by
        intro hmissing
        have hslot := hslots (highestStringWithValidOffset bytes + 1) (by omega) (by omega)
        rw [← hdecode, ← Nat.add_zero (highestStringWithValidOffset bytes + 1),
          getElem?_strings_add, Nat.add_zero] at hslot
        exact (firstOutOfBounds_iff hmissing (htwo hmissing)).mp hslot
      refine ⟨hproperties, htwo, ?_, fun hmissing => (hfirst hmissing).2⟩
      intro hseven
      by_cases hmissing : highestStringWithValidOffset bytes < rawNumStrings bytes
      · exact Or.inr ((hfirst hmissing).1 hseven)
      · left
        rw [highestStringWithValidOffset] at hmissing
        rw [if_pos (by omega)] at hmissing
        omega
    · rw [if_neg hinside] at hdecode
      cases hdecode
  · intro hconditions
    have hinside : readsInside bytes = true :=
      (readsInside_iff bytes).mpr ⟨hconditions.properties, hconditions.twoBytes⟩
    refine ⟨syncBytesToStrings bytes, ?_, length_strings_syncBytesToStrings bytes, rfl, ?_⟩
    · rw [syncBytesToStringsChecked_eq, if_pos hinside]
    · intro stringId hpos hle
      exact hconditions.slot hpos hle

/-- One string and two bytes of its offset: they are looked for behind the
section. -/
theorem not_decodesAligned_two_bytes : ¬ DecodesAligned [3, 0, 0, 0, 1, 0, 0, 0, 4, 0] ∧
      syncBytesToStringsChecked [3, 0, 0, 0, 1, 0, 0, 0, 4, 0] = .error .undefinedBehavior := by
  have herror : syncBytesToStringsChecked [3, 0, 0, 0, 1, 0, 0, 0, 4, 0] =
      .error .undefinedBehavior := by
    decide
  refine ⟨?_, herror⟩
  rintro ⟨table, hdecode, -⟩
  rw [herror] at hdecode
  cases hdecode

end KstrSection

end Chkdraft.Sections
