import Chkdraft.Sections.KstrSection

/-!
# The encoders without a synchronizer

Each string section holds a copy of the encoder that a scenario supplies when
it is saved; the copy runs when there is no synchronizer.  The two STR encoders
are the same.  The copy in the KSTR section puts the offset of a null string
into the slot in front of its own, so the two differ on every table that has a
null string and that they encode at all.  The properties of a single string both
store behind their vector.
-/

namespace Chkdraft.Sections

open Binary

variable {after before entries : List (Option EditorString)} {count index : ℕ}
  {bytes final : List UInt8}

/-- Both calls throw or both return the same bytes, and neither accesses
anything outside its vector. -/
def Agree : Except SectionError (List UInt8) → Except SectionError (List UInt8) → Prop
  | .error left, .error right => ¬ left.IsHazard ∧ ¬ right.IsHazard
  | .ok left, .ok right => left = right
  | _, _ => False

namespace StrSection

/-- One round of the encoding loop of the section. -/
def sectionPutString (initialNulOffset index : ℕ) (bytes : List UInt8) : Option ScStr → List UInt8
  | none => overwrite bytes (2 * index) (littleEndian 2 initialNulOffset)
  | some chars =>
      overwrite bytes (2 * index) (littleEndian 2 bytes.length) ++ (chars ++ [0])

def sectionPutStrings (initialNulOffset : ℕ) : ℕ → List (Option ScStr) → List UInt8 → List UInt8
  | _, [], bytes => bytes
  | index, string :: rest, bytes =>
      sectionPutStrings initialNulOffset (index + 1) rest
        (sectionPutString initialNulOffset index bytes string)

/-- `StrSection::syncStringsToBytes` for a null `strSynchronizer`. -/
def sectionSyncStringsToBytes (strings : List (Option ScStr)) : Except SectionError (List UInt8) :=
  let maxStrings := (65535 - 2) / 2
  let numStrings := if strings.length > 0 then strings.length - 1 else 0
  if numStrings > maxStrings then
    .error (.maximumStringsExceeded numStrings maxStrings)
  else
    let sizeAndOffsetSpaceAndNulSpace := 2 + 2 * numStrings + 1
    let sectionSize := sizeAndOffsetSpaceAndNulSpace + charactersLength strings.tail
    let maxStandardSize := 65535
    if sectionSize > maxStandardSize then
      .error (.maximumCharactersExceeded
        (sectionSize - sizeAndOffsetSpaceAndNulSpace) maxStandardSize)
    else
      let stringBytes := overwrite (List.replicate (2 + 2 * numStrings) 0) 0
        (littleEndian 2 numStrings)
      .ok (sectionPutStrings stringBytes.length 1 strings.tail (stringBytes ++ [0]))

theorem sectionPutStrings_eq (initialNulOffset index : ℕ)
    (entries : List (Option ScStr)) (bytes : List UInt8) :
    sectionPutStrings initialNulOffset index entries bytes =
      putStrings initialNulOffset index entries bytes := by
  induction entries generalizing index bytes with
  | nil => rfl
  | cons entry rest ih =>
      have hround : sectionPutString initialNulOffset index bytes entry =
          putString initialNulOffset index bytes entry := by
        cases entry <;> rfl
      rw [sectionPutStrings, putStrings, hround, ih]

theorem sectionSyncStringsToBytes_eq (strings : List (Option ScStr)) :
    sectionSyncStringsToBytes strings = syncStringsToBytes strings := by
  have hnum : (if strings.length > 0 then strings.length - 1 else 0) = strings.length - 1 := by
    split <;> omega
  simp only [sectionSyncStringsToBytes, hnum, sectionPutStrings_eq]
  rfl

/-- The encoder stays inside its vector and the two always agree. -/
theorem agree_sectionSync (strings : List (Option ScStr)) :
    Agree (sectionSyncStringsToBytes strings) (syncStringsToBytes strings) := by
  rw [sectionSyncStringsToBytes_eq, syncStringsToBytes]
  simp only
  split
  · simp [Agree, SectionError.IsHazard]
  · split
    · simp [Agree, SectionError.IsHazard]
    · rfl

end StrSection

namespace KstrSection

/-- `KstrSection::syncStringsToBytes` for a null `strSynchronizer`.  Its loop
puts the offset of a null string at `sizeof(u32)*i`. -/
def sectionSyncStringsToBytes (strings : List (Option EditorString)) :
    Except SectionError (List UInt8) :=
  let maxStrings := (2 ^ 31 - 1 - 2 * 4) / 4
  let numStrings := if strings.length > 0 then strings.length - 1 else 0
  if numStrings > maxStrings then
    .error (.maximumStringsExceeded numStrings maxStrings)
  else
    let fixedSpace := 8 + 8 * numStrings + 1
    let sectionSize := fixedSpace + charactersLength strings.tail
    let maxStandardSize := 2 ^ 31 - 1
    if sectionSize > maxStandardSize then
      .error (.maximumCharactersExceeded (sectionSize - fixedSpace) maxStandardSize)
    else
      let stringBytes := overwrite (List.replicate (8 + 8 * numStrings) 0) 0
        (littleEndian 4 currentVersion ++ littleEndian 4 numStrings)
      putStrings 0 numStrings stringBytes.length 1 strings.tail (stringBytes ++ [0])

/-- Without null strings the rounds of the two encoders are the same. -/
theorem putStrings_nullStart_eq (hnone : none ∉ entries)
    (nullStart other numStrings nul index : ℕ) (bytes : List UInt8) :
    putStrings nullStart numStrings nul index entries bytes =
      putStrings other numStrings nul index entries bytes := by
  induction entries generalizing index bytes with
  | nil => rfl
  | cons entry rest ih =>
      cases entry with
      | none => exact absurd List.mem_cons_self hnone
      | some string =>
          have hrest : none ∉ rest := fun hmem => hnone (List.mem_cons_of_mem _ hmem)
          simp only [putStrings, putString]
          cases storeString numStrings index bytes string with
          | error error => rfl
          | ok stored => exact ih hrest (index + 1) stored

theorem sectionSyncStringsToBytes_eq (strings : List (Option EditorString)) :
    sectionSyncStringsToBytes strings = encodeFrom 0 strings := by
  have hnum : (if strings.length > 0 then strings.length - 1 else 0) =
      strings.tail.length := by
    rw [List.length_tail]
    split <;> omega
  have hmax : (2 ^ 31 - 1 - 2 * 4) / 4 = maxStrings := rfl
  have hfixed : 8 + 8 * strings.tail.length + 1 = 9 + 8 * strings.tail.length := by
    omega
  simp only [sectionSyncStringsToBytes, encodeFrom, hnum, hmax, hfixed,
    length_sized, sized_append_nul, Nat.add_sub_cancel_left]

/-- A run of rounds of the section's encoder leaves everything in front of the
slot of the id before alone. -/
theorem take_sectionPutStrings (hindex : index + entries.length ≤ count + 1)
    (hlength : 9 + 8 * count ≤ bytes.length)
    (hput : putStrings 0 count (8 + 8 * count) index entries bytes = .ok final) :
    final.take (4 * index) = bytes.take (4 * index) ∧ 9 + 8 * count ≤ final.length := by
  induction entries generalizing index bytes with
  | nil =>
      rw [← Except.ok.inj hput]
      exact ⟨rfl, hlength⟩
  | cons entry rest ih =>
      rw [List.length_cons] at hindex
      cases hround : putString 0 count (8 + 8 * count) index bytes entry with
      | error error => simp [putStrings, hround] at hput
      | ok stored =>
          simp only [putStrings, hround] at hput
          obtain ⟨hfirst, hstored⟩ := take_putString (Nat.zero_le 4) (by omega) hlength hround
          rw [Nat.zero_add] at hfirst
          obtain ⟨hrest, hfinal⟩ := ih (by omega) hstored hput
          refine ⟨?_, hfinal⟩
          have htake := congrArg (List.take (4 * index)) hrest
          rw [List.take_take, List.take_take, Nat.min_eq_left (by omega)] at htake
          rw [htake, hfirst]

theorem sectionPutStrings_append {nul : ℕ}
    (hput : putStrings 0 count nul index (before ++ after) bytes = .ok final) :
    ∃ middle, putStrings 0 count nul index before bytes = .ok middle ∧
      putStrings 0 count nul (index + before.length) after middle = .ok final := by
  induction before generalizing index bytes with
  | nil => exact ⟨bytes, rfl, hput⟩
  | cons entry rest ih =>
      rw [List.cons_append, putStrings] at hput
      cases hround : putString 0 count nul index bytes entry with
      | error error => simp [hround] at hput
      | ok stored =>
          simp only [hround] at hput
          obtain ⟨middle, hbefore, hafter⟩ := ih hput
          refine ⟨middle, ?_, ?_⟩
          · rw [putStrings, hround]
            exact hbefore
          · rw [List.length_cons, Nat.add_comm rest.length, ← Nat.add_assoc]
            exact hafter

/-- The section's encoder leaves the offset of the initial NUL in front of the
slot of a null string. -/
theorem wordAt_sectionPutStrings_none
    (hcount : before.length + 1 + after.length = count) (hlt : 8 + 8 * count < 2 ^ 32)
    (hput : putStrings 0 count (8 + 8 * count) 1
      (before ++ none :: after) (blankBytes count) = .ok final) :
    wordAt 4 final (4 * (before.length + 1)) = 8 + 8 * count := by
  have hblank : 9 + 8 * count ≤ (blankBytes count).length := by
    simp only [blankBytes, List.length_append, length_littleEndian,
      List.length_replicate, List.length_singleton]
    omega
  obtain ⟨middle, hbefore, hput⟩ := sectionPutStrings_append hput
  have hmiddle := (take_sectionPutStrings (by omega) hblank hbefore).2
  rw [putStrings, putString, Nat.zero_add] at hput
  have hnulLength : 9 + 8 * count ≤ (overwrite middle (4 * (1 + before.length))
      (littleEndian 4 (8 + 8 * count))).length := by
    rw [length_overwrite (by rw [length_littleEndian]; omega)]
    exact hmiddle
  have hfinal := (take_sectionPutStrings (by omega) hnulLength hput).1
  have hinside : 4 * (1 + before.length) ≤ middle.length := by omega
  have hwritten := take_overwrite_self (littleEndian 4 (8 + 8 * count)) hinside
  have hnext : 4 * (1 + before.length + 1) = 4 * (1 + before.length) +
      (littleEndian 4 (8 + 8 * count)).length := by
    rw [length_littleEndian]
    omega
  rw [hnext, hwritten] at hfinal
  have hword : wordAt 4 (final.take (4 * (1 + before.length) +
      (littleEndian 4 (8 + 8 * count)).length)) (4 * (1 + before.length)) =
      wordAt 4 final (4 * (1 + before.length)) :=
    wordAt_take (by rw [length_littleEndian]) final
  have hfront : (middle.take (4 * (1 + before.length))).length = 4 * (1 + before.length) := by
    rw [List.length_take, Nat.min_eq_left hinside]
  rw [Nat.add_comm before.length 1, ← hword, hfinal, wordAt,
    List.drop_left' hfront, List.take_of_length_le (by simp),
    littleEndianValue_littleEndian]
  exact Nat.mod_eq_of_lt hlt

/-- The other encoder has the count or the offset of a stored string there, if
the null string is the first one. -/
theorem wordAt_encoding_ne {ids before after : List (Option ScStr)}
    (hencoding : Encoding ids.length ids bytes) (hids : ids.length ≤ maxStrings)
    (hbytes : bytes.length < 2 ^ 32) (hsplit : ids = before ++ none :: after)
    (hfirst : none ∉ before) :
    wordAt 4 bytes (4 * (before.length + 1)) ≠ 8 + 8 * ids.length := by
  rcases List.eq_nil_or_concat before with rfl | ⟨front, last, rfl⟩
  · have hcount := (hencoding.wordAt_four hids).2
    rw [rawNumStrings] at hcount
    rw [List.length_nil, Nat.zero_add, Nat.mul_one, hcount]
    omega
  · cases last with
    | none => exact absurd (by simp) hfirst
    | some chars =>
        have hwords := (hencoding.words_eq hbytes).1
        have hindex : front.length < ids.length := by
          rw [hsplit]
          simp
        have hword := congrArg (fun words => words[front.length]?) hwords
        simp only [List.getElem?_map, List.getElem?_range hindex, Option.map_some] at hword
        have hoffset : ∀ nul base, (poolOffsets nul base ids)[front.length]? =
            some (base + (pool front).length) := by
          intro nul base
          rw [hsplit, List.concat_eq_append, List.append_assoc, poolOffsets_append,
            List.getElem?_append_right (length_poolOffsets nul base front).le,
            length_poolOffsets, Nat.sub_self]
          rfl
        rw [hoffset, Option.some.injEq] at hword
        have hslot : 4 * ((front.concat (some chars)).length + 1) = 8 + 4 * front.length := by
          rw [List.length_concat]
          omega
        rw [hslot, hword]
        omega

/-- On a table that can be encoded the two encoders produce the same bytes
exactly when it has no null string. -/
theorem sectionSync_eq_iff {strings : List (Option EditorString)}
    {left right : List UInt8}
    (hleft : sectionSyncStringsToBytes strings = .ok left)
    (hright : syncStringsToBytes strings = .ok right) :
    left = right ↔ none ∉ strings.tail := by
  obtain ⟨hmax, hsize, hencoding⟩ := encoding_of_syncStringsToBytes hright
  constructor
  · rintro rfl hnull
    rw [sectionSyncStringsToBytes_eq, encodeFrom, if_neg (by omega), if_neg (by omega)] at hleft
    obtain ⟨before, after, hsplit, hfirst⟩ := List.eq_append_cons_of_mem hnull
    have hids : entryChars strings.tail = entryChars before ++ none :: entryChars after := by
      rw [hsplit]
      simp [entryChars]
    have hfirstIds : none ∉ entryChars before := by
      intro hmem
      obtain ⟨entry, hentry, hnone⟩ := List.mem_map.mp hmem
      rw [Option.map_eq_none_iff] at hnone
      exact hfirst (hnone ▸ hentry)
    have hlength : (entryChars strings.tail).length = strings.tail.length := by
      rw [entryChars, List.length_map]
    have hmaxStrings : maxStrings = 536870909 := rfl
    have hpool := length_pool_le strings.tail
    have hbytes := hencoding.length_eq
    rw [← hlength] at hencoding
    have hother := wordAt_encoding_ne hencoding (hlength ▸ hmax) (by omega) hids hfirstIds
    have hcount : before.length + 1 + after.length = strings.tail.length := by
      rw [hsplit]
      simp
      omega
    have hnul := wordAt_sectionPutStrings_none hcount (by omega) (by rw [← hsplit]; exact hleft)
    rw [hlength, entryChars, List.length_map] at hother
    exact hother hnul
  · intro hnone
    rw [sectionSyncStringsToBytes_eq, encodeFrom, putStrings_nullStart_eq hnone 0 4,
      ← encodeFrom, ← syncStringsToBytes_eq, hright] at hleft
    exact (Except.ok.inj hleft).symm

theorem agree_sectionSync_iff (strings : List (Option EditorString)) :
    Agree (sectionSyncStringsToBytes strings) (syncStringsToBytes strings) ↔
      (Encodable strings → none ∉ strings.tail ∧ strings.tail.length ≠ 1) := by
  have hleft := encodeFrom_outcome (Nat.zero_le 4) strings
  have hright := encodeFrom_outcome le_rfl strings
  rw [← sectionSyncStringsToBytes_eq] at hleft
  rw [← syncStringsToBytes_eq] at hright
  obtain ⟨hthrows, error, hthrown, hright⟩ | ⟨hencodable, ⟨string, hsingle⟩, hright⟩ |
    ⟨hencodable, hsingle, right, hright⟩ := hright
  · obtain ⟨-, other, hother, hleft⟩ := hleft.resolve_right (by tauto)
    rw [hleft, hright]
    exact iff_of_true ⟨hother, hthrown⟩ fun h => absurd h hthrows
  · -- Both store the properties behind their vectors.
    apply iff_of_false
    · rw [hright]
      cases sectionSyncStringsToBytes strings with
      | error other => exact fun hboth => hboth.2 (Or.inr rfl)
      | ok left => exact id
    · intro hcondition
      exact (hcondition hencodable).2 (by rw [hsingle]; rfl)
  · have hlength : none ∉ strings.tail → strings.tail.length ≠ 1 := by
      intro hnone hone
      obtain ⟨only, htail⟩ := List.length_eq_one_iff.mp hone
      cases only with
      | none => exact hnone (htail ▸ List.mem_cons_self)
      | some string => exact hsingle string htail
    obtain ⟨-, -, left, hleft⟩ := (hleft.resolve_left (by tauto)).resolve_left (by tauto)
    rw [hleft, hright]
    constructor
    · intro heq _
      have hnone := (sectionSync_eq_iff hleft hright).mp heq
      exact ⟨hnone, hlength hnone⟩
    · intro hcondition
      exact (sectionSync_eq_iff hleft hright).mpr (hcondition hencodable).1

end KstrSection

/-- The encoders of both sections agree with those of the scenario. -/
def EncodersAgree (strings : List (Option ScStr))
    (editorStrings : List (Option EditorString)) : Prop :=
  Agree (StrSection.sectionSyncStringsToBytes strings) (StrSection.syncStringsToBytes strings) ∧
    Agree (KstrSection.sectionSyncStringsToBytes editorStrings)
      (KstrSection.syncStringsToBytes editorStrings)

/-- They do exactly when the editor strings cannot be encoded, or none of them
is null and they are not a single one; the game strings do not matter. -/
theorem encodersAgree_iff (strings : List (Option ScStr))
    (editorStrings : List (Option EditorString)) :
    EncodersAgree strings editorStrings ↔ (KstrSection.Encodable editorStrings →
        none ∉ editorStrings.tail ∧ editorStrings.tail.length ≠ 1) := by
  rw [EncodersAgree, KstrSection.agree_sectionSync_iff]
  exact and_iff_right (StrSection.agree_sectionSync strings)

/-- A table whose only string is null: the section's encoder overwrites the
count. -/
theorem not_encodersAgree_null : ¬ EncodersAgree [] [none, none] ∧
      KstrSection.sectionSyncStringsToBytes [none, none] = .ok
        [3, 0, 0, 0, 16, 0, 0, 0, 0, 0, 0, 0, 0, 0, 0, 0, 0] ∧
      KstrSection.syncStringsToBytes [none, none] = .ok
        [3, 0, 0, 0, 1, 0, 0, 0, 16, 0, 0, 0, 0, 0, 0, 0, 0] := by
  have hsection : KstrSection.sectionSyncStringsToBytes [none, none] = .ok
      [3, 0, 0, 0, 16, 0, 0, 0, 0, 0, 0, 0, 0, 0, 0, 0, 0] := by
    decide
  have hstrings : KstrSection.syncStringsToBytes [none, none] = .ok
      [3, 0, 0, 0, 1, 0, 0, 0, 16, 0, 0, 0, 0, 0, 0, 0, 0] := by
    decide
  refine ⟨?_, hsection, hstrings⟩
  rintro ⟨-, hkstr⟩
  rw [hsection, hstrings] at hkstr
  revert hkstr
  simp [Agree]

end Chkdraft.Sections
