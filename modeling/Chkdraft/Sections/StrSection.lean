import Mathlib.Data.List.MinMax
import Chkdraft.Core.StringPool
import Chkdraft.Sections.ChkSection

/-!
# The STR section

Game strings are kept as a table indexed by string id, with the unused id 0 in
front, and are stored as a 16-bit count, 16-bit offsets and NUL-terminated
characters.  Writing checks the number of ids and a sum of character lengths
against 65535 and then computes the offsets from the growing byte vector;
reading follows whatever offsets it finds and keeps every byte behind the last
string it reached as tail data.
-/

namespace Chkdraft.Sections

open Binary

variable {bytes : List UInt8} {offset : ℕ}

/-- The characters of an `ScStr`, without the NUL that ends its allocation. -/
abbrev ScStr := List UInt8

structure StrSection where
  strings : List (Option ScStr)
  stringBytes : List UInt8
  bytePaddedTo : ℕ
  initialTailDataOffset : ℕ
  tailData : List UInt8
deriving DecidableEq

variable {ids strings : List (Option ScStr)}

namespace StrSection

/-- The characters of every id, a null string counted as an empty one. -/
def characters (table : StrSection) : List ScStr := table.strings.tail.map (·.getD [])

/-- The constructor: no strings, not even the unused id 0. -/
def empty : StrSection := ⟨[], [], 4, 0, []⟩

/-- `StrSection::GetDefault(true)`: only the unused id 0. -/
def default : StrSection := ⟨[none], [], 4, 0, []⟩

/-- Ids whose offsets fit in front of offset 65535. -/
def maxStrings : ℕ := (65535 - 2) / 2

/-- The sum of the lengths of the stored strings, as the limit check adds them
up: the NUL that ends each of them is not counted. -/
def charactersLength (strings : List (Option ScStr)) : ℕ :=
  (strings.map fun string => (string.getD []).length).sum

/-- One round of the encoding loop: the offset of an id, and the characters of
a stored string at the end of the vector. -/
def putString (initialNulOffset index : ℕ) (bytes : List UInt8) : Option ScStr → List UInt8
  | none => overwrite bytes (2 * index) (littleEndian 2 initialNulOffset)
  | some chars =>
      overwrite bytes (2 * index) (littleEndian 2 bytes.length) ++ (chars ++ [0])

def putStrings (initialNulOffset : ℕ) : ℕ → List (Option ScStr) → List UInt8 → List UInt8
  | _, [], bytes => bytes
  | index, string :: rest, bytes =>
      putStrings initialNulOffset (index + 1) rest (putString initialNulOffset index bytes string)

/-- `Strings::syncStringsToBytes`, which a scenario supplies as the
synchronizer when it is saved. -/
def syncStringsToBytes (strings : List (Option ScStr)) : Except SectionError (List UInt8) :=
  let numStrings := strings.length - 1
  if numStrings > maxStrings then
    .error (.maximumStringsExceeded numStrings maxStrings)
  else
    let sizeAndOffsetSpaceAndNulSpace := 2 + 2 * numStrings + 1
    let sectionSize := sizeAndOffsetSpaceAndNulSpace + charactersLength strings.tail
    if sectionSize > 65535 then
      .error (.maximumCharactersExceeded (sectionSize - sizeAndOffsetSpaceAndNulSpace) 65535)
    else
      let sized := overwrite (List.replicate (2 + 2 * numStrings) 0) 0 (littleEndian 2 numStrings)
      .ok (putStrings sized.length 1 strings.tail (sized ++ [0]))

/-- `StrSection::loadString`: the string at an offset and the index of its last
byte, which is the NUL behind it unless the section ends first. -/
def loadString (bytes : List UInt8) (stringOffset : ℕ) : Option ScStr × ℕ :=
  if stringOffset < bytes.length then
    let chars := cString bytes stringOffset
    let nullIndex := stringOffset + chars.length
    if nullIndex < bytes.length then
      (some chars, nullIndex)
    else
      (some chars, bytes.length - 1)
  else
    (none, 0)

/-- Number of ids whose 16-bit offset lies inside the section. -/
def highestStringWithValidOffset (bytes : List UInt8) : ℕ :=
  min (wordAt 2 bytes 0) (if bytes.length < 4 then 0 else bytes.length / 2 - 1)

/-- The strings reached through complete offsets, with their last bytes. -/
def loadedStrings (bytes : List UInt8) : List (Option ScStr × ℕ) :=
  (List.range (highestStringWithValidOffset bytes)).map fun index =>
    loadString bytes (wordAt 2 bytes (2 + 2 * index))

/-- Ids whose offsets are not inside the section: one byte of an offset may
still be there, the others are null. -/
def outOfBoundsStrings (bytes : List UInt8) : List (Option ScStr) :=
  let missing := wordAt 2 bytes 0 - highestStringWithValidOffset bytes
  if 0 < missing then
    if bytes.length % 2 > 0 then
      (loadString bytes (wordAt 1 bytes (bytes.length - 1))).1 :: List.replicate (missing - 1) none
    else
      List.replicate missing none
  else
    []

/-- The largest last byte over the loaded strings. -/
def sectionLastCharacter (bytes : List UInt8) : ℕ :=
  ((loadedStrings bytes).map Prod.snd).foldr max 0

/-- Where the offsets and the characters reached through them end. -/
def regularStrSectionEnd (bytes : List UInt8) : ℕ :=
  max (2 + 2 * wordAt 2 bytes 0) (sectionLastCharacter bytes + 1)

/-- `StrSection::syncBytesToStrings` on a byte vector. -/
def syncBytesToStrings (bytes : List UInt8) : StrSection where
  strings := none :: (loadedStrings bytes).map Prod.fst ++ outOfBoundsStrings bytes
  stringBytes := bytes.take (regularStrSectionEnd bytes)
  bytePaddedTo := if regularStrSectionEnd bytes < bytes.length then 0 else 4
  initialTailDataOffset :=
    if regularStrSectionEnd bytes < bytes.length then
      regularStrSectionEnd bytes
    else 0
  tailData := bytes.drop (regularStrSectionEnd bytes)

/-- The vector `read` fills: the tail data of an overridden section is put back
first, the vector grows to the size read, and shrinks to it unless overriding. -/
def readBuffer (size : ℕ) (overriding : Bool) (table : StrSection) : List UInt8 :=
  let stringBytes :=
    if overriding = true ∧ table.tailData.length > 0 then
      table.stringBytes ++ table.tailData
    else
      table.stringBytes
  if size > stringBytes.length then
    stringBytes ++ List.replicate (size - stringBytes.length) 0
  else if overriding = false ∧ size < stringBytes.length then
    stringBytes.take size
  else
    stringBytes

/-- `StrSection::read`. -/
def read (size : ℕ) (overriding : Bool) (table : StrSection)
    (stream : InputStream) : ReadOutcome StrSection :=
  if size > 0 then
    let zeroed := overwrite (readBuffer size overriding table) 0 (List.replicate size 0)
    let (extracted, after) := stream.read size
    ⟨after, .ok (syncBytesToStrings (overwrite zeroed 0 extracted), extracted.length), true⟩
  else if overriding = false then
    ⟨stream, .ok (empty, 0), true⟩
  else
    ⟨stream, .ok (table, 0), true⟩

/-- Bytes of padding in front of the tail data. -/
def tailPadding (table : StrSection) (stringBytesSize : ℕ) : ℕ :=
  if (table.bytePaddedTo = 2 ∨ table.bytePaddedTo = 4) ∧
      stringBytesSize % table.bytePaddedTo ≠ 0 then
    table.bytePaddedTo - stringBytesSize % table.bytePaddedTo
  else
    0

/-- Bytes of strings, padding and tail data. -/
def totalSize (table : StrSection) (stringBytesSize : ℕ) : ℕ :=
  if table.tailData.length > 0 then
    stringBytesSize + table.tailPadding stringBytesSize + table.tailData.length
  else
    stringBytesSize

/-- `StrSection::getSize`. -/
def getSize (table : StrSection) : Except SectionError ℤ :=
  match syncStringsToBytes table.strings with
  | .error error => .error error
  | .ok stringBytes =>
      if table.totalSize stringBytes.length ≤ maxChkSectionSize then
        .ok (sectionSize (table.totalSize stringBytes.length))
      else
        .error (.maxSectionSizeExceeded stringBytes.length)

/-- `StrSection::write`: the body bytes. -/
def write (table : StrSection) : Except SectionError (List UInt8) :=
  match syncStringsToBytes table.strings with
  | .error error => .error error
  | .ok stringBytes =>
      .ok (stringBytes ++
        if table.tailData.length > 0 then
          List.replicate (table.tailPadding stringBytes.length) 0 ++ table.tailData
        else
          [])

/-- `getSize` measures what `write` emits, and never beyond `s32_max`. -/
theorem getSize_eq_length_write {table : StrSection} {size : ℤ}
    {body : List UInt8} (hsize : table.getSize = .ok size)
    (hwrite : table.write = .ok body) : size = body.length := by
  unfold getSize at hsize
  unfold write at hwrite
  cases hsync : syncStringsToBytes table.strings with
  | error error => simp [hsync] at hsize
  | ok stringBytes =>
      simp only [hsync, Except.ok.injEq] at hsize hwrite
      have hlength : body.length = table.totalSize stringBytes.length := by
        rw [← hwrite, totalSize]
        split
        · simp [Nat.add_assoc]
        · simp
      rw [← hlength] at hsize
      split at hsize
      · rename_i hle
        have hlt : body.length < 2 ^ 31 := by
          unfold maxChkSectionSize at hle
          omega
        rw [sectionSize_of_lt hlt] at hsize
        exact (Except.ok.inj hsize).symm
      · cases hsize

theorem putStrings_eq (initialNulOffset index : ℕ)
    (entries : List (Option ScStr)) (head written : List UInt8)
    (hhead : head.length = 2 * index) :
    putStrings initialNulOffset index entries
        (head ++ List.replicate (2 * entries.length) 0 ++ written) =
      head ++ (poolOffsets initialNulOffset (head.length + 2 * entries.length + written.length)
          entries).flatMap (littleEndian 2) ++ (written ++ pool entries) := by
  induction entries generalizing index head written with
  | nil => simp [putStrings, poolOffsets, pool]
  | cons entry rest ih =>
      have hsplit : head ++ List.replicate (2 * (entry :: rest).length) 0 ++
          written = head ++ List.replicate 2 0 ++
            (List.replicate (2 * rest.length) 0 ++ written) := by
        rw [List.length_cons, Nat.mul_succ, Nat.add_comm, List.replicate_add]
        simp only [List.append_assoc]
      -- Writing one offset replaces the first two of the reserved zeros.
      have hwrite : ∀ offset, overwrite (head ++
          List.replicate (2 * (entry :: rest).length) 0 ++ written)
            (2 * index) (littleEndian 2 offset) =
          (head ++ littleEndian 2 offset) ++ List.replicate (2 * rest.length) 0 ++ written := by
        intro offset
        rw [hsplit, ← hhead, overwrite_middle (by simp)]
        simp only [List.append_assoc]
      have hlength : ∀ offset, (head ++ littleEndian 2 offset).length = 2 * (index + 1) := by
        intro offset
        rw [List.length_append, length_littleEndian, hhead]
        omega
      cases entry with
      | none =>
          rw [putStrings, putString, hwrite, ih _ _ _ (hlength _), hlength]
          have hbase : 2 * (index + 1) + 2 * rest.length + written.length =
              head.length + 2 * (none :: rest).length + written.length := by
            rw [List.length_cons]
            omega
          rw [hbase]
          simp [poolOffsets, pool]
      | some chars =>
          rw [putStrings, putString, hwrite]
          have hsize : (head ++ List.replicate
              (2 * (some chars :: rest).length) 0 ++ written).length =
              head.length + 2 * (some chars :: rest).length +
                written.length := by
            simp only [List.length_append, List.length_replicate]
          have hbase : 2 * (index + 1) + 2 * rest.length + (written ++ (chars ++ [0])).length =
              head.length + 2 * (some chars :: rest).length +
                written.length + chars.length + 1 := by
            simp only [List.length_append, List.length_cons, List.length_nil]
            omega
          rw [hsize, List.append_assoc _ written, ih _ _ _ (hlength _), hlength, hbase]
          simp [poolOffsets, pool]

/-- The offsets the encoder computes, before they are cut to 16 bits. -/
def stringOffsets (ids : List (Option ScStr)) : List ℕ :=
  poolOffsets (2 + 2 * ids.length) (3 + 2 * ids.length) ids

/-- Count, offsets, the initial NUL and the characters. -/
def encodedStrings (ids : List (Option ScStr)) : List UInt8 :=
  littleEndian 2 ids.length ++ (stringOffsets ids).flatMap (littleEndian 2) ++ (0 :: pool ids)

def WithinLimits (strings : List (Option ScStr)) : Prop := strings.tail.length ≤ maxStrings ∧
    2 + 2 * strings.tail.length + 1 + charactersLength strings.tail ≤ 65535

theorem syncStringsToBytes_of_withinLimits (hlimits : WithinLimits strings) :
    syncStringsToBytes strings = .ok (encodedStrings strings.tail) := by
  obtain ⟨hcount, hsum⟩ := hlimits
  have hnum : strings.length - 1 = strings.tail.length := by simp
  have hsized : overwrite (List.replicate (2 + 2 * strings.tail.length) 0) 0
      (littleEndian 2 strings.tail.length) =
      littleEndian 2 strings.tail.length ++ List.replicate (2 * strings.tail.length) 0 := by
    simp
  have hlength : (littleEndian 2 strings.tail.length ++
      List.replicate (2 * strings.tail.length) 0).length =
      2 + 2 * strings.tail.length := by
    simp
  have hbase : 2 + 2 * strings.tail.length + [(0 : UInt8)].length =
      3 + 2 * strings.tail.length := by
    rw [List.length_singleton]
    omega
  have hput := putStrings_eq (2 + 2 * strings.tail.length) 1 strings.tail
    (littleEndian 2 strings.tail.length) [0] (by simp)
  rw [length_littleEndian, hbase] at hput
  simp only [syncStringsToBytes, hnum, if_neg (Nat.not_lt.mpr hcount),
    if_neg (Nat.not_lt.mpr hsum), hsized, hlength, hput]
  rfl

theorem withinLimits_of_syncStringsToBytes (hsync : syncStringsToBytes strings = .ok bytes) :
    WithinLimits strings := by
  have hnum : strings.length - 1 = strings.tail.length := by simp
  unfold syncStringsToBytes at hsync
  rw [hnum] at hsync
  by_cases hcount : strings.tail.length > maxStrings
  · simp only [if_pos hcount] at hsync
    cases hsync
  · by_cases hsum : 2 + 2 * strings.tail.length + 1 + charactersLength strings.tail > 65535
    · simp only [if_neg hcount, if_pos hsum] at hsync
      cases hsync
    · exact ⟨by omega, by omega⟩

theorem syncStringsToBytes_eq_ok (hsync : syncStringsToBytes strings = .ok bytes) :
    strings.tail.length ≤ maxStrings ∧ bytes = encodedStrings strings.tail := by
  have hlimits := withinLimits_of_syncStringsToBytes hsync
  rw [syncStringsToBytes_of_withinLimits hlimits] at hsync
  exact ⟨hlimits.1, (Except.ok.inj hsync).symm⟩

theorem length_flatMap_littleEndian (width : ℕ) (values : List ℕ) :
    (values.flatMap (littleEndian width)).length = width * values.length := by
  induction values with
  | nil => simp
  | cons head tail ih =>
      rw [List.flatMap_cons, List.length_append, length_littleEndian, ih,
        List.length_cons, Nat.mul_succ]
      omega

theorem length_encodedStrings (ids : List (Option ScStr)) :
    (encodedStrings ids).length = 3 + 2 * ids.length + (pool ids).length := by
  simp only [encodedStrings, stringOffsets, List.length_append, List.length_cons,
    length_littleEndian, length_flatMap_littleEndian, length_poolOffsets]
  omega

/-- The bytes in front of the pool: count, offsets and the initial NUL. -/
def poolStart (ids : List (Option ScStr)) : List UInt8 :=
  littleEndian 2 ids.length ++ (stringOffsets ids).flatMap (littleEndian 2) ++ [0]

theorem encodedStrings_eq_poolStart_append (ids : List (Option ScStr)) :
    encodedStrings ids = poolStart ids ++ pool ids := by
  simp [encodedStrings, poolStart]

theorem length_poolStart (ids : List (Option ScStr)) :
    (poolStart ids).length = 3 + 2 * ids.length := by
  have hlength := length_encodedStrings ids
  rw [encodedStrings_eq_poolStart_append, List.length_append] at hlength
  omega

/-- Every string of a table has a NUL in front of it and one at its end. -/
theorem getLast?_poolStart_append_pool (ids entries : List (Option ScStr)) :
    (poolStart ids ++ pool entries).getLast? = some 0 := by
  have hpool : pool entries = [] ∨ (pool entries).getLast? = some 0 := by
    induction entries with
    | nil => exact Or.inl rfl
    | cons entry rest ih =>
        cases entry with
        | none => exact ih
        | some chars =>
            right
            rcases ih with hnil | hlast
            · simp [pool, hnil]
            · simp [pool, List.getLast?_cons, hlast]
  rcases hpool with hnil | hlast
  · simp [hnil, poolStart]
  · simp [hlast]

/-- The last byte of an encoded table is a NUL, so every string ends in it. -/
theorem getLast?_encodedStrings (ids : List (Option ScStr)) :
    (encodedStrings ids).getLast? = some 0 := by
  rw [encodedStrings_eq_poolStart_append]
  exact getLast?_poolStart_append_pool ids ids

section

variable (hids : ids.length ≤ maxStrings) (rest : List UInt8)

include hids

theorem wordAt_encodedStrings_append : wordAt 2 (encodedStrings ids ++ rest) 0 = ids.length := by
  have hlt : ids.length < 256 ^ 2 := by
    have hmax : maxStrings = 32766 := rfl
    omega
  rw [wordAt, List.drop_zero, encodedStrings, List.append_assoc,
    List.append_assoc, List.take_left' (length_littleEndian _ _),
    littleEndianValue_littleEndian, Nat.mod_eq_of_lt hlt]

/-- An encoded table has room for all its offsets, whatever follows it. -/
theorem highestStringWithValidOffset_encodedStrings :
    highestStringWithValidOffset (encodedStrings ids ++ rest) =
      ids.length := by
  have hlength := length_encodedStrings ids
  rw [highestStringWithValidOffset, wordAt_encodedStrings_append hids, List.length_append]
  split <;> omega

/-- The decoder follows the encoder's offsets, cut to 16 bits. -/
theorem loadedStrings_encodedStrings :
    loadedStrings (encodedStrings ids ++ rest) = (stringOffsets ids).map fun offset =>
        loadString (encodedStrings ids ++ rest) (offset % 65536) := by
  have hcount : (stringOffsets ids).length = ids.length := by
    simp [stringOffsets]
  have hwords := map_wordAt_flatMap 2 (stringOffsets ids)
    (littleEndian 2 ids.length) (0 :: pool ids ++ rest)
  rw [hcount, length_littleEndian, ← List.append_assoc] at hwords
  rw [loadedStrings, highestStringWithValidOffset_encodedStrings hids]
  calc (List.range ids.length).map (fun index =>
        loadString (encodedStrings ids ++ rest)
          (wordAt 2 (encodedStrings ids ++ rest) (2 + 2 * index)))
      = ((List.range ids.length).map fun index =>
          wordAt 2 (encodedStrings ids ++ rest) (2 + 2 * index)).map
            (loadString (encodedStrings ids ++ rest)) := by
        rw [List.map_map]
        rfl
    _ = ((stringOffsets ids).map (· % 256 ^ 2)).map (loadString (encodedStrings ids ++ rest)) :=
        congrArg _ hwords
    _ = _ := by
        rw [List.map_map]
        rfl

theorem outOfBoundsStrings_encodedStrings :
    outOfBoundsStrings (encodedStrings ids ++ rest) = [] := by
  rw [outOfBoundsStrings, wordAt_encodedStrings_append hids,
    highestStringWithValidOffset_encodedStrings hids]
  simp

end

/-- A string that starts in front of a NUL ends at a NUL. -/
theorem loadString_of_nul {limit : ℕ} (hle : offset ≤ limit) (hnul : bytes[limit]? = some 0) :
    loadString bytes offset = (some (cString bytes offset),
        offset + (cString bytes offset).length) := by
  have hend := add_length_cString_le hle hnul
  have hlt : limit < bytes.length := (List.getElem?_eq_some_iff.mp hnul).1
  rw [loadString, if_pos (by omega)]
  exact if_pos (by omega)

theorem lt_length_encodedStrings (hmem : offset ∈ stringOffsets ids) :
    offset < (encodedStrings ids).length := by
  rw [length_encodedStrings]
  rcases mem_poolOffsets hmem with rfl | ⟨-, hlt⟩ <;> omega

/-- Every offset of the table fits its 16 bits. -/
def OffsetsFit (ids : List (Option ScStr)) : Prop := ∀ offset ∈ stringOffsets ids, offset < 65536

theorem fst_loadString (hlt : offset < bytes.length) :
    (loadString bytes offset).1 = some (cString bytes offset) := by
  rw [loadString, if_pos hlt]
  simp only
  split <;> rfl

/-- Ids without a string are sent to the NUL in front of the characters. -/
theorem cString_initialNul (ids : List (Option ScStr)) (rest : List UInt8) :
    cString (encodedStrings ids ++ rest) (2 + 2 * ids.length) = [] := by
  have hread := cString_append_nil (littleEndian 2 ids.length ++
    (stringOffsets ids).flatMap (littleEndian 2)) (pool ids ++ rest)
  have hlength : (littleEndian 2 ids.length ++
      (stringOffsets ids).flatMap (littleEndian 2)).length =
      2 + 2 * ids.length := by
    rw [List.length_append, length_littleEndian,
      length_flatMap_littleEndian, stringOffsets, length_poolOffsets]
  rw [hlength] at hread
  rw [encodedStrings_eq_poolStart_append]
  simpa [poolStart] using hread

/-- The ids whose offsets fit are read back, whatever the offsets behind them
are cut to. -/
theorem map_fst_loadedStrings_append (before after : List (Option ScStr))
    (hids : (before ++ after).length ≤ maxStrings)
    (hfit : ∀ offset ∈ poolOffsets (2 + 2 * (before ++ after).length)
      (3 + 2 * (before ++ after).length) before, offset < 65536)
    (rest : List UInt8) :
    ∃ others : List ScStr, others.length = after.length ∧
      (loadedStrings (encodedStrings (before ++ after) ++ rest)).map Prod.fst =
        (readBack before ++ others).map some := by
  generalize hall : before ++ after = ids at hids hfit ⊢
  generalize hbytes : encodedStrings ids ++ rest = bytes
  have hsplit : bytes = poolStart ids ++ pool before ++ (pool after ++ rest) := by
    rw [← hbytes, encodedStrings_eq_poolStart_append, ← hall, pool_append]
    simp only [List.append_assoc]
  have hnul : cString bytes (2 + 2 * ids.length) = [] := by
    rw [← hbytes]
    exact cString_initialNul ids rest
  have hbefore := map_cString_poolOffsets before (poolStart ids)
    (pool after ++ rest) (2 + 2 * ids.length) fun _ => hsplit ▸ hnul
  rw [← hsplit, length_poolStart] at hbefore
  have hoffsets : stringOffsets ids =
      poolOffsets (2 + 2 * ids.length) (3 + 2 * ids.length) before ++
        poolOffsets (2 + 2 * ids.length) (3 + 2 * ids.length + (pool before).length) after := by
    rw [stringOffsets, ← poolOffsets_append, hall]
  have hfst : ∀ offset ∈ stringOffsets ids, (loadString bytes (offset % 65536)).1 =
        some (cString bytes (offset % 65536)) := by
    intro offset hoffset
    have hlt := lt_length_encodedStrings hoffset
    have hmod := Nat.mod_le offset 65536
    apply fst_loadString
    rw [← hbytes, List.length_append]
    omega
  refine ⟨(poolOffsets (2 + 2 * ids.length)
    (3 + 2 * ids.length + (pool before).length) after).map fun offset =>
      cString bytes (offset % 65536), by simp, ?_⟩
  rw [← hbytes, loadedStrings_encodedStrings hids, hbytes, List.map_map]
  calc (stringOffsets ids).map (Prod.fst ∘ fun offset => loadString bytes (offset % 65536))
      = (stringOffsets ids).map (some ∘ fun offset => cString bytes (offset % 65536)) :=
        List.map_congr_left hfst
    _ = _ := by
        rw [← List.map_map, hoffsets, List.map_append, ← hbefore]
        congr 2
        apply List.map_congr_left
        intro offset hoffset
        rw [Nat.mod_eq_of_lt (hfit offset hoffset)]

section

variable (hids : ids.length ≤ maxStrings)

include hids

/-- What follows an encoded table does not change the strings read from it. -/
theorem strings_syncBytesToStrings (hfit : OffsetsFit ids) (rest : List UInt8) :
    (syncBytesToStrings (encodedStrings ids ++ rest)).strings =
      none :: (readBack ids).map some := by
  obtain ⟨others, hothers, hloaded⟩ := map_fst_loadedStrings_append ids []
    (by rwa [List.append_nil]) (by rw [List.append_nil]; exact hfit) rest
  obtain rfl : others = [] := List.length_eq_zero_iff.mp hothers
  rw [List.append_nil, List.append_nil] at hloaded
  simp only [syncBytesToStrings, outOfBoundsStrings_encodedStrings hids, hloaded, List.append_nil]

theorem strings_syncBytesToStrings_append (hfree : NulFree ids) (hfit : OffsetsFit ids)
    (rest : List UInt8) :
    (syncBytesToStrings (encodedStrings ids ++ rest)).strings =
      none :: ids.map fun string => some (string.getD []) := by
  rw [strings_syncBytesToStrings hids hfit, readBack_of_nulFree hfree, List.map_map]
  rfl

/-- Whatever the offsets are cut to, no string read passes a NUL that none of
them stands behind. -/
theorem regularStrSectionEnd_le (rest : List UInt8) {limit : ℕ}
    (hnul : (encodedStrings ids)[limit]? = some 0) (hfront : 1 + 2 * ids.length ≤ limit)
    (hbehind : ∀ offset ∈ stringOffsets ids, offset % 65536 ≤ limit) :
    regularStrSectionEnd (encodedStrings ids ++ rest) ≤ limit + 1 := by
  have hlt : limit < (encodedStrings ids).length := (List.getElem?_eq_some_iff.mp hnul).1
  have hnulBefore : (encodedStrings ids ++ rest)[limit]? = some 0 := by
    rw [List.getElem?_append_left hlt, hnul]
  have hreached : sectionLastCharacter (encodedStrings ids ++ rest) ≤ limit := by
    apply List.max_le_of_forall_le
    intro lastByte hlastByte
    rw [loadedStrings_encodedStrings hids, List.map_map] at hlastByte
    obtain ⟨offset, hoffset, rfl⟩ := List.mem_map.mp hlastByte
    rw [Function.comp_apply, loadString_of_nul (hbehind offset hoffset) hnulBefore]
    exact add_length_cString_le (hbehind offset hoffset) hnulBefore
  rw [regularStrSectionEnd, wordAt_encodedStrings_append hids]
  omega

theorem regularStrSectionEnd_le_length (rest : List UInt8) :
    regularStrSectionEnd (encodedStrings ids ++ rest) ≤ (encodedStrings ids).length := by
  have hlength := length_encodedStrings ids
  have hnul : (encodedStrings ids)[(encodedStrings ids).length - 1]? = some 0 := by
    rw [← List.getLast?_eq_getElem?]
    exact getLast?_encodedStrings ids
  have hend := regularStrSectionEnd_le hids rest hnul (by omega) (by
    intro offset hoffset
    have hlt := lt_length_encodedStrings hoffset
    have hmod := Nat.mod_le offset 65536
    omega)
  omega

end

/-- The last stored string has no NUL among its characters. -/
def LastWhole (ids : List (Option ScStr)) : Prop :=
  ∀ chars ∈ (ids.filterMap id).getLast?, (0 : UInt8) ∉ chars

theorem lastWhole_of_nulFree (hfree : NulFree ids) : LastWhole ids := by
  intro chars hlast
  apply hfree
  simpa using List.mem_of_getLast? hlast

/-- The string that ends an encoded table, where it starts, and that no offset
stands behind it. -/
theorem exists_last_string (hpool : pool ids ≠ []) :
    ∃ last chars, last ∈ stringOffsets ids ∧ (ids.filterMap id).getLast? = some chars ∧
      3 + 2 * ids.length ≤ last ∧
      (encodedStrings ids).drop last = chars ++ [0] ∧
      ∀ offset ∈ stringOffsets ids, offset ≤ last := by
  obtain ⟨last, chars, hmem, hlast, hbase, hdrop, hmax⟩ :=
    exists_last_poolOffset (2 + 2 * ids.length) (poolStart ids)
      (by rw [length_poolStart]; omega) hpool
  rw [length_poolStart] at hmem hbase hmax
  rw [← encodedStrings_eq_poolStart_append] at hdrop
  exact ⟨last, chars, hmem, hlast, hbase, hdrop, hmax⟩

/-- When the offsets fit, the last string reached is the last one written. -/
theorem length_le_regularStrSectionEnd (hids : ids.length ≤ maxStrings)
    (hpos : 0 < ids.length) (hfit : OffsetsFit ids) (hwhole : LastWhole ids)
    (rest : List UInt8) :
    (encodedStrings ids).length ≤ regularStrSectionEnd (encodedStrings ids ++ rest) := by
  have hlength := length_encodedStrings ids
  have hnul : (encodedStrings ids ++ rest)[(encodedStrings ids).length - 1]? = some 0 := by
    rw [List.getElem?_append_left (by omega), ← List.getLast?_eq_getElem?]
    exact getLast?_encodedStrings ids
  -- Some id points at the string that ends with the last byte.
  have hlast : ∃ offset ∈ stringOffsets ids, (encodedStrings ids).length - 1 ≤
        offset + (cString (encodedStrings ids ++ rest) offset).length := by
    by_cases hpool : pool ids = []
    · obtain ⟨offset, hoffset⟩ :=
        List.exists_mem_of_length_pos (l := stringOffsets ids) (by simpa [stringOffsets] using hpos)
      refine ⟨offset, hoffset, ?_⟩
      rw [hpool, List.length_nil] at hlength
      rcases mem_poolOffsets hoffset with heq | ⟨hle, -⟩ <;> omega
    · obtain ⟨last, chars, hmem, hlast, -, hdrop, -⟩ := exists_last_string hpool
      refine ⟨last, hmem, ?_⟩
      have hinside := lt_length_encodedStrings hmem
      have hread : cString (encodedStrings ids ++ rest) last = chars := by
        rw [cString, List.drop_append_of_le_length hinside.le, hdrop, List.append_assoc]
        exact takeWhile_append_nul (hwhole chars hlast) rest
      have hcount := congrArg List.length hdrop
      rw [List.length_drop, List.length_append, List.length_singleton] at hcount
      rw [hread]
      omega
  obtain ⟨offset, hoffset, hend⟩ := hlast
  have hloaded : offset + (cString (encodedStrings ids ++ rest) offset).length ∈
      (loadedStrings (encodedStrings ids ++ rest)).map Prod.snd := by
    have hinside := lt_length_encodedStrings hoffset
    rw [loadedStrings_encodedStrings hids, List.map_map]
    refine List.mem_map.mpr ⟨offset, hoffset, ?_⟩
    rw [Function.comp_apply, Nat.mod_eq_of_lt (hfit offset hoffset),
      loadString_of_nul (by omega) hnul]
  have hmax : (encodedStrings ids).length - 1 ≤ sectionLastCharacter (encodedStrings ids ++ rest) :=
    List.le_max_of_le hloaded hend
  rw [regularStrSectionEnd]
  omega

/-- Offsets cut to 16 bits lead in front of every string that starts behind
them, and no string read from there passes the NUL in front of that one. -/
theorem regularStrSectionEnd_le_start {before after : List (Option ScStr)}
    (hids : (before ++ after).length ≤ maxStrings)
    (hwide : 65536 ≤ 3 + 2 * (before ++ after).length + (pool before).length)
    (rest : List UInt8) :
    regularStrSectionEnd (encodedStrings (before ++ after) ++ rest) ≤
      3 + 2 * (before ++ after).length + (pool before).length := by
  generalize hall : before ++ after = ids at hids hwide ⊢
  have hlength : (poolStart ids ++ pool before).length =
      3 + 2 * ids.length + (pool before).length := by
    rw [List.length_append, length_poolStart]
  have hnul : (encodedStrings ids)[3 + 2 * ids.length + (pool before).length - 1]? = some 0 := by
    rw [encodedStrings_eq_poolStart_append]
    nth_rewrite 2 [← hall]
    rw [pool_append, ← List.append_assoc, ← hlength,
      List.getElem?_append_left (by omega), ← List.getLast?_eq_getElem?]
    exact getLast?_poolStart_append_pool ids before
  have hend := regularStrSectionEnd_le hids rest hnul (by omega) (by
    intro offset _
    have hmod : offset % 65536 < 65536 := Nat.mod_lt _ (by norm_num)
    omega)
  omega

section

variable (hids : ids.length ≤ maxStrings)

include hids

/-- The strings in front of the first one whose offset does not fit. -/
theorem exists_first_wide (hfit : ¬ OffsetsFit ids) :
    ∃ before chars after, ids = before ++ some chars :: after ∧
      65536 ≤ 3 + 2 * ids.length + (pool before).length ∧
      ∀ offset ∈ poolOffsets (2 + 2 * ids.length) (3 + 2 * ids.length) before, offset < 65536 := by
  have hmaxStrings : maxStrings = 32766 := rfl
  apply exists_first_poolOffset (by omega)
  simpa [OffsetsFit, stringOffsets] using hfit

theorem regularStrSectionEnd_lt_of_not_offsetsFit (hfit : ¬ OffsetsFit ids) (rest : List UInt8) :
    regularStrSectionEnd (encodedStrings ids ++ rest) < (encodedStrings ids).length := by
  obtain ⟨before, chars, after, rfl, hwide, -⟩ := exists_first_wide hids hfit
  have hend := regularStrSectionEnd_le_start hids hwide rest
  rw [length_encodedStrings, pool_append]
  simp only [pool, List.length_append, List.length_cons] at hend ⊢
  omega

/-- A last string with a NUL in it is only read up to there. -/
theorem regularStrSectionEnd_lt_of_not_lastWhole (hwhole : ¬ LastWhole ids) (rest : List UInt8) :
    regularStrSectionEnd (encodedStrings ids ++ rest) < (encodedStrings ids).length := by
  obtain ⟨chars, hlast, hzero⟩ : ∃ chars,
      (ids.filterMap id).getLast? = some chars ∧ (0 : UInt8) ∈ chars := by
    simpa [LastWhole] using hwhole
  have hmemIds : some chars ∈ ids := by
    simpa using List.mem_of_getLast? hlast
  obtain ⟨last, lastChars, -, hlastChars, hbase, hdrop, hmax⟩ :=
    exists_last_string (pool_ne_nil hmemIds)
  obtain rfl : lastChars = chars := Option.some.inj (hlastChars.symm.trans hlast)
  obtain ⟨front, back, rfl⟩ := List.append_of_mem hzero
  have hnul : (encodedStrings ids)[last + front.length]? = some 0 := by
    rw [← List.getElem?_drop, hdrop]
    simp
  have hcount := congrArg List.length hdrop
  simp only [List.length_drop, List.length_append, List.length_cons, List.length_nil] at hcount
  have hend := regularStrSectionEnd_le hids rest hnul (by omega) (by
    intro offset hoffset
    have hle := hmax offset hoffset
    have hmod := Nat.mod_le offset 65536
    omega)
  omega

/-- Where the strings of an encoded table are taken to end: at its end exactly
when there is an id, every offset fits and the last string is read whole. -/
theorem regularStrSectionEnd_eq_length_iff (rest : List UInt8) :
    regularStrSectionEnd (encodedStrings ids ++ rest) = (encodedStrings ids).length ↔
      0 < ids.length ∧ OffsetsFit ids ∧ LastWhole ids := by
  constructor
  · intro hend
    refine ⟨?_, ?_, ?_⟩
    · by_contra hpos
      obtain rfl : ids = [] := List.length_eq_zero_iff.mp (by omega)
      have hle : regularStrSectionEnd (encodedStrings [] ++ rest) ≤ 2 := by
        rw [regularStrSectionEnd, wordAt_encodedStrings_append hids,
          sectionLastCharacter, loadedStrings_encodedStrings hids]
        simp [stringOffsets, poolOffsets]
      rw [hend, length_encodedStrings] at hle
      exact absurd hle (by simp [pool])
    · by_contra hfit
      have hlt := regularStrSectionEnd_lt_of_not_offsetsFit hids hfit rest
      omega
    · by_contra hwhole
      have hlt := regularStrSectionEnd_lt_of_not_lastWhole hids hwhole rest
      omega
  · rintro ⟨hpos, hfit, hwhole⟩
    exact le_antisymm (regularStrSectionEnd_le_length hids rest)
      (length_le_regularStrSectionEnd hids hpos hfit hwhole rest)

theorem tailData_eq_iff (rest : List UInt8) :
    (syncBytesToStrings (encodedStrings ids ++ rest)).tailData = rest ↔
      0 < ids.length ∧ OffsetsFit ids ∧ LastWhole ids := by
  have hle := regularStrSectionEnd_le_length hids rest
  rw [← regularStrSectionEnd_eq_length_iff hids rest]
  simp only [syncBytesToStrings]
  constructor
  · intro htail
    have hlength := congrArg List.length htail
    rw [List.length_drop, List.length_append] at hlength
    omega
  · intro hend
    rw [hend, List.drop_left]

theorem tailData_encodedStrings_eq_nil_iff (hpos : 0 < ids.length) (hfree : NulFree ids) :
    (syncBytesToStrings (encodedStrings ids)).tailData = [] ↔ OffsetsFit ids := by
  have htail := tailData_eq_iff hids []
  rw [List.append_nil] at htail
  rw [htail]
  exact ⟨fun hreads => hreads.2.1, fun hfit => ⟨hpos, hfit, lastWhole_of_nulFree hfree⟩⟩

end

/-- The table read back has the same ids, each with the characters it had; a
null id is read as an empty string.  No tail data is detected. -/
structure HoldsStrings (strings : List (Option ScStr)) (decoded : StrSection) : Prop where
  size_eq : decoded.strings.length = strings.length
  characters_eq : ∀ stringId, 0 < stringId → stringId < strings.length →
    decoded.strings[stringId]? = some (some ((strings.getD stringId none).getD []))
  tailData_eq : decoded.tailData = []

/-- Every stored string starts within the first 65536 bytes: in front of it
stand the count, the offsets, the initial NUL and the strings of lower ids,
each with its NUL. -/
def StartsWithinWord (strings : List (Option ScStr)) : Prop :=
  ∀ before chars after, strings.tail = before ++ some chars :: after →
    3 + 2 * strings.tail.length + (pool before).length < 65536

/-- An offset of the table is that of the initial NUL or of a stored string. -/
theorem mem_poolOffsets_iff {nul base : ℕ} {entries : List (Option ScStr)} :
    offset ∈ poolOffsets nul base entries ↔ offset = nul ∧ none ∈ entries ∨
        ∃ before chars after, entries = before ++ some chars :: after ∧
          offset = base + (pool before).length := by
  constructor
  · intro hmem
    induction entries generalizing base with
    | nil => simp [poolOffsets] at hmem
    | cons entry rest ih =>
        cases entry with
        | none =>
            rcases List.mem_cons.mp hmem with rfl | hmem
            · exact Or.inl ⟨rfl, List.mem_cons_self⟩
            · rcases ih hmem with ⟨hnul, hnone⟩ | ⟨before, chars, after, rfl, rfl⟩
              · exact Or.inl ⟨hnul, List.mem_cons_of_mem _ hnone⟩
              · exact Or.inr ⟨none :: before, chars, after, rfl, rfl⟩
        | some first =>
            rcases List.mem_cons.mp hmem with rfl | hmem
            · exact Or.inr ⟨[], first, rest, rfl, by simp [pool]⟩
            · rcases ih hmem with ⟨hnul, hnone⟩ | ⟨before, chars, after, rfl, rfl⟩
              · exact Or.inl ⟨hnul, List.mem_cons_of_mem _ hnone⟩
              · refine Or.inr ⟨some first :: before, chars, after, rfl, ?_⟩
                simp only [pool, List.length_append, List.length_cons]
                omega
  · rintro (⟨rfl, hnone⟩ | ⟨before, chars, after, rfl, rfl⟩)
    · obtain ⟨before, after, rfl⟩ := List.append_of_mem hnone
      rw [poolOffsets_append]
      exact List.mem_append_right _ List.mem_cons_self
    · rw [poolOffsets_append]
      exact List.mem_append_right _ List.mem_cons_self

theorem offsetsFit_iff_startsWithinWord (hids : strings.tail.length ≤ maxStrings) :
    OffsetsFit strings.tail ↔ StartsWithinWord strings := by
  have hmaxStrings : maxStrings = 32766 := rfl
  constructor
  · intro hfit before chars after hsplit
    apply hfit
    exact mem_poolOffsets_iff.mpr (Or.inr ⟨before, chars, after, hsplit, rfl⟩)
  · intro hstart offset hmem
    rcases mem_poolOffsets_iff.mp hmem with ⟨rfl, -⟩ | ⟨before, chars, after, hsplit, rfl⟩
    · omega
    · exact hstart before chars after hsplit

/-- Every stored string is what is read at its start, cut to 16 bits. -/
def ReadsAtStarts (strings : List (Option ScStr)) : Prop :=
  ∀ before chars after, strings.tail = before ++ some chars :: after →
    cString (encodedStrings strings.tail)
      ((3 + 2 * strings.tail.length + (pool before).length) % 65536) = chars

/-- An encoded table, whatever follows it, is read back with the characters of
all its ids exactly if each stored string is what is read at its start. -/
theorem characters_syncBytesToStrings_iff
    (hids : strings.tail.length ≤ maxStrings) (rest : List UInt8) :
    (syncBytesToStrings (encodedStrings strings.tail ++ rest)).characters =
        strings.tail.map (·.getD []) ↔ ReadsAtStarts strings := by
  have hread : ∀ offset ∈ stringOffsets strings.tail,
      ((loadString (encodedStrings strings.tail ++ rest) (offset % 65536)).1).getD [] =
        cString (encodedStrings strings.tail) (offset % 65536) := by
    intro offset hoffset
    have hlt := lt_length_encodedStrings hoffset
    have hmod := Nat.mod_le offset 65536
    have hnul := getLast?_encodedStrings strings.tail
    rw [List.getLast?_eq_getElem?] at hnul
    rw [fst_loadString (by rw [List.length_append]; omega), Option.getD_some,
      cString_append_of_nul (by omega) hnul]
  have hcharacters : (syncBytesToStrings (encodedStrings strings.tail ++ rest)).characters =
      (stringOffsets strings.tail).map fun offset =>
        cString (encodedStrings strings.tail) (offset % 65536) := by
    rw [← List.map_congr_left hread]
    simp only [characters, syncBytesToStrings, loadedStrings_encodedStrings hids,
      outOfBoundsStrings_encodedStrings hids, List.tail_cons,
      List.append_nil, List.map_map]
    rfl
  have hmaxStrings : maxStrings = 32766 := rfl
  have hnul : cString (encodedStrings strings.tail)
      ((2 + 2 * strings.tail.length) % 65536) = [] := by
    have hread := cString_initialNul strings.tail []
    rw [Nat.mod_eq_of_lt (by omega)]
    rwa [List.append_nil] at hread
  rw [hcharacters, stringOffsets, map_poolOffsets_eq_iff]
  exact and_iff_right fun _ => hnul

/-- Decoding an encoded table gives it back exactly when no stored string
starts beyond the range of its 16-bit offset. -/
theorem syncBytesToStrings_holdsStrings_iff {strings : List (Option ScStr)}
    {bytes : List UInt8} (hid : 2 ≤ strings.length)
    (hfree : NulFree strings) (hsync : syncStringsToBytes strings = .ok bytes) :
    HoldsStrings strings (syncBytesToStrings bytes) ↔ StartsWithinWord strings := by
  obtain ⟨hids, rfl⟩ := syncStringsToBytes_eq_ok hsync
  have hpos : 0 < strings.tail.length := by
    rw [List.length_tail]
    omega
  have hfreeTail : NulFree strings.tail := fun chars hmem => hfree chars (List.mem_of_mem_tail hmem)
  rw [← offsetsFit_iff_startsWithinWord hids]
  constructor
  · intro hholds
    exact (tailData_encodedStrings_eq_nil_iff hids hpos hfreeTail).mp hholds.tailData_eq
  · intro hfit
    have hstrings : (syncBytesToStrings (encodedStrings strings.tail)).strings =
        none :: strings.tail.map fun string => some (string.getD []) := by
      simpa using strings_syncBytesToStrings_append hids hfreeTail hfit []
    refine ⟨?_, ?_, (tailData_encodedStrings_eq_nil_iff hids hpos hfreeTail).mpr hfit⟩
    · rw [hstrings, List.length_cons, List.length_map, List.length_tail]
      omega
    · intro stringId hstringId hlt
      obtain ⟨index, rfl⟩ := Nat.exists_eq_add_of_lt hstringId
      rw [hstrings, Nat.zero_add, List.getElem?_cons_succ, List.getElem?_map,
        List.getElem?_tail, List.getD_eq_getElem?_getD]
      have hsome : strings[index + 1]? = some (strings[index + 1]) := by
        exact List.getElem?_eq_getElem (by omega)
      rw [hsome]
      rfl

/-- Four ids, one of them without a string and one with the empty string. -/
theorem syncBytesToStrings_holdsStrings_four :
    HoldsStrings [none, some [65], none, some [66, 67], some []]
      (syncBytesToStrings [4, 0, 11, 0, 10, 0, 13, 0, 16, 0, 0, 65, 0, 66, 67, 0, 0]) := by
  refine (syncBytesToStrings_holdsStrings_iff (by decide) ?_ rfl).mpr ?_
  · intro chars hmem
    have hchars : chars = [65] ∨ chars = [66, 67] ∨ chars = [] := by simpa using hmem
    rcases hchars with rfl | rfl | rfl <;> decide
  · intro before chars after hsplit
    have hlength : (pool (before ++ some chars :: after)).length = 6 := by
      rw [← hsplit]
      rfl
    rw [pool_append, List.length_append] at hlength
    change 11 + (pool before).length < 65536
    omega

/-- With 65528 characters in front of an empty string the limits are met, and
the offset of the empty string, 65536, is stored as 0. -/
private theorem not_holdsStrings_of_length {chars : ScStr} (hlength : chars.length = 65528) :
    ∃ bytes, syncStringsToBytes [none, some chars, some []] = .ok bytes ∧
      ¬ HoldsStrings [none, some chars, some []] (syncBytesToStrings bytes) := by
  have hlimits : WithinLimits [none, some chars, some []] := by
    constructor
    · exact (by decide : 2 ≤ maxStrings)
    · simp [charactersLength, hlength]
  have hfit : ¬ OffsetsFit [some chars, some []] := by
    intro hfit
    have hwide : 65536 ∈ stringOffsets [some chars, some []] := by
      simp [stringOffsets, poolOffsets, hlength]
    exact absurd (hfit 65536 hwide) (by decide)
  refine ⟨_, syncStringsToBytes_of_withinLimits hlimits, fun hholds => ?_⟩
  have htail := tailData_eq_iff hlimits.1 []
  rw [List.append_nil] at htail
  exact hfit (htail.mp hholds.tailData_eq).2.1

theorem syncBytesToStrings_drops_wide_offset :
    NulFree [none, some (List.replicate 65528 97), some []] ∧ ∃ bytes, syncStringsToBytes
          [none, some (List.replicate 65528 97), some []] = .ok bytes ∧
        ¬ HoldsStrings [none, some (List.replicate 65528 97), some []]
          (syncBytesToStrings bytes) := by
  constructor
  · intro chars hmem hzero
    rcases List.mem_cons.mp hmem with hnone | hmem
    · cases hnone
    · rcases List.mem_cons.mp hmem with hwide | hmem
      · rw [Option.some.inj hwide] at hzero
        exact absurd (List.eq_of_mem_replicate hzero) (by decide)
      · rw [Option.some.inj (List.mem_singleton.mp hmem)] at hzero
        exact List.not_mem_nil hzero
  · exact not_holdsStrings_of_length List.length_replicate

end StrSection

end Chkdraft.Sections
