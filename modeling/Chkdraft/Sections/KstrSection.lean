import Chkdraft.Sections.StrSection

/-!
# The KSTR section

Editor strings carry display properties.  The section stores a version, a
count, 32-bit offsets, 32-bit properties and the characters.  The writer
computes the position of the properties with two bytes per id where the layout
needs four, so they fall between the offsets and the place the reader looks at,
and those of a single id end behind the vector.
Some bodies make the reader look behind the end of the section; it then has no
defined value and the outcome says so.
-/

namespace Chkdraft.Sections

open Binary

variable {index nullStart : ℕ} {following : List UInt8}

/-- `StrProp`, with `size` a font size. -/
structure StrProp where
  red : UInt8
  green : UInt8
  blue : UInt8
  isUsed : Bool
  hasPriority : Bool
  isBold : Bool
  isUnderlined : Bool
  isItalics : Bool
  size : ℕ
deriving DecidableEq

/-- `Chk::baseFontSize`. -/
def baseFontSize : ℕ := 8

/-- `Chk::fontStepSize`. -/
def fontStepSize : ℕ := 2

/-- `StrProp::StrProp()`. -/
def StrProp.default : StrProp := ⟨0, 0, 0, false, false, false, false, false, baseFontSize⟩

/-- The flag bits `Chk::StringProperties` packs, without those for the size. -/
def StrProp.styleFlags (properties : StrProp) : ℕ :=
  (if properties.isUsed then 1 else 0) + (if properties.hasPriority then 2 else 0) +
    (if properties.isBold then 4 else 0) +
    (if properties.isUnderlined then 8 else 0) +
    (if properties.isItalics then 16 else 0)

/-- The constructor of `Chk::StringProperties`: the size above the base is
split into steps of four, two and one, each taken only when strictly more is
left; a rest throws. -/
def StrProp.pack (properties : StrProp) : Except SectionError (List UInt8) :=
  let size := properties.size
  if size < baseFontSize ∨ size > baseFontSize + 7 * fontStepSize then
    .error (.invalidFontSize size)
  else
    let size := size - baseFontSize
    let (four, size) :=
      if size > 4 * fontStepSize then (32, size - 4 * fontStepSize)
      else (0, size)
    let (two, size) :=
      if size > 2 * fontStepSize then (64, size - 2 * fontStepSize)
      else (0, size)
    let (one, size) :=
      if size > fontStepSize then (128, size - fontStepSize)
      else (0, size)
    if size > 0 then
      .error (.invalidFontSize size)
    else
      .ok [properties.red, properties.green, properties.blue,
        UInt8.ofNat (properties.styleFlags + four + two + one)]

/-- `StrProp::StrProp(Chk::StringProperties)`.  The size expression parses as
`(baseFontSize + …) ? 4*fontStepSize : …`, whose condition is never zero. -/
def StrProp.unpack (properties : List UInt8) : StrProp :=
  let flags := properties.getD 3 0
  { red := properties.getD 0 0
    green := properties.getD 1 0
    blue := properties.getD 2 0
    isUsed := flags &&& 1 = 1
    hasPriority := flags &&& 2 = 2
    isBold := flags &&& 4 = 4
    isUnderlined := flags &&& 8 = 8
    isItalics := flags &&& 16 = 16
    size := 4 * fontStepSize }

/-- An editor string with its properties. -/
structure EditorString where
  chars : ScStr
  properties : StrProp
deriving DecidableEq

structure KstrSection where
  version : ℕ
  strings : List (Option EditorString)
  stringBytes : List UInt8
deriving DecidableEq

variable {entry : Option EditorString} {strings : List (Option EditorString)}

namespace KstrSection

/-- `Chk::KSTR::CurrentVersion`. -/
def currentVersion : ℕ := 3

/-- The constructor, which is also `GetDefault`. -/
def default : KstrSection := ⟨currentVersion, [], []⟩

def maxStrings : ℕ := (2 ^ 31 - 1 - 8) / 4

def charactersLength (strings : List (Option EditorString)) : ℕ :=
  StrSection.charactersLength (strings.map (·.map EditorString.chars))

/-- A string is put: its properties are stored, then its offset, and its
characters are appended.  The properties of the only id of a table end behind
the vector. -/
def storeString (numStrings index : ℕ) (bytes : List UInt8)
    (string : EditorString) : Except SectionError (List UInt8) :=
  match string.properties.pack with
  | .error error => .error error
  | .ok properties =>
      let stringPropertiesStart := 8 + 2 * numStrings
      if stringPropertiesStart + 4 * index + 4 ≤ bytes.length then
        .ok (overwrite (overwrite bytes (stringPropertiesStart + 4 * index) properties)
          (4 + 4 * index) (littleEndian 4 bytes.length) ++ (string.chars ++ [0]))
      else
        .error .outOfBounds

/-- One round of the encoding loop.  The offset of a null string goes to
`nullStart + sizeof(u32)*i`. -/
def putString (nullStart numStrings initialNulOffset index : ℕ) (bytes : List UInt8) :
    Option EditorString → Except SectionError (List UInt8)
  | none =>
      .ok (overwrite bytes (nullStart + 4 * index) (littleEndian 4 initialNulOffset))
  | some string => storeString numStrings index bytes string

def putStrings (nullStart numStrings initialNulOffset : ℕ) :
    ℕ → List (Option EditorString) → List UInt8 → Except SectionError (List UInt8)
  | _, [], bytes => .ok bytes
  | index, string :: rest, bytes =>
      match putString nullStart numStrings initialNulOffset index bytes string with
      | .error error => .error error
      | .ok stored =>
          putStrings nullStart numStrings initialNulOffset (index + 1) rest stored

/-- `Strings::syncKstringsToBytes`. -/
def syncStringsToBytes (strings : List (Option EditorString)) : Except SectionError (List UInt8) :=
  let numStrings := strings.length - 1
  if numStrings > maxStrings then
    .error (.maximumStringsExceeded numStrings maxStrings)
  else
    let fixedSpace := 8 + 8 * numStrings + 1
    let sectionSize := fixedSpace + charactersLength strings.tail
    if sectionSize > 2 ^ 31 - 1 then
      .error (.maximumCharactersExceeded (sectionSize - fixedSpace) (2 ^ 31 - 1))
    else
      let sized := overwrite (List.replicate (8 + 8 * numStrings) 0) 0
        (littleEndian 4 currentVersion ++ littleEndian 4 numStrings)
      putStrings 4 numStrings sized.length 1 strings.tail (sized ++ [0])

/-- `KstrSection::loadString`. -/
def loadString (bytes : List UInt8) (stringOffset : ℕ) : Option EditorString :=
  if stringOffset < bytes.length then
    some ⟨cString bytes stringOffset, StrProp.default⟩
  else
    none

def rawNumStrings (bytes : List UInt8) : ℕ := wordAt 4 bytes 4

def highestStringWithValidOffset (bytes : List UInt8) : ℕ :=
  min (rawNumStrings bytes) (if bytes.length < 12 then 0 else (bytes.length - 8) / 4)

def highestStringWithValidProperties (bytes : List UInt8) : ℕ :=
  min (rawNumStrings bytes) (if bytes.length < 12 then 0 else (bytes.length - 8) / 8)

/-- Where the reader looks for the properties of an id. -/
def propertiesPos (bytes : List UInt8) (stringId : ℕ) : ℕ :=
  4 + 4 * rawNumStrings bytes + 4 * stringId

/-- The string of an id whose offset lies inside the section. -/
def loadedString (bytes : List UInt8) (stringId : ℕ) : Option EditorString :=
  let loaded := loadString bytes (wordAt 4 bytes (4 + 4 * stringId))
  if stringId ≤ highestStringWithValidProperties bytes then
    loaded.map fun string =>
      { string with
        properties := StrProp.unpack ((bytes.drop (propertiesPos bytes stringId)).take 4) }
  else
    loaded

/-- The ids behind the last complete offset.  With two bytes of an offset left
the reader looks at the two bytes behind the section instead. -/
def outOfBoundsStrings (bytes : List UInt8) : List (Option EditorString) :=
  let highest := highestStringWithValidOffset bytes
  let missing := rawNumStrings bytes - highest
  if 0 < missing then
    if bytes.length % 4 = 3 then
      loadString bytes (wordAt 3 bytes (bytes.length - 3)) :: List.replicate (missing - 1) none
    else if bytes.length % 4 = 2 then
      loadString bytes (wordAt 2 bytes bytes.length) :: List.replicate (missing - 1) none
    else if bytes.length % 4 = 1 then
      loadString bytes (wordAt 1 bytes (4 * highest)) :: List.replicate (missing - 1) none
    else
      List.replicate missing none
  else
    []

/-- Every property read lies inside the section, and the two-byte offset behind
its end is not used. -/
def readsInside (bytes : List UInt8) : Bool :=
  (List.range (highestStringWithValidProperties bytes)).all (fun index =>
    (loadString bytes (wordAt 4 bytes (4 + 4 * (index + 1)))).isNone ||
      propertiesPos bytes (index + 1) + 4 ≤ bytes.length) &&
  !(highestStringWithValidOffset bytes < rawNumStrings bytes && bytes.length % 4 = 2)

/-- `KstrSection::syncBytesToStrings`.  The version check looks at a local
variable that is always 0, so it never throws. -/
def syncBytesToStrings (bytes : List UInt8) : KstrSection where
  version := if bytes.length ≥ 4 then wordAt 4 bytes 0 else 0
  strings := none :: (List.range (highestStringWithValidOffset bytes)).map
      (fun index => loadedString bytes (index + 1)) ++
    outOfBoundsStrings bytes
  stringBytes := bytes

/-- `KstrSection::read`. -/
def read (size : ℕ) (table : KstrSection) (stream : InputStream) : ReadOutcome KstrSection :=
  if size > 0 then
    let (extracted, after) := stream.read size
    let stringBytes := overwrite (List.replicate size 0) 0 extracted
    ⟨after, .ok (syncBytesToStrings stringBytes, extracted.length), readsInside stringBytes⟩
  else
    ⟨stream, .ok (⟨table.version, [], []⟩, 0), true⟩

/-- `KstrSection::getSize`. -/
def getSize (table : KstrSection) : Except SectionError ℤ :=
  match syncStringsToBytes table.strings with
  | .error error => .error error
  | .ok stringBytes =>
      if stringBytes.length ≤ maxChkSectionSize then
        .ok (sectionSize stringBytes.length)
      else
        .error (.maxSectionSizeExceeded stringBytes.length)

/-- `KstrSection::write`: the body bytes. -/
def write (table : KstrSection) : Except SectionError (List UInt8) :=
  syncStringsToBytes table.strings

theorem getSize_eq_length_write {table : KstrSection} {size : ℤ}
    {body : List UInt8} (hsize : table.getSize = .ok size)
    (hwrite : table.write = .ok body) : size = body.length := by
  unfold getSize at hsize
  unfold write at hwrite
  simp only [hwrite] at hsize
  split at hsize
  · rename_i hle
    have hlt : body.length < 2 ^ 31 := by
      unfold maxChkSectionSize at hle
      omega
    rw [sectionSize_of_lt hlt] at hsize
    exact (Except.ok.inj hsize).symm
  · cases hsize

/-- The characters of the entries of a table. -/
def entryChars (entries : List (Option EditorString)) : List (Option ScStr) :=
  entries.map (·.map EditorString.chars)

/-- The vector after the entries `done` of a table with `count` ids were
put. -/
structure Encoding (count : ℕ) (done : List (Option ScStr)) (bytes : List UInt8) : Prop where
  length_eq : bytes.length = 9 + 8 * count + (pool done).length
  head_eq : bytes.take 8 = littleEndian 4 currentVersion ++ littleEndian 4 count
  offsets_eq : (bytes.take (8 + 4 * done.length)).drop 8 =
    (poolOffsets (8 + 8 * count) (9 + 8 * count) done).flatMap (littleEndian 4)
  pool_eq : bytes.drop (9 + 8 * count) = pool done
  nul_eq : bytes[8 + 8 * count]? = some 0

namespace Encoding

variable {count : ℕ} {done : List (Option ScStr)} {bytes stored : List UInt8}

/-- One entry is put: its offset slot is filled in a vector that agrees with
the last one on the other slots, the initial NUL and the pool, and its
characters follow. -/
theorem put (hencoding : Encoding count done bytes)
    (hdone : done.length < count) (hlength : stored.length = bytes.length)
    (htake : stored.take (8 + 4 * done.length) = bytes.take (8 + 4 * done.length))
    (hdrop : stored.drop (8 + 8 * count) = bytes.drop (8 + 8 * count))
    (entry : Option ScStr) (offset : ℕ)
    (hoffset : poolOffsets (8 + 8 * count)
      (9 + 8 * count + (pool done).length) [entry] = [offset]) :
    Encoding count (done ++ [entry])
      (overwrite stored (8 + 4 * done.length) (littleEndian 4 offset) ++ pool [entry]) := by
  have hbytes := hencoding.length_eq
  have hslot : 8 + 4 * done.length + (littleEndian 4 offset).length ≤ 8 + 8 * count := by
    rw [length_littleEndian]
    omega
  have hinside : 8 + 4 * done.length ≤ stored.length := by omega
  have hsame : (overwrite stored (8 + 4 * done.length)
      (littleEndian 4 offset)).length = stored.length :=
    length_overwrite (by omega)
  -- Up to its own slot the new vector is the old one.
  have hfront : ∀ limit, limit ≤ 8 + 4 * (done.length + 1) →
      (overwrite stored (8 + 4 * done.length) (littleEndian 4 offset) ++ pool [entry]).take limit =
      (bytes.take (8 + 4 * done.length) ++ littleEndian 4 offset).take
        limit := by
    intro limit hlimit
    have hself := take_overwrite_self (littleEndian 4 offset) hinside
    rw [length_littleEndian, htake] at hself
    rw [← hself, List.take_take, List.take_append_of_le_length (by omega)]
    congr 1
    omega
  have hfrontLength : (bytes.take (8 + 4 * done.length)).length = 8 + 4 * done.length := by
    rw [List.length_take]
    omega
  refine ⟨?_, ?_, ?_, ?_, ?_⟩
  · rw [List.length_append, hsame, hlength, hbytes, pool_append, List.length_append]
    omega
  · rw [hfront 8 (by omega), List.take_append_of_le_length (by omega),
      List.take_take, Nat.min_eq_left (by omega)]
    exact hencoding.head_eq
  · rw [List.length_append, List.length_singleton, hfront _ le_rfl, List.take_of_length_le (by
        rw [List.length_append, hfrontLength, length_littleEndian]
        omega),
      List.drop_append_of_le_length (by omega), hencoding.offsets_eq,
      poolOffsets_append, hoffset, List.flatMap_append]
    simp
  · have hbehind := congrArg (List.drop 1) hdrop
    rw [List.drop_drop, List.drop_drop, Nat.add_right_comm] at hbehind
    rw [List.drop_append_of_le_length (by omega),
      drop_overwrite (by omega) hinside, hbehind, hencoding.pool_eq,
      pool_append]
  · rw [List.getElem?_append_left (by omega), ← List.head?_drop,
      drop_overwrite (by omega) hinside, hdrop, List.head?_drop,
      hencoding.nul_eq]

end Encoding

theorem length_of_pack {properties : StrProp} {packed : List UInt8}
    (hpack : properties.pack = .ok packed) : packed.length = 4 := by
  unfold StrProp.pack at hpack
  simp only at hpack
  split_ifs at hpack <;> cases hpack <;> rfl

/-- What putting a string returns, and that the store lay inside. -/
theorem storeString_eq_ok {count : ℕ} {bytes : List UInt8}
    {string : EditorString}
    (hput : storeString count index bytes string = .ok following) :
    ∃ packed, string.properties.pack = .ok packed ∧
      8 + 2 * count + 4 * index + packed.length ≤ bytes.length ∧
      following = overwrite (overwrite bytes (8 + 2 * count + 4 * index) packed)
        (4 + 4 * index) (littleEndian 4 bytes.length) ++ (string.chars ++ [0]) := by
  unfold storeString at hput
  cases hpack : string.properties.pack with
  | error error => simp [hpack] at hput
  | ok packed =>
      simp only [hpack] at hput
      split at hput
      · rename_i hinside
        refine ⟨packed, rfl, ?_, (Except.ok.inj hput).symm⟩
        rw [length_of_pack hpack]
        exact hinside
      · cases hput

section

variable {count : ℕ} {done : List (Option ScStr)} {bytes : List UInt8}
  (hencoding : Encoding count done bytes)

include hencoding

/-- One round of the encoding loop.  The properties of an id stand behind every
slot filled so far and, since they fit, in front of the initial NUL. -/
theorem encoding_putString (hdone : done.length < count)
    (hput : putString 4 count (8 + 8 * count) (done.length + 1) bytes entry = .ok following) :
    Encoding count (done ++ [entry.map EditorString.chars]) following := by
  have hslot : 4 + 4 * (done.length + 1) = 8 + 4 * done.length := by omega
  have hbytes := hencoding.length_eq
  cases entry with
  | none =>
      rw [putString, hslot] at hput
      have hnone := hencoding.put hdone rfl rfl rfl none (8 + 8 * count) rfl
      rw [← Except.ok.inj hput]
      simpa [pool] using hnone
  | some string =>
      obtain ⟨packed, hpack, hinside, rfl⟩ := storeString_eq_ok hput
      have hfour := length_of_pack hpack
      have htwo : 2 ≤ count := by
        by_contra hsingle
        have hnone : done = [] := List.length_eq_zero_iff.mp (by omega)
        rw [hnone, pool, List.length_nil] at hbytes
        omega
      have hsome := hencoding.put hdone (length_overwrite hinside)
        (take_overwrite packed (by omega) (by omega))
        (drop_overwrite (by omega) (by omega))
        (some string.chars) bytes.length (by rw [hbytes]; rfl)
      rw [hslot]
      simpa [pool] using hsome

theorem encoding_putStrings {entries : List (Option EditorString)}
    (hcount : done.length + entries.length = count)
    (hput : putStrings 4 count (8 + 8 * count) (done.length + 1) entries bytes =
      .ok following) : Encoding count (done ++ entryChars entries) following := by
  induction entries generalizing done bytes with
  | nil =>
      rw [← Except.ok.inj hput]
      simpa [entryChars] using hencoding
  | cons entry rest ih =>
      rw [List.length_cons] at hcount
      cases hstep : putString 4 count (8 + 8 * count) (done.length + 1) bytes entry with
      | error error => simp [putStrings, hstep] at hput
      | ok stored =>
          simp only [putStrings, hstep] at hput
          have hnext := encoding_putString hencoding (by omega) hstep
          have hlength : (done ++ [entry.map EditorString.chars]).length =
              done.length + 1 := by simp
          rw [← hlength] at hput
          have hrest := ih hnext (by rw [hlength]; omega) hput
          simpa [entryChars] using hrest

end

/-- The vector the encoding loop starts with: version, count, room for offsets
and properties, and the initial NUL. -/
def blankBytes (count : ℕ) : List UInt8 :=
  littleEndian 4 currentVersion ++ littleEndian 4 count ++ List.replicate (8 * count) 0 ++ [0]

theorem encoding_blankBytes (count : ℕ) : Encoding count [] (blankBytes count) := by
  have hhead : (littleEndian 4 currentVersion ++ littleEndian 4 count).length = 8 := by simp
  refine ⟨?_, ?_, ?_, ?_, ?_⟩
  · simp [blankBytes, pool]
    omega
  · rw [blankBytes, List.append_assoc]
    exact List.take_left' hhead
  · simp [poolOffsets]
  · rw [pool]
    apply List.drop_eq_nil_of_le
    simp [blankBytes]
    omega
  · rw [blankBytes, List.getElem?_append_right (by simp; omega)]
    have hzero : 8 + 8 * count - (littleEndian 4 currentVersion ++
        littleEndian 4 count ++ List.replicate (8 * count) 0).length = 0 := by
      simp
      omega
    rw [hzero]
    rfl

theorem sized_append_nul (count : ℕ) : overwrite (List.replicate (8 + 8 * count) 0) 0
        (littleEndian 4 currentVersion ++ littleEndian 4 count) ++ [0] =
      blankBytes count := by
  simp [blankBytes]

theorem length_sized (count : ℕ) : (overwrite (List.replicate (8 + 8 * count) 0) 0
      (littleEndian 4 currentVersion ++ littleEndian 4 count)).length =
      8 + 8 * count := by
  rw [length_overwrite (by simp), List.length_replicate]

/-- The limits, and the loop behind them. -/
def encodeFrom (nullStart : ℕ) (strings : List (Option EditorString)) :
    Except SectionError (List UInt8) :=
  if strings.tail.length > maxStrings then
    .error (.maximumStringsExceeded strings.tail.length maxStrings)
  else if 9 + 8 * strings.tail.length + charactersLength strings.tail > 2 ^ 31 - 1 then
    .error (.maximumCharactersExceeded (charactersLength strings.tail) (2 ^ 31 - 1))
  else
    putStrings nullStart strings.tail.length (8 + 8 * strings.tail.length) 1
      strings.tail (blankBytes strings.tail.length)

theorem syncStringsToBytes_eq (strings : List (Option EditorString)) :
    syncStringsToBytes strings = encodeFrom 4 strings := by
  have hnum : strings.length - 1 = strings.tail.length := by simp
  have hfixed : 8 + 8 * strings.tail.length + 1 = 9 + 8 * strings.tail.length := by
    omega
  simp only [syncStringsToBytes, encodeFrom, hnum, hfixed, length_sized,
    sized_append_nul, Nat.add_sub_cancel_left]

theorem syncStringsToBytes_eq_ok {bytes : List UInt8}
    (hsync : syncStringsToBytes strings = .ok bytes) :
    strings.tail.length ≤ maxStrings ∧
      9 + 8 * strings.tail.length + charactersLength strings.tail < 2 ^ 31 ∧
      putStrings 4 strings.tail.length (8 + 8 * strings.tail.length) 1
        strings.tail (blankBytes strings.tail.length) = .ok bytes := by
  rw [syncStringsToBytes_eq, encodeFrom] at hsync
  split_ifs at hsync with hcount hsize
  exact ⟨by omega, by omega, hsync⟩

theorem encoding_of_syncStringsToBytes {bytes : List UInt8}
    (hsync : syncStringsToBytes strings = .ok bytes) :
    strings.tail.length ≤ maxStrings ∧
      9 + 8 * strings.tail.length + charactersLength strings.tail < 2 ^ 31 ∧
      Encoding strings.tail.length (entryChars strings.tail) bytes := by
  obtain ⟨hcount, hsize, hput⟩ := syncStringsToBytes_eq_ok hsync
  have hrun := encoding_putStrings (encoding_blankBytes strings.tail.length) (by simp) hput
  exact ⟨hcount, hsize, by simpa using hrun⟩

/-- The properties of every stored string have a size that can be packed. -/
def PropertiesPack (entries : List (Option EditorString)) : Prop :=
  ∀ string, some string ∈ entries → ∃ packed, string.properties.pack = .ok packed

theorem propertiesPack_cons {rest : List (Option EditorString)} :
    PropertiesPack (entry :: rest) ↔ (∀ string, entry = some string →
        ∃ packed, string.properties.pack = .ok packed) ∧
      PropertiesPack rest := by
  constructor
  · intro hpack
    exact ⟨fun string heq => hpack string (heq ▸ List.mem_cons_self),
      fun string hmem => hpack string (List.mem_cons_of_mem _ hmem)⟩
  · rintro ⟨hfirst, hrest⟩ string hmem
    rcases List.mem_cons.mp hmem with heq | hlater
    · exact hfirst string heq.symm
    · exact hrest string hlater

/-- The table meets the limits of the encoders and its properties pack: the
encoders do not throw. -/
structure Encodable (strings : List (Option EditorString)) : Prop where
  numStrings : strings.tail.length ≤ maxStrings
  sectionSize : 9 + 8 * strings.tail.length + charactersLength strings.tail < 2 ^ 31
  properties : PropertiesPack strings.tail

theorem pack_error {properties : StrProp} {error : SectionError}
    (hpack : properties.pack = .error error) : ¬ error.IsHazard := by
  unfold StrProp.pack at hpack
  simp only at hpack
  split_ifs at hpack <;> cases hpack <;> simp [SectionError.IsHazard]

/-- A round leaves the bytes in front of the slot of a null string alone. -/
theorem take_putString {count : ℕ} {bytes : List UInt8}
    (hstart : nullStart ≤ 4) (hindex : index ≤ count)
    (hlength : 9 + 8 * count ≤ bytes.length)
    (hput : putString nullStart count (8 + 8 * count) index bytes entry = .ok following) :
    following.take (nullStart + 4 * index) = bytes.take (nullStart + 4 * index) ∧
      9 + 8 * count ≤ following.length := by
  cases entry with
  | none =>
      rw [← Except.ok.inj hput]
      refine ⟨take_overwrite _ le_rfl (by omega), ?_⟩
      rw [length_overwrite (by rw [length_littleEndian]; omega)]
      exact hlength
  | some string =>
      obtain ⟨packed, -, hinside, rfl⟩ := storeString_eq_ok hput
      have hstored := length_overwrite hinside
      have hwritten : (overwrite (overwrite bytes
          (8 + 2 * count + 4 * index) packed) (4 + 4 * index)
            (littleEndian 4 bytes.length)).length = bytes.length := by
        rw [length_overwrite (by rw [length_littleEndian]; omega), hstored]
      constructor
      · rw [List.take_append_of_le_length (by omega), take_overwrite _ (by omega) (by omega),
          take_overwrite _ (by omega) (by omega)]
      · rw [List.length_append, hwritten]
        omega

/-- The loop returns if the properties pack and no store ends behind the
vector, and throws if they do not. -/
theorem putStrings_outcome {count : ℕ} {entries : List (Option EditorString)}
    {bytes : List UInt8} (hstart : nullStart ≤ 4)
    (hindex : index + entries.length ≤ count + 1)
    (hlength : 9 + 8 * count ≤ bytes.length)
    (hroom : 2 ≤ count ∨ ∀ entry ∈ entries, entry = none) :
    (PropertiesPack entries ∧ ∃ final,
      putStrings nullStart count (8 + 8 * count) index entries bytes = .ok final) ∨
    (¬ PropertiesPack entries ∧ ∃ error, ¬ error.IsHazard ∧
      putStrings nullStart count (8 + 8 * count) index entries bytes = .error error) := by
  induction entries generalizing index bytes with
  | nil => exact Or.inl ⟨fun string hmem => (nomatch hmem), bytes, rfl⟩
  | cons entry rest ih =>
      rw [List.length_cons] at hindex
      rw [propertiesPack_cons, putStrings]
      cases hround : putString nullStart count (8 + 8 * count) index bytes entry with
      | ok stored =>
          have hnext := (take_putString hstart (by omega) hlength hround).2
          have hfirst : ∀ string, entry = some string →
              ∃ packed, string.properties.pack = .ok packed := by
            rintro string rfl
            obtain ⟨packed, hpack, -⟩ := storeString_eq_ok hround
            exact ⟨packed, hpack⟩
          rw [and_iff_right hfirst]
          exact ih (by omega) hnext (hroom.imp_right fun hnone entry hmem =>
            hnone entry (List.mem_cons_of_mem _ hmem))
      | error error =>
          cases entry with
          | none => cases hround
          | some string =>
              have htwo : 2 ≤ count := hroom.resolve_right fun hnone =>
                nomatch hnone _ List.mem_cons_self
              cases hpack : string.properties.pack with
              | ok packed =>
                  simp only [putString, storeString, hpack] at hround
                  rw [if_pos (by omega)] at hround
                  cases hround
              | error thrown =>
                  simp only [putString, storeString, hpack] at hround
                  right
                  refine ⟨fun hall => ?_, error, ?_, rfl⟩
                  · obtain ⟨packed, hok⟩ := hall.1 string rfl
                    rw [hpack] at hok
                    cases hok
                  · rw [← Except.error.inj hround]
                    exact pack_error hpack

/-- An encoder throws if the table is too large or has properties that do not
pack, stores outside its vector for a single string, and returns otherwise. -/
theorem encodeFrom_outcome (hstart : nullStart ≤ 4) (strings : List (Option EditorString)) :
    (¬ Encodable strings ∧ ∃ error, ¬ error.IsHazard ∧
      encodeFrom nullStart strings = .error error) ∨
    (Encodable strings ∧ (∃ string, strings.tail = [some string]) ∧
      encodeFrom nullStart strings = .error .outOfBounds) ∨
    (Encodable strings ∧ (∀ string, strings.tail ≠ [some string]) ∧
      ∃ bytes, encodeFrom nullStart strings = .ok bytes) := by
  by_cases hcount : strings.tail.length > maxStrings
  · left
    refine ⟨fun hall => ?_, _, ?_, if_pos hcount⟩
    · have hle := hall.numStrings
      omega
    · simp [SectionError.IsHazard]
  by_cases hsize : 9 + 8 * strings.tail.length + charactersLength strings.tail > 2 ^ 31 - 1
  · left
    refine ⟨fun hall => ?_, _, ?_, (if_neg hcount).trans (if_pos hsize)⟩
    · have hlt := hall.sectionSize
      omega
    · simp [SectionError.IsHazard]
  have hencodable : Encodable strings ↔ PropertiesPack strings.tail :=
    ⟨Encodable.properties, fun hpack => ⟨by omega, by omega, hpack⟩⟩
  have hencode : encodeFrom nullStart strings = putStrings nullStart strings.tail.length
        (8 + 8 * strings.tail.length) 1 strings.tail
        (blankBytes strings.tail.length) :=
    (if_neg hcount).trans (if_neg hsize)
  rw [hencodable, hencode]
  by_cases hsingle : ∃ string, strings.tail = [some string]
  · obtain ⟨string, htail⟩ := hsingle
    rw [htail]
    cases hpack : string.properties.pack with
    | error error =>
        left
        refine ⟨fun hall => ?_, error, pack_error hpack, ?_⟩
        · obtain ⟨packed, hok⟩ := hall string List.mem_cons_self
          rw [hpack] at hok
          cases hok
        · simp only [putStrings, putString, storeString, hpack]
    | ok packed =>
        right
        left
        refine ⟨fun other hmem => ?_, ⟨string, rfl⟩, ?_⟩
        · rw [Option.some.inj (List.mem_singleton.mp hmem)]
          exact ⟨packed, hpack⟩
        · simp only [List.length_singleton, putStrings, putString, storeString, hpack]
          rfl
  · have hroom : 2 ≤ strings.tail.length ∨ ∀ entry ∈ strings.tail, entry = none := by
      rcases Nat.lt_or_ge strings.tail.length 2 with hlt | hge
      · right
        intro entry hmem
        obtain ⟨only, htail⟩ := List.length_eq_one_iff.mp (show strings.tail.length = 1 by
            have hpos := List.length_pos_of_mem hmem
            omega)
        rw [htail] at hmem hsingle
        cases only with
        | none => exact List.mem_singleton.mp hmem
        | some string => exact absurd ⟨string, rfl⟩ hsingle
      · exact Or.inl hge
    have hblank : 9 + 8 * strings.tail.length ≤ (blankBytes strings.tail.length).length := by
      rw [(encoding_blankBytes _).length_eq]
      omega
    rcases @putStrings_outcome 1 nullStart _ _ _ hstart (by omega) hblank
      hroom with ⟨hpack, hreturns⟩ | hthrows
    · exact Or.inr (Or.inr ⟨hpack, fun string heq => hsingle ⟨string, heq⟩, hreturns⟩)
    · exact Or.inl hthrows

/-- The characters of every id, a null string counted as an empty one. -/
def characters (table : KstrSection) : List ScStr := (entryChars table.strings.tail).map (·.getD [])

namespace Encoding

variable {ids : List (Option ScStr)} {bytes : List UInt8}

section

variable (hencoding : Encoding ids.length ids bytes)

include hencoding

theorem wordAt_four (hids : ids.length ≤ maxStrings) :
    wordAt 4 bytes 0 = currentVersion ∧ rawNumStrings bytes = ids.length := by
  have hlt : ids.length < 256 ^ 4 := by
    have hmax : maxStrings = 536870909 := rfl
    omega
  have hfirst : (bytes.drop 0).take 4 = littleEndian 4 currentVersion := by
    have htake : (bytes.take 8).take 4 = bytes.take 4 := by
      rw [List.take_take]
      rfl
    rw [List.drop_zero, ← htake, hencoding.head_eq]
    exact List.take_left' (length_littleEndian _ _)
  have hsecond : (bytes.drop 4).take 4 = littleEndian 4 ids.length := by
    have hdrop := List.drop_take (i := 4) (j := 8) (l := bytes)
    rw [hencoding.head_eq, List.drop_left' (length_littleEndian _ _)] at hdrop
    exact hdrop.symm
  constructor
  · rw [wordAt, hfirst]
    rfl
  · rw [rawNumStrings, wordAt, hsecond, littleEndianValue_littleEndian, Nat.mod_eq_of_lt hlt]

theorem highest_eq (hids : ids.length ≤ maxStrings) :
    highestStringWithValidOffset bytes = ids.length ∧
      highestStringWithValidProperties bytes = ids.length := by
  have hbytes := hencoding.length_eq
  have hcount := (hencoding.wordAt_four hids).2
  rw [highestStringWithValidOffset, highestStringWithValidProperties, hcount]
  constructor <;> split <;> omega

/-- Every offset the encoder stored is read back and lies inside the section. -/
theorem words_eq (hbytes : bytes.length < 2 ^ 32) : ((List.range ids.length).map fun index =>
        wordAt 4 bytes (8 + 4 * index)) =
      poolOffsets (8 + 8 * ids.length) (9 + 8 * ids.length) ids ∧
    ∀ offset ∈ poolOffsets (8 + 8 * ids.length) (9 + 8 * ids.length) ids,
      offset < bytes.length := by
  have hlength := hencoding.length_eq
  have hinside : ∀ offset ∈ poolOffsets (8 + 8 * ids.length)
      (9 + 8 * ids.length) ids, offset < bytes.length := by
    intro offset hmem
    rcases mem_poolOffsets hmem with rfl | ⟨-, hlt⟩ <;> omega
  refine ⟨?_, hinside⟩
  have hsplit : bytes = bytes.take 8 ++
      (poolOffsets (8 + 8 * ids.length) (9 + 8 * ids.length) ids).flatMap
        (littleEndian 4) ++ bytes.drop (8 + 4 * ids.length) := by
    have hfront : bytes.take 8 = (bytes.take (8 + 4 * ids.length)).take 8 := by
      rw [List.take_take, Nat.min_eq_left (by omega)]
    rw [← hencoding.offsets_eq, hfront, List.take_append_drop, List.take_append_drop]
  have hhead : (bytes.take 8).length = 8 := by
    rw [List.length_take]
    omega
  have hwords := map_wordAt_flatMap 4 (poolOffsets (8 + 8 * ids.length) (9 + 8 * ids.length) ids)
    (bytes.take 8) (bytes.drop (8 + 4 * ids.length))
  rw [← hsplit, hhead, length_poolOffsets] at hwords
  rw [hwords]
  calc (poolOffsets (8 + 8 * ids.length) (9 + 8 * ids.length) ids).map (· % 256 ^ 4)
      = (poolOffsets (8 + 8 * ids.length) (9 + 8 * ids.length) ids).map id := by
        apply List.map_congr_left
        intro offset hmem
        have hlt := hinside offset hmem
        exact Nat.mod_eq_of_lt (by omega)
    _ = _ := List.map_id _

/-- Following the offsets gives the characters of every id. -/
theorem map_cString (hfree : NulFree ids) :
    (poolOffsets (8 + 8 * ids.length) (9 + 8 * ids.length) ids).map
        (cString bytes) = ids.map (·.getD []) := by
  have hlength := hencoding.length_eq
  have hsplit : bytes.take (9 + 8 * ids.length) ++ pool ids = bytes := by
    rw [← hencoding.pool_eq, List.take_append_drop]
  have hfront : (bytes.take (9 + 8 * ids.length)).length = 9 + 8 * ids.length := by
    rw [List.length_take]
    omega
  have hnul : none ∈ ids → cString bytes (8 + 8 * ids.length) = [] := by
    intro _
    have hle := add_length_cString_le le_rfl hencoding.nul_eq
    exact List.length_eq_zero_iff.mp (by omega)
  have hmap := map_cString_poolOffsets ids (bytes.take (9 + 8 * ids.length)) [] (8 + 8 * ids.length)
    (by rw [List.append_nil, hsplit]; exact hnul)
  rwa [List.append_nil, hsplit, hfront, readBack_of_nulFree hfree] at hmap

end

end Encoding

theorem length_pool_le (entries : List (Option EditorString)) :
    (pool (entryChars entries)).length ≤ charactersLength entries + entries.length := by
  induction entries with
  | nil => simp [entryChars, pool]
  | cons entry rest ih =>
      simp only [entryChars, charactersLength, StrSection.charactersLength,
        List.map_cons, List.sum_cons, List.length_cons] at ih ⊢
      cases entry with
      | none =>
          simp only [Option.map_none, pool, Option.getD_none, List.length_nil]
          omega
      | some string =>
          simp only [Option.map_some, pool, Option.getD_some, List.length_append, List.length_cons]
          omega

/-- The table an encoding is read as: every offset lies inside the section, and
every id has properties. -/
theorem Encoding.strings_eq {ids : List (Option ScStr)} {bytes : List UInt8}
    (hencoding : Encoding ids.length ids bytes)
    (hids : ids.length ≤ maxStrings) (hbytes : bytes.length < 2 ^ 32) :
    (syncBytesToStrings bytes).strings = none :: (List.range ids.length).map fun index =>
        some ⟨cString bytes (wordAt 4 bytes (8 + 4 * index)), StrProp.unpack
            ((bytes.drop (8 + 4 * ids.length + 4 * index)).take 4)⟩ := by
  obtain ⟨-, hraw⟩ := hencoding.wordAt_four hids
  obtain ⟨hoffsets, hproperties⟩ := hencoding.highest_eq hids
  obtain ⟨hwords, hinside⟩ := hencoding.words_eq hbytes
  have hnone : outOfBoundsStrings bytes = [] := by
    simp only [outOfBoundsStrings, hraw, hoffsets, Nat.sub_self, lt_irrefl, if_false]
  simp only [syncBytesToStrings, hnone, hoffsets, List.append_nil]
  congr 1
  apply List.map_congr_left
  intro index hindex
  have hlt : index + 1 ≤ ids.length := List.mem_range.mp hindex
  have hslot : 4 + 4 * (index + 1) = 8 + 4 * index := by omega
  have hword : wordAt 4 bytes (8 + 4 * index) < bytes.length := by
    apply hinside
    rw [← hwords]
    exact List.mem_map.mpr ⟨index, hindex, rfl⟩
  have hplace : propertiesPos bytes (index + 1) = 8 + 4 * ids.length + 4 * index := by
    rw [propertiesPos, hraw]
    omega
  rw [loadedString, hproperties, if_pos hlt, hslot, loadString, if_pos hword, hplace]
  rfl

/-- Decoding an encoded table gives the characters of every id back, under the
current version and without looking outside the section. -/
theorem syncBytesToStrings_syncStringsToBytes {bytes : List UInt8}
    (hfree : NulFree (entryChars strings.tail))
    (hsync : syncStringsToBytes strings = .ok bytes) :
    (syncBytesToStrings bytes).characters = (entryChars strings.tail).map (·.getD []) ∧
      (syncBytesToStrings bytes).version = currentVersion ∧
      readsInside bytes = true ∧ 0 < bytes.length := by
  obtain ⟨hmax, hsize, hencoding⟩ := encoding_of_syncStringsToBytes hsync
  have hpool := length_pool_le strings.tail
  obtain ⟨ids, hids⟩ : ∃ ids, entryChars strings.tail = ids := ⟨_, rfl⟩
  have hcount : strings.tail.length = ids.length := by
    rw [← hids, entryChars, List.length_map]
  rw [hids] at hencoding hfree hpool ⊢
  rw [hcount] at hencoding hmax hsize hpool
  have hlength := hencoding.length_eq
  obtain ⟨hversion, hraw⟩ := hencoding.wordAt_four hmax
  obtain ⟨hoffsets, hproperties⟩ := hencoding.highest_eq hmax
  have hmaxStrings : maxStrings = 536870909 := rfl
  have hbytes : bytes.length < 2 ^ 32 := by omega
  obtain ⟨hwords, -⟩ := hencoding.words_eq hbytes
  refine ⟨?_, ?_, ?_, by omega⟩
  · rw [← hencoding.map_cString hfree, ← hwords, characters,
      hencoding.strings_eq hmax hbytes, List.tail_cons, entryChars,
      List.map_map, List.map_map, List.map_map]
    apply List.map_congr_left
    intro index _
    rfl
  · simp only [syncBytesToStrings, hversion]
    rw [if_pos (by omega)]
  · simp only [readsInside, hproperties, hoffsets, hraw, lt_irrefl,
      decide_false, Bool.false_and, Bool.not_false, Bool.and_true,
      List.all_eq_true, List.mem_range, Bool.or_eq_true, decide_eq_true_eq]
    intro index hindex
    right
    rw [propertiesPos, hraw]
    omega

end KstrSection

end Chkdraft.Sections
