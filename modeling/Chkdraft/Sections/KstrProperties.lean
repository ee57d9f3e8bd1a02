import Mathlib.Data.List.GetD
import Chkdraft.Sections.KstrSection

/-!
# Properties of editor strings, written and read

The writer puts the properties of an id at `8 + 2 * count + 4 * id`, the reader
looks for them at `4 + 4 * count + 4 * id`.  The two places agree for a table of
two ids.  For longer tables an id gets the properties of a later id, or parts of
two of them, and the last ids get none; those of a single string would end
behind the vector, so that it cannot be written at all.
-/

namespace Chkdraft.Sections

open Binary

variable {count : ℕ} {done entries : List (Option EditorString)} {following : List UInt8}

variable {string : EditorString} {bytes : List UInt8}
  {strings : List (Option EditorString)} {place : ℕ}

namespace KstrSection

/-- The bytes of an entry's properties; an empty id has none. -/
def propertyBytes : Option EditorString → List UInt8
  | none => []
  | some string =>
      [string.properties.red, string.properties.green,
        string.properties.blue, UInt8.ofNat string.properties.styleFlags]

/-- A byte of the properties of all entries, four to an entry. -/
def propertyByte (entries : List (Option EditorString)) (place : ℕ) : UInt8 :=
  (propertyBytes (entries.getD (place / 4) none)).getD (place % 4) 0

/-- Only the base size can be packed: each step leaves a rest. -/
theorem pack_eq_ok {packed : List UInt8} (hpack : string.properties.pack = .ok packed) :
    packed = propertyBytes (some string) ∧ string.properties.size = baseFontSize := by
  have hbase : baseFontSize = 8 := rfl
  have hstep : fontStepSize = 2 := rfl
  have hsize : string.properties.size = baseFontSize := by
    unfold StrProp.pack at hpack
    simp only at hpack
    split_ifs at hpack <;> omega
  refine ⟨?_, hsize⟩
  simp [StrProp.pack, hsize] at hpack
  exact hpack.symm

theorem getD_overwrite {buffer source : List UInt8} {offset : ℕ}
    (hoffset : offset ≤ buffer.length) (place : ℕ) :
    (overwrite buffer offset source).getD place 0 =
      if offset ≤ place ∧ place < offset + source.length then
        source.getD (place - offset) 0
      else buffer.getD place 0 := by
  have hfront : (buffer.take offset).length = offset := by
    rw [List.length_take]
    omega
  rw [overwrite, List.append_assoc]
  rcases Nat.lt_or_ge place offset with hlt | hge
  · rw [List.getD_append _ _ _ _ (by omega), if_neg (by omega),
      List.getD_eq_getElem?_getD, List.getElem?_take_of_lt hlt,
      ← List.getD_eq_getElem?_getD]
  · rw [List.getD_append_right _ _ _ _ (by omega), hfront]
    by_cases hinside : place < offset + source.length
    · rw [if_pos ⟨hge, hinside⟩, List.getD_append _ _ _ _ (by omega)]
    · rw [if_neg fun h => hinside h.2, List.getD_append_right _ _ _ _ (by omega),
        List.getD_eq_getElem?_getD, List.getElem?_drop,
        ← List.getD_eq_getElem?_getD]
      congr 1
      omega

/-- What stands where the reader looks for properties, after some entries were
put. -/
def HoldsProperties (count : ℕ) (done : List (Option EditorString)) (bytes : List UInt8) : Prop :=
  ∀ place, 8 + 4 * count ≤ place → place < 8 + 8 * count → bytes.getD place 0 =
      if place < 12 + 2 * count then 0
      else propertyByte done (place - (12 + 2 * count))

theorem propertyByte_append (done : List (Option EditorString))
    (entry : Option EditorString) (place : ℕ) :
    propertyByte (done ++ [entry]) place =
      if 4 * done.length ≤ place ∧ place < 4 * done.length + 4 then
        (propertyBytes entry).getD (place - 4 * done.length) 0
      else propertyByte done place := by
  rw [propertyByte, propertyByte]
  rcases Nat.lt_or_ge (place / 4) done.length with hlt | hge
  · rw [if_neg (by omega), List.getD_append _ _ _ _ hlt]
  · rw [List.getD_append_right _ _ _ _ hge]
    by_cases hsame : place / 4 = done.length
    · have hplace : place - 4 * done.length = place % 4 := by omega
      rw [if_pos (by omega), hsame, Nat.sub_self, hplace]
      rfl
    · rw [if_neg (by omega), List.getD_eq_default done _ hge,
        List.getD_eq_default [entry] _ (by simp; omega)]

theorem propertyByte_append_none (done : List (Option EditorString)) (place : ℕ) :
    propertyByte (done ++ [none]) place = propertyByte done place := by
  rw [propertyByte_append]
  split
  · rw [propertyByte, List.getD_eq_default done _ (by omega)]
    rfl
  · rfl

theorem holdsProperties_putString (hholds : HoldsProperties count done bytes)
    (hlength : 9 + 8 * count ≤ bytes.length) (hdone : done.length < count)
    {entry : Option EditorString}
    (hput : putString 4 count (8 + 8 * count) (done.length + 1) bytes entry =
      .ok following) : HoldsProperties count (done ++ [entry]) following := by
  -- The offset slots end in front of what the reader looks at.
  have hslot : ∀ (buffer : List UInt8) (offset place : ℕ),
      9 + 8 * count ≤ buffer.length → 8 + 4 * count ≤ place →
      (overwrite buffer (4 + 4 * (done.length + 1))
        (littleEndian 4 offset)).getD place 0 = buffer.getD place 0 := by
    intro buffer offset place hbuffer hplace
    rw [getD_overwrite (by omega), if_neg]
    rw [length_littleEndian]
    omega
  cases entry with
  | none =>
      rw [putString] at hput
      rw [← Except.ok.inj hput]
      intro place hfrom hto
      rw [hslot _ _ _ hlength hfrom, hholds place hfrom hto]
      split
      · rfl
      · exact (propertyByte_append_none done _).symm
  | some string =>
      obtain ⟨packed, hpack, hinside, rfl⟩ := storeString_eq_ok hput
      obtain ⟨rfl, -⟩ := pack_eq_ok hpack
      have hstored := length_overwrite hinside
      intro place hfrom hto
      have hlonger : place < (overwrite (overwrite bytes (8 + 2 * count + 4 * (done.length + 1))
          (propertyBytes (some string))) (4 + 4 * (done.length + 1))
          (littleEndian 4 bytes.length)).length := by
        rw [length_overwrite (by rw [length_littleEndian]; omega)]
        omega
      have hfour : (propertyBytes (some string)).length = 4 := rfl
      rw [List.getD_append _ _ _ _ hlonger, hslot _ _ _ (by omega) hfrom,
        getD_overwrite (by omega), hholds place hfrom hto,
        propertyByte_append, hfour]
      by_cases hbefore : place < 12 + 2 * count
      · rw [if_neg (by omega), if_pos hbefore, if_pos hbefore]
      · rw [if_neg hbefore, if_neg hbefore]
        by_cases hown : 8 + 2 * count + 4 * (done.length + 1) ≤ place ∧
            place < 8 + 2 * count + 4 * (done.length + 1) + 4
        · rw [if_pos hown, if_pos (by omega)]
          congr 1
          omega
        · rw [if_neg hown, if_neg (by omega)]

theorem holdsProperties_putStrings (hencoding : Encoding count (entryChars done) bytes)
    (hholds : HoldsProperties count done bytes)
    (hcount : done.length + entries.length = count)
    (hput : putStrings 4 count (8 + 8 * count) (done.length + 1) entries bytes =
      .ok following) : HoldsProperties count (done ++ entries) following := by
  induction entries generalizing done bytes with
  | nil =>
      rw [← Except.ok.inj hput, List.append_nil]
      exact hholds
  | cons entry rest ih =>
      rw [List.length_cons] at hcount
      have hlength : (entryChars done).length = done.length := by
        rw [entryChars, List.length_map]
      cases hstep : putString 4 count (8 + 8 * count) (done.length + 1) bytes entry with
      | error error => simp [putStrings, hstep] at hput
      | ok stored =>
          simp only [putStrings, hstep] at hput
          have hbytes := hencoding.length_eq
          have hnext := holdsProperties_putString hholds (by omega) (by omega) hstep
          rw [← hlength] at hstep
          have hencodingNext := encoding_putString hencoding (by omega) hstep
          have hchars : entryChars done ++ [entry.map EditorString.chars] =
              entryChars (done ++ [entry]) := by
            simp [entryChars]
          rw [hchars] at hencodingNext
          have hrest := ih hencodingNext hnext (by simp; omega) (by simpa using hput)
          simpa using hrest

theorem holdsProperties_blankBytes (count : ℕ) : HoldsProperties count [] (blankBytes count) := by
  intro place hfrom hto
  have hhead : (littleEndian 4 currentVersion ++ littleEndian 4 count).length = 8 := by simp
  have hzero : propertyByte [] (place - (12 + 2 * count)) = 0 := rfl
  rw [hzero, ite_self, blankBytes, List.append_assoc, List.getD_append_right _ _ _ _ (by omega),
    List.getD_append _ _ _ _ (by rw [List.length_replicate]; omega),
    List.getD_eq_getElem?_getD, List.getElem?_replicate]
  split <;> rfl

/-- Where the reader looks, after a whole table was encoded. -/
theorem holdsProperties_syncStringsToBytes (hsync : syncStringsToBytes strings = .ok bytes) :
    HoldsProperties strings.tail.length strings.tail bytes := by
  obtain ⟨-, -, hput⟩ := syncStringsToBytes_eq_ok hsync
  have hrun := holdsProperties_putStrings (encoding_blankBytes strings.tail.length)
    (holdsProperties_blankBytes strings.tail.length) (by simp) hput
  simpa using hrun

/-- An encoder that does not throw was given base sizes only. -/
theorem size_of_propertiesPack (hpack : PropertiesPack entries)
    (hmem : some string ∈ entries) : string.properties.size = baseFontSize := by
  obtain ⟨packed, hok⟩ := hpack string hmem
  exact (pack_eq_ok hok).2

theorem unpack_eq (properties : List UInt8) : StrProp.unpack properties =
      StrProp.unpack [properties.getD 0 0, properties.getD 1 0,
        properties.getD 2 0, properties.getD 3 0] := rfl

theorem styleFlags_bits (properties : StrProp) :
    decide (UInt8.ofNat properties.styleFlags &&& 1 = 1) = properties.isUsed ∧
      decide (UInt8.ofNat properties.styleFlags &&& 2 = 2) = properties.hasPriority ∧
      decide (UInt8.ofNat properties.styleFlags &&& 4 = 4) = properties.isBold ∧
      decide (UInt8.ofNat properties.styleFlags &&& 8 = 8) = properties.isUnderlined ∧
      decide (UInt8.ofNat properties.styleFlags &&& 16 = 16) =
        properties.isItalics := by
  rw [StrProp.styleFlags]
  generalize properties.isUsed = isUsed
  generalize properties.hasPriority = hasPriority
  generalize properties.isBold = isBold
  generalize properties.isUnderlined = isUnderlined
  generalize properties.isItalics = isItalics
  cases isUsed <;> cases hasPriority <;> cases isBold <;>
    cases isUnderlined <;> cases isItalics <;> decide

/-- Packed properties of the base size are unpacked again. -/
theorem unpack_propertyBytes (hsize : string.properties.size = baseFontSize) :
    StrProp.unpack (propertyBytes (some string)) = string.properties := by
  obtain ⟨hused, hpriority, hbold, hunderlined, hitalics⟩ := styleFlags_bits string.properties
  have hbase : baseFontSize = 4 * fontStepSize := rfl
  simp only [propertyBytes, StrProp.unpack, List.getD_cons_zero, List.getD_cons_succ,
    hused, hpriority, hbold, hunderlined, hitalics, ← hbase, ← hsize]

theorem propertyBytes_eq_zero (hunpack : StrProp.unpack bytes = string.properties) (hlt : place < 4)
    (hzero : bytes.getD place 0 = 0) :
    (propertyBytes (some string)).getD place 0 = 0 := by
  rw [propertyBytes, ← hunpack]
  obtain rfl | rfl | rfl | rfl : place = 0 ∨ place = 1 ∨ place = 2 ∨ place = 3 := by omega
  · exact hzero
  · exact hzero
  · exact hzero
  · simp only [StrProp.unpack, hzero]
    rfl

/-- The byte the reader finds at a place of the properties of all ids. -/
def readByte (entries : List (Option EditorString)) (place : ℕ) : UInt8 :=
  if 8 + 4 * entries.length + place < 12 + 2 * entries.length then 0
  else propertyByte entries (8 + 4 * entries.length + place - (12 + 2 * entries.length))

/-- The properties the reader finds for an id. -/
def readProperties (entries : List (Option EditorString)) (index : ℕ) : StrProp :=
  StrProp.unpack [readByte entries (4 * index),
    readByte entries (4 * index + 1), readByte entries (4 * index + 2),
    readByte entries (4 * index + 3)]

/-- Every entry is read with its own properties. -/
def KeepsProperties (entries : List (Option EditorString)) : Prop :=
  ∀ index string, entries.getD index none = some string →
    readProperties entries index = string.properties

section Kept

variable {entries : List (Option EditorString)}

theorem propertyByte_of_length_le (hle : 4 * entries.length ≤ place) :
    propertyByte entries place = 0 := by
  rw [propertyByte, List.getD_eq_default entries _ (by omega)]
  rfl

theorem propertyByte_eq_zero (hkept : KeepsProperties entries)
    (hzero : readByte entries place = 0) : propertyByte entries place = 0 := by
  rw [propertyByte]
  cases hentry : entries.getD (place / 4) none with
  | none => rfl
  | some string =>
      have hbyte : place % 4 < 4 := Nat.mod_lt _ (by decide)
      apply propertyBytes_eq_zero (hkept _ string hentry) hbyte
      have hplace : 4 * (place / 4) + place % 4 = place := Nat.div_add_mod ..
      generalize place % 4 = byte at hbyte hplace ⊢
      rw [← hplace] at hzero
      obtain rfl | rfl | rfl | rfl : byte = 0 ∨ byte = 1 ∨ byte = 2 ∨ byte = 3 := by omega
      all_goals exact hzero

/-- In a table of three ids or more each byte is read where a later one was
written, so that with kept properties all bytes are 0. -/
theorem propertyByte_of_three (hkept : KeepsProperties entries)
    (hthree : 3 ≤ entries.length) (place : ℕ) :
    propertyByte entries place = 0 := by
  rcases Nat.lt_or_ge place (4 * entries.length) with hlt | hge
  · apply propertyByte_eq_zero hkept
    rw [readByte, if_neg (by omega)]
    exact propertyByte_of_three hkept hthree _
  · exact propertyByte_of_length_le hge
termination_by 4 * entries.length - place

theorem propertyByte_mul_add (entries : List (Option EditorString))
    (index : ℕ) {byte : ℕ} (hbyte : byte < 4) :
    propertyByte entries (4 * index + byte) =
      (propertyBytes (entries.getD index none)).getD byte 0 := by
  have hindex : (4 * index + byte) / 4 = index := by omega
  have hrest : (4 * index + byte) % 4 = byte := by omega
  rw [propertyByte, hindex, hrest]

section

variable (hsize : ∀ string, some string ∈ entries → string.properties.size = baseFontSize)

include hsize

/-- All bytes are 0 exactly if every entry has the default properties. -/
theorem propertyByte_eq_zero_iff :
    (∀ place, propertyByte entries place = 0) ↔ ∀ string, some string ∈ entries →
        string.properties = StrProp.default := by
  constructor
  · intro hzero string hmem
    obtain ⟨index, hlt, hget⟩ := List.mem_iff_getElem.mp hmem
    have hbyte : ∀ byte < 4, (propertyBytes (some string)).getD byte 0 = 0 := by
      intro byte hbyte
      rw [← hget, ← List.getD_eq_getElem _ none hlt, ← propertyByte_mul_add _ _ hbyte]
      exact hzero _
    rw [← unpack_propertyBytes (hsize string hmem), unpack_eq,
      hbyte 0 (by decide), hbyte 1 (by decide), hbyte 2 (by decide),
      hbyte 3 (by decide)]
    rfl
  · intro hdefault place
    rw [propertyByte]
    cases hentry : entries.getD (place / 4) none with
    | none => rfl
    | some string =>
        have hlt : place / 4 < entries.length := by
          by_contra hge
          rw [List.getD_eq_default _ _ (by omega)] at hentry
          cases hentry
        rw [List.getD_eq_getElem _ _ hlt] at hentry
        have hmem : some string ∈ entries := hentry ▸ List.getElem_mem hlt
        have hbyte : place % 4 < 4 := Nat.mod_lt _ (by decide)
        rw [propertyBytes, hdefault string hmem]
        generalize place % 4 = byte at hbyte
        obtain rfl | rfl | rfl | rfl : byte = 0 ∨ byte = 1 ∨ byte = 2 ∨ byte = 3 := by omega
        all_goals rfl

/-- Unless there is a single string, the properties are kept exactly if there
are two ids, or if there is nothing to keep. -/
theorem keepsProperties_iff (hsingle : ∀ string, entries ≠ [some string]) :
    KeepsProperties entries ↔ entries.length = 2 ∨ ∀ string, some string ∈ entries →
        string.properties = StrProp.default := by
  rw [← propertyByte_eq_zero_iff hsize]
  constructor
  · intro hkept
    obtain hempty | hone | htwo | hthree : entries.length = 0 ∨
        entries.length = 1 ∨ entries.length = 2 ∨ 3 ≤ entries.length := by
      omega
    · exact .inr fun place => propertyByte_of_length_le (by omega)
    · obtain ⟨only, rfl⟩ := List.length_eq_one_iff.mp hone
      cases only with
      | none =>
          right
          rw [propertyByte_eq_zero_iff hsize]
          intro string hmem
          cases List.mem_singleton.mp hmem
      | some string => exact absurd rfl (hsingle string)
    · exact .inl htwo
    · exact .inr (propertyByte_of_three hkept hthree)
  · intro hcase index string hentry
    have hlt : index < entries.length := by
      by_contra hge
      rw [List.getD_eq_default _ _ (by omega)] at hentry
      cases hentry
    have hmem : some string ∈ entries := by
      rw [List.getD_eq_getElem _ _ hlt] at hentry
      exact hentry ▸ List.getElem_mem hlt
    have hread : ∀ place, readByte entries place = propertyByte entries place := by
      intro place
      rw [readByte]
      rcases hcase with htwo | hzero
      · rw [htwo, if_neg (by omega)]
        congr 1
        omega
      · rw [hzero, hzero, ite_self]
    have hbyte : ∀ byte < 4, readByte entries (4 * index + byte) =
        (propertyBytes (some string)).getD byte 0 := by
      intro byte hbyte
      rw [hread, propertyByte_mul_add _ _ hbyte, hentry]
    rw [readProperties, ← Nat.add_zero (4 * index), hbyte 0 (by decide),
      Nat.add_zero, hbyte 1 (by decide), hbyte 2 (by decide),
      hbyte 3 (by decide), ← unpack_eq]
    exact unpack_propertyBytes (hsize string hmem)

end

end Kept

/-- An id as it is read back: the same characters and properties, and the empty
string for an empty id. -/
def DecodesTo : Option EditorString → Option EditorString → Prop
  | none, decoded => ∃ properties, decoded = some ⟨[], properties⟩
  | some string, decoded => decoded = some string

section

variable (hfree : NulFree (entryChars strings.tail))
  (hsync : syncStringsToBytes strings = .ok bytes)

include hfree hsync

theorem getD_syncBytesToStrings {index : ℕ} (hindex : index < strings.tail.length) :
    (syncBytesToStrings bytes).strings.getD (index + 1) none =
      some ⟨((strings.tail.getD index none).map EditorString.chars).getD [],
        readProperties strings.tail index⟩ := by
  obtain ⟨hmax, hsize, hencoding⟩ := encoding_of_syncStringsToBytes hsync
  have hholds := holdsProperties_syncStringsToBytes hsync
  have hpool := length_pool_le strings.tail
  have hlength := hencoding.length_eq
  have hcount : (entryChars strings.tail).length = strings.tail.length := by
    rw [entryChars, List.length_map]
  have hmaxStrings : maxStrings = 536870909 := rfl
  have hbytes : bytes.length < 2 ^ 32 := by omega
  have hproperties : StrProp.unpack
      ((bytes.drop (8 + 4 * strings.tail.length + 4 * index)).take 4) =
        readProperties strings.tail index := by
    have hbyte : ∀ byte < 4, ((bytes.drop (8 + 4 * strings.tail.length + 4 * index)).take 4).getD
          byte 0 = readByte strings.tail (4 * index + byte) := by
      intro byte hbyte
      rw [List.getD_eq_getElem?_getD, List.getElem?_take_of_lt hbyte, List.getElem?_drop,
        ← List.getD_eq_getElem?_getD, readByte, ← Nat.add_assoc]
      exact hholds _ (by omega) (by omega)
    rw [unpack_eq, hbyte 0 (by decide), hbyte 1 (by decide),
      hbyte 2 (by decide), hbyte 3 (by decide)]
    rfl
  rw [← hcount] at hencoding hmax
  have hchars := hencoding.map_cString hfree
  rw [← (hencoding.words_eq hbytes).1, List.map_map, hcount, entryChars, List.map_map] at hchars
  have hchar := congrArg (fun list : List ScStr => list[index]?) hchars
  simp only [List.getElem?_map, List.getElem?_range hindex, Option.map_some,
    Function.comp_apply, List.getElem?_eq_getElem hindex] at hchar
  rw [hencoding.strings_eq hmax hbytes, hcount, List.getD_cons_succ,
    List.getD_eq_getElem?_getD, List.getElem?_map,
    List.getElem?_range hindex, Option.map_some, Option.getD_some,
    hproperties, Option.some.inj hchar, List.getD_eq_getElem _ _ hindex]

/-- The table is encoded inside its vector, and decoding what was written gives
every id back without looking outside it. -/
def ComesBack (strings : List (Option EditorString)) : Prop :=
  ∃ bytes, syncStringsToBytes strings = .ok bytes ∧ readsInside bytes = true ∧
    ∀ stringId, 1 ≤ stringId → stringId < strings.length → DecodesTo (strings.getD stringId none)
        ((syncBytesToStrings bytes).strings.getD stringId none)

/-- An encoded table is read back exactly if its properties are kept. -/
theorem decodesTo_iff_keepsProperties :
    (∀ stringId, 1 ≤ stringId → stringId < strings.length → DecodesTo (strings.getD stringId none)
        ((syncBytesToStrings bytes).strings.getD stringId none)) ↔
      KeepsProperties strings.tail := by
  have hnum : strings.length - 1 = strings.tail.length := by simp
  have htail : ∀ index, strings.tail.getD index none = strings.getD (index + 1) none := by
    intro index
    cases strings <;> rfl
  constructor
  · intro hdecodes index string hentry
    have hindex : index < strings.tail.length := by
      by_contra hge
      rw [List.getD_eq_default _ _ (by omega)] at hentry
      cases hentry
    have hdecoded := hdecodes (index + 1) (by omega) (by omega)
    rw [getD_syncBytesToStrings hfree hsync hindex, ← htail, hentry] at hdecoded
    exact congrArg EditorString.properties (Option.some.inj hdecoded)
  · intro hkept stringId hpos hlt
    obtain ⟨index, rfl⟩ := Nat.exists_eq_add_of_le' hpos
    rw [getD_syncBytesToStrings hfree hsync (by omega), ← htail]
    cases hentry : strings.tail.getD index none with
    | none => exact ⟨_, rfl⟩
    | some string =>
        rw [DecodesTo, hkept index string hentry]
        rfl

end

/-- A table the encoder does not refuse comes back, with all characters and
properties, exactly if it is not a single string and has two ids or no
properties to lose. -/
theorem syncBytesToStrings_keeps_iff {strings : List (Option EditorString)}
    (hfree : NulFree (entryChars strings.tail))
    (hthrows : DoesNotThrow (syncStringsToBytes strings)) :
    ComesBack strings ↔ (∀ string, strings.tail ≠ [some string]) ∧
        (strings.length - 1 = 2 ∨ ∀ string, some string ∈ strings.tail →
          string.properties = StrProp.default) := by
  have hnum : strings.length - 1 = strings.tail.length := by simp
  have houtcome := encodeFrom_outcome (show 4 ≤ 4 from le_rfl) strings
  rw [← syncStringsToBytes_eq] at houtcome
  obtain ⟨-, error, hthrown, herror⟩ | ⟨-, ⟨string, hsingle⟩, herror⟩ |
    ⟨hencodable, hsingle, bytes, hsync⟩ := houtcome
  · exact absurd (hthrows error herror) hthrown
  · apply iff_of_false
    · rintro ⟨bytes, hsync, -⟩
      rw [herror] at hsync
      cases hsync
    · exact fun hcondition => hcondition.1 string hsingle
  · have hsize : ∀ string, some string ∈ strings.tail →
        string.properties.size = baseFontSize := fun string hmem =>
      size_of_propertiesPack hencodable.properties hmem
    have hinside := (syncBytesToStrings_syncStringsToBytes hfree hsync).2.2.1
    rw [hnum, and_iff_right hsingle, ← keepsProperties_iff hsize hsingle,
      ← decodesTo_iff_keepsProperties hfree hsync, ComesBack]
    constructor
    · rintro ⟨other, hother, -, hdecodes⟩
      rw [hsync] at hother
      obtain rfl := Except.ok.inj hother
      exact hdecodes
    · intro hdecodes
      exact ⟨bytes, hsync, hinside, hdecodes⟩

def colouredStrings : List (Option EditorString) :=
  [none, some ⟨[65], { StrProp.default with red := 1, isBold := true }⟩,
    some ⟨[66], { StrProp.default with blue := 2 }⟩]

theorem syncBytesToStrings_keeps_coloured : ComesBack colouredStrings := by
  have hfree : NulFree (entryChars colouredStrings.tail) := by
    intro chars hmem
    simp only [colouredStrings, List.tail_cons, entryChars, List.map_cons,
      List.map_nil, Option.map_some, List.mem_cons, Option.some.injEq,
      List.not_mem_nil, or_false] at hmem
    rcases hmem with rfl | rfl <;> decide
  have hthrows : DoesNotThrow (syncStringsToBytes colouredStrings) := by
    intro error herror
    cases herror
  refine (syncBytesToStrings_keeps_iff hfree hthrows).mpr ⟨?_, .inl rfl⟩
  intro string hsingle
  cases hsingle

/-- In a table of three ids the colour of the first is lost. -/
theorem syncBytesToStrings_loses_colour : ∃ bytes, syncStringsToBytes
        [none, some ⟨[65], { StrProp.default with red := 1 }⟩, none, none] = .ok bytes ∧
      (syncBytesToStrings bytes).strings =
        [none, some ⟨[65], StrProp.default⟩, some ⟨[], StrProp.default⟩,
          some ⟨[], StrProp.default⟩] ∧
      ¬ ComesBack [none, some ⟨[65], { StrProp.default with red := 1 }⟩, none, none] := by
  obtain ⟨bytes, hsync⟩ : ∃ bytes, syncStringsToBytes
      [none, some ⟨[65], { StrProp.default with red := 1 }⟩, none, none] = .ok bytes := ⟨_, rfl⟩
  have hstrings : (syncBytesToStrings bytes).strings =
      [none, some ⟨[65], StrProp.default⟩, some ⟨[], StrProp.default⟩,
        some ⟨[], StrProp.default⟩] := by
    obtain rfl := Except.ok.inj hsync
    decide +kernel
  refine ⟨bytes, hsync, hstrings, ?_⟩
  rintro ⟨other, hother, -, hdecodes⟩
  rw [hsync] at hother
  obtain rfl := Except.ok.inj hother
  have hfirst := hdecodes 1 le_rfl (by decide)
  rw [hstrings] at hfirst
  revert hfirst
  simp [DecodesTo, StrProp.default]

end KstrSection

end Chkdraft.Sections
