import Chkdraft.Sections.TriggerExtensionSections

/-!
# Round trips of the KTRG and KTGP sections

A table is written, and its body is read into a new section with the size that
`getSize` put into the header.  The KTRG reader takes every usable index for a
present entry and asks for bytes behind its body.  The KTGP writer leaves the
group headers out, so its reader finds the index words in their place.
-/

namespace Chkdraft.Sections

open Binary Chk

variable {stream : InputStream} {bytes : List UInt8} {sizeRead : ℕ}

variable {size : ℕ} {table : KtrgSection} {rest : List UInt8}
  {content : KtgpSection}

/-- A reader called with the size field of a header: a negative size throws
`NegativeSectionSize`. -/
def readSized {S : Type*} (size : ℤ)
    (read : ℕ → InputStream → ReadOutcome S) (stream : InputStream) :
    ReadOutcome S :=
  if size < 0 then
    ⟨stream, .error .negativeSectionSize, true⟩
  else
    read size.toNat stream

/-- Reading consumed exactly the body, inside its buffers, and gave the content
that had been written. -/
structure RoundTrips {S : Type*} (content : S) (body : List UInt8)
    (outcome : ReadOutcome S) : Prop where
  position : outcome.stream.position = body.length
  result : outcome.result = .ok (content, body.length)
  memorySafe : outcome.memorySafe = true

/-- A size field that is not negative is the size modulo `2 ^ 32`. -/
theorem toNat_sectionSize (hnonneg : 0 ≤ sectionSize size) :
    (sectionSize size).toNat = size % 2 ^ 32 ∧ size % 2 ^ 32 < 2 ^ 31 := by
  unfold sectionSize at hnonneg ⊢
  split
  · rename_i hlt
    exact ⟨Int.toNat_natCast _, hlt⟩
  · rename_i hge
    rw [if_neg hge] at hnonneg
    omega

/-- A size field is negative exactly when its highest bit is set. -/
theorem sectionSize_neg_iff (size : ℕ) : sectionSize size < 0 ↔ 2 ^ 31 ≤ size % 2 ^ 32 := by
  unfold sectionSize
  split <;> omega

namespace KtrgSection

/-- The body of a table read back with the table's size. -/
def reread (table : KtrgSection) (rest : List UInt8) : ReadOutcome KtrgSection :=
  readSized table.getSize (fun size => default.read size)
    (InputStream.ofBytes (table.write ++ rest))

/-- The entries of a table as they are written. -/
def entries (table : KtrgSection) : List ExtendedTrigData :=
  table.extendedTrigData.map (·.getD ExtendedTrigData.blank)

@[simp]
theorem length_entries (table : KtrgSection) :
    table.entries.length = table.extendedTrigData.length := by
  simp [entries]

@[simp]
theorem length_loadEntries (entries : List ExtendedTrigData) :
    (loadEntries entries).length = entries.length := by
  simp [loadEntries]

/-- The entries are loaded back exactly when the present ones are those at
usable indexes. -/
theorem loadEntries_entries_iff (table : KtrgSection) :
    loadEntries table.entries = table.extendedTrigData ↔
      ∀ index entry, table.extendedTrigData[index]? = some entry →
        entry.isSome = indexUsable index := by
  have hentry : ∀ index, (loadEntries table.entries)[index]? =
      table.extendedTrigData[index]?.map fun entry =>
        if indexUsable index then some (entry.getD ExtendedTrigData.blank)
        else none := by
    intro index
    cases hget : table.extendedTrigData[index]? <;>
      simp [loadEntries, entries, hget]
  constructor
  · intro heq index entry hget
    have hloaded := hentry index
    rw [heq, hget, Option.map_some, Option.some.injEq] at hloaded
    rw [hloaded]
    cases indexUsable index <;> rfl
  · intro hpresent
    apply List.ext_getElem?
    intro index
    rw [hentry index]
    cases hget : table.extendedTrigData[index]? with
    | none => rfl
    | some entry =>
        have hsome := hpresent index entry hget
        cases entry <;> simp_all

/-- The reader on a written body: it takes the version, then everything behind
it up to the size of the whole section. -/
theorem read_write (table : KtrgSection) (rest : List UInt8) (hsize : 4 ≤ size) :
    let extracted := (extendedTrigDataCodec.encodeAll table.entries ++ rest).take size
    let count := (size - 4) / extendedTrigDataCodec.size
    let blanks := extendedTrigDataCodec.encodeAll (List.replicate count ExtendedTrigData.blank)
    (default.read size (InputStream.ofBytes (table.write ++ rest))).result =
      .ok (⟨loadEntries (extendedTrigDataCodec.decodeAll count
        ((overwrite blanks 0 extracted).take blanks.length))⟩, 4 + extracted.length) := by
  intro extracted count blanks
  have hbytes : table.write ++ rest = littleEndian 4 2 ++
      (extendedTrigDataCodec.encodeAll table.entries ++ rest) := by
    rw [write, List.append_assoc]
    rfl
  have hversion : (InputStream.ofBytes (table.write ++ rest)).read 4 =
      (littleEndian 4 2, ⟨table.write ++ rest, 4, false, false⟩) := by
    have hremaining : (InputStream.ofBytes (table.write ++ rest)).remaining = littleEndian 4 2 ++
          (extendedTrigDataCodec.encodeAll table.entries ++ rest) := hbytes
    rw [InputStream.read_of_le rfl (by rw [hremaining]; simp), hremaining,
      List.take_left' (length_littleEndian 4 2)]
    rfl
  have hextracted : ((InputStream.mk (table.write ++ rest) 4 false
      false).read size).1 = extracted := by
    rw [InputStream.fst_read_of_good rfl, InputStream.remaining, hbytes,
      List.drop_left' (length_littleEndian 4 2)]
  simp only [read, hversion, hextracted, length_littleEndian, if_true,
    default, List.nil_append, if_pos (by omega : size > 0),
    if_neg (by omega : ¬ size < 4), blanks, count]

theorem length_encodeAll_entries (table : KtrgSection) :
    (extendedTrigDataCodec.encodeAll table.entries).length =
      20 * table.extendedTrigData.length := by
  rw [Codec.length_encodeAll, length_entries, size_extendedTrigDataCodec]

/-- A table at the end of a stream: the reader runs into the end, and every
usable index is present afterwards and no other. -/
theorem read_of_remaining (hgood : stream.good = true)
    (hremaining : stream.remaining = table.write) :
    default.read table.write.length stream = ⟨{ stream with
          position := stream.position + table.write.length
          eof := true
          fail := true },
        .ok (⟨loadEntries table.entries⟩, table.write.length), true⟩ := by
  have hlength := table.length_encodeAll_entries
  have hwrite : table.write.length = 4 + 20 * table.extendedTrigData.length := table.length_write
  have hsplit : table.write = littleEndian 4 2 ++
      extendedTrigDataCodec.encodeAll table.entries := rfl
  have hversion : stream.read 4 =
      (littleEndian 4 2, { stream with position := stream.position + 4 }) := by
    rw [InputStream.read_of_le hgood (by rw [hremaining, hwrite]; omega),
      hremaining, hsplit, List.take_left' (length_littleEndian 4 2)]
  have hafter : InputStream.remaining
      { stream with position := stream.position + 4 } =
      extendedTrigDataCodec.encodeAll table.entries := by
    change stream.bytes.drop (stream.position + 4) = _
    rw [← List.drop_drop]
    change stream.remaining.drop 4 = _
    rw [hremaining, hsplit, List.drop_left' (length_littleEndian 4 2)]
  have hread : InputStream.read (4 + 20 * table.extendedTrigData.length)
      { stream with position := stream.position + 4 } = _ :=
    InputStream.read_of_lt hgood (by rw [hafter]; omega)
  have hcount : (4 + 20 * table.extendedTrigData.length - 4) /
      extendedTrigDataCodec.size = table.extendedTrigData.length := by
    rw [size_extendedTrigDataCodec]
    omega
  have hblanks : (extendedTrigDataCodec.encodeAll (List.replicate
      table.extendedTrigData.length ExtendedTrigData.blank)).length =
      20 * table.extendedTrigData.length := by
    rw [Codec.length_encodeAll, List.length_replicate, size_extendedTrigDataCodec]
  have hbuffer : (overwrite (extendedTrigDataCodec.encodeAll (List.replicate
      table.extendedTrigData.length ExtendedTrigData.blank)) 0
        (extendedTrigDataCodec.encodeAll table.entries)).take (20 * table.extendedTrigData.length) =
      extendedTrigDataCodec.encodeAll table.entries := by
    rw [overwrite_zero_of_length_eq (hlength.trans hblanks.symm), ← hlength, List.take_length]
  have hdecode := extendedTrigDataCodec.decodeAll_encodeAll table.entries
  rw [length_entries] at hdecode
  rw [hafter, hlength] at hread
  simp only [KtrgSection.read, hwrite, if_pos (by omega :
      4 + 20 * table.extendedTrigData.length > 0), hversion,
    length_littleEndian, if_true, if_neg (by omega :
      ¬ 4 + 20 * table.extendedTrigData.length < 4), hread, hcount, hblanks,
    hlength, hbuffer, hdecode, default, List.nil_append, le_refl,
    decide_true, Nat.add_assoc]

/-- A table at the end of the file whose size fits the header. -/
theorem reread_nil (hlt : 4 + 20 * table.extendedTrigData.length < 2 ^ 31) :
    RoundTrips ⟨loadEntries table.entries⟩ table.write (table.reread []) := by
  have hsize : table.getSize = (table.write.length : ℤ) := by
    rw [length_write]
    exact sectionSize_of_lt hlt
  rw [reread, readSized, hsize, if_neg (by omega), Int.toNat_natCast,
    read_of_remaining rfl (List.append_nil _)]
  exact ⟨Nat.zero_add _, rfl, rfl⟩

theorem size_eq_zero_or_four_le (count : ℕ) :
    (4 + 20 * count) % 2 ^ 32 = 0 ∨ 4 ≤ (4 + 20 * count) % 2 ^ 32 := by
  have hdvd : 4 ∣ (4 + 20 * count) % 2 ^ 32 := by
    rw [Nat.dvd_mod_iff (by norm_num)]
    exact ⟨1 + 5 * count, by ring⟩
  generalize (4 + 20 * count) % 2 ^ 32 = size at hdvd ⊢
  omega

/-- The result of a body with a size field that is not negative. -/
theorem fits_of_read (hsize : size = (4 + 20 * table.extendedTrigData.length) % 2 ^ 32)
    (hresult : (default.read size (InputStream.ofBytes (table.write ++ rest))).result =
        .ok (table, table.write.length)) :
    rest = [] ∧ size = 4 + 20 * table.extendedTrigData.length := by
  have hlength := table.length_encodeAll_entries
  have hwrite := table.length_write
  have hle : size ≤ 4 + 20 * table.extendedTrigData.length := hsize ▸ Nat.mod_le _ _
  have hfour : size = 0 ∨ 4 ≤ size := hsize ▸ size_eq_zero_or_four_le table.extendedTrigData.length
  clear hsize
  rcases hfour with hzero | hfour
  · rw [hzero, read, if_neg (by omega), Except.ok.injEq, Prod.mk.injEq] at hresult
    omega
  · -- The count of entries gives the size, the bytes consumed the rest.
    rw [table.read_write rest hfour, Except.ok.injEq, Prod.mk.injEq] at hresult
    obtain ⟨htable, hconsumed⟩ := hresult
    have hentries := congrArg (fun read => read.extendedTrigData.length) htable
    simp only [length_loadEntries, Codec.length_decodeAll, size_extendedTrigDataCodec] at hentries
    rw [List.length_take, List.length_append, hlength, hwrite,
      size_extendedTrigDataCodec] at hconsumed
    have heq : size = 4 + 20 * table.extendedTrigData.length := by
      omega
    refine ⟨List.length_eq_zero_iff.mp ?_, heq⟩
    omega

/-- A table that is read back stands at the end of the file and its size fits
the header. -/
theorem fits_of_result (hresult : (table.reread rest).result = .ok (table, table.write.length)) :
    rest = [] ∧ 4 + 20 * table.extendedTrigData.length < 2 ^ 31 := by
  by_cases hneg : table.getSize < 0
  · rw [reread, readSized, if_pos hneg] at hresult
    cases hresult
  · obtain ⟨hsize, hlt⟩ := toNat_sectionSize (not_lt.mp hneg)
    rw [size_extendedTrigDataCodec] at hsize hlt
    rw [reread, readSized, if_neg hneg] at hresult
    obtain ⟨hrest, heq⟩ := fits_of_read hsize hresult
    exact ⟨hrest, (hsize.symm.trans heq) ▸ hlt⟩

/-- A written table is read back exactly when the section is the last thing in
the file, its size fits the header, and the entries present are those at
usable indexes. -/
theorem roundTrips_ktrg_iff (table : KtrgSection) (rest : List UInt8) :
    RoundTrips table table.write (table.reread rest) ↔
      rest = [] ∧ 4 + 20 * table.extendedTrigData.length < 2 ^ 31 ∧
        ∀ index entry, table.extendedTrigData[index]? = some entry →
          entry.isSome = indexUsable index := by
  rw [← loadEntries_entries_iff]
  constructor
  · intro htrips
    obtain ⟨rfl, hlt⟩ := fits_of_result htrips.result
    refine ⟨rfl, hlt, ?_⟩
    have hboth := (reread_nil hlt).result.symm.trans htrips.result
    rw [Except.ok.injEq, Prod.mk.injEq] at hboth
    exact congrArg extendedTrigData hboth.1
  · rintro ⟨rfl, hlt, hload⟩
    have htrips := reread_nil hlt
    rwa [hload] at htrips

/-- An absent entry at the first usable index comes back as a blank one, and a
table without entries in front of another byte takes that byte as well. -/
theorem not_roundTrips_ktrg : ¬ RoundTrips ⟨[none, none, none]⟩ (write ⟨[none, none, none]⟩)
        (reread ⟨[none, none, none]⟩ []) ∧
      (reread ⟨[none, none, none]⟩ []).result =
        .ok (⟨[none, none, some ExtendedTrigData.blank]⟩, 64) ∧
      (reread ⟨[]⟩ [0]).stream.position = 5 := by
  have hread : (reread ⟨[none, none, none]⟩ []).result =
      .ok (⟨[none, none, some ExtendedTrigData.blank]⟩, 64) := by
    decide
  refine ⟨?_, hread, by decide⟩
  intro htrips
  have hresult := htrips.result
  rw [hread] at hresult
  revert hresult
  decide

end KtrgSection

/-! ## KTGP -/

namespace KtgpSection

/-- The body of a table read back with the table's size. -/
def reread (table : KtgpSection) (rest : List UInt8) : ReadOutcome KtgpSection :=
  readSized table.getSize read (InputStream.ofBytes (table.write ++ rest))

/-- All indexes of all groups, in the order in which they are written. -/
def indexWords (groups : List TriggerGroup) : List UInt32 := groups.flatMap fun group =>
    group.extendedTrigDataIndexes ++ group.groupIndexes

/-- The eight index words that stand where the header of a group belongs; zero
behind the last of them. -/
def foundHeader (words : List UInt32) (index : ℕ) : TriggerGroupHeader where
  flags := words.getD (8 * index) 0
  templateInstanceId := words.getD (8 * index + 1) 0
  numTriggers := words.getD (8 * index + 2) 0
  numGroups := words.getD (8 * index + 3) 0
  commentStringId := words.getD (8 * index + 4) 0
  notesStringId := words.getD (8 * index + 5) 0
  parentGroupId := words.getD (8 * index + 6) 0
  bodyOffset := words.getD (8 * index + 7) 0

/-- The group of a header without a body. -/
def headerGroup (header : TriggerGroupHeader) : TriggerGroup where
  groupExpanded := header.flags &&& groupExpandedFlag = groupExpandedFlag
  groupHidden := header.flags &&& groupHiddenFlag = groupHiddenFlag
  templateInstanceId := header.templateInstanceId
  commentStringId := header.commentStringId
  notesStringId := header.notesStringId
  parentGroupId := header.parentGroupId
  extendedTrigDataIndexes := []
  groupIndexes := []

/-- The group of a header over the bytes its offset points into. -/
def describedGroup (bytes : List UInt8) (header : TriggerGroupHeader) : TriggerGroup :=
  if hasBody header then
    { headerGroup header with
      extendedTrigDataIndexes := bodyWords bytes header 0 header.numTriggers.toNat
      groupIndexes := bodyWords bytes header header.numTriggers.toNat header.numGroups.toNat }
  else
    headerGroup header

/-- The body of a header, if it has one, ends inside a buffer of this length. -/
def BodyInside (length : ℕ) (header : TriggerGroupHeader) : Prop :=
  hasBody header = true → bodySizeRequired header ≤ length ∧ header.bodyOffset.toNat +
        4 * (header.numTriggers.toNat + header.numGroups.toNat) ≤ length

theorem padTo_append_zeros (length : ℕ) (bytes : List UInt8) (count : ℕ) :
    padTo length (bytes ++ List.replicate count 0) = bytes ++ List.replicate
        (max (bytes.length + count) length - bytes.length) 0 := by
  rw [padTo, List.append_assoc, List.append_cancel_left_eq,
    List.length_append, List.length_replicate, List.replicate_append_replicate]
  congr 1
  omega

theorem bodyWords_append_zeros (bytes : List UInt8) (count : ℕ)
    (header : TriggerGroupHeader) (first length : ℕ) :
    bodyWords (bytes ++ List.replicate count 0) header first length =
      bodyWords bytes header first length := by
  simp only [bodyWords, wordAt_append_zeros]

theorem decode_triggerGroupHeaderCodec (hlength : bytes.length = 32) :
    triggerGroupHeaderCodec.decode bytes = ⟨.ofNat (wordAt 4 bytes 0), .ofNat (wordAt 4 bytes 4),
        .ofNat (wordAt 4 bytes 8), .ofNat (wordAt 4 bytes 12),
        .ofNat (wordAt 4 bytes 16), .ofNat (wordAt 4 bytes 20),
        .ofNat (wordAt 4 bytes 24), .ofNat (wordAt 4 bytes 28)⟩ := by
  have hlast : (bytes.drop 28).take 4 = bytes.drop 28 :=
    List.take_of_length_le (by rw [List.length_drop]; omega)
  have hnext : ∀ offset, bytes.drop (offset + 4) = (bytes.drop offset).drop 4 := by
    intro offset
    rw [List.drop_drop]
  simp only [wordAt, hlast]
  rw [hnext 24, hnext 20, hnext 16, hnext 12, hnext 8, hnext 4]
  rfl

/-- The eight words in the place of the header of a group; zeros complete it
behind the end. -/
def headerAt (bytes : List UInt8) (index : ℕ) : TriggerGroupHeader where
  flags := .ofNat (wordAt 4 bytes (8 + index * 32))
  templateInstanceId := .ofNat (wordAt 4 bytes (8 + index * 32 + 4))
  numTriggers := .ofNat (wordAt 4 bytes (8 + index * 32 + 8))
  numGroups := .ofNat (wordAt 4 bytes (8 + index * 32 + 12))
  commentStringId := .ofNat (wordAt 4 bytes (8 + index * 32 + 16))
  notesStringId := .ofNat (wordAt 4 bytes (8 + index * 32 + 20))
  parentGroupId := .ofNat (wordAt 4 bytes (8 + index * 32 + 24))
  bodyOffset := .ofNat (wordAt 4 bytes (8 + index * 32 + 28))

/-- The header read in the place of group `index`. -/
theorem decode_headerAt {index count : ℕ} (hle : 8 + index * 32 + 32 ≤ bytes.length + count) :
    triggerGroupHeaderCodec.decode
      (((bytes ++ List.replicate count 0).drop (8 + index * 32)).take 32) =
      headerAt bytes index := by
  have hlength : (((bytes ++ List.replicate count 0).drop
      (8 + index * 32)).take 32).length = 32 := by
    rw [List.length_take, List.length_drop, List.length_append, List.length_replicate]
    omega
  rw [decode_triggerGroupHeaderCodec hlength]
  simp (disch := omega) only [wordAt_take, wordAt_drop, wordAt_append_zeros]
  rfl

theorem headerAt_words {before : List UInt8} (hbefore : before.length = 8)
    (words : List UInt32) (index : ℕ) :
    headerAt (before ++ Codec.u32.encodeAll words) index = foundHeader words index := by
  have hword : ∀ offset position, offset = 8 + index * 32 + 4 * position →
      UInt32.ofNat (wordAt 4 (before ++ Codec.u32.encodeAll words) offset) =
        words.getD (8 * index + position) 0 := by
    intro offset position hoffset
    have hplace : offset = before.length + 4 * (8 * index + position) := by
      omega
    rw [hplace, Codec.wordAt_encodeAll_u32, UInt32.ofNat_toNat]
  rw [headerAt, foundHeader, hword _ 0 (by omega), hword _ 1 (by omega),
    hword _ 2 (by omega), hword _ 3 (by omega), hword _ 4 (by omega),
    hword _ 5 (by omega), hword _ 6 (by omega), hword _ 7 (by omega)]
  rfl

/-- One round of the reader's loop over a body that zeros follow. -/
theorem readGroup_eq (bytes : List UInt8) (index count : ℕ) :
    let header := headerAt bytes index
    let length := max (bytes.length + count) (8 + (index + 1) * 32)
    ∃ grown, readGroup (bytes ++ List.replicate count 0) index =
        (describedGroup bytes header, bytes ++ List.replicate grown 0,
          !hasBody header || (bodySizeRequired header ≤ length &&
            header.bodyOffset.toNat + 4 * (header.numTriggers.toNat +
              header.numGroups.toNat) ≤ length)) ∧
      (BodyInside length header → bytes.length + grown = length) := by
  intro header length
  have hpadded : padTo (8 + index * 32 + 32) (bytes ++ List.replicate count 0) =
      bytes ++ List.replicate (length - bytes.length) 0 := by
    rw [padTo_append_zeros]
    congr 3
    omega
  have hlength : bytes.length ≤ length := (Nat.le_add_right _ count).trans (Nat.le_max_left _ _)
  have hdecode : triggerGroupHeaderCodec.decode
      (((bytes ++ List.replicate (length - bytes.length) 0).drop
        (8 + index * 32)).take 32) = header := by
    apply decode_headerAt
    omega
  cases hbody : hasBody header with
  | false =>
      refine ⟨length - bytes.length, ?_, fun _ => by omega⟩
      simp only [readGroup, size_triggerGroupHeaderCodec, hpadded, hdecode,
        hbody, describedGroup, headerGroup]
      rfl
  | true =>
      have hgrown : padTo (bodySizeRequired header)
          (bytes ++ List.replicate (length - bytes.length) 0) =
          bytes ++ List.replicate (max length (bodySizeRequired header) - bytes.length) 0 := by
        rw [padTo_append_zeros]
        congr 3
        omega
      have hpaddedLength : (bytes ++ List.replicate (length - bytes.length) 0).length = length := by
        rw [List.length_append, List.length_replicate]
        omega
      have hgrownLength : (bytes ++ List.replicate
          (max length (bodySizeRequired header) - bytes.length) 0).length =
          max length (bodySizeRequired header) := by
        rw [List.length_append, List.length_replicate]
        omega
      refine ⟨max length (bodySizeRequired header) - bytes.length, ?_, ?_⟩
      · simp only [readGroup, size_triggerGroupHeaderCodec, hpadded, hdecode,
          hbody, describedGroup, headerGroup, hgrown, bodyWords_append_zeros,
          hpaddedLength, hgrownLength, if_true]
        congr 2
        by_cases hfits : bodySizeRequired header ≤ length
        · simp [hfits]
        · simp [hfits]
      · intro hinside
        have hfits := (hinside hbody).1
        omega

/-- The reader's loop from `index` on, by induction on the headers left. -/
theorem readGroups_eq (bytes : List UInt8) (rounds index count : ℕ) :
    let read := readGroups rounds index (bytes ++ List.replicate count 0)
    read.1 = (List.range' index rounds).map
        (fun index => describedGroup bytes (headerAt bytes index)) ∧
      (read.2 = true ↔ ∀ other, index ≤ other → other < index + rounds →
        BodyInside (max (bytes.length + count) (8 + (other + 1) * 32)) (headerAt bytes other)) := by
  induction rounds generalizing index count with
  | zero =>
      refine ⟨rfl, fun _ other hle hlt => ?_, fun _ => rfl⟩
      omega
  | succ rounds ih =>
      intro read
      obtain ⟨grown, hgroup, hgrown⟩ := readGroup_eq bytes index count
      obtain ⟨hgroups, hsafe⟩ := ih (index + 1) grown
      have hfirst : (!hasBody (headerAt bytes index) ||
          (decide (bodySizeRequired (headerAt bytes index) ≤
              max (bytes.length + count) (8 + (index + 1) * 32)) &&
            decide ((headerAt bytes index).bodyOffset.toNat + 4 *
              ((headerAt bytes index).numTriggers.toNat + (headerAt bytes index).numGroups.toNat) ≤
                max (bytes.length + count) (8 + (index + 1) * 32)))) = true ↔
          BodyInside (max (bytes.length + count) (8 + (index + 1) * 32))
            (headerAt bytes index) := by
        cases hbody : hasBody (headerAt bytes index) <;>
          simp [BodyInside, hbody]
      constructor
      · simp only [read, readGroups, hgroup, hgroups, List.range'_succ, List.map_cons]
      · simp only [read, readGroups, hgroup, Bool.and_eq_true]
        rw [hfirst, hsafe]
        constructor
        · rintro ⟨hinside, hothers⟩ other hle hlt
          rcases Nat.eq_or_lt_of_le hle with rfl | hbehind
          · exact hinside
          · have hother := hothers other hbehind (by omega)
            rw [hgrown hinside] at hother
            have hmax : max (max (bytes.length + count)
                (8 + (index + 1) * 32)) (8 + (other + 1) * 32) =
                max (bytes.length + count) (8 + (other + 1) * 32) := by
              omega
            exact hmax ▸ hother
        · intro hinside
          have hhead := hinside index le_rfl (by omega)
          refine ⟨hhead, fun other hle hlt => ?_⟩
          have hother := hinside other (by omega) (by omega)
          rw [hgrown hhead]
          have hmax : max (max (bytes.length + count)
              (8 + (index + 1) * 32)) (8 + (other + 1) * 32) =
              max (bytes.length + count) (8 + (other + 1) * 32) := by
            omega
          exact hmax ▸ hother

/-- The bytes of a written table: the version, the number of groups and the
index words. -/
def writtenBytes (groups : List TriggerGroup) : List UInt8 :=
  littleEndian 4 1 ++ littleEndian 4 groups.length ++ Codec.u32.encodeAll (indexWords groups)

/-- The size field of a table before it is taken to be signed. -/
def sizeField (groups : List TriggerGroup) : ℕ :=
  (32 * groups.length + 4 * indexCount groups) % 2 ^ 32

/-- The index words spell the header of a group, and the indexes of the group
are what this header points to. -/
structure Spells (groups : List TriggerGroup) (index : ℕ) (group : TriggerGroup) : Prop where
  describes : group = describedGroup (writtenBytes groups) (foundHeader (indexWords groups) index)
  inside : BodyInside (max (sizeField groups) (8 + (index + 1) * 32))
    (foundHeader (indexWords groups) index)

theorem version_write (table : KtgpSection) (count : ℕ) :
    wordAt 4 (table.write ++ List.replicate count 0) 0 = 1 := by
  rw [wordAt_append_zeros, write, List.append_assoc, wordAt, List.drop_zero,
    List.take_left' (length_littleEndian 4 1)]
  rfl

theorem numGroups_write (table : KtgpSection) (count : ℕ) :
    wordAt 4 (table.write ++ List.replicate count 0) 4 =
      table.triggerGroups.length := by
  rw [wordAt_append_zeros, write, List.append_assoc, wordAt,
    List.drop_left' (length_littleEndian 4 1),
    List.take_left' (length_littleEndian 4 _), littleEndianValue_littleEndian]
  exact Nat.mod_eq_of_lt table.length_lt

theorem fst_read_write (table : KtgpSection) (hsize : table.write.length < size) :
    ((InputStream.ofBytes table.write).read size).1 = table.write := by
  rw [InputStream.fst_read_of_good rfl]
  exact List.take_of_length_le hsize.le

/-- A written table read with a size that exceeds it, at the end of the file:
the groups are looked for in the body and zeros behind it. -/
theorem read_write_eq (table : KtgpSection) (hsize : table.write.length < size) :
    read size (InputStream.ofBytes table.write) = ⟨((InputStream.ofBytes table.write).read size).2,
        .ok (⟨(readGroups table.triggerGroups.length 0 (table.write ++
            List.replicate (size - table.write.length) 0)).1, by
              rw [length_fst_readGroups]
              exact table.length_lt⟩, table.write.length),
        (readGroups table.triggerGroups.length 0 (table.write ++
          List.replicate (size - table.write.length) 0)).2⟩ := by
  have hlength := table.length_write
  have hbytes : overwrite (List.replicate size 0) 0 table.write =
      table.write ++ List.replicate (size - table.write.length) 0 := by
    rw [overwrite_zero, List.drop_replicate]
  have hpad : ∀ length, length ≤ 8 → padTo length (table.write ++
        List.replicate (size - table.write.length) 0) =
      table.write ++ List.replicate (size - table.write.length) 0 := by
    intro length hle
    rw [padTo_append_zeros]
    congr 2
    omega
  simp only [read, if_pos (by omega : size > 0), table.fst_read_write hsize,
    hbytes, hpad 4 (by omega), version_write, ne_eq, not_true_eq_false, if_false,
    hpad 8 (by omega), numGroups_write]

theorem read_write (table : KtgpSection) (hsize : table.write.length < size) :
    let outcome := read size (InputStream.ofBytes table.write)
    outcome.stream.position = table.write.length ∧
      (∃ read, outcome.result = .ok (read, table.write.length) ∧
        read.triggerGroups = (List.range' 0 table.triggerGroups.length).map
          fun index => describedGroup (writtenBytes table.triggerGroups)
            (foundHeader (indexWords table.triggerGroups) index)) ∧
      (outcome.memorySafe = true ↔ ∀ index, index < table.triggerGroups.length →
          BodyInside (max size (8 + (index + 1) * 32))
            (foundHeader (indexWords table.triggerGroups) index)) := by
  have hbefore : (littleEndian 4 1 ++ littleEndian 4 table.triggerGroups.length).length = 8 := by
    simp
  obtain ⟨hgroups, hsafe⟩ := readGroups_eq (writtenBytes table.triggerGroups)
    table.triggerGroups.length 0 (size - table.write.length)
  simp only [writtenBytes, headerAt_words hbefore] at hgroups hsafe
  have htotal : (littleEndian 4 1 ++
      littleEndian 4 table.triggerGroups.length ++ Codec.u32.encodeAll
        (indexWords table.triggerGroups)).length +
      (size - table.write.length) = size := by
    change table.write.length + _ = size
    omega
  rw [htotal] at hsafe
  rw [read_write_eq table hsize]
  refine ⟨?_, ⟨_, rfl, hgroups⟩, ?_⟩
  · simp only [InputStream.position_read, table.fst_read_write hsize]
    exact Nat.zero_add _
  · constructor
    · intro hread index hindex
      exact hsafe.mp hread index (Nat.zero_le _) (by omega)
    · intro hinside
      exact hsafe.mpr fun index _ hindex => hinside index (by omega)

theorem length_of_result (hsize : 0 < size)
    (hresult : (read size stream).result = .ok (content, sizeRead)) :
    sizeRead = (stream.read size).1.length := by
  simp only [read, if_pos hsize] at hresult
  split at hresult
  · cases hresult
  · rw [Except.ok.injEq, Prod.mk.injEq] at hresult
    exact hresult.2.symm

/-- The headers that the size field counts are multiples of 32 bytes. -/
theorem sizeField_mod (groups : List TriggerGroup) :
    sizeField groups % 32 = 4 * indexCount groups % 32 := by
  rw [sizeField, Nat.mod_mod_of_dvd _ (by norm_num), Nat.mul_add_mod]

/-- A body that its reader consumes exactly stands at the end of the file, and
its size field exceeds it. -/
theorem exceeds_of_result {table : KtgpSection} (hresult : (read (sizeField table.triggerGroups)
      (InputStream.ofBytes (table.write ++ rest))).result = .ok (content, table.write.length)) :
    rest = [] ∧ table.write.length < sizeField table.triggerGroups := by
  have hlength := table.length_write
  have hmod := sizeField_mod table.triggerGroups
  generalize sizeField table.triggerGroups = size at hresult hmod ⊢
  by_cases hzero : size = 0
  · rw [hzero, read, if_neg (by omega), Except.ok.injEq, Prod.mk.injEq] at hresult
    omega
  · have hconsumed := length_of_result (Nat.pos_of_ne_zero hzero) hresult
    rw [InputStream.fst_read_of_good rfl] at hconsumed
    have htaken : ((table.write ++ rest).take size).length =
        table.write.length := hconsumed.symm
    rw [List.length_take, List.length_append] at htaken
    have hexceeds : table.write.length < size := by omega
    refine ⟨List.length_eq_zero_iff.mp ?_, hexceeds⟩
    omega

theorem reread_of_lt {table : KtgpSection}
    (hlt : sizeField table.triggerGroups < 2 ^ 31) (rest : List UInt8) :
    table.reread rest = read (sizeField table.triggerGroups)
      (InputStream.ofBytes (table.write ++ rest)) := by
  have hnonneg : ¬ table.getSize < 0 := by
    rw [getSize, sectionSize_neg_iff]
    exact not_le.mpr hlt
  have hsize := (toNat_sectionSize (not_lt.mp hnonneg)).1
  rw [reread, readSized, if_neg hnonneg]
  exact congrArg (read · _) hsize

theorem lt_of_reread {table : KtgpSection}
    (hresult : (table.reread rest).result = .ok (content, sizeRead)) :
    sizeField table.triggerGroups < 2 ^ 31 := by
  by_contra hge
  have hneg : table.getSize < 0 := by
    rw [getSize, sectionSize_neg_iff]
    exact not_lt.mp hge
  rw [reread, readSized, if_pos hneg] at hresult
  cases hresult

/-- The list of described groups is the table exactly when each group is. -/
theorem map_range'_eq_iff (groups : List TriggerGroup) (described : ℕ → TriggerGroup) :
    (List.range' 0 groups.length).map described = groups ↔
      ∀ index group, groups[index]? = some group → group = described index := by
  constructor
  · intro heq index group hget
    obtain ⟨hlt, rfl⟩ := List.getElem?_eq_some_iff.mp hget
    have hindex : index < ((List.range' 0 groups.length).map described).length := by
      simpa using hlt
    have hat := List.getElem_of_eq heq hindex
    rw [List.getElem_map, List.getElem_range'] at hat
    simpa using hat.symm
  · intro hgroups
    apply List.ext_getElem (by simp)
    intro index hleft hright
    have hgroup := hgroups index _ (List.getElem?_eq_getElem hright)
    rw [List.getElem_map, List.getElem_range', hgroup]
    simp

/-- A written table is read back exactly when it is the last thing in the file,
its size field is positive and exceeds the bytes written, and the index words
spell the headers that were left out. -/
theorem roundTrips_ktgp_iff (table : KtgpSection) (rest : List UInt8) :
    RoundTrips table table.write (table.reread rest) ↔ rest = [] ∧
        8 + 4 * indexCount table.triggerGroups < sizeField table.triggerGroups ∧
        sizeField table.triggerGroups < 2 ^ 31 ∧
        ∀ index group, table.triggerGroups[index]? = some group →
          Spells table.triggerGroups index group := by
  constructor
  · intro htrips
    have hlt := lt_of_reread htrips.result
    have hresult := htrips.result
    rw [reread_of_lt hlt] at hresult
    obtain ⟨rfl, hexceeds⟩ := exceeds_of_result hresult
    obtain ⟨-, ⟨content, hread, hgroups⟩, hsafe⟩ := table.read_write hexceeds
    have hmemory := htrips.memorySafe
    rw [reread_of_lt hlt, List.append_nil, hsafe] at hmemory
    rw [List.append_nil, hread, Except.ok.injEq, Prod.mk.injEq] at hresult
    rw [hresult.1, eq_comm, map_range'_eq_iff] at hgroups
    refine ⟨rfl, table.length_write ▸ hexceeds, hlt, ?_⟩
    intro index group hget
    exact ⟨hgroups index group hget, hmemory index (List.getElem?_eq_some_iff.mp hget).1⟩
  · rintro ⟨rfl, hexceeds, hlt, hspells⟩
    rw [← table.length_write] at hexceeds
    obtain ⟨hposition, ⟨content, hread, hgroups⟩, hsafe⟩ := table.read_write hexceeds
    have hsame : content = table := by
      have htable := (map_range'_eq_iff table.triggerGroups _).mpr
        fun index group hget => (hspells index group hget).describes
      rw [htable] at hgroups
      cases content
      cases table
      cases hgroups
      rfl
    rw [hsame] at hread
    rw [reread_of_lt hlt, List.append_nil]
    refine ⟨hposition, hread, hsafe.mpr ?_⟩
    intro index hindex
    exact (hspells index _ (List.getElem?_eq_getElem hindex)).inside

-- A group whose eight indexes are its own header.
example : let group : TriggerGroup := ⟨false, false, 0, 0, 0, 0, [0, 0, 4, 4], [0, 0, 0, 8]⟩
    (reread ⟨[group], by decide⟩ []).result = .ok (⟨[group], by decide⟩, 40) := by
  decide

/-- A table without groups is eight bytes long and has the size 0. -/
theorem not_roundTrips_ktgp : ¬ RoundTrips default default.write (default.reread []) ∧
      (default.reread []).stream.position = 0 ∧
      default.write.length = 8 := by
  refine ⟨?_, by decide, by decide⟩
  intro htrips
  have hposition := htrips.position
  revert hposition
  decide

end KtgpSection

end Chkdraft.Sections
