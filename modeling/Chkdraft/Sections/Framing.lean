import Chkdraft.Sections.ExtensionRoundTrip
import Chkdraft.Sections.Section

/-!
# Section frames

A file is a sequence of frames: an 8-byte header with a section's name and the
size of its body, then the body.  A reader finds the next header only if the
size field is the length of the body written after it and if reading the body
consumes as many bytes as the field says, without touching memory outside its
buffers.  Here all of this is decided for every section class and every state.
-/

namespace Chkdraft.Sections

open Binary Chk

variable {size : ℤ} {content : Section} {body : List UInt8}
  {stream : InputStream}

/-- `Chk::SectionHeader`. -/
structure SectionHeader where
  name : UInt32
  sizeInBytes : ℤ
deriving DecidableEq

/-- The header standing in the first eight bytes. -/
def SectionHeader.decode (bytes : List UInt8) : SectionHeader where
  name := UInt32.ofNat (wordAt 4 bytes 0)
  sizeInBytes := sectionSize (wordAt 4 bytes 4)

theorem sectionSize_bounds (size : ℕ) : -2 ^ 31 ≤ sectionSize size ∧ sectionSize size < 2 ^ 31 := by
  unfold sectionSize
  split <;> omega

theorem sectionSize_toNat_emod (hlow : -2 ^ 31 ≤ size) (hhigh : size < 2 ^ 31) :
    sectionSize (size % 2 ^ 32).toNat = size := by
  unfold sectionSize
  split <;> omega

theorem StructName.size_lt (name : StructName) : name.size < 2 ^ 31 := by
  cases name <;> decide

namespace Section

theorem getSize_bounds (hsize : content.getSize = .ok size) : -2 ^ 31 ≤ size ∧ size < 2 ^ 31 := by
  cases content with
  | struct content =>
      have hlt := content.name.size_lt
      have heq : (content.name.size : ℤ) = size := Except.ok.inj hsize
      omega
  | str table =>
      simp only [getSize, StrSection.getSize] at hsize
      split at hsize
      · cases hsize
      · split at hsize
        · rw [← Except.ok.inj hsize]
          exact sectionSize_bounds _
        · cases hsize
  | kstr table =>
      simp only [getSize, KstrSection.getSize] at hsize
      split at hsize
      · cases hsize
      · split at hsize
        · rw [← Except.ok.inj hsize]
          exact sectionSize_bounds _
        · cases hsize
  | _ =>
      rw [← Except.ok.inj hsize]
      exact sectionSize_bounds _

/-- What `writeWithHeader` emits: the name, the size and the body. -/
theorem writeWithHeader_eq_ok {bytes : List UInt8} (hwrite : content.writeWithHeader = .ok bytes) :
    ∃ size body, content.getSize = .ok size ∧ content.write = .ok body ∧ bytes.drop 8 = body ∧
      SectionHeader.decode bytes = ⟨content.name.code, size⟩ := by
  unfold writeWithHeader at hwrite
  cases hsize : content.getSize with
  | error error => simp [hsize] at hwrite
  | ok size =>
      cases hbody : content.write with
      | error error => simp [hsize, hbody] at hwrite
      | ok body =>
          simp only [hsize, hbody, Except.ok.injEq] at hwrite
          obtain ⟨hlow, hhigh⟩ := getSize_bounds hsize
          have hname : littleEndianValue (littleEndian 4 content.name.code.toNat) =
              content.name.code.toNat := by
            rw [littleEndianValue_littleEndian]
            exact Nat.mod_eq_of_lt content.name.code.toNat_lt
          have hfield : littleEndianValue (littleEndian 4 (size % 2 ^ 32).toNat) =
              (size % 2 ^ 32).toNat := by
            rw [littleEndianValue_littleEndian]
            exact Nat.mod_eq_of_lt (by omega)
          refine ⟨size, body, rfl, rfl, ?_, ?_⟩
          · rw [← hwrite]
            exact List.drop_left' (by simp)
          · have htake : (bytes.drop 0).take 4 = littleEndian 4 content.name.code.toNat := by
              rw [← hwrite, List.drop_zero, List.append_assoc]
              exact List.take_left' (by simp)
            have hdrop : (bytes.drop 4).take 4 = littleEndian 4 (size % 2 ^ 32).toNat := by
              rw [← hwrite, List.append_assoc, List.drop_left' (by simp)]
              exact List.take_left' (by simp)
            rw [SectionHeader.decode, wordAt, wordAt, htake, hdrop, hname,
              hfield, sectionSize_toNat_emod hlow hhigh, UInt32.ofNat_toNat]

/-- The sections whose size field is the length of their body: never KTGP, an
MRGN section only once it has its unused first entry, and any list of records
only while its bytes number less than `2 ^ 31`.  STR and KSTR check that limit
themselves. -/
def AnnouncesBody : Section → Prop
  | .struct _ => True
  | .data _ bytes => bytes.length < 2 ^ 31
  | .mtxm tiles => 2 * tiles.length < 2 ^ 31
  | .unit units => 36 * units.length < 2 ^ 31
  | .isom entries => 8 * entries.length < 2 ^ 31
  | .tile tiles => 2 * tiles.length < 2 ^ 31
  | .dd2 doodads => 8 * doodads.length < 2 ^ 31
  | .thg2 sprites => 10 * sprites.length < 2 ^ 31
  | .mask fogTiles => 1 * fogTiles.length < 2 ^ 31
  | .str _ => True
  | .mrgn locations => locations ≠ [] ∧ 20 * locations.tail.length < 2 ^ 31
  | .trig triggers => 2400 * triggers.length < 2 ^ 31
  | .mbrf triggers => 2400 * triggers.length < 2 ^ 31
  | .kstr _ => True
  | .ktrg table => 4 + 20 * table.extendedTrigData.length < 2 ^ 31
  | .ktgp _ => False

theorem recordsSize_eq_iff {A : Type*} (codec : Codec A) (records : List A) :
    recordsSize codec records = (codec.encodeAll records).length ↔
      codec.size * records.length < 2 ^ 31 := by
  rw [recordsSize, Codec.length_encodeAll]
  exact sectionSize_eq_iff _

theorem mrgnSize_eq_iff {locations : List (Option Location)}
    (hwrite : writeMrgn locations = .ok body) :
    mrgnSize locations = body.length ↔ locations ≠ [] ∧ 20 * locations.tail.length < 2 ^ 31 := by
  unfold writeMrgn at hwrite
  split at hwrite
  · rename_i hall
    have hlength : body.length = 20 * locations.tail.length := by
      rw [← Except.ok.inj hwrite, Codec.length_encodeAll, size_locationCodec]
      congr 1
      rw [List.length_filterMap_eq_countP]
      exact List.countP_eq_length.mpr (List.all_eq_true.mp hall)
    rw [hlength]
    cases locations with
    | nil => simp [mrgnSize, sectionSize]
    | cons first rest =>
        have hmod : (first :: rest).length + (2 ^ 64 - 1) = rest.length + 2 ^ 64 := by
          rw [List.length_cons]
          omega
        rw [mrgnSize, hmod, Nat.add_mod_right, size_locationCodec, List.tail_cons, sectionSize]
        constructor
        · intro heq
          refine ⟨List.cons_ne_nil _ _, ?_⟩
          split at heq <;> omega
        · rintro ⟨-, hlt⟩
          split <;> omega
  · cases hwrite

theorem getSize_eq_length_write_iff (hsize : content.getSize = .ok size)
    (hwrite : content.write = .ok body) :
    size = body.length ↔ content.AnnouncesBody := by
  cases content with
  | struct content =>
      rw [← Except.ok.inj hsize, ← Except.ok.inj hwrite]
      simp [AnnouncesBody]
  | data code bytes =>
      rw [← Except.ok.inj hsize, ← Except.ok.inj hwrite]
      exact sectionSize_eq_iff _
  | str table =>
      simpa [AnnouncesBody] using StrSection.getSize_eq_length_write hsize hwrite
  | kstr table =>
      simpa [AnnouncesBody] using KstrSection.getSize_eq_length_write hsize hwrite
  | mrgn locations =>
      rw [← Except.ok.inj hsize]
      exact mrgnSize_eq_iff hwrite
  | ktrg table =>
      rw [← Except.ok.inj hsize, ← Except.ok.inj hwrite, KtrgSection.getSize,
        KtrgSection.length_write]
      exact sectionSize_eq_iff _
  | ktgp table =>
      rw [← Except.ok.inj hsize, ← Except.ok.inj hwrite]
      exact iff_of_false table.getSize_ne_length_write id
  | _ =>
      rw [← Except.ok.inj hsize, ← Except.ok.inj hwrite]
      exact recordsSize_eq_iff _ _

theorem readsBody_str (size : ℕ) (overriding : Bool) (table : StrSection)
    (hgood : stream.good = true) :
    ReadsBody size stream (table.read size overriding stream) := by
  unfold StrSection.read
  rcases Nat.eq_zero_or_pos size with rfl | hpos
  · cases overriding <;> exact ⟨consumesBody_of_zero hgood rfl, _, rfl⟩
  · rw [if_pos hpos]
    exact ⟨rfl, _, rfl⟩

theorem readsBody_kstr (size : ℕ) (table : KstrSection) (hgood : stream.good = true) :
    ReadsBody size stream (table.read size stream) := by
  unfold KstrSection.read
  rcases Nat.eq_zero_or_pos size with rfl | hpos
  · exact ⟨consumesBody_of_zero hgood rfl, _, rfl⟩
  · rw [if_pos hpos]
    exact ⟨rfl, _, rfl⟩

theorem readsBody_readData (size : ℕ) (hgood : stream.good = true) :
    ReadsBody size stream (readData size stream) := by
  unfold readData
  rcases Nat.eq_zero_or_pos size with rfl | hpos
  · exact ⟨consumesBody_of_zero hgood rfl, _, rfl⟩
  · rw [if_pos hpos]
    exact ⟨rfl, _, rfl⟩

/-- KTGP throws on an unknown version, behind the bytes of its body. -/
theorem consumesBody_ktgp (size : ℕ) (hgood : stream.good = true) :
    ConsumesBody size stream (KtgpSection.read size stream) := by
  unfold KtgpSection.read
  rcases Nat.eq_zero_or_pos size with rfl | hpos
  · exact consumesBody_of_zero hgood rfl
  · rw [if_pos hpos]
    simp only
    split <;> rfl

/-- Every class but KTRG and KTGP reads the bytes its header announces. -/
theorem readsBody_read (hktrg : content.name ≠ .ktrg)
    (hktgp : content.name ≠ .ktgp) (size : ℕ) (overrideOrAppend : Bool)
    (hgood : stream.good = true) :
    ReadsBody size stream (content.read size overrideOrAppend stream) := by
  cases content with
  | ktrg table => exact absurd rfl hktrg
  | ktgp table => exact absurd rfl hktgp
  | struct old => exact ⟨rfl, _, rfl⟩
  | data code bytes => exact (readsBody_readData size hgood).map _
  | mtxm tiles => exact (readsBody_readMtxm size _ tiles hgood).map _
  | isom entries => exact (readsBody_readReplacing _ size hgood).map _
  | tile tiles => exact (readsBody_readTile size _ tiles hgood).map _
  | dd2 doodads => exact (readsBody_readReplacing _ size hgood).map _
  | mask fogTiles => exact (readsBody_readMask size _ fogTiles hgood).map _
  | str table => exact (readsBody_str size _ table hgood).map _
  | mrgn locations => exact (readsBody_readMrgn size _ locations hgood).map _
  | kstr table => exact (readsBody_kstr size table hgood).map _
  | _ => exact (readsBody_readAppendable _ size _ _ hgood).map _

theorem consumesBody_read (hktrg : content.name ≠ .ktrg) (size : ℕ)
    (overrideOrAppend : Bool) (hgood : stream.good = true) :
    ConsumesBody size stream (content.read size overrideOrAppend stream) := by
  by_cases hktgp : content.name = .ktgp
  · cases content with
    | ktgp table => exact consumesBody_ktgp size hgood
    | _ => cases hktgp
  · exact (readsBody_read hktrg hktgp size overrideOrAppend hgood).consumesBody

/-- KTRG takes four bytes for its version and then asks for the whole size
again, so it stops at the announced length only where the stream does, and what
it gets there fits its buffer only if it is whole entries. -/
theorem ktrg_read_iff (size : ℕ) (table : KtrgSection)
    (hgood : stream.good = true) (hle : size ≤ stream.remaining.length) :
    ((table.read size stream).stream.position = stream.position + size ∧
        (table.read size stream).memorySafe = true) ↔
      size = 0 ∨ stream.remaining.length = size ∧ (size < 4 ∨ size % 20 = 4) := by
  unfold KtrgSection.read
  rcases Nat.eq_zero_or_pos size with rfl | hpos
  · simp
  rw [if_pos hpos]
  by_cases hshort : stream.remaining.length < 4
  · -- Not even the version is there; the stream ends with it.
    simp only [InputStream.read_of_lt hgood hshort, if_neg hshort.ne, and_true]
    omega
  have hversion : 4 ≤ stream.remaining.length := by omega
  have hfour : (stream.remaining.take 4).length = 4 := by
    simp [hversion]
  simp only [InputStream.read_of_le hgood hversion, hfour, if_true]
  by_cases hsmall : size < 4
  · simp only [if_pos hsmall, and_true]
    omega
  · simp only [if_neg hsmall]
    have hafter : InputStream.good
        { stream with position := stream.position + 4 } = true := hgood
    rw [InputStream.position_read, InputStream.fst_read_of_good hafter,
      List.length_take, Codec.length_encodeAll, List.length_replicate,
      size_extendedTrigDataCodec, decide_eq_true_eq]
    have hrest : (InputStream.remaining
        { stream with position := stream.position + 4 }).length =
        stream.remaining.length - 4 := by
      simp only [InputStream.length_remaining]
      omega
    rw [hrest]
    simp only
    omega

/-- The KTGP bodies read inside their buffer: the body of every group, if it has
one, ends in it. -/
def GroupsInside (body : List UInt8) : Prop := wordAt 4 body 0 = 1 → ∀ index < wordAt 4 body 4,
    KtgpSection.BodyInside (max body.length (8 + (index + 1) * 32))
      (KtgpSection.headerAt body index)

theorem memorySafe_ktgp_read_iff {size : ℕ} (hpos : 0 < size)
    (hbody : (stream.read size).1 = body) (hlength : body.length = size) :
    (KtgpSection.read size stream).memorySafe = true ↔ GroupsInside body := by
  have hfilled : overwrite (List.replicate size 0) 0 body = body := by
    rw [overwrite_zero, List.drop_replicate, hlength, Nat.sub_self,
      List.replicate_zero, List.append_nil]
  have hpadded : ∀ length, KtgpSection.padTo length body =
      body ++ List.replicate (length - body.length) 0 := fun _ => rfl
  have hagain : KtgpSection.padTo 8 (body ++ List.replicate (4 - body.length) 0) =
      body ++ List.replicate (8 - body.length) 0 := by
    rw [KtgpSection.padTo_append_zeros]
    congr 2
    omega
  simp only [KtgpSection.read, if_pos hpos, hbody, hfilled, hagain, hpadded 4,
    wordAt_append_zeros, GroupsInside]
  by_cases hversion : wordAt 4 body 0 = 1
  · have hgroups := (KtgpSection.readGroups_eq body (wordAt 4 body 4) 0 (8 - body.length)).2
    have hmax : ∀ index, max (body.length + (8 - body.length)) (8 + (index + 1) * 32) =
        max body.length (8 + (index + 1) * 32) := by
      intro index
      omega
    simp only [hversion, ne_eq, not_true_eq_false, if_false, forall_const,
      hgroups, Nat.zero_le, Nat.zero_add, hmax]
  · simp [hversion]

/-- A complete read advances the position by what the header announces. -/
theorem position_of_consumesBody {S : Type*} {size : ℕ}
    {outcome : ReadOutcome S} (hconsumes : ConsumesBody size stream outcome)
    (hgood : stream.good = true) (hle : size ≤ stream.remaining.length) :
    outcome.stream.position = stream.position + size := by
  rw [hconsumes, InputStream.read_of_le hgood hle]

/-- The header written in front of the body has the body's length. -/
def WritesFrame (content : Section) : Prop :=
  ∃ bytes, content.writeWithHeader = .ok bytes ∧ content.write = .ok (bytes.drop 8) ∧
    SectionHeader.decode bytes = ⟨content.name.code, (bytes.drop 8).length⟩

/-- A section whose body can be written: no location is null, and the editor
strings are not a single one, whose properties end behind the vector. -/
def StoresInside : Section → Prop
  | .mrgn locations => none ∉ locations.tail
  | .kstr table => ∀ string, table.strings.tail ≠ [some string]
  | _ => True

/-- Reading takes as many bytes as the header announces and accesses nothing
outside the buffers. -/
def ReadsFrame (size : ℕ) (overrideOrAppend : Bool) (content : Section)
    (stream : InputStream) : Prop :=
  (content.read size overrideOrAppend stream).stream.position = stream.position + size ∧
    (content.read size overrideOrAppend stream).memorySafe = true

/-- The bodies a class takes, with what follows them in the stream. -/
def TakesFrame (content : Section) (body following : List UInt8) : Prop :=
  body = [] ∨ match content with
  | .kstr _ => KstrSection.readsInside body = true
  | .ktrg _ => following = [] ∧ (body.length < 4 ∨ body.length % 20 = 4)
  | .ktgp _ => GroupsInside body
  | _ => True

/-- A call without an exception and without an access that ends it returns. -/
theorem exists_ok_of_doesNotThrow {A : Type*} {result : Except SectionError A}
    (hthrows : DoesNotThrow result)
    (hsafe : ∀ error, result = .error error → ¬ error.IsHazard) :
    ∃ value, result = .ok value := by
  cases result with
  | error error => exact absurd (hthrows error rfl) (hsafe error rfl)
  | ok value => exact ⟨value, rfl⟩

theorem str_safe {table : StrSection} {error : SectionError}
    (herror : table.getSize = .error error ∨ table.write = .error error) :
    ¬ error.IsHazard := by
  have hsync : ∀ thrown, StrSection.syncStringsToBytes table.strings =
      .error thrown → ¬ thrown.IsHazard := by
    intro thrown hthrown
    simp only [StrSection.syncStringsToBytes] at hthrown
    split_ifs at hthrown <;>
      simp [← Except.error.inj hthrown, SectionError.IsHazard]
  simp only [StrSection.getSize, StrSection.write] at herror
  cases hbytes : StrSection.syncStringsToBytes table.strings with
  | error thrown =>
      simp only [hbytes, Except.error.injEq, or_self] at herror
      exact herror ▸ hsync thrown hbytes
  | ok bytes =>
      simp only [hbytes, reduceCtorEq, or_false] at herror
      split_ifs at herror
      simp [← Except.error.inj herror, SectionError.IsHazard]

/-- Calls that throw nothing return exactly if the body can be written. -/
theorem returns_iff_storesInside (hsize : DoesNotThrow content.getSize)
    (hwrite : DoesNotThrow content.write) :
    ((∃ size, content.getSize = .ok size) ∧
        ∃ body, content.write = .ok body) ↔ content.StoresInside := by
  cases content with
  | str table =>
      exact iff_of_true ⟨exists_ok_of_doesNotThrow hsize fun _ herror =>
            str_safe (Or.inl herror),
          exists_ok_of_doesNotThrow hwrite fun _ herror =>
            str_safe (Or.inr herror)⟩ trivial
  | mrgn locations =>
      have hall : locations.tail.all Option.isSome = true ↔ none ∉ locations.tail := by
        rw [List.all_eq_true]
        constructor
        · intro hall hnone
          exact Bool.noConfusion (hall none hnone)
        · intro hnone entry hmem
          cases entry with
          | none => exact absurd hmem hnone
          | some location => rfl
      rw [StoresInside, ← hall]
      simp only [getSize, write, writeMrgn]
      split_ifs with hsome
      · exact iff_of_true ⟨⟨_, rfl⟩, _, rfl⟩ hsome
      · exact iff_of_false (fun h => nomatch h.2) hsome
  | kstr table =>
      have houtcome := KstrSection.encodeFrom_outcome le_rfl table.strings
      rw [← KstrSection.syncStringsToBytes_eq] at houtcome
      obtain ⟨-, error, hthrown, hsync⟩ | ⟨-, ⟨string, hsingle⟩, hsync⟩ |
        ⟨-, hsingle, bytes, hsync⟩ := houtcome
      · exact absurd (hwrite error hsync) hthrown
      · apply iff_of_false
        · rintro ⟨-, body, hbody⟩
          rw [write, KstrSection.write, hsync] at hbody
          cases hbody
        · exact fun hstores => hstores string hsingle
      · refine iff_of_true ⟨exists_ok_of_doesNotThrow hsize ?_, bytes, hsync⟩ hsingle
        intro error herror
        simp only [getSize, KstrSection.getSize, hsync] at herror
        split_ifs at herror
        simp [← Except.error.inj herror, SectionError.IsHazard]
  | _ => exact iff_of_true ⟨⟨_, rfl⟩, _, rfl⟩ trivial

theorem writesFrame_iff (hsize : DoesNotThrow content.getSize)
    (hwrite : DoesNotThrow content.write) :
    content.WritesFrame ↔ content.StoresInside ∧ content.AnnouncesBody := by
  rw [← returns_iff_storesInside hsize hwrite]
  constructor
  · rintro ⟨bytes, hbytes, -, hheader⟩
    obtain ⟨size, body, hsize, hbody, hdrop, hdecode⟩ := writeWithHeader_eq_ok hbytes
    rw [hdecode, SectionHeader.mk.injEq, hdrop] at hheader
    exact ⟨⟨⟨size, hsize⟩, body, hbody⟩, (getSize_eq_length_write_iff hsize hbody).mp hheader.2⟩
  · rintro ⟨⟨⟨size, hsize⟩, body, hbody⟩, hannounces⟩
    obtain ⟨bytes, hbytes⟩ : ∃ bytes, content.writeWithHeader = .ok bytes := by
      simp only [writeWithHeader, hsize, hbody]
      exact ⟨_, rfl⟩
    refine ⟨bytes, hbytes, ?_⟩
    obtain ⟨other, written, hother, hwritten, hdrop, hdecode⟩ := writeWithHeader_eq_ok hbytes
    rw [hdrop, hdecode, hwritten, (getSize_eq_length_write_iff hother hwritten).mpr hannounces]
    exact ⟨rfl, rfl⟩

/-- Only the KSTR, KTRG and KTGP readers can access memory outside. -/
theorem memorySafe_read (hkstr : content.name ≠ .kstr)
    (hktrg : content.name ≠ .ktrg) (hktgp : content.name ≠ .ktgp) (size : ℕ)
    (overrideOrAppend : Bool) (stream : InputStream) :
    (content.read size overrideOrAppend stream).memorySafe = true := by
  cases content with
  | kstr table => exact absurd rfl hkstr
  | ktrg table => exact absurd rfl hktrg
  | ktgp table => exact absurd rfl hktgp
  | _ =>
      simp only [read, ReadOutcome.map, StructSection.read, readData, readMtxm, readUnit,
        readIsom, readTile, readDd2, readThg2, readMask, StrSection.read, readMrgn,
        readTrig, readMbrf, readAppendable, readReplacing, readRecords, readOverTiles]
      try split_ifs
      all_goals rfl

theorem readsFrame_iff (content : Section) (size : ℕ)
    (overrideOrAppend : Bool) (hgood : stream.good = true)
    (hle : size ≤ stream.remaining.length) :
    content.ReadsFrame size overrideOrAppend stream ↔
      content.TakesFrame (stream.remaining.take size) (stream.remaining.drop size) := by
  have hlength : (stream.remaining.take size).length = size := by
    rw [List.length_take, Nat.min_eq_left hle]
  have hempty : stream.remaining.take size = [] ↔ size = 0 := by
    rw [← List.length_eq_zero_iff, hlength]
  have hbody : (stream.read size).1 = stream.remaining.take size := by
    rw [InputStream.read_of_le hgood hle]
  have hposition : content.name ≠ .ktrg → (content.ReadsFrame size overrideOrAppend stream ↔
        (content.read size overrideOrAppend stream).memorySafe = true) :=
    fun hktrg => and_iff_right (position_of_consumesBody
      (consumesBody_read hktrg size overrideOrAppend hgood) hgood hle)
  cases content with
  | ktrg table =>
      have hend : stream.remaining.drop size = [] ↔ stream.remaining.length = size := by
        rw [List.drop_eq_nil_iff]
        omega
      simp only [TakesFrame, hempty, hend, hlength]
      exact ktrg_read_iff size table hgood hle
  | kstr table =>
      rw [hposition (by simp [name]), TakesFrame, hempty]
      rcases Nat.eq_zero_or_pos size with rfl | hpos
      · exact iff_of_true rfl (Or.inl rfl)
      · have hfilled : overwrite (List.replicate size 0) 0
            (stream.remaining.take size) = stream.remaining.take size := by
          rw [overwrite_zero, List.drop_replicate, hlength, Nat.sub_self,
            List.replicate_zero, List.append_nil]
        simp only [read, ReadOutcome.map, KstrSection.read, if_pos hpos, hbody,
          hfilled, hpos.ne', false_or]
  | ktgp table =>
      rw [hposition (by simp [name]), TakesFrame, hempty]
      rcases Nat.eq_zero_or_pos size with rfl | hpos
      · exact iff_of_true rfl (Or.inl rfl)
      · rw [or_iff_right hpos.ne']
        exact memorySafe_ktgp_read_iff hpos hbody hlength
  | _ =>
      rw [hposition (by simp [name])]
      exact iff_of_true (memorySafe_read (by simp [name]) (by simp [name])
        (by simp [name]) size overrideOrAppend stream) (Or.inr trivial)

/-- Frames of every section class: a section that does not throw writes a
header of its body's length exactly if its body can be written and its size
field announces it, and a body is read up to its end and inside the buffers
exactly if its class takes it. -/
theorem section_frames_iff (content : Section) :
    (DoesNotThrow content.getSize → DoesNotThrow content.write →
      (content.WritesFrame ↔ content.StoresInside ∧ content.AnnouncesBody)) ∧
    ∀ (size : ℕ) (overrideOrAppend : Bool) (stream : InputStream),
      stream.good = true → size ≤ stream.remaining.length →
        (content.ReadsFrame size overrideOrAppend stream ↔
          content.TakesFrame (stream.remaining.take size) (stream.remaining.drop size)) :=
  ⟨fun hsize hwrite => writesFrame_iff hsize hwrite, fun size overrideOrAppend _ hgood hle =>
      readsFrame_iff content size overrideOrAppend hgood hle⟩

/-- A KTRG section with one entry, and its body at the end of a stream. -/
theorem section_frames_ktrg : WritesFrame (.ktrg ⟨[none]⟩) ∧
      ReadsFrame 24 false (.ktrg KtrgSection.default)
        (InputStream.ofBytes (2 :: List.replicate 23 0)) := by
  refine ⟨((section_frames_iff (.ktrg ⟨[none]⟩)).1 ?_ ?_).mpr ⟨trivial, by simp [AnnouncesBody]⟩,
    ((section_frames_iff (.ktrg KtrgSection.default)).2 24 false
      (InputStream.ofBytes (2 :: List.replicate 23 0)) (by decide)
      (by decide)).mpr ?_⟩
  · intro error herror
    cases herror
  · intro error herror
    cases herror
  · exact Or.inr ⟨by decide, Or.inr (by decide)⟩

/-- A KTGP section without groups announces no bytes and writes eight; a KTRG
body of four bytes makes its reader take eight, and one of eight at the end of
a stream is read into a buffer without room. -/
theorem section_frames_ktgp_ktrg : writeWithHeader (.ktgp KtgpSection.default) =
        .ok [75, 84, 71, 80, 0, 0, 0, 0, 1, 0, 0, 0, 0, 0, 0, 0] ∧
      ¬ WritesFrame (.ktgp KtgpSection.default) ∧
      (read 4 false (.ktrg KtrgSection.default)
        (InputStream.ofBytes [2, 0, 0, 0, 5, 6, 7, 8])).stream.position = 8 ∧
      (read 8 false (.ktrg KtrgSection.default)
        (InputStream.ofBytes [2, 0, 0, 0, 5, 6, 7, 8])).memorySafe = false := by
  have hwrite : writeWithHeader (.ktgp KtgpSection.default) =
      .ok [75, 84, 71, 80, 0, 0, 0, 0, 1, 0, 0, 0, 0, 0, 0, 0] := by decide
  refine ⟨hwrite, ?_, by decide, by decide⟩
  rintro ⟨bytes, hbytes, -, hheader⟩
  rw [hwrite] at hbytes
  rw [← Except.ok.inj hbytes] at hheader
  revert hheader
  decide

end Section

end Chkdraft.Sections
