import Chkdraft.Chk.Records
import Chkdraft.Sections.ChkSection

/-!
# Sections made of equal records

UNIT, ISOM, DD2, THG2, TRIG, MBRF and MRGN hold lists of packed records, MTXM,
TILE and MASK vectors of tiles.  A size that is not a multiple of the record
size makes their readers allocate one more record per byte of the remainder;
the bytes that are missing are zero.  Sections that may occur several times in
a file append their records to those already read, or read over the tiles
already there.
-/

namespace Chkdraft.Sections

open Binary Chk

variable {A : Type*}

/-- Records allocated for a body of `size` bytes. -/
def numRecords (codec : Codec A) (size : ℕ) : ℕ := size / codec.size + size % codec.size

/-- The records of a body read into a zeroed buffer, and the stream behind it. -/
def readRecords (codec : Codec A) (size : ℕ) (stream : InputStream) : ReadOutcome (List A) :=
  let (extracted, after) := stream.read size
  let buffer := overwrite (List.replicate (codec.size * numRecords codec size) 0) 0 extracted
  ⟨after, .ok (codec.decodeAll (numRecords codec size) buffer, extracted.length), true⟩

/-- A reader that appends to the records already there when it is told to. -/
def readAppendable (codec : Codec A) (size : ℕ) (append : Bool)
    (records : List A) (stream : InputStream) : ReadOutcome (List A) :=
  if size > 0 then
    (readRecords codec size stream).map fun read =>
      if append then records ++ read else read
  else if append = false then
    ⟨stream, .ok ([], 0), true⟩
  else
    ⟨stream, .ok (records, 0), true⟩

/-- A reader that always replaces the records. -/
def readReplacing (codec : Codec A) (size : ℕ) (stream : InputStream) : ReadOutcome (List A) :=
  if size > 0 then
    readRecords codec size stream
  else
    ⟨stream, .ok ([], 0), true⟩

def recordsSize (codec : Codec A) (records : List A) : ℤ :=
  sectionSize (codec.size * records.length)

/-- `UnitSection::read`. -/
def readUnit : ℕ → Bool → List Chk.Unit → InputStream → ReadOutcome (List Chk.Unit) :=
  readAppendable unitCodec

/-- `Thg2Section::read`. -/
def readThg2 : ℕ → Bool → List Sprite → InputStream → ReadOutcome (List Sprite) :=
  readAppendable spriteCodec

/-- `TrigSection::read`. -/
def readTrig : ℕ → Bool → List Trigger → InputStream → ReadOutcome (List Trigger) :=
  readAppendable triggerCodec

/-- `MbrfSection::read`. -/
def readMbrf : ℕ → Bool → List Trigger → InputStream → ReadOutcome (List Trigger) :=
  readAppendable triggerCodec

/-- `IsomSection::read`. -/
def readIsom : ℕ → InputStream → ReadOutcome (List IsomEntry) := readReplacing isomEntryCodec

/-- `Dd2Section::read`. -/
def readDd2 : ℕ → InputStream → ReadOutcome (List Doodad) := readReplacing doodadCodec

/-- `MrgnSection::read`: the unused location id 0 is put in front. -/
def readMrgn (size : ℕ) (append : Bool) (locations : List (Option Location))
    (stream : InputStream) : ReadOutcome (List (Option Location)) :=
  if size > 0 then
    (readRecords locationCodec size stream).map fun read =>
      if append then locations ++ read.map some
      else none :: read.map some
  else if append = false then
    ⟨stream, .ok ([none], 0), true⟩
  else
    ⟨stream, .ok (locations, 0), true⟩

/-- `MrgnSection::getSize`; `locations.size()-1` is a `size_t`, so a table
without even the unused id 0 has `2 ^ 64 - 1` locations here. -/
def mrgnSize (locations : List (Option Location)) : ℤ :=
  sectionSize (locationCodec.size * ((locations.length + (2 ^ 64 - 1)) % 2 ^ 64))

/-- `MrgnSection::write`.  A null location behind the first entry is a null
pointer handed to `os.write`, which does not return. -/
def writeMrgn (locations : List (Option Location)) : Except SectionError (List UInt8) :=
  if locations.tail.all Option.isSome then
    .ok (locationCodec.encodeAll (locations.tail.filterMap id))
  else
    .error .nullDereference

/-- The tiles after a body of at least one byte was read over them. -/
def readOverTiles (codec : Codec A) (blank : A) (size : ℕ) (overriding : Bool)
    (tiles : List A) (stream : InputStream) : ReadOutcome (List A) :=
  let readNumTiles := numRecords codec size
  let resized :=
    if readNumTiles > tiles.length then
      tiles ++ List.replicate (readNumTiles - tiles.length) blank
    else if overriding = false ∧ readNumTiles < tiles.length then
      tiles.take readNumTiles
    else
      tiles
  let zeroed := overwrite (codec.encodeAll resized) 0 (List.replicate size 0)
  let (extracted, after) := stream.read size
  ⟨after, .ok (codec.decodeAll resized.length (overwrite zeroed 0 extracted),
    extracted.length), true⟩

/-- `MtxmSection::read`: an empty overriding body leaves the tiles alone. -/
def readMtxm (size : ℕ) (overriding : Bool) (tiles : List UInt16)
    (stream : InputStream) : ReadOutcome (List UInt16) :=
  if size > 0 then
    readOverTiles Codec.u16 0 size overriding tiles stream
  else if overriding = false then
    ⟨stream, .ok ([], 0), true⟩
  else
    ⟨stream, .ok (tiles, 0), true⟩

/-- `TileSection::read`: an empty body clears the tiles in any case. -/
def readTile (size : ℕ) (overriding : Bool) (tiles : List UInt16)
    (stream : InputStream) : ReadOutcome (List UInt16) :=
  if size > 0 then
    readOverTiles Codec.u16 0 size overriding tiles stream
  else
    ⟨stream, .ok ([], 0), true⟩

/-- `MaskSection::read`. -/
def readMask (size : ℕ) (overriding : Bool) (fogTiles : List UInt8)
    (stream : InputStream) : ReadOutcome (List UInt8) :=
  if size > 0 then
    readOverTiles Codec.u8 0 size overriding fogTiles stream
  else
    ⟨stream, .ok ([], 0), true⟩

/-- A reader that extracts exactly the bytes its header announces. -/
def ConsumesBody {S : Type*} (size : ℕ) (stream : InputStream) (outcome : ReadOutcome S) : Prop :=
  outcome.stream = (stream.read size).2

/-- A reader that does so and does not throw. -/
structure ReadsBody {S : Type*} (size : ℕ) (stream : InputStream)
    (outcome : ReadOutcome S) : Prop where
  consumesBody : ConsumesBody size stream outcome
  completes : ∃ value, outcome.result = .ok value

theorem consumesBody_of_zero {S : Type*} {stream : InputStream}
    {outcome : ReadOutcome S} (hgood : stream.good = true)
    (hstream : outcome.stream = stream) : ConsumesBody 0 stream outcome := by
  rw [ConsumesBody, hstream, InputStream.read_of_le hgood (Nat.zero_le _)]
  rfl

theorem ReadsBody.map {S T : Type*} {size : ℕ} {stream : InputStream}
    {outcome : ReadOutcome S} (hreads : ReadsBody size stream outcome)
    (embed : S → T) : ReadsBody size stream (outcome.map embed) := by
  obtain ⟨⟨content, sizeRead⟩, hresult⟩ := hreads.completes
  refine ⟨hreads.consumesBody, (embed content, sizeRead), ?_⟩
  rw [ReadOutcome.map, hresult]
  rfl

theorem readsBody_readAppendable (codec : Codec A) (size : ℕ)
    (append : Bool) (records : List A) {stream : InputStream}
    (hgood : stream.good = true) :
    ReadsBody size stream (readAppendable codec size append records stream) := by
  unfold readAppendable
  rcases Nat.eq_zero_or_pos size with rfl | hpos
  · cases append <;> exact ⟨consumesBody_of_zero hgood rfl, _, rfl⟩
  · rw [if_pos hpos]
    exact ⟨rfl, _, rfl⟩

theorem readsBody_readReplacing (codec : Codec A) (size : ℕ)
    {stream : InputStream} (hgood : stream.good = true) :
    ReadsBody size stream (readReplacing codec size stream) := by
  unfold readReplacing
  rcases Nat.eq_zero_or_pos size with rfl | hpos
  · exact ⟨consumesBody_of_zero hgood rfl, _, rfl⟩
  · rw [if_pos hpos]
    exact ⟨rfl, _, rfl⟩

theorem readsBody_readMrgn (size : ℕ) (append : Bool)
    (locations : List (Option Location)) {stream : InputStream}
    (hgood : stream.good = true) :
    ReadsBody size stream (readMrgn size append locations stream) := by
  unfold readMrgn
  rcases Nat.eq_zero_or_pos size with rfl | hpos
  · cases append <;> exact ⟨consumesBody_of_zero hgood rfl, _, rfl⟩
  · rw [if_pos hpos]
    exact ⟨rfl, _, rfl⟩

section

variable {stream : InputStream} (size : ℕ) (overriding : Bool) (tiles : List UInt16)
  (hgood : stream.good = true)

include hgood

theorem readsBody_readMtxm : ReadsBody size stream (readMtxm size overriding tiles stream) := by
  unfold readMtxm
  rcases Nat.eq_zero_or_pos size with rfl | hpos
  · cases overriding <;> exact ⟨consumesBody_of_zero hgood rfl, _, rfl⟩
  · rw [if_pos hpos]
    exact ⟨rfl, _, rfl⟩

theorem readsBody_readTile : ReadsBody size stream (readTile size overriding tiles stream) := by
  unfold readTile
  rcases Nat.eq_zero_or_pos size with rfl | hpos
  · exact ⟨consumesBody_of_zero hgood rfl, _, rfl⟩
  · rw [if_pos hpos]
    exact ⟨rfl, _, rfl⟩

end

theorem readsBody_readMask (size : ℕ) (overriding : Bool)
    (fogTiles : List UInt8) {stream : InputStream}
    (hgood : stream.good = true) :
    ReadsBody size stream (readMask size overriding fogTiles stream) := by
  unfold readMask
  rcases Nat.eq_zero_or_pos size with rfl | hpos
  · exact ⟨consumesBody_of_zero hgood rfl, _, rfl⟩
  · rw [if_pos hpos]
    exact ⟨rfl, _, rfl⟩

end Chkdraft.Sections
