import Chkdraft.Chk.Records
import Chkdraft.Sections.ChkSection

/-!
# The KTRG and KTGP sections

KTRG keeps editor data about triggers, indexed by numbers a trigger can store in
its spare owner bytes; KTGP keeps groups of triggers.  The KTRG reader takes a
version and then asks for as many bytes again as the whole section has; the
KTGP writer forgets its group headers while `getSize` counts them.  Both are
modelled as they stand.
-/

namespace Chkdraft.Sections

open Binary Chk

/-- `Chk::UnusedExtendedTrigDataIndexCheck`: an index is unusable when it has no
bit of this mask. -/
def unusedExtendedTrigDataIndexCheck : ℕ := 0xFEFEFEFE

def indexUsable (index : ℕ) : Bool := index &&& unusedExtendedTrigDataIndexCheck ≠ 0

structure KtrgSection where
  extendedTrigData : List (Option ExtendedTrigData)
deriving DecidableEq

namespace KtrgSection

def default : KtrgSection := ⟨[]⟩

/-- Entries at unusable indexes are dropped. -/
def loadEntries (entries : List ExtendedTrigData) : List (Option ExtendedTrigData) :=
  entries.zipIdx.map fun (entry, index) =>
    if indexUsable index then some entry else none

/-- `KtrgSection::read`.  For a size below 4 the entry count is computed from a
wrapped difference and the allocation throws `std::length_error`.  The second
read asks for `size` bytes although the buffer holds only whole entries behind
the version; bytes that do not fit it are written over other memory. -/
def read (size : ℕ) (table : KtrgSection) (stream : InputStream) : ReadOutcome KtrgSection :=
  if size > 0 then
    let (version, afterVersion) := stream.read 4
    if version.length = 4 then
      if size < 4 then
        ⟨afterVersion, .error .lengthError, true⟩
      else
        let count := (size - 4) / extendedTrigDataCodec.size
        let blanks := extendedTrigDataCodec.encodeAll (List.replicate count ExtendedTrigData.blank)
        let (extracted, after) := afterVersion.read size
        let buffer := (overwrite blanks 0 extracted).take blanks.length
        let entries := extendedTrigDataCodec.decodeAll count buffer
        ⟨after, .ok (⟨table.extendedTrigData ++ loadEntries entries⟩, 4 + extracted.length),
          extracted.length ≤ blanks.length⟩
    else
      ⟨afterVersion, .ok (table, version.length), true⟩
  else
    ⟨stream, .ok (table, 0), true⟩

/-- `KtrgSection::getSize`. -/
def getSize (table : KtrgSection) : ℤ :=
  sectionSize (4 + extendedTrigDataCodec.size * table.extendedTrigData.length)

/-- `KtrgSection::write`. -/
def write (table : KtrgSection) : List UInt8 := littleEndian 4 2 ++ extendedTrigDataCodec.encodeAll
    (table.extendedTrigData.map (·.getD ExtendedTrigData.blank))

theorem length_write (table : KtrgSection) : table.write.length =
      4 + extendedTrigDataCodec.size * table.extendedTrigData.length := by
  simp [write]

end KtrgSection

/-- Groups are only ever added by `read`, at most one for each value of a 32-bit
count. -/
structure KtgpSection where
  triggerGroups : List TriggerGroup
  length_lt : triggerGroups.length < 2 ^ 32
deriving DecidableEq

namespace KtgpSection

def default : KtgpSection := ⟨[], by decide⟩

/-- `Chk::TriggerGroupHeader::Flags::groupExpanded`, `BIT_27`. -/
def groupExpandedFlag : UInt32 := 0x08000000

/-- `Chk::TriggerGroupHeader::Flags::groupHidden`, `BIT_28`. -/
def groupHiddenFlag : UInt32 := 0x10000000

/-- Append zeros until the vector has at least `length` bytes. -/
def padTo (length : ℕ) (bytes : List UInt8) : List UInt8 :=
  bytes ++ List.replicate (length - bytes.length) 0

/-- The bytes a group body needs; the two products are 32-bit. -/
def bodySizeRequired (header : TriggerGroupHeader) : ℕ :=
  header.bodyOffset.toNat + (4 * header.numTriggers).toNat + (4 * header.numGroups).toNat

def hasBody (header : TriggerGroupHeader) : Bool :=
  header.numTriggers > 0 && header.numGroups > 0 && header.bodyOffset > 0

def bodyWords (bytes : List UInt8) (header : TriggerGroupHeader) (first count : ℕ) : List UInt32 :=
  (List.range count).map fun index =>
    UInt32.ofNat (wordAt 4 bytes (header.bodyOffset.toNat + 4 * (first + index)))

/-- One round of the loop over the group headers: the group, the grown vector,
and whether the accesses stayed inside it.  When a body makes the vector grow,
the reference to the header is invalid from then on. -/
def readGroup (bytes : List UInt8) (index : ℕ) : TriggerGroup × List UInt8 × Bool :=
  let headerStart := 8 + index * triggerGroupHeaderCodec.size
  let bytes := padTo (headerStart + triggerGroupHeaderCodec.size) bytes
  let header := triggerGroupHeaderCodec.decode
    ((bytes.drop headerStart).take triggerGroupHeaderCodec.size)
  let group : TriggerGroup :=
    { groupExpanded := header.flags &&& groupExpandedFlag = groupExpandedFlag
      groupHidden := header.flags &&& groupHiddenFlag = groupHiddenFlag
      templateInstanceId := header.templateInstanceId
      commentStringId := header.commentStringId
      notesStringId := header.notesStringId
      parentGroupId := header.parentGroupId
      extendedTrigDataIndexes := []
      groupIndexes := [] }
  if hasBody header then
    let required := bodySizeRequired header
    let grown := padTo required bytes
    ({ group with
        extendedTrigDataIndexes := bodyWords grown header 0 header.numTriggers.toNat
        groupIndexes := bodyWords grown header header.numTriggers.toNat header.numGroups.toNat },
      grown,
      required ≤ bytes.length && header.bodyOffset.toNat +
          4 * (header.numTriggers.toNat + header.numGroups.toNat) ≤ grown.length)
  else
    (group, bytes, true)

/-- The loop over the group headers from `index` on. -/
def readGroups : ℕ → ℕ → List UInt8 → List TriggerGroup × Bool
  | 0, _, _ => ([], true)
  | count + 1, index, bytes =>
      let (group, bytes, safe) := readGroup bytes index
      let (groups, restSafe) := readGroups count (index + 1) bytes
      (group :: groups, safe && restSafe)

@[simp]
theorem length_fst_readGroups (count index : ℕ) (bytes : List UInt8) :
    (readGroups count index bytes).1.length = count := by
  induction count generalizing index bytes with
  | zero => rfl
  | succ count ih => simp [readGroups, ih]

theorem wordAt_four_lt (bytes : List UInt8) (offset : ℕ) : wordAt 4 bytes offset < 2 ^ 32 := by
  have hlt := littleEndianValue_lt ((bytes.drop offset).take 4)
  have hle : 256 ^ ((bytes.drop offset).take 4).length ≤ 256 ^ 4 :=
    Nat.pow_le_pow_right (by norm_num) (List.length_take_le _ _)
  exact hlt.trans_le hle

/-- `KtgpSection::read` into a new section, the only use the loader makes of
it. -/
def read (size : ℕ) (stream : InputStream) : ReadOutcome KtgpSection :=
  if size > 0 then
    let (extracted, after) := stream.read size
    let bytes := padTo 4 (overwrite (List.replicate size 0) 0 extracted)
    let version := wordAt 4 bytes 0
    if version ≠ 1 then
      ⟨after, .error (.sectionValidation version), true⟩
    else
      let bytes := padTo 8 bytes
      let groups := readGroups (wordAt 4 bytes 4) 0 bytes
      ⟨after, .ok (⟨groups.1, by
          rw [length_fst_readGroups]
          exact wordAt_four_lt _ _⟩, extracted.length), groups.2⟩
  else
    ⟨stream, .ok (default, 0), true⟩

/-- Number of trigger and group indexes over all groups. -/
def indexCount (groups : List TriggerGroup) : ℕ := (groups.map fun group =>
    group.extendedTrigDataIndexes.length + group.groupIndexes.length).sum

/-- `KtgpSection::getSize`, with the 32-bit sums taken modulo `2 ^ 32`. -/
def getSize (table : KtgpSection) : ℤ :=
  sectionSize (triggerGroupHeaderCodec.size * table.triggerGroups.length +
    4 * indexCount table.triggerGroups)

/-- `KtgpSection::write`: the headers are filled in but never put into the
vector that is written. -/
def write (table : KtgpSection) : List UInt8 :=
  littleEndian 4 1 ++ littleEndian 4 table.triggerGroups.length ++
    Codec.u32.encodeAll (table.triggerGroups.flatMap fun group =>
      group.extendedTrigDataIndexes ++ group.groupIndexes)

theorem length_write (table : KtgpSection) :
    table.write.length = 8 + 4 * indexCount table.triggerGroups := by
  have hcount : (table.triggerGroups.flatMap fun group =>
      group.extendedTrigDataIndexes ++ group.groupIndexes).length =
      indexCount table.triggerGroups := by
    simp [indexCount, List.length_flatMap]
  simp only [write, List.length_append, length_littleEndian,
    Codec.length_encodeAll, hcount, Codec.size_u32]

/-- The size field of a KTGP section is never the length of its body. -/
theorem getSize_ne_length_write (table : KtgpSection) : table.getSize ≠ table.write.length := by
  rw [length_write, getSize, size_triggerGroupHeaderCodec, sectionSize]
  split <;> omega

end KtgpSection

end Chkdraft.Sections
