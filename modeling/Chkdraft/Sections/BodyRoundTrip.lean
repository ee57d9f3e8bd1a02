import Chkdraft.Sections.Section

/-!
# Bodies that are read and written back

A section body taken from a file, read into a new section and written again.
The lists of records complete the last record with zero bytes; how many records
they allocate decides whether they add more than that.  A structure section
writes as many bytes as its structure has, whatever was read.
-/

namespace Chkdraft.Sections

open Binary Chk

/-- The bytes a new section writes after it read a body that stands in front of
`rest`. -/
def rewritten (name : SectionName) (body rest : List UInt8) : Except SectionError (List UInt8) :=
  match ((Section.allocate name).read body.length false
      (InputStream.ofBytes (body ++ rest))).result with
  | .error error => .error error
  | .ok (content, _) => content.write

/-- A body that the stream holds as a whole is extracted as it is. -/
theorem fst_read_ofBytes_append (body rest : List UInt8) :
    ((InputStream.ofBytes (body ++ rest)).read body.length).1 = body := by
  rw [InputStream.fst_read_of_good rfl]
  exact List.take_left

/-- The sections that are lists of records. -/
inductive RecordName where
  | unit | dd2 | thg2 | mrgn | trig | mbrf | isom
deriving DecidableEq

namespace RecordName

def sectionName : RecordName → SectionName
  | .unit => .unit
  | .dd2 => .dd2
  | .thg2 => .thg2
  | .mrgn => .mrgn
  | .trig => .trig
  | .mbrf => .mbrf
  | .isom => .isom

/-- `sizeof` of one record. -/
def recordSize : RecordName → ℕ
  | .unit => unitCodec.size
  | .dd2 => doodadCodec.size
  | .thg2 => spriteCodec.size
  | .mrgn => locationCodec.size
  | .trig => triggerCodec.size
  | .mbrf => triggerCodec.size
  | .isom => isomEntryCodec.size

theorem recordSize_ge_two (name : RecordName) : 2 ≤ name.recordSize := by
  cases name <;> decide

end RecordName

/-- The body with the fewest zero bytes behind it that complete its last
record. -/
def completed (recordSize : ℕ) (body : List UInt8) : List UInt8 :=
  body ++ List.replicate ((recordSize - body.length % recordSize) % recordSize) 0

/-- The body with the zero bytes of all the records that are allocated for
it. -/
def allocatedBody (recordSize : ℕ) (body : List UInt8) : List UInt8 :=
  body ++ List.replicate (recordSize *
    (body.length / recordSize + body.length % recordSize) - body.length) 0

theorem length_completed {recordSize : ℕ} (hsize : 0 < recordSize) (body : List UInt8) :
    (completed recordSize body).length =
      recordSize * ((body.length + (recordSize - 1)) / recordSize) := by
  have hdiv := Nat.div_add_mod body.length recordSize
  have hmod : body.length % recordSize < recordSize := Nat.mod_lt _ hsize
  rw [completed, List.length_append, List.length_replicate]
  rcases Nat.eq_zero_or_pos (body.length % recordSize) with hzero | hpos
  · have hquot : (body.length + (recordSize - 1)) / recordSize = body.length / recordSize := by
      apply Nat.div_eq_of_lt_le
      · rw [mul_comm]
        omega
      · rw [mul_comm, Nat.mul_succ]
        omega
    rw [hquot, hzero, Nat.sub_zero, Nat.mod_self]
    omega
  · have hquot : (body.length + (recordSize - 1)) / recordSize = body.length / recordSize + 1 := by
      apply Nat.div_eq_of_lt_le
      · rw [mul_comm, Nat.mul_succ]
        omega
      · rw [mul_comm, Nat.mul_succ, Nat.mul_succ]
        omega
    rw [hquot, Nat.mod_eq_of_lt (by omega), Nat.mul_succ]
    omega

/-- Allocating one record for each byte of the remainder completes the last
record exactly when at most one byte remains. -/
theorem allocatedBody_eq_completed_iff {recordSize : ℕ}
    (hsize : 2 ≤ recordSize) (body : List UInt8) :
    allocatedBody recordSize body = completed recordSize body ↔ body.length % recordSize ≤ 1 := by
  have hdiv := Nat.div_add_mod body.length recordSize
  have hmod : body.length % recordSize < recordSize := Nat.mod_lt _ (by omega)
  have hadded : recordSize * (body.length / recordSize + body.length % recordSize) - body.length =
      (recordSize - 1) * (body.length % recordSize) := by
    rw [Nat.mul_add, Nat.sub_mul, Nat.one_mul]
    omega
  rw [allocatedBody, completed, hadded, List.append_cancel_left_eq, List.replicate_left_inj]
  rcases Nat.eq_zero_or_pos (body.length % recordSize) with hzero | hpos
  · simp [hzero]
  · rw [Nat.mod_eq_of_lt (by omega : recordSize - body.length % recordSize <
      recordSize), Nat.sub_mul, Nat.one_mul]
    constructor
    · intro heq
      have hle : recordSize * (body.length % recordSize) ≤ recordSize * 1 := by
        omega
      exact Nat.le_of_mul_le_mul_left hle (by omega)
    · intro hle
      have hone : body.length % recordSize = 1 := by omega
      rw [hone]
      omega

section

variable {A : Type*}

/-- Records read from a body are written as that body and the zeros of the
records behind it. -/
theorem result_readRecords (codec : Codec A) (hsize : 0 < codec.size) (body rest : List UInt8) :
    ∃ records, (readRecords codec body.length
        (InputStream.ofBytes (body ++ rest))).result = .ok (records, body.length) ∧
      codec.encodeAll records = allocatedBody codec.size body := by
  have hbody := fst_read_ofBytes_append body rest
  have hdiv := Nat.div_add_mod body.length codec.size
  have hle : body.length ≤ codec.size * numRecords codec body.length := by
    have hremainder := Nat.le_mul_of_pos_left (body.length % codec.size) hsize
    rw [numRecords, Nat.mul_add]
    omega
  have hbuffer : overwrite (List.replicate (codec.size * numRecords codec body.length) 0) 0 body =
      allocatedBody codec.size body := by
    rw [overwrite_zero, List.drop_replicate]
    rfl
  have hlength : (allocatedBody codec.size body).length =
      codec.size * numRecords codec body.length := by
    rw [← hbuffer, length_overwrite (by simpa using hle), List.length_replicate]
  refine ⟨codec.decodeAll (numRecords codec body.length) (allocatedBody codec.size body), ?_, ?_⟩
  · simp only [readRecords, hbody, hbuffer]
  · exact codec.encodeAll_decodeAll _ _ hlength

theorem allocatedBody_nil (recordSize : ℕ) : allocatedBody recordSize [] = [] := by
  simp [allocatedBody]

theorem result_readAppendable (codec : Codec A) (hsize : 0 < codec.size) (body rest : List UInt8) :
    ∃ records, (readAppendable codec body.length false []
        (InputStream.ofBytes (body ++ rest))).result = .ok (records, body.length) ∧
      codec.encodeAll records = allocatedBody codec.size body := by
  rcases List.eq_nil_or_concat body with rfl | ⟨front, last, rfl⟩
  · exact ⟨[], rfl, (allocatedBody_nil _).symm⟩
  · obtain ⟨records, hread, hwrite⟩ := result_readRecords codec hsize (front.concat last) rest
    refine ⟨records, ?_, hwrite⟩
    rw [readAppendable, if_pos (by simp), ReadOutcome.map, hread]
    rfl

theorem result_readReplacing (codec : Codec A) (hsize : 0 < codec.size) (body rest : List UInt8) :
    ∃ records, (readReplacing codec body.length
        (InputStream.ofBytes (body ++ rest))).result = .ok (records, body.length) ∧
      codec.encodeAll records = allocatedBody codec.size body := by
  rcases List.eq_nil_or_concat body with rfl | ⟨front, last, rfl⟩
  · exact ⟨[], rfl, (allocatedBody_nil _).symm⟩
  · rw [readReplacing, if_pos (by simp)]
    exact result_readRecords codec hsize (front.concat last) rest

theorem result_readMrgn (body rest : List UInt8) : ∃ records, (readMrgn body.length false []
        (InputStream.ofBytes (body ++ rest))).result = .ok (none :: records.map some, body.length) ∧
      locationCodec.encodeAll records = allocatedBody locationCodec.size body := by
  rcases List.eq_nil_or_concat body with rfl | ⟨front, last, rfl⟩
  · exact ⟨[], rfl, (allocatedBody_nil _).symm⟩
  · obtain ⟨records, hread, hwrite⟩ :=
      result_readRecords locationCodec (by decide) (front.concat last) rest
    refine ⟨records, ?_, hwrite⟩
    rw [readMrgn, if_pos (by simp), ReadOutcome.map, hread]
    rfl

end

theorem writeMrgn_none_cons (records : List Location) :
    writeMrgn (none :: records.map some) = .ok (locationCodec.encodeAll records) := by
  have hall : (records.map some).all Option.isSome = true := by simp
  have hsome : (records.map some).filterMap id = records := by
    rw [List.filterMap_map]
    exact List.filterMap_some
  rw [writeMrgn, List.tail_cons, if_pos hall, hsome]

/-- The records of a section; the unused location 0 is none. -/
def Section.recordCount : Section → ℕ
  | .unit units => units.length
  | .dd2 doodads => doodads.length
  | .thg2 sprites => sprites.length
  | .mrgn locations => locations.length - 1
  | .trig triggers => triggers.length
  | .mbrf briefingTriggers => briefingTriggers.length
  | .isom isomEntries => isomEntries.length
  | _ => 0

/-- What a section made of `records` writes and how many they are. -/
theorem write_of_records {A : Type*} {codec : Codec A} {records : List A}
    {body : List UInt8} {content : Section}
    (hencode : codec.encodeAll records = allocatedBody codec.size body)
    (hwrite : content.write = .ok (codec.encodeAll records))
    (hcount : content.recordCount = records.length) :
    content.write = .ok (allocatedBody codec.size body) ∧
      (allocatedBody codec.size body).length = codec.size * content.recordCount := by
  rw [hwrite, hencode, hcount, ← hencode, codec.length_encodeAll]
  exact ⟨rfl, rfl⟩

/-- A section that read a body of records writes the body and the zeros of all
the records allocated for it. -/
theorem result_read_records (name : RecordName) (body rest : List UInt8) :
    ∃ content, ((Section.allocate name.sectionName).read body.length false
        (InputStream.ofBytes (body ++ rest))).result = .ok (content, body.length) ∧
      content.write = .ok (allocatedBody name.recordSize body) ∧
      (allocatedBody name.recordSize body).length = name.recordSize * content.recordCount := by
  cases name with
  | unit =>
      obtain ⟨records, hread, hencode⟩ := result_readAppendable unitCodec (by decide) body rest
      exact ⟨.unit records, congrArg (Except.map _) hread, write_of_records hencode rfl rfl⟩
  | dd2 =>
      obtain ⟨records, hread, hencode⟩ := result_readReplacing doodadCodec (by decide) body rest
      exact ⟨.dd2 records, congrArg (Except.map _) hread, write_of_records hencode rfl rfl⟩
  | thg2 =>
      obtain ⟨records, hread, hencode⟩ := result_readAppendable spriteCodec (by decide) body rest
      exact ⟨.thg2 records, congrArg (Except.map _) hread, write_of_records hencode rfl rfl⟩
  | mrgn =>
      obtain ⟨records, hread, hencode⟩ := result_readMrgn body rest
      have hcount : (Section.mrgn (none :: records.map some)).recordCount =
          records.length := by
        simp [Section.recordCount]
      exact ⟨.mrgn (none :: records.map some), congrArg (Except.map _) hread,
        write_of_records hencode (writeMrgn_none_cons records) hcount⟩
  | trig =>
      obtain ⟨records, hread, hencode⟩ := result_readAppendable triggerCodec (by decide) body rest
      exact ⟨.trig records, congrArg (Except.map _) hread, write_of_records hencode rfl rfl⟩
  | mbrf =>
      obtain ⟨records, hread, hencode⟩ := result_readAppendable triggerCodec (by decide) body rest
      exact ⟨.mbrf records, congrArg (Except.map _) hread, write_of_records hencode rfl rfl⟩
  | isom =>
      obtain ⟨records, hread, hencode⟩ := result_readReplacing isomEntryCodec (by decide) body rest
      exact ⟨.isom records, congrArg (Except.map _) hread, write_of_records hencode rfl rfl⟩

/-- Reading a body into a new section and writing it back keeps its bytes and
completes the last record, with no record beyond that one. -/
def KeepsBody (name : RecordName) (body rest : List UInt8) : Prop :=
  ∃ content, ((Section.allocate name.sectionName).read body.length false
      (InputStream.ofBytes (body ++ rest))).result = .ok (content, body.length) ∧
    content.write = .ok (completed name.recordSize body) ∧
    content.recordCount = (body.length + (name.recordSize - 1)) / name.recordSize

/-- A list of records keeps a body exactly when it ends with a whole record or
one byte behind one. -/
theorem keepsBody_iff (name : RecordName) (body rest : List UInt8) :
    KeepsBody name body rest ↔ body.length % name.recordSize ≤ 1 := by
  have hsize := name.recordSize_ge_two
  obtain ⟨content, hread, hwrite, hcount⟩ := result_read_records name body rest
  rw [← allocatedBody_eq_completed_iff hsize body]
  constructor
  · rintro ⟨other, hother, hkeeps, -⟩
    rw [hread, Except.ok.injEq, Prod.mk.injEq] at hother
    rw [← hother.1, hwrite] at hkeeps
    exact Except.ok.inj hkeeps
  · intro heq
    refine ⟨content, hread, heq ▸ hwrite, ?_⟩
    rw [heq, length_completed (by omega)] at hcount
    exact (Nat.eq_of_mul_eq_mul_left (by omega) hcount).symm

/-- Two bytes of an ISOM section make two entries of eight bytes. -/
theorem not_keepsBody_two_bytes : ¬ KeepsBody .isom [7, 9] [] ∧
    rewritten .isom [7, 9] [] = .ok [7, 9, 0, 0, 0, 0, 0, 0, 0, 0, 0, 0, 0, 0, 0, 0] := by
  constructor
  · rintro ⟨content, hread, hwrite, -⟩
    have hrewritten : rewritten RecordName.isom.sectionName [7, 9] [] =
        content.write := by
      rw [rewritten, hread]
    have heq := hrewritten.trans hwrite
    revert heq
    decide
  · decide

/-- The template argument `Virtualizable` of the section's class: whether
StarCraft accepts a body that differs from the structure. -/
def StructName.virtualizable : StructName → Bool
  | .type => true
  | .ver => false
  | .iver => true
  | .ive2 => true
  | .vcod => false
  | .iown => true
  | .ownr => false
  | .era => false
  | .dim => false
  | .side => false
  | .puni => false
  | .upgr => false
  | .ptec => false
  | .uprp => false
  | .upus => true
  | .sprp => false
  | .forc => false
  | .wav => true
  | .unis => false
  | .upgs => false
  | .tecs => false
  | .swnm => true
  | .colr => false
  | .pupx => false
  | .ptex => false
  | .unix => false
  | .upgx => false
  | .tecx => false
  | .ostr => true

def VirtualizableName : Type :=
  { name : StructName // name.virtualizable = true }

/-- A structure section writes the body it read, cut or completed with zeros
to the length of its structure. -/
theorem rewritten_struct (name : StructName) (body rest : List UInt8) :
    rewritten (.struct name) body rest =
      .ok ((body ++ List.replicate (name.size - body.length) 0).take name.size) := by
  have hbody := fst_read_ofBytes_append body rest
  have hpad : max name.size body.length - body.length = name.size - body.length := by omega
  simp only [rewritten, Section.read, Section.allocate, StructSection.allocate,
    StructSection.read, ReadOutcome.map, Except.map, Section.write, StructSection.write,
    hbody, overwrite_zero, List.drop_replicate, hpad]

/-- A virtualizable section keeps a body exactly when it is as long as the
structure: the size to write is set by the constructor and never changed. -/
theorem rewritten_virtualizable_iff (name : VirtualizableName) (body rest : List UInt8) :
    rewritten (.struct name.1) body rest = .ok body ↔ body.length = name.1.size := by
  rw [rewritten_struct, Except.ok.injEq]
  constructor
  · intro heq
    have hlength := congrArg List.length heq
    rw [List.length_take, List.length_append, List.length_replicate] at hlength
    omega
  · intro hlength
    rw [hlength, Nat.sub_self, List.replicate_zero, List.append_nil, ← hlength, List.take_length]

/-- An IVER section loses the third byte of its body, and completes a body of
one byte. -/
theorem rewritten_iver_ne : rewritten (.struct .iver) [11, 0, 5] [] = .ok [11, 0] ∧
      rewritten (.struct .iver) [11] [] = .ok [11, 0] ∧
      ¬ ∀ (name : VirtualizableName) (body rest : List UInt8),
        rewritten (.struct name.1) body rest = .ok body := by
  have hlong : rewritten (.struct .iver) [11, 0, 5] [] = .ok [11, 0] := by
    decide
  refine ⟨hlong, by decide, ?_⟩
  intro hkeeps
  have hkept := hkeeps ⟨.iver, rfl⟩ [11, 0, 5] []
  rw [hlong] at hkept
  revert hkept
  decide

end Chkdraft.Sections
