import Mathlib.Data.Vector.Basic
import Mathlib.Tactic.Ring

/-!
# Fixed-size binary codecs

A packed record of a binary file is a fixed number of bytes, and every such
byte block is the image of exactly one record.  A `Codec` carries both halves
of that statement, so a format is assembled from words, pairs and vectors and
never proved invertible a second time.  Words are little-endian.
-/

namespace Binary

/-- The `width` least significant bytes of `value`, lowest byte first. -/
def littleEndian : ℕ → ℕ → List UInt8
  | 0, _ => []
  | width + 1, value =>
      UInt8.ofNat (value % 256) :: littleEndian width (value / 256)

/-- The number whose little-endian bytes are given. -/
def littleEndianValue : List UInt8 → ℕ
  | [] => 0
  | head :: tail => head.toNat + 256 * littleEndianValue tail

@[simp]
theorem length_littleEndian (width value : ℕ) : (littleEndian width value).length = width := by
  induction width generalizing value with
  | zero => rfl
  | succ width ih => simp [littleEndian, ih]

theorem littleEndianValue_lt (bytes : List UInt8) :
    littleEndianValue bytes < 256 ^ bytes.length := by
  induction bytes with
  | nil => simp [littleEndianValue]
  | cons head tail ih =>
      have hhead : head.toNat < 256 := head.toNat_lt
      rw [littleEndianValue, List.length_cons, pow_succ]
      omega

theorem littleEndianValue_littleEndian (width value : ℕ) :
    littleEndianValue (littleEndian width value) = value % 256 ^ width := by
  induction width generalizing value with
  | zero => simp [littleEndian, littleEndianValue, Nat.mod_one]
  | succ width ih =>
      have hbyte : (UInt8.ofNat (value % 256)).toNat = value % 256 := by
        simp
      rw [littleEndian, littleEndianValue, ih, hbyte, pow_succ']
      exact (Nat.mod_mul).symm

theorem littleEndian_littleEndianValue (bytes : List UInt8) :
    littleEndian bytes.length (littleEndianValue bytes) = bytes := by
  induction bytes with
  | nil => rfl
  | cons head tail ih =>
      have hhead : head.toNat < 256 := head.toNat_lt
      have hlow : (head.toNat + 256 * littleEndianValue tail) % 256 =
          head.toNat := by omega
      have hhigh : (head.toNat + 256 * littleEndianValue tail) / 256 =
          littleEndianValue tail := by omega
      rw [List.length_cons, littleEndianValue, littleEndian, hlow, hhigh, ih]
      simp

/-- The word of `width` bytes standing at an offset of a buffer. -/
def wordAt (width : ℕ) (bytes : List UInt8) (offset : ℕ) : ℕ :=
  littleEndianValue ((bytes.drop offset).take width)

theorem littleEndianValue_append_zeros (bytes : List UInt8) (count : ℕ) :
    littleEndianValue (bytes ++ List.replicate count 0) = littleEndianValue bytes := by
  induction bytes with
  | nil =>
      induction count with
      | zero => rfl
      | succ count ih =>
          rw [List.nil_append] at ih ⊢
          simp [List.replicate_succ, littleEndianValue, ih]
  | cons head tail ih =>
      rw [List.cons_append, littleEndianValue, ih, littleEndianValue]

/-- A word that reaches past the end of its buffer is completed by zeros. -/
theorem wordAt_append_zeros (width : ℕ) (bytes : List UInt8) (count offset : ℕ) :
    wordAt width (bytes ++ List.replicate count 0) offset = wordAt width bytes offset := by
  rw [wordAt, wordAt, List.drop_append, List.drop_replicate, List.take_append,
    List.take_replicate, littleEndianValue_append_zeros]

theorem wordAt_take {width offset count : ℕ} (hle : offset + width ≤ count) (bytes : List UInt8) :
    wordAt width (bytes.take count) offset = wordAt width bytes offset := by
  rw [wordAt, wordAt, List.drop_take, List.take_take]
  congr 2
  omega

theorem wordAt_drop (width : ℕ) (bytes : List UInt8) (start offset : ℕ) :
    wordAt width (bytes.drop start) offset = wordAt width bytes (start + offset) := by
  rw [wordAt, wordAt, List.drop_drop]

/-- Reading an array of words behind a prefix gives the words back, each cut
to its width. -/
theorem map_wordAt_flatMap (width : ℕ) (values : List ℕ) (before rest : List UInt8) :
    (List.range values.length).map (fun index =>
        wordAt width (before ++ values.flatMap (littleEndian width) ++ rest)
          (before.length + width * index)) =
      values.map (· % 256 ^ width) := by
  induction values generalizing before with
  | nil => rfl
  | cons head tail ih =>
      have hbytes : before ++ (head :: tail).flatMap (littleEndian width) ++
          rest = (before ++ littleEndian width head) ++
            tail.flatMap (littleEndian width) ++ rest := by
        simp
      have hhead : wordAt width (before ++ (head :: tail).flatMap (littleEndian width) ++ rest)
            before.length = head % 256 ^ width := by
        rw [wordAt, List.append_assoc, List.drop_left, List.flatMap_cons,
          List.append_assoc, List.take_left' (length_littleEndian _ _)]
        exact littleEndianValue_littleEndian width head
      have hlength : (before ++ littleEndian width head).length = before.length + width := by
        simp
      have htail := ih (before ++ littleEndian width head)
      rw [← hbytes, hlength] at htail
      rw [List.length_cons, List.range_succ_eq_map, List.map_cons, List.map_map,
        List.map_cons, Nat.mul_zero, Nat.add_zero, hhead, ← htail]
      congr 1
      apply List.map_congr_left
      intro index _
      have hindex : before.length + width * (index + 1) =
          before.length + width + width * index := by
        rw [Nat.mul_succ]
        omega
      exact congrArg _ hindex

/-- A bijection between the values of `A` and the byte blocks of one length. -/
structure Codec (A : Type*) where
  size : ℕ
  encode : A → List UInt8
  decode : List UInt8 → A
  length_encode : ∀ value, (encode value).length = size
  decode_encode : ∀ value, decode (encode value) = value
  encode_decode : ∀ bytes, bytes.length = size → encode (decode bytes) = bytes

namespace Codec

attribute [simp] length_encode decode_encode

variable {A B : Type*}

/-- Reading a record ignores whatever follows it in the buffer. -/
theorem decode_take_append (codec : Codec A) (value : A) (suffix : List UInt8) :
    codec.decode ((codec.encode value ++ suffix).take codec.size) = value := by
  rw [List.take_left' (codec.length_encode value), decode_encode]

/-- Transport of a codec along a bijection, used to give the fields of a
packed structure their names. -/
def ofEquiv (codec : Codec A) (equiv : B ≃ A) : Codec B where
  size := codec.size
  encode value := codec.encode (equiv value)
  decode bytes := equiv.symm (codec.decode bytes)
  length_encode value := codec.length_encode _
  decode_encode value := by simp
  encode_decode bytes hlength := by simp [codec.encode_decode bytes hlength]

def pair (first : Codec A) (second : Codec B) : Codec (A × B) where
  size := first.size + second.size
  encode value := first.encode value.1 ++ second.encode value.2
  decode bytes := (first.decode (bytes.take first.size), second.decode (bytes.drop first.size))
  length_encode value := by simp
  decode_encode value := by
    rw [List.take_left' (first.length_encode _), List.drop_left' (first.length_encode _)]
    simp
  encode_decode bytes hlength := by
    have htake : (bytes.take first.size).length = first.size := by
      simp [hlength]
    have hdrop : (bytes.drop first.size).length = second.size := by
      simp [hlength]
    simp only
    rw [first.encode_decode _ htake, second.encode_decode _ hdrop, List.take_append_drop]

/-- A word of `width` bytes whose values are the numbers below `256 ^ width`. -/
def ofWord (width : ℕ) (toNat : A → ℕ) (ofNat : ℕ → A) (hbound : ∀ value, toNat value < 256 ^ width)
    (hof : ∀ value, ofNat (toNat value) = value)
    (hto : ∀ number, number < 256 ^ width → toNat (ofNat number) = number) :
    Codec A where
  size := width
  encode value := littleEndian width (toNat value)
  decode bytes := ofNat (littleEndianValue bytes)
  length_encode value := length_littleEndian _ _
  decode_encode value := by
    rw [littleEndianValue_littleEndian, Nat.mod_eq_of_lt (hbound value), hof]
  encode_decode bytes hlength := by
    have hlt : littleEndianValue bytes < 256 ^ width := by
      rw [← hlength]
      exact littleEndianValue_lt bytes
    rw [hto _ hlt, ← hlength]
    exact littleEndian_littleEndianValue bytes

def u8 : Codec UInt8 :=
  ofWord 1 UInt8.toNat UInt8.ofNat (fun value => value.toNat_lt) (fun value => by simp)
    (fun number hnumber => by
      rw [UInt8.toNat_ofNat', Nat.mod_eq_of_lt (by simpa using hnumber)])

def u16 : Codec UInt16 :=
  ofWord 2 UInt16.toNat UInt16.ofNat (fun value => value.toNat_lt) (fun value => by simp)
    (fun number hnumber => by
      rw [UInt16.toNat_ofNat', Nat.mod_eq_of_lt (by simpa using hnumber)])

def u32 : Codec UInt32 :=
  ofWord 4 UInt32.toNat UInt32.ofNat (fun value => value.toNat_lt) (fun value => by simp)
    (fun number hnumber => by
      rw [UInt32.toNat_ofNat', Nat.mod_eq_of_lt (by simpa using hnumber)])

@[simp]
theorem size_u16 : u16.size = 2 := rfl

@[simp]
theorem size_u32 : u32.size = 4 := rfl

/-- The records of a sequence written back to back. -/
def encodeAll (codec : Codec A) (values : List A) : List UInt8 := values.flatMap codec.encode

/-- The first `count` records of a buffer. -/
def decodeAll (codec : Codec A) : ℕ → List UInt8 → List A
  | 0, _ => []
  | count + 1, bytes =>
      codec.decode (bytes.take codec.size) :: decodeAll codec count (bytes.drop codec.size)

section

variable (codec : Codec A)

@[simp]
theorem encodeAll_nil : codec.encodeAll [] = [] := rfl

@[simp]
theorem encodeAll_cons (head : A) (tail : List A) :
    codec.encodeAll (head :: tail) = codec.encode head ++ codec.encodeAll tail := rfl

@[simp]
theorem length_encodeAll (values : List A) :
    (codec.encodeAll values).length = codec.size * values.length := by
  induction values with
  | nil => simp
  | cons head tail ih =>
      rw [encodeAll_cons, List.length_append, length_encode, ih, List.length_cons]
      ring

@[simp]
theorem length_decodeAll (count : ℕ) (bytes : List UInt8) :
    (codec.decodeAll count bytes).length = count := by
  induction count generalizing bytes with
  | zero => rfl
  | succ count ih => simp [decodeAll, ih]

/-- A written sequence is read back, whatever follows it. -/
theorem decodeAll_encodeAll_append (values : List A) (suffix : List UInt8) :
    codec.decodeAll values.length (codec.encodeAll values ++ suffix) =
      values := by
  induction values with
  | nil => rfl
  | cons head tail ih =>
      rw [List.length_cons, decodeAll, encodeAll_cons, List.append_assoc,
        decode_take_append, List.drop_left' (codec.length_encode head), ih]

theorem decodeAll_encodeAll (values : List A) :
    codec.decodeAll values.length (codec.encodeAll values) = values := by
  simpa using decodeAll_encodeAll_append codec values []

theorem encodeAll_decodeAll (count : ℕ) (bytes : List UInt8)
    (hlength : bytes.length = codec.size * count) :
    codec.encodeAll (codec.decodeAll count bytes) = bytes := by
  induction count generalizing bytes with
  | zero =>
      have hnil : bytes = [] := List.length_eq_zero_iff.mp (by simpa using hlength)
      simp [hnil, decodeAll]
  | succ count ih =>
      have hsplit : bytes.length = codec.size + codec.size * count := by
        rw [hlength]
        ring
      have htake : (bytes.take codec.size).length = codec.size := by
        simp [hsplit]
      have hdrop : (bytes.drop codec.size).length = codec.size * count := by
        simp [hsplit]
      rw [decodeAll, encodeAll_cons, codec.encode_decode _ htake, ih _ hdrop, List.take_append_drop]

end

/-- The words of a sequence of 32-bit numbers, with zeros behind them. -/
theorem wordAt_encodeAll_u32 (before : List UInt8) (words : List UInt32) (index : ℕ) :
    wordAt 4 (before ++ u32.encodeAll words) (before.length + 4 * index) =
      (words.getD index 0).toNat := by
  induction words generalizing before index with
  | nil =>
      rw [encodeAll_nil, List.append_nil, wordAt, List.drop_eq_nil_of_le (by omega)]
      rfl
  | cons head tail ih =>
      cases index with
      | zero =>
          have hword : wordAt 4 (before ++ u32.encodeAll (head :: tail))
              before.length = littleEndianValue (u32.encode head) := by
            rw [wordAt, List.drop_left, encodeAll_cons,
              List.take_left' ((u32.length_encode head).trans size_u32)]
          rw [Nat.mul_zero, Nat.add_zero, hword]
          exact (littleEndianValue_littleEndian 4 head.toNat).trans (Nat.mod_eq_of_lt head.toNat_lt)
      | succ index =>
          have hlength : (before ++ u32.encode head).length = before.length + 4 := by
            rw [List.length_append, u32.length_encode, size_u32]
          have htail := ih (before ++ u32.encode head) index
          rw [hlength, List.append_assoc, ← encodeAll_cons] at htail
          rw [Nat.mul_succ, Nat.add_comm (4 * index) 4, ← Nat.add_assoc]
          exact htail

/-- An array of exactly `count` records. -/
def vector (codec : Codec A) (count : ℕ) : Codec (List.Vector A count) where
  size := codec.size * count
  encode values := codec.encodeAll values.toList
  decode bytes := ⟨codec.decodeAll count bytes, codec.length_decodeAll _ _⟩
  length_encode values := by simp
  decode_encode values := by
    rcases values with ⟨values, hvalues⟩
    apply Subtype.ext
    subst hvalues
    exact codec.decodeAll_encodeAll values
  encode_decode bytes hlength := codec.encodeAll_decodeAll count bytes hlength

end Codec

end Binary
