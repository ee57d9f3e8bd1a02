import Mathlib.Data.List.Basic
import Mathlib.Tactic.Linarith

/-!
# Seekable input streams

The behaviour of a C++ `std::istream` over a memory buffer that binary readers
rely on: `read` extracts what is there and sets `eofbit` and `failbit` when it
is less than asked for, an operation on a stream that is not good extracts
nothing, and `seekg` relative to the current position fails outside the buffer.
The extracted bytes stand for the caller's buffer, their number for `gcount`.
-/

namespace Binary

variable {count offset : ℕ} {buffer source : List UInt8}

structure InputStream where
  bytes : List UInt8
  position : ℕ
  eof : Bool
  fail : Bool
deriving DecidableEq

variable {stream : InputStream}

namespace InputStream

/-- A stream opened on a buffer and positioned at its start. -/
def ofBytes (bytes : List UInt8) : InputStream := ⟨bytes, 0, false, false⟩

def good (stream : InputStream) : Bool := !stream.eof && !stream.fail

def remaining (stream : InputStream) : List UInt8 := stream.bytes.drop stream.position

def read (count : ℕ) (stream : InputStream) : List UInt8 × InputStream :=
  if stream.good then
    let extracted := stream.remaining.take count
    if extracted.length = count then
      (extracted, { stream with position := stream.position + count })
    else
      (extracted,
        { stream with
          position := stream.position + extracted.length
          eof := true
          fail := true })
  else
    ([], { stream with fail := true })

/-- `seekg(offset, std::ios_base::cur)`; the end-of-file bit is cleared first. -/
def seekCurrent (offset : ℤ) (stream : InputStream) : InputStream :=
  if stream.fail then
    { stream with eof := false }
  else
    let target := (stream.position : ℤ) + offset
    if 0 ≤ target ∧ target ≤ stream.bytes.length then
      { stream with position := target.toNat, eof := false }
    else
      { stream with eof := false, fail := true }

theorem read_of_le (hgood : stream.good = true) (hle : count ≤ stream.remaining.length) :
    stream.read count = (stream.remaining.take count,
        { stream with position := stream.position + count }) := by
  have hlength : (stream.remaining.take count).length = count := by
    simp [hle]
  simp only [read, hgood, if_true, hlength]

/-- A read that reaches the end of the buffer takes everything and leaves the
stream unusable. -/
theorem read_of_lt (hgood : stream.good = true) (hlt : stream.remaining.length < count) :
    stream.read count = (stream.remaining,
        { stream with
          position := stream.position + stream.remaining.length
          eof := true
          fail := true }) := by
  have htake : stream.remaining.take count = stream.remaining := List.take_of_length_le hlt.le
  simp only [read, hgood, if_true, htake, if_neg hlt.ne]

theorem read_of_not_good (hbad : stream.good = false) :
    stream.read count = ([], { stream with fail := true }) := by
  simp [read, hbad]

/-- The bytes extracted are those in front of the read position. -/
theorem fst_read_of_good (hgood : stream.good = true) :
    (stream.read count).1 = stream.remaining.take count := by
  by_cases hle : count ≤ stream.remaining.length
  · rw [read_of_le hgood hle]
  · rw [read_of_lt hgood (by omega), List.take_of_length_le (by omega)]

theorem good_read_iff (hgood : stream.good = true) :
    (stream.read count).2.good = true ↔ count ≤ stream.remaining.length := by
  by_cases hle : count ≤ stream.remaining.length
  · rw [read_of_le hgood hle]
    exact ⟨fun _ => hle, fun _ => hgood⟩
  · rw [read_of_lt hgood (by omega)]
    simp [good, hle]

theorem length_fst_read_le (count : ℕ) (stream : InputStream) :
    (stream.read count).1.length ≤ count := by
  by_cases hgood : stream.good = true
  · rw [fst_read_of_good hgood]
    exact List.length_take_le count _
  · rw [read_of_not_good (Bool.eq_false_of_not_eq_true hgood)]
    exact Nat.zero_le count

theorem position_read (count : ℕ) (stream : InputStream) :
    (stream.read count).2.position = stream.position + (stream.read count).1.length := by
  cases hgood : stream.good with
  | false => simp [read_of_not_good hgood]
  | true =>
      by_cases hle : count ≤ stream.remaining.length
      · simp [read_of_le hgood hle, hle]
      · rw [read_of_lt hgood (by omega)]

theorem length_remaining (stream : InputStream) :
    stream.remaining.length = stream.bytes.length - stream.position := by
  simp [remaining]

end InputStream

/-- The buffer after the bytes from `offset` on were overwritten by `source`,
as by `memcpy` or a read into the buffer. -/
def overwrite (buffer : List UInt8) (offset : ℕ) (source : List UInt8) : List UInt8 :=
  buffer.take offset ++ source ++ buffer.drop (offset + source.length)

@[simp]
theorem overwrite_zero (buffer source : List UInt8) :
    overwrite buffer 0 source = source ++ buffer.drop source.length := by
  simp [overwrite]

theorem length_overwrite (hfit : offset + source.length ≤ buffer.length) :
    (overwrite buffer offset source).length = buffer.length := by
  simp only [overwrite, List.length_append, List.length_take, List.length_drop]
  omega

theorem take_overwrite {limit : ℕ} (source : List UInt8)
    (hlimit : limit ≤ offset) (hoffset : offset ≤ buffer.length) :
    (overwrite buffer offset source).take limit = buffer.take limit := by
  have hfront : limit ≤ (buffer.take offset).length := by
    rw [List.length_take]
    omega
  rw [overwrite, List.append_assoc, List.take_append_of_le_length hfront,
    List.take_take, Nat.min_eq_left hlimit]

theorem drop_overwrite {start : ℕ} (hstart : offset + source.length ≤ start)
    (hoffset : offset ≤ buffer.length) :
    (overwrite buffer offset source).drop start = buffer.drop start := by
  have hlength : (buffer.take offset ++ source).length = offset + source.length := by
    rw [List.length_append, List.length_take, Nat.min_eq_left hoffset]
  rw [overwrite, List.drop_append, hlength,
    List.drop_eq_nil_of_le (by omega), List.nil_append, List.drop_drop]
  congr 1
  omega

theorem take_overwrite_self (source : List UInt8) (hoffset : offset ≤ buffer.length) :
    (overwrite buffer offset source).take (offset + source.length) =
      buffer.take offset ++ source := by
  rw [overwrite]
  apply List.take_left'
  rw [List.length_append, List.length_take, Nat.min_eq_left hoffset]

theorem overwrite_zero_of_length_eq (hlength : source.length = buffer.length) :
    overwrite buffer 0 source = source := by
  simp [hlength]

theorem overwrite_middle {before middle after : List UInt8}
    (hlength : source.length = middle.length) :
    overwrite (before ++ middle ++ after) before.length source = before ++ source ++ after := by
  have hdrop : (before ++ middle ++ after).drop (before.length + source.length) = after := by
    rw [hlength, ← List.length_append, List.drop_left]
  rw [overwrite, hdrop, List.append_assoc before middle after, List.take_left]

end Binary
