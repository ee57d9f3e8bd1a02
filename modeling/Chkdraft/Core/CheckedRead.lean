import Chkdraft.Core.Codec
import Chkdraft.Core.Fault
import Chkdraft.Core.StringPool

/-!
# Checked accesses to a byte vector

The reads a C++ program makes through a reference into a byte vector, as calls
that return only when every byte they touch is an element of the vector.  A
decoder written with them returns exactly when it reads inside its input.
-/

namespace Binary

variable {bytes : List UInt8} {offset : ℕ}

/-- A number of `width` bytes read through a reference at an offset. -/
def readWord (width : ℕ) (bytes : List UInt8) (offset : ℕ) : Except Hazard ℕ :=
  if offset + width ≤ bytes.length then
    .ok (wordAt width bytes offset)
  else
    .error .undefinedBehavior

/-- `std::find(begin + offset, end, '\0')`, as an index; the length of the
vector when there is no NUL. -/
def findNul (bytes : List UInt8) (offset : ℕ) : ℕ :=
  offset + ((bytes.drop offset).takeWhile (· ≠ 0)).length

/-- The characters up to the next NUL, which has to come. -/
def scanString : List UInt8 → Except Hazard (List UInt8)
  | [] => .error .undefinedBehavior
  | head :: tail =>
      if head = 0 then
        .ok []
      else do
        let chars ← scanString tail
        .ok (head :: chars)

/-- `std::string(pointer)` for a pointer into a vector. -/
def readCString (bytes : List UInt8) (offset : ℕ) : Except Hazard (List UInt8) :=
  scanString (bytes.drop offset)

/-- `std::string(pointer, count)` for a pointer into a vector. -/
def readChars (bytes : List UInt8) (offset count : ℕ) : Except Hazard (List UInt8) :=
  if offset + count ≤ bytes.length then
    .ok ((bytes.drop offset).take count)
  else
    .error .undefinedBehavior

theorem readWord_of_le {width : ℕ} (hle : offset + width ≤ bytes.length) :
    readWord width bytes offset = .ok (wordAt width bytes offset) :=
  if_pos hle

theorem scanString_of_mem (hmem : (0 : UInt8) ∈ bytes) :
    scanString bytes = .ok (bytes.takeWhile (· ≠ 0)) := by
  induction bytes with
  | nil => cases hmem
  | cons head tail ih =>
      by_cases hhead : head = 0
      · simp [scanString, hhead]
      · have htail : (0 : UInt8) ∈ tail := by
          rcases List.mem_cons.mp hmem with hzero | hlater
          · exact absurd hzero.symm hhead
          · exact hlater
        simp only [scanString, if_neg hhead, ih htail]
        simp [hhead]
        rfl

/-- The next NUL is missing exactly when the scan reaches the end. -/
theorem findNul_eq_length_iff (hle : offset ≤ bytes.length) :
    findNul bytes offset = bytes.length ↔ (0 : UInt8) ∉ bytes.drop offset := by
  constructor
  · intro heq hmem
    have hlength : ((bytes.drop offset).takeWhile (· ≠ 0)).length = (bytes.drop offset).length := by
      rw [List.length_drop]
      unfold findNul at heq
      omega
    have hwhole := (List.takeWhile_sublist (l := bytes.drop offset) (· ≠ 0)).eq_of_length hlength
    have hnonzero := List.takeWhile_eq_self_iff.mp hwhole 0 hmem
    simp at hnonzero
  · intro hnone
    rw [findNul, takeWhile_eq_self_of_not_mem hnone, List.length_drop]
    omega

/-- A run of characters without a NUL that cannot be continued: the next byte
is a NUL or there is none. -/
structure MaximalRun (bytes : List UInt8) (offset : ℕ) (chars : List UInt8) : Prop where
  starts : chars <+: bytes.drop offset
  nulFree : (0 : UInt8) ∉ chars
  ends : bytes[offset + chars.length]? = some 0 ∨ offset + chars.length = bytes.length

theorem maximalRun_cString (hle : offset ≤ bytes.length) :
    MaximalRun bytes offset (cString bytes offset) := by
  have hstarts : cString bytes offset <+: bytes.drop offset := List.takeWhile_prefix _
  refine ⟨hstarts, ?_, ?_⟩
  · intro hmem
    have hzero := List.mem_takeWhile_imp hmem
    simp at hzero
  · by_cases hmem : (0 : UInt8) ∈ bytes.drop offset
    · left
      obtain ⟨before, after, hsplit, hfree⟩ := List.eq_append_cons_of_mem hmem
      have hchars : cString bytes offset = before := by
        rw [cString, hsplit]
        exact takeWhile_append_nul hfree after
      rw [hchars, ← List.getElem?_drop, hsplit]
      simp
    · right
      rw [cString, takeWhile_eq_self_of_not_mem hmem, List.length_drop]
      omega

end Binary
