import Chkdraft.Core.Codec
import Chkdraft.Core.InputStream

/-!
# Reading and sizing one section

Every section class of `Sections.h` overrides `getSize`, `read` and `write`.
`read` is called with the size field of the section's header, extracts bytes
from the stream and returns how many it extracted; it may throw, and the stream
keeps the bytes it consumed until then.  Some readers touch memory outside
their buffers on certain inputs.  An outcome records this in a flag, so that the
position of the stream, which does not depend on such bytes, stays defined.
-/

namespace Chkdraft.Sections

open Binary

/-- Exceptions thrown by section readers and writers, and the accesses that end
the call as well: one through a null pointer and one outside a vector. -/
inductive SectionError where
  | negativeSectionSize
  | lengthError
  | sectionValidation (version : ℕ)
  | maximumStringsExceeded (numStrings maxStrings : ℕ)
  | maximumCharactersExceeded (numCharacters maxCharacters : ℕ)
  | maxSectionSizeExceeded (sectionSize : ℕ)
  | invalidFontSize (size : ℕ)
  | nullDereference
  | outOfBounds
deriving DecidableEq

/-- The accesses, as opposed to the exceptions. -/
def SectionError.IsHazard (error : SectionError) : Prop :=
  error = .nullDereference ∨ error = .outOfBounds

/-- The call throws no exception: it returns, or an access ends it. -/
def DoesNotThrow {A : Type*} (result : Except SectionError A) : Prop :=
  ∀ error, result = .error error → error.IsHazard

/-- What reading a section body leaves behind: the stream, the section with the
number of bytes `read` returns unless it threw, and whether every memory access
stayed inside its buffer. -/
structure ReadOutcome (S : Type*) where
  stream : InputStream
  result : Except SectionError (S × ℕ)
  memorySafe : Bool

namespace ReadOutcome

variable {S T : Type*}

def map (embed : S → T) (outcome : ReadOutcome S) : ReadOutcome T where
  stream := outcome.stream
  result := outcome.result.map fun (content, sizeRead) =>
    (embed content, sizeRead)
  memorySafe := outcome.memorySafe

@[simp]
theorem stream_map (embed : S → T) (outcome : ReadOutcome S) :
    (outcome.map embed).stream = outcome.stream := rfl

end ReadOutcome

/-- `Chk::SectionSize` is a signed 32-bit number: the value a `size_t` has after
the conversion. -/
def sectionSize (size : ℕ) : ℤ :=
  if size % 2 ^ 32 < 2 ^ 31 then (size % 2 ^ 32 : ℕ)
  else (size % 2 ^ 32 : ℕ) - 2 ^ 32

/-- `ChkSection::MaxChkSectionSize`, that is `s32_max`. -/
def maxChkSectionSize : ℕ := 2 ^ 31 - 1

theorem sectionSize_of_lt {size : ℕ} (hlt : size < 2 ^ 31) : sectionSize size = size := by
  have hmod : size % 2 ^ 32 = size := Nat.mod_eq_of_lt (by omega)
  simp only [sectionSize, hmod, if_pos hlt]

/-- A size survives the conversion exactly when it is below `2 ^ 31`. -/
theorem sectionSize_eq_iff (size : ℕ) : sectionSize size = size ↔ size < 2 ^ 31 := by
  constructor
  · intro heq
    unfold sectionSize at heq
    split at heq <;> omega
  · exact sectionSize_of_lt

end Chkdraft.Sections
