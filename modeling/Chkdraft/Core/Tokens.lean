import Mathlib.Data.List.Basic

/-!
# Tokens of varying length

A reader looks at a character and at what follows it.  It says which token
starts there and how many of the following characters belong to it.  A text is
scanned by reading a token, skipping its characters and reading the next one.
Texts that are written piece by piece, each readable whatever follows, are
scanned back into their pieces.
-/

namespace Tokens

variable {A T : Type*} {read : A → List A → T × ℕ}

/-- The tokens of a text.  The number counts the characters that still belong
to the last token. -/
def scan (read : A → List A → T × ℕ) : ℕ → List A → List T
  | _, [] => []
  | skip + 1, _ :: rest => scan read skip rest
  | 0, first :: rest =>
      (read first rest).1 :: scan read (read first rest).2 rest

theorem scan_eq_drop (skip : ℕ) (text : List A) :
    scan read skip text = scan read 0 (text.drop skip) := by
  induction text generalizing skip with
  | nil => simp [scan]
  | cons first rest ih =>
      cases skip with
      | zero => rfl
      | succ skip => exact ih skip

/-- A scan goes on with some part of the rest, so properties of texts are proved
from all rests. -/
theorem induction_on_drop {motive : List A → Prop} (hnil : motive [])
    (hcons : ∀ first rest, (∀ skip, motive (rest.drop skip)) →
      motive (first :: rest)) (text : List A) : motive text := by
  have hall : ∀ skip, motive (text.drop skip) := by
    induction text with
    | nil => simpa using hnil
    | cons first rest ih =>
        intro skip
        cases skip with
        | zero => exact hcons first rest ih
        | succ skip => exact ih skip
  exact hall 0

/-- A piece is read as one token, whatever follows it. -/
def ReadsAs (read : A → List A → T × ℕ) (piece : List A) (token : T) : Prop :=
  ∃ first tail, piece = first :: tail ∧ ∀ rest, read first (tail ++ rest) = (token, tail.length)

theorem ReadsAs.scan_append {piece : List A} {token : T}
    (hreads : ReadsAs read piece token) (rest : List A) :
    scan read 0 (piece ++ rest) = token :: scan read 0 rest := by
  obtain ⟨first, tail, rfl, hread⟩ := hreads
  rw [List.cons_append, scan, hread rest, scan_eq_drop, List.drop_left]

/-- Writing each value as a piece of its own is undone by a scan. -/
theorem scan_flatMap {V : Type*} {write : V → List A} {token : V → T}
    {values : List V}
    (hreads : ∀ value ∈ values, ReadsAs read (write value) (token value)) :
    scan read 0 (values.flatMap write) = values.map token := by
  induction values with
  | nil => rfl
  | cons value rest ih =>
      rw [List.forall_mem_cons] at hreads
      rw [List.flatMap_cons, hreads.1.scan_append, ih hreads.2, List.map_cons]

end Tokens
