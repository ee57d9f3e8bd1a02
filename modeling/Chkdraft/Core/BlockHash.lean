import Mathlib.Data.List.Basic

/-!
# Hashes that take their message in blocks

A compression function is applied to the blocks of a message, first to last;
the padding that completes the last block depends on the length only.  A
message that comes in parts can be absorbed part by part: what is behind the
whole blocks is all that has to be kept.
-/

namespace BlockHash

variable {S A : Type} {size : ℕ} {compress : S → List A → S}

/-- The value behind the whole blocks of a message, and the items after
them. -/
def absorb (size : ℕ) (compress : S → List A → S) (state : S) (message : List A) : S × List A :=
  if _ : 0 < size ∧ size ≤ message.length then
    absorb size compress (compress state (message.take size)) (message.drop size)
  else
    (state, message)
termination_by message.length
decreasing_by
  rw [List.length_drop]
  omega

/-- The value of a message, completed by the padding for its length. -/
def digest (size : ℕ) (compress : S → List A → S) (padding : ℕ → List A)
    (start : S) (message : List A) : S :=
  (absorb size compress start (message ++ padding message.length)).1

theorem absorb_of_lt {message : List A} (state : S) (hlt : message.length < size) :
    absorb size compress state message = (state, message) := by
  rw [absorb, dif_neg (by omega)]

section

variable (state : S) (hpos : 0 < size)

include hpos

theorem absorb_of_le {message : List A} (hle : size ≤ message.length) :
    absorb size compress state message =
      absorb size compress (compress state (message.take size)) (message.drop size) := by
  rw [absorb, dif_pos ⟨hpos, hle⟩]

theorem absorb_block_append {block : List A} (hblock : block.length = size) (rest : List A) :
    absorb size compress state (block ++ rest) =
      absorb size compress (compress state block) rest := by
  have hle : size ≤ (block ++ rest).length := by
    rw [List.length_append]
    omega
  rw [absorb_of_le state hpos hle, List.take_left' hblock, List.drop_left' hblock]

/-- The items behind the whole blocks are as many as the length leaves. -/
theorem length_rest (message : List A) :
    (absorb size compress state message).2.length = message.length % size := by
  fun_induction absorb size compress state message with
  | case1 state message hle ih =>
      rw [ih, List.length_drop, ← Nat.mod_eq_sub_mod hle.2]
  | case2 state message hlt =>
      have hshort : message.length < size := by omega
      exact (Nat.mod_eq_of_lt hshort).symm

theorem length_rest_lt (message : List A) :
    (absorb size compress state message).2.length < size := by
  rw [length_rest state hpos]
  exact Nat.mod_lt _ hpos

end

theorem absorb_append (state : S) (message rest : List A) :
    absorb size compress state (message ++ rest) =
      absorb size compress (absorb size compress state message).1
        ((absorb size compress state message).2 ++ rest) := by
  fun_induction absorb size compress state message with
  | case1 state message hle ih =>
      have hlong : size ≤ (message ++ rest).length := by
        rw [List.length_append]
        omega
      rw [absorb_of_le state hle.1 hlong, List.take_append_of_le_length hle.2,
        List.drop_append_of_le_length hle.2]
      exact ih
  | case2 state message hlt => rfl

/-- The value of a message that has been absorbed up to its last items. -/
theorem digest_of_absorb {padding : ℕ → List A} {start state : S}
    {message rest : List A}
    (habsorb : absorb size compress start message = (state, rest)) :
    digest size compress padding start message =
      (absorb size compress state (rest ++ padding message.length)).1 := by
  rw [digest, absorb_append, habsorb]

end BlockHash
