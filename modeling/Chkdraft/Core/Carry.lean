import Mathlib.Data.List.Range
import Chkdraft.Core.Fault

/-!
# Values carried from round to round

A loop over the first numbers that keeps the last value it was given, and loops
whose rounds each put something.
-/

namespace Carry

variable {A E S : Type}

/-- The value of the last round before `count` that had one. -/
def lastOf (value : ℕ → Option A) : ℕ → Option A
  | 0 => none
  | count + 1 => (value count).or (lastOf value count)

theorem lastOf_succ_of_some {value : ℕ → Option A} {count : ℕ} {given : A}
    (hvalue : value count = some given) :
    lastOf value (count + 1) = some given := by
  rw [lastOf, hvalue, Option.some_or]

theorem lastOf_eq_none_iff {value : ℕ → Option A} {count : ℕ} :
    lastOf value count = none ↔ ∀ round, round < count → value round = none := by
  induction count with
  | zero => exact iff_of_true rfl nofun
  | succ count ih =>
      rw [lastOf, Option.or_eq_none_iff, ih, Nat.forall_lt_succ_right, and_comm]

/-- A loop whose rounds return passes through the states they lead to. -/
theorem foldlM_range_eq {round : S → ℕ → Except E S} (state : ℕ → S)
    {count : ℕ} (hround : ∀ index, index < count →
      round (state index) index = .ok (state (index + 1))) :
    (List.range count).foldlM round (state 0) = .ok (state count) := by
  induction count with
  | zero => rfl
  | succ count ih =>
      rw [List.range_succ, List.foldlM_append,
        ih fun index hlt => hround index (Nat.lt_succ_of_lt hlt)]
      have hlast := hround count (Nat.lt_succ_self count)
      change (round (state count) count >>= fun state => .ok state) = _
      rw [hlast]
      rfl

end Carry
