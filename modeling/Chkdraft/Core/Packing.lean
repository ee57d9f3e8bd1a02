import Mathlib.Data.Nat.Count

/-!
# Numbering the members of a set

The rank of a number is how many members of a set come up to it.  Members packed
from 1 on, in their order, end up at their ranks.
-/

namespace Packing

variable {first number second : ℕ}

variable (member : ℕ → Prop) [DecidablePred member]

/-- The number of members up to `number`. -/
def rank (number : ℕ) : ℕ := Nat.count member (number + 1)

variable {member}

theorem rank_le (hzero : ¬ member 0) (number : ℕ) : rank member number ≤ number := by
  have hcount : Nat.count member (number + 1) = Nat.count (fun k => member (k + 1)) number := by
    rw [Nat.count_succ', if_neg hzero, Nat.add_zero]
  rw [rank, hcount]
  exact Nat.count_le _

theorem rank_mono (hle : first ≤ second) : rank member first ≤ rank member second :=
  Nat.count_monotone member (Nat.succ_le_succ hle)

theorem rank_of_member (hmember : member number) :
    rank member number = Nat.count member number + 1 :=
  Nat.count_succ_eq_succ_count_iff.mpr hmember

theorem rank_pos (hmember : member number) : 0 < rank member number := by
  rw [rank_of_member hmember]
  exact Nat.succ_pos _

theorem rank_lt_rank (hsecond : member second) (hlt : first < second) :
    rank member first < rank member second := by
  rw [rank_of_member hsecond]
  exact Nat.lt_succ_of_le (Nat.count_monotone member hlt)

theorem rank_injective (hfirst : member first) (hsecond : member second)
    (heq : rank member first = rank member second) : first = second := by
  rcases Nat.lt_trichotomy first second with hlt | heq' | hgt
  · exact absurd heq (Nat.ne_of_lt (rank_lt_rank hsecond hlt))
  · exact heq'
  · exact absurd heq.symm (Nat.ne_of_lt (rank_lt_rank hfirst hgt))

theorem exists_rank_eq {place : ℕ} (hpos : 0 < place) (hle : place ≤ rank member number) :
    ∃ holder ≤ number, member holder ∧ rank member holder = place := by
  induction number with
  | zero =>
      by_cases hmember : member 0
      · have hone : rank member 0 = 1 := by
          rw [rank_of_member hmember, Nat.count_zero]
        exact ⟨0, Nat.le_refl 0, hmember, by omega⟩
      · rw [rank, Nat.count_succ, if_neg hmember, Nat.count_zero] at hle
        omega
  | succ number ih =>
      by_cases hbelow : place ≤ rank member number
      · obtain ⟨holder, hholder, hrest⟩ := ih hbelow
        exact ⟨holder, Nat.le_succ_of_le hholder, hrest⟩
      · have hcount : rank member (number + 1) = rank member number +
            if member (number + 1) then 1 else 0 :=
          Nat.count_succ member (number + 1)
        by_cases hmember : member (number + 1)
        · rw [if_pos hmember] at hcount
          exact ⟨number + 1, Nat.le_refl _, hmember, by omega⟩
        · rw [if_neg hmember] at hcount
          omega

end Packing
