import Mathlib.Data.Nat.Init
import Mathlib.Tactic.ByContra

/-!
# Steps that keep the order

A partial step on the numbers below a bound that keeps their order never
returns to a number it has left: from there it goes up or down until it stops.
Values that agree along such a step are the default, except at the numbers the
step leaves where they are.
-/

/-- A step into the numbers below a bound that keeps their order. -/
structure OrderedStep (bound : ℕ) (next : ℕ → Option ℕ) : Prop where
  lt_bound : ∀ {index target}, next index = some target → target < bound
  ordered : ∀ {index other target otherTarget}, index < other →
    next index = some target → next other = some otherTarget → target < otherTarget

namespace OrderedStep

variable {A : Type} {bound : ℕ} {next : ℕ → Option ℕ} {value : ℕ → A}
  {default : A}

/-- The value of every number is that of the next one, or the default. -/
def Follows (bound : ℕ) (next : ℕ → Option ℕ) (value : ℕ → A) (default : A) : Prop :=
  ∀ index < bound, value index = (next index).elim default value

section

variable {index target : ℕ} (hstep : OrderedStep bound next)
  (hfollows : Follows bound next value default) (hindex : index < bound)
  (hnext : next index = some target)

include hstep hfollows hindex hnext

theorem eq_default_of_lt (hlt : index < target) : value index = default := by
  induction hleft : bound - index using Nat.strong_induction_on generalizing index target with
  | _ left ih =>
      have htarget := hstep.lt_bound hnext
      rw [hfollows index hindex, hnext, Option.elim_some]
      cases hafter : next target with
      | none => rw [hfollows target htarget, hafter, Option.elim_none]
      | some after =>
          exact ih (bound - target) (by omega) htarget hafter (hstep.ordered hlt hnext hafter) rfl

theorem eq_default_of_gt (hlt : target < index) : value index = default := by
  induction index using Nat.strong_induction_on generalizing target with
  | _ index ih =>
      have htarget := hstep.lt_bound hnext
      rw [hfollows index hindex, hnext, Option.elim_some]
      cases hafter : next target with
      | none => rw [hfollows target htarget, hafter, Option.elim_none]
      | some after =>
          exact ih target hlt htarget hafter (hstep.ordered hlt hafter hnext)

end

/-- Values follow the step exactly if they are the default wherever the step
moves. -/
theorem follows_iff (hstep : OrderedStep bound next) : Follows bound next value default ↔
      ∀ index < bound, value index ≠ default → next index = some index := by
  constructor
  · intro hfollows index hindex hvalue
    cases hnext : next index with
    | none =>
        exfalso
        apply hvalue
        rw [hfollows index hindex, hnext, Option.elim_none]
    | some target =>
        rcases Nat.lt_trichotomy index target with hlt | heq | hgt
        · exact absurd (hstep.eq_default_of_lt hfollows hindex hnext hlt) hvalue
        · rw [heq]
        · exact absurd (hstep.eq_default_of_gt hfollows hindex hnext hgt) hvalue
  · intro hfixed index hindex
    cases hnext : next index with
    | none =>
        by_contra hvalue
        have hself := hfixed index hindex hvalue
        rw [hnext] at hself
        cases hself
    | some target =>
        rw [Option.elim_some]
        by_contra hne
        have htarget := hstep.lt_bound hnext
        have hboth : next target = some target ∨ next index = some index := by
          by_cases hvalue : value target = default
          · exact .inr (hfixed index hindex (hvalue ▸ hne))
          · exact .inl (hfixed target htarget hvalue)
        rcases Nat.lt_trichotomy index target with hlt | rfl | hgt
        · rcases hboth with hself | hself
          · exact Nat.lt_irrefl _ (hstep.ordered hlt hnext hself)
          · rw [hnext] at hself
            cases hself
            exact Nat.lt_irrefl _ hlt
        · exact hne rfl
        · rcases hboth with hself | hself
          · exact Nat.lt_irrefl _ (hstep.ordered hgt hself hnext)
          · rw [hnext] at hself
            cases hself
            exact Nat.lt_irrefl _ hgt

end OrderedStep
