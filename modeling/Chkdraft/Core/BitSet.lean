import Mathlib.Data.Set.Insert
import Chkdraft.Core.Fault

/-!
# Marking in a bit set

A `std::bitset` whose `operator[]` does not check its index: setting a bit
behind the end leaves the defined behaviour.  A marking routine sets some bits
and clears none.  What it sets does not depend on the bits before, so routines
are described by that set and by the condition under which they return, and
both are found from their parts.
-/

namespace BitSet

variable {A : Type}

/-- The bits of a set of `size`; indexes from `size` on are never set. -/
abbrev Bits := ℕ → Bool

/-- `bits[index] = true` for a bit set of `size` bits. -/
def mark (size : ℕ) (bits : Bits) (index : ℕ) : Except Hazard Bits :=
  if index < size then .ok (Function.update bits index true)
  else .error .undefinedBehavior

/-- A loop that marks the entries of a list a test lets through. -/
def markAll (size : ℕ) (passes : ℕ → Bool) (entries : List ℕ) (bits : Bits) : Except Hazard Bits :=
  entries.foldlM (fun bits entry => if passes entry then mark size bits entry else .ok bits) bits

def when (condition : Bool) (routine : Bits → Except Hazard Bits)
    (bits : Bits) : Except Hazard Bits :=
  if condition then routine bits else .ok bits

/-- `routine` returns exactly if `fits` holds, and then has set the bits of
`marked` and left all others alone. -/
structure Marks (routine : Bits → Except Hazard Bits) (fits : Prop) (marked : Set ℕ) : Prop where
  returns : fits → ∀ bits, ∃ after, routine bits = .ok after ∧
    ∀ index, after index = true ↔ bits index = true ∨ index ∈ marked
  fails : ¬ fits → ∀ bits after, routine bits ≠ .ok after

namespace Marks

variable {first second : Bits → Except Hazard Bits} {fits others : Prop}
  {left right : Set ℕ}

theorem congr (hmarks : Marks first fits left) (hfits : fits ↔ others)
    (hset : left = right) : Marks first others right := by
  rw [← hset]
  exact ⟨fun hothers => hmarks.returns (hfits.mpr hothers),
    fun hothers => hmarks.fails fun h => hothers (hfits.mp h)⟩

theorem nothing : Marks Except.ok True ∅ where
  returns := fun _ bits => ⟨bits, rfl, fun index => by simp⟩
  fails := fun hfits => absurd trivial hfits

theorem bind (hfirst : Marks first fits left) (hsecond : Marks second others right) :
    Marks (fun bits => first bits >>= second) (fits ∧ others) (left ∪ right) where
  returns := by
    rintro ⟨hfits, hothers⟩ bits
    obtain ⟨middle, hmiddle, hleft⟩ := hfirst.returns hfits bits
    obtain ⟨after, hafter, hright⟩ := hsecond.returns hothers middle
    refine ⟨after, Fault.bind_eq_ok_iff.mpr ⟨middle, hmiddle, hafter⟩, ?_⟩
    intro index
    rw [hright, hleft, Set.mem_union, or_assoc]
  fails := by
    intro hfails bits after hrun
    obtain ⟨middle, hmiddle, hafter⟩ := Fault.bind_eq_ok_iff.mp hrun
    apply hfails
    constructor
    · by_contra hfits
      exact hfirst.fails hfits bits middle hmiddle
    · by_contra hothers
      exact hsecond.fails hothers middle after hafter

theorem when (hmarks : Marks first fits left) (condition : Bool) :
    Marks (BitSet.when condition first) (condition = true → fits)
      {index | condition = true ∧ index ∈ left} := by
  cases condition with
  | true =>
      apply hmarks.congr
      · simp
      · simp
  | false =>
      apply nothing.congr
      · simp
      · simp

theorem foldlM {step : A → Bits → Except Hazard Bits} {fitting : A → Prop}
    {marked : A → Set ℕ} (hstep : ∀ item, Marks (step item) (fitting item)
      (marked item)) (items : List A) :
    Marks (fun bits => items.foldlM (fun bits item => step item bits) bits)
      (∀ item ∈ items, fitting item)
      {index | ∃ item ∈ items, index ∈ marked item} := by
  induction items with
  | nil =>
      apply nothing.congr
      · simp
      · simp
  | cons item rest ih =>
      have hboth := (hstep item).bind ih
      simp only [List.foldlM_cons]
      apply hboth.congr
      · simp
      · ext index
        simp

/-- A question about one bit of an empty set after the routine. -/
theorem exists_bit_iff (hmarks : Marks first fits left) {question : Prop} (index : ℕ) :
    (∃ after, first (fun _ => false) = .ok after ∧ (question ↔ after index = true)) ↔
      fits ∧ (question ↔ index ∈ left) := by
  constructor
  · rintro ⟨after, hrun, hquestion⟩
    have hfits : fits := by
      by_contra hfails
      exact hmarks.fails hfails _ after hrun
    obtain ⟨other, hother, hbits⟩ := hmarks.returns hfits fun _ => false
    rw [hrun] at hother
    cases hother
    refine ⟨hfits, ?_⟩
    rw [hquestion, hbits]
    simp
  · rintro ⟨hfits, hquestion⟩
    obtain ⟨after, hafter, hbits⟩ := hmarks.returns hfits fun _ => false
    refine ⟨after, hafter, ?_⟩
    rw [hquestion, hbits]
    simp

end Marks

theorem marks_mark (size index : ℕ) :
    Marks (fun bits => mark size bits index) (index < size) {index} where
  returns := by
    intro hlt bits
    refine ⟨_, if_pos hlt, ?_⟩
    intro other
    by_cases heq : other = index
    · simp [heq]
    · simp [heq]
  fails := by
    intro hlt bits after hrun
    rw [mark, if_neg hlt] at hrun
    cases hrun

theorem marks_markAll (size : ℕ) (passes : ℕ → Bool) (entries : List ℕ) :
    Marks (markAll size passes entries) (∀ entry ∈ entries, passes entry = true → entry < size)
      {index | passes index = true ∧ index ∈ entries} := by
  have hround : ∀ entry, Marks (fun bits => if passes entry then mark size bits entry else .ok bits)
      (passes entry = true → entry < size)
      {index | passes entry = true ∧ index ∈ ({entry} : Set ℕ)} :=
    fun entry => (marks_mark size entry).when (passes entry)
  apply (Marks.foldlM hround entries).congr Iff.rfl
  ext index
  constructor
  · rintro ⟨entry, hentry, hpasses, rfl⟩
    exact ⟨hpasses, hentry⟩
  · rintro ⟨hpasses, hentry⟩
    exact ⟨index, hentry, hpasses, rfl⟩

end BitSet
