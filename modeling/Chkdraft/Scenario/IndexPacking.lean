import Chkdraft.Scenario.LinkClaims

/-!
# Packing an index into the owners

The index of a trigger's extended data shares four owner bytes with the lowest
bit of each.  Setting an index keeps these bits, reading it takes them for bits
of the index, and clearing it clears them.  A bit that one index sets is
therefore part of every later one.
-/

namespace Chkdraft.Scenario

open Binary Chk Sections

def setExtendedDataIndexes (trigger : Trigger) (indexes : List ℕ) : Except Exception Trigger :=
  indexes.foldlM setExtendedDataIndex trigger

/-- The trigger is as it was, apart from the owners an index is stored in. -/
def SameOutsideIndex (trigger changed : Trigger) : Prop :=
  changed.owners.toList.take 22 = trigger.owners.toList.take 22 ∧
    changed.owners.toList.drop 26 = trigger.owners.toList.drop 26 ∧
    { changed with owners := trigger.owners } = trigger

/-- On a trigger that had indexes set before: an index that is set is read
back, and so is a later one; the owners elsewhere stay, and clearing the index
restores the trigger. -/
def PacksIndex (trigger : Trigger) (previous : List ℕ) (index later : ℕ) : Prop :=
  ∃ before set reset, setExtendedDataIndexes trigger previous = .ok before ∧
    setExtendedDataIndex before index = .ok set ∧
    setExtendedDataIndex set later = .ok reset ∧
    getExtendedDataIndex set = some index ∧
    getExtendedDataIndex reset = some later ∧
    SameOutsideIndex trigger set ∧ SameOutsideIndex trigger reset ∧
    getExtendedDataIndex (clearExtendedDataIndex set) = none ∧
    clearExtendedDataIndex set = trigger

/-- The condition: the four owners are 0 without an index, the indexes are
32-bit numbers, and each has the owner bits of those set before. -/
structure MeetsPacking (trigger : Trigger) (previous : List ℕ) (index later : ℕ) : Prop where
  owners : indexWord trigger = 0
  index_lt : index < 2 ^ 32
  later_lt : later < 2 ^ 32
  previous : ∀ earlier ∈ previous, (earlier % 2 ^ 32 &&& 0x010101) ||| index = index
  later : (index &&& 0x010101) ||| later = later

theorem withIndexWord_withIndexWord (trigger : Trigger) (word other : UInt32) :
    withIndexWord (withIndexWord trigger word) other = withIndexWord trigger other := by
  have hlength := trigger.owners.toList_length
  have howners : overwrite (overwrite trigger.owners.toList 22
        (littleEndian 4 word.toNat)) 22 (littleEndian 4 other.toNat) =
      overwrite trigger.owners.toList 22 (littleEndian 4 other.toNat) := by
    have hfits : 22 ≤ trigger.owners.toList.length := by
      rw [hlength]
      decide
    rw [overwrite, take_overwrite _ le_rfl hfits, length_littleEndian,
      drop_overwrite (by rw [length_littleEndian]) hfits]
    rfl
  simp only [withIndexWord, List.Vector.toList_mk, howners]

theorem withIndexWord_indexWord (trigger : Trigger) :
    withIndexWord trigger (indexWord trigger) = trigger := by
  have hlength := trigger.owners.toList_length
  have hfour : ((trigger.owners.toList.drop 22).take 4).length = 4 := by
    rw [List.length_take, List.length_drop, hlength]
    rfl
  have hlt : wordAt 4 trigger.owners.toList 22 < 2 ^ 32 := by
    have hvalue := littleEndianValue_lt ((trigger.owners.toList.drop 22).take 4)
    rw [hfour] at hvalue
    exact hvalue
  have hbytes : littleEndian 4 (indexWord trigger).toNat =
      (trigger.owners.toList.drop 22).take 4 := by
    have hword := littleEndian_littleEndianValue ((trigger.owners.toList.drop 22).take 4)
    rw [hfour] at hword
    rw [indexWord, UInt32.toNat_ofNat', Nat.mod_eq_of_lt hlt]
    exact hword
  have howners : overwrite trigger.owners.toList 22
      (littleEndian 4 (indexWord trigger).toNat) = trigger.owners.toList := by
    rw [overwrite, length_littleEndian, hbytes, List.append_assoc,
      ← List.drop_drop, List.take_append_drop, List.take_append_drop]
  simp only [withIndexWord, howners]
  rfl

theorem sameOutsideIndex_withIndexWord (trigger : Trigger) (word : UInt32) :
    SameOutsideIndex trigger (withIndexWord trigger word) := by
  have hfits : 22 ≤ trigger.owners.toList.length := by
    rw [trigger.owners.toList_length]
    decide
  refine ⟨?_, ?_, rfl⟩
  · exact take_overwrite _ le_rfl hfits
  · exact drop_overwrite (by rw [length_littleEndian]) hfits

/-- Clearing gives the trigger itself exactly if there was nothing to clear. -/
theorem clear_eq_self_iff (trigger : Trigger) :
    clearExtendedDataIndex trigger = trigger ↔ indexWord trigger = 0 := by
  constructor
  · intro hclear
    rw [← hclear]
    exact indexWord_withIndexWord trigger 0
  · intro hzero
    have hself := withIndexWord_indexWord trigger
    rw [hzero] at hself
    exact hself

/-- The bits of two numbers are bits of a third exactly if those of each are. -/
theorem or_or_eq_iff (left right whole : ℕ) : (left ||| right) ||| whole = whole ↔
      left ||| whole = whole ∧ right ||| whole = whole := by
  constructor
  · intro heq
    rw [← heq]
    constructor
    · rw [← Nat.or_assoc, ← Nat.or_assoc, Nat.or_self]
    · rw [Nat.or_comm left right, ← Nat.or_assoc, ← Nat.or_assoc, Nat.or_self]
  · rintro ⟨hleft, hright⟩
    rw [Nat.or_assoc, hright, hleft]

theorem ownerBits_lt (trigger : Trigger) : ownerBits trigger < 2 ^ 24 :=
  Nat.lt_of_le_of_lt Nat.and_le_right (by decide)

theorem ownerBits_linkedTo (trigger : Trigger) (index : ℕ) : ownerBits (linkedTo trigger index) =
      ownerBits trigger ||| (index % 2 ^ 32 &&& 0x010101) := by
  have hword : (indexWord (linkedTo trigger index)).toNat =
      (indexWord trigger).toNat &&& 0x1010101 ||| index % 2 ^ 32 := by
    have hsized : (UInt32.ofNat (index % 2 ^ 32)).toNat = index % 2 ^ 32 := by
      rw [UInt32.toNat_ofNat']
      exact Nat.mod_mod _ _
    rw [linkedTo, indexWord_withIndexWord, UInt32.toNat_or, UInt32.toNat_and, hsized]
    rfl
  rw [ownerBits, hword, Nat.and_or_distrib_right, Nat.and_assoc]
  rfl

theorem ownerBits_foldl_or_eq_iff (trigger : Trigger) (indexes : List ℕ) (whole : ℕ) :
    ownerBits (indexes.foldl linkedTo trigger) ||| whole = whole ↔
      ownerBits trigger ||| whole = whole ∧
        ∀ index ∈ indexes, (index % 2 ^ 32 &&& 0x010101) ||| whole = whole := by
  induction indexes generalizing trigger with
  | nil => simp
  | cons index rest ih =>
      rw [List.foldl_cons, ih, ownerBits_linkedTo, or_or_eq_iff, and_assoc, List.forall_mem_cons]

theorem setExtendedDataIndexes_eq {trigger : Trigger} {indexes : List ℕ}
    (hsettable : ∀ index ∈ indexes, Settable index) :
    setExtendedDataIndexes trigger indexes = .ok (indexes.foldl linkedTo trigger) := by
  induction indexes generalizing trigger with
  | nil => rfl
  | cons index rest ih =>
      obtain ⟨hindex, hrest⟩ := List.forall_mem_cons.mp hsettable
      rw [setExtendedDataIndexes, List.foldlM_cons, setExtendedDataIndex_eq, if_pos hindex]
      exact ih hrest

theorem foldl_linkedTo_eq (trigger : Trigger) (indexes : List ℕ) :
    ∃ word, indexes.foldl linkedTo trigger = withIndexWord trigger word := by
  induction indexes generalizing trigger with
  | nil => exact ⟨_, (withIndexWord_indexWord trigger).symm⟩
  | cons index rest ih =>
      obtain ⟨word, hword⟩ := ih (linkedTo trigger index)
      refine ⟨word, ?_⟩
      rw [List.foldl_cons, hword, linkedTo, withIndexWord_withIndexWord]

/-- An index is read back exactly if it fits and has the owner bits there
were. -/
theorem getExtendedDataIndex_linkedTo_iff {trigger : Trigger} {index : ℕ}
    (hsettable : Settable index) :
    getExtendedDataIndex (linkedTo trigger index) = some index ↔
      index < 2 ^ 32 ∧ ownerBits trigger ||| index = index := by
  rw [getExtendedDataIndex_linkedTo hsettable, Option.some.injEq, linkTarget]
  constructor
  · intro heq
    have hsmall : ownerBits trigger ||| index % 2 ^ 32 < 2 ^ 24 :=
      Nat.or_lt_two_pow (ownerBits_lt trigger) (Nat.lt_of_le_of_lt hsettable.2 (by decide))
    have hlt : index < 2 ^ 32 := by
      rw [heq] at hsmall
      exact hsmall.trans (by decide)
    rw [Nat.mod_eq_of_lt hlt] at heq
    exact ⟨hlt, heq⟩
  · rintro ⟨hlt, heq⟩
    rw [Nat.mod_eq_of_lt hlt, heq]

/-- Indexes are packed as they should be exactly under the condition. -/
theorem packsIndex_iff {trigger : Trigger} {previous : List ℕ}
    {index later : ℕ} (hprevious : ∀ earlier ∈ previous, Settable earlier)
    (hindex : Settable index) (hlater : Settable later) :
    PacksIndex trigger previous index later ↔ MeetsPacking trigger previous index later := by
  obtain ⟨word, hword⟩ := foldl_linkedTo_eq trigger (previous ++ [index])
  obtain ⟨laterWord, hlaterWord⟩ := foldl_linkedTo_eq trigger (previous ++ [index, later])
  rw [List.foldl_append, List.foldl_cons, List.foldl_nil] at hword
  rw [List.foldl_append, List.foldl_cons, List.foldl_cons, List.foldl_nil] at hlaterWord
  have hclear : clearExtendedDataIndex (linkedTo (previous.foldl linkedTo trigger) index) =
        clearExtendedDataIndex trigger := by
    rw [hword, clearExtendedDataIndex, withIndexWord_withIndexWord]
    rfl
  have hset := setExtendedDataIndex_eq (previous.foldl linkedTo trigger) index
  have hreset := setExtendedDataIndex_eq (linkedTo (previous.foldl linkedTo trigger) index) later
  rw [if_pos hindex] at hset
  rw [if_pos hlater] at hreset
  -- What the claims about the two indexes say of the bits.
  have hread := @getExtendedDataIndex_linkedTo_iff (previous.foldl linkedTo trigger) index hindex
  have hreread := @getExtendedDataIndex_linkedTo_iff
    (linkedTo (previous.foldl linkedTo trigger) index) later hlater
  rw [ownerBits_foldl_or_eq_iff] at hread
  rw [ownerBits_linkedTo, or_or_eq_iff] at hreread
  constructor
  · rintro ⟨before, set, reset, hbefore, hindexSet, hlaterSet, hgot, hgotLater, -, -, -, hrestored⟩
    rw [setExtendedDataIndexes_eq hprevious] at hbefore
    cases hbefore
    rw [hset] at hindexSet
    cases hindexSet
    rw [hreset] at hlaterSet
    cases hlaterSet
    obtain ⟨hlt, -, hbits⟩ := hread.mp hgot
    obtain ⟨hlaterLt, -, hlaterBits⟩ := hreread.mp hgotLater
    rw [hclear, clear_eq_self_iff] at hrestored
    rw [Nat.mod_eq_of_lt hlt] at hlaterBits
    exact ⟨hrestored, hlt, hlaterLt, hbits, hlaterBits⟩
  · rintro ⟨hzero, hlt, hlaterLt, hbits, hlaterBits⟩
    have hnone : ownerBits trigger = 0 := by
      rw [ownerBits, hzero]
      rfl
    have hbefore : ownerBits (previous.foldl linkedTo trigger) ||| index =
        index := by
      rw [ownerBits_foldl_or_eq_iff, hnone, Nat.zero_or]
      exact ⟨rfl, hbits⟩
    have hbeforeLater : ownerBits (previous.foldl linkedTo trigger) ||| later =
        later := by
      have hmask : ownerBits (previous.foldl linkedTo trigger) &&& 0x010101 =
          ownerBits (previous.foldl linkedTo trigger) := by
        rw [ownerBits, Nat.and_assoc, Nat.and_self]
      rw [← hbefore, Nat.and_or_distrib_right, hmask, or_or_eq_iff] at hlaterBits
      exact hlaterBits.1
    refine ⟨_, _, _, setExtendedDataIndexes_eq hprevious, hset, hreset,
      ?_, ?_, ?_, ?_, getExtendedDataIndex_clear _, ?_⟩
    · rw [getExtendedDataIndex_linkedTo_iff hindex]
      exact ⟨hlt, hbefore⟩
    · rw [hreread, Nat.mod_eq_of_lt hlt]
      exact ⟨hlaterLt, hbeforeLater, hlaterBits⟩
    · rw [hword]
      exact sameOutsideIndex_withIndexWord trigger word
    · rw [hlaterWord]
      exact sameOutsideIndex_withIndexWord trigger laterWord
    · rw [hclear, clear_eq_self_iff]
      exact hzero

/-- The indexes 2 and 3 on a trigger without owners. -/
theorem packsIndex_two_three : PacksIndex blankTrigger [] 2 3 := by
  rw [packsIndex_iff (List.forall_mem_nil _) (by decide) (by decide)]
  exact ⟨by decide, by decide, by decide, List.forall_mem_nil _, by decide⟩

/-- The index 2 set over the index 3 is read as 3. -/
theorem setExtendedDataIndex_keeps_bit : ¬ PacksIndex blankTrigger [] 3 2 := by
  rintro ⟨before, set, reset, hbefore, hset, hreset, -, hgot, -⟩
  cases hbefore
  rw [setExtendedDataIndex_eq, if_pos (by decide)] at hset
  cases hset
  rw [setExtendedDataIndex_eq, if_pos (by decide)] at hreset
  cases hreset
  rw [getExtendedDataIndex_linkedTo (by decide), Option.some.injEq, linkTarget,
    ownerBits_linkedTo] at hgot
  revert hgot
  decide

end Chkdraft.Scenario
