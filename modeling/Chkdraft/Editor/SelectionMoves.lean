import Chkdraft.Editor.Selections
import Mathlib.Data.Nat.Bitwise

/-!
# Selections behind a command

The indices each command writes to the selection, and the indices that
reversing a group of moves leaves.  The unit moved by an action gets a flag that
keeps the later moves of the group from shifting it, which is right as long as
none of them passes its index.
-/

namespace Chkdraft.Editor

open Chk Scenario Sections Undo Selection

variable {first i second top unitMoveTo : ℕ}

variable {done unitIndices : List ℕ} {bound index : ℕ}

/-- The selected indices are different, and below a number. -/
def Within (numUnits : ℕ) (selUnits : Selection) : Prop :=
  selUnits.Nodup ∧ ∀ index ∈ selUnits, index.toNat < numUnits

section Within

variable {numUnits : ℕ} {selUnits other : Selection}

theorem Within.perm (hwithin : Within numUnits selUnits)
    (hperm : other.Perm selUnits) : Within numUnits other :=
  ⟨hperm.nodup_iff.mpr hwithin.1, fun index hindex =>
    hwithin.2 index (hperm.mem_iff.mp hindex)⟩

theorem Within.mono {more : ℕ} (hwithin : Within numUnits selUnits)
    (hle : numUnits ≤ more) : Within more selUnits :=
  ⟨hwithin.1, fun index hindex => (hwithin.2 index hindex).trans_le hle⟩

theorem within_nil (numUnits : ℕ) : Within numUnits [] :=
  ⟨List.nodup_nil, fun _ hindex => nomatch hindex⟩

theorem within_ofIndices (hnodup : unitIndices.Nodup)
    (hlt : ∀ index ∈ unitIndices, index < numUnits)
    (hfits : ∀ index ∈ unitIndices, index < 65536) :
    Within numUnits (ofIndices unitIndices) := by
  have htoNat {index : ℕ} (hindex : index ∈ unitIndices) : (UInt16.ofNat index).toNat = index :=
    UInt16.toNat_ofNat_of_lt' (hfits index hindex)
  constructor
  · apply hnodup.map_on
    intro first hfirst second hsecond heq
    rw [← htoNat hfirst, heq, htoNat hsecond]
  · intro index hindex
    obtain ⟨unitIndex, hunitIndex, rfl⟩ := List.mem_map.mp hindex
    rw [htoNat hunitIndex]
    exact hlt unitIndex hunitIndex

section

variable (hwithin : Within numUnits selUnits)

include hwithin

theorem Within.addUnit {index : UInt16} (hindex : index.toNat < numUnits) :
    Within numUnits (Selection.addUnit selUnits index) := by
  rw [Selection.addUnit]
  split
  · exact hwithin
  · rename_i hnew
    refine ⟨List.nodup_cons.mpr ⟨hnew, hwithin.1⟩, fun selected hselected => ?_⟩
    rcases List.mem_cons.mp hselected with rfl | hselected
    · exact hindex
    · exact hwithin.2 selected hselected

theorem Within.removeUnit (index : UInt16) :
    Within numUnits (Selection.removeUnit selUnits index) :=
  ⟨hwithin.1.erase index, fun selected hselected =>
    hwithin.2 selected (List.mem_of_mem_erase hselected)⟩

theorem Within.ensureFirst (index : UInt16) :
    Within numUnits (Selection.ensureFirst selUnits index) := by
  rw [Selection.ensureFirst]
  split
  · rename_i hfirst
    exact hwithin.perm (List.perm_cons_erase hfirst.2.2).symm
  · exact hwithin

theorem Within.selectAll (hfits : numUnits ≤ 65535) :
    Within numUnits (Editor.selectAll numUnits selUnits) := by
  have hfold (unitIndices : List ℕ)
      (hlt : ∀ index ∈ unitIndices, index < numUnits) {selUnits : Selection}
      (hwithin : Within numUnits selUnits) :
      Within numUnits (unitIndices.foldl (fun selUnits index =>
        Selection.addUnit selUnits (UInt16.ofNat index)) selUnits) := by
    induction unitIndices generalizing selUnits with
    | nil => exact hwithin
    | cons index rest ih =>
        have hindex := hlt index List.mem_cons_self
        rw [List.foldl_cons]
        apply ih fun other hother => hlt other (List.mem_cons_of_mem _ hother)
        apply hwithin.addUnit
        rw [UInt16.toNat_ofNat_of_lt' (by rw [UInt16.size]; omega)]
        exact hindex
  exact hfold _ (fun index hindex => List.mem_range.mp hindex) hwithin

end

/-- Different indices below a number are at most as many. -/
theorem length_le_of_nodup (hnodup : unitIndices.Nodup)
    (hlt : ∀ index ∈ unitIndices, index < numUnits) :
    unitIndices.length ≤ numUnits := by
  have hsubset : unitIndices ⊆ List.range numUnits := fun index hindex =>
    List.mem_range.mpr (hlt index hindex)
  simpa using (hnodup.subperm hsubset).length_le

end Within

theorem topIndices_eq (hsorted : unitIndices.Pairwise (· < ·))
    (hle : ∀ index ∈ unitIndices, i ≤ index) :
    (topIndices i top unitIndices).1 = List.range' i unitIndices.length := by
  induction unitIndices generalizing i top with
  | nil => rfl
  | cons unitIndex rest ih =>
      obtain ⟨hfirst, hrest⟩ := List.pairwise_cons.mp hsorted
      have hi := hle unitIndex List.mem_cons_self
      have hnext : ∀ index ∈ rest, i + 1 ≤ index := fun index hindex =>
        Nat.lt_of_le_of_lt hi (hfirst index hindex)
      rw [topIndices, List.length_cons, List.range'_succ]
      split
      · exact congrArg (i :: ·) (ih hrest hnext)
      · rename_i hzero
        have hsame : unitIndex = i := by omega
        rw [← hsame] at hnext ⊢
        exact congrArg (unitIndex :: ·) (ih hrest hnext)

theorem endIndices_eq {numUnits : ℕ} (hpos : 0 < i) (hsorted : unitIndices.Pairwise (· > ·))
    (hle : ∀ index ∈ unitIndices, index + i ≤ numUnits) :
    (endIndices numUnits i top unitIndices).1 =
      (List.range' i unitIndices.length).map (numUnits - ·) := by
  induction unitIndices generalizing i top with
  | nil => rfl
  | cons unitIndex rest ih =>
      obtain ⟨hfirst, hrest⟩ := List.pairwise_cons.mp hsorted
      have hi := hle unitIndex List.mem_cons_self
      have hnext : ∀ index ∈ rest, index + (i + 1) ≤ numUnits := by
        intro index hindex
        have hgt := hfirst index hindex
        omega
      rw [endIndices, List.length_cons, List.range'_succ, List.map_cons]
      split
      · exact congrArg ((numUnits - i) :: ·) (ih i.succ_pos hrest hnext)
      · rename_i hlast
        have hsame : unitIndex = numUnits - i := by omega
        rw [← hsame]
        exact congrArg (unitIndex :: ·) (ih i.succ_pos hrest hnext)

/-- What a list of indices has to keep during a loop. -/
def Distinct (numUnits : ℕ) (unitIndices : List ℕ) : Prop :=
  unitIndices.Nodup ∧ ∀ index ∈ unitIndices, index < numUnits

section

variable {numUnits : ℕ} {rest : List ℕ} {unitIndex : ℕ}
  (hdistinct : Distinct numUnits (done ++ unitIndex :: rest))

include hdistinct

theorem Distinct.move {newIndex : ℕ} (hnew : newIndex ∉ done ++ unitIndex :: rest)
    (hlt : newIndex < numUnits) : Distinct numUnits (done ++ [newIndex] ++ rest) := by
  obtain ⟨hnodup, hall⟩ := hdistinct
  rw [List.append_assoc, List.singleton_append]
  have hwithout := (List.nodup_middle.mp hnodup)
  obtain ⟨-, hothers⟩ := List.nodup_cons.mp hwithout
  constructor
  · apply List.nodup_middle.mpr
    refine List.nodup_cons.mpr ⟨fun hmem => hnew ?_, hothers⟩
    rcases List.mem_append.mp hmem with hmem | hmem
    · exact List.mem_append_left _ hmem
    · exact List.mem_append_right _ (List.mem_cons_of_mem _ hmem)
  · intro index hindex
    rcases List.mem_append.mp hindex with hindex | hindex
    · exact hall index (List.mem_append_left _ hindex)
    · rcases List.mem_cons.mp hindex with rfl | hindex
      · exact hlt
      · exact hall index (List.mem_append_right _ (List.mem_cons_of_mem _ hindex))

theorem Distinct.stay : Distinct numUnits (done ++ [unitIndex] ++ rest) := by
  rwa [List.append_assoc, List.singleton_append]

end

theorem distinct_upIndices {numUnits : ℕ} (hdistinct : Distinct numUnits (done ++ unitIndices)) :
    Distinct numUnits (upIndices done unitIndices) := by
  induction unitIndices generalizing done with
  | nil => rwa [List.append_nil] at hdistinct
  | cons unitIndex rest ih =>
      have hlt := hdistinct.2 unitIndex (List.mem_append_right _ List.mem_cons_self)
      rw [upIndices]
      split
      · rename_i hfree
        exact ih (hdistinct.move hfree.2 (by omega))
      · exact ih hdistinct.stay

theorem distinct_downIndices {numUnits : ℕ} (hdistinct : Distinct numUnits (done ++ unitIndices))
    (hnext : ∀ index ∈ unitIndices, index + 1 < numUnits)
    (hfits : ∀ index ∈ unitIndices, index + 1 < 65536) :
    Distinct numUnits (downIndices numUnits done unitIndices) := by
  induction unitIndices generalizing done with
  | nil => rwa [List.append_nil] at hdistinct
  | cons unitIndex rest ih =>
      have hu16 : u16 (unitIndex + 1) = unitIndex + 1 :=
        u16_of_lt (hfits unitIndex List.mem_cons_self)
      have hnextRest : ∀ index ∈ rest, index + 1 < numUnits :=
        fun index hindex => hnext index (List.mem_cons_of_mem _ hindex)
      have hfitsRest : ∀ index ∈ rest, index + 1 < 65536 :=
        fun index hindex => hfits index (List.mem_cons_of_mem _ hindex)
      rw [downIndices, hu16]
      split
      · rename_i hfree
        exact ih (hdistinct.move hfree.2 (hnext unitIndex List.mem_cons_self)) hnextRest hfitsRest
      · exact ih hdistinct.stay hnextRest hfitsRest

theorem within_of_distinct {numUnits : ℕ} (hdistinct : Distinct numUnits unitIndices)
    (hfits : Distinct 65536 unitIndices) :
    Within numUnits (ofIndices unitIndices) :=
  within_ofIndices hdistinct.1 hdistinct.2 hfits.2

section Commands

variable {numUnits : ℕ} {selUnits : Selection}

section

variable (hwithin : Within numUnits selUnits)

include hwithin

theorem Within.distinct (ascending : Bool) :
    Distinct numUnits (sortUnits ascending (indices selUnits)) ∧
      Distinct 65536 (sortUnits ascending (indices selUnits)) := by
  have hperm : (sortUnits ascending (indices selUnits)).Perm (indices selUnits) := by
    cases ascending <;> exact List.perm_insertionSort _ _
  have hnodup : (sortUnits ascending (indices selUnits)).Nodup :=
    hperm.nodup_iff.mpr (hwithin.1.map fun _ _ => UInt16.toNat_inj.mp)
  refine ⟨⟨hnodup, fun index hindex => ?_⟩, hnodup, fun index hindex => ?_⟩
  · obtain ⟨selected, hselected, rfl⟩ := List.mem_map.mp (hperm.mem_iff.mp hindex)
    exact hwithin.2 selected hselected
  · obtain ⟨selected, -, rfl⟩ := List.mem_map.mp (hperm.mem_iff.mp hindex)
    exact selected.toNat_lt

theorem Within.upSelection : Within numUnits
      (ofIndices (upIndices [] (sortUnits true (indices selUnits)))) := by
  obtain ⟨hdistinct, hfits⟩ := hwithin.distinct true
  exact within_of_distinct (distinct_upIndices hdistinct) (distinct_upIndices hfits)

theorem Within.downSelection (hnext : ∀ index ∈ selUnits,
      index.toNat + 1 < numUnits ∧ index.toNat + 1 < 65536) :
    Within numUnits (ofIndices (downIndices numUnits [] (sortUnits false (indices selUnits)))) := by
  obtain ⟨hdistinct, hfits⟩ := hwithin.distinct false
  have hsorted : ∀ index ∈ sortUnits false (indices selUnits),
      index + 1 < numUnits ∧ index + 1 < 65536 := by
    intro index hindex
    obtain ⟨selected, hselected, rfl⟩ := List.mem_map.mp (UnitEdit.mem_sortUnits.mp hindex)
    exact hnext selected hselected
  have hdown := @distinct_downIndices [] _ numUnits hdistinct
    (fun index hindex => (hsorted index hindex).1)
    (fun index hindex => (hsorted index hindex).2)
  refine within_ofIndices hdown.1 hdown.2 ?_
  -- Every index of the result is one of the selection or the next one.
  have hbound (done rest : List ℕ) (hdone : ∀ index ∈ done, index < 65536)
      (hrest : ∀ index ∈ rest, index < 65536) :
      ∀ index ∈ downIndices numUnits done rest, index < 65536 := by
    induction rest generalizing done with
    | nil => exact hdone
    | cons unitIndex rest ih =>
        have hothers : ∀ index ∈ rest, index < 65536 := fun index hindex =>
          hrest index (List.mem_cons_of_mem _ hindex)
        rw [downIndices]
        split
        · apply ih _ _ hothers
          intro index hindex
          rcases List.mem_append.mp hindex with hindex | hindex
          · exact hdone index hindex
          · rw [List.mem_singleton.mp hindex]
            exact Nat.mod_lt _ (by decide)
        · apply ih _ _ hothers
          intro index hindex
          rcases List.mem_append.mp hindex with hindex | hindex
          · exact hdone index hindex
          · rw [List.mem_singleton.mp hindex]
            exact hrest unitIndex List.mem_cons_self
  exact hbound [] _ (fun _ hindex => nomatch hindex) hfits.2

theorem Within.topSelection : Within numUnits (Editor.topSelection selUnits) := by
  obtain ⟨hdistinct, hfits⟩ := hwithin.distinct true
  have hnodup : (indices selUnits).Nodup := hwithin.1.map fun _ _ => UInt16.toNat_inj.mp
  have hlength := length_le_of_nodup hdistinct.1 hdistinct.2
  have hlengthFits := length_le_of_nodup hfits.1 hfits.2
  rw [Editor.topSelection, stacked,
    topIndices_eq (UnitEdit.pairwise_lt_sortUnits hnodup) fun _ _ => Nat.zero_le _]
  apply Within.ensureFirst
  apply within_ofIndices List.nodup_range'
  · intro index hindex
    rw [List.mem_range'_1] at hindex
    omega
  · intro index hindex
    rw [List.mem_range'_1] at hindex
    omega

theorem Within.endSelection (hfits : selUnits = [] ∨ numUnits ≤ 65536) :
    Within numUnits (Editor.endSelection numUnits selUnits) := by
  rcases hfits with rfl | hfits
  · exact within_nil numUnits
  · obtain ⟨hdistinct, -⟩ := hwithin.distinct false
    have hnodup : (indices selUnits).Nodup := hwithin.1.map fun _ _ => UInt16.toNat_inj.mp
    have hlength := length_le_of_nodup hdistinct.1 hdistinct.2
    rw [Editor.endSelection, stacked, endIndices_eq Nat.one_pos
      (UnitEdit.pairwise_gt_sortUnits hnodup) hdistinct.2]
    apply Within.ensureFirst
    have hmem {index : ℕ} (hindex : index ∈ (List.range' 1
        (sortUnits false (indices selUnits)).length).map (numUnits - ·)) :
        index < numUnits := by
      obtain ⟨j, hj, rfl⟩ := List.mem_map.mp hindex
      rw [List.mem_range'_1] at hj
      omega
    apply within_ofIndices
    · apply List.Nodup.map_on _ List.nodup_range'
      intro first hfirst second hsecond heq
      rw [List.mem_range'_1] at hfirst hsecond
      omega
    · exact fun index hindex => hmem hindex
    · exact fun index hindex => (hmem hindex).trans_le hfits

end

/-- The index of a selected unit without the flag. -/
def bareIndex (unitIndex : UInt16) : ℕ := unitIndex.toNat % 32768

theorem and_moved_eq_zero_iff (unitIndex : UInt16) :
    unitIndex &&& Selection.moved = 0 ↔ unitIndex.toNat < 32768 := by
  have hlt := unitIndex.toNat_lt
  have hand : (unitIndex &&& Selection.moved).toNat =
      (unitIndex.toNat.testBit 15).toNat * 2 ^ 15 := by
    rw [UInt16.toNat_and]
    exact Nat.and_two_pow _ 15
  rw [← UInt16.toNat_inj, hand, Nat.testBit_eq_decide_div_mod_eq]
  change _ = 0 ↔ _
  by_cases hbit : unitIndex.toNat / 2 ^ 15 % 2 = 1
  · simp only [hbit, decide_true, Bool.toNat_true]
    omega
  · simp only [hbit, decide_false, Bool.toNat_false]
    omega

theorem toNat_finishedIndex (unitIndex : UInt16) :
    (finishedIndex unitIndex).toNat = bareIndex unitIndex := by
  rw [finishedIndex, bareIndex]
  split
  · have hmask : (~~~Selection.moved : UInt16) = 32767 := by decide
    rw [hmask, UInt16.toNat_and]
    exact Nat.and_two_pow_sub_one_eq_mod unitIndex.toNat 15
  · rename_i hbare
    have hlt := (and_moved_eq_zero_iff unitIndex).mp (not_not.mp hbare)
    exact (Nat.mod_eq_of_lt hlt).symm

theorem bareIndex_of_lt {unitIndex : UInt16} (hlt : unitIndex.toNat < 32768) :
    bareIndex unitIndex = unitIndex.toNat :=
  Nat.mod_eq_of_lt hlt

theorem toNat_or_moved (hlt : index < 32768) :
    (UInt16.ofNat index ||| Selection.moved).toNat = index + 32768 := by
  have hpow : index < 2 ^ 15 := hlt
  have hor := Nat.two_pow_add_eq_or_of_lt hpow 1
  rw [UInt16.toNat_or, UInt16.toNat_ofNat_of_lt' (by rw [UInt16.size]; omega),
    Nat.or_comm, Nat.add_comm]
  exact hor.symm

/-- Without flags the indices are different if they were. -/
theorem within_finishMove {numUnits : ℕ} {selUnits : Selection}
    (hnodup : (selUnits.map bareIndex).Nodup)
    (hlt : ∀ index ∈ selUnits, bareIndex index < numUnits) :
    Within numUnits (finishMove selUnits) := by
  constructor
  · apply List.Nodup.of_map UInt16.toNat
    rw [finishMove, List.map_map]
    have hsame : UInt16.toNat ∘ finishedIndex = bareIndex :=
      funext toNat_finishedIndex
    rw [hsame]
    exact hnodup
  · intro index hindex
    obtain ⟨selected, hselected, rfl⟩ := List.mem_map.mp hindex
    rw [toNat_finishedIndex]
    exact hlt selected hselected

theorem finishMove_of_lt {selUnits : Selection} (hlt : ∀ index ∈ selUnits, index.toNat < 32768) :
    finishMove selUnits = selUnits := by
  rw [finishMove]
  conv_rhs => rw [← List.map_id selUnits]
  apply List.map_congr_left
  intro index hindex
  rw [finishedIndex, if_neg]
  · rfl
  · exact not_not.mpr ((and_moved_eq_zero_iff index).mpr (hlt index hindex))

/-- Indices in a row stay different without the highest bit. -/
theorem Within.betweenSelection (hlt : unitMoveTo + selUnits.length < numUnits)
    (hfits : selUnits.length ≤ 32768) :
    Within numUnits (Editor.betweenSelection unitMoveTo selUnits) := by
  have hbare (index : ℕ) : bareIndex (UInt16.ofNat index) = index % 32768 := by
    rw [bareIndex, UInt16.toNat_ofNat']
    exact Nat.mod_mod_of_dvd index (by decide)
  rw [Editor.betweenSelection]
  apply Within.ensureFirst
  apply within_finishMove
  · rw [ofIndices, List.map_map, List.map_map]
    apply List.Nodup.map_on _ List.nodup_range
    intro first hfirst second hsecond heq
    rw [List.mem_range] at hfirst hsecond
    simp only [Function.comp_apply, hbare] at heq
    omega
  · intro index hindex
    obtain ⟨value, hvalue, rfl⟩ := List.mem_map.mp hindex
    obtain ⟨i, hi, rfl⟩ := List.mem_map.mp hvalue
    rw [List.mem_range] at hi
    rw [hbare]
    have hmod := Nat.mod_le (unitMoveTo + (selUnits.length - 1) - i) 32768
    omega

/-- A move to the middle of the list writes at most 32768 indices. -/
theorem Within.toSelection (hwithin : Within numUnits selUnits)
    (hend : selUnits = [] ∨ unitMoveTo = 0 ∨ numUnits ≤ unitMoveTo ∨
      unitMoveTo + selUnits.length < numUnits ∨ numUnits ≤ 65536)
    (hmiddle : unitMoveTo = 0 ∨ numUnits ≤ unitMoveTo + selUnits.length ∨ selUnits.length ≤ 32768) :
    Within numUnits (Editor.toSelection numUnits unitMoveTo selUnits) := by
  have hselected : numSelected (indices selUnits) = min selUnits.length 65535 := by
    rw [numSelected, indices, List.length_map]
  rw [Editor.toSelection]
  split
  · rename_i hmoveTo
    split
    · exact hwithin.topSelection
    · rename_i hpos
      rw [hselected]
      split
      · rename_i hlast
        apply hwithin.endSelection
        rcases hend with hnil | hzero | hge | hlt | hsmall
        · exact .inl hnil
        · exact absurd hzero hpos
        · omega
        · omega
        · exact .inr hsmall
      · rename_i hbefore
        have hfits : selUnits.length ≤ 32768 := by
          rcases hmiddle with hzero | hge | hfits
          · exact absurd hzero hpos
          · rcases hend with rfl | hzero | hend
            · exact Nat.zero_le _
            · exact absurd hzero hpos
            · omega
          · exact hfits
        apply Within.betweenSelection _ hfits
        omega
  · exact hwithin

end Commands

/-- A move of one unit: its two indices, with those between them. -/
structure Move where
  oldIndex : ℕ
  newIndex : ℕ

namespace Move

def Passes (move : Move) (index : ℕ) : Prop :=
  min move.oldIndex move.newIndex ≤ index ∧ index ≤ max move.oldIndex move.newIndex

/-- The index of a unit when the move is reversed. -/
def shifted (move : Move) (index : ℕ) : ℕ :=
  if index = move.newIndex then
    move.oldIndex
  else if move.newIndex > index ∧ move.oldIndex ≤ index then
    index + 1
  else if move.newIndex < index ∧ move.oldIndex ≥ index then
    index - 1
  else
    index

theorem shifted_inj (move : Move) (hsame : move.shifted first = move.shifted second) :
    first = second := by
  unfold shifted at hsame
  split_ifs at hsame <;> omega

theorem shifted_of_not_passes {move : Move} (hindex : ¬ move.Passes index) :
    move.shifted index = index := by
  unfold Passes at hindex
  unfold shifted
  split_ifs <;> omega

theorem shifted_lt {move : Move} (hindex : index < bound)
    (hold : move.oldIndex < bound) (hnew : move.newIndex < bound) :
    move.shifted index < bound := by
  unfold shifted
  split_ifs <;> omega

def action (move : Move) : UnitAction := .unitIndexMove move.oldIndex move.newIndex

def back (move : Move) : Move := ⟨move.newIndex, move.oldIndex⟩

theorem passes_back {move : Move} : move.back.Passes index ↔ move.Passes index := by
  simp only [Passes, back]
  omega

end Move

/-- In the order of reversing, no move passes an index where an earlier one has
put its unit, nor does an earlier one pass where a later one takes its unit. -/
def Settles (moves : List Move) : Prop := moves.Pairwise fun earlier later =>
    ¬ later.Passes earlier.oldIndex ∧ ¬ earlier.Passes later.newIndex

variable {moves : List Move}

theorem Settles.backs (hsettles : Settles moves) : Settles (moves.map Move.back).reverse := by
  rw [Settles, List.pairwise_reverse, List.pairwise_map]
  refine hsettles.imp fun {earlier later} hpair => ?_
  rw [Move.passes_back, Move.passes_back]
  exact ⟨hpair.2, hpair.1⟩

/-- Moves in the order in which they are made. -/
def MovesSettle (moves : List Move) : Prop := moves.Pairwise fun earlier later =>
    ¬ earlier.Passes later.oldIndex ∧ ¬ later.Passes earlier.newIndex

theorem MovesSettle.reverse (hsettle : MovesSettle moves) : Settles moves.reverse := by
  rw [Settles, List.pairwise_reverse]
  exact hsettle

/-- A selected index while moves are reversed: below the bound and, with the
flag, not passed by the moves to come. -/
def Ready (bound : ℕ) (moves : List Move) (unitIndex : UInt16) : Prop :=
  bareIndex unitIndex < bound ∧ (32768 ≤ unitIndex.toNat → ∀ move ∈ moves,
      ¬ move.Passes (bareIndex unitIndex))

theorem Ready.sentIndex {move : Move} {unitIndex : UInt16}
    (hready : Ready bound (move :: moves) unitIndex)
    (hold : move.oldIndex < bound) (hnew : move.newIndex < bound)
    (hfits : move.oldIndex < 32768 ∧ move.newIndex < 32768)
    (hsettled : ∀ later ∈ moves, ¬ later.Passes move.oldIndex) :
    bareIndex (Selection.sentIndex (UInt16.ofNat move.oldIndex)
        (UInt16.ofNat move.newIndex) unitIndex) =
        move.shifted (bareIndex unitIndex) ∧
      Ready bound moves (Selection.sentIndex (UInt16.ofNat move.oldIndex)
        (UInt16.ofNat move.newIndex) unitIndex) := by
  have holdNat : (UInt16.ofNat move.oldIndex).toNat = move.oldIndex :=
    UInt16.toNat_ofNat_of_lt' (by rw [UInt16.size]; omega)
  have hnewNat : (UInt16.ofNat move.newIndex).toNat = move.newIndex :=
    UInt16.toNat_ofNat_of_lt' (by rw [UInt16.size]; omega)
  have hcases : bareIndex (Selection.sentIndex (UInt16.ofNat move.oldIndex)
        (UInt16.ofNat move.newIndex) unitIndex) =
        move.shifted (bareIndex unitIndex) ∧
      (32768 ≤ (Selection.sentIndex (UInt16.ofNat move.oldIndex)
        (UInt16.ofNat move.newIndex) unitIndex).toNat → ∀ later ∈ moves,
          ¬ later.Passes (move.shifted (bareIndex unitIndex))) := by
    by_cases hflag : 32768 ≤ unitIndex.toNat
    · -- The flag is above every index of the move.
      have hstays : Selection.sentIndex (UInt16.ofNat move.oldIndex)
          (UInt16.ofNat move.newIndex) unitIndex = unitIndex := by
        rw [Selection.sentIndex, if_neg, if_neg, if_neg]
        · rw [GE.ge, UInt16.lt_iff_toNat_lt, UInt16.le_iff_toNat_le, hnewNat, holdNat]
          omega
        · rw [GT.gt, UInt16.lt_iff_toNat_lt, UInt16.le_iff_toNat_le, hnewNat, holdNat]
          omega
        · rintro rfl
          omega
      have hpassed := hready.2 hflag
      rw [hstays, Move.shifted_of_not_passes (hpassed move List.mem_cons_self)]
      exact ⟨rfl, fun _ later hlater =>
        hpassed later (List.mem_cons_of_mem _ hlater)⟩
    · have hlt : unitIndex.toNat < 32768 := Nat.lt_of_not_le hflag
      rw [bareIndex_of_lt hlt, Selection.sentIndex, Move.shifted]
      by_cases hmoved : unitIndex = UInt16.ofNat move.newIndex
      · have hmovedNat : unitIndex.toNat = move.newIndex := by
          rw [hmoved, hnewNat]
        rw [if_pos hmoved, if_pos hmovedNat, bareIndex, toNat_or_moved hfits.1]
        refine ⟨by omega, fun _ => hsettled⟩
      · have hmovedNat : unitIndex.toNat ≠ move.newIndex := fun hsame =>
          hmoved (UInt16.toNat_inj.mp (hsame.trans hnewNat.symm))
        rw [if_neg hmoved, if_neg hmovedNat]
        simp only [GT.gt, GE.ge, UInt16.lt_iff_toNat_lt, UInt16.le_iff_toNat_le, hnewNat, holdNat]
        -- The indices that are shifted stay below the flag.
        split_ifs with hup hdown
        · have hnext : (unitIndex + 1).toNat = unitIndex.toNat + 1 := by
            rw [UInt16.toNat_add]
            exact Nat.mod_eq_of_lt (by
              change unitIndex.toNat + 1 < 2 ^ 16
              omega)
          rw [bareIndex, hnext]
          exact ⟨by omega, fun hge => by omega⟩
        · have hprevious : (unitIndex - 1).toNat = unitIndex.toNat - 1 := by
            apply UInt16.toNat_sub_of_le
            rw [UInt16.le_iff_toNat_le]
            change 1 ≤ unitIndex.toNat
            omega
          rw [bareIndex, hprevious]
          exact ⟨by omega, fun hge => by omega⟩
        · exact ⟨bareIndex_of_lt hlt, fun hge => absurd hge hflag⟩
  refine ⟨hcases.1, ?_, ?_⟩
  · rw [hcases.1]
    exact Move.shifted_lt hready.1 hold hnew
  · rw [hcases.1]
    exact hcases.2

/-- Where moves that are reversed one after the other send an index. -/
def sent (moves : List Move) (index : ℕ) : ℕ :=
  moves.foldl (fun index move => move.shifted index) index

theorem sent_inj (hsame : sent moves first = sent moves second) : first = second := by
  induction moves generalizing first second with
  | nil => exact hsame
  | cons move rest ih => exact move.shifted_inj (ih hsame)

theorem sent_lt (hindex : index < bound)
    (hbound : ∀ move ∈ moves, move.oldIndex < bound ∧ move.newIndex < bound) :
    sent moves index < bound := by
  induction moves generalizing index with
  | nil => exact hindex
  | cons move rest ih =>
      obtain ⟨hmove, hrest⟩ := List.forall_mem_cons.mp hbound
      exact ih (Move.shifted_lt hindex hmove.1 hmove.2) hrest

/-- The moves of a group, the unit of each one flagged until the end. -/
theorem map_foldl_reselect {selUnits : Selection} (hsettles : Settles moves)
    (hbound : ∀ move ∈ moves, move.oldIndex < bound ∧ move.newIndex < bound)
    (hfits : ∀ move ∈ moves, move.oldIndex < 32768 ∧ move.newIndex < 32768)
    (hready : ∀ index ∈ selUnits, Ready bound moves index) :
    ((moves.map Move.action).foldl UnitAction.reselect selUnits).map
        bareIndex = selUnits.map (sent moves ∘ bareIndex) := by
  induction moves generalizing selUnits with
  | nil => rfl
  | cons move rest ih =>
      obtain ⟨hfirst, hrest⟩ := List.pairwise_cons.mp hsettles
      obtain ⟨hmove, hboundRest⟩ := List.forall_mem_cons.mp hbound
      obtain ⟨hmoveFits, hfitsRest⟩ := List.forall_mem_cons.mp hfits
      have hsent (index : UInt16) (hindex : index ∈ selUnits) :=
        (hready index hindex).sentIndex hmove.1 hmove.2 hmoveFits
          fun later hlater => (hfirst later hlater).1
      have hreadyRest : ∀ index ∈ sendMove selUnits
          (UInt16.ofNat move.oldIndex) (UInt16.ofNat move.newIndex), Ready bound rest index := by
        intro index hindex
        obtain ⟨selected, hselected, rfl⟩ := List.mem_map.mp hindex
        exact (hsent selected hselected).2
      rw [List.map_cons, List.foldl_cons]
      change (List.map bareIndex (List.foldl UnitAction.reselect (sendMove selUnits _ _) _)) = _
      rw [ih hrest hboundRest hfitsRest hreadyRest, sendMove, List.map_map]
      exact List.map_congr_left fun index hindex =>
        congrArg (sent rest) (hsent index hindex).1

/-- A group of moves between its boundaries. -/
def moveGroup (moves : List Move) : List UnitAction :=
  .unitIndexMoveBoundary :: moves.map Move.action ++ [.unitIndexMoveBoundary]

theorem ready_of_lt {numUnits : ℕ} {selUnits : Selection} (hwithin : Within numUnits selUnits)
    (hselected : ∀ index ∈ selUnits, index.toNat < 32768)
    (moves : List Move) : ∀ index ∈ selUnits, Ready numUnits moves index := by
  intro index hindex
  have hlt := hselected index hindex
  refine ⟨?_, fun hflag => absurd hlt (Nat.not_lt.mpr hflag)⟩
  rw [bareIndex_of_lt hlt]
  exact hwithin.2 index hindex

section

variable {numUnits : ℕ} {selUnits : Selection} (hsettles : Settles moves)
  (hbound : ∀ move ∈ moves, move.oldIndex < numUnits ∧ move.newIndex < numUnits)
  (hfits : ∀ move ∈ moves, move.oldIndex < 32768 ∧ move.newIndex < 32768)
  (hwithin : Within numUnits selUnits)
  (hselected : ∀ index ∈ selUnits, index.toNat < 32768)

include hsettles hbound hfits hwithin hselected

/-- Every selected index is sent by the moves of a group. -/
theorem map_toNat_moveGroup :
    ((moveGroup moves).foldl UnitAction.reselect selUnits).map UInt16.toNat =
      selUnits.map (sent moves ∘ UInt16.toNat) := by
  have hready := ready_of_lt hwithin hselected moves
  have hbare : selUnits.map (sent moves ∘ bareIndex) = selUnits.map (sent moves ∘ UInt16.toNat) :=
    List.map_congr_left fun index hindex =>
      congrArg (sent moves) (bareIndex_of_lt (hselected index hindex))
  rw [moveGroup, List.cons_append, List.foldl_cons, List.foldl_append]
  change (finishMove (List.foldl _ (finishMove selUnits) _)).map _ = _
  rw [finishMove_of_lt hselected, finishMove, List.map_map, ← hbare,
    ← map_foldl_reselect hsettles hbound hfits hready]
  exact List.map_congr_left fun index _ => toNat_finishedIndex index

theorem within_moveGroup :
    Within numUnits ((moveGroup moves).foldl UnitAction.reselect selUnits) := by
  have hsent := map_toNat_moveGroup hsettles hbound hfits hwithin hselected
  constructor
  · apply List.Nodup.of_map UInt16.toNat
    rw [hsent]
    exact hwithin.1.map fun _ _ hsame => UInt16.toNat_inj.mp (sent_inj hsame)
  · intro index hindex
    have hmem : index.toNat ∈ _ := List.mem_map_of_mem hindex
    rw [hsent] at hmem
    obtain ⟨selected, hselected, hsame⟩ := List.mem_map.mp hmem
    rw [← hsame]
    exact sent_lt (hwithin.2 selected hselected) hbound

end

end Chkdraft.Editor
