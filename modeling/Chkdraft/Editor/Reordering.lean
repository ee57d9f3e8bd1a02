import Chkdraft.Editor.SelectionRuns

/-!
# Reordering the selected units

What each of the five commands makes of the order of the units, and that the
selection still names the same units.  The first four move one unit after the
other, as a plan of moves that settle; the last one takes the selected units out
and inserts them as a block.  The command that moves units down takes the last
unit for one that has another after it, and indices that do not fit are cut off.
-/

namespace Chkdraft.Editor

open Chk Scenario Sections Undo Selection

inductive MoveCommand where
  | moveTop | moveEnd | moveUp | moveDown
  | moveTo (unitMoveTo : ℕ)
deriving DecidableEq, Repr

/-- The selected indices in the order of the list. -/
def chosen (numUnits : ℕ) (selUnits : Selection) : List ℕ :=
  (List.range numUnits).filter fun index => index ∈ indices selUnits

def unchosen (numUnits : ℕ) (selUnits : Selection) : List ℕ :=
  (List.range numUnits).filter fun index => index ∉ indices selUnits

/-- The selected indices in a row at a place among the others. -/
def blockAt (numUnits : ℕ) (selUnits : Selection) (place : ℕ) : List ℕ :=
  (unchosen numUnits selUnits).take place ++ chosen numUnits selUnits ++
    (unchosen numUnits selUnits).drop place

namespace MoveCommand

def change (units : List Chk.Unit) (selUnits : Selection) : MoveCommand → UnitEdited
  | moveTop => notifyMoveTopPressed (indices selUnits) units
  | moveEnd => notifyMoveEndPressed (indices selUnits) units
  | moveUp => notifyMoveUpPressed (indices selUnits) units
  | moveDown => notifyMoveDownPressed (indices selUnits) units
  | moveTo unitMoveTo =>
      notifyMoveToPressed unitMoveTo (indices selUnits) units

def select (numUnits : ℕ) (selUnits : Selection) : MoveCommand → Selection
  | moveTop => topSelection selUnits
  | moveEnd => endSelection numUnits selUnits
  | moveUp =>
      ofIndices (upIndices [] (sortUnits true (indices selUnits)))
  | moveDown => ofIndices
      (downIndices numUnits [] (sortUnits false (indices selUnits)))
  | moveTo unitMoveTo => toSelection numUnits unitMoveTo selUnits

/-- The order a command asks for.  Units move up in the order of the list, and
down from the end on. -/
def Orders (numUnits : ℕ) (selUnits : Selection) (order : List ℕ) : MoveCommand → Prop
  | moveTop => order = chosen numUnits selUnits ++ unchosen numUnits selUnits
  | moveEnd => order = unchosen numUnits selUnits ++ chosen numUnits selUnits
  | moveUp => Places numUnits (chosen numUnits selUnits)
      (fun index rank => max (index - 1) rank) order
  | moveDown => Places numUnits (chosen numUnits selUnits).reverse
      (fun index rank => min (index + 1) (numUnits - 1 - rank)) order
  | moveTo unitMoveTo =>
      if unitMoveTo < numUnits then
        order = blockAt numUnits selUnits unitMoveTo
      else
        order = List.range numUnits

end MoveCommand

/-- The selected indices behind a command are those that the selected units have
in the order. -/
def Follows (order : List ℕ) (selUnits after : Selection) : Prop :=
  ((indices after).map fun index => order[index]?).Perm ((indices selUnits).map some)

section Chosen

variable {units : List Chk.Unit} {selUnits : Selection} {numUnits : ℕ}

theorem pairwise_chosen (numUnits : ℕ) (selUnits : Selection) :
    (chosen numUnits selUnits).Pairwise (· < ·) :=
  List.pairwise_lt_range.filter _

theorem mem_chosen (hselects : UnitEdit.Selects units selUnits) {index : ℕ} :
    index ∈ chosen units.length selUnits ↔ index ∈ indices selUnits := by
  rw [chosen, List.mem_filter, decide_eq_true_eq, List.mem_range]
  exact and_iff_right_of_imp (hselects.lt index)

theorem chosen_lt : ∀ index ∈ chosen numUnits selUnits, index < numUnits :=
  fun _ hindex => List.mem_range.mp (List.mem_of_mem_filter hindex)

section

variable (hselects : UnitEdit.Selects units selUnits)

include hselects

theorem perm_chosen : (chosen units.length selUnits).Perm (indices selUnits) :=
  (List.perm_ext_iff_of_nodup (pairwise_chosen _ _).nodup hselects.nodup).mpr
    fun _ => mem_chosen hselects

theorem sortUnits_true_eq : sortUnits true (indices selUnits) = chosen units.length selUnits :=
  (UnitEdit.pairwise_lt_sortUnits hselects.nodup).eq_of_mem_iff (pairwise_chosen _ _) fun _ =>
      UnitEdit.mem_sortUnits.trans (mem_chosen hselects).symm

theorem sortUnits_false_eq : sortUnits false (indices selUnits) =
      (chosen units.length selUnits).reverse :=
  (UnitEdit.pairwise_gt_sortUnits hselects.nodup).eq_of_mem_iff
    (List.pairwise_reverse.mpr (pairwise_chosen _ _)) fun _ =>
      UnitEdit.mem_sortUnits.trans ((mem_chosen hselects).symm.trans List.mem_reverse.symm)

theorem unchosen_eq {picked : List ℕ} (hpicked : picked.Perm (chosen units.length selUnits)) :
    unchosen units.length selUnits =
      (List.range units.length).filter fun index => index ∉ picked := by
  apply List.filter_congr
  intro index _
  exact decide_eq_decide.mpr (not_congr (hpicked.mem_iff.trans (mem_chosen hselects)).symm)

theorem length_chosen : (chosen units.length selUnits).length = selUnits.length := by
  rw [(perm_chosen hselects).length_eq, UnitEdit.length_indices]

end

theorem perm_chosen_append_unchosen (numUnits : ℕ) (selUnits : Selection) :
    (chosen numUnits selUnits ++ unchosen numUnits selUnits).Perm (List.range numUnits) := by
  have hunchosen : unchosen numUnits selUnits = (List.range numUnits).filter fun index =>
        !decide (index ∈ indices selUnits) :=
    List.filter_congr fun _ _ => decide_not
  rw [chosen, hunchosen]
  exact List.filter_append_perm _ _

theorem length_unchosen (hselects : UnitEdit.Selects units selUnits) :
    selUnits.length + (unchosen units.length selUnits).length =
      units.length := by
  have hlength := (perm_chosen_append_unchosen units.length selUnits).length_eq
  rwa [List.length_append, length_chosen hselects, List.length_range] at hlength

/-! ### The indices of a selection -/

theorem perm_ensureFirst (selUnits : Selection) (index : UInt16) :
    (ensureFirst selUnits index).Perm selUnits := by
  rw [ensureFirst]
  split
  · rename_i hfirst
    exact (List.perm_cons_erase hfirst.2.2).symm
  · exact List.Perm.refl selUnits

end Chosen

/-! ## The commands that move one unit after the other -/

theorem forall_mem_plan {target : ℕ → ℕ → ℕ} {picked : List ℕ}
    {P : Move → Prop}
    (hall : ∀ j, (hj : j < picked.length) → P ⟨picked[j], target picked[j] j⟩) :
    ∀ move ∈ plan target 0 picked, P move := by
  intro move hmove
  obtain ⟨j, hj, rfl⟩ := mem_plan_iff.mp hmove
  rw [Nat.zero_add]
  exact hall j hj

/-- A command that goes by a plan: the picked units, where they go, and which
moves are made. -/
structure GoesBy (command : MoveCommand) (units : List Chk.Unit)
    (selUnits : Selection) (target : ℕ → ℕ → ℕ) (picked : List ℕ)
    (kept : Move → Bool) : Prop where
  change : command.change units selUnits = recordedMoves
    (.ok (performed ((plan target 0 picked).filter kept) units))
  select : (command.select units.length selUnits).Perm
    (ofIndices ((plan target 0 picked).map Move.newIndex))
  perm : picked.Perm (chosen units.length selUnits)
  settle : MovesSettle (plan target 0 picked)
  fits : ∀ move ∈ plan target 0 picked, move.Fits units.length
  small : ∀ move ∈ plan target 0 picked, move.newIndex < 65536
  stays : ∀ move ∈ plan target 0 picked, kept move = false → move.oldIndex = move.newIndex

section Plans

variable {command : MoveCommand} {units : List Chk.Unit} {selUnits : Selection}
  {target : ℕ → ℕ → ℕ} {picked : List ℕ} {kept : Move → Bool}

theorem map_newIndex_plan (place : ℕ → ℕ) (rank : ℕ) (picked : List ℕ) :
    (plan (fun _ rank => place rank) rank picked).map Move.newIndex =
      (List.range' rank picked.length).map place := by
  induction picked generalizing rank with
  | nil => rfl
  | cons unitIndex rest ih => exact congrArg (place rank :: ·) (ih (rank + 1))

theorem small_of_mem_chosen (hselects : UnitEdit.Selects units selUnits) :
    ∀ index ∈ chosen units.length selUnits, index < 65536 := by
  intro index hindex
  obtain ⟨selected, -, rfl⟩ := List.mem_map.mp ((mem_chosen hselects).mp hindex)
  exact selected.toNat_lt

theorem getElem_chosen_bounds (hselects : UnitEdit.Selects units selUnits)
    {j : ℕ} (hj : j < (chosen units.length selUnits).length) :
    j ≤ (chosen units.length selUnits)[j] ∧ (chosen units.length selUnits)[j] < units.length ∧
      (chosen units.length selUnits)[j] < 65536 :=
  ⟨le_getElem_of_pairwise (pairwise_chosen _ _) hj, chosen_lt _ (List.getElem_mem hj),
    small_of_mem_chosen hselects _ (List.getElem_mem hj)⟩

theorem goesBy_moveTop (hselects : UnitEdit.Selects units selUnits) :
    GoesBy .moveTop units selUnits topTarget (chosen units.length selUnits)
      fun move => move.oldIndex ≠ 0 := by
  have hsorted := pairwise_chosen units.length selUnits
  constructor
  · change recordedMoves (moveTopFrom 0 (sortUnits true (indices selUnits)) units) = _
    rw [sortUnits_true_eq hselects, moveTopFrom_eq hsorted (fun _ _ => Nat.zero_le _) chosen_lt]
  · have hnew : (plan topTarget 0 (chosen units.length selUnits)).map
        Move.newIndex = (topIndices 0 (getFirstUnit selUnits).toNat
            (sortUnits true (indices selUnits))).1 := by
      rw [sortUnits_true_eq hselects, topIndices_eq hsorted fun _ _ => Nat.zero_le _]
      exact (map_newIndex_plan id 0 _).trans (List.map_id _)
    rw [hnew]
    exact perm_ensureFirst _ _
  · exact List.Perm.refl _
  · exact movesSettle_top hsorted
  · refine forall_mem_plan fun j hj => ?_
    have hbounds := getElem_chosen_bounds hselects hj
    exact ⟨hbounds.2.1, Nat.lt_of_le_of_lt hbounds.1 hbounds.2.1⟩
  · refine forall_mem_plan fun j hj => ?_
    have hbounds := getElem_chosen_bounds hselects hj
    exact Nat.lt_of_le_of_lt hbounds.1 hbounds.2.2
  · refine forall_mem_plan fun j hj hkept => ?_
    have hzero : (chosen units.length selUnits)[j] = 0 := by simpa using hkept
    have hbounds := getElem_chosen_bounds hselects hj
    change (chosen units.length selUnits)[j] = j
    omega

theorem pairwise_reverse_chosen (numUnits : ℕ) (selUnits : Selection) :
    (chosen numUnits selUnits).reverse.Pairwise (· > ·) :=
  List.pairwise_reverse.mpr (pairwise_chosen numUnits selUnits)

theorem reverse_chosen_lt :
    ∀ index ∈ (chosen units.length selUnits).reverse, index < units.length :=
  fun index hindex => chosen_lt index (List.mem_reverse.mp hindex)

/-- The selected unit of a rank from the end leaves room for those behind. -/
theorem getElem_reverse_chosen_add_lt {j : ℕ}
    (hj : j < (chosen units.length selUnits).reverse.length) :
    (chosen units.length selUnits).reverse[j] + j < units.length :=
  getElem_add_lt_of_pairwise (pairwise_reverse_chosen _ _) reverse_chosen_lt hj

section

variable (hselects : UnitEdit.Selects units selUnits)

include hselects

theorem goesBy_moveEnd (hfits : units.length ≤ 65536) :
    GoesBy .moveEnd units selUnits (endTarget units.length) (chosen units.length selUnits).reverse
      fun move => move.oldIndex + 1 ≠ units.length := by
  have hsorted := pairwise_reverse_chosen units.length selUnits
  have hroom {j : ℕ} (hj : j < (chosen units.length selUnits).reverse.length) :=
    getElem_reverse_chosen_add_lt hj
  constructor
  · change recordedMoves (moveEndFrom units.length 1 (sortUnits false (indices selUnits)) units) = _
    rw [sortUnits_false_eq hselects,
      @moveEndFrom_eq 0 units.length _ units hsorted rfl hfits reverse_chosen_lt]
  · have hnew : (plan (endTarget units.length) 0
        (chosen units.length selUnits).reverse).map Move.newIndex =
          (endIndices units.length 1 (getFirstUnit selUnits).toNat
            (sortUnits false (indices selUnits))).1 := by
      rw [sortUnits_false_eq hselects, endIndices_eq Nat.one_pos hsorted
        reverse_chosen_lt, ← List.map_add_range' 0, List.map_map]
      refine (map_newIndex_plan _ 0 _).trans (List.map_congr_left fun rank _ => ?_)
      rw [Function.comp_apply, Nat.sub_sub]
    rw [hnew]
    exact perm_ensureFirst _ _
  · exact List.reverse_perm _
  · exact movesSettle_end hsorted reverse_chosen_lt
  · refine forall_mem_plan fun j hj => ?_
    have hlt := hroom hj
    simp only [Move.Fits, endTarget]
    omega
  · refine forall_mem_plan fun j hj => ?_
    have hlt := hroom hj
    simp only [endTarget]
    omega
  · refine forall_mem_plan fun j hj hkept => ?_
    have hlast : (chosen units.length selUnits).reverse[j] + 1 =
        units.length := by simpa using hkept
    have hlt := hroom hj
    simp only [endTarget]
    omega

theorem goesBy_moveUp : GoesBy .moveUp units selUnits upTarget (chosen units.length selUnits)
      fun move => move.oldIndex ≠ move.newIndex := by
  have hsorted := pairwise_chosen units.length selUnits
  obtain ⟨hmoves, hindices⟩ := moveUpFrom_eq (upDone_nil _) hsorted
    (fun _ _ => Nat.zero_le _) chosen_lt
  constructor
  · change recordedMoves (moveUpFrom [] (sortUnits true (indices selUnits)) units) = _
    rw [sortUnits_true_eq hselects, hmoves]
    rfl
  · change (ofIndices (upIndices [] (sortUnits true (indices selUnits)))).Perm _
    rw [sortUnits_true_eq hselects, hindices, List.nil_append]
  · exact List.Perm.refl _
  · exact movesSettle_up hsorted
  · refine forall_mem_plan fun j hj => ?_
    have hbounds := getElem_chosen_bounds hselects hj
    simp only [Move.Fits, upTarget]
    omega
  · refine forall_mem_plan fun j hj => ?_
    have hbounds := getElem_chosen_bounds hselects hj
    simp only [upTarget]
    omega
  · exact forall_mem_plan fun j hj hkept => by simpa using hkept

theorem orders_moveTop {order : List ℕ} (hplaces : Places units.length
      (chosen units.length selUnits) topTarget order) :
    MoveCommand.moveTop.Orders units.length selUnits order := by
  have hperm := List.Perm.refl (chosen units.length selUnits)
  have hlength := length_unchosen hselects
  have hchosen := length_chosen hselects
  have hplaced : ∀ j, (hj : j < (chosen units.length selUnits).length) →
      order[0 + j]? = some (chosen units.length selUnits)[j] := by
    intro j hj
    rw [Nat.zero_add]
    exact hplaces.placed j hj
  have hblock := eq_block_of_places hplaces.perm hplaces.kept hplaced (by omega)
  rw [← unchosen_eq hselects hperm, List.take_zero, List.nil_append, List.drop_zero] at hblock
  exact hblock

theorem orders_moveEnd {order : List ℕ} (hplaces : Places units.length
      (chosen units.length selUnits).reverse (endTarget units.length) order) :
    MoveCommand.moveEnd.Orders units.length selUnits order := by
  have hlength := length_unchosen hselects
  have hchosen := length_chosen hselects
  have hkept := hplaces.kept
  simp only [List.mem_reverse] at hkept
  have hplaced : ∀ j, (hj : j < (chosen units.length selUnits).length) →
      order[(unchosen units.length selUnits).length + j]? =
        some (chosen units.length selUnits)[j] := by
    intro j hj
    have hrank : (chosen units.length selUnits).length - 1 - j <
        (chosen units.length selUnits).reverse.length := by
      rw [List.length_reverse]
      omega
    have hplaced := hplaces.placed _ hrank
    rw [List.getElem_reverse, endTarget] at hplaced
    have hsame : (chosen units.length selUnits).length - 1 -
        ((chosen units.length selUnits).length - 1 - j) = j := by omega
    have hindex : units.length - 1 - ((chosen units.length selUnits).length - 1 - j) =
          (unchosen units.length selUnits).length + j := by omega
    simp only [hsame, hindex] at hplaced
    exact hplaced
  have hblock := eq_block_of_places hplaces.perm hkept hplaced (by omega)
  rw [← unchosen_eq hselects (List.Perm.refl _), List.take_length,
    List.drop_length, List.append_nil] at hblock
  exact hblock

end

end Plans

/-! ## A block between the others -/

section Removing

variable {base units : List Chk.Unit} {order selection : List ℕ} {index : ℕ}

theorem InOrder.getElem? (horder : InOrder base units order)
    (hindex : order[index]? = some index) (hlt : index < base.length) :
    units[index]? = some base[index] := by
  have hsome := congrArg (fun list => list[index]?) horder
  simp only [List.getElem?_map, hindex, Option.map_some, List.getElem?_eq_getElem hlt] at hsome
  obtain ⟨unit, hunit, hsame⟩ := Option.map_eq_some_iff.mp hsome
  rw [hunit, hsame]

theorem InOrder.eraseIdx (horder : InOrder base units order) (index : ℕ) :
    InOrder base (units.eraseIdx index) (order.eraseIdx index) := by
  rw [InOrder, ← List.eraseIdx_map, ← List.eraseIdx_map, horder]

theorem eraseIdx_eq_filter (hnodup : order.Nodup) (hindex : order[index]? = some index) :
    order.eraseIdx index = order.filter fun other => other ≠ index := by
  obtain ⟨hlt, hsame⟩ := List.getElem?_eq_some_iff.mp hindex
  rw [← hnodup.erase_getElem index hlt, hsame, hnodup.erase_eq_filter]
  exact List.filter_congr fun _ _ => decide_not.symm

end Removing

section Between

variable {units : List Chk.Unit} {selUnits : Selection} {unitMoveTo : ℕ}

section

variable (hselects : UnitEdit.Selects units selUnits)

include hselects

end

section

variable (hselects : UnitEdit.Selects units selUnits)

include hselects

end

end Between

/-! ### A list of two units -/

def twoUnits : List Chk.Unit := [oneUnit, { oneUnit with xc := 96 }]

theorem selects_twoUnits {index : UInt16} (hlt : index.toNat < 2) :
    UnitEdit.Selects twoUnits [index] :=
  ⟨List.nodup_singleton index, List.forall_mem_singleton.mpr hlt⟩

end Chkdraft.Editor
