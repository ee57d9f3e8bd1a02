import Chkdraft.Editor.ListMoves

/-!
# The order of the units

The commands that reorder units move the selected ones, each to a place that
depends on its index and on its rank among them.
-/

namespace Chkdraft.Editor

open Chk Scenario Sections Undo Selection

variable {j unitIndex : ℕ} {move : Move} {moves : List Move} {rest : List ℕ}

/-- The moves of selected units, the first of which has the given rank. -/
def plan (target : ℕ → ℕ → ℕ) : ℕ → List ℕ → List Move
  | _, [] => []
  | rank, unitIndex :: rest =>
      ⟨unitIndex, target unitIndex rank⟩ :: plan target (rank + 1) rest

def topTarget (_unitIndex rank : ℕ) : ℕ := rank

def endTarget (numUnits _unitIndex rank : ℕ) : ℕ := numUnits - 1 - rank

def upTarget (unitIndex rank : ℕ) : ℕ := max (unitIndex - 1) rank

def downTarget (numUnits unitIndex rank : ℕ) : ℕ := min (unitIndex + 1) (numUnits - 1 - rank)

section Plan

variable {target : ℕ → ℕ → ℕ} {rank : ℕ} {selection : List ℕ}

theorem length_plan (target : ℕ → ℕ → ℕ) (rank : ℕ) (selection : List ℕ) :
    (plan target rank selection).length = selection.length := by
  induction selection generalizing rank with
  | nil => rfl
  | cons unitIndex rest ih => exact congrArg (· + 1) (ih (rank + 1))

theorem getElem_plan (hj : j < (plan target rank selection).length) (hlt : j < selection.length) :
    (plan target rank selection)[j] = ⟨selection[j], target selection[j] (rank + j)⟩ := by
  induction selection generalizing rank j with
  | nil => nomatch hlt
  | cons unitIndex rest ih =>
      cases j with
      | zero => rfl
      | succ j =>
          have hrest := @ih j (rank + 1) (Nat.lt_of_succ_lt_succ hj) (Nat.lt_of_succ_lt_succ hlt)
          rw [Nat.succ_add_eq_add_succ] at hrest
          exact hrest

theorem mem_plan_iff : move ∈ plan target rank selection ↔ ∃ j, ∃ hj : j < selection.length,
        move = ⟨selection[j], target selection[j] (rank + j)⟩ := by
  rw [List.mem_iff_getElem]
  constructor
  · rintro ⟨j, hj, rfl⟩
    have hlt := length_plan target rank selection ▸ hj
    exact ⟨j, hlt, getElem_plan hj hlt⟩
  · rintro ⟨j, hj, rfl⟩
    have hlt := (length_plan target rank selection).symm ▸ hj
    exact ⟨j, hlt, getElem_plan hlt hj⟩

theorem movesSettle_plan
    (hsettle : ∀ i j, (hi : i < selection.length) → (hj : j < selection.length) → i < j →
      ¬ Move.Passes ⟨selection[i], target selection[i] (rank + i)⟩ selection[j] ∧
        ¬ Move.Passes ⟨selection[j], target selection[j] (rank + j)⟩
          (target selection[i] (rank + i))) :
    MovesSettle (plan target rank selection) := by
  rw [MovesSettle, List.pairwise_iff_getElem]
  intro i j hi hj hlt
  have hiLt := length_plan target rank selection ▸ hi
  have hjLt := length_plan target rank selection ▸ hj
  rw [getElem_plan hi hiLt, getElem_plan hj hjLt]
  exact hsettle i j hiLt hjLt hlt

end Plan

section Sorted

variable {selection : List ℕ} {numUnits : ℕ}

theorem le_getElem_of_pairwise (hsorted : selection.Pairwise (· < ·))
    (hj : j < selection.length) : j ≤ selection[j] := by
  induction j with
  | zero => exact Nat.zero_le _
  | succ j ih =>
      have hlt := List.pairwise_iff_getElem.mp hsorted j (j + 1)
        (Nat.lt_of_succ_lt hj) hj (Nat.lt_succ_self j)
      exact Nat.lt_of_le_of_lt (ih (Nat.lt_of_succ_lt hj)) hlt

/-- Indices in descending order leave room for those in front of them. -/
theorem getElem_add_lt_of_pairwise (hsorted : selection.Pairwise (· > ·))
    (hselection : ∀ unitIndex ∈ selection, unitIndex < numUnits)
    (hj : j < selection.length) : selection[j] + j < numUnits := by
  induction j with
  | zero => exact hselection _ (List.getElem_mem hj)
  | succ j ih =>
      have hgt := List.pairwise_iff_getElem.mp hsorted j (j + 1)
        (Nat.lt_of_succ_lt hj) hj (Nat.lt_succ_self j)
      have hroom := ih (Nat.lt_of_succ_lt hj)
      omega

theorem movesSettle_top (hsorted : selection.Pairwise (· < ·)) :
    MovesSettle (plan topTarget 0 selection) := by
  apply movesSettle_plan
  intro i j hi hj hlt
  have hindex := List.pairwise_iff_getElem.mp hsorted i j hi hj hlt
  have hle := le_getElem_of_pairwise hsorted hi
  simp only [Move.Passes, topTarget]
  omega

theorem movesSettle_end (hsorted : selection.Pairwise (· > ·))
    (hselection : ∀ unitIndex ∈ selection, unitIndex < numUnits) :
    MovesSettle (plan (endTarget numUnits) 0 selection) := by
  apply movesSettle_plan
  intro i j hi hj hlt
  have hindex := List.pairwise_iff_getElem.mp hsorted i j hi hj hlt
  have hroom := getElem_add_lt_of_pairwise hsorted hselection hi
  have hroomLater := getElem_add_lt_of_pairwise hsorted hselection hj
  simp only [Move.Passes, endTarget]
  omega

theorem movesSettle_up (hsorted : selection.Pairwise (· < ·)) :
    MovesSettle (plan upTarget 0 selection) := by
  apply movesSettle_plan
  intro i j hi hj hlt
  have hindex := List.pairwise_iff_getElem.mp hsorted i j hi hj hlt
  have hle := le_getElem_of_pairwise hsorted hi
  simp only [Move.Passes, upTarget]
  omega

end Sorted

/-! ## What the loops do -/

/-- The units behind some moves, with what is recorded. -/
def performed (moves : List Move) (units : List Chk.Unit) : List Chk.Unit × List UnitAction :=
  (applyMoves moves units, moves.map Move.action)

/-- The moves of a plan that go somewhere. -/
def steps (moves : List Move) : List Move := moves.filter fun move => move.oldIndex ≠ move.newIndex

theorem steps_cons_of_ne (hmove : move.oldIndex ≠ move.newIndex) :
    steps (move :: moves) = move :: steps moves :=
  List.filter_cons_of_pos (by simpa using hmove)

theorem steps_cons_of_eq (hmove : move.oldIndex = move.newIndex) :
    steps (move :: moves) = steps moves :=
  List.filter_cons_of_neg (by simpa using hmove)

theorem moved_eq_apply {units : List Chk.Unit} {newIndex : ℕ}
    (hold : unitIndex < units.length) (hnew : newIndex < units.length) :
    moved units unitIndex newIndex units[unitIndex] = Move.apply ⟨unitIndex, newIndex⟩ units := by
  rw [moved_eq hold hnew, Move.apply_of_getElem? (List.getElem?_eq_getElem hold)]

section Loops

variable {rank numUnits : ℕ} {selection done : List ℕ} {units : List Chk.Unit}

theorem moveTopFrom_eq (hsorted : selection.Pairwise (· < ·))
    (hle : ∀ unitIndex ∈ selection, rank ≤ unitIndex)
    (hselection : ∀ unitIndex ∈ selection, unitIndex < units.length) :
    moveTopFrom rank selection units =
      .ok (performed ((plan topTarget rank selection).filter fun move =>
        move.oldIndex ≠ 0) units) := by
  induction selection generalizing rank units with
  | nil => rfl
  | cons unitIndex rest ih =>
      obtain ⟨hfirst, hrestSorted⟩ := List.pairwise_cons.mp hsorted
      obtain ⟨hrank, -⟩ := List.forall_mem_cons.mp hle
      obtain ⟨hold, hrestLt⟩ := List.forall_mem_cons.mp hselection
      have hnext : ∀ other ∈ rest, rank + 1 ≤ other := fun other hother =>
        Nat.lt_of_le_of_lt hrank (hfirst other hother)
      rw [moveTopFrom, plan]
      split
      · rename_i hmove
        have hnew : rank < units.length := Nat.lt_of_le_of_lt hrank hold
        have hfits : Move.Fits ⟨unitIndex, rank⟩ units.length := ⟨hold, hnew⟩
        have hmoved := moved_eq_apply hold hnew
        rw [moved] at hmoved
        rw [getUnit_of_lt hold, List.filter_cons_of_pos (by simpa using hmove)]
        change (moveTopFrom (rank + 1) rest (insertUnit _ _ _) >>= _) = _
        rw [hmoved, ih hrestSorted hnext (by
          rwa [Move.length_apply hfits])]
        rfl
      · rename_i hstay
        rw [List.filter_cons_of_neg (by simpa using hstay)]
        exact ih hrestSorted hnext hrestLt

/-- There is room for one more behind the indices that are left. -/
theorem room_next (hfirst : ∀ other ∈ rest, unitIndex > other)
    (hrank : unitIndex + rank < numUnits) :
    ∀ other ∈ rest, other + (rank + 1) < numUnits := by
  intro other hother
  have hgt := hfirst other hother
  omega

theorem moveEndFrom_eq (hsorted : selection.Pairwise (· > ·))
    (hlength : units.length = numUnits) (hfits : numUnits ≤ 65536)
    (hroom : ∀ unitIndex ∈ selection, unitIndex + rank < numUnits) :
    moveEndFrom numUnits (rank + 1) selection units =
      .ok (performed ((plan (endTarget numUnits) rank selection).filter
        fun move => move.oldIndex + 1 ≠ numUnits) units) := by
  induction selection generalizing rank units with
  | nil => rfl
  | cons unitIndex rest ih =>
      obtain ⟨hfirst, hrestSorted⟩ := List.pairwise_cons.mp hsorted
      obtain ⟨hrank, -⟩ := List.forall_mem_cons.mp hroom
      have hnext := room_next hfirst hrank
      have htarget : numUnits - (rank + 1) = endTarget numUnits unitIndex rank := by
        rw [endTarget, Nat.sub_sub, Nat.add_comm]
      rw [moveEndFrom, plan]
      split
      · rename_i hmove
        have hold : unitIndex < units.length := by omega
        have hnew : endTarget numUnits unitIndex rank < units.length := by
          rw [endTarget]
          omega
        have hmoveFits : Move.Fits ⟨unitIndex, endTarget numUnits unitIndex rank⟩ units.length :=
            ⟨hold, hnew⟩
        have hmoved := moved_eq_apply hold hnew
        rw [moved] at hmoved
        rw [getUnit_of_lt hold, List.filter_cons_of_pos (by simpa using hmove),
          htarget, u16_of_lt (by omega)]
        change (moveEndFrom numUnits (rank + 1 + 1) rest (insertUnit _ _ _) >>= _) = _
        rw [hmoved, ih hrestSorted ((Move.length_apply hmoveFits).trans hlength) hnext]
        rfl
      · rename_i hstay
        rw [List.filter_cons_of_neg (by simpa using hstay)]
        exact ih hrestSorted hlength hnext

/-- What the indices moved up so far leave free. -/
structure UpDone (rank : ℕ) (done selection : List ℕ) : Prop where
  free : ∀ index ∈ done, ∀ unitIndex ∈ selection, rank < unitIndex → index + 1 < unitIndex
  taken : ∀ unitIndex ∈ selection, unitIndex = rank → 0 < rank → rank - 1 ∈ done

theorem upDone_nil (selection : List ℕ) : UpDone 0 [] selection where
  free _ hindex := nomatch hindex
  taken _ _ _ hpos := absurd hpos (Nat.lt_irrefl 0)

section

variable (hdone : UpDone rank done (unitIndex :: rest))
  (hsorted : (unitIndex :: rest).Pairwise (· < ·)) (hle : rank ≤ unitIndex)

include hdone hsorted hle

theorem UpDone.next : UpDone (rank + 1) (done ++ [upTarget unitIndex rank]) rest := by
  obtain ⟨hfirst, -⟩ := List.pairwise_cons.mp hsorted
  constructor
  · intro index hindex other hother hlt
    have hgt := hfirst other hother
    rcases List.mem_append.mp hindex with hindex | hindex
    · exact hdone.free index hindex other (List.mem_cons_of_mem _ hother) (by omega)
    · rw [List.mem_singleton.mp hindex, upTarget]
      omega
  · intro other hother hsame _
    have hgt := hfirst other hother
    have htarget : rank = upTarget unitIndex rank := by
      rw [upTarget]
      omega
    apply List.mem_append_right
    rw [Nat.add_sub_cancel, List.mem_singleton]
    exact htarget

theorem UpDone.goesUp_iff :
    (0 < unitIndex ∧ unitIndex - 1 ∉ done ++ unitIndex :: rest) ↔ rank < unitIndex := by
  obtain ⟨hfirst, -⟩ := List.pairwise_cons.mp hsorted
  constructor
  · rintro ⟨hpos, hfree⟩
    by_contra hnot
    obtain rfl : unitIndex = rank := by omega
    exact hfree (List.mem_append_left _ (hdone.taken unitIndex List.mem_cons_self rfl hpos))
  · intro hlt
    refine ⟨by omega, fun hmem => ?_⟩
    rcases List.mem_append.mp hmem with hmem | hmem
    · have hfree := hdone.free _ hmem unitIndex List.mem_cons_self hlt
      omega
    · rcases List.mem_cons.mp hmem with hsame | hmem
      · omega
      · have hgt := hfirst _ hmem
        omega

end

theorem moveUpFrom_eq (hdone : UpDone rank done selection) (hsorted : selection.Pairwise (· < ·))
    (hle : ∀ unitIndex ∈ selection, rank ≤ unitIndex)
    (hselection : ∀ unitIndex ∈ selection, unitIndex < units.length) :
    moveUpFrom done selection units = .ok (performed (steps (plan upTarget rank selection)) units) ∧
      upIndices done selection = done ++ (plan upTarget rank selection).map Move.newIndex := by
  induction selection generalizing rank done units with
  | nil => exact ⟨rfl, (List.append_nil done).symm⟩
  | cons unitIndex rest ih =>
      obtain ⟨hfirst, hrestSorted⟩ := List.pairwise_cons.mp hsorted
      obtain ⟨hrank, -⟩ := List.forall_mem_cons.mp hle
      obtain ⟨hold, hrestLt⟩ := List.forall_mem_cons.mp hselection
      have hnext : ∀ other ∈ rest, rank + 1 ≤ other := fun other hother =>
        Nat.lt_of_le_of_lt hrank (hfirst other hother)
      have hdoneNext := hdone.next hsorted hrank
      rw [moveUpFrom, upIndices, plan, List.map_cons]
      by_cases hlt : rank < unitIndex
      · have hmoves := (hdone.goesUp_iff hsorted hrank).mpr hlt
        have htarget : unitIndex - 1 = upTarget unitIndex rank := by
          rw [upTarget]
          omega
        have hnew : upTarget unitIndex rank < units.length := by omega
        have hfits : Move.Fits ⟨unitIndex, upTarget unitIndex rank⟩
            units.length := ⟨hold, hnew⟩
        have hmoveUnit : moveUnit units unitIndex (unitIndex - 1) =
            .ok (Move.apply ⟨unitIndex, upTarget unitIndex rank⟩ units) := by
          obtain ⟨previous, rfl⟩ : ∃ previous, unitIndex = previous + 1 := ⟨unitIndex - 1, by omega⟩
          rw [Nat.add_sub_cancel] at htarget
          rw [Nat.add_sub_cancel, moveUnit, moveItem_pred hold, ← htarget,
            Move.apply_of_getElem? (List.getElem?_eq_getElem hold)]
        have hne : unitIndex ≠ upTarget unitIndex rank := by omega
        rw [if_pos hmoves, if_pos hmoves, hmoveUnit, htarget, steps_cons_of_ne hne]
        obtain ⟨hrest, hindices⟩ := @ih (rank + 1) _
          (Move.apply ⟨unitIndex, upTarget unitIndex rank⟩ units) hdoneNext
          hrestSorted hnext (by rwa [Move.length_apply hfits])
        refine ⟨?_, hindices.trans (List.append_cons _ _ _).symm⟩
        change (moveUpFrom _ rest _ >>= _) = _
        rw [hrest]
        rfl
      · have hstays : ¬ (0 < unitIndex ∧ unitIndex - 1 ∉ done ++ unitIndex :: rest) := fun h =>
          hlt ((hdone.goesUp_iff hsorted hrank).mp h)
        have htarget : unitIndex = upTarget unitIndex rank := by
          rw [upTarget]
          omega
        rw [← htarget] at hdoneNext ⊢
        rw [if_neg hstays, if_neg hstays, steps_cons_of_eq rfl]
        obtain ⟨hrest, hindices⟩ := ih hdoneNext hrestSorted hnext hrestLt
        exact ⟨hrest, hindices.trans (List.append_cons _ _ _).symm⟩

/-- What the indices moved down so far leave free. -/
structure DownDone (numUnits rank : ℕ) (done selection : List ℕ) : Prop where
  fits : ∀ unitIndex ∈ selection, unitIndex < 65536
  free : ∀ index ∈ done, ∀ unitIndex ∈ selection,
    unitIndex + rank + 1 < numUnits → unitIndex + 1 < index
  taken : ∀ unitIndex ∈ selection, unitIndex + rank + 1 = numUnits →
    u16 (unitIndex + 1) ∈ done ++ selection
  small : ∀ unitIndex ∈ selection, unitIndex + rank + 1 < numUnits → unitIndex + 1 < 65536

section

variable (hdone : DownDone numUnits rank done (unitIndex :: rest))
  (hsorted : (unitIndex :: rest).Pairwise (· > ·)) (hroom : unitIndex + rank < numUnits)

include hdone hsorted hroom

theorem DownDone.next :
    DownDone numUnits (rank + 1) (done ++ [downTarget numUnits unitIndex rank]) rest := by
  obtain ⟨hfirst, -⟩ := List.pairwise_cons.mp hsorted
  have hfits := hdone.fits unitIndex List.mem_cons_self
  constructor
  · exact fun other hother => hdone.fits other (List.mem_cons_of_mem _ hother)
  · intro index hindex other hother hlt
    have hgt := hfirst other hother
    rcases List.mem_append.mp hindex with hindex | hindex
    · exact hdone.free index hindex other (List.mem_cons_of_mem _ hother) (by omega)
    · rw [List.mem_singleton.mp hindex, downTarget]
      omega
  · intro other hother hlast
    have hgt := hfirst other hother
    have htarget : u16 (other + 1) = downTarget numUnits unitIndex rank := by
      rw [u16_of_lt (by omega), downTarget]
      omega
    apply List.mem_append_left
    apply List.mem_append_right
    rw [List.mem_singleton]
    exact htarget
  · intro other hother _
    have hgt := hfirst other hother
    omega

end

end Loops

/-- An order of the units, by the indices they had: the picked ones are at their
targets, and the others keep their order. -/
structure Places (numUnits : ℕ) (picked : List ℕ) (target : ℕ → ℕ → ℕ) (order : List ℕ) : Prop where
  perm : order.Perm (List.range numUnits)
  placed : ∀ j, (hj : j < picked.length) → order[target picked[j] j]? = some picked[j]
  kept : (order.filter fun index => index ∉ picked) =
    (List.range numUnits).filter fun index => index ∉ picked

def InOrder (units after : List Chk.Unit) (order : List ℕ) : Prop :=
  after.map some = order.map fun index => units[index]?

section Orders

variable {target : ℕ → ℕ → ℕ} {picked : List ℕ} {numUnits : ℕ}
  {kept : Move → Bool}

theorem inOrder_applyMoves {units : List Chk.Unit}
    (hfits : ∀ move ∈ moves, move.Fits units.length) :
    InOrder units (applyMoves moves units) (applyMoves moves (List.range units.length)) := by
  have hfitsRange : ∀ move ∈ moves, move.Fits (List.range units.length).length := by
    rwa [List.length_range]
  apply List.ext_getElem?
  intro index
  rw [List.getElem?_map, List.getElem?_map, getElem?_applyMoves hfits,
    getElem?_applyMoves hfitsRange]
  by_cases hlt : origin moves index < units.length
  · rw [List.getElem?_range hlt, List.getElem?_eq_getElem hlt]
    exact congrArg some (List.getElem?_eq_getElem hlt).symm
  · rw [List.getElem?_eq_none (by omega), List.getElem?_eq_none (by rw [List.length_range]; omega)]
    rfl

section Plan

variable (hsettle : MovesSettle (plan target 0 picked))
  (hfits : ∀ move ∈ plan target 0 picked, move.Fits numUnits)
  (htrivial : ∀ move ∈ plan target 0 picked, kept move = false → move.oldIndex = move.newIndex)

include hsettle hfits htrivial

theorem getElem?_order (hmove : move ∈ plan target 0 picked) :
    (applyMoves ((plan target 0 picked).filter kept)
      (List.range numUnits))[move.newIndex]? = some move.oldIndex := by
  have hfitsRange : ∀ move ∈ (plan target 0 picked).filter kept,
      move.Fits (List.range numUnits).length := by
    intro move hmove
    rw [List.length_range]
    exact hfits move (List.mem_of_mem_filter hmove)
  rw [getElem?_applyMoves hfitsRange, origin_filter htrivial, hsettle.origin_newIndex hmove]
  exact List.getElem?_range (hfits move hmove).1

theorem places_order : Places numUnits picked target
      (applyMoves ((plan target 0 picked).filter kept) (List.range numUnits)) where
  perm := by
    apply perm_applyMoves
    intro move hmove
    rw [List.length_range]
    exact hfits move (List.mem_of_mem_filter hmove)
  placed j hj := by
    have hmove : (⟨picked[j], target picked[j] j⟩ : Move) ∈ plan target 0 picked :=
      mem_plan_iff.mpr ⟨j, hj, by rw [Nat.zero_add]⟩
    exact getElem?_order hsettle hfits htrivial hmove
  kept := by
    have hsteps : MovesSettle ((plan target 0 picked).filter kept) := List.Pairwise.filter _ hsettle
    apply hsteps.filter_applyMoves
    · intro move hmove
      rw [List.length_range]
      exact hfits move (List.mem_of_mem_filter hmove)
    · intro move hmove item hitem
      obtain ⟨-, rfl⟩ := List.getElem?_eq_some_iff.mp hitem
      obtain ⟨j, hj, rfl⟩ := mem_plan_iff.mp (List.mem_of_mem_filter hmove)
      rw [List.getElem_range, decide_eq_false_iff_not, not_not]
      exact List.getElem_mem hj

end Plan

theorem eq_block_of_places {order : List ℕ} {start : ℕ} (hperm : order.Perm (List.range numUnits))
    (hkept : (order.filter fun index => index ∉ picked) =
      (List.range numUnits).filter fun index => index ∉ picked)
    (hplaced : ∀ j, (hj : j < picked.length) → order[start + j]? = some picked[j])
    (hroom : start + picked.length ≤ numUnits) :
    order = ((List.range numUnits).filter fun index => index ∉ picked).take start ++ picked ++
      ((List.range numUnits).filter fun index => index ∉ picked).drop
        start := by
  have hlength : order.length = numUnits := by
    rw [hperm.length_eq, List.length_range]
  have hnodup : order.Nodup := hperm.nodup_iff.mpr List.nodup_range
  have hpicked : (order.drop start).take picked.length = picked := by
    apply List.ext_getElem?
    intro j
    rw [List.getElem?_take]
    split
    · rename_i hj
      rw [List.getElem?_drop, hplaced j hj, List.getElem?_eq_getElem hj]
    · rename_i hj
      rw [List.getElem?_eq_none (by omega)]
  have hsplit : order = order.take start ++ (picked ++ order.drop (start + picked.length)) := by
    conv_lhs => rw [← List.take_append_drop start order,
      ← List.take_append_drop picked.length (order.drop start), hpicked, List.drop_drop]
  rw [hsplit] at hnodup
  have hfront := List.disjoint_of_nodup_append hnodup
  have hback := List.disjoint_of_nodup_append hnodup.of_append_right
  have hfrontKept : ((order.take start).filter fun index => index ∉ picked) = order.take start :=
    List.filter_eq_self.mpr fun index hindex => decide_eq_true fun hmem =>
      hfront hindex (List.mem_append_left _ hmem)
  have hbackKept : ((order.drop (start + picked.length)).filter fun index =>
      index ∉ picked) = order.drop (start + picked.length) :=
    List.filter_eq_self.mpr fun index hindex => decide_eq_true fun hmem =>
      hback hmem hindex
  have hpickedKept : (picked.filter fun index => index ∉ picked) = [] :=
    List.filter_eq_nil_iff.mpr fun index hindex => by simpa using hindex
  have hothers : ((List.range numUnits).filter fun index => index ∉ picked) =
      order.take start ++ order.drop (start + picked.length) :=
    calc
      _ = order.filter fun index => index ∉ picked := hkept.symm
      _ = (order.take start ++ (picked ++ order.drop (start + picked.length))).filter fun index =>
              index ∉ picked := congrArg _ hsplit
      _ = _ := by
        rw [List.filter_append, List.filter_append, hfrontKept, hpickedKept,
          hbackKept, List.nil_append]
  have hstart : (order.take start).length = start := by
    rw [List.length_take]
    omega
  rw [hothers, List.take_left' hstart, List.drop_left' hstart, List.append_assoc]
  exact hsplit

end Orders

end Chkdraft.Editor
