import Chkdraft.Editor.UnitEdits

/-!
# What the unit edits record

Every round of a unit edit inserts an action that takes that round back, as long
as the selected units exist, the indices fit 16 bits and the last unit is not
moved down.  The group of a whole edit then takes the edit back.
-/

namespace Chkdraft.Editor

open Chk Scenario Sections Undo

variable {loop : UnitLoop} {edited units : List Chk.Unit}
  {sizes : List UnitSize} {index newIndex unitIndex : ℕ} {selection : List ℕ}
  {field : UnitField}

/-! ## The loops -/

/-- A loop returns, and the actions it inserts take back what it did. -/
def Records (loop : UnitLoop) (units : List Chk.Unit) : Prop :=
  ∃ after actions backs, loop = .ok (after, actions) ∧ Recorded unitSwaps actions backs units after

theorem records_nil (units : List Chk.Unit) : Records (.ok (units, [])) units :=
  ⟨units, [], [], rfl, .nil units⟩

theorem Records.cons {middle : List Chk.Unit} {action back : UnitAction}
    (hswaps : unitSwaps.swaps action middle back units)
    (hloop : Records loop middle) :
    Records (do
      let (after, actions) ← loop
      return (after, action :: actions)) units := by
  obtain ⟨after, actions, backs, rfl, hrecorded⟩ := hloop
  exact ⟨after, action :: actions, back :: backs, rfl, .cons hswaps hrecorded⟩

theorem canPaste_returns {allowStack : Bool} {pasted : Chk.Unit}
    (hsize : allowStack = true ∨ pasted.type.toNat < sizes.length)
    (units : List Chk.Unit) :
    ∃ answer, canPaste sizes allowStack pasted units = .ok answer := by
  cases allowStack with
  | true => exact ⟨true, rfl⟩
  | false =>
      have hlt : pasted.type.toNat < sizes.length := hsize.resolve_left Bool.false_ne_true
      refine ⟨!units.any (overlaps sizes[pasted.type.toNat] pasted), ?_⟩
      simp only [canPaste, getUnitSize, List.getElem?_eq_getElem hlt]
      rfl

theorem swaps_addUnit (hfits : units.length < 65536) (unit : Chk.Unit) :
    unitSwaps.swaps (.unitCreateDel (u16 units.length) none)
      (addUnit units unit) (.unitCreateDel units.length (some unit)) units := by
  rw [addUnit, ← List.insertIdx_length_self, u16_of_lt hfits]
  exact UnitAction.swaps_create (Nat.le_refl _) unit

theorem records_pasteUnits {allowStack : Bool} (mapClickX mapClickY : ℤ)
    {nodes : List PasteUnitNode} (hfits : units.length + nodes.length ≤ 65536)
    (hsizes : ∀ node ∈ nodes, allowStack = true ∨ node.unit.type.toNat < sizes.length) :
    Records (pasteUnits sizes allowStack mapClickX mapClickY nodes units)
      units := by
  induction nodes generalizing units with
  | nil => exact records_nil units
  | cons node rest ih =>
      have hrest := fun other hother =>
        hsizes other (List.mem_cons_of_mem node hother)
      rw [List.length_cons] at hfits
      rw [pasteUnits]
      split
      · have hnode : allowStack = true ∨
            (node.placed mapClickX mapClickY).type.toNat < sizes.length :=
          hsizes node List.mem_cons_self
        obtain ⟨answer, hanswer⟩ := canPaste_returns hnode units
        rw [hanswer]
        cases answer with
        | true =>
            have hfitsRest : (addUnit units
                (node.placed mapClickX mapClickY)).length + rest.length ≤ 65536 := by
              rw [addUnit, List.length_append, List.length_singleton]
              omega
            exact Records.cons (swaps_addUnit (by omega) _) (ih hfitsRest hrest)
        | false => exact ih (by omega) hrest
      · exact ih (by omega) hrest

theorem length_deleteUnit (hlt : index < units.length) :
    (deleteUnit units index).length + 1 = units.length := by
  rw [deleteUnit, deleteItem, if_pos hlt, List.length_eraseIdx_add_one hlt]

theorem swaps_deleteUnit (hlt : index < units.length) :
    unitSwaps.swaps (.unitCreateDel index (some units[index]))
      (deleteUnit units index) (.unitCreateDel index none) units := by
  rw [deleteUnit, deleteItem, if_pos hlt]
  exact UnitAction.swaps_delete (List.getElem?_eq_getElem hlt)

theorem getUnit_of_lt (hlt : index < units.length) : getUnit units index = .ok units[index] :=
  getUnit_of_getElem? (List.getElem?_eq_getElem hlt)

/-- The indices that are left are below the one deleted, so they still name the
same units. -/
theorem records_deleteHighest {rounds : ℕ} (hnodup : selection.Nodup)
    (hselection : ∀ index ∈ selection, index < units.length) :
    Records (deleteHighest rounds selection units) units := by
  induction rounds generalizing selection units with
  | zero => exact records_nil units
  | succ rounds ih =>
      rw [deleteHighest]
      split
      · exact records_nil units
      · rename_i index hmax
        obtain ⟨hmem, hle⟩ := List.max?_eq_some_iff.mp hmax
        have hlt := hselection index hmem
        have hrest : ∀ other ∈ selection.erase index, other < (deleteUnit units index).length := by
          intro other hother
          have hne := (hnodup.mem_erase_iff.mp hother).1
          have hbelow := hle other (List.mem_of_mem_erase hother)
          have hlength := length_deleteUnit hlt
          omega
        rw [getUnit_of_lt hlt]
        exact Records.cons (swaps_deleteUnit hlt) (ih (hnodup.erase index) hrest)

/-! ### Reordering -/

/-- A unit taken out and inserted at another index. -/
def moved (units : List Chk.Unit) (unitIndex newIndex : ℕ) (unit : Chk.Unit) : List Chk.Unit :=
  insertUnit (deleteUnit units unitIndex) newIndex unit

section

variable (hold : unitIndex < units.length) (hnew : newIndex < units.length)

include hold hnew

theorem moved_eq (unit : Chk.Unit) : moved units unitIndex newIndex unit =
      (units.eraseIdx unitIndex).insertIdx newIndex unit := by
  have hle : newIndex ≤ (deleteUnit units unitIndex).length := by
    have hlength := length_deleteUnit hold
    omega
  rw [moved, insertUnit, insertItem_of_le hle, deleteUnit, deleteItem, if_pos hold]

theorem length_moved (unit : Chk.Unit) :
    (moved units unitIndex newIndex unit).length = units.length := by
  have hle : newIndex ≤ (deleteUnit units unitIndex).length := by
    have hlength := length_deleteUnit hold
    omega
  rw [moved, insertUnit, insertItem_of_le hle,
    List.length_insertIdx_of_le_length hle, length_deleteUnit hold]

theorem swaps_moved : unitSwaps.swaps (.unitIndexMove unitIndex newIndex)
      (moved units unitIndex newIndex units[unitIndex])
      (.unitIndexMove newIndex unitIndex) units := by
  rw [moved_eq hold hnew]
  exact UnitAction.swaps_unitIndexMove (List.getElem?_eq_getElem hold) hnew

end

theorem records_moveTopFrom {i : ℕ} (hsorted : selection.Pairwise (· < ·))
    (hfirst : ∀ unitIndex ∈ selection, i ≤ unitIndex)
    (hselection : ∀ unitIndex ∈ selection, unitIndex < units.length) :
    Records (moveTopFrom i selection units) units := by
  induction selection generalizing i units with
  | nil => exact records_nil units
  | cons unitIndex rest ih =>
      obtain ⟨hbelow, hrest⟩ := List.pairwise_cons.mp hsorted
      have hold := hselection unitIndex List.mem_cons_self
      have hi := hfirst unitIndex List.mem_cons_self
      have hnext : ∀ other ∈ rest, i + 1 ≤ other := by
        intro other hother
        have hlt := hbelow other hother
        omega
      have hothers := fun other hother =>
        hselection other (List.mem_cons_of_mem unitIndex hother)
      have hnew : i < units.length := Nat.lt_of_le_of_lt hi hold
      rw [moveTopFrom]
      split
      · rw [getUnit_of_lt hold]
        apply Records.cons (swaps_moved hold hnew) (ih hrest hnext _)
        rw [length_moved hold hnew]
        exact hothers
      · exact ih hrest hnext hothers

theorem records_moveEndFrom {numUnits i : ℕ} (hsorted : selection.Pairwise (· > ·)) (hpos : 0 < i)
    (hlength : units.length = numUnits) (hfits : numUnits ≤ 65536)
    (hselection : ∀ unitIndex ∈ selection, unitIndex + i ≤ numUnits) :
    Records (moveEndFrom numUnits i selection units) units := by
  induction selection generalizing i units with
  | nil => exact records_nil units
  | cons unitIndex rest ih =>
      obtain ⟨hbelow, hrest⟩ := List.pairwise_cons.mp hsorted
      have hi := hselection unitIndex List.mem_cons_self
      have hold : unitIndex < units.length := by omega
      have hnew : numUnits - i < units.length := by omega
      have hothers : ∀ other ∈ rest, other + (i + 1) ≤ numUnits := by
        intro other hother
        have hlt := hbelow other hother
        omega
      rw [moveEndFrom]
      split
      · rw [getUnit_of_lt hold, u16_of_lt (by omega)]
        exact Records.cons (swaps_moved hold hnew) (ih hrest (Nat.succ_pos i)
          ((length_moved hold hnew _).trans hlength) hothers)
      · exact ih hrest (Nat.succ_pos i) hlength hothers

theorem records_moveUpFrom {done : List ℕ}
    (hselection : ∀ unitIndex ∈ selection, unitIndex < units.length) :
    Records (moveUpFrom done selection units) units := by
  induction selection generalizing done units with
  | nil => exact records_nil units
  | cons unitIndex rest ih =>
      have hold := hselection unitIndex List.mem_cons_self
      have hothers := fun other hother =>
        hselection other (List.mem_cons_of_mem unitIndex hother)
      rw [moveUpFrom]
      split
      · rename_i hmoves
        obtain ⟨previous, rfl⟩ : ∃ previous, unitIndex = previous + 1 :=
          ⟨unitIndex - 1, (Nat.sub_add_cancel hmoves.1).symm⟩
        have hnew : previous < units.length := Nat.lt_of_succ_lt hold
        rw [Nat.add_sub_cancel, moveUnit, moveItem_pred hold, ← moved_eq hold hnew]
        apply Records.cons (swaps_moved hold hnew) (ih _)
        rw [length_moved hold hnew]
        exact hothers
      · exact ih hothers

theorem records_moveDownFrom {done : List ℕ} (hselection : ∀ unitIndex ∈ selection,
      unitIndex + 1 < units.length ∧ unitIndex + 1 < 65536) :
    Records (moveDownFrom done selection units) units := by
  induction selection generalizing done units with
  | nil => exact records_nil units
  | cons unitIndex rest ih =>
      obtain ⟨hnew, hfits⟩ := hselection unitIndex List.mem_cons_self
      have hold : unitIndex < units.length := Nat.lt_of_succ_lt hnew
      have hothers := fun other hother =>
        hselection other (List.mem_cons_of_mem unitIndex hother)
      rw [moveDownFrom]
      split
      · rw [moveUnit, moveItem_succ hnew, ← moved_eq hold hnew, u16_of_lt hfits]
        apply Records.cons (swaps_moved hold hnew) (ih _)
        rw [length_moved hold hnew]
        exact hothers
      · exact ih hothers

theorem records_removeEach (hsorted : selection.Pairwise (· > ·))
    (hselection : ∀ unitIndex ∈ selection, unitIndex < units.length) :
    ∃ after removed backs, removeEach selection units = .ok (after, removed) ∧
      Recorded unitSwaps (deletions removed) backs units after ∧
      after.length + removed.length = units.length ∧
      removed.length = selection.length := by
  induction selection generalizing units with
  | nil => exact ⟨units, [], [], rfl, .nil units, rfl, rfl⟩
  | cons unitIndex rest ih =>
      obtain ⟨hbelow, hrest⟩ := List.pairwise_cons.mp hsorted
      have hlt := hselection unitIndex List.mem_cons_self
      have hlength := length_deleteUnit hlt
      have hothers : ∀ other ∈ rest, other < (deleteUnit units unitIndex).length := by
        intro other hother
        have hother := hbelow other hother
        omega
      obtain ⟨after, removed, backs, hremoved, hrecorded, hafter, hcount⟩ := ih hrest hothers
      refine ⟨after, (unitIndex, units[unitIndex]) :: removed, _, ?_,
        .cons (swaps_deleteUnit hlt) hrecorded, ?_, ?_⟩
      · rw [removeEach, getUnit_of_lt hlt]
        change (removeEach rest (deleteUnit units unitIndex) >>= _) = _
        rw [hremoved]
        rfl
      · rw [List.length_cons]
        omega
      · rw [List.length_cons, List.length_cons, hcount]

theorem recorded_insertFrom {inserted : List Chk.Unit}
    (hle : index ≤ units.length) (hfits : index + inserted.length ≤ 65536) :
    ∃ backs, Recorded unitSwaps (insertFrom index inserted units).2 backs units
      (insertFrom index inserted units).1 := by
  induction inserted generalizing index units with
  | nil => exact ⟨[], .nil units⟩
  | cons unit rest ih =>
      rw [List.length_cons] at hfits
      have hlength : (insertUnit units index unit).length = units.length + 1 := by
        rw [insertUnit, insertItem_of_le hle, List.length_insertIdx_of_le_length hle]
      obtain ⟨backs, hrecorded⟩ := @ih (insertUnit units index unit) (index + 1)
        (by omega) (by omega)
      have hswaps : unitSwaps.swaps (.unitCreateDel (u16 index) none) (insertUnit units index unit)
          (.unitCreateDel index (some unit)) units := by
        rw [insertUnit, insertItem_of_le hle, u16_of_lt (by omega)]
        exact UnitAction.swaps_create hle unit
      exact ⟨_, .cons hswaps hrecorded⟩

/-! ### Changing fields -/

theorem records_changeEach (field : UnitField) (changes : Chk.Unit → Bool)
    (value : Chk.Unit → UInt32)
    (hselection : ∀ unitIndex ∈ selection, unitIndex < units.length) :
    Records (changeEach field changes value selection units) units := by
  induction selection generalizing units with
  | nil => exact records_nil units
  | cons unitIndex rest ih =>
      have hlt := hselection unitIndex List.mem_cons_self
      have hothers := fun other hother =>
        hselection other (List.mem_cons_of_mem unitIndex hother)
      rw [changeEach, getUnit_of_lt hlt]
      change Records (if _ then _ else _) units
      split
      · apply Records.cons (UnitAction.swaps_unitChange field _
          (List.getElem?_eq_getElem hlt)) (ih _)
        simpa using hothers
      · exact ih hothers

/-- Only the field of the selected units differs. -/
structure Changed (field : UnitField) (selection : List ℕ)
    (units edited : List Chk.Unit) : Prop where
  others : ∀ index ∉ selection, edited[index]? = units[index]?
  selected : ∀ index ∈ selection, ∃ unit data,
    units[index]? = some unit ∧ edited[index]? = some (field.set unit data)

theorem changed_refl (field : UnitField) (hselection : ∀ index ∈ selection, index < units.length) :
    Changed field selection units units where
  others _ _ := rfl
  selected index hindex := by
    have hlt := hselection index hindex
    have hunit := List.getElem?_eq_getElem hlt
    refine ⟨_, field.get units[index], hunit, ?_⟩
    rw [UnitField.set_get, hunit]

theorem Changed.set {unit : Chk.Unit} (hchanged : Changed field selection units edited)
    (hindex : index ∈ selection) (hunit : edited[index]? = some unit)
    (value : UInt32) :
    Changed field selection units (edited.set index (field.set unit value)) where
  others other hother := by
    rw [List.getElem?_set_ne (ne_of_mem_of_not_mem hindex hother)]
    exact hchanged.others other hother
  selected other hother := by
    obtain ⟨before, data, hbefore, hafter⟩ := hchanged.selected other hother
    by_cases hsame : index = other
    · subst hsame
      have hlt := (List.getElem?_eq_some_iff.mp hunit).1
      refine ⟨before, value, hbefore, ?_⟩
      cases hunit.symm.trans hafter
      rw [List.getElem?_set_self hlt, UnitField.set_set]
    · refine ⟨before, data, hbefore, ?_⟩
      rw [List.getElem?_set_ne hsame, hafter]

theorem updateEach_changed {updated : List ℕ} (hchanged : Changed field selection units edited)
    (hupdated : ∀ index ∈ updated, index ∈ selection) (value : UInt32) :
    ∃ after, updateEach field value updated edited = .ok after ∧
      Changed field selection units after := by
  induction updated generalizing edited with
  | nil => exact ⟨edited, rfl, hchanged⟩
  | cons index rest ih =>
      have hindex := hupdated index List.mem_cons_self
      obtain ⟨before, data, -, hunit⟩ := hchanged.selected index hindex
      rw [updateEach, getUnit_of_getElem? hunit]
      exact ih (hchanged.set hindex hunit value) fun other hother =>
        hupdated other (List.mem_cons_of_mem index hother)

theorem typed_changed (typed : List UInt32) (hchanged : Changed field selection units edited) :
    ∃ after, typed.foldlM (fun units value =>
        updateEach field value selection units) edited = .ok after ∧
      Changed field selection units after := by
  induction typed generalizing edited with
  | nil => exact ⟨edited, rfl, hchanged⟩
  | cons value rest ih =>
      obtain ⟨middle, hmiddle, hkept⟩ := updateEach_changed hchanged (fun _ hindex => hindex) value
      obtain ⟨after, hafter, hend⟩ := ih hkept
      refine ⟨after, ?_, hend⟩
      rw [List.foldlM_cons, hmiddle]
      exact hafter

def statAt (field : UnitField) (units : List Chk.Unit) (index : ℕ) : UInt32 :=
  match units[index]? with
  | some unit => field.get unit
  | none => 0

theorem statAt_of_getElem? {unit : Chk.Unit} (hunit : units[index]? = some unit) :
    statAt field units index = field.get unit := by
  rw [statAt, hunit]

theorem mapM_stats (hselection : ∀ index ∈ selection, index < units.length) :
    (selection.mapM fun unitIndex => field.get <$> getUnit units unitIndex) =
      .ok (selection.map (statAt field units)) := by
  induction selection with
  | nil => rfl
  | cons index rest ih =>
      have hlt := hselection index List.mem_cons_self
      rw [List.mapM_cons, getUnit_of_lt hlt, ih fun other hother =>
        hselection other (List.mem_cons_of_mem index hother),
        List.map_cons, statAt_of_getElem? (List.getElem?_eq_getElem hlt)]
      rfl

theorem Changed.recorded {original : List Chk.Unit} (hnodup : selection.Nodup)
    (horiginal : ∀ index ∈ selection, units[index]? = original[index]?)
    (hchanged : Changed field selection units edited) :
    ∃ backs, Recorded unitSwaps (selection.map fun index =>
      .unitChange index field (statAt field original index)) backs units
        edited := by
  induction selection generalizing units with
  | nil =>
      have hsame : edited = units := List.ext_getElem? fun index =>
        hchanged.others index List.not_mem_nil
      subst hsame
      exact ⟨[], .nil edited⟩
  | cons index rest ih =>
      obtain ⟨hindex, hrest⟩ := List.nodup_cons.mp hnodup
      obtain ⟨unit, data, hunit, hedited⟩ := hchanged.selected index List.mem_cons_self
      have hlt := (List.getElem?_eq_some_iff.mp hunit).1
      have hkept : ∀ other ∈ rest,
          (units.set index (field.set unit data))[other]? = units[other]? := by
        intro other hother
        exact List.getElem?_set_ne (ne_of_mem_of_not_mem hother hindex).symm
      have hmiddle : Changed field rest (units.set index (field.set unit data)) edited := by
        constructor
        · intro other hother
          by_cases hsame : index = other
          · subst hsame
            rw [List.getElem?_set_self hlt, hedited]
          · rw [List.getElem?_set_ne hsame]
            apply hchanged.others
            rw [List.mem_cons, not_or]
            exact ⟨fun heq => hsame heq.symm, hother⟩
        · intro other hother
          rw [hkept other hother]
          exact hchanged.selected other (List.mem_cons_of_mem index hother)
      obtain ⟨backs, hrecorded⟩ := ih hrest (fun other hother =>
        (hkept other hother).trans (horiginal other (List.mem_cons_of_mem index hother))) hmiddle
      have hstat : statAt field original index = field.get unit :=
        statAt_of_getElem? ((horiginal index List.mem_cons_self).symm.trans hunit)
      rw [List.map_cons, hstat]
      exact ⟨_, .cons (UnitAction.swaps_unitChange field data hunit) hrecorded⟩

/-- An edit returns, and the group it records takes it back. -/
def GroupRecords (edited : UnitEdited) (units : List Chk.Unit) : Prop :=
  ∃ after actions backs, edited = .ok (after, .make actions) ∧
    Recorded unitSwaps actions backs units after

theorem Records.group (hloop : Records loop units) : GroupRecords (recorded loop) units := by
  obtain ⟨after, actions, backs, rfl, hrecorded⟩ := hloop
  exact ⟨after, actions, backs, rfl, hrecorded⟩

theorem Records.boundedGroup (hloop : Records loop units) :
    GroupRecords (recordedMoves loop) units := by
  obtain ⟨after, moves, backs, rfl, hrecorded⟩ := hloop
  by_cases hmoves : moves = []
  · refine ⟨after, moves, backs, ?_, hrecorded⟩
    change Except.ok (after, bounded moves) = _
    rw [bounded, if_pos hmoves, hmoves]
  · have hboundary (units : List Chk.Unit) : Recorded unitSwaps
        [.unitIndexMoveBoundary] [.unitIndexMoveBoundary] units units :=
      .cons (UnitAction.swaps_unitIndexMoveBoundary units) (.nil units)
    refine ⟨after, _, _, ?_, (hboundary units).append (hrecorded.append (hboundary after))⟩
    change Except.ok (after, bounded moves) = _
    rw [bounded, if_neg hmoves]
    rfl

namespace UnitEdit

/-- The selection names units of the list, none of them twice. -/
def Selects (units : List Chk.Unit) (selection : List UInt16) : Prop :=
  selection.Nodup ∧ ∀ index ∈ selection, index.toNat < units.length

/-- The selected units exist, the indices to be recorded fit 16 bits, the types
pasted have an extent, and the last unit is not moved down. -/
def Meets (sizes : List UnitSize) (edit : UnitEdit) (units : List Chk.Unit) : Prop :=
  match edit with
  | paste allowStack _ _ clipboard =>
      units.length + clipboard.length ≤ 65536 ∧ ∀ node ∈ clipboard,
          allowStack = true ∨ node.unit.type.toNat < sizes.length
  | delete selection => Selects units selection
  | moveTop selection => Selects units selection
  | moveEnd selection => Selects units selection ∧
      (selection = [] ∨ units.length ≤ 65536)
  | moveUp selection => Selects units selection
  | moveDown selection => Selects units selection ∧
      ∀ index ∈ selection, index.toNat + 1 < units.length ∧ index.toNat + 1 < 65536
  | moveTo unitMoveTo selection => Selects units selection ∧
      (unitMoveTo = 0 ∨ units.length ≤ unitMoveTo ∨ selection = [] ∨
        min units.length (unitMoveTo + selection.length) ≤ 65536)
  | player _ selection => Selects units selection
  | owner _ selection => Selects units selection
  | state _ _ selection => Selects units selection
  | stats _ _ selection => Selects units selection


section Selection

variable {units : List Chk.Unit} {selection : List UInt16}

theorem Selects.nodup (hselects : Selects units selection) : (indices selection).Nodup :=
  hselects.1.map fun _ _ => UInt16.toNat_inj.mp

theorem Selects.lt (hselects : Selects units selection) :
    ∀ index ∈ indices selection, index < units.length := by
  intro index hindex
  obtain ⟨selected, hselected, rfl⟩ := List.mem_map.mp hindex
  exact hselects.2 selected hselected

theorem mem_sortUnits {ascending : Bool} {selection : List ℕ} :
    index ∈ sortUnits ascending selection ↔ index ∈ selection := by
  cases ascending <;> exact List.mem_insertionSort _

theorem pairwise_lt_sortUnits {selection : List ℕ} (hnodup : selection.Nodup) :
    (sortUnits true selection).Pairwise (· < ·) := by
  have hsorted : (selection.insertionSort (· ≤ ·)).Pairwise (· ≤ ·) :=
    List.pairwise_insertionSort _ selection
  have hdistinct : (selection.insertionSort (· ≤ ·)).Pairwise (· ≠ ·) :=
    (List.perm_insertionSort _ selection).nodup_iff.mpr hnodup
  exact (hsorted.and hdistinct).imp fun h => Nat.lt_of_le_of_ne h.1 h.2

theorem pairwise_gt_sortUnits {selection : List ℕ} (hnodup : selection.Nodup) :
    (sortUnits false selection).Pairwise (· > ·) := by
  have hsorted : (selection.insertionSort (· ≥ ·)).Pairwise (· ≥ ·) :=
    List.pairwise_insertionSort _ selection
  have hdistinct : (selection.insertionSort (· ≥ ·)).Pairwise (· ≠ ·) :=
    (List.perm_insertionSort _ selection).nodup_iff.mpr hnodup
  exact (hsorted.and hdistinct).imp fun h => Nat.lt_of_le_of_ne h.1 h.2.symm

theorem records_moveTop (hselects : Selects units selection) :
    GroupRecords (notifyMoveTopPressed (indices selection) units) units := by
  apply Records.boundedGroup
  apply records_moveTopFrom (pairwise_lt_sortUnits hselects.nodup)
  · exact fun _ _ => Nat.zero_le _
  · exact fun index hindex => hselects.lt index (mem_sortUnits.mp hindex)

theorem records_moveEnd (hselects : Selects units selection)
    (hfits : selection = [] ∨ units.length ≤ 65536) :
    GroupRecords (notifyMoveEndPressed (indices selection) units) units := by
  apply Records.boundedGroup
  rcases hfits with rfl | hfits
  · exact records_nil units
  · apply records_moveEndFrom (pairwise_gt_sortUnits hselects.nodup) Nat.one_pos
      rfl hfits
    exact fun index hindex => hselects.lt index (mem_sortUnits.mp hindex)

theorem records_moveUp (hselects : Selects units selection) :
    GroupRecords (notifyMoveUpPressed (indices selection) units) units := by
  apply Records.boundedGroup
  apply records_moveUpFrom
  exact fun index hindex => hselects.lt index (mem_sortUnits.mp hindex)

theorem records_moveDown (hbelow : ∀ index ∈ selection,
      index.toNat + 1 < units.length ∧ index.toNat + 1 < 65536) :
    GroupRecords (notifyMoveDownPressed (indices selection) units) units := by
  apply Records.boundedGroup
  apply records_moveDownFrom
  intro index hindex
  obtain ⟨selected, hselected, rfl⟩ := List.mem_map.mp (mem_sortUnits.mp hindex)
  exact hbelow selected hselected

theorem length_indices (selection : List UInt16) : (indices selection).length = selection.length :=
  List.length_map _

/-- The removed units are inserted again below the end of the list. -/
theorem records_moveBetween {unitMoveTo : ℕ} (hselects : Selects units selection)
    (hbefore : unitMoveTo + selection.length ≤ units.length)
    (hfits : unitMoveTo + selection.length ≤ 65536) :
    ∃ others removed, removeEach (sortUnits false (indices selection)) units =
        .ok (others, removed) ∧
      ∃ backs, Recorded unitSwaps (deletions removed ++
          (insertFrom unitMoveTo (removed.map Prod.snd).reverse others).2) backs
        units (insertFrom unitMoveTo (removed.map Prod.snd).reverse others).1 := by
  obtain ⟨others, removed, backs, hremoved, hrecorded, hlength, hcount⟩ :=
    records_removeEach (pairwise_gt_sortUnits hselects.nodup)
      fun index hindex => hselects.lt index (mem_sortUnits.mp hindex)
  have hcount : removed.length = selection.length := by
    rw [hcount, sortUnits, if_neg Bool.false_ne_true, List.length_insertionSort, length_indices]
  obtain ⟨inserted, hinserted⟩ := @recorded_insertFrom others unitMoveTo
    (removed.map Prod.snd).reverse (by omega) (by
      rw [List.length_reverse, List.length_map, hcount]
      exact hfits)
  exact ⟨others, removed, hremoved, _, hrecorded.append hinserted⟩

theorem records_moveTo {unitMoveTo : ℕ} (hselects : Selects units selection)
    (hfits : unitMoveTo = 0 ∨ units.length ≤ unitMoveTo ∨ selection = [] ∨
      min units.length (unitMoveTo + selection.length) ≤ 65536) :
    GroupRecords (notifyMoveToPressed unitMoveTo (indices selection) units)
      units := by
  rw [notifyMoveToPressed, numSelected, length_indices]
  split
  · rename_i hmoveTo
    split
    · exact records_moveTop hselects
    · rename_i hpos
      rcases selection.eq_nil_or_concat with rfl | hsome
      · rw [if_neg (by simpa using hmoveTo), if_neg (by simp)]
        exact ⟨units, [], [], rfl, .nil units⟩
      · have hne : selection ≠ [] := by
          rintro rfl
          simp at hsome
        have hsize : min units.length (unitMoveTo + selection.length) ≤ 65536 := by
          rcases hfits with hzero | hge | hnil | hsize
          · exact absurd hzero hpos
          · exact absurd hge (Nat.not_le.mpr hmoveTo)
          · exact absurd hnil hne
          · exact hsize
        split
        · exact records_moveEnd hselects (.inr (by omega))
        · rw [if_neg (by omega)]
          obtain ⟨others, removed, hremoved, backs, hrecorded⟩ :=
            @records_moveBetween units selection unitMoveTo hselects (by omega) (by omega)
          rw [hremoved]
          exact ⟨_, _, backs, rfl, hrecorded⟩
  · exact ⟨units, [], [], rfl, .nil units⟩

theorem records_stats (field : UnitField) (typed : List UInt32)
    (hselects : Selects units selection) :
    GroupRecords (editStats field typed (indices selection) units) units := by
  obtain ⟨edited, hedited, hchanged⟩ := typed_changed typed (changed_refl field hselects.lt)
  obtain ⟨backs, hrecorded⟩ := hchanged.recorded hselects.nodup fun _ _ => rfl
  refine ⟨edited, _, backs, ?_, hrecorded⟩
  rw [editStats, mapM_stats hselects.lt, hedited]
  change Except.ok (edited, ReversibleActions.make (List.zipWith _ _ _)) = _
  rw [List.zipWith_map_right, List.zipWith_self]

end Selection

/-- Under its condition an edit records a group that takes it back. -/
theorem change_records {edit : UnitEdit} {units : List Chk.Unit} (hmeets : edit.Meets sizes units) :
    GroupRecords (edit.change sizes units) units := by
  cases edit with
  | paste allowStack mapClickX mapClickY clipboard =>
      exact (records_pasteUnits mapClickX mapClickY hmeets.1 hmeets.2).group
  | delete selection =>
      exact (records_deleteHighest (Selects.nodup hmeets) (Selects.lt hmeets)).group
  | moveTop selection => exact records_moveTop hmeets
  | moveEnd selection => exact records_moveEnd hmeets.1 hmeets.2
  | moveUp selection => exact records_moveUp hmeets
  | moveDown selection => exact records_moveDown hmeets.2
  | moveTo unitMoveTo selection => exact records_moveTo hmeets.1 hmeets.2
  | player newPlayer selection =>
      exact (records_changeEach _ _ _ (Selects.lt hmeets)).group
  | owner newOwner selection =>
      exact (records_changeEach _ _ _ (Selects.lt hmeets)).group
  | state flag checked selection =>
      exact (records_changeEach _ _ _ (Selects.lt hmeets)).group
  | stats field typed selection => exact records_stats field typed hmeets

end UnitEdit

end Chkdraft.Editor
