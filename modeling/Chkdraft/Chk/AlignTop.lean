import Chkdraft.Chk.Records
import Chkdraft.Core.Fault

/-!
# Closing the gaps between conditions or actions

`deleteCondition` and `deleteAction` blank an entry of a trigger, and move the
entries behind it up when asked to align them.  The move copies as many entries
as the array has from the gap on, starting at the first used one behind it, so
that the last copies come from behind the end of the array.
-/

namespace Chkdraft.Chk

section Loops

variable {A : Type} {n : ℕ}

/-- `entries[target] = entries[source]`. -/
def copyEntry (entries : List.Vector A n) (target source : ℕ) : Except Hazard (List.Vector A n) :=
  if h : target < n ∧ source < n then
    .ok (entries.set ⟨target, h.1⟩ (entries.get ⟨source, h.2⟩))
  else
    .error .undefinedBehavior

/-- Whether the entry at an index is used. -/
def usedAt (used : A → Bool) (entries : List.Vector A n) (i : ℕ) : Bool :=
  entries.toList[i]?.any used

/-- The search for `firstUsedAfter`. -/
def firstUsedAfter (used : A → Bool) (entries : List.Vector A n) (i : ℕ) : Option ℕ :=
  (List.range' (i + 1) (n - (i + 1))).find? fun j => usedAt used entries j

def closeGap (entries : List.Vector A n) (i firstUsed : ℕ) : Except Hazard (List.Vector A n) :=
  (List.range' i (n - i)).foldlM
    (fun entries j => copyEntry entries j (firstUsed + (j - i))) entries

/-- The last `left` rounds of the loop over the entries. -/
def alignTopFrom (used : A → Bool) : ℕ → List.Vector A n → Except Hazard (List.Vector A n)
  | 0, entries => .ok entries
  | left + 1, entries =>
      let i := n - (left + 1)
      if usedAt used entries i then
        alignTopFrom used left entries
      else
        match firstUsedAfter used entries i with
        | none => .ok entries
        | some firstUsed => do
            let closed ← closeGap entries i firstUsed
            alignTopFrom used left closed

def alignTop (used : A → Bool) (entries : List.Vector A n) : Except Hazard (List.Vector A n) :=
  alignTopFrom used n entries

end Loops

/-- A condition whose type is not `Condition::Type::NoCondition`. -/
def Condition.used (condition : Condition) : Bool := condition.conditionType ≠ 0

/-- An action whose type is not `Action::Type::NoAction`. -/
def Action.used (action : Action) : Bool := action.actionType ≠ 0

/-- The fields `deleteCondition` sets. -/
def blankCondition : Condition := ⟨0, 0, 0, 0, 0, 0, 0, 0, 0⟩

/-- The fields `deleteAction` sets. -/
def blankAction : Action := ⟨0, 0, 0, 0, 0, 0, 0, 0, 0, 0, 0, 0⟩

namespace Trigger

/-- `Trigger::alignConditionsTop`. -/
def alignConditionsTop (trigger : Trigger) : Except Hazard Trigger := do
  let conditions ← alignTop Condition.used trigger.conditions
  pure { trigger with conditions := conditions }

/-- `Trigger::alignActionsTop`. -/
def alignActionsTop (trigger : Trigger) : Except Hazard Trigger := do
  let actions ← alignTop Action.used trigger.actions
  pure { trigger with actions := actions }

/-- `Trigger::deleteAction`. -/
def deleteAction (trigger : Trigger) (actionIndex : ℕ) (alignTop : Bool) : Except Hazard Trigger :=
  if h : actionIndex < maxActions then
    let blanked : Trigger :=
      { trigger with actions := trigger.actions.set ⟨actionIndex, h⟩ blankAction }
    if alignTop then blanked.alignActionsTop else .ok blanked
  else
    .ok trigger

/-- `Trigger::deleteCondition`. -/
def deleteCondition (trigger : Trigger) (conditionIndex : ℕ)
    (alignTop : Bool) : Except Hazard Trigger :=
  if h : conditionIndex < maxConditions then
    let blanked : Trigger :=
      { trigger with
        conditions := trigger.conditions.set ⟨conditionIndex, h⟩ blankCondition }
    if alignTop then blanked.alignConditionsTop else .ok blanked
  else
    .ok trigger

end Trigger

section Spec

variable {A : Type} {n : ℕ}

/-- The used entries but the deleted one in their order, and behind them only
blank ones. -/
def AlignedWithout (used : A → Bool) (blank : A) (before : List A)
    (index : ℕ) (after : List A) : Prop :=
  ∃ count, after = (before.eraseIdx index).filter used ++ List.replicate count blank

/-- The used entries but the one to delete stand before all others. -/
def UsedFirst (used : A → Bool) (entries : List.Vector A n) (index : ℕ) : Prop :=
  ∀ i j, i < j → j ≠ index → usedAt used entries j = true → i ≠ index ∧ usedAt used entries i = true

/-- An unused entry may have kept what it was filled with. -/
def UnusedBlank (used : A → Bool) (blank : A) (entries : List.Vector A n) (index : ℕ) : Prop :=
  ∀ i entry, i ≠ index → entries.toList[i]? = some entry → used entry = false → entry = blank

/-- No used entry stands behind an unused one. -/
def NoGap (used : A → Bool) (entries : List.Vector A n) : Prop :=
  ∀ i j, i < j → usedAt used entries j = true → usedAt used entries i = true

end Spec

/-- Deleting an action aligns the others and leaves the rest of the trigger. -/
def DeletesAction (trigger : Trigger) (actionIndex : ℕ) : Prop :=
  ∃ after, trigger.deleteAction actionIndex true = .ok after ∧
    AlignedWithout Action.used blankAction trigger.actions.toList actionIndex after.actions.toList ∧
    { after with actions := trigger.actions } = trigger

/-- Deleting a condition aligns the others and leaves the rest of the
trigger. -/
def DeletesCondition (trigger : Trigger) (conditionIndex : ℕ) : Prop :=
  ∃ after, trigger.deleteCondition conditionIndex true = .ok after ∧
    AlignedWithout Condition.used blankCondition trigger.conditions.toList
      conditionIndex after.conditions.toList ∧
    { after with conditions := trigger.conditions } = trigger

section Gaps

variable {A : Type} {n : ℕ} {used : A → Bool} {entries : List.Vector A n}

/-- The copy to the last entry comes from behind the array. -/
theorem closeGap_ne_ok {i firstUsed : ℕ} (hi : i < n) (hgap : i < firstUsed)
    (closed : List.Vector A n) : closeGap entries i firstUsed ≠ .ok closed := by
  have hlast : n - 1 ∈ List.range' i (n - i) := by
    rw [List.mem_range'_1]
    omega
  apply Fault.foldlM_ne_ok hlast
  intro state next hcopy
  rw [copyEntry, dif_neg (by omega)] at hcopy
  cases hcopy

theorem lt_of_usedAt {i : ℕ} (hused : usedAt used entries i = true) : i < n := by
  by_contra hge
  rw [usedAt, List.getElem?_eq_none] at hused
  · cases hused
  · rw [entries.toList_length]
    exact Nat.le_of_not_lt hge

/-- The loop keeps entries without a gap, and does not return from a gap. -/
theorem alignTopFrom_eq_ok_iff {left : ℕ} (hleft : left ≤ n)
    (hbefore : ∀ i < n - left, usedAt used entries i = true)
    {aligned : List.Vector A n} :
    alignTopFrom used left entries = .ok aligned ↔ NoGap used entries ∧ aligned = entries := by
  induction left with
  | zero =>
      have hnoGap : NoGap used entries := by
        intro i j hlt hj
        exact hbefore i (hlt.trans (lt_of_usedAt hj))
      rw [alignTopFrom, Except.ok.injEq, and_iff_right hnoGap]
      exact eq_comm
  | succ left ih =>
      rw [alignTopFrom]
      cases hused : usedAt used entries (n - (left + 1)) with
      | true =>
          simp only [if_true]
          apply ih (by omega)
          intro i hi
          rcases Nat.lt_or_ge i (n - (left + 1)) with hlt | hge
          · exact hbefore i hlt
          · have heq : i = n - (left + 1) := by omega
            rw [heq]
            exact hused
      | false =>
          simp only [Bool.false_eq_true, if_false]
          cases hfirst : firstUsedAfter used entries (n - (left + 1)) with
          | none =>
              have hnone := List.find?_eq_none.mp hfirst
              have hnoGap : NoGap used entries := by
                intro i j hlt hj
                have hjn := lt_of_usedAt hj
                apply hbefore
                by_contra hge
                refine hnone j ?_ hj
                rw [List.mem_range'_1]
                omega
              rw [Except.ok.injEq, and_iff_right hnoGap]
              exact eq_comm
          | some firstUsed =>
              have hmem := List.mem_of_find?_eq_some hfirst
              rw [List.mem_range'_1] at hmem
              apply iff_of_false
              · intro hrun
                obtain ⟨closed, hclosed, -⟩ := Fault.bind_eq_ok_iff.mp hrun
                exact closeGap_ne_ok (by omega) (by omega) closed hclosed
              · rintro ⟨hnoGap, -⟩
                have hstill := hnoGap (n - (left + 1)) firstUsed (by omega) (List.find?_some hfirst)
                rw [hused] at hstill
                cases hstill

theorem alignTop_eq_ok_iff {aligned : List.Vector A n} :
    alignTop used entries = .ok aligned ↔ NoGap used entries ∧ aligned = entries := by
  apply alignTopFrom_eq_ok_iff le_rfl
  intro i hi
  omega

/-- Used entries without a gap are followed by the unused ones. -/
theorem filter_append_filter {items : List A}
    (hnoGap : ∀ i j : ℕ, i < j → items[j]?.any used = true → items[i]?.any used = true) :
    items = items.filter used ++ items.filter fun item => !used item := by
  induction items with
  | nil => rfl
  | cons head rest ih =>
      cases hhead : used head with
      | true =>
          have hrest := ih fun i j hlt hj =>
            hnoGap (i + 1) (j + 1) (Nat.succ_lt_succ hlt) hj
          rw [List.filter_cons_of_pos hhead,
            List.filter_cons_of_neg (by simp [hhead]), List.cons_append,
            ← hrest]
      | false =>
          have hnone : ∀ item ∈ head :: rest, used item = false := by
            intro item hmem
            rcases List.mem_cons.mp hmem with rfl | hlater
            · exact hhead
            · obtain ⟨j, hlt, rfl⟩ := List.getElem_of_mem hlater
              by_contra hitem
              have hfirst := hnoGap 0 (j + 1) (Nat.succ_pos j) (by
                simpa [hlt] using hitem)
              simp [hhead] at hfirst
          rw [List.filter_eq_nil_iff.mpr, List.nil_append, List.filter_eq_self.mpr]
          · intro item hmem
            rw [hnone item hmem]
            rfl
          · intro item hmem
            rw [hnone item hmem]
            nofun

/-- An unused entry counts as much as one that is not there. -/
theorem filter_set {items : List A} {index : ℕ} {blank : A} (hblank : used blank = false) :
    (items.set index blank).filter used = (items.eraseIdx index).filter used := by
  induction items generalizing index with
  | nil => rfl
  | cons head rest ih =>
      cases index with
      | zero =>
          rw [List.set_cons_zero, List.eraseIdx_cons_zero,
            List.filter_cons_of_neg (by simp [hblank])]
      | succ index =>
          rw [List.set_cons_succ, List.eraseIdx_cons_succ, List.filter_cons, List.filter_cons, ih]

section

variable {index : ℕ} {blank : A} (hindex : index < n) (hblank : used blank = false)

include hindex hblank

theorem usedAt_set (i : ℕ) : usedAt used (entries.set ⟨index, hindex⟩ blank) i = true ↔
      i ≠ index ∧ usedAt used entries i = true := by
  rw [usedAt, List.Vector.toList_set, List.getElem?_set]
  by_cases heq : index = i
  · subst heq
    rw [if_pos rfl]
    apply iff_of_false
    · split <;> simp [hblank]
    · exact fun h => h.1 rfl
  · rw [if_neg heq]
    exact (and_iff_right (Ne.symm heq)).symm

theorem noGap_set_iff : NoGap used (entries.set ⟨index, hindex⟩ blank) ↔
      UsedFirst used entries index := by
  simp only [NoGap, UsedFirst, usedAt_set hindex hblank, and_imp]

/-- Deleting an entry of an array and aligning the others. -/
theorem alignTop_set_iff : (∃ aligned,
        alignTop used (entries.set ⟨index, hindex⟩ blank) = .ok aligned ∧
        AlignedWithout used blank entries.toList index aligned.toList) ↔
      UsedFirst used entries index ∧ UnusedBlank used blank entries index := by
  simp only [alignTop_eq_ok_iff, noGap_set_iff hindex hblank]
  have hused : (entries.set ⟨index, hindex⟩ blank).toList.filter used =
      (entries.toList.eraseIdx index).filter used := by
    rw [List.Vector.toList_set, filter_set hblank]
  constructor
  · rintro ⟨aligned, ⟨hfirst, rfl⟩, count, haligned⟩
    refine ⟨hfirst, fun i entry hne hentry hunused => ?_⟩
    have hsplit := filter_append_filter ((noGap_set_iff hindex hblank).mpr hfirst)
    rw [hused, haligned, List.append_cancel_left_eq] at hsplit
    refine List.eq_of_mem_replicate (n := count) ?_
    rw [hsplit, ← haligned, List.mem_filter]
    refine ⟨List.mem_of_getElem? (i := i) ?_, by simp [hunused]⟩
    rw [List.Vector.toList_set, List.getElem?_set_ne hne.symm]
    exact hentry
  · rintro ⟨hfirst, hothers⟩
    have hsplit := filter_append_filter ((noGap_set_iff hindex hblank).mpr hfirst)
    rw [hused] at hsplit
    generalize hrest : List.filter (fun item => !used item) _ = rest at hsplit
    have hblanks : ∀ entry ∈ rest, entry = blank := by
      intro entry hmem
      rw [← hrest, List.mem_filter] at hmem
      obtain ⟨i, hentry⟩ := List.mem_iff_getElem?.mp hmem.1
      rw [List.Vector.toList_set, List.getElem?_set] at hentry
      split at hentry
      · split at hentry <;> cases hentry
        rfl
      · exact hothers i entry (Ne.symm ‹_›) hentry (by simpa using hmem.2)
    rw [List.eq_replicate_of_mem hblanks] at hsplit
    exact ⟨_, ⟨hfirst, rfl⟩, _, hsplit⟩

end

end Gaps

theorem deletesAction_iff {trigger : Trigger} {actionIndex : ℕ}
    (hindex : actionIndex < maxActions) :
    DeletesAction trigger actionIndex ↔ UsedFirst Action.used trigger.actions actionIndex ∧
        UnusedBlank Action.used blankAction trigger.actions actionIndex := by
  have hblank : Action.used blankAction = false := rfl
  rw [← alignTop_set_iff hindex hblank, DeletesAction, Trigger.deleteAction, dif_pos hindex]
  simp only [if_true, Trigger.alignActionsTop, Fault.bind_eq_ok_iff]
  constructor
  · rintro ⟨after, ⟨actions, hactions, ⟨⟩⟩, haligned, -⟩
    exact ⟨actions, hactions, haligned⟩
  · rintro ⟨actions, hactions, haligned⟩
    exact ⟨_, ⟨actions, hactions, rfl⟩, haligned, rfl⟩

theorem deletesCondition_iff {trigger : Trigger} {conditionIndex : ℕ}
    (hindex : conditionIndex < maxConditions) :
    DeletesCondition trigger conditionIndex ↔
      UsedFirst Condition.used trigger.conditions conditionIndex ∧
        UnusedBlank Condition.used blankCondition trigger.conditions
          conditionIndex := by
  have hblank : Condition.used blankCondition = false := rfl
  rw [← alignTop_set_iff hindex hblank, DeletesCondition, Trigger.deleteCondition, dif_pos hindex]
  simp only [if_true, Trigger.alignConditionsTop, Fault.bind_eq_ok_iff]
  constructor
  · rintro ⟨after, ⟨conditions, hconditions, ⟨⟩⟩, haligned, -⟩
    exact ⟨conditions, hconditions, haligned⟩
  · rintro ⟨conditions, hconditions, haligned⟩
    exact ⟨_, ⟨conditions, hconditions, rfl⟩, haligned, rfl⟩

/-- Deleting aligns the actions, or the conditions, exactly if the used ones
that are left stand first already and all others are blank. -/
theorem deletes_aligned_iff (trigger : Trigger) :
    (∀ actionIndex < maxActions, (DeletesAction trigger actionIndex ↔
      UsedFirst Action.used trigger.actions actionIndex ∧
        UnusedBlank Action.used blankAction trigger.actions actionIndex)) ∧
    ∀ conditionIndex < maxConditions, (DeletesCondition trigger conditionIndex ↔
        UsedFirst Condition.used trigger.conditions conditionIndex ∧
          UnusedBlank Condition.used blankCondition trigger.conditions conditionIndex) :=
  ⟨fun _ hindex => deletesAction_iff hindex, fun _ hindex => deletesCondition_iff hindex⟩

/-- A trigger with some first actions of the type `Victory`. -/
def victories (count : ℕ) : Trigger :=
  { blankTrigger with
    actions := List.Vector.ofFn fun index =>
      if index.val < count then { blankAction with actionType := 1 }
      else blankAction }

theorem getElem?_victories (count i : ℕ) : (victories count).actions.toList[i]? =
      if i < maxActions then
        some (if i < count then { blankAction with actionType := 1 }
          else blankAction)
      else none := by
  rw [victories, List.Vector.toList_ofFn, List.getElem?_ofFn]
  split <;> rfl

theorem usedAt_victories (count i : ℕ) : usedAt Action.used (victories count).actions i = true ↔
      i < maxActions ∧ i < count := by
  rw [usedAt, getElem?_victories]
  by_cases hlt : i < maxActions
  · by_cases hcount : i < count
    · simp [hlt, hcount, Action.used]
    · simp [hlt, hcount, Action.used, blankAction]
  · simp [hlt]

/-- The last of three actions is deleted. -/
theorem deletes_aligned_last : DeletesAction (victories 3) 2 := by
  rw [(deletes_aligned_iff (victories 3)).1 2 (by decide)]
  constructor
  · intro i j hlt hne hused
    rw [usedAt_victories] at hused ⊢
    have hbound : maxActions = 64 := rfl
    omega
  · intro i entry hne hentry hunused
    rw [getElem?_victories] at hentry
    split at hentry
    · cases hentry
      split at hunused
      · cases hunused
      · rw [if_neg ‹_›]
    · cases hentry

/-- The first of two actions leaves a gap. -/
theorem deleteAction_reads_behind : ¬ DeletesAction (victories 2) 0 := by
  rw [deletesAction_iff (by decide)]
  rintro ⟨hfirst, -⟩
  have hgap := hfirst 0 1 Nat.zero_lt_one Nat.one_ne_zero ((usedAt_victories 2 1).mpr (by decide))
  exact hgap.1 rfl

end Chkdraft.Chk
