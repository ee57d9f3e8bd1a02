import Chkdraft.Scenario.KeptSections
import Chkdraft.Scenario.UpgradeComments

/-!
# The loop of an upgrade over the triggers

The triggers are upgraded one after the other, and each that has comments to move
and no extended data gets the next free KTRG entry.  Which entry that is follows
from the triggers and the entries before the upgrade.
-/

namespace Chkdraft.Scenario

open Binary Chk Sections

variable {position : ℕ}

namespace EditorStrings

@[simp]
theorem refersTo_zero (editor : EditorStrings) : editor.refersTo 0 = false := by
  simp [refersTo]

end EditorStrings

section

variable (editor : EditorStrings) (action : Action)

theorem withoutText_withoutText :
    withoutText editor (withoutText editor action) = withoutText editor action := by
  by_cases hrefers : actionUsesStringArg action.actionType = true ∧
      editor.refersTo action.stringId.toNat = true
  · simp [withoutText, hrefers.1, hrefers.2]
  · rw [withoutText, if_neg]
    rw [withoutText, if_neg hrefers]
    exact hrefers

@[simp]
theorem actionType_withoutText : (withoutText editor action).actionType = action.actionType := by
  unfold withoutText
  split <;> rfl

@[simp]
theorem soundStringId_withoutText :
    (withoutText editor action).soundStringId = action.soundStringId := by
  unfold withoutText
  split <;> rfl

theorem withoutText_sound (soundStringId : UInt32) :
    withoutText editor { action with soundStringId := soundStringId } =
      { withoutText editor action with soundStringId := soundStringId } := by
  unfold withoutText
  split <;> rfl

theorem upgradedAction_upgradedAction : upgradedAction editor (upgradedAction editor action) =
      upgradedAction editor action := by
  by_cases hsound : actionUsesSoundArg action.actionType = true ∧
      editor.refersTo action.soundStringId.toNat = true
  · have hupgraded : upgradedAction editor action =
        { withoutText editor action with soundStringId := 0 } := if_pos hsound
    rw [hupgraded, upgradedAction, if_neg, withoutText_sound, withoutText_withoutText]
    simp
  · have hupgraded : upgradedAction editor action = withoutText editor action := if_neg hsound
    rw [hupgraded, upgradedAction, if_neg, withoutText_withoutText]
    simpa using hsound

@[simp]
theorem actionType_upgradedAction :
    (upgradedAction editor action).actionType = action.actionType := by
  unfold upgradedAction
  split
  · exact actionType_withoutText editor action
  · exact actionType_withoutText editor action

@[simp]
theorem stringId_upgradedAction :
    (upgradedAction editor action).stringId = (withoutText editor action).stringId := by
  unfold upgradedAction
  split <;> rfl

theorem refersComment_upgradedAction :
    refersComment editor (upgradedAction editor action) = false := by
  rw [Bool.eq_false_iff]
  intro hrefers
  rw [refersComment, Bool.and_eq_true, decide_eq_true_eq,
    actionType_upgradedAction, stringId_upgradedAction] at hrefers
  obtain ⟨hcomment, hrefers⟩ := hrefers
  have huses : actionUsesStringArg action.actionType = true := by
    rw [hcomment]
    decide
  unfold withoutText at hrefers
  split at hrefers
  · simp at hrefers
  · rename_i hstays
    exact hstays ⟨huses, hrefers⟩

end

section Plan

variable (editor : EditorStrings) (triggers : List Trigger)
  (entries : List (Option ExtendedTrigData))

/-- The comments the trigger at a position has to move. -/
def commentIdsAt (position : ℕ) : List ℕ := triggers[position]?.elim [] fun trigger =>
    commentIds editor trigger.actions.toList

/-- A trigger with comments to move and no extended data. -/
def needsEntry (position : ℕ) : Bool :=
  commentIdsAt editor triggers position ≠ [] ∧ triggerExtension? triggers entries position = none

/-- The entries together with so many new ones. -/
def withNewEntries : ℕ → List (Option ExtendedTrigData)
  | 0 => entries
  | count + 1 => (addExtendedTrigger (withNewEntries count) .blank).2

/-- How many triggers before a position need an entry. -/
def newEntries (position : ℕ) : ℕ :=
  (List.range position).countP (needsEntry editor triggers entries)

/-- The index of the entry for the comments of a trigger. -/
def plannedIndex (position : ℕ) : ℕ :=
  (triggerExtension? triggers entries position).elim (addExtendedTrigger (withNewEntries entries
      (newEntries editor triggers entries position)) .blank).1 Prod.fst

/-- A trigger keeps the entry its comments go to: a new index survives the owner
bits, and no trigger behind it with comments to move names the same entry. -/
def KeepsEntry (position : ℕ) : Prop := (triggerExtension? triggers entries position = none →
    ∀ trigger, triggers[position]? = some trigger →
      linkTarget trigger (plannedIndex editor triggers entries position) =
        plannedIndex editor triggers entries position) ∧
  ∀ other, position < other → commentIdsAt editor triggers other ≠ [] →
    indexAt triggers other ≠ some (plannedIndex editor triggers entries position)

/-- Every trigger with comments to move keeps its entry. -/
def KeepsEntries : Prop := ∀ position, commentIdsAt editor triggers position ≠ [] →
    KeepsEntry editor triggers entries position

theorem newEntries_succ (position : ℕ) : newEntries editor triggers entries (position + 1) =
      newEntries editor triggers entries position +
        if needsEntry editor triggers entries position then 1 else 0 := by
  rw [newEntries, List.range_succ, List.countP_append, List.countP_singleton]
  rfl

variable {editor triggers entries}

theorem plannedIndex_of_some {found : ℕ × ExtendedTrigData}
    (hfound : triggerExtension? triggers entries position = some found) :
    plannedIndex editor triggers entries position = found.1 := by
  rw [plannedIndex, hfound]
  rfl

theorem plannedIndex_of_none (hfound : triggerExtension? triggers entries position = none) :
    plannedIndex editor triggers entries position = (addExtendedTrigger (withNewEntries entries
        (newEntries editor triggers entries position)) .blank).1 := by
  rw [plannedIndex, hfound]
  rfl

end Plan

/-- The first triggers are upgraded. -/
structure UpgradedTriggers (editor : EditorStrings) (triggers : List Trigger)
    (entries : List (Option ExtendedTrigData)) (count : ℕ)
    (links : List Trigger × List (Option ExtendedTrigData)) : Prop where
  pending : ∀ position, count ≤ position → links.1[position]? = triggers[position]?
  done : ∀ position < count, ∀ trigger, triggers[position]? = some trigger →
    ∃ now, links.1[position]? = some now ∧ now.actions.toList =
        trigger.actions.toList.map (upgradedAction editor) ∧
      (commentIdsAt editor triggers position = [] → now.owners = trigger.owners)
  moved : ∀ position < count, commentIdsAt editor triggers position ≠ [] →
    indexAt links.1 position = some (plannedIndex editor triggers entries position) ∧
      ∃ extension, links.2.getD (plannedIndex editor triggers entries position) none =
          some extension ∧
        CommentSlots.ofData extension =
          (commentIdsAt editor triggers position).foldl CommentSlots.fill
            (slotsAt triggers entries position)
  rest : ∀ index, (∀ position < count, commentIdsAt editor triggers position ≠ [] →
      index ≠ plannedIndex editor triggers entries position) →
    links.2.getD index none = entries.getD index none
  occupied : ∀ index, links.2.getD index none = none ↔ (withNewEntries entries
      (newEntries editor triggers entries count)).getD index none = none

namespace UpgradedTriggers

variable {editor : EditorStrings} {triggers : List Trigger}
  {entries : List (Option ExtendedTrigData)} {count : ℕ}
  {links later : List Trigger × List (Option ExtendedTrigData)}

theorem start : UpgradedTriggers editor triggers entries 0 (triggers, entries) where
  pending := fun _ _ => rfl
  done := fun position hlt => absurd hlt (Nat.not_lt_zero position)
  moved := fun position hlt => absurd hlt (Nat.not_lt_zero position)
  rest := fun _ _ => rfl
  occupied := fun _ => Iff.rfl

section

variable (hupgraded : UpgradedTriggers editor triggers entries count links)

include hupgraded

theorem indexAt_eq : indexAt links.1 count = indexAt triggers count := by
  rw [indexAt, hupgraded.pending count le_rfl, indexAt]

section

variable (hkeeps : KeepsEntries editor triggers entries)
  (hids : commentIdsAt editor triggers count ≠ [])

include hkeeps hids

/-- The extended data of a trigger at its turn is what it was. -/
theorem extension_eq : triggerExtension? links.1 links.2 count =
      triggerExtension? triggers entries count := by
  apply triggerExtension_congr hupgraded.indexAt_eq
  intro index hindex
  apply hupgraded.rest
  rintro position hlt hmoves rfl
  exact (hkeeps position hmoves).2 count hlt hids hindex

/-- The entry of a trigger at its turn is the planned one. -/
theorem entryIndex_eq : entryIndex links.1 links.2 count =
      plannedIndex editor triggers entries count := by
  rw [entryIndex, hupgraded.extension_eq hkeeps hids, plannedIndex,
    addExtendedTrigger_congr hupgraded.occupied]

/-- The entry of a trigger at its turn is none of those planned before. -/
theorem plannedIndex_ne (hlt : position < count)
    (hmoves : commentIdsAt editor triggers position ≠ []) :
    plannedIndex editor triggers entries position ≠ plannedIndex editor triggers entries count := by
  intro heq
  cases hfound : triggerExtension? triggers entries count with
  | some found =>
      have hat := (triggerExtension_eq_some_iff.mp hfound).1
      apply (hkeeps position hmoves).2 count hlt hids
      rw [heq, plannedIndex_of_some hfound, hat]
  | none =>
      have hplanned := hupgraded.entryIndex_eq hkeeps hids
      obtain ⟨-, old, hold, -⟩ := hupgraded.moved position hlt hmoves
      have hfree := (addExtendedTrigger_least links.2 .blank).1
      rw [entryIndex, hupgraded.extension_eq hkeeps hids, hfound, Option.elim_none] at hplanned
      rw [hplanned, ← heq, hold] at hfree
      cases hfree

end

end

section Step

variable {state : TriggerUpgrade} {trigger : Trigger}
  (hupgraded : UpgradedTriggers editor triggers entries count links)
  (hstate : Upgrading links.1 links.2 count trigger
    (trigger.actions.toList.map (upgradedAction editor))
    (commentIdsAt editor triggers count) state)

include hupgraded hstate

theorem pending_next (hle : count + 1 ≤ position) :
    state.triggers[position]? = triggers[position]? := by
  rw [hstate.others position (by omega)]
  exact hupgraded.pending position (by omega)

theorem done_next (htrigger : triggers[count]? = some trigger)
    (hlt : position < count + 1) {found : Trigger}
    (hfound : triggers[position]? = some found) :
    ∃ now, state.triggers[position]? = some now ∧
      now.actions.toList = found.actions.toList.map (upgradedAction editor) ∧
      (commentIdsAt editor triggers position = [] → now.owners = found.owners) := by
  rcases Nat.lt_or_eq_of_le (Nat.le_of_lt_succ hlt) with hbefore | rfl
  · obtain ⟨now, hnow, hrest⟩ := hupgraded.done position hbefore found hfound
    refine ⟨now, ?_, hrest⟩
    rw [hstate.others position (by omega)]
    exact hnow
  · rw [htrigger] at hfound
    cases hfound
    exact hstate.current

omit hupgraded in
theorem indexAt_next (hne : position ≠ count) :
    indexAt state.triggers position = indexAt links.1 position := by
  rw [indexAt, hstate.others position hne, indexAt]

theorem step_of_nil (htrigger : triggers[count]? = some trigger)
    (hids : commentIdsAt editor triggers count = []) :
    UpgradedTriggers editor triggers entries (count + 1) (state.triggers, state.entries) := by
  have hentries := hstate.unmoved hids
  have hneeds : needsEntry editor triggers entries count = false := by
    simp [needsEntry, hids]
  refine ⟨fun _ hle => hupgraded.pending_next hstate hle,
    fun _ hlt _ hfound => hupgraded.done_next hstate htrigger hlt hfound,
    fun position hlt hmoves => ?_, fun index hindex => ?_, fun index => ?_⟩
  · have hne : position ≠ count := by
      rintro rfl
      exact hmoves hids
    obtain ⟨hindex, hentry⟩ := hupgraded.moved position (by omega) hmoves
    rw [hentries, indexAt_next hstate hne]
    exact ⟨hindex, hentry⟩
  · rw [hentries]
    exact hupgraded.rest index fun position hlt => hindex position (by omega)
  · rw [hentries, newEntries_succ, hneeds]
    exact hupgraded.occupied index

omit hstate in
/-- The occupied indexes after the comments of one more trigger. -/
theorem occupied_next (hkeeps : KeepsEntries editor triggers entries)
    (hids : commentIdsAt editor triggers count ≠ [])
    {extension : ExtendedTrigData}
    (hentry : state.entries.getD (plannedIndex editor triggers entries count) none = some extension)
    (hothers : ∀ index, index ≠ plannedIndex editor triggers entries count →
      state.entries.getD index none = links.2.getD index none) (index : ℕ) :
    state.entries.getD index none = none ↔
      (withNewEntries entries (newEntries editor triggers entries
        (count + 1))).getD index none = none := by
  have hextension := hupgraded.extension_eq hkeeps hids
  cases hfound : triggerExtension? triggers entries count with
  | some found =>
      have hneeds : needsEntry editor triggers entries count = false := by
        simp [needsEntry, hfound]
      rw [newEntries_succ, hneeds]
      refine Iff.trans ?_ (hupgraded.occupied index)
      by_cases heq : index = plannedIndex editor triggers entries count
      · rw [hfound] at hextension
        rw [heq, hentry, plannedIndex_of_some hfound,
          (triggerExtension_eq_some_iff.mp hextension).2]
        simp
      · rw [hothers index heq]
  | none =>
      have hneeds : needsEntry editor triggers entries count = true := by
        simp [needsEntry, hfound, hids]
      rw [newEntries_succ, hneeds, if_pos rfl, withNewEntries,
        getD_addExtendedTrigger, ← plannedIndex_of_none hfound]
      by_cases heq : index = plannedIndex editor triggers entries count
      · rw [if_pos heq, heq, hentry]
        simp
      · rw [if_neg heq, hothers index heq]
        exact hupgraded.occupied index

theorem step_of_ne_nil (hkeeps : KeepsEntries editor triggers entries)
    (htrigger : triggers[count]? = some trigger)
    (hids : commentIdsAt editor triggers count ≠ []) :
    UpgradedTriggers editor triggers entries (count + 1) (state.triggers, state.entries) := by
  have hextension := hupgraded.extension_eq hkeeps hids
  obtain ⟨hindex, ⟨extension, hentry, hslots⟩, hothers⟩ := hstate.moved hids
  rw [hupgraded.entryIndex_eq hkeeps hids] at hindex hentry hothers
  refine ⟨fun _ hle => hupgraded.pending_next hstate hle,
    fun _ hlt _ hfound => hupgraded.done_next hstate htrigger hlt hfound,
    fun position hlt hmoves => ?_, fun index hrest => ?_,
    hupgraded.occupied_next hkeeps hids hentry hothers⟩
  · rcases Nat.lt_or_eq_of_le (Nat.le_of_lt_succ hlt) with hbefore | rfl
    · obtain ⟨hat, hold⟩ := hupgraded.moved position hbefore hmoves
      rw [hothers _ (hupgraded.plannedIndex_ne hkeeps hids hbefore hmoves),
        indexAt_next hstate hbefore.ne]
      exact ⟨hat, hold⟩
    · refine ⟨hindex, extension, hentry, ?_⟩
      rw [← hslots, hstate.slots_eq, slotsAt_eq, slotsAt_eq, entryData, hextension, entryData]
  · rw [hothers index (hrest count (by omega) hids)]
    exact hupgraded.rest index fun position hlt => hrest position (by omega)

end Step

theorem step (hupgraded : UpgradedTriggers editor triggers entries count links)
    (hkeeps : KeepsEntries editor triggers entries)
    (hlt : count < triggers.length)
    (hupgrade : upgradeTrigger editor links count = .ok later) :
    UpgradedTriggers editor triggers entries (count + 1) later := by
  have htrigger : triggers[count]? = some triggers[count] := List.getElem?_eq_getElem hlt
  set trigger := triggers[count] with hname
  have hids : commentIds editor trigger.actions.toList = commentIdsAt editor triggers count := by
    rw [commentIdsAt, htrigger]
    rfl
  have hlink : commentIds editor trigger.actions.toList ≠ [] →
      triggerExtension? links.1 links.2 count = none →
      linkTarget trigger (addExtendedTrigger links.2 .blank).1 =
        (addExtendedTrigger links.2 .blank).1 := by
    intro hmoves hnone
    rw [hids] at hmoves
    have hplanned := hupgraded.entryIndex_eq hkeeps hmoves
    rw [entryIndex, hnone, Option.elim_none] at hplanned
    rw [hupgraded.extension_eq hkeeps hmoves] at hnone
    rw [hplanned]
    exact (hkeeps count hmoves).1 hnone trigger htrigger
  obtain ⟨state, rfl, hstate⟩ := upgradeTrigger_upgrading
    (by rw [hupgraded.pending count le_rfl, htrigger]) hlink hupgrade
  rw [hids] at hstate
  by_cases hmoves : commentIdsAt editor triggers count = []
  · exact hupgraded.step_of_nil hstate htrigger hmoves
  · exact hupgraded.step_of_ne_nil hstate hkeeps htrigger hmoves

theorem of_range (hkeeps : KeepsEntries editor triggers entries) (hcount : count ≤ triggers.length)
    (hrun : (List.range count).foldlM (upgradeTrigger editor) (triggers, entries) = .ok later) :
    UpgradedTriggers editor triggers entries count later := by
  induction count generalizing later with
  | zero =>
      cases hrun
      exact UpgradedTriggers.start
  | succ count ih =>
      rw [List.range_succ, List.foldlM_append, Fault.bind_eq_ok_iff] at hrun
      obtain ⟨middle, hmiddle, hlast⟩ := hrun
      rw [List.foldlM_cons, Fault.bind_eq_ok_iff] at hlast
      obtain ⟨next, hnext, hresult⟩ := hlast
      cases hresult
      exact (ih (by omega) hmiddle).step hkeeps (by omega) hnext

end UpgradedTriggers

/-- The triggers after the upgrade: their actions are upgraded, and the comments
are in the slots that were free. -/
structure MovesComments (editor : EditorStrings) (triggers : List Trigger)
    (entries : List (Option ExtendedTrigData)) (later : List Trigger)
    (laterEntries : List (Option ExtendedTrigData)) : Prop where
  length_eq : later.length = triggers.length
  actions : ∀ (position : ℕ) (trigger : Trigger), triggers[position]? = some trigger →
    ∃ now : Trigger, later[position]? = some now ∧
      now.actions.toList = trigger.actions.toList.map (upgradedAction editor)
  slots : ∀ position, commentIdsAt editor triggers position ≠ [] →
    slotsAt later laterEntries position =
      (commentIdsAt editor triggers position).foldl CommentSlots.fill
        (slotsAt triggers entries position)

theorem slotsAt_of_entry {triggers : List Trigger}
    {entries : List (Option ExtendedTrigData)} {index : ℕ}
    {extension : ExtendedTrigData}
    (hindex : indexAt triggers position = some index)
    (hentry : entries.getD index none = some extension) :
    slotsAt triggers entries position = .ofData extension := by
  rw [slotsAt_eq, entryData, triggerExtension_eq_some_iff.mpr ⟨hindex, hentry⟩]
  rfl

section Passes

variable {editor : EditorStrings} {triggers middle later : List Trigger}
  {entries middleEntries laterEntries : List (Option ExtendedTrigData)}

theorem movesComments_of_pass (hkeeps : KeepsEntries editor triggers entries)
    (hrun : (List.range triggers.length).foldlM (upgradeTrigger editor)
      (triggers, entries) = .ok (later, laterEntries)) :
    MovesComments editor triggers entries later laterEntries := by
  have hupgraded := UpgradedTriggers.of_range hkeeps le_rfl hrun
  have hinside : ∀ position, commentIdsAt editor triggers position ≠ [] →
      position < triggers.length := by
    intro position hids
    by_contra hge
    rw [commentIdsAt, List.getElem?_eq_none (Nat.le_of_not_lt hge)] at hids
    exact hids rfl
  refine ⟨?_, fun position trigger htrigger => ?_, fun position hids => ?_⟩
  · exact Fault.foldlM_invariant (fun links : List Trigger × List (Option ExtendedTrigData) =>
        links.1.length = triggers.length)
      rfl (fun links position upgraded _ hlinks hstep =>
        (length_upgradeTrigger hstep).trans hlinks) hrun
  · have hlt := (List.getElem?_eq_some_iff.mp htrigger).1
    obtain ⟨now, hnow, hactions, -⟩ := hupgraded.done position hlt trigger htrigger
    exact ⟨now, hnow, hactions⟩
  · obtain ⟨hindex, extension, hentry, hslots⟩ :=
      hupgraded.moved position (hinside position hids) hids
    rw [slotsAt_of_entry hindex hentry, hslots]

theorem MovesComments.again (hmoves : MovesComments editor triggers entries middle middleEntries)
    (hrun : (List.range middle.length).foldlM (upgradeTrigger editor)
      (middle, middleEntries) = .ok (later, laterEntries)) :
    MovesComments editor triggers entries later laterEntries := by
  have hnone : ∀ position, commentIdsAt editor middle position = [] := by
    intro position
    cases hnow : middle[position]? with
    | none =>
        rw [commentIdsAt, hnow]
        rfl
    | some now =>
        have hlt := (List.getElem?_eq_some_iff.mp hnow).1
        have hbefore : position < triggers.length := by
          rw [← hmoves.length_eq]
          exact hlt
        obtain ⟨found, hfound, hactions⟩ := hmoves.actions position _
          (List.getElem?_eq_getElem hbefore)
        rw [hnow] at hfound
        cases hfound
        rw [commentIdsAt, hnow, Option.elim_some, hactions, commentIds,
          List.map_eq_nil_iff, List.filter_eq_nil_iff]
        intro action haction
        obtain ⟨old, -, rfl⟩ := List.mem_map.mp haction
        rw [refersComment_upgradedAction]
        exact Bool.false_ne_true
  have hkeeps : KeepsEntries editor middle middleEntries :=
    fun position hids => absurd (hnone position) hids
  have hupgraded := UpgradedTriggers.of_range hkeeps le_rfl hrun
  have hlength := (movesComments_of_pass hkeeps hrun).length_eq
  refine ⟨hlength.trans hmoves.length_eq, fun position trigger htrigger => ?_,
    fun position hids => ?_⟩
  · obtain ⟨now, hnow, hactions⟩ := hmoves.actions position trigger htrigger
    have hlt := (List.getElem?_eq_some_iff.mp hnow).1
    obtain ⟨last, hlast, hagain, -⟩ := hupgraded.done position hlt now hnow
    refine ⟨last, hlast, ?_⟩
    rw [hagain, hactions, List.map_map]
    exact List.map_congr_left fun action _ =>
      upgradedAction_upgradedAction editor action
  · have hsame : triggerExtension? later laterEntries position =
        triggerExtension? middle middleEntries position := by
      apply triggerExtension_congr
      · cases hnow : middle[position]? with
        | none =>
            have hge := List.getElem?_eq_none_iff.mp hnow
            rw [indexAt, indexAt, hnow, List.getElem?_eq_none (by omega)]
        | some now =>
            have hlt := (List.getElem?_eq_some_iff.mp hnow).1
            obtain ⟨last, hlast, -, howners⟩ := hupgraded.done position hlt now hnow
            change later[position]? = some last at hlast
            rw [indexAt, indexAt, hlast, hnow, Option.bind_some,
              Option.bind_some, getExtendedDataIndex, getExtendedDataIndex,
              indexWord, indexWord, howners (hnone position)]
      · intro index _
        exact hupgraded.rest index fun other _ hother =>
          absurd (hnone other) hother
    rw [← hmoves.slots position hids, slotsAt_eq, slotsAt_eq, entryData, hsame, entryData]

end Passes

end Chkdraft.Scenario
