import Chkdraft.Scenario.LinkRepair
import Chkdraft.Sections.ItemLists
import Chkdraft.TextTrigs.Compiler

/-!
# Editing the trigger list

The functions of `Triggers` that change the list of triggers or the extended
data of one.  Inserting, deleting and moving a trigger repair the links
afterwards.  `Triggers::replaceRange` returns before it reaches its repair.
-/

namespace Chkdraft.Scenario

open Chk Sections TextTrigs

variable {extension : ExtendedTrigData} {changed : List Trigger}
  {changedEntries : List (Option ExtendedTrigData)} {stringId : ℕ}

variable {index position : ℕ} {entries : List (Option ExtendedTrigData)}
  {triggers : List Trigger}

/-- The triggers of a scenario and the entries of its KTRG section. -/
structure TriggerLists where
  triggers : List Trigger
  entries : List (Option ExtendedTrigData)
  usable : UsableEntries entries

/-- A call of one of the functions of `Triggers`. -/
inductive TriggerEdit where
  | addTrigger (trigger : Trigger)
  | insertTrigger (triggerIndex : ℕ) (trigger : Trigger)
  | deleteTrigger (triggerIndex : ℕ)
  | moveTrigger (triggerIndexFrom triggerIndexTo : ℕ)
  | replaceRange (beginIndex endIndex : ℕ) (triggers : List Trigger)
  | setExtendedCommentStringId (triggerIndex stringId : ℕ)
  | setExtendedNotesStringId (triggerIndex stringId : ℕ)

namespace TriggerEdit

/-- The functions after which the links should be in order. -/
def repairs : TriggerEdit → Bool
  | insertTrigger _ _ | deleteTrigger _ | moveTrigger _ _
  | replaceRange _ _ _ => true
  | _ => false

/-- What the function does to the list of triggers before any repair. -/
def editTriggers (triggers : List Trigger) : TriggerEdit → Except (Fault Exception) (List Trigger)
  | addTrigger trigger => .ok (Sections.addTrigger triggers trigger)
  | insertTrigger triggerIndex trigger =>
      .ok (Sections.insertTrigger triggers triggerIndex trigger)
  | deleteTrigger triggerIndex =>
      .ok (Sections.deleteTrigger triggers triggerIndex)
  | moveTrigger triggerIndexFrom triggerIndexTo =>
      Fault.ofHazard (Sections.moveTrigger triggers triggerIndexFrom triggerIndexTo)
  | replaceRange beginIndex endIndex replacement =>
      ((TextTrigs.replaceRange triggers beginIndex endIndex
        replacement).mapError Fault.thrown).map Prod.fst
  | _ => .ok triggers

def apply (triggers : List Trigger)
    (entries : List (Option ExtendedTrigData)) (edit : TriggerEdit) :
    Except (Fault Exception) (List Trigger × List (Option ExtendedTrigData)) := do
  let edited ← edit.editTriggers triggers
  match edit with
  | insertTrigger _ _ | deleteTrigger _ | moveTrigger _ _ =>
      fixTriggerExtensions edited entries
  | setExtendedCommentStringId triggerIndex stringId =>
      setTriggerExtension edited entries triggerIndex stringId fun extension =>
          { extension with commentStringId := UInt32.ofNat stringId }
  | setExtendedNotesStringId triggerIndex stringId =>
      setTriggerExtension edited entries triggerIndex stringId fun extension =>
          { extension with notesStringId := UInt32.ofNat stringId }
  | _ => .ok (edited, entries)

end TriggerEdit

theorem indexUsable_of_mod (hmod : 2 ≤ index % 4) : indexUsable index = true := by
  apply decide_eq_true
  intro hand
  have hbit : (index &&& unusedExtendedTrigDataIndexCheck).testBit 1 =
      false := by
    rw [hand, Nat.zero_testBit]
  have hmask : unusedExtendedTrigDataIndexCheck.testBit 1 = true := by decide
  rw [Nat.testBit_and, hmask, Bool.and_true, Nat.testBit_eq_decide_div_mod_eq] at hbit
  have hodd := of_decide_eq_false hbit
  omega

theorem indexUsable_nextUsableIndex (length : ℕ) :
    indexUsable (nextUsableIndex length) = true ∧ length ≤ nextUsableIndex length := by
  have hexists : ∃ index ∈ List.range' length 8, indexUsable index = true := by
    refine ⟨if 2 ≤ length % 4 then length else length + (2 - length % 4), ?_, ?_⟩
    · rw [List.mem_range'_1]
      split <;> omega
    · apply indexUsable_of_mod
      split <;> omega
  unfold nextUsableIndex
  cases hfind : (List.range' length 8).find? fun index => indexUsable index with
  | none =>
      obtain ⟨index, hmem, husable⟩ := hexists
      exact absurd husable (List.find?_eq_none.mp hfind index hmem)
  | some index =>
      have hmem := List.mem_of_find?_eq_some hfind
      rw [List.mem_range'_1] at hmem
      exact ⟨List.find?_some hfind, hmem.1⟩

theorem getD_addExtendedTrigger (entries : List (Option ExtendedTrigData))
    (extension : ExtendedTrigData) (other : ℕ) :
    (addExtendedTrigger entries extension).2.getD other none =
      if other = (addExtendedTrigger entries extension).1 then some extension
      else entries.getD other none := by
  unfold addExtendedTrigger
  split
  · rename_i index hfind
    have hlt := List.mem_range.mp (List.mem_of_find?_eq_some hfind)
    exact Table.getD_set entries index other (some extension) hlt
  · have hle := (indexUsable_nextUsableIndex entries.length).2
    have hlength : (entries ++ List.replicate
        (nextUsableIndex entries.length - entries.length) none).length =
        nextUsableIndex entries.length := by
      rw [List.length_append, List.length_replicate]
      omega
    dsimp only
    rw [List.getD_eq_getElem?_getD, List.getD_eq_getElem?_getD]
    rcases Nat.lt_trichotomy other (nextUsableIndex entries.length) with
      hlt | rfl | hgt
    · rw [if_neg (by omega), List.getElem?_append_left (by omega)]
      rcases Nat.lt_or_ge other entries.length with hinside | hpadding
      · rw [List.getElem?_append_left hinside]
      · rw [List.getElem?_append_right hpadding, List.getElem?_replicate,
          List.getElem?_eq_none hpadding]
        split <;> rfl
    · rw [if_pos rfl, List.getElem?_append_right (by omega), hlength, Nat.sub_self]
      rfl
    · have hend : (entries ++ List.replicate
          (nextUsableIndex entries.length - entries.length) none ++
          [some extension]).length ≤ other := by
        rw [List.length_append, hlength, List.length_singleton]
        omega
      rw [if_neg (by omega), List.getElem?_eq_none hend, List.getElem?_eq_none (by omega)]

theorem indexUsable_addExtendedTrigger (entries : List (Option ExtendedTrigData))
    (extension : ExtendedTrigData) :
    indexUsable (addExtendedTrigger entries extension).1 = true := by
  unfold addExtendedTrigger
  split
  · rename_i index hfind
    have hfound := List.find?_some hfind
    simp only [decide_eq_true_eq] at hfound
    exact hfound.2
  · exact (indexUsable_nextUsableIndex entries.length).1

theorem usableEntries_set (husable : UsableEntries entries)
    (hindex : indexUsable index = true) (entry : Option ExtendedTrigData) :
    UsableEntries (entries.set index entry) := by
  intro other hstored
  rcases Nat.lt_or_ge index entries.length with hlt | hge
  · rw [Table.getD_set entries index other entry hlt] at hstored
    split at hstored
    · rename_i heq
      rw [heq]
      exact hindex
    · exact husable other hstored
  · rw [List.set_eq_of_length_le hge] at hstored
    exact husable other hstored

theorem usableEntries_addExtendedTrigger (husable : UsableEntries entries)
    (extension : ExtendedTrigData) :
    UsableEntries (addExtendedTrigger entries extension).2 := by
  intro other hstored
  rw [getD_addExtendedTrigger] at hstored
  split at hstored
  · rename_i heq
    rw [heq]
    exact indexUsable_addExtendedTrigger entries extension
  · exact husable other hstored

theorem triggerExtension_eq_some_iff :
    triggerExtension? triggers entries position = some (index, extension) ↔
      indexAt triggers position = some index ∧ entries.getD index none = some extension := by
  unfold triggerExtension? indexAt
  cases triggers[position]? with
  | none => simp
  | some trigger =>
      simp only [Option.bind_eq_bind, Option.bind_some, Option.bind_eq_some_iff,
        Option.pure_def, Option.some.injEq, Prod.mk.injEq]
      constructor
      · rintro ⟨other, hother, found, hfound, rfl, rfl⟩
        exact ⟨hother, hfound⟩
      · rintro ⟨hindex, hentry⟩
        exact ⟨index, hindex, extension, hentry, rfl, rfl⟩

/-- Setting a comment or notes keeps entries at usable indexes. -/
theorem usableEntries_setTriggerExtension (husable : UsableEntries entries)
    {change : ExtendedTrigData → ExtendedTrigData}
    (hset : setTriggerExtension triggers entries position stringId change =
      .ok (changed, changedEntries)) : UsableEntries changedEntries := by
  unfold setTriggerExtension at hset
  split at hset
  · cases hset
  · split at hset
    · rename_i trigger _ _ index extension hextension
      have hindex : indexUsable index = true := by
        apply husable index
        rw [(triggerExtension_eq_some_iff.mp hextension).2]
        exact Option.some_ne_none extension
      split at hset
      · cases hset
        exact usableEntries_deleteExtendedTrigger (usableEntries_set husable hindex _) index
      · cases hset
        exact usableEntries_set husable hindex _
    · split at hset
      · cases hset
        exact husable
      · split at hset
        rename_i index added hadded
        have hadd := usableEntries_addExtendedTrigger husable .blank
        have hindex := indexUsable_addExtendedTrigger entries .blank
        rw [hadded] at hadd hindex
        split at hset
        · cases hset
        · cases hset
          exact usableEntries_set hadd hindex _

variable {edit : TriggerEdit}

theorem TriggerEdit.usableEntries_apply (husable : UsableEntries entries)
    (happly : edit.apply triggers entries = .ok (changed, changedEntries)) :
    UsableEntries changedEntries := by
  rw [TriggerEdit.apply, Fault.bind_eq_ok_iff] at happly
  obtain ⟨edited, -, hrest⟩ := happly
  cases edit with
  | addTrigger _ | replaceRange _ _ _ =>
      cases hrest
      exact husable
  | insertTrigger _ _ | deleteTrigger _ | moveTrigger _ _ =>
      exact (repairedTo_of_ok husable hrest).usable
  | setExtendedCommentStringId _ _ | setExtendedNotesStringId _ _ =>
      exact usableEntries_setTriggerExtension husable hrest

/-- Every trigger with an index has an entry of its own that knows its position,
and every entry has a trigger. -/
structure Linked (triggers : List Trigger) (entries : List (Option ExtendedTrigData)) : Prop where
  unique : ∀ first second index, indexAt triggers first = some index →
    indexAt triggers second = some index → first = second
  exists_entry : ∀ position index, indexAt triggers position = some index →
    ∃ extension, entries.getD index none = some extension ∧
      extension.trigNum = UInt32.ofNat position
  exists_trigger : ∀ index extension, entries.getD index none = some extension →
    ∃ position, indexAt triggers position = some index

/-- The repair can bring the links in order: an entry that no trigger names asks
for no trigger, or is the only one to ask for a trigger that names no entry of
its own, and the owner bits of that trigger do not alter the index. -/
def Repairable (triggers : List Trigger) (entries : List (Option ExtendedTrigData)) : Prop :=
  ∀ index extension, Orphan triggers entries index extension →
    extension.trigNum = 0xFFFFFFFF ∨ Settable index ∧
      (∃ trigger, triggers[extension.trigNum.toNat]? = some trigger ∧
        (∀ other, ¬ Claims triggers entries extension.trigNum.toNat other) ∧
        linkTarget (dropIndex trigger) index = index) ∧
      ∀ other otherExtension, Orphan triggers entries other otherExtension →
        otherExtension.trigNum = extension.trigNum → other = index

section Repair

variable {triggers fixedTriggers : List Trigger}
  {entries fixedEntries : List (Option ExtendedTrigData)}

theorem Repairable.adoptable (hrepairable : Repairable triggers entries)
    (index : ℕ) : Adoptable triggers entries index := by
  intro position hwanted
  obtain ⟨extension, horphan, hnum, rfl⟩ := wanted_eq_some_iff.mp hwanted
  rcases hrepairable index extension horphan with hnone |
    ⟨hsettable, ⟨trigger, htrigger, hnot, -⟩, -⟩
  · exact absurd hnone hnum
  · exact ⟨_, getElem?_keptTriggers_of_not htrigger hnot, fun _ _ => hsettable⟩

/-- The index a trigger has after the repair: the entry it claims, or the orphan
that asks for it. -/
theorem Repairable.indexAt_iff (hrepairable : Repairable triggers entries) :
    indexAt (adoptTriggers triggers entries entries.length) position = some index ↔
      Claims triggers entries position index ∨ wanted triggers entries index = some position := by
  -- A wanted trigger claims nothing and is given the index that wants it.
  have hwants : ∀ other, wanted triggers entries other = some position →
      (∀ claimed, ¬ Claims triggers entries position claimed) ∧
        indexAt (adoptTriggers triggers entries entries.length) position = some other := by
    intro other hwanted
    obtain ⟨extension, horphan, hnum, rfl⟩ := wanted_eq_some_iff.mp hwanted
    rcases hrepairable other extension horphan with hnone |
      ⟨-, ⟨trigger, htrigger, hnot, htarget⟩, honly⟩
    · exact absurd hnone hnum
    · refine ⟨hnot, ?_⟩
      obtain ⟨first, hfirst⟩ := Option.ne_none_iff_exists'.mp
        (adopted_ne_none_of_wanted (lt_length_of_wanted hwanted) hwanted)
      obtain ⟨-, hfirstWanted, -⟩ := adopted_eq_some hfirst
      obtain ⟨firstExtension, hfirstOrphan, -, hsame⟩ := wanted_eq_some_iff.mp hfirstWanted
      have heq : first = other :=
        honly first firstExtension hfirstOrphan (UInt32.toNat_inj.mp hsame)
      rw [indexAt_adoptTriggers_of_not hrepairable.adoptable htrigger hnot,
        hfirst, heq, Option.map_some, htarget]
  constructor
  · intro hindex
    by_cases hclaims : ∃ claimed, Claims triggers entries position claimed
    · obtain ⟨claimed, hclaimed⟩ := hclaims
      rw [indexAt_adoptTriggers_of_claims hclaimed] at hindex
      rw [← Option.some.inj hindex]
      exact .inl hclaimed
    · right
      have hnot : ∀ claimed, ¬ Claims triggers entries position claimed :=
        fun claimed h => hclaims ⟨claimed, h⟩
      have hlt : position < triggers.length := by
        by_contra hge
        rw [indexAt, List.getElem?_eq_none] at hindex
        · cases hindex
        · simpa [adoptTriggers, claimTriggers] using Nat.le_of_not_lt hge
      rw [indexAt_adoptTriggers_of_not hrepairable.adoptable
        (List.getElem?_eq_getElem hlt) hnot] at hindex
      obtain ⟨first, hfirst, -⟩ := Option.map_eq_some_iff.mp hindex
      obtain ⟨-, hwanted, -⟩ := adopted_eq_some hfirst
      have hgiven := (hwants first hwanted).2
      rw [indexAt_adoptTriggers_of_not hrepairable.adoptable
        (List.getElem?_eq_getElem hlt) hnot, hindex] at hgiven
      rw [Option.some.inj hgiven]
      exact hwanted
  · rintro (hclaims | hwanted)
    · exact indexAt_adoptTriggers_of_claims hclaims
    · exact (hwants index hwanted).2

theorem Repairable.linked (hrepairable : Repairable triggers entries)
    (hrepaired : RepairedTo triggers entries fixedTriggers fixedEntries) :
    Linked fixedTriggers fixedEntries where
  unique := by
    intro first second index hfirst hsecond
    rw [hrepaired.triggers_eq, hrepairable.indexAt_iff] at hfirst hsecond
    rcases hfirst with hfirst | hfirst <;> rcases hsecond with hsecond | hsecond
    · exact hfirst.unique hsecond
    · exact absurd hsecond (wanted_ne_of_claims hfirst)
    · exact absurd hfirst (wanted_ne_of_claims hsecond)
    · exact Option.some.inj (hfirst.symm.trans hsecond)
  exists_entry := by
    intro position index hindex
    rw [hrepaired.triggers_eq, hrepairable.indexAt_iff] at hindex
    rw [hrepaired.getD_entries]
    rcases hindex with hclaims | hwanted
    · obtain ⟨extension, hentry⟩ := Option.ne_none_iff_exists'.mp hclaims.2.1
      exact ⟨_, adoptEntry_of_claims hclaims hentry, rfl⟩
    · obtain ⟨extension, horphan, hnum, rfl⟩ := wanted_eq_some_iff.mp hwanted
      exact ⟨extension, adoptEntry_of_orphan horphan hnum, UInt32.ofNat_toNat.symm⟩
  exists_trigger := by
    intro index extension hentry
    rw [hrepaired.getD_entries] at hentry
    have hstored : adoptEntry triggers entries entries.length index ≠ none := by
      rw [hentry]
      exact Option.some_ne_none extension
    rw [hrepaired.triggers_eq]
    rcases claims_or_wanted_of_adoptEntry hstored with
      ⟨position, hclaims⟩ | ⟨position, hwanted⟩
    · exact ⟨position, hrepairable.indexAt_iff.mpr (.inl hclaims)⟩
    · exact ⟨position, hrepairable.indexAt_iff.mpr (.inr hwanted)⟩

theorem exists_linked_of_repairable (husable : UsableEntries entries)
    (hrepairable : Repairable triggers entries) :
    ∃ fixedTriggers fixedEntries, fixTriggerExtensions triggers entries =
        .ok (fixedTriggers, fixedEntries) ∧
      Linked fixedTriggers fixedEntries := by
  obtain ⟨fixedTriggers, fixedEntries, hok⟩ :=
    (fixTriggerExtensions_returns_iff husable).mpr hrepairable.adoptable
  exact ⟨fixedTriggers, fixedEntries, hok, hrepairable.linked (repairedTo_of_ok husable hok)⟩

/-- Replacing triggers keeps links in order that were in order if every position
keeps its index. -/
theorem Linked.congr (hlinked : Linked triggers entries)
    (hsame : ∀ position, indexAt fixedTriggers position =
      indexAt triggers position) : Linked fixedTriggers entries where
  unique := by
    intro first second index
    rw [hsame, hsame]
    exact hlinked.unique first second index
  exists_entry := by
    intro position index
    rw [hsame]
    exact hlinked.exists_entry position index
  exists_trigger := by
    intro index extension hentry
    obtain ⟨position, hposition⟩ := hlinked.exists_trigger index extension hentry
    exact ⟨position, (hsame position).trans hposition⟩

end Repair

variable {lists : TriggerLists}

namespace TriggerLists

def step (lists : TriggerLists) (edit : TriggerEdit) : Except (Fault Exception) TriggerLists :=
  match happly : edit.apply lists.triggers lists.entries with
  | .ok (triggers, entries) =>
      .ok ⟨triggers, entries, TriggerEdit.usableEntries_apply lists.usable happly⟩
  | .error error => .error error

def run (lists : TriggerLists) (edits : List TriggerEdit) : Except (Fault Exception) TriggerLists :=
  edits.foldlM step lists

/-- When a call with arguments in range brings the links in order, or returns if
it is not meant to. -/
def Meets (lists : TriggerLists) : TriggerEdit → Prop
  | .addTrigger _ => True
  | .insertTrigger triggerIndex trigger =>
      triggerIndex ≤ lists.triggers.length ∧
        Repairable (insertTrigger lists.triggers triggerIndex trigger) lists.entries
  | .deleteTrigger triggerIndex =>
      triggerIndex < lists.triggers.length ∧
        Repairable (deleteTrigger lists.triggers triggerIndex) lists.entries
  | .moveTrigger triggerIndexFrom triggerIndexTo =>
      triggerIndexFrom < lists.triggers.length ∧ triggerIndexTo < lists.triggers.length ∧
        ¬ (triggerIndexTo = 0 ∧ 2 ≤ triggerIndexFrom) ∧
        ∀ moved, moveTrigger lists.triggers triggerIndexFrom triggerIndexTo =
          .ok moved → Repairable moved lists.entries
  | .replaceRange beginIndex endIndex triggers =>
      Linked lists.triggers lists.entries ∧
        if beginIndex = 0 ∧ endIndex = triggers.length then
          ∀ position, indexAt triggers position = indexAt lists.triggers position
        else
          (beginIndex < endIndex ∧ endIndex ≤ lists.triggers.length) ∧
          ∀ position, indexAt (lists.triggers.take beginIndex ++ triggers ++
              lists.triggers.drop endIndex) position =
            indexAt lists.triggers position
  | .setExtendedCommentStringId triggerIndex stringId
  | .setExtendedNotesStringId triggerIndex stringId =>
      triggerIndex < lists.triggers.length ∧ (stringId ≠ 0 →
          triggerExtension? lists.triggers lists.entries triggerIndex = none →
          Settable (addExtendedTrigger lists.entries .blank).1)

theorem step_of_apply {triggers : List Trigger}
    {entries : List (Option ExtendedTrigData)}
    (happly : edit.apply lists.triggers lists.entries = .ok (triggers, entries)) :
    ∃ after, lists.step edit = .ok after ∧ after.triggers = triggers ∧ after.entries = entries := by
  unfold step
  split
  · rename_i others otherEntries hother
    rw [happly] at hother
    cases hother
    exact ⟨_, rfl, rfl, rfl⟩
  · rename_i error herror
    rw [happly] at herror
    cases herror

/-- Setting a comment or notes returns if the index of a new entry can be
set. -/
theorem setTriggerExtension_returns {triggers : List Trigger}
    {entries : List (Option ExtendedTrigData)}
    (change : ExtendedTrigData → ExtendedTrigData) (hlt : position < triggers.length)
    (hsettable : stringId ≠ 0 → triggerExtension? triggers entries position = none →
      Settable (addExtendedTrigger entries .blank).1) :
    ∃ changed changedEntries, setTriggerExtension triggers entries position stringId change =
        .ok (changed, changedEntries) := by
  unfold setTriggerExtension
  simp only [List.getElem?_eq_getElem hlt]
  cases hextension : triggerExtension? triggers entries position with
  | some found =>
      simp only
      split
      · exact ⟨_, _, rfl⟩
      · exact ⟨_, _, rfl⟩
  | none =>
      simp only
      split
      · exact ⟨_, _, rfl⟩
      · rename_i hne
        rw [setExtendedDataIndex_eq, if_pos (hsettable hne hextension)]
        exact ⟨_, _, rfl⟩

theorem apply_of_meets (hmeets : lists.Meets edit) :
    ∃ triggers entries, edit.apply lists.triggers lists.entries = .ok (triggers, entries) ∧
      (edit.repairs = true → Linked triggers entries) := by
  have hrepair : ∀ edited, Repairable edited lists.entries →
      ∃ triggers entries, fixTriggerExtensions edited lists.entries =
          .ok (triggers, entries) ∧ Linked triggers entries :=
    fun edited => exists_linked_of_repairable lists.usable
  cases edit with
  | addTrigger trigger => exact ⟨_, _, rfl, fun hfalse => by cases hfalse⟩
  | insertTrigger triggerIndex trigger =>
      obtain ⟨triggers, entries, hfix, hlinked⟩ := hrepair _ hmeets.2
      exact ⟨triggers, entries, hfix, fun _ => hlinked⟩
  | deleteTrigger triggerIndex =>
      obtain ⟨triggers, entries, hfix, hlinked⟩ := hrepair _ hmeets.2
      exact ⟨triggers, entries, hfix, fun _ => hlinked⟩
  | moveTrigger triggerIndexFrom triggerIndexTo =>
      obtain ⟨-, -, hfront, hmoves⟩ := hmeets
      obtain ⟨moved, hmoved⟩ := (moveItem_returns_iff lists.triggers
        triggerIndexFrom triggerIndexTo).mpr fun h => hfront ⟨h.1, h.2.1⟩
      obtain ⟨triggers, entries, hfix, hlinked⟩ := hrepair moved (hmoves moved hmoved)
      refine ⟨triggers, entries, ?_, fun _ => hlinked⟩
      rw [TriggerEdit.apply, TriggerEdit.editTriggers, moveTrigger, hmoved]
      exact hfix
  | replaceRange beginIndex endIndex triggers =>
      obtain ⟨hlinked, hsame⟩ := hmeets
      rw [TriggerEdit.apply, TriggerEdit.editTriggers, TextTrigs.replaceRange]
      split at hsame
      · rename_i hwhole
        rw [if_pos hwhole]
        exact ⟨_, _, rfl, fun _ => hlinked.congr hsame⟩
      · rename_i hpart
        rw [if_neg hpart, if_pos hsame.1]
        exact ⟨_, _, rfl, fun _ => hlinked.congr hsame.2⟩
  | setExtendedCommentStringId triggerIndex stringId =>
      obtain ⟨triggers, entries, hset⟩ := setTriggerExtension_returns _ hmeets.1 hmeets.2
      exact ⟨triggers, entries, hset, fun hfalse => by cases hfalse⟩
  | setExtendedNotesStringId triggerIndex stringId =>
      obtain ⟨triggers, entries, hset⟩ := setTriggerExtension_returns _ hmeets.1 hmeets.2
      exact ⟨triggers, entries, hset, fun hfalse => by cases hfalse⟩

theorem step_of_meets (hmeets : lists.Meets edit) : ∃ after, lists.step edit = .ok after ∧
      (edit.repairs = true → Linked after.triggers after.entries) := by
  obtain ⟨triggers, entries, happly, hlinked⟩ := apply_of_meets hmeets
  obtain ⟨after, hstep, rfl, rfl⟩ := step_of_apply happly
  exact ⟨after, hstep, hlinked⟩

theorem run_append (lists : TriggerLists) (done : List TriggerEdit) (edit : TriggerEdit) :
    lists.run (done ++ [edit]) = lists.run done >>= fun state =>
      state.step edit := by
  rw [run, List.foldlM_append]
  cases hrun : done.foldlM step lists with
  | error error =>
      rw [run, hrun]
      rfl
  | ok state =>
      rw [run, hrun]
      exact bind_pure (state.step edit)

/-- Every call of a run meets its condition in the state it is made in. -/
def MeetsAlong (start : TriggerLists) (edits : List TriggerEdit) : Prop :=
  ∀ done edit rest state, edits = done ++ edit :: rest →
    start.run done = .ok state → state.Meets edit

theorem run_of_meetsAlong {start : TriggerLists} {edits : List TriggerEdit}
    (hmeets : start.MeetsAlong edits) (done rest : List TriggerEdit)
    (hedits : edits = done ++ rest) : ∃ state, start.run done = .ok state := by
  induction done using List.reverseRecOn generalizing rest with
  | nil => exact ⟨start, rfl⟩
  | append_singleton done edit ih =>
      have hsplit : edits = done ++ edit :: rest := by
        rw [hedits, List.append_assoc, List.singleton_append]
      obtain ⟨state, hstate⟩ := ih (edit :: rest) hsplit
      obtain ⟨after, hafter, -⟩ := step_of_meets (hmeets done edit rest state hsplit hstate)
      refine ⟨after, ?_⟩
      rw [run_append, hstate]
      exact hafter

/-- In a run whose calls meet their conditions the links are in order after every
insertion, deletion, move and replacement. -/
theorem run_keeps_links {start : TriggerLists} {edits : List TriggerEdit}
    (hmeets : start.MeetsAlong edits) (done rest : List TriggerEdit)
    (edit : TriggerEdit) (hedits : edits = done ++ edit :: rest)
    (hrepairs : edit.repairs = true) :
    ∃ after, start.run (done ++ [edit]) = .ok after ∧ Linked after.triggers after.entries := by
  obtain ⟨state, hstate⟩ := run_of_meetsAlong hmeets done (edit :: rest) hedits
  obtain ⟨after, hafter, hlinked⟩ := step_of_meets (hmeets done edit rest state hedits hstate)
  refine ⟨after, ?_, hlinked hrepairs⟩
  rw [run_append, hstate]
  exact hafter

/-! ### Two triggers with comments -/

/-- The extended data of a trigger with a comment. -/
def commented (position : UInt32) : ExtendedTrigData :=
  { ExtendedTrigData.blank with
    commentStringId := position + 1
    trigNum := position }

def twoEntries : List (Option ExtendedTrigData) :=
  [none, none, some (commented 0), some (commented 1)]

theorem getD_twoEntries (hentry : twoEntries.getD index none = some extension) :
    index = 2 ∧ extension = commented 0 ∨ index = 3 ∧ extension = commented 1 := by
  match index, hentry with
  | 0, hentry => cases hentry
  | 1, hentry => cases hentry
  | 2, hentry => exact .inl ⟨rfl, (Option.some.inj hentry).symm⟩
  | 3, hentry => exact .inr ⟨rfl, (Option.some.inj hentry).symm⟩
  | _ + 4, hentry => cases hentry

/-- The first trigger has the entry 2, the second the entry 3. -/
def twoComments : TriggerLists where
  triggers := [linkedTo blankTrigger 2, linkedTo blankTrigger 3]
  entries := twoEntries
  usable := by
    intro index hstored
    obtain ⟨extension, hentry⟩ := Option.ne_none_iff_exists'.mp hstored
    rcases getD_twoEntries hentry with ⟨rfl, -⟩ | ⟨rfl, -⟩ <;> decide

theorem indexAt_twoComments (hindex : indexAt twoComments.triggers position = some index) :
    position = 0 ∧ index = 2 ∨ position = 1 ∧ index = 3 := by
  match position, hindex with
  | 0, hindex => exact .inl ⟨rfl, (Option.some.inj hindex).symm⟩
  | 1, hindex => exact .inr ⟨rfl, (Option.some.inj hindex).symm⟩
  | _ + 2, hindex => cases hindex

theorem linked_twoComments : Linked twoComments.triggers twoComments.entries where
  unique := by
    intro first second index hfirst hsecond
    have hcases := indexAt_twoComments hfirst
    have hothers := indexAt_twoComments hsecond
    omega
  exists_entry := by
    intro position index hindex
    rcases indexAt_twoComments hindex with ⟨rfl, rfl⟩ | ⟨rfl, rfl⟩
    · exact ⟨commented 0, rfl, rfl⟩
    · exact ⟨commented 1, rfl, rfl⟩
  exists_trigger := by
    intro index extension hentry
    rcases getD_twoEntries hentry with ⟨rfl, -⟩ | ⟨rfl, -⟩
    · exact ⟨0, rfl⟩
    · exact ⟨1, rfl⟩

/-- Swapping two triggers with comments. -/
theorem run_keeps_links_swap : ∃ after, twoComments.run [.moveTrigger 0 1] = .ok after ∧
      Linked after.triggers after.entries := by
  refine @run_keeps_links twoComments [.moveTrigger 0 1] ?_ [] [] (.moveTrigger 0 1) rfl rfl
  intro done edit rest state hedits hstate
  have hdone : done = [] := by
    cases done with
    | nil => rfl
    | cons _ _ => simp at hedits
  rw [hdone] at hedits hstate
  cases hedits
  cases hstate
  refine ⟨by decide, by decide, by decide, ?_⟩
  intro moved hmoved index extension horphan
  cases hmoved
  have hnot := horphan.2
  rcases getD_twoEntries horphan.1 with ⟨rfl, -⟩ | ⟨rfl, -⟩
  · exact absurd rfl (hnot 1 (by decide))
  · exact absurd rfl (hnot 0 (by decide))

/-- Deleting the first of two triggers with comments leaves its entry behind:
the entry asks for the first trigger, which has one already. -/
theorem deleteTrigger_leaves_entry : Linked twoComments.triggers twoComments.entries ∧
      ∃ after, twoComments.run [.deleteTrigger 0] = .ok after ∧
        ¬ Linked after.triggers after.entries := by
  refine ⟨linked_twoComments, _, rfl, ?_⟩
  intro hlinked
  obtain ⟨position, hposition⟩ := hlinked.exists_trigger 2 (commented 0) rfl
  match position, hposition with
  | 0, hposition => cases hposition
  | _ + 1, hposition => cases hposition

end TriggerLists

end Chkdraft.Scenario
