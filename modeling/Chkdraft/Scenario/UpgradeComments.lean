import Chkdraft.Scenario.KstrUpgrade
import Chkdraft.Scenario.TriggerEdits

/-!
# The comments an upgrade moves

A comment of a trigger that stands for an editor string goes to the extended
comment of its trigger, or to the notes if there is a comment already.  A trigger
without extended data gets a new KTRG entry, whose index is written over the
owner bits of the trigger.  What follows is under the condition that each trigger
finds its own entry: the index survives the owner bits, and no trigger behind it
names the same entry.
-/

namespace Chkdraft.Scenario

open Binary Chk Sections

variable {changedEntries entries : List (Option ExtendedTrigData)} {position : ℕ}
  {changed : List Trigger} {trigger : Trigger} {editor : EditorStrings}
  {actions : List Action}

variable {stringId : ℕ}

/-- A new entry takes the first usable index that is free. -/
theorem addExtendedTrigger_least (entries : List (Option ExtendedTrigData))
    (extension : ExtendedTrigData) :
    entries.getD (addExtendedTrigger entries extension).1 none = none ∧
      ∀ other < (addExtendedTrigger entries extension).1,
        indexUsable other = true → entries.getD other none ≠ none := by
  unfold addExtendedTrigger
  split
  · rename_i index hfind
    rw [List.find?_range_eq_some] at hfind
    obtain ⟨hfree, -, hbefore⟩ := hfind
    simp only [decide_eq_true_eq] at hfree
    refine ⟨hfree.1, fun other hlt husable hnone => ?_⟩
    have hnot := hbefore other hlt
    simp only [hnone, husable, and_self, decide_true, Bool.not_true, Bool.false_eq_true] at hnot
  · rename_i hfind
    rw [List.find?_eq_none] at hfind
    obtain ⟨-, hle⟩ := indexUsable_nextUsableIndex entries.length
    refine ⟨List.getD_eq_default _ _ hle, fun other hlt husable hnone => ?_⟩
    rcases Nat.lt_or_ge other entries.length with hinside | hbehind
    · have hnot := hfind other (List.mem_range.mpr hinside)
      simp only [hnone, husable, and_self, decide_true, not_true] at hnot
    · -- The next usable index is the first one behind the list.
      have hlast : nextUsableIndex entries.length ≤ other := by
        unfold nextUsableIndex
        cases hnext : (List.range' entries.length 8).find? fun index =>
            indexUsable index with
        | none => exact hbehind
        | some index =>
            rw [List.find?_range'_eq_some] at hnext
            by_contra hgt
            have hnot := hnext.2.2 other hbehind (by simpa using hgt)
            simp [husable] at hnot
      exact absurd hlt (not_lt.mpr hlast)

/-- The index of a new entry depends on which entries there are only. -/
theorem addExtendedTrigger_congr {first second : List (Option ExtendedTrigData)}
    (hsame : ∀ index, first.getD index none = none ↔
      second.getD index none = none) (extension : ExtendedTrigData) :
    (addExtendedTrigger first extension).1 = (addExtendedTrigger second extension).1 := by
  obtain ⟨hfree, hbefore⟩ := addExtendedTrigger_least first extension
  obtain ⟨hfree', hbefore'⟩ := addExtendedTrigger_least second extension
  rcases Nat.lt_trichotomy (addExtendedTrigger first extension).1
    (addExtendedTrigger second extension).1 with hlt | heq | hgt
  · exact absurd ((hsame _).mp hfree)
      (hbefore' _ hlt (indexUsable_addExtendedTrigger first extension))
  · exact heq
  · exact absurd ((hsame _).mpr hfree')
      (hbefore _ hgt (indexUsable_addExtendedTrigger second extension))

/-- The index of the entry a trigger has or gets. -/
def entryIndex (triggers : List Trigger)
    (entries : List (Option ExtendedTrigData)) (position : ℕ) : ℕ :=
  (triggerExtension? triggers entries position).elim (addExtendedTrigger entries .blank).1 Prod.fst

/-- The extended data a trigger has or gets. -/
def entryData (triggers : List Trigger) (entries : List (Option ExtendedTrigData)) (position : ℕ) :
    ExtendedTrigData :=
  (triggerExtension? triggers entries position).elim .blank Prod.snd

theorem triggerExtension_congr {first second : List Trigger}
    {others : List (Option ExtendedTrigData)}
    (hindex : indexAt first position = indexAt second position)
    (hentry : ∀ index, indexAt second position = some index →
      entries.getD index none = others.getD index none) :
    triggerExtension? first entries position = triggerExtension? second others position := by
  apply Option.ext
  rintro ⟨index, extension⟩
  rw [triggerExtension_eq_some_iff, triggerExtension_eq_some_iff, hindex]
  constructor
  · rintro ⟨hat, hdata⟩
    exact ⟨hat, by rw [← hentry index hat, hdata]⟩
  · rintro ⟨hat, hdata⟩
    exact ⟨hat, by rw [hentry index hat, hdata]⟩

theorem setTriggerExtension_spec {triggers : List Trigger}
    {change : ExtendedTrigData → ExtendedTrigData}
    (htrigger : triggers[position]? = some trigger) (hstring : stringId ≠ 0)
    (hlink : triggerExtension? triggers entries position = none →
      linkTarget trigger (addExtendedTrigger entries .blank).1 =
        (addExtendedTrigger entries .blank).1)
    (hset : setTriggerExtension triggers entries position stringId change =
      .ok (changed, changedEntries)) :
    (∀ other, other ≠ position → changed[other]? = triggers[other]?) ∧
      (∃ linked, changed[position]? = some linked ∧ linked.actions = trigger.actions) ∧
      indexAt changed position = some (entryIndex triggers entries position) ∧
      ∀ other, changedEntries.getD other none =
        if other = entryIndex triggers entries position then
          some (change (entryData triggers entries position))
        else entries.getD other none := by
  simp only [setTriggerExtension, htrigger] at hset
  unfold entryIndex entryData
  cases hextension : triggerExtension? triggers entries position with
  | some found =>
      obtain ⟨index, extension⟩ := found
      obtain ⟨hindex, hentry⟩ := triggerExtension_eq_some_iff.mp hextension
      simp only [hextension, hstring, false_and, if_false] at hset
      cases hset
      have hlt : index < entries.length := by
        by_contra hge
        rw [List.getD_eq_default _ _ (Nat.le_of_not_lt hge)] at hentry
        cases hentry
      exact ⟨fun _ _ => rfl, ⟨trigger, htrigger, rfl⟩, hindex, fun other =>
        Table.getD_set entries index other _ hlt⟩
  | none =>
      have hlt := (List.getElem?_eq_some_iff.mp htrigger).1
      simp only [hextension, if_neg hstring, setExtendedDataIndex_eq] at hset
      split at hset
      · cases hset
      · rename_i linked hlinked
        cases hset
        split at hlinked
        · rename_i hsettable
          cases hlinked
          refine ⟨fun other hne => List.getElem?_set_ne hne.symm,
            ⟨_, List.getElem?_set_self hlt, rfl⟩, ?_, fun other => ?_⟩
          · rw [indexAt, List.getElem?_set_self hlt, Option.bind_some,
              getExtendedDataIndex_linkedTo hsettable, hlink hextension]
            rfl
          · have hinside : (addExtendedTrigger entries .blank).1 <
                (addExtendedTrigger entries .blank).2.length := by
              by_contra hge
              have hnone := getD_addExtendedTrigger entries .blank
                (addExtendedTrigger entries .blank).1
              rw [List.getD_eq_default _ _ (Nat.le_of_not_lt hge), if_pos rfl] at hnone
              cases hnone
            rw [Table.getD_set _ _ _ _ hinside, getD_addExtendedTrigger,
              Option.elim_none, Option.elim_none]
            split
            · rfl
            · rfl
        · cases hlinked

/-- Where a comment can go. -/
inductive CommentSlot where
  | comment | notes
deriving DecidableEq, Repr

/-- The extended strings of a trigger; 0 is no string. -/
structure CommentSlots where
  comment : ℕ
  notes : ℕ
deriving DecidableEq, Repr

variable {slot : CommentSlot}

namespace CommentSlots

def get (slots : CommentSlots) : CommentSlot → ℕ
  | .comment => slots.comment
  | .notes => slots.notes

/-- The free slots in the order in which they are filled. -/
def free (slots : CommentSlots) : List CommentSlot :=
  [CommentSlot.comment, .notes].filter fun slot => slots.get slot = 0

/-- One more comment that stands for an editor string. -/
def fill (slots : CommentSlots) (stringId : ℕ) : CommentSlots :=
  if slots.comment = 0 then { slots with comment := 65536 - stringId }
  else if slots.notes = 0 then { slots with notes := 65536 - stringId }
  else slots

theorem get_fill_of_ne_zero {slots : CommentSlots} (hfilled : slots.get slot ≠ 0) (stringId : ℕ) :
    (slots.fill stringId).get slot = slots.get slot := by
  unfold fill
  cases slot with
  | comment =>
      have hcomment : slots.comment ≠ 0 := hfilled
      rw [if_neg hcomment]
      split
      · rfl
      · rfl
  | notes =>
      have hnotes : slots.notes ≠ 0 := hfilled
      rw [if_neg hnotes]
      split
      · rfl
      · rfl

theorem get_foldl_fill {slots : CommentSlots} (hfilled : slots.get slot ≠ 0)
    (ids : List ℕ) : (ids.foldl fill slots).get slot = slots.get slot := by
  induction ids generalizing slots with
  | nil => rfl
  | cons first rest ih =>
      have hkeep := get_fill_of_ne_zero hfilled first
      rw [List.foldl_cons, ih (by rwa [hkeep]), hkeep]

theorem free_fill {slots : CommentSlots} (hlt : stringId < 65536) :
    (slots.fill stringId).free = slots.free.tail := by
  have hne : 65536 - stringId ≠ 0 := by omega
  obtain ⟨comment, notes⟩ := slots
  by_cases hcomment : comment = 0
  · by_cases hnotes : notes = 0 <;>
      simp [fill, free, get, hcomment, hnotes, hne]
  · by_cases hnotes : notes = 0 <;>
      simp [fill, free, get, hcomment, hnotes, hne]

theorem get_fill_of_head {slots : CommentSlots}
    (hfree : slots.free[0]? = some slot) (stringId : ℕ) :
    (slots.fill stringId).get slot = 65536 - stringId := by
  obtain ⟨comment, notes⟩ := slots
  by_cases hcomment : comment = 0
  · obtain rfl : slot = .comment := by
      simpa [free, get, hcomment] using hfree.symm
    simp [fill, get, hcomment]
  · by_cases hnotes : notes = 0
    · obtain rfl : slot = .notes := by
        simpa [free, get, hcomment, hnotes] using hfree.symm
      simp [fill, get, hcomment, hnotes]
    · simp [free, get, hcomment, hnotes] at hfree

/-- The first comments go to the free slots, each to its own. -/
theorem get_foldl_fill_of_free {ids : List ℕ} {slots : CommentSlots}
    (hids : ∀ stringId ∈ ids, stringId < 65536) {place : ℕ}
    (hid : ids[place]? = some stringId)
    (hfree : slots.free[place]? = some slot) :
    (ids.foldl fill slots).get slot = 65536 - stringId := by
  induction ids generalizing slots place with
  | nil => cases hid
  | cons first rest ih =>
      have hlt := hids first List.mem_cons_self
      rw [List.foldl_cons]
      cases place with
      | zero =>
          cases hid
          have hfill := get_fill_of_head hfree stringId
          rw [get_foldl_fill (by omega), hfill]
      | succ place =>
          apply ih (fun other hmem => hids other (List.mem_cons_of_mem _ hmem)) hid
          rw [free_fill hlt, List.getElem?_tail]
          exact hfree

/-- The slots with a string in one of them. -/
def put (slots : CommentSlots) (slot : CommentSlot) (stringId : ℕ) : CommentSlots :=
  match slot with
  | .comment => { slots with comment := stringId }
  | .notes => { slots with notes := stringId }

theorem fill_eq_put {slots : CommentSlots} (hfree : slots.free[0]? = some slot) (stringId : ℕ) :
    slots.fill stringId = slots.put slot (65536 - stringId) := by
  obtain ⟨comment, notes⟩ := slots
  by_cases hcomment : comment = 0
  · obtain rfl : slot = .comment := by
      simpa [free, get, hcomment] using hfree.symm
    simp [fill, put, hcomment]
  · by_cases hnotes : notes = 0
    · obtain rfl : slot = .notes := by
        simpa [free, get, hcomment, hnotes] using hfree.symm
      simp [fill, put, hcomment, hnotes]
    · simp [free, get, hcomment, hnotes] at hfree

theorem fill_eq_self {slots : CommentSlots} (hfree : slots.free[0]? = none)
    (stringId : ℕ) : slots.fill stringId = slots := by
  obtain ⟨comment, notes⟩ := slots
  by_cases hcomment : comment = 0
  · simp [free, get, hcomment] at hfree
  · by_cases hnotes : notes = 0
    · simp [free, get, hcomment, hnotes] at hfree
    · simp [fill, hcomment, hnotes]

def ofData (extension : ExtendedTrigData) : CommentSlots :=
  ⟨extension.commentStringId.toNat, extension.notesStringId.toNat⟩

end CommentSlots

/-- Extended data with a string in one of its slots. -/
def CommentSlot.set (slot : CommentSlot) (stringId : ℕ)
    (extension : ExtendedTrigData) : ExtendedTrigData :=
  match slot with
  | .comment => { extension with commentStringId := UInt32.ofNat stringId }
  | .notes => { extension with notesStringId := UInt32.ofNat stringId }

theorem ofData_set (slot : CommentSlot) (hlt : stringId < 2 ^ 32) (extension : ExtendedTrigData) :
    CommentSlots.ofData (slot.set stringId extension) =
      (CommentSlots.ofData extension).put slot stringId := by
  have hmod : (UInt32.ofNat stringId).toNat = stringId := by
    rw [UInt32.toNat_ofNat']
    exact Nat.mod_eq_of_lt hlt
  cases slot with
  | comment => simp [CommentSlot.set, CommentSlots.ofData, CommentSlots.put, hmod]
  | notes => simp [CommentSlot.set, CommentSlots.ofData, CommentSlots.put, hmod]

/-- The extended strings of the trigger at a position. -/
def slotsAt (triggers : List Trigger) (entries : List (Option ExtendedTrigData)) (position : ℕ) :
    CommentSlots :=
  ⟨getExtendedCommentStringId triggers entries position,
    getExtendedNotesStringId triggers entries position⟩

theorem slotsAt_eq (triggers : List Trigger)
    (entries : List (Option ExtendedTrigData)) (position : ℕ) :
    slotsAt triggers entries position = .ofData (entryData triggers entries position) := by
  unfold slotsAt getExtendedCommentStringId getExtendedNotesStringId entryData
  cases triggerExtension? triggers entries position with
  | none => rfl
  | some found => rfl

/-- A comment that stands for an editor string. -/
def refersComment (editor : EditorStrings) (action : Action) : Bool :=
  action.actionType = VirtualAction.comment.actionType && editor.refersTo action.stringId.toNat

def commentIds (editor : EditorStrings) (actions : List Action) : List ℕ :=
  (actions.filter (refersComment editor)).map fun action =>
    action.stringId.toNat

/-- An action without a text that stands for an editor string. -/
def withoutText (editor : EditorStrings) (action : Action) : Action :=
  if actionUsesStringArg action.actionType ∧ editor.refersTo action.stringId.toNat then
    { action with stringId := 0 }
  else action

def upgradedAction (editor : EditorStrings) (action : Action) : Action :=
  if actionUsesSoundArg action.actionType ∧ editor.refersTo action.soundStringId.toNat then
    { withoutText editor action with soundStringId := 0 }
  else withoutText editor action

theorem lt_of_mem_commentIds (hmem : stringId ∈ commentIds editor actions) :
    editor.refersTo stringId = true := by
  obtain ⟨action, haction, rfl⟩ := List.mem_map.mp hmem
  have hrefers := (List.mem_filter.mp haction).2
  rw [refersComment, Bool.and_eq_true] at hrefers
  exact hrefers.2

theorem getElem?_commentIds {index : ℕ} {action : Action} (haction : actions[index]? = some action)
    (hrefers : refersComment editor action = true) :
    (commentIds editor actions)[(commentIds editor
      (actions.take index)).length]? = some action.stringId.toNat := by
  obtain ⟨hlt, hget⟩ := List.getElem?_eq_some_iff.mp haction
  have hsplit : actions = actions.take index ++ action :: actions.drop (index + 1) := by
    rw [← hget, ← List.drop_eq_getElem_cons hlt, List.take_append_drop]
  have happend : commentIds editor actions =
      commentIds editor (actions.take index) ++ action.stringId.toNat ::
        commentIds editor (actions.drop (index + 1)) := by
    conv_lhs => rw [hsplit]
    simp only [commentIds, List.filter_append, List.filter_cons, hrefers,
      if_true, List.map_append, List.map_cons]
  rw [happend, List.getElem?_append_right le_rfl, Nat.sub_self]
  rfl

section ChangeAction

variable (triggers : List Trigger) (position index : ℕ) (change : Action → Action)

theorem getElem?_changeAction_of_ne {other : ℕ} (hne : other ≠ position) :
    (changeAction triggers position index change)[other]? = triggers[other]? := by
  rw [changeAction]
  exact List.getElem?_modify_ne _ _ hne.symm

variable {triggers position}

theorem getElem?_changeAction_self (htrigger : triggers[position]? = some trigger) :
    ∃ changed, (changeAction triggers position index change)[position]? = some changed ∧
      changed.actions.toList = trigger.actions.toList.modify index change ∧
      changed.owners = trigger.owners := by
  refine ⟨{ trigger with
      actions := ⟨trigger.actions.toList.modify index change, by
        rw [List.length_modify, trigger.actions.toList_length]⟩ },
    ?_, rfl, rfl⟩
  rw [changeAction, List.getElem?_modify_eq, htrigger]
  rfl

theorem indexAt_changeAction (other : ℕ) :
    indexAt (changeAction triggers position index change) other = indexAt triggers other := by
  by_cases hne : other = position
  · subst hne
    cases htrigger : triggers[other]? with
    | none =>
        rw [indexAt, indexAt, changeAction, List.getElem?_modify_eq, htrigger]
        rfl
    | some trigger =>
        obtain ⟨changed, hchanged, -, howners⟩ := getElem?_changeAction_self index change htrigger
        rw [indexAt, indexAt, hchanged, htrigger, Option.bind_some, Option.bind_some,
          getExtendedDataIndex, getExtendedDataIndex, indexWord, indexWord, howners]
  · rw [indexAt, getElem?_changeAction_of_ne _ _ _ _ hne, indexAt]

end ChangeAction

/-! ## One trigger -/

namespace TriggerUpgrade

/-- The slots a trigger is known to have. -/
def slots (state : TriggerUpgrade) : CommentSlots :=
  ⟨state.extendedCommentStringId, state.extendedNotesStringId⟩

end TriggerUpgrade

/-- A trigger during its upgrade: what its actions are now and which comments
were moved. -/
structure Upgrading (triggers : List Trigger)
    (entries : List (Option ExtendedTrigData)) (position : ℕ)
    (trigger : Trigger) (actions : List Action) (ids : List ℕ)
    (state : TriggerUpgrade) : Prop where
  others : ∀ other, other ≠ position → state.triggers[other]? = triggers[other]?
  current : ∃ now, state.triggers[position]? = some now ∧
    now.actions.toList = actions ∧ (ids = [] → now.owners = trigger.owners)
  slots_eq : state.slots = ids.foldl CommentSlots.fill (slotsAt triggers entries position)
  unmoved : ids = [] → state.entries = entries
  moved : ids ≠ [] → indexAt state.triggers position = some (entryIndex triggers entries position) ∧
    (∃ extension, state.entries.getD (entryIndex triggers entries position) none =
        some extension ∧ state.slots = .ofData extension) ∧
    ∀ other, other ≠ entryIndex triggers entries position →
      state.entries.getD other none = entries.getD other none

namespace Upgrading

variable {triggers : List Trigger} {entries : List (Option ExtendedTrigData)}
  {position : ℕ} {trigger : Trigger} {actions : List Action} {ids : List ℕ}
  {state : TriggerUpgrade}

theorem start (htrigger : triggers[position]? = some trigger) :
    Upgrading triggers entries position trigger trigger.actions.toList []
      ⟨triggers, entries, getExtendedCommentStringId triggers entries position,
        getExtendedNotesStringId triggers entries position⟩ where
  others := fun _ _ => rfl
  current := ⟨trigger, htrigger, rfl, fun _ => rfl⟩
  slots_eq := rfl
  unmoved := fun _ => rfl
  moved := fun hne => absurd rfl hne

theorem changeAction (hupgrading : Upgrading triggers entries position trigger actions ids state)
    (index : ℕ) (change : Action → Action) :
    Upgrading triggers entries position trigger (actions.modify index change) ids { state with
        triggers := changeAction state.triggers position index change } := by
  obtain ⟨now, hnow, hactions, howners⟩ := hupgrading.current
  obtain ⟨changed, hchanged, hmodified, hsame⟩ := getElem?_changeAction_self index change hnow
  refine ⟨fun other hne => ?_, ⟨changed, hchanged, ?_, fun hids => ?_⟩,
    hupgrading.slots_eq, hupgrading.unmoved, fun hids => ?_⟩
  · rw [getElem?_changeAction_of_ne _ _ _ _ hne, hupgrading.others other hne]
  · rw [hmodified, hactions]
  · rw [hsame, howners hids]
  · rw [indexAt_changeAction]
    exact hupgrading.moved hids

/-- What the lists say about the trigger, as long as nothing was moved. -/
theorem extension_of_nil (hupgrading : Upgrading triggers entries position trigger actions []
      state) (htrigger : triggers[position]? = some trigger) :
    triggerExtension? state.triggers state.entries position =
      triggerExtension? triggers entries position := by
  obtain ⟨now, hnow, -, howners⟩ := hupgrading.current
  apply triggerExtension_congr
  · rw [indexAt, indexAt, hnow, htrigger, Option.bind_some, Option.bind_some,
      getExtendedDataIndex, getExtendedDataIndex, indexWord, indexWord, howners rfl]
  · intro index _
    rw [hupgrading.unmoved rfl]

section

variable (hupgrading : Upgrading triggers entries position trigger actions ids state)
  (htrigger : triggers[position]? = some trigger)

include hupgrading htrigger

/-- The entry and the strings of the trigger during its upgrade. -/
theorem entry_eq : entryIndex state.triggers state.entries position =
        entryIndex triggers entries position ∧
      CommentSlots.ofData (entryData state.triggers state.entries position) = state.slots ∧
      ∀ other, other ≠ entryIndex triggers entries position →
        state.entries.getD other none = entries.getD other none := by
  by_cases hids : ids = []
  · subst hids
    have hsame := hupgrading.extension_of_nil htrigger
    have hentries := hupgrading.unmoved rfl
    refine ⟨?_, ?_, fun other _ => by rw [hentries]⟩
    · rw [entryIndex, hsame, hentries, entryIndex]
    · rw [entryData, hsame, hupgrading.slots_eq, List.foldl_nil, slotsAt_eq]
      rfl
  · obtain ⟨hindex, ⟨extension, hentry, hslots⟩, hothers⟩ := hupgrading.moved hids
    have hextension := triggerExtension_eq_some_iff.mpr ⟨hindex, hentry⟩
    refine ⟨?_, ?_, hothers⟩
    · rw [entryIndex, hextension]
      rfl
    · rw [entryData, hextension, hslots]
      rfl

theorem put (hlink : triggerExtension? triggers entries position = none →
      linkTarget trigger (addExtendedTrigger entries .blank).1 =
        (addExtendedTrigger entries .blank).1)
    (hfree : state.slots.free[0]? = some slot) (hpos : 0 < stringId)
    (hlt : stringId < 65536)
    (hset : setTriggerExtension state.triggers state.entries position
      (65536 - stringId) (slot.set (65536 - stringId)) = .ok (changed, changedEntries)) :
    slotsAt changed changedEntries position = state.slots.put slot (65536 - stringId) ∧
      Upgrading triggers entries position trigger actions (ids ++ [stringId])
        ⟨changed, changedEntries, (state.slots.put slot (65536 - stringId)).comment,
          (state.slots.put slot (65536 - stringId)).notes⟩ := by
  obtain ⟨now, hnow, hactions, howners⟩ := hupgrading.current
  obtain ⟨hindex, hdata, hsame⟩ := hupgrading.entry_eq htrigger
  have hlinkNow : triggerExtension? state.triggers state.entries position =
      none → linkTarget now (addExtendedTrigger state.entries .blank).1 =
        (addExtendedTrigger state.entries .blank).1 := by
    intro hnone
    by_cases hids : ids = []
    · subst hids
      rw [hupgrading.extension_of_nil htrigger] at hnone
      have htarget := hlink hnone
      rw [linkTarget, ownerBits, indexWord] at htarget ⊢
      rw [hupgrading.unmoved rfl, howners rfl]
      exact htarget
    · obtain ⟨hat, ⟨extension, hentry, -⟩, -⟩ := hupgrading.moved hids
      rw [triggerExtension_eq_some_iff.mpr ⟨hat, hentry⟩] at hnone
      cases hnone
  obtain ⟨hothers, ⟨linked, hlinked, hkept⟩, hat, hentries⟩ :=
    setTriggerExtension_spec hnow (by omega) hlinkNow hset
  rw [hindex] at hat hentries
  have hentry := hentries (entryIndex triggers entries position)
  rw [if_pos rfl] at hentry
  have hslots : slotsAt changed changedEntries position =
      state.slots.put slot (65536 - stringId) := by
    rw [slotsAt_eq, entryData, triggerExtension_eq_some_iff.mpr ⟨hat, hentry⟩,
      Option.elim_some, ofData_set slot (by omega), hdata]
  refine ⟨hslots, fun other hne => ?_, ⟨linked, hlinked, ?_, fun hids => ?_⟩, ?_,
    fun hids => ?_, fun _ => ⟨hat, ⟨_, hentry, ?_⟩, fun other hne => ?_⟩⟩
  · rw [hothers other hne, hupgrading.others other hne]
  · rw [hkept, hactions]
  · simp at hids
  · rw [List.foldl_append, ← hupgrading.slots_eq, List.foldl_cons,
      List.foldl_nil, CommentSlots.fill_eq_put hfree]
    rfl
  · simp at hids
  · rw [ofData_set slot (by omega), hdata]
    rfl
  · rw [hentries, if_neg hne, hsame other hne]

theorem drop (hfree : state.slots.free[0]? = none) (stringId : ℕ) :
    Upgrading triggers entries position trigger actions (ids ++ [stringId])
      state := by
  obtain ⟨now, hnow, hactions, howners⟩ := hupgrading.current
  refine ⟨hupgrading.others, ⟨now, hnow, hactions, fun hids => ?_⟩, ?_, fun hids => ?_, fun _ => ?_⟩
  · simp at hids
  · rw [List.foldl_append, ← hupgrading.slots_eq, List.foldl_cons,
      List.foldl_nil, CommentSlots.fill_eq_self hfree]
  · simp at hids
  · by_cases hids : ids = []
    · subst hids
      -- Both slots are taken, so there is an entry.
      have hsame := hupgrading.extension_of_nil htrigger
      obtain ⟨-, hdata, hothers⟩ := hupgrading.entry_eq htrigger
      cases hextension : triggerExtension? triggers entries position with
      | none =>
          rw [entryData, hsame, hextension, Option.elim_none] at hdata
          rw [← hdata] at hfree
          simp [CommentSlots.free, CommentSlots.ofData, CommentSlots.get,
            ExtendedTrigData.blank] at hfree
      | some found =>
          obtain ⟨index, extension⟩ := found
          rw [hextension] at hsame
          obtain ⟨hat, hentry⟩ := triggerExtension_eq_some_iff.mp hsame
          have hindex : entryIndex triggers entries position = index := by
            rw [entryIndex, hextension]
            rfl
          rw [entryData, hsame, Option.elim_some] at hdata
          rw [hindex] at hothers ⊢
          exact ⟨hat, ⟨extension, hentry, hdata.symm⟩, hothers⟩
    · exact hupgrading.moved hids

end

section Actions

variable {editor : EditorStrings} {index : ℕ} {action : Action}
  {next : TriggerUpgrade}

theorem modify_eq_set (haction : actions[index]? = some action) (change : Action → Action) :
    actions.modify index change = actions.set index (change action) := by
  rw [List.modify_eq_set_getElem?, haction]
  rfl

section

variable (hupgrading : Upgrading triggers entries position trigger actions ids state)
  (htrigger : triggers[position]? = some trigger)

include hupgrading htrigger

theorem move (hlink : triggerExtension? triggers entries position = none →
      linkTarget trigger (addExtendedTrigger entries .blank).1 =
        (addExtendedTrigger entries .blank).1)
    (haction : actions[index]? = some action)
    (hcomment : action.actionType = VirtualAction.comment.actionType)
    (hrefers : editor.refersTo action.stringId.toNat = true)
    (hupgrade : upgradeActionString editor position index action state = .ok next) :
    Upgrading triggers entries position trigger (actions.set index { action with stringId := 0 })
      (ids ++ [action.stringId.toNat]) next := by
  have huses : actionUsesStringArg action.actionType = true := by
    rw [hcomment]
    decide
  obtain ⟨-, hne, hlt, -⟩ := EditorStrings.refersTo_iff.mp hrefers
  have hset := modify_eq_set haction fun action =>
    { action with stringId := 0 }
  unfold upgradeActionString at hupgrade
  simp only at hupgrade
  rw [if_pos ⟨huses, hrefers⟩] at hupgrade
  simp only [hcomment, true_and] at hupgrade
  split at hupgrade
  · rename_i hzero
    obtain ⟨⟨changed, changedEntries⟩, hchanged, hresult⟩ := Fault.bind_eq_ok_iff.mp hupgrade
    cases hresult
    have hfree : state.slots.free[0]? = some .comment := by
      simp [CommentSlots.free, CommentSlots.get, TriggerUpgrade.slots, hzero]
    obtain ⟨hslots, hput⟩ := hupgrading.put htrigger hlink hfree
      (Nat.pos_of_ne_zero hne) hlt hchanged
    have hcommentId : getExtendedCommentStringId changed changedEntries
        position = 65536 - action.stringId.toNat :=
      congrArg CommentSlots.comment hslots
    have hmoved := hput.changeAction index fun action =>
      { action with stringId := 0 }
    rw [hset] at hmoved
    simp only [hcommentId]
    exact hmoved
  · split at hupgrade
    · rename_i hcommentSlot hzero
      obtain ⟨⟨changed, changedEntries⟩, hchanged, hresult⟩ := Fault.bind_eq_ok_iff.mp hupgrade
      cases hresult
      have hfree : state.slots.free[0]? = some .notes := by
        simp [CommentSlots.free, CommentSlots.get, TriggerUpgrade.slots, hcommentSlot, hzero]
      obtain ⟨hslots, hput⟩ := hupgrading.put htrigger hlink hfree
        (Nat.pos_of_ne_zero hne) hlt hchanged
      have hnotesId : getExtendedNotesStringId changed changedEntries
          position = 65536 - action.stringId.toNat :=
        congrArg CommentSlots.notes hslots
      have hmoved := hput.changeAction index fun action =>
        { action with stringId := 0 }
      rw [hset] at hmoved
      simp only [hnotesId]
      exact hmoved
    · rename_i hcommentSlot hnotesSlot
      cases hupgrade
      have hfree : state.slots.free[0]? = none := by
        simp [CommentSlots.free, CommentSlots.get, TriggerUpgrade.slots, hcommentSlot, hnotesSlot]
      have hdropped := (hupgrading.drop htrigger hfree
        action.stringId.toNat).changeAction index fun action =>
          { action with stringId := 0 }
      rwa [hset] at hdropped

section

variable (hlink : commentIds editor [action] ≠ [] →
      triggerExtension? triggers entries position = none →
      linkTarget trigger (addExtendedTrigger entries .blank).1 =
        (addExtendedTrigger entries .blank).1) (haction : actions[index]? = some action)

include hlink haction

theorem text (hupgrade : upgradeActionString editor position index action state = .ok next) :
    Upgrading triggers entries position trigger (actions.set index (withoutText editor action))
      (ids ++ commentIds editor [action]) next := by
  by_cases huses : actionUsesStringArg action.actionType = true ∧
      editor.refersTo action.stringId.toNat = true
  · rw [withoutText, if_pos huses]
    by_cases hcomment : action.actionType = VirtualAction.comment.actionType
    · have hids : commentIds editor [action] = [action.stringId.toNat] := by
        simp [commentIds, refersComment, hcomment, huses.2]
      rw [hids] at hlink ⊢
      exact hupgrading.move htrigger (hlink (List.cons_ne_nil _ _)) haction
        hcomment huses.2 hupgrade
    · have hids : commentIds editor [action] = [] := by
        simp [commentIds, refersComment, hcomment]
      unfold upgradeActionString at hupgrade
      simp only at hupgrade
      rw [if_pos huses] at hupgrade
      simp only [hcomment, false_and, if_false] at hupgrade
      cases hupgrade
      have hchanged := hupgrading.changeAction index fun action =>
        { action with stringId := 0 }
      rw [modify_eq_set haction] at hchanged
      rw [hids, List.append_nil]
      exact hchanged
  · have hids : commentIds editor [action] = [] := by
      have hnot : refersComment editor action = false := by
        by_contra hrefers
        rw [Bool.not_eq_false, refersComment, Bool.and_eq_true, decide_eq_true_eq] at hrefers
        refine huses ⟨?_, hrefers.2⟩
        rw [hrefers.1]
        decide
      simp [commentIds, hnot]
    unfold upgradeActionString at hupgrade
    simp only at hupgrade
    rw [if_neg huses] at hupgrade
    cases hupgrade
    have hsame : actions.set index action = actions := by
      obtain ⟨hlt, hget⟩ := List.getElem?_eq_some_iff.mp haction
      rw [← hget, List.set_getElem_self]
    rw [withoutText, if_neg huses, hids, List.append_nil, hsame]
    exact hupgrading

theorem step (hupgrade : upgradeAction editor position state index = .ok next) :
    Upgrading triggers entries position trigger (actions.set index (upgradedAction editor action))
      (ids ++ commentIds editor [action]) next := by
  obtain ⟨now, hnow, hactions, -⟩ := hupgrading.current
  have hread : (state.triggers[position]?.bind fun trigger =>
      trigger.actions.toList[index]?).getD default = action := by
    rw [hnow, Option.bind_some, hactions, haction]
    rfl
  unfold upgradeAction at hupgrade
  simp only [hread] at hupgrade
  obtain ⟨middle, hmiddle, hresult⟩ := Fault.bind_eq_ok_iff.mp hupgrade
  have htext := hupgrading.text htrigger hlink haction hmiddle
  rw [upgradedAction]
  split at hresult
  · rename_i hsound
    cases hresult
    have hlt := (List.getElem?_eq_some_iff.mp haction).1
    have hset : (actions.set index (withoutText editor action))[index]? =
        some (withoutText editor action) := List.getElem?_set_self hlt
    have hchanged := htext.changeAction index fun action =>
      { action with soundStringId := 0 }
    rw [modify_eq_set hset, List.set_set] at hchanged
    rw [if_pos hsound]
    exact hchanged
  · rename_i hsound
    cases hresult
    rw [if_neg hsound]
    exact htext

end

end

theorem of_range {start : TriggerUpgrade} {count : ℕ}
    (hstart : Upgrading triggers entries position trigger trigger.actions.toList [] start)
    (htrigger : triggers[position]? = some trigger)
    (hlink : commentIds editor trigger.actions.toList ≠ [] →
      triggerExtension? triggers entries position = none →
      linkTarget trigger (addExtendedTrigger entries .blank).1 =
        (addExtendedTrigger entries .blank).1)
    (hcount : count ≤ trigger.actions.toList.length)
    (hrun : (List.range count).foldlM (upgradeAction editor position) start = .ok state) :
    Upgrading triggers entries position trigger
      ((trigger.actions.toList.take count).map (upgradedAction editor) ++
        trigger.actions.toList.drop count)
      (commentIds editor (trigger.actions.toList.take count)) state := by
  induction count generalizing state with
  | zero =>
      cases hrun
      exact hstart
  | succ count ih =>
      rw [List.range_succ, List.foldlM_append, Fault.bind_eq_ok_iff] at hrun
      obtain ⟨middle, hmiddle, hlast⟩ := hrun
      rw [List.foldlM_cons, Fault.bind_eq_ok_iff] at hlast
      obtain ⟨next, hnext, hresult⟩ := hlast
      cases hresult
      have hbefore := ih (by omega) hmiddle
      have hlt : count < trigger.actions.toList.length := by omega
      -- The action at `count` is still what it was.
      have hsplit := List.drop_eq_getElem_cons hlt
      set action := trigger.actions.toList[count] with haction
      have hfront : ((trigger.actions.toList.take count).map
          (upgradedAction editor)).length = count := by
        rw [List.length_map, List.length_take]
        omega
      have hread : ((trigger.actions.toList.take count).map
          (upgradedAction editor) ++ trigger.actions.toList.drop count)[count]? = some action := by
        rw [List.getElem?_append_right hfront.le, hfront, Nat.sub_self, hsplit]
        rfl
      have htake : trigger.actions.toList.take (count + 1) =
          trigger.actions.toList.take count ++ [action] := by
        rw [List.take_succ_eq_append_getElem hlt]
      have hmem : action ∈ trigger.actions.toList := List.getElem_mem hlt
      have hstep := hbefore.step htrigger (fun hids => hlink ?_) hread hnext
      · rw [List.set_append_right _ _ hfront.le, hfront, Nat.sub_self, hsplit,
          List.set_cons_zero] at hstep
        rw [htake, List.map_append, List.append_assoc]
        have happend : commentIds editor (trigger.actions.toList.take count ++
            [action]) = commentIds editor (trigger.actions.toList.take count) ++
              commentIds editor [action] := by
          simp only [commentIds, List.filter_append, List.map_append]
        rw [happend]
        exact hstep
      · intro hnil
        apply hids
        simp only [commentIds, List.map_eq_nil_iff, List.filter_eq_nil_iff] at hnil ⊢
        intro other hother
        rw [List.mem_singleton.mp hother]
        exact hnil action hmem

end Actions

end Upgrading

theorem upgradeTrigger_upgrading {editor : EditorStrings} {position : ℕ}
    {links later : List Trigger × List (Option ExtendedTrigData)}
    {trigger : Trigger} (htrigger : links.1[position]? = some trigger)
    (hlink : commentIds editor trigger.actions.toList ≠ [] →
      triggerExtension? links.1 links.2 position = none →
      linkTarget trigger (addExtendedTrigger links.2 .blank).1 =
        (addExtendedTrigger links.2 .blank).1)
    (hupgrade : upgradeTrigger editor links position = .ok later) :
    ∃ state : TriggerUpgrade, later = (state.triggers, state.entries) ∧
      Upgrading links.1 links.2 position trigger
        (trigger.actions.toList.map (upgradedAction editor))
        (commentIds editor trigger.actions.toList) state := by
  unfold upgradeTrigger at hupgrade
  obtain ⟨state, hstate, hresult⟩ := Fault.bind_eq_ok_iff.mp hupgrade
  have hlength : trigger.actions.toList.length = maxActions := trigger.actions.toList_length
  have hrun := Upgrading.of_range (Upgrading.start htrigger) htrigger hlink hlength.ge hstate
  rw [List.take_of_length_le hlength.le, List.drop_eq_nil_of_le hlength.le, List.append_nil] at hrun
  exact ⟨state, (Except.ok.inj hresult).symm, hrun⟩

end Chkdraft.Scenario
