import Chkdraft.Scenario.TriggerEdits

/-!
# Comments across edits of the trigger list

Inserting, deleting and moving a trigger changes the positions of others.  The
repair that follows gives an entry no trigger names any more to the trigger now
at the position the entry remembers.
-/

namespace Chkdraft.Scenario

open Chk Sections

variable {count index position : ℕ}

/-- An edit of the trigger list that the repair follows. -/
inductive ListEdit where
  | insertTrigger (triggerIndex : ℕ) (trigger : Trigger)
  | deleteTrigger (triggerIndex : ℕ)
  | moveTrigger (triggerIndexFrom triggerIndexTo : ℕ)

variable {edit : ListEdit}

namespace ListEdit

def toEdit : ListEdit → TriggerEdit
  | insertTrigger triggerIndex trigger => .insertTrigger triggerIndex trigger
  | deleteTrigger triggerIndex => .deleteTrigger triggerIndex
  | moveTrigger triggerIndexFrom triggerIndexTo =>
      .moveTrigger triggerIndexFrom triggerIndexTo

/-- The position each trigger of the edited list had before, `none` for one that
was not there. -/
def origins (count : ℕ) : ListEdit → Except Hazard (List (Option ℕ))
  | insertTrigger triggerIndex _ =>
      .ok (insertItem ((List.range count).map some) triggerIndex none)
  | deleteTrigger triggerIndex =>
      .ok (deleteItem ((List.range count).map some) triggerIndex)
  | moveTrigger triggerIndexFrom triggerIndexTo =>
      moveItem ((List.range count).map some) triggerIndexFrom triggerIndexTo

/-- The trigger an origin stands for, where `none` is the inserted one. -/
def source (triggers : List Trigger) (edit : ListEdit) : Option ℕ → Trigger
  | some position => triggers.getD position blankTrigger
  | none =>
      match edit with
      | insertTrigger _ trigger => trigger
      | _ => blankTrigger

theorem map_source_range (triggers : List Trigger) (edit : ListEdit) :
    ((List.range triggers.length).map some).map (edit.source triggers) =
      triggers := by
  apply List.ext_getElem
  · simp
  · intro position hleft hright
    simp only [List.getElem_map, List.getElem_range, source]
    exact List.getD_eq_getElem _ _ hright

theorem editTriggers_eq (triggers : List Trigger) (edit : ListEdit) :
    edit.toEdit.editTriggers triggers = Fault.ofHazard ((edit.origins triggers.length).map
        (List.map (edit.source triggers))) := by
  have hsource := map_source_range triggers edit
  cases edit with
  | insertTrigger triggerIndex trigger =>
      have hinsert := insertItem_map (source triggers (insertTrigger triggerIndex trigger))
        ((List.range triggers.length).map some) triggerIndex none
      rw [hsource] at hinsert
      exact congrArg Except.ok hinsert
  | deleteTrigger triggerIndex =>
      have hdelete := deleteItem_map (source triggers (deleteTrigger triggerIndex))
        ((List.range triggers.length).map some) triggerIndex
      rw [hsource] at hdelete
      exact congrArg Except.ok hdelete
  | moveTrigger triggerIndexFrom triggerIndexTo =>
      have hmove := moveItem_map (source triggers (moveTrigger triggerIndexFrom triggerIndexTo))
        ((List.range triggers.length).map some) triggerIndexFrom triggerIndexTo
      rw [hsource] at hmove
      exact congrArg Fault.ofHazard hmove

theorem nodup_some_range (count : ℕ) : ((List.range count).map some).Nodup :=
  (List.nodup_range).map (Option.some_injective ℕ)

theorem nodup_origins {origins : List (Option ℕ)}
    (horigins : edit.origins count = .ok origins) : origins.Nodup := by
  have hrange := nodup_some_range count
  cases edit with
  | insertTrigger triggerIndex trigger =>
      cases horigins
      rcases insertItem_perm ((List.range count).map some) triggerIndex none
        with hperm | hsame
      · rw [hperm.nodup_iff, List.nodup_cons]
        exact ⟨by simp, hrange⟩
      · rw [hsame]
        exact hrange
  | deleteTrigger triggerIndex =>
      cases horigins
      exact hrange.sublist (deleteItem_sublist _ _)
  | moveTrigger triggerIndexFrom triggerIndexTo =>
      exact (moveItem_perm horigins).nodup_iff.mpr hrange

theorem lt_of_mem_origins {origins : List (Option ℕ)} (horigins : edit.origins count = .ok origins)
    (hmem : some position ∈ origins) : position < count := by
  have hrange : some position ∈ (List.range count).map some → position < count := by
    intro hin
    simpa using hin
  cases edit with
  | insertTrigger triggerIndex trigger =>
      cases horigins
      rcases insertItem_perm ((List.range count).map some) triggerIndex none
        with hperm | hsame
      · rw [hperm.mem_iff, List.mem_cons] at hmem
        exact hrange (hmem.resolve_left (Option.some_ne_none position))
      · rw [hsame] at hmem
        exact hrange hmem
  | deleteTrigger triggerIndex =>
      cases horigins
      exact hrange ((deleteItem_sublist _ _).mem hmem)
  | moveTrigger triggerIndexFrom triggerIndexTo =>
      exact hrange ((moveItem_perm horigins).mem_iff.mp hmem)

/-- The origin of the trigger at a position of the edited list says what index
it has there. -/
theorem indexAt_map_source {triggers : List Trigger}
    {origins : List (Option ℕ)}
    (horigins : edit.origins triggers.length = .ok origins) {before : ℕ}
    (horigin : origins[position]? = some (some before)) :
    indexAt (origins.map (edit.source triggers)) position = indexAt triggers before := by
  have hlt := lt_of_mem_origins horigins (List.mem_of_getElem? horigin)
  rw [indexAt, indexAt, List.getElem?_map, horigin, Option.map_some, source,
    List.getElem?_eq_getElem hlt, List.getD_eq_getElem _ _ hlt]

/-- The inserted trigger carries no extension. -/
def InsertsBare (entries : List (Option ExtendedTrigData)) : ListEdit → Prop
  | insertTrigger _ trigger => ∀ index, getExtendedDataIndex trigger =
      some index → entries.getD index none = none
  | _ => True

theorem isInsert_of_none_mem {origins : List (Option ℕ)}
    (horigins : edit.origins count = .ok origins) (hmem : none ∈ origins) :
    ∃ triggerIndex trigger, edit = insertTrigger triggerIndex trigger := by
  cases edit with
  | insertTrigger triggerIndex trigger => exact ⟨triggerIndex, trigger, rfl⟩
  | deleteTrigger triggerIndex =>
      cases horigins
      have hin := (deleteItem_sublist _ _).mem hmem
      simp at hin
  | moveTrigger triggerIndexFrom triggerIndexTo =>
      have hin := (moveItem_perm horigins).mem_iff.mp hmem
      simp at hin

end ListEdit

/-- Each linked entry knows the position of its trigger and has only one. -/
structure ConsistentLinks (triggers : List Trigger)
    (entries : List (Option ExtendedTrigData)) : Prop where
  trigNum_eq : ∀ position index extension, indexAt triggers position = some index →
    entries.getD index none = some extension →
    extension.trigNum = UInt32.ofNat position
  unique : ∀ first second index extension, indexAt triggers first = some index →
    indexAt triggers second = some index →
    entries.getD index none = some extension → first = second

/-- The repair leaves no entry with an index behind. -/
def Discards (triggers : List Trigger)
    (entries : List (Option ExtendedTrigData)) (index : ℕ) : Prop :=
  ∀ extension, entries.getD index none = some extension →
    Orphan triggers entries index extension ∧ extension.trigNum = 0xFFFFFFFF

/-- Every orphan asks for no trigger or for one that is there and has an entry,
or the index the trigger is then given can be set and leads to no entry. -/
def Unadopted (triggers : List Trigger) (entries : List (Option ExtendedTrigData)) : Prop :=
  ∀ index position, wanted triggers entries index = some position →
    ∃ trigger, triggers[position]? = some trigger ∧
      ((∃ claimed, Claims triggers entries position claimed) ∨
        (adopted triggers entries index position = none → Settable index ∧
            Discards triggers entries (linkTarget (dropIndex trigger) index)))

section Repair

variable {triggers : List Trigger} {entries : List (Option ExtendedTrigData)}

theorem adoptEntry_eq_none_iff : adoptEntry triggers entries entries.length index = none ↔
      Discards triggers entries index := by
  constructor
  · intro hnone extension hentry
    by_contra hkept
    rw [adoptEntry, if_neg, getD_claimEntries_eq_none_iff, hentry] at hnone
    · cases hnone
    · rintro ⟨-, other, hother, horphan, hnum⟩
      rw [hentry] at hother
      cases hother
      exact hkept ⟨horphan, hnum⟩
  · intro hdiscards
    cases hentry : entries.getD index none with
    | none =>
        rw [adoptEntry]
        split
        · rfl
        · exact getD_claimEntries_eq_none_iff.mpr hentry
    | some extension =>
        have hlt : index < entries.length := by
          by_contra hge
          rw [List.getD_eq_default _ _ (Nat.le_of_not_lt hge)] at hentry
          cases hentry
        rw [adoptEntry, if_pos]
        exact ⟨hlt, extension, hentry, hdiscards extension hentry⟩

/-- The first orphan to ask for a position is given its trigger. -/
theorem adopted_of_first (hnone : adopted triggers entries index position = none)
    (hwanted : wanted triggers entries index = some position) :
    adopted triggers entries entries.length position = some index := by
  obtain ⟨first, hfirst⟩ := Option.ne_none_iff_exists'.mp
    (adopted_ne_none_of_wanted (lt_length_of_wanted hwanted) hwanted)
  obtain ⟨-, hother, hbefore⟩ := adopted_eq_some hfirst
  rcases Nat.lt_trichotomy first index with hlt | rfl | hgt
  · exact absurd hnone (adopted_ne_none_of_wanted hlt hother)
  · exact hfirst
  · exact absurd hwanted (hbefore index hgt)

theorem Unadopted.adoptable (hunadopted : Unadopted triggers entries)
    (index : ℕ) : Adoptable triggers entries index := by
  intro position hwanted
  obtain ⟨trigger, htrigger, hcases⟩ := hunadopted index position hwanted
  by_cases hclaims : ∃ claimed, Claims triggers entries position claimed
  · obtain ⟨claimed, hclaimed⟩ := hclaims
    refine ⟨trigger, ?_, ?_⟩
    · rw [getElem?_keptTriggers_of_claims hclaimed, htrigger]
    · intro hfree
      have hnamed := hclaimed.1
      rw [indexAt, htrigger, Option.bind_some, hfree] at hnamed
      cases hnamed
  · refine ⟨dropIndex trigger, ?_, ?_⟩
    · exact getElem?_keptTriggers_of_not htrigger fun claimed h => hclaims ⟨claimed, h⟩
    · intro _ hfirst
      exact (hcases.resolve_left hclaims hfirst).1

/-- The repair returns and gives no trigger an extension exactly under the
condition on the orphans. -/
theorem unadopted_iff : Unadopted triggers entries ↔ (∀ index, Adoptable triggers entries index) ∧
        ∀ position trigger, triggers[position]? = some trigger →
          (∀ claimed, ¬ Claims triggers entries position claimed) →
          ∀ first, adopted triggers entries entries.length position = some first →
            adoptEntry triggers entries entries.length
              (linkTarget (dropIndex trigger) first) = none := by
  constructor
  · intro hunadopted
    refine ⟨hunadopted.adoptable, ?_⟩
    intro position trigger htrigger hnot first hfirst
    obtain ⟨-, hwanted, -⟩ := adopted_eq_some hfirst
    obtain ⟨found, hfound, hcases⟩ := hunadopted first position hwanted
    rw [htrigger] at hfound
    cases hfound
    rw [adoptEntry_eq_none_iff]
    rcases hcases with ⟨claimed, hclaimed⟩ | hrest
    · exact absurd hclaimed (hnot claimed)
    · exact (hrest (adopted_eq_none_of_first hfirst)).2
  · rintro ⟨hadoptable, hgains⟩ index position hwanted
    obtain ⟨kept, hkept, hset⟩ := hadoptable index position hwanted
    have hlt : position < triggers.length := by
      have hinside := (List.getElem?_eq_some_iff.mp hkept).1
      rw [keptTriggers, claimTriggers, List.length_mapIdx] at hinside
      exact hinside
    have htrigger := List.getElem?_eq_getElem hlt
    refine ⟨triggers[position], htrigger, ?_⟩
    by_cases hclaims : ∃ claimed, Claims triggers entries position claimed
    · exact .inl hclaims
    · right
      intro hnone
      have hnot : ∀ claimed, ¬ Claims triggers entries position claimed :=
        fun claimed h => hclaims ⟨claimed, h⟩
      rw [getElem?_keptTriggers_of_not htrigger hnot] at hkept
      cases hkept
      have hfirst := adopted_of_first hnone hwanted
      exact ⟨hset (getExtendedDataIndex_dropIndex _) hnone,
        adoptEntry_eq_none_iff.mp (hgains position _ htrigger hnot index hfirst)⟩

end Repair

/-! ## What an edit does to comments -/

namespace ListEdit

/-- The call returns, every trigger that was there keeps its comment and notes,
and no trigger without an extension is given one. -/
def KeepsComments (lists : TriggerLists) (edit : ListEdit) : Prop :=
  ∃ origins triggers entries, edit.origins lists.triggers.length = .ok origins ∧
    edit.toEdit.apply lists.triggers lists.entries = .ok (triggers, entries) ∧
    ∀ position origin, origins[position]? = some origin → (∀ before, origin = some before →
        getExtendedCommentStringId triggers entries position =
            getExtendedCommentStringId lists.triggers lists.entries before ∧
          getExtendedNotesStringId triggers entries position =
            getExtendedNotesStringId lists.triggers lists.entries before) ∧
      ((∀ before, origin = some before →
          triggerExtension? lists.triggers lists.entries before = none) →
        triggerExtension? triggers entries position = none)

def Meets (lists : TriggerLists) : ListEdit → Prop
  | insertTrigger triggerIndex trigger =>
      Unadopted (Sections.insertTrigger lists.triggers triggerIndex trigger) lists.entries
  | deleteTrigger triggerIndex =>
      Unadopted (Sections.deleteTrigger lists.triggers triggerIndex) lists.entries
  | moveTrigger triggerIndexFrom triggerIndexTo =>
      ¬ (triggerIndexTo = 0 ∧ 2 ≤ triggerIndexFrom ∧ triggerIndexFrom < lists.triggers.length) ∧
        ∀ moved, Sections.moveTrigger lists.triggers triggerIndexFrom
          triggerIndexTo = .ok moved → Unadopted moved lists.entries

variable {lists : TriggerLists} {edit : ListEdit}

theorem meets_iff : edit.Meets lists ↔ ∃ edited,
      edit.toEdit.editTriggers lists.triggers = .ok edited ∧ Unadopted edited lists.entries := by
  cases edit with
  | insertTrigger triggerIndex trigger =>
      exact ⟨fun hmeets => ⟨_, rfl, hmeets⟩, fun ⟨_, rfl, hrest⟩ => hrest⟩
  | deleteTrigger triggerIndex =>
      exact ⟨fun hmeets => ⟨_, rfl, hmeets⟩, fun ⟨_, rfl, hrest⟩ => hrest⟩
  | moveTrigger triggerIndexFrom triggerIndexTo =>
      have hreturns := moveItem_returns_iff lists.triggers triggerIndexFrom triggerIndexTo
      constructor
      · rintro ⟨hfront, hmoved⟩
        obtain ⟨moved, hmove⟩ := hreturns.mpr hfront
        exact ⟨moved, Fault.ofHazard_eq_ok_iff.mpr hmove, hmoved moved hmove⟩
      · rintro ⟨moved, hedited, hunadopted⟩
        have hmove := Fault.ofHazard_eq_ok_iff.mp hedited
        refine ⟨hreturns.mp ⟨moved, hmove⟩, ?_⟩
        intro other hother
        rw [hmove] at hother
        cases hother
        exact hunadopted

theorem apply_toEdit (triggers : List Trigger)
    (entries : List (Option ExtendedTrigData)) (edit : ListEdit) :
    edit.toEdit.apply triggers entries = edit.toEdit.editTriggers triggers >>= fun edited =>
        fixTriggerExtensions edited entries := by
  cases edit with
  | insertTrigger _ _ | deleteTrigger _ | moveTrigger _ _ => rfl

section Edited

variable {origins : List (Option ℕ)} (horigins : edit.origins lists.triggers.length = .ok origins)

include horigins

/-- Before the repair a trigger that was there has the extension it had. -/
theorem triggerExtension_origin {before : ℕ} (horigin : origins[position]? = some (some before)) :
    triggerExtension? (origins.map (edit.source lists.triggers)) lists.entries position =
      triggerExtension? lists.triggers lists.entries before := by
  apply Option.ext
  rintro ⟨index, extension⟩
  rw [triggerExtension_eq_some_iff, triggerExtension_eq_some_iff,
    indexAt_map_source horigins horigin]

/-- Before the repair the inserted trigger has no extension. -/
theorem triggerExtension_inserted (hbare : edit.InsertsBare lists.entries)
    (horigin : origins[position]? = some none) :
    triggerExtension? (origins.map (edit.source lists.triggers)) lists.entries position = none := by
  obtain ⟨triggerIndex, trigger, rfl⟩ :=
    isInsert_of_none_mem horigins (List.mem_of_getElem? horigin)
  rw [Option.eq_none_iff_forall_ne_some]
  rintro ⟨index, extension⟩ hextension
  obtain ⟨hindex, hentry⟩ := triggerExtension_eq_some_iff.mp hextension
  rw [indexAt, List.getElem?_map, horigin, Option.map_some, Option.bind_some, source] at hindex
  rw [hbare index hindex] at hentry
  cases hentry

/-- In the edited list every trigger with an extension is the first to name
it. -/
theorem claims_of_extension (hconsistent : ConsistentLinks lists.triggers lists.entries)
    (hbare : edit.InsertsBare lists.entries) {extension : ExtendedTrigData}
    (hextension : triggerExtension? (origins.map (edit.source lists.triggers))
      lists.entries position = some (index, extension)) :
    Claims (origins.map (edit.source lists.triggers)) lists.entries position
      index := by
  -- A position with an extension has an origin, which had the same.
  have horigin : ∀ other found, triggerExtension?
      (origins.map (edit.source lists.triggers)) lists.entries other = some found →
      ∃ before, origins[other]? = some (some before) ∧
        triggerExtension? lists.triggers lists.entries before = some found := by
    intro other found hfound
    cases hother : origins[other]? with
    | none =>
        rw [triggerExtension?, List.getElem?_map, hother] at hfound
        cases hfound
    | some origin =>
        cases origin with
        | none =>
            rw [triggerExtension_inserted horigins hbare hother] at hfound
            cases hfound
        | some before =>
            rw [triggerExtension_origin horigins hother] at hfound
            exact ⟨before, rfl, hfound⟩
  obtain ⟨hindex, hentry⟩ := triggerExtension_eq_some_iff.mp hextension
  refine ⟨hindex, ?_, ?_⟩
  · rw [hentry]
    exact Option.some_ne_none extension
  · intro earlier hlt hearlier
    obtain ⟨first, hfirst, hfirstHas⟩ := horigin earlier (index, extension)
      (triggerExtension_eq_some_iff.mpr ⟨hearlier, hentry⟩)
    obtain ⟨second, hsecond, hsecondHas⟩ := horigin position _ hextension
    have hsame : first = second := hconsistent.unique first second index
      extension (triggerExtension_eq_some_iff.mp hfirstHas).1
      (triggerExtension_eq_some_iff.mp hsecondHas).1 hentry
    have hearlierLt := (List.getElem?_eq_some_iff.mp hfirst).1
    have heq : earlier = position :=
      (List.getElem?_inj hearlierLt (nodup_origins horigins)).mp (by rw [hfirst, hsecond, hsame])
    omega

end Edited

section

variable {triggers fixedTriggers : List Trigger}
  {entries fixedEntries : List (Option ExtendedTrigData)}
  (hrepaired : RepairedTo triggers entries fixedTriggers fixedEntries)

include hrepaired

/-- The repair of an edited list keeps the extension of a trigger up to the
position it remembers. -/
theorem triggerExtension_repaired {extension : ExtendedTrigData}
    (hclaims : Claims triggers entries position index)
    (hentry : entries.getD index none = some extension) :
    triggerExtension? fixedTriggers fixedEntries position =
      some (index, { extension with trigNum := UInt32.ofNat position }) := by
  rw [triggerExtension_eq_some_iff, hrepaired.triggers_eq, hrepaired.getD_entries]
  exact ⟨indexAt_adoptTriggers_of_claims hclaims, adoptEntry_of_claims hclaims hentry⟩

/-- A trigger without an extension has none after the repair exactly if the
index it is given leads to no entry. -/
theorem triggerExtension_repaired_eq_none_iff {trigger : Trigger}
    (htrigger : triggers[position]? = some trigger)
    (hnot : ∀ claimed, ¬ Claims triggers entries position claimed) :
    triggerExtension? fixedTriggers fixedEntries position = none ↔
      ∀ first, adopted triggers entries entries.length position = some first →
        adoptEntry triggers entries entries.length
          (linkTarget (dropIndex trigger) first) = none := by
  have hindex : indexAt fixedTriggers position =
      (adopted triggers entries entries.length position).map (linkTarget (dropIndex trigger)) := by
    rw [hrepaired.triggers_eq]
    exact indexAt_adoptTriggers_of_not hrepaired.adoptable htrigger hnot
  rw [Option.eq_none_iff_forall_ne_some]
  constructor
  · intro hnone first hfirst
    rw [hfirst, Option.map_some] at hindex
    rw [Option.eq_none_iff_forall_ne_some]
    intro extension hentry
    apply hnone (linkTarget (dropIndex trigger) first, extension)
    rw [triggerExtension_eq_some_iff, hrepaired.getD_entries]
    exact ⟨hindex, hentry⟩
  · rintro hall ⟨index, extension⟩ hextension
    obtain ⟨hgiven, hentry⟩ := triggerExtension_eq_some_iff.mp hextension
    rw [hindex] at hgiven
    obtain ⟨first, hfirst, rfl⟩ := Option.map_eq_some_iff.mp hgiven
    rw [hrepaired.getD_entries, hall first hfirst] at hentry
    cases hentry

end

/-- An edit of a list with consistent links keeps the comments of all triggers
exactly if no orphan of the edited list is given to a trigger. -/
theorem keepsComments_iff (hconsistent : ConsistentLinks lists.triggers lists.entries)
    (hbare : edit.InsertsBare lists.entries) :
    edit.KeepsComments lists ↔ edit.Meets lists := by
  rw [meets_iff]
  constructor
  · rintro ⟨origins, triggers, entries, horigins, happly, hkeeps⟩
    have hedited : edit.toEdit.editTriggers lists.triggers =
        .ok (origins.map (edit.source lists.triggers)) := by
      rw [editTriggers_eq, horigins]
      rfl
    rw [apply_toEdit, hedited] at happly
    have hrepaired := repairedTo_of_ok lists.usable happly
    refine ⟨_, hedited, unadopted_iff.mpr ⟨hrepaired.adoptable, ?_⟩⟩
    intro position trigger htrigger hnot
    rw [← triggerExtension_repaired_eq_none_iff hrepaired htrigger hnot]
    rw [List.getElem?_map] at htrigger
    obtain ⟨origin, horigin, -⟩ := Option.map_eq_some_iff.mp htrigger
    apply (hkeeps position origin horigin).2
    rintro before rfl
    rw [← triggerExtension_origin horigins horigin]
    rw [Option.eq_none_iff_forall_ne_some]
    rintro ⟨index, extension⟩ hextension
    exact hnot index (claims_of_extension horigins hconsistent hbare hextension)
  · rintro ⟨edited, hedited, hunadopted⟩
    obtain ⟨origins, horigins, rfl⟩ := Fault.map_eq_ok_iff.mp
      (Fault.ofHazard_eq_ok_iff.mp ((editTriggers_eq _ _).symm.trans hedited))
    obtain ⟨hadoptable, hgains⟩ := unadopted_iff.mp hunadopted
    obtain ⟨triggers, entries, hfix⟩ :=
      (fixTriggerExtensions_returns_iff lists.usable).mpr hadoptable
    have hrepaired := repairedTo_of_ok lists.usable hfix
    refine ⟨origins, triggers, entries, horigins, ?_, ?_⟩
    · rw [apply_toEdit, hedited]
      exact hfix
    -- A position with an extension claims it, one without gains none.
    have hposition : ∀ position origin, origins[position]? = some origin →
        (triggerExtension? (origins.map (edit.source lists.triggers))
            lists.entries position = none →
          triggerExtension? triggers entries position = none) ∧
        ∀ index extension, triggerExtension? (origins.map (edit.source lists.triggers))
            lists.entries position = some (index, extension) →
          triggerExtension? triggers entries position = some (index,
            { extension with trigNum := UInt32.ofNat position }) := by
      intro position origin horigin
      constructor
      · intro hnone
        have htrigger : (origins.map (edit.source lists.triggers))[position]? =
            some (edit.source lists.triggers origin) := by
          rw [List.getElem?_map, horigin, Option.map_some]
        have hnot : ∀ claimed, ¬ Claims
            (origins.map (edit.source lists.triggers)) lists.entries position
            claimed := by
          intro claimed hclaims
          obtain ⟨extension, hentry⟩ := Option.ne_none_iff_exists'.mp hclaims.2.1
          rw [triggerExtension_eq_some_iff.mpr ⟨hclaims.1, hentry⟩] at hnone
          cases hnone
        rw [triggerExtension_repaired_eq_none_iff hrepaired htrigger hnot]
        exact hgains position _ htrigger hnot
      · intro index extension hextension
        exact triggerExtension_repaired hrepaired
          (claims_of_extension horigins hconsistent hbare hextension)
          (triggerExtension_eq_some_iff.mp hextension).2
    intro position origin horigin
    obtain ⟨hnone, hsome⟩ := hposition position origin horigin
    constructor
    · rintro before rfl
      rw [triggerExtension_origin horigins horigin] at hnone hsome
      rw [getExtendedCommentStringId, getExtendedCommentStringId,
        getExtendedNotesStringId, getExtendedNotesStringId]
      cases hbefore : triggerExtension? lists.triggers lists.entries before with
      | none =>
          rw [hnone hbefore]
          exact ⟨rfl, rfl⟩
      | some found =>
          rw [hsome found.1 found.2 hbefore]
          exact ⟨rfl, rfl⟩
    · intro hbefore
      apply hnone
      cases origin with
      | none => exact triggerExtension_inserted horigins hbare horigin
      | some before =>
          rw [triggerExtension_origin horigins horigin]
          exact hbefore before rfl

theorem consistent_twoComments : ConsistentLinks TriggerLists.twoComments.triggers
      TriggerLists.twoComments.entries where
  trigNum_eq := by
    intro position index extension hindex hentry
    obtain ⟨found, hfound, hnum⟩ :=
      TriggerLists.linked_twoComments.exists_entry position index hindex
    rw [hentry] at hfound
    cases hfound
    exact hnum
  unique := by
    intro first second index _ hfirst hsecond _
    exact TriggerLists.linked_twoComments.unique first second index hfirst hsecond

/-- Swapping two triggers keeps the comments of both. -/
theorem keepsComments_swap : (moveTrigger 0 1).KeepsComments TriggerLists.twoComments := by
  have hbare : (moveTrigger 0 1).InsertsBare
      TriggerLists.twoComments.entries := trivial
  apply (keepsComments_iff consistent_twoComments hbare).mpr
  refine ⟨by decide, ?_⟩
  intro moved hmoved index position hwanted
  cases hmoved
  obtain ⟨extension, horphan, -⟩ := wanted_eq_some_iff.mp hwanted
  have hnot := horphan.2
  rcases TriggerLists.getD_twoEntries horphan.1 with ⟨rfl, -⟩ | ⟨rfl, -⟩
  · exact absurd rfl (hnot 1 (by decide))
  · exact absurd rfl (hnot 0 (by decide))

/-- Of two triggers the first has a comment. -/
def oneComment : TriggerLists where
  triggers := [linkedTo blankTrigger 2, blankTrigger]
  entries := [none, none, some (TriggerLists.commented 0)]
  usable := by
    intro index hstored
    match index, hstored with
    | 0, hstored => exact absurd rfl hstored
    | 1, hstored => exact absurd rfl hstored
    | 2, _ => decide
    | _ + 3, hstored => exact absurd rfl hstored

/-- Deleting the first trigger gives its comment to the second. -/
theorem deleteTrigger_moves_comment : ConsistentLinks oneComment.triggers oneComment.entries ∧
      ¬ (deleteTrigger 0).KeepsComments oneComment := by
  have hindexes : ∀ position index, indexAt oneComment.triggers position = some index →
      position = 0 ∧ index = 2 := by
    intro position index hindex
    match position, hindex with
    | 0, hindex => exact ⟨rfl, (Option.some.inj hindex).symm⟩
    | 1, hindex => cases hindex
    | _ + 2, hindex => cases hindex
  refine ⟨⟨?_, ?_⟩, ?_⟩
  · intro position index extension hindex hentry
    obtain ⟨rfl, rfl⟩ := hindexes position index hindex
    cases hentry
    rfl
  · intro first second index _ hfirst hsecond _
    rw [(hindexes first index hfirst).1, (hindexes second index hsecond).1]
  · rintro ⟨origins, triggers, entries, horigins, happly, hkeeps⟩
    cases horigins
    cases happly
    have hcomment := ((hkeeps 0 (some 1) rfl).1 1 rfl).1
    revert hcomment
    decide

end ListEdit

end Chkdraft.Scenario
