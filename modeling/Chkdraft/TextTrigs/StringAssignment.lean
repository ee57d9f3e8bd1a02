import Chkdraft.Scenario.Capacity
import Chkdraft.TextTrigs.Building

/-!
# The loop over new texts

Each new text is stored under the first id nobody uses, unless it is stored
already, and the id is written into the fields that wait for it.  A string stays
as long as its id is used.  Where no field with the id is used by its action,
the id is the first unused one again, and the next text to be stored takes its
place.
-/

namespace Chkdraft.TextTrigs

open Chk Scan Sections Scenario Table

variable {scenario : LoadedScenario} {stringId : ℕ} {field : Assignee}

/-- The type of the action a field belongs to, and what the field holds. -/
def fieldAt (triggers : List Trigger) (field : Assignee) : Option (UInt8 × UInt32) :=
  (actionAt triggers field).map fun action =>
    (action.actionType, stringField field.isSound action)

theorem fieldAt_assignStringId (stringId : ℕ) (triggers : List Trigger)
    (assignee field : Assignee) :
    fieldAt (assignStringId 0 stringId triggers assignee) field =
      (fieldAt triggers field).map fun value =>
        (value.1,
          if field = assignee then UInt32.ofNat stringId else value.2) := by
  rw [fieldAt, fieldAt, actionAt, actionAt, assignStringId, List.getElem?_modify, Nat.zero_add]
  cases triggers[field.trigger]? with
  | none => rfl
  | some trigger =>
      simp only [Option.map_eq_map, Option.map_some, Option.bind_some, Option.map_map]
      by_cases htrigger : assignee.trigger = field.trigger
      · rw [if_pos htrigger, toList_modifyAt, List.getElem?_modify,
          Option.map_eq_map, Option.map_map]
        apply Option.map_congr
        intro action _
        by_cases haction : assignee.action = field.action
        · by_cases hsound : field.isSound = assignee.isSound
          · have hsame : field = assignee := by
              cases field
              cases assignee
              simp_all
            simp [hsame]
          · have hother : field ≠ assignee := fun h => hsound (h ▸ rfl)
            simp [haction, hother, stringField_setStringId_of_ne hsound]
        · have hother : field ≠ assignee := fun h => haction (h ▸ rfl)
          simp [haction, hother]
      · have hother : field ≠ assignee := fun h => htrigger (h ▸ rfl)
        simp [htrigger, hother, Function.comp_def]

/-- Writing an id sets the assignees and changes no action's type. -/
theorem fieldAt_foldl_assignStringId (stringId : ℕ)
    (assignees : List Assignee) (triggers : List Trigger) (field : Assignee) :
    fieldAt (assignees.foldl (assignStringId 0 stringId) triggers) field =
      (fieldAt triggers field).map fun value =>
        (value.1, if field ∈ assignees then UInt32.ofNat stringId
          else value.2) := by
  induction assignees generalizing triggers with
  | nil => simp
  | cons assignee rest ih =>
      rw [List.foldl_cons, ih, fieldAt_assignStringId, Option.map_map]
      apply Option.map_congr
      intro value _
      by_cases hrest : field ∈ rest
      · simp [hrest]
      · simp [hrest]

/-- Whether actions of a type use their string or their sound. -/
def usesField (isSound : Bool) (actionType : UInt8) : Bool :=
  if isSound then actionUsesSoundArg actionType
  else actionUsesStringArg actionType

/-- The action a field belongs to uses it. -/
def UsedAt (triggers : List Trigger) (field : Assignee) : Prop :=
  ∃ value, fieldAt triggers field = some value ∧ usesField field.isSound value.1 = true

/-- An id stands in a field that is used. -/
def HeldAt (triggers : List Trigger) (stringId : ℕ) (field : Assignee) : Prop :=
  ∃ value, fieldAt triggers field = some value ∧
    usesField field.isSound value.1 = true ∧ value.2.toNat = stringId

/-- The ids trigger actions hold are those in fields that are used. -/
theorem mem_gameStringIds_iff_heldAt (isSound : Bool) : stringId ∈ scenario.gameStringIds
        (if isSound then .triggerActionSound else .triggerAction) ↔
      ∃ field : Assignee, field.isSound = isSound ∧ HeldAt scenario.trig stringId field := by
  have hmem : stringId ∈ scenario.gameStringIds
        (if isSound then .triggerActionSound else .triggerAction) ↔
      ∃ trigger ∈ scenario.trig, ∃ action ∈ trigger.actions.toList,
        usesField isSound action.actionType = true ∧
          (stringField isSound action).toNat = stringId := by
    cases isSound <;>
      simp [LoadedScenario.gameStringIds, triggerStringIds, triggerSoundIds,
        usesField, stringField, and_assoc]
  rw [hmem]
  constructor
  · rintro ⟨trigger, htrigger, action, haction, huses, hvalue⟩
    obtain ⟨position, hposition⟩ := List.mem_iff_getElem?.mp htrigger
    obtain ⟨index, hindex⟩ := List.mem_iff_getElem?.mp haction
    exact ⟨⟨position, index, isSound⟩, rfl, _,
      by rw [fieldAt, actionAt, hposition, Option.bind_some, hindex]; rfl,
      huses, hvalue⟩
  · rintro ⟨field, rfl, value, hfield, huses, hvalue⟩
    obtain ⟨action, haction, rfl⟩ := Option.map_eq_some_iff.mp hfield
    obtain ⟨trigger, htrigger, hmember⟩ := Option.bind_eq_some_iff.mp haction
    exact ⟨trigger, List.mem_of_getElem? htrigger, action,
      List.mem_of_getElem? hmember, huses, hvalue⟩

/-- An id is used by others than trigger actions, or held by a field. -/
theorem marksGameString_iff : scenario.marksGameString .all stringId ↔
      scenario.marksGameString .exceptTriggers stringId ∨
      0 < stringId ∧ stringId < maxStrings ∧ ∃ field, HeldAt scenario.trig stringId field := by
  have hheld := fun isSound =>
    @mem_gameStringIds_iff_heldAt scenario stringId isSound
  constructor
  · rintro ⟨hpos, hlt, flag, -, hmem⟩
    cases flag with
    | triggerAction =>
        obtain ⟨field, -, hfield⟩ := (hheld false).mp hmem
        exact .inr ⟨hpos, hlt, field, hfield⟩
    | triggerActionSound =>
        obtain ⟨field, -, hfield⟩ := (hheld true).mp hmem
        exact .inr ⟨hpos, hlt, field, hfield⟩
    | _ => exact .inl ⟨hpos, hlt, _, rfl, hmem⟩
  · rintro (⟨hpos, hlt, flag, -, hmem⟩ | ⟨hpos, hlt, field, hfield⟩)
    · exact ⟨hpos, hlt, flag, rfl, hmem⟩
    · exact ⟨hpos, hlt, _, rfl, (hheld field.isSound).mpr ⟨field, rfl, hfield⟩⟩

theorem gameStringIds_withTriggers (scenario : LoadedScenario)
    (trig : List Trigger) {flag : StringUserFlag}
    (hflag : UserMask.exceptTriggers flag = true) :
    (withTriggers scenario trig).gameStringIds flag = scenario.gameStringIds flag := by
  cases flag <;> first | rfl | cases hflag

theorem marksGameString_withTriggers (scenario : LoadedScenario)
    (trig : List Trigger) (stringId : ℕ) :
    (withTriggers scenario trig).marksGameString .exceptTriggers stringId ↔
      scenario.marksGameString .exceptTriggers stringId := by
  have hflags : ∀ flag, (UserMask.exceptTriggers flag = true ∧
      stringId ∈ (withTriggers scenario trig).gameStringIds flag) ↔
        (UserMask.exceptTriggers flag = true ∧ stringId ∈ scenario.gameStringIds flag) := by
    intro flag
    apply and_congr_right
    intro hflag
    rw [gameStringIds_withTriggers scenario trig hflag]
  simp only [LoadedScenario.marksGameString, hflags]

theorem marksGameString_withoutUnusedStrings {userMask : UserMask} :
    scenario.withoutUnusedStrings.marksGameString userMask stringId ↔
      scenario.marksGameString userMask stringId := by
  have hids : ∀ flag, scenario.withoutUnusedStrings.gameStringIds flag =
      scenario.gameStringIds flag := by
    intro flag
    cases flag <;> rfl
  simp only [LoadedScenario.marksGameString, hids]

/-- A text is stored under an id that is used. -/
def InUse (scenario : LoadedScenario) (text : Text) : Prop :=
  ∃ stringId, scenario.marksGameString .all stringId ∧
    getString scenario.str.strings stringId = some text

/-- One of the fields a node keeps is used by its action. -/
def UsesNode (triggers : List Trigger) (node : StringTableNode) : Prop :=
  ∃ field ∈ node.assignees, UsedAt triggers field

/-- The scenario after one string was added and its id written. -/
def assigned (added : LoadedScenario) (node : StringTableNode) (stringId : ℕ) : LoadedScenario :=
  withTriggers added (node.assignees.foldl (assignStringId 0 stringId) added.trig)

/-- What holds in front of every round: the nodes' texts differ from each other
and from every string that is not used, and their fields are 0. -/
structure Awaits (scenario : LoadedScenario) (nodes : List StringTableNode) : Prop where
  length : scenario.str.strings.length ≤ maxStrings
  apart : nodes.Pairwise fun node other =>
    untilNul node.scStr ≠ untilNul other.scStr ∧ node.assignees.Disjoint other.assignees
  fields : ∀ node ∈ nodes, ∀ field ∈ node.assignees, ∀ value,
    fieldAt scenario.trig field = some value → value.2 = 0
  fresh : ∀ node ∈ nodes, ∀ stringId,
    getString scenario.str.strings stringId = some (untilNul node.scStr) →
    scenario.marksGameString .all stringId

section Round

variable {scenario added : LoadedScenario} {node : StringTableNode}
  {nodes : List StringTableNode} {stringId : ℕ}

theorem fieldAt_assigned (field : Assignee) : fieldAt (assigned added node stringId).trig field =
      (fieldAt added.trig field).map fun value =>
        (value.1, if field ∈ node.assignees then UInt32.ofNat stringId
          else value.2) :=
  fieldAt_foldl_assignStringId ..

section

variable (hawaits : Awaits scenario (node :: nodes))
  (hadd : scenario.addString (untilNul node.scStr) = .ok (stringId, added))

include hawaits hadd

/-- A text that is stored under a used id is found; any other text is put under
the first id nobody uses. -/
theorem Awaits.addString_cases : InUse scenario (untilNul node.scStr) ∧ added = scenario ∧
        scenario.marksGameString .all stringId ∨
      ¬ InUse scenario (untilNul node.scStr) ∧ stringId = scenario.nextUnusedStringId ∧
        ∀ other, getString added.str.strings other =
          if other = stringId then some (untilNul node.scStr)
          else getString scenario.str.strings other := by
  by_cases hfound : findString scenario.str.strings (untilNul node.scStr) ≠ 0
  · rw [LoadedScenario.addString_of_found hfound] at hadd
    cases hadd
    have hget := getString_findString hfound
    rw [untilNul_untilNul] at hget
    have hmarks := hawaits.fresh node List.mem_cons_self _ hget
    exact .inl ⟨⟨_, hmarks, hget⟩, rfl, hmarks⟩
  · have hzero := not_not.mp hfound
    rcases LoadedScenario.addString_cases hadd with
      ⟨heq, hne, -⟩ | ⟨hnext, strings, rfl, hlt, -, hsame⟩
    · exact absurd (heq.trans hzero) hne
    · refine .inr ⟨?_, hnext, fun other => ?_⟩
      · rintro ⟨other, hmarks, hget⟩
        rw [LoadedScenario.findString_eq_zero_iff] at hzero
        exact hzero other hmarks.1 (by rw [untilNul_untilNul]; exact hget)
      · rw [getString, LoadedScenario.withStrings, getD_set _ _ _ _ hlt]
        split
        · rw [Option.map_some, untilNul_untilNul]
        · rw [hsame, getString]

/-- A round marks its own id, if one of the node's fields is used, and keeps the
other marks. -/
theorem Awaits.marksGameString_assigned_iff (hid : stringId ≠ 0) (other : ℕ) :
    (assigned added node stringId).marksGameString .all other ↔
      scenario.marksGameString .all other ∨ other = stringId ∧ UsesNode scenario.trig node := by
  obtain ⟨strings, rfl, hstored, hgrown, -⟩ := LoadedScenario.addString_spec hadd
  have hlt : stringId < maxStrings :=
    Nat.lt_of_lt_of_le (lt_length_of_getString hstored) (Nat.max_eq_right hawaits.length ▸ hgrown)
  have hmax : maxStrings = 65536 := rfl
  have hvalue : (UInt32.ofNat stringId).toNat = stringId := by
    rw [UInt32.toNat_ofNat']
    exact Nat.mod_eq_of_lt (by omega)
  have hothers : (assigned (scenario.withStrings strings) node
      stringId).marksGameString .exceptTriggers other ↔
        scenario.marksGameString .exceptTriggers other := by
    rw [assigned, marksGameString_withTriggers, LoadedScenario.marksGameString_withStrings]
  have hheld : 0 < other → ((∃ field, HeldAt (assigned
      (scenario.withStrings strings) node stringId).trig other field) ↔
        (∃ field, HeldAt scenario.trig other field) ∨
          other = stringId ∧ UsesNode scenario.trig node) := by
    intro hpos
    have hzero := hawaits.fields node List.mem_cons_self
    simp only [HeldAt, fieldAt_assigned, Option.map_eq_some_iff]
    constructor
    · rintro ⟨field, _, ⟨value, hfield, rfl⟩, huses, hother⟩
      by_cases hmem : field ∈ node.assignees
      · simp only [if_pos hmem, hvalue] at hother
        exact .inr ⟨hother.symm, field, hmem, value, hfield, huses⟩
      · simp only [if_neg hmem] at hother
        exact .inl ⟨field, value, hfield, huses, hother⟩
    · rintro (⟨field, value, hfield, huses, hother⟩ | ⟨rfl, field, hmem, value, hfield, huses⟩)
      · refine ⟨field, _, ⟨value, hfield, rfl⟩, huses, ?_⟩
        rw [if_neg]
        · exact hother
        · intro hmem
          rw [hzero field hmem value hfield] at hother
          exact absurd hother hpos.ne
      · exact ⟨field, _, ⟨value, hfield, rfl⟩, huses, by rw [if_pos hmem, hvalue]⟩
  rw [marksGameString_iff, @marksGameString_iff scenario, hothers, or_assoc]
  apply or_congr_right
  constructor
  · rintro ⟨hpos, hbound, hfield⟩
    rcases (hheld hpos).mp hfield with hold | hnew
    · exact .inl ⟨hpos, hbound, hold⟩
    · exact .inr hnew
  · rintro (⟨hpos, hbound, hold⟩ | ⟨rfl, hused⟩)
    · exact ⟨hpos, hbound, (hheld hpos).mpr (.inl hold)⟩
    · have hpos := Nat.pos_of_ne_zero hid
      exact ⟨hpos, hlt, (hheld hpos).mpr (.inr ⟨rfl, hused⟩)⟩

end

end Round

/-- What one round of the loop does. -/
structure Round (scenario next : LoadedScenario) (node : StringTableNode)
    (stringId : ℕ) : Prop where
  lt : stringId < maxStrings
  fields : ∀ field, fieldAt next.trig field = (fieldAt scenario.trig field).map fun value =>
      (value.1, if field ∈ node.assignees then UInt32.ofNat stringId
        else value.2)
  marks : ∀ other, next.marksGameString .all other ↔ scenario.marksGameString .all other ∨
      other = stringId ∧ UsesNode scenario.trig node
  stored : getString next.str.strings stringId = some (untilNul node.scStr)
  others : ∀ other, other ≠ stringId →
    getString next.str.strings other = getString scenario.str.strings other
  found : InUse scenario (untilNul node.scStr) →
    next.str.strings = scenario.str.strings ∧ scenario.marksGameString .all stringId
  unused : ¬ InUse scenario (untilNul node.scStr) → stringId = scenario.nextUnusedStringId

namespace Round

variable {scenario next : LoadedScenario} {node : StringTableNode}
  {stringId : ℕ}

section

variable (hround : Round scenario next node stringId)

include hround

theorem kept {other : ℕ} (hmarks : scenario.marksGameString .all other) :
    getString next.str.strings other = getString scenario.str.strings other := by
  by_cases huse : InUse scenario (untilNul node.scStr)
  · rw [(hround.found huse).1]
  · apply hround.others
    rintro rfl
    rw [hround.unused huse] at hmarks
    exact scenario.nextUnusedStringId_spec.2 hmarks

theorem fieldAt_of_notMem (hnot : field ∉ node.assignees) :
    fieldAt next.trig field = fieldAt scenario.trig field := by
  rw [hround.fields]
  simp [hnot]

theorem usedAt_iff : UsedAt next.trig field ↔ UsedAt scenario.trig field := by
  simp only [UsedAt, hround.fields, Option.map_eq_some_iff]
  constructor
  · rintro ⟨_, ⟨value, hvalue, rfl⟩, huses⟩
    exact ⟨value, hvalue, huses⟩
  · rintro ⟨value, hvalue, huses⟩
    exact ⟨_, ⟨value, hvalue, rfl⟩, huses⟩

theorem inUse_iff {text : Text} (hne : untilNul node.scStr ≠ text) :
    InUse next text ↔ InUse scenario text := by
  constructor
  · rintro ⟨other, hmarks, hstored⟩
    rcases (hround.marks other).mp hmarks with hold | ⟨rfl, -⟩
    · exact ⟨other, hold, hround.kept hold ▸ hstored⟩
    · rw [hround.stored] at hstored
      exact absurd (Option.some.inj hstored) hne
  · rintro ⟨other, hmarks, hstored⟩
    exact ⟨other, (hround.marks other).mpr (.inl hmarks), (hround.kept hmarks).trans hstored⟩

end

end Round

theorem Awaits.round {scenario built : LoadedScenario}
    {node : StringTableNode} {nodes : List StringTableNode}
    (hawaits : Awaits scenario (node :: nodes))
    (hassign : assignStrings 0 (node :: nodes) scenario = (true, built)) :
    ∃ stringId next, Round scenario next node stringId ∧ Awaits next nodes ∧
      assignStrings 0 nodes next = (true, built) := by
  rw [assignStrings] at hassign
  cases hadd : scenario.addString (untilNul node.scStr) with
  | error exception =>
      rw [hadd] at hassign
      cases hassign
  | ok result =>
      obtain ⟨stringId, added⟩ := result
      rw [hadd] at hassign
      simp only at hassign
      split at hassign
      · cases hassign
      · rename_i hid
        have hmarks := hawaits.marksGameString_assigned_iff hadd hid
        have hcases := hawaits.addString_cases hadd
        obtain ⟨strings, rfl, hstored, hgrown, -⟩ := LoadedScenario.addString_spec hadd
        rw [Nat.max_eq_right hawaits.length] at hgrown
        rw [untilNul_untilNul] at hstored
        have hsame : scenario.withStrings strings = scenario →
            strings = scenario.str.strings := fun heq =>
          congrArg (fun changed : LoadedScenario => changed.str.strings) heq
        have hround : Round scenario (assigned (scenario.withStrings strings)
            node stringId) node stringId :=
          { lt := Nat.lt_of_lt_of_le (lt_length_of_getString hstored) hgrown
            fields := fieldAt_foldl_assignStringId _ _ _
            marks := hmarks
            stored := hstored
            others := fun other hother => by
              rcases hcases with ⟨-, heq, -⟩ | ⟨-, -, heq⟩
              · exact congrArg (getString · other) (hsame heq)
              · exact (heq other).trans (if_neg hother)
            found := fun huse => by
              rcases hcases with ⟨-, heq, hused⟩ | ⟨hnone, -⟩
              · exact ⟨hsame heq, hused⟩
              · exact absurd huse hnone
            unused := fun hnone => by
              rcases hcases with ⟨huse, -⟩ | ⟨-, hnext, -⟩
              · exact absurd huse hnone
              · exact hnext }
        refine ⟨stringId, _, hround, ?_, hassign⟩
        have hapart := List.pairwise_cons.mp hawaits.apart
        refine ⟨hgrown, hapart.2, ?_, ?_⟩
        · intro other hother field hfield value hvalue
          rw [hround.fieldAt_of_notMem fun hmem =>
            (hapart.1 other hother).2 hmem hfield] at hvalue
          exact hawaits.fields other (List.mem_cons_of_mem _ hother) field hfield value hvalue
        · intro other hother otherId hget
          have hne : otherId ≠ stringId := by
            rintro rfl
            rw [hround.stored] at hget
            exact (hapart.1 other hother).1 (Option.some.inj hget)
          rw [hround.others otherId hne] at hget
          exact (hround.marks otherId).mpr (.inl (hawaits.fresh other
            (List.mem_cons_of_mem _ hother) otherId hget))

section Loop

variable {scenario built : LoadedScenario} {nodes : List StringTableNode}
  {stringId : ℕ} {text : Text}

section

variable (hawaits : Awaits scenario nodes)
  (hassign : assignStrings 0 nodes scenario = (true, built))

include hawaits hassign

theorem assignStrings_kept (hmarks : scenario.marksGameString .all stringId) :
    getString built.str.strings stringId = getString scenario.str.strings stringId := by
  induction nodes generalizing scenario with
  | nil =>
      cases hassign
      rfl
  | cons node rest ih =>
      obtain ⟨otherId, next, hround, hnext, hrest⟩ := hawaits.round hassign
      rw [ih hnext hrest ((hround.marks stringId).mpr (.inl hmarks)), hround.kept hmarks]

theorem fieldAt_assignStrings (hnot : ∀ node ∈ nodes, field ∉ node.assignees) :
    fieldAt built.trig field = fieldAt scenario.trig field := by
  induction nodes generalizing scenario with
  | nil =>
      cases hassign
      rfl
  | cons node rest ih =>
      obtain ⟨otherId, next, hround, hnext, hrest⟩ := hawaits.round hassign
      rw [ih hnext hrest fun other hother =>
        hnot other (List.mem_cons_of_mem _ hother)]
      exact hround.fieldAt_of_notMem (hnot node List.mem_cons_self)

theorem assignStrings_ne (hne : ∀ node ∈ nodes, untilNul node.scStr ≠ text)
    (hstored : getString scenario.str.strings stringId ≠ some text) :
    getString built.str.strings stringId ≠ some text := by
  induction nodes generalizing scenario with
  | nil =>
      cases hassign
      exact hstored
  | cons node rest ih =>
      obtain ⟨otherId, next, hround, hnext, hrest⟩ := hawaits.round hassign
      apply ih hnext hrest fun other hother =>
        hne other (List.mem_cons_of_mem _ hother)
      by_cases hhere : stringId = otherId
      · rw [hhere, hround.stored]
        exact fun heq => hne node List.mem_cons_self (Option.some.inj heq)
      · rw [hround.others stringId hhere]
        exact hstored

theorem assignStrings_length : built.str.strings.length ≤ maxStrings := by
  induction nodes generalizing scenario with
  | nil =>
      cases hassign
      exact hawaits.length
  | cons node rest ih =>
      obtain ⟨otherId, next, -, hnext, hrest⟩ := hawaits.round hassign
      exact ih hnext hrest

end

theorem nextUnusedStringId_congr {other : LoadedScenario}
    (hmarks : ∀ stringId, other.marksGameString .all stringId ↔
      scenario.marksGameString .all stringId) :
    other.nextUnusedStringId = scenario.nextUnusedStringId := by
  rw [LoadedScenario.nextUnusedStringId, LoadedScenario.nextUnusedStringId]
  simp only [hmarks]

/-- A string under the first unused id stays until a text has to be stored. -/
theorem assignStrings_unused_iff (hawaits : Awaits scenario nodes)
    (hassign : assignStrings 0 nodes scenario = (true, built))
    (hunused : stringId = scenario.nextUnusedStringId)
    (hne : ∀ node ∈ nodes, untilNul node.scStr ≠ text)
    (hstored : getString scenario.str.strings stringId = some text) :
    getString built.str.strings stringId = some text ↔
      ∀ node ∈ nodes, InUse scenario (untilNul node.scStr) := by
  induction nodes generalizing scenario with
  | nil =>
      cases hassign
      simp [hstored]
  | cons node rest ih =>
      obtain ⟨otherId, next, hround, hnext, hrest⟩ := hawaits.round hassign
      have hlater : ∀ other ∈ rest, untilNul other.scStr ≠ text :=
        fun other hother => hne other (List.mem_cons_of_mem _ hother)
      rw [List.forall_mem_cons]
      by_cases huse : InUse scenario (untilNul node.scStr)
      · obtain ⟨hsame, hmarked⟩ := hround.found huse
        have hmarks : ∀ other, next.marksGameString .all other ↔
            scenario.marksGameString .all other := by
          intro other
          rw [hround.marks, or_iff_left_of_imp]
          rintro ⟨rfl, -⟩
          exact hmarked
        rw [and_iff_right huse,
          ih hnext hrest (hunused.trans (nextUnusedStringId_congr hmarks).symm) hlater (hsame ▸ hstored)]
        apply forall₂_congr
        intro other hother
        exact hround.inUse_iff ((List.pairwise_cons.mp hawaits.apart).1 other hother).1
      · refine iff_of_false ?_ fun hall => huse hall.1
        apply assignStrings_ne hnext hrest hlater
        rw [hunused, ← hround.unused huse, hround.stored]
        exact fun heq => hne node List.mem_cons_self (Option.some.inj heq)

/-- When the string of a node stays under its id: the text was in use already,
one of its fields is used, or every text behind it was in use. -/
def KeepsNode (scenario : LoadedScenario) (node : StringTableNode)
    (behind : List StringTableNode) : Prop :=
  InUse scenario (untilNul node.scStr) ∨ UsesNode scenario.trig node ∨
    ∀ later ∈ behind, InUse scenario (untilNul later.scStr)

/-- Every node's fields get one id, and the node's text is under it in the end
exactly if it is kept. -/
theorem assignStrings_keeps_iff {before behind : List StringTableNode}
    {node : StringTableNode}
    (hawaits : Awaits scenario (before ++ node :: behind))
    (hassign : assignStrings 0 (before ++ node :: behind) scenario =
      (true, built)) (hfield : field ∈ node.assignees)
    {value : UInt8 × UInt32}
    (hvalue : fieldAt scenario.trig field = some value) :
    ∃ stringId, stringId < maxStrings ∧
      fieldAt built.trig field = some (value.1, UInt32.ofNat stringId) ∧
      (getString built.str.strings stringId = some (untilNul node.scStr) ↔
        KeepsNode scenario node behind) := by
  induction before generalizing scenario with
  | nil =>
      obtain ⟨stringId, next, hround, hnext, hrest⟩ := hawaits.round hassign
      have hapart := (List.pairwise_cons.mp hawaits.apart).1
      refine ⟨stringId, hround.lt, ?_, ?_⟩
      · rw [fieldAt_assignStrings hnext hrest fun other hother hmem =>
          (hapart other hother).2 hfield hmem, hround.fields, hvalue]
        simp [hfield]
      · have hused : next.marksGameString .all stringId → getString built.str.strings stringId =
              some (untilNul node.scStr) := fun hmarks =>
          (assignStrings_kept hnext hrest hmarks).trans hround.stored
        rw [KeepsNode]
        by_cases huse : InUse scenario (untilNul node.scStr)
        · exact iff_of_true (hused ((hround.marks _).mpr (.inl (hround.found huse).2))) (.inl huse)
        by_cases hnode : UsesNode scenario.trig node
        · exact iff_of_true (hused ((hround.marks _).mpr (.inr ⟨rfl, hnode⟩))) (.inr (.inl hnode))
        rw [or_iff_right huse, or_iff_right hnode]
        have hmarks : ∀ other, next.marksGameString .all other ↔
            scenario.marksGameString .all other := by
          intro other
          rw [hround.marks, or_iff_left fun hnew => hnode hnew.2]
        rw [assignStrings_unused_iff hnext hrest
          ((hround.unused huse).trans (nextUnusedStringId_congr hmarks).symm)
          (fun other hother heq => (hapart other hother).1 heq.symm)
          hround.stored]
        apply forall₂_congr
        intro other hother
        exact hround.inUse_iff (hapart other hother).1
  | cons first before ih =>
      obtain ⟨otherId, next, hround, hnext, hrest⟩ := hawaits.round hassign
      have hapart := (List.pairwise_cons.mp hawaits.apart).1
      have hnode := hapart node (by simp)
      have hnot : field ∉ first.assignees := fun hmem => hnode.2 hmem hfield
      obtain ⟨stringId, hlt, hbuilt, hkeeps⟩ := ih hnext hrest
        ((hround.fieldAt_of_notMem hnot).trans hvalue)
      refine ⟨stringId, hlt, hbuilt, hkeeps.trans ?_⟩
      simp only [KeepsNode, UsesNode, hround.usedAt_iff, hround.inUse_iff hnode.1]
      apply or_congr_right
      apply or_congr_right
      apply forall₂_congr
      intro later hlater
      exact hround.inUse_iff (hapart later (by simp [hlater])).1

end Loop

end Chkdraft.TextTrigs
