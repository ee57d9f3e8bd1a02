import Chkdraft.TextTrigs.Literals

/-!
# Fields that wait for an id

A quoted text that is no string of the map is kept in a node of its own, whose
text no other node has.  The fields it was written for are 0 until the map is
built, because every trigger starts blank and an argument sets its own field
only.
-/

namespace Chkdraft.TextTrigs

open Chk Scan Scenario

variable {field : Assignee} {entry : Assignee × Text}

/-- Nodes have different texts, unless both are strings of the map. -/
def StringTableNode.Apart (node other : StringTableNode) : Prop :=
  node.stringId = 0 ∨ other.stringId = 0 → untilNul node.scStr ≠ untilNul other.scStr

/-- The fields kept by nodes without an id. -/
def waitingFields (nodes : List StringTableNode) : List Assignee :=
  (nodes.filter fun node => node.stringId = 0).flatMap StringTableNode.assignees

variable {nodes : List StringTableNode}

theorem mem_waitingFields : field ∈ waitingFields nodes ↔
      ∃ node ∈ nodes, node.stringId = 0 ∧ field ∈ node.assignees := by
  simp only [waitingFields, List.mem_flatMap, List.mem_filter, decide_eq_true_eq, and_assoc]

/-- A change of one node that keeps what a projection of nodes shows. -/
theorem map_modify_eq {A B : Type} {key : A → B} {change : A → A}
    (hkey : ∀ element, key (change element) = key element)
    (elements : List A) (index : ℕ) :
    (elements.modify index change).map key = elements.map key := by
  induction elements generalizing index with
  | nil => rw [List.modify_nil]
  | cons element rest ih => cases index <;> simp [hkey, ih]

theorem pairwise_apart_modify {index : ℕ}
    {change : StringTableNode → StringTableNode}
    (hkey : ∀ node, ((change node).stringId, (change node).scStr) = (node.stringId, node.scStr))
    (hapart : nodes.Pairwise StringTableNode.Apart) :
    (nodes.modify index change).Pairwise StringTableNode.Apart := by
  have hpairs : ∀ others : List StringTableNode, others.Pairwise StringTableNode.Apart ↔
        (others.map fun node => (node.stringId, node.scStr)).Pairwise
          fun node other => node.1 = 0 ∨ other.1 = 0 → untilNul node.2 ≠ untilNul other.2 := by
    intro others
    rw [List.pairwise_map]
    rfl
  rw [hpairs, map_modify_eq hkey, ← hpairs]
  exact hapart

/-- The node of a new text is behind the others, none of which has the text. -/
theorem internString_apart (content : Text) (assignee : Assignee)
    (hapart : nodes.Pairwise StringTableNode.Apart) :
    (internString nodes content assignee).2.Pairwise
      StringTableNode.Apart := by
  rw [internString]
  split
  · rename_i hnone
    rw [List.findIdx?_eq_none_iff] at hnone
    refine List.pairwise_append.mpr ⟨hapart, List.pairwise_singleton _ _, ?_⟩
    intro node hnode other hother _
    rw [List.mem_singleton.mp hother]
    simpa using hnone node hnode
  · simp only
    split
    · exact pairwise_apart_modify (fun _ => rfl) hapart
    · exact pairwise_apart_modify (fun _ => rfl) hapart

theorem mem_waitingFields_internString {content : Text} {assignee : Assignee}
    (hmem : field ∈ waitingFields (internString nodes content assignee).2) :
    field ∈ waitingFields nodes ∨
      field = assignee ∧ (internString nodes content assignee).1 = none := by
  rw [mem_waitingFields] at hmem
  obtain ⟨node, hnode, hzero, hfield⟩ := hmem
  rw [internString] at hnode ⊢
  split at hnode
  · rcases List.mem_append.mp hnode with hold | hnew
    · exact .inl (mem_waitingFields.mpr ⟨node, hold, hzero, hfield⟩)
    · rw [List.mem_singleton.mp hnew] at hfield
      exact .inr ⟨List.mem_singleton.mp hfield, rfl⟩
  · rename_i index hindex
    simp only at hnode ⊢
    split at hnode
    · rename_i hwaits
      rw [if_pos hwaits]
      rcases mem_modify.mp hnode with
        ⟨position, -, hposition⟩ | ⟨source, hsource, rfl⟩
      · exact .inl (mem_waitingFields.mpr ⟨node, List.mem_of_getElem? hposition, hzero, hfield⟩)
      · rcases List.mem_append.mp hfield with hold | hnew
        · exact .inl (mem_waitingFields.mpr ⟨source, List.mem_of_getElem? hsource, hzero, hold⟩)
        · exact .inr ⟨List.mem_singleton.mp hnew, rfl⟩
    · left
      rcases mem_modify.mp hnode with
        ⟨position, -, hposition⟩ | ⟨source, hsource, rfl⟩
      · exact mem_waitingFields.mpr ⟨node, List.mem_of_getElem? hposition, hzero, hfield⟩
      · exact mem_waitingFields.mpr ⟨source, List.mem_of_getElem? hsource, hzero, hfield⟩

/-- The actions that have not begun have no string and no sound. -/
def Parsed.Blank (parsed : Parsed) : Prop := ∀ index, parsed.numActions ≤ index →
    ∀ action, parsed.currTrig.actions.toList[index]? = some action →
      ∀ isSound, stringField isSound action = 0

section Fields

variable {stringContents : List Text} {initial : List StringTableNode}
  {cursor next : Cursor} {parsed : Parsed} {actionId : VirtualAction}
  {argIndex : ℕ} {argument : ActionArgument}

namespace LiteralInvariant

section

variable (hinv : LiteralInvariant stringContents initial (cursor, parsed))
  (hcurrent : cursor.expecting = .actionArgOrEndOfAction actionId argIndex)
  (hargument : actionId.textArguments[argIndex]? = some argument)

include hinv hcurrent hargument

theorem ne_stringArgument {isSound : Bool}
    (hmem : parsed.assignee isSound ∈ parsed.literals.map Prod.fst) :
    argument ≠ stringArgument isSound := by
  rintro rfl
  exact notMem_take_of_nodup (textArguments_nodup actionId) hargument
    ((hinv.current actionId argIndex hcurrent).2.2 isSound hmem)

/-- An argument of the current action keeps a quoted text's field, unless it is
the field's own. -/
theorem field_setAction {changed : Action} (hfield : ∀ isSound, argument ≠ stringArgument isSound →
      stringField isSound changed = stringField isSound parsed.currAction)
    (hentry : entry ∈ parsed.literals) :
    (actionAt (parsed.setAction changed).triggers entry.1).map (stringField entry.1.isSound) =
      (actionAt parsed.triggers entry.1).map (stringField entry.1.isSound) := by
  rw [Parsed.actionAt_setAction, Option.map_map]
  apply Option.map_congr
  intro action haction
  simp only [Function.comp]
  split
  · rename_i hhere
    have hassignee : entry.1 = parsed.assignee entry.1.isSound := by
      rw [Parsed.assignee, ← hhere.1, ← hhere.2]
    obtain ⟨hpos, -, -⟩ := hinv.current actionId argIndex hcurrent
    rw [hassignee, actionAt_assignee hpos hinv.bounded] at haction
    rw [← Option.some.inj haction]
    exact hfield _ (hinv.ne_stringArgument hcurrent hargument
      (hassignee ▸ List.mem_map_of_mem hentry))
  · rfl

theorem field_applyEffect {effect : ActionEffect}
    (hframe : EffectFrame stringContents argument parsed.currAction effect)
    (hentry : entry ∈ parsed.literals) :
    (actionAt (parsed.applyEffect effect).triggers entry.1).map (stringField entry.1.isSound) =
      (actionAt parsed.triggers entry.1).map (stringField entry.1.isSound) := by
  cases hframe with
  | set hfield htype =>
      exact hinv.field_setAction hcurrent hargument hfield hentry
  | @refer isSound content hstring hmem =>
      rw [Parsed.applyEffect, Parsed.refer]
      cases hintern : internString parsed.nodes content (parsed.assignee isSound) with
      | mk stringId nodes =>
          cases stringId with
          | none => rfl
          | some stringId =>
              apply hinv.field_setAction hcurrent hargument _ hentry
              intro other hother
              apply stringField_setStringId_of_ne
              rintro rfl
              exact hother hstring

end

theorem field_partStep {input : CompilerInput} {state following : ParserState}
    (hinv : LiteralInvariant input.stringContents initial state)
    (hstep : PartStep input state following)
    (hentry : entry ∈ state.2.literals) :
    (actionAt following.2.triggers entry.1).map (stringField entry.1.isSound) =
      (actionAt state.2.triggers entry.1).map (stringField entry.1.isSound) := by
  have hbegun := hinv.begun entry hentry
  cases hstep with
  | moves => rfl
  | begins hcurrent =>
      refine congrArg (Option.map _) (hinv.actionAt_beforeActions (by rw [hcurrent]; rfl) ?_ hbegun)
      rfl
  | owner hcurrent | conditionArg hcurrent =>
      refine congrArg (Option.map _) (hinv.actionAt_beforeActions hcurrent ?_ hbegun)
      rfl
  | condition hcurrent hnext hadded =>
      rw [Parsed.addCondition] at hadded
      split at hadded
      · cases hadded
        refine congrArg (Option.map _) (hinv.actionAt_beforeActions hcurrent ?_ hbegun)
        rfl
      · cases hadded
  | action hcurrent hnext hadded =>
      exact congrArg (Option.map _) (hbegun.actionAt_addAction hadded)
  | actionArg hcurrent hnext hargument heffect =>
      exact hinv.field_applyEffect hcurrent hargument (parseActionArg_frame heffect) hentry
  | flags => exact congrArg (Option.map _) (Parsed.actionAt_setFlags _ _ _)
  | finishes => exact congrArg (Option.map _) hbegun.actionAt_finishTrigger

end LiteralInvariant

end Fields

/-- What holds of the fields that wait, and of those that will be written. -/
structure WaitingInvariant (state : ParserState) : Prop where
  apart : state.2.nodes.Pairwise StringTableNode.Apart
  blank : state.1.expecting ≠ .triggerOrEndOfText → state.2.Blank
  current : ∀ actionId argIndex, state.1.expecting = .actionArgOrEndOfAction actionId argIndex →
    ∀ isSound, stringArgument isSound ∉ actionId.textArguments.take argIndex →
      stringField isSound state.2.currAction = 0
  waiting : ∀ field ∈ waitingFields state.2.nodes, ∀ action,
    actionAt state.2.triggers field = some action →
    stringField field.isSound action = 0

namespace WaitingInvariant

variable {input : CompilerInput} {initial : List StringTableNode}
  {state following : ParserState} {cursor next : Cursor} {parsed : Parsed}
  {actionId : VirtualAction} {argIndex : ℕ} {argument : ActionArgument}

theorem start (hids : ∀ node ∈ initial, node.stringId ≠ 0) :
    WaitingInvariant (.start, .start initial) where
  apart := by
    apply List.pairwise_of_forall_mem_list
    rintro node hnode other hother (hzero | hzero)
    · exact absurd hzero (hids node hnode)
    · exact absurd hzero (hids other hother)
  blank hinside := absurd rfl hinside
  current := by simp [Cursor.start]
  waiting := by
    intro field hfield
    obtain ⟨node, hnode, hzero, -⟩ := mem_waitingFields.mp hfield
    exact absurd hzero (hids node hnode)

section

variable (hinv : LiteralInvariant input.stringContents initial state)
  (hwaits : WaitingInvariant state) (hstep : PartStep input state following)

include hinv hwaits hstep

theorem waiting_partStep (hfield : field ∈ waitingFields state.2.nodes)
    {action : Action} (haction : actionAt following.2.triggers field = some action) :
    stringField field.isSound action = 0 := by
  obtain ⟨node, hnode, -, hassignee⟩ := mem_waitingFields.mp hfield
  obtain ⟨content, hentry, -⟩ := hinv.assigned node hnode field hassignee
  have hsame := hinv.field_partStep hstep hentry
  simp only [haction, Option.map_some] at hsame
  obtain ⟨before, hbefore, hvalue⟩ := Option.map_eq_some_iff.mp hsame.symm
  rw [← hvalue]
  exact hwaits.waiting field hfield before hbefore

theorem of_nodes_eq (hnodes : following.2.nodes = state.2.nodes)
    (hblank : following.1.expecting ≠ .triggerOrEndOfText → following.2.Blank)
    (hcurrent : ∀ actionId argIndex,
      following.1.expecting = .actionArgOrEndOfAction actionId argIndex →
      ∀ isSound, stringArgument isSound ∉ actionId.textArguments.take argIndex →
        stringField isSound following.2.currAction = 0) :
    WaitingInvariant following where
  apart := hnodes ▸ hwaits.apart
  blank := hblank
  current := hcurrent
  waiting _ hfield _ haction := hwaits.waiting_partStep hinv hstep (hnodes ▸ hfield) haction

end

theorem blank_setAction (hpos : 0 < parsed.numActions) (hblank : parsed.Blank)
    (changed : Action) : (parsed.setAction changed).Blank := by
  intro index hindex action haction
  simp only [Parsed.setAction] at hindex haction
  rw [toList_modifyAt, List.getElem?_modify, Option.map_eq_map, Option.map_eq_some_iff] at haction
  obtain ⟨original, horiginal, rfl⟩ := haction
  rw [if_neg (by omega)]
  exact hblank index hindex original horiginal

/-- An argument of the current action that sets its own field only. -/
theorem of_argument {changed : Parsed} (hwaits : WaitingInvariant (cursor, parsed))
    (hcurrent : cursor.expecting = .actionArgOrEndOfAction actionId argIndex)
    (hnext : next.expecting = .actionArgOrEndOfAction actionId (argIndex + 1))
    (hargument : actionId.textArguments[argIndex]? = some argument)
    (hblank : parsed.Blank → changed.Blank)
    (hfield : ∀ isSound, argument ≠ stringArgument isSound →
      stringField isSound changed.currAction = stringField isSound parsed.currAction)
    (hapart : changed.nodes.Pairwise StringTableNode.Apart)
    (hwaiting : ∀ field ∈ waitingFields changed.nodes, ∀ action,
      actionAt changed.triggers field = some action →
      stringField field.isSound action = 0) :
    WaitingInvariant (next, changed) := by
  refine ⟨hapart, fun _ => hblank (hwaits.blank ?_), ?_, hwaiting⟩
  · simp [hcurrent]
  · intro otherId otherIndex heq isSound hnotMem
    rw [hnext] at heq
    cases heq
    rw [List.take_add_one, hargument, List.mem_append, not_or] at hnotMem
    rw [hfield isSound]
    · exact hwaits.current actionId argIndex hcurrent isSound hnotMem.1
    · rintro rfl
      exact hnotMem.2 (List.mem_singleton_self _)

section

variable (hinv : LiteralInvariant input.stringContents initial (cursor, parsed))
  (hwaits : WaitingInvariant (cursor, parsed))

include hinv hwaits

theorem actionArg {effect : ActionEffect}
    (hstep : PartStep input (cursor, parsed) (next, parsed.applyEffect effect))
    (hcurrent : cursor.expecting = .actionArgOrEndOfAction actionId argIndex)
    (hnext : next.expecting = .actionArgOrEndOfAction actionId (argIndex + 1))
    (hargument : actionId.textArguments[argIndex]? = some argument)
    (hframe : EffectFrame input.stringContents argument parsed.currAction effect) :
    WaitingInvariant (next, parsed.applyEffect effect) := by
  obtain ⟨hpos, -, -⟩ := hinv.current actionId argIndex hcurrent
  have hkept := fun field hfield action =>
    @waiting_partStep field input initial _ _ hinv hwaits hstep hfield action
  cases hframe with
  | @set changed hfield =>
      apply hwaits.of_argument hcurrent hnext hargument
      · exact fun hblank => blank_setAction hpos hblank changed
      · intro isSound hother
        rw [Parsed.applyEffect, LiteralInvariant.currAction_setAction hpos hinv.bounded]
        exact hfield isSound hother
      · exact hwaits.apart
      · exact hkept
  | @refer isSound content hstring =>
      subst hstring
      have hapart := internString_apart content (parsed.assignee isSound) hwaits.apart
      have hnew := fun field => @mem_waitingFields_internString field
        parsed.nodes content (parsed.assignee isSound)
      rw [Parsed.applyEffect, Parsed.refer] at hkept ⊢
      cases hintern : internString parsed.nodes content (parsed.assignee isSound) with
      | mk stringId nodes =>
          simp only [hintern] at hapart hnew hkept ⊢
          cases stringId with
          | some stringId =>
              -- The id is written into the field of this argument.
              apply hwaits.of_argument hcurrent hnext hargument
              · exact fun hblank => blank_setAction hpos hblank _
              · intro other hother
                refine Eq.trans (congrArg _ (LiteralInvariant.currAction_setAction
                  hpos hinv.bounded _)) (stringField_setStringId_of_ne ?_ _ _)
                rintro rfl
                exact hother rfl
              · exact hapart
              · intro field hfield action haction
                rcases hnew field hfield with hold | ⟨-, hnone⟩
                · exact hkept field hold action haction
                · cases hnone
          | none =>
              apply hwaits.of_argument hcurrent hnext hargument
              · exact id
              · exact fun _ _ => rfl
              · exact hapart
              · intro field hfield action haction
                rcases hnew field hfield with hold | ⟨rfl, -⟩
                · exact hkept field hold action haction
                · have hhere := LiteralInvariant.actionAt_assignee hpos hinv.bounded isSound
                  obtain rfl := Option.some.inj (haction.symm.trans hhere)
                  exact hwaits.current actionId argIndex hcurrent isSound
                    (LiteralInvariant.notMem_take_of_nodup (textArguments_nodup actionId) hargument)

theorem action {added : Parsed} {stateFlags : UInt8}
    (hstep : PartStep input (cursor, parsed) (next, added))
    (hcurrent : cursor.expecting = .actionStartOrFlagSectionStartOrEndOfTrigger)
    (hadded : parsed.addAction actionId stateFlags = .ok added) :
    WaitingInvariant (next, added) := by
  obtain ⟨hroom, hnumActions, -, hnodes, -, hactions⟩ := Parsed.addAction_spec hadded
  have hblank : parsed.Blank := hwaits.blank (by simp [hcurrent])
  apply hwaits.of_nodes_eq hinv hstep hnodes
  · intro _ index hindex action haction
    rw [hnumActions] at hindex
    rw [hactions, toList_modifyAt, List.getElem?_modify, Option.map_eq_map,
      Option.map_eq_some_iff] at haction
    obtain ⟨original, horiginal, rfl⟩ := haction
    rw [if_neg (by omega)]
    exact hblank index (by omega) original horiginal
  · intro _ _ _ isSound _
    have hlt : parsed.numActions < parsed.currTrig.actions.toList.length := by
      rw [List.Vector.toList_length]
      exact hroom
    have hzero := hblank _ (Nat.le_refl _) _ (List.getElem?_eq_getElem hlt) isSound
    rw [Parsed.currAction, hnumActions, hactions, toList_modifyAt, Nat.add_sub_cancel,
      List.getD_eq_getElem?_getD, List.getElem?_modify_eq, List.getElem?_eq_getElem hlt]
    cases isSound <;> exact hzero

end

theorem partStep (hinv : LiteralInvariant input.stringContents initial state)
    (hwaits : WaitingInvariant state)
    (hstep : PartStep input state following) : WaitingInvariant following := by
  have hof := hwaits.of_nodes_eq hinv hstep
  cases hstep with
  | @moves cursor next parsed hleads =>
      have hinside : next.expecting ≠ .triggerOrEndOfText →
          cursor.expecting ≠ .triggerOrEndOfText := by
        rintro hnext hcurrent
        rw [hcurrent] at hleads
        rcases hleads with heq | hleads
        · exact hnext heq
        · cases hnext' : next.expecting <;> rw [hnext'] at hleads <;>
            cases hleads
      refine hof rfl (fun hnext => hwaits.blank (hinside hnext)) ?_
      intro actionId argIndex heq
      rcases hleads with hsame | hleads
      · exact hwaits.current actionId argIndex (hsame ▸ heq)
      · simp only at heq
        rw [heq] at hleads
        unfold Expecting.leadsTo at hleads
        cases hleads
  | begins hcurrent hnext =>
      refine hof rfl (fun _ => ?_) fun actionId argIndex heq =>
        absurd heq (LiteralInvariant.ne_actionArg_of_beforeActions hnext _ _)
      intro index _ action haction isSound
      have hmem := List.mem_of_getElem? haction
      rw [List.eq_of_mem_replicate hmem]
      cases isSound <;> rfl
  | owner hcurrent hnext hinside | conditionArg hcurrent hnext hinside =>
      exact hof rfl (fun _ => hwaits.blank hinside) fun actionId argIndex heq =>
        absurd heq (LiteralInvariant.ne_actionArg_of_beforeActions hnext _ _)
  | condition hcurrent hnext hadded hinside =>
      rw [Parsed.addCondition] at hadded
      split at hadded
      · cases hadded
        exact hof rfl (fun _ => hwaits.blank hinside) fun actionId argIndex heq => absurd heq
            (LiteralInvariant.ne_actionArg_of_beforeActions hnext _ _)
      · cases hadded
  | action hcurrent hnext hadded =>
      exact hwaits.action hinv (.action hcurrent hnext hadded) hcurrent hadded
  | actionArg hcurrent hnext hargument heffect =>
      exact hwaits.actionArg hinv
        (.actionArg hcurrent hnext hargument heffect) hcurrent hnext hargument
        (parseActionArg_frame heffect)
  | flags hnext hinside =>
      refine hof rfl (fun _ => hwaits.blank hinside) fun actionId argIndex heq => ?_
      rw [hnext] at heq
      cases heq
  | finishes hnext =>
      refine hof rfl (fun hne => absurd hnext hne) fun actionId argIndex heq => ?_
      rw [hnext] at heq
      cases heq

end WaitingInvariant

/-- After a run that returns triggers, new texts have nodes of their own and the
fields they were written for are 0. -/
theorem parseTriggers_waiting {input : CompilerInput}
    {initial : List StringTableNode} {parsed : Parsed}
    (hnul : EndsWithNul input.text)
    (hassignees : ∀ node ∈ initial, node.assignees = [])
    (hids : ∀ node ∈ initial, node.stringId ≠ 0)
    (hparse : parseTriggers input initial = .ok parsed) :
    parsed.nodes.Pairwise StringTableNode.Apart ∧ ∀ field ∈ waitingFields parsed.nodes, ∀ action,
        actionAt parsed.output field = some action →
        stringField field.isSound action = 0 := by
  obtain ⟨cursor, ⟨hinv, hwaits⟩, hbefore⟩ := @parseTriggers_invariant input
    hnul initial parsed hparse
    (fun state => LiteralInvariant input.stringContents initial state ∧
      WaitingInvariant state) ⟨.start hassignees, .start hids⟩
    fun _ _ hinv hstep => ⟨hinv.1.partStep hstep, hinv.2.partStep hinv.1 hstep⟩
  refine ⟨hwaits.apart, fun field hfield action haction => ?_⟩
  obtain ⟨node, hnode, -, hassignee⟩ := mem_waitingFields.mp hfield
  have hliterals := hinv.parsedLiterals (hinv.early hbefore)
  obtain ⟨content, hentry, -⟩ := hliterals.assigned node hnode field hassignee
  apply hwaits.waiting field hfield action
  rw [Parsed.triggers, actionAt_append_left (hliterals.finished _ hentry)]
  exact haction

end Chkdraft.TextTrigs
