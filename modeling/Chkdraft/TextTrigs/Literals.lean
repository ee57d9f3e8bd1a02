import Chkdraft.TextTrigs.ParserSteps

/-!
# Strings written as quoted texts

While the parser runs, a string field given as a quoted text either already
holds the id of a string of the map with that content, or is kept as an
assignee of a node with that content.  The field is never written again, and
the type of its action uses it.
-/

namespace Chkdraft.TextTrigs

open Chk Scan Scenario

variable {isSound : Bool} {argument : ActionArgument} {effect : ActionEffect}
  {nodes : List StringTableNode}

variable {following index nextString pos stop : ℕ} {input : CompilerInput}
  {content : Text} {assignee : Assignee} {added changed parsed : Parsed}
  {actionId : VirtualAction} {stateFlags : UInt8}

def stringField (isSound : Bool) (action : Action) : UInt32 :=
  if isSound then action.soundStringId else action.stringId

/-- The argument a string or a sound is written as. -/
def stringArgument (isSound : Bool) : ActionArgument :=
  if isSound then .sound else .string

@[simp]
theorem stringField_setStringId (isSound : Bool) (stringId : UInt32) (action : Action) :
    stringField isSound (setStringId isSound stringId action) = stringId := by
  cases isSound <;> rfl

theorem stringField_setStringId_of_ne {other : Bool} (hne : other ≠ isSound)
    (stringId : UInt32) (action : Action) :
    stringField other (setStringId isSound stringId action) = stringField other action := by
  cases isSound <;> cases other <;> first | rfl | exact absurd rfl hne

@[simp]
theorem actionType_setStringId (isSound : Bool) (stringId : UInt32) (action : Action) :
    (setStringId isSound stringId action).actionType = action.actionType := by
  cases isSound <;> rfl

theorem Attempt.map_eq_ok_some {A B : Type} {attempt : Attempt A}
    {change : A → B} {value : B}
    (hmap : (attempt.map change) nextString = .ok (some value, following)) :
    ∃ original, attempt nextString = .ok (some original, following) ∧
      change original = value := by
  rw [Attempt.map, Fault.map_eq_ok_iff] at hmap
  obtain ⟨⟨original, count⟩, hattempt, hpair⟩ := hmap
  cases original with
  | none => cases hpair
  | some original =>
      cases hpair
      exact ⟨original, hattempt, rfl⟩

theorem Attempt.orElse_eq_ok_some {A : Type} {first second : Attempt A}
    {value : A}
    (horElse : first.orElse second nextString = .ok (some value, following)) :
    first nextString = .ok (some value, following) ∨
      ∃ middle, second middle = .ok (some value, following) := by
  rw [Attempt.orElse] at horElse
  split at horElse
  · exact .inr ⟨_, horElse⟩
  · exact .inl horElse

/-- A string that is referred to by content is one of the quoted texts. -/
theorem parseString_literal (hparse : parseString input pos stop nextString =
      .ok (some (.literal content), following)) :
    content ∈ input.stringContents := by
  rw [parseString] at hparse
  split at hparse
  · cases hparse
  · split at hparse
    · rw [Attempt.literal] at hparse
      split at hparse
      · rename_i found hfound
        cases hparse
        exact List.mem_of_getElem? hfound
      · cases hparse
    · cases hread : parseLong input.text pos stop <;>
        rw [hread] at hparse <;> cases hparse

theorem parseSoundName_literal (hparse : parseSoundName input pos stop nextString =
      .ok (some (.literal content), following)) :
    content ∈ input.stringContents := by
  rw [parseSoundName] at hparse
  split at hparse
  · cases hparse
  · exact parseString_literal hparse

/-- The same for the attempts of an action, which also take a number. -/
theorem literal_of_orElse_id {attempt : Attempt StringReference}
    {long : Attempt UInt32}
    (hattempt : attempt nextString = .ok (some (.literal content), following) →
      content ∈ input.stringContents)
    (hparse : attempt.orElse (long.map .id) nextString = .ok (some (.literal content), following)) :
    content ∈ input.stringContents := by
  rcases Attempt.orElse_eq_ok_some hparse with hfirst | ⟨middle, hsecond⟩
  · exact hattempt hfirst
  · obtain ⟨number, -, hid⟩ := Attempt.map_eq_ok_some hsecond
    cases hid

/-- An argument touches the string, the sound and the type only if it is the
argument for them, and refers to one of the quoted texts. -/
inductive EffectFrame (stringContents : List Text) (argument : ActionArgument)
    (action : Action) : ActionEffect → Prop where
  | set {changed : Action}
      (hfield : ∀ isSound, argument ≠ stringArgument isSound →
        stringField isSound changed = stringField isSound action)
      (htype : argument ≠ .actionType → changed.actionType = action.actionType) :
      EffectFrame stringContents argument action (.set changed)
  | refer {isSound : Bool} {content : Text}
      (hargument : argument = stringArgument isSound)
      (hcontent : content ∈ stringContents) :
      EffectFrame stringContents argument action (.refer isSound content)

theorem StringReference.effectFrame {stringContents : List Text}
    (isSound : Bool) (action : Action) (reference : StringReference)
    (hliteral : ∀ content, reference = .literal content → content ∈ stringContents) :
    EffectFrame stringContents (stringArgument isSound) action
      (reference.effect isSound action) := by
  cases reference with
  | id stringId =>
      apply EffectFrame.set
      · intro other hne
        apply stringField_setStringId_of_ne
        rintro rfl
        exact hne rfl
      · intro _
        exact actionType_setStringId _ _ _
  | literal content => exact .refer rfl (hliteral content rfl)

theorem parseActionArg_frame {action : Action}
    (hparse : parseActionArg input argument pos stop action nextString =
      .ok (some effect, following)) :
    EffectFrame input.stringContents argument action effect := by
  cases argument with
  | string =>
      obtain ⟨reference, hread, rfl⟩ := Attempt.map_eq_ok_some hparse
      apply reference.effectFrame false action
      rintro content rfl
      exact literal_of_orElse_id parseString_literal hread
  | sound =>
      obtain ⟨reference, hread, rfl⟩ := Attempt.map_eq_ok_some hparse
      apply reference.effectFrame true action
      rintro content rfl
      exact literal_of_orElse_id parseSoundName_literal hread
  | actionType =>
      obtain ⟨value, -, rfl⟩ := Attempt.map_eq_ok_some hparse
      exact .set (fun isSound _ => by cases isSound <;> rfl) fun hne => absurd rfl hne
  | _ =>
      -- The remaining arguments set a field that is neither of the three.
      obtain ⟨value, -, rfl⟩ := Attempt.map_eq_ok_some hparse
      exact .set (fun isSound _ => by cases isSound <;> rfl) fun _ => rfl

def actionAt (triggers : List Trigger) (assignee : Assignee) : Option Action :=
  triggers[assignee.trigger]?.bind fun trigger =>
    trigger.actions.toList[assignee.action]?

theorem actionAt_append_left {triggers : List Trigger}
    (hlt : assignee.trigger < triggers.length) (rest : List Trigger) :
    actionAt (triggers ++ rest) assignee = actionAt triggers assignee := by
  rw [actionAt, actionAt, List.getElem?_append_left hlt]

theorem actionAt_append_length {triggers : List Trigger} {trigger : Trigger}
    (heq : assignee.trigger = triggers.length) (rest : List Trigger) :
    actionAt (triggers ++ trigger :: rest) assignee = trigger.actions.toList[assignee.action]? := by
  rw [actionAt, heq, List.getElem?_append_right (Nat.le_refl _), Nat.sub_self]
  rfl

@[simp]
theorem toList_modifyAt {A : Type} {count : ℕ} (elements : List.Vector A count)
    (index : ℕ) (change : A → A) :
    (modifyAt elements index change).toList = elements.toList.modify index change := rfl

namespace Parsed

/-- The triggers read so far, with the current one behind the finished ones. -/
def triggers (parsed : Parsed) : List Trigger := parsed.output ++ [parsed.currTrig]

/-- The assignees of quoted texts lie in finished triggers or among the actions
begun in the current one. -/
def Begun (parsed : Parsed) (assignee : Assignee) : Prop :=
  assignee.trigger < parsed.output.length ∨
    assignee.trigger = parsed.output.length ∧ assignee.action < parsed.numActions

theorem actionAt_triggers_congr (houtput : changed.output = parsed.output)
    (hactions : changed.currTrig.actions = parsed.currTrig.actions)
    (assignee : Assignee) :
    actionAt changed.triggers assignee = actionAt parsed.triggers assignee := by
  rw [triggers, triggers, houtput]
  rcases Nat.lt_trichotomy assignee.trigger parsed.output.length with
    hlt | heq | hgt
  · rw [actionAt_append_left hlt, actionAt_append_left hlt]
  · rw [actionAt_append_length heq, actionAt_append_length heq, hactions]
  · simp [actionAt, List.getElem?_append_right (Nat.le_of_lt hgt), Nat.sub_ne_zero_of_lt hgt]

theorem actionAt_setFlags (parsed : Parsed) (flags : UInt32) (assignee : Assignee) :
    actionAt (parsed.setFlags flags).triggers assignee = actionAt parsed.triggers assignee :=
  @actionAt_triggers_congr (parsed.setFlags flags) parsed rfl rfl assignee

theorem actionAt_triggers_modify {change : Action → Action}
    (houtput : changed.output = parsed.output)
    (hactions : changed.currTrig.actions =
      modifyAt parsed.currTrig.actions index change) (assignee : Assignee) :
    actionAt changed.triggers assignee = (actionAt parsed.triggers assignee).map fun action =>
        if assignee.trigger = parsed.output.length ∧ assignee.action = index
          then change action else action := by
  rw [triggers, triggers, houtput]
  rcases Nat.lt_trichotomy assignee.trigger parsed.output.length with
    hlt | heq | hgt
  · rw [actionAt_append_left hlt, actionAt_append_left hlt]
    simp [Nat.ne_of_lt hlt]
  · rw [actionAt_append_length heq, actionAt_append_length heq, hactions,
      toList_modifyAt, List.getElem?_modify]
    by_cases hindex : index = assignee.action
    · simp [heq, hindex]
    · simp [heq, hindex, Ne.symm hindex]
  · simp [actionAt, List.getElem?_append_right (Nat.le_of_lt hgt), Nat.sub_ne_zero_of_lt hgt]

theorem actionAt_setAction (parsed : Parsed) (changed : Action) (assignee : Assignee) :
    actionAt (parsed.setAction changed).triggers assignee =
      (actionAt parsed.triggers assignee).map fun action =>
        if assignee.trigger = parsed.output.length ∧
            assignee.action = parsed.numActions - 1 then changed
        else action :=
  @actionAt_triggers_modify _ (parsed.setAction changed) parsed _ rfl rfl assignee

theorem addAction_spec (hadded : parsed.addAction actionId stateFlags = .ok added) :
    parsed.numActions < maxActions ∧ added.numActions = parsed.numActions + 1 ∧
      added.output = parsed.output ∧ added.nodes = parsed.nodes ∧
      added.literals = parsed.literals ∧
      added.currTrig.actions = modifyAt parsed.currTrig.actions parsed.numActions fun action =>
          { action with
            flags := actionId.defaultFlags ||| stateFlags
            actionType := actionId.actionType } := by
  rw [addAction] at hadded
  split at hadded
  · rename_i hroom
    cases hadded
    exact ⟨hroom, rfl, rfl, rfl, rfl, rfl⟩
  · cases hadded

theorem Begun.actionAt_addAction (hbegun : parsed.Begun assignee)
    (hadded : parsed.addAction actionId stateFlags = .ok added) :
    actionAt added.triggers assignee = actionAt parsed.triggers assignee := by
  obtain ⟨-, -, houtput, -, -, hactions⟩ := addAction_spec hadded
  rw [actionAt_triggers_modify houtput hactions]
  have hother : ¬ (assignee.trigger = parsed.output.length ∧
      assignee.action = parsed.numActions) := by
    rintro ⟨htrigger, haction⟩
    rcases hbegun with hlt | ⟨-, hlt⟩ <;> omega
  simp [hother]

theorem Begun.lt_succ (hbegun : parsed.Begun assignee) :
    assignee.trigger < parsed.output.length + 1 := by
  rcases hbegun with hlt | ⟨heq, -⟩
  · exact Nat.lt_succ_of_lt hlt
  · exact Nat.lt_succ_of_le (Nat.le_of_eq heq)

theorem Begun.actionAt_finishTrigger (hbegun : parsed.Begun assignee) :
    actionAt parsed.finishTrigger.triggers assignee = actionAt parsed.triggers assignee := by
  apply actionAt_append_left
  rw [finishTrigger, List.length_append, List.length_singleton]
  exact hbegun.lt_succ

/-- A quoted text has a node with its content.  A string of the map has its id
in the field already; a new one keeps the field as an assignee. -/
def Resolved (parsed : Parsed) (entry : Assignee × Text) : Prop :=
  ∃ node ∈ parsed.nodes, untilNul node.scStr = untilNul entry.2 ∧
    if node.stringId = 0 then entry.1 ∈ node.assignees
    else ∃ action, actionAt parsed.triggers entry.1 = some action ∧
      stringField entry.1.isSound action = UInt32.ofNat node.stringId

end Parsed

theorem mem_modify {A : Type} {elements : List A} {change : A → A}
    {element : A} :
    element ∈ elements.modify index change ↔
      (∃ position, position ≠ index ∧ elements[position]? = some element) ∨
        ∃ original, elements[index]? = some original ∧
          change original = element := by
  rw [List.mem_iff_getElem?]
  constructor
  · rintro ⟨position, hposition⟩
    rw [List.getElem?_modify, Option.map_eq_map, Option.map_eq_some_iff] at hposition
    obtain ⟨original, horiginal, helement⟩ := hposition
    by_cases heq : index = position
    · rw [if_pos heq] at helement
      exact .inr ⟨original, heq ▸ horiginal, helement⟩
    · rw [if_neg heq] at helement
      exact .inl ⟨position, Ne.symm heq, helement ▸ horiginal⟩
  · rintro (⟨position, hne, hposition⟩ | ⟨original, horiginal, rfl⟩)
    · exact ⟨position, by simp [Ne.symm hne, hposition]⟩
    · exact ⟨index, by simp [horiginal]⟩

/-- Nodes before and after a quoted text was read: nodes keep content and id,
and the assignee is added to a node with that content only. -/
structure Interned (nodes changed : List StringTableNode) (content : Text)
    (assignee : Assignee) : Prop where
  kept : ∀ node ∈ nodes, ∃ other ∈ changed, other.scStr = node.scStr ∧
    other.stringId = node.stringId ∧ node.assignees ⊆ other.assignees
  original : ∀ other ∈ changed, other.stringId ≠ 0 →
    ∃ node ∈ nodes, node.scStr = other.scStr ∧ node.stringId = other.stringId
  assigned : ∀ other ∈ changed, ∀ member ∈ other.assignees,
    (∃ node ∈ nodes, node.scStr = other.scStr ∧ member ∈ node.assignees) ∨
      member = assignee ∧ untilNul other.scStr = untilNul content

theorem Interned.modify {node : StringTableNode}
    {change : StringTableNode → StringTableNode} (hnode : nodes[index]? = some node)
    (hscStr : (change node).scStr = node.scStr)
    (hstringId : (change node).stringId = node.stringId)
    (hkept : node.assignees ⊆ (change node).assignees)
    (hadded : ∀ member ∈ (change node).assignees, member ∈ node.assignees ∨
      member = assignee ∧ untilNul node.scStr = untilNul content) :
    Interned nodes (nodes.modify index change) content assignee where
  kept original horiginal := by
    obtain ⟨position, hposition⟩ := List.mem_iff_getElem?.mp horiginal
    by_cases heq : position = index
    · have hsame : original = node := by
        rw [heq, hnode] at hposition
        exact (Option.some.inj hposition).symm
      exact ⟨change node, mem_modify.mpr (.inr ⟨node, hnode, rfl⟩),
        hsame ▸ hscStr, hsame ▸ hstringId, hsame ▸ hkept⟩
    · exact ⟨original, mem_modify.mpr (.inl ⟨position, heq, hposition⟩), rfl,
        rfl, List.Subset.refl _⟩
  original other hother hid := by
    rcases mem_modify.mp hother with
      ⟨position, -, hposition⟩ | ⟨found, hfound, rfl⟩
    · exact ⟨other, List.mem_of_getElem? hposition, rfl, rfl⟩
    · obtain rfl : node = found := Option.some.inj (hnode.symm.trans hfound)
      exact ⟨node, List.mem_of_getElem? hnode, hscStr.symm, hstringId.symm⟩
  assigned other hother member hmember := by
    rcases mem_modify.mp hother with
      ⟨position, -, hposition⟩ | ⟨found, hfound, rfl⟩
    · exact .inl ⟨other, List.mem_of_getElem? hposition, rfl, hmember⟩
    · obtain rfl : node = found := Option.some.inj (hnode.symm.trans hfound)
      rcases hadded member hmember with hold | ⟨hnew, hcontent⟩
      · exact .inl ⟨node, List.mem_of_getElem? hnode, hscStr.symm, hold⟩
      · exact .inr ⟨hnew, hscStr ▸ hcontent⟩

theorem internString_interned (nodes : List StringTableNode) (content : Text)
    (assignee : Assignee) :
    Interned nodes (internString nodes content assignee).2 content assignee := by
  rw [internString]
  split
  · constructor
    · intro node hnode
      exact ⟨node, List.mem_append_left _ hnode, rfl, rfl, List.Subset.refl _⟩
    · intro other hother hid
      rcases List.mem_append.mp hother with hold | hnew
      · exact ⟨other, hold, rfl, rfl⟩
      · rw [List.mem_singleton.mp hnew] at hid
        exact absurd rfl hid
    · intro other hother member hmember
      rcases List.mem_append.mp hother with hold | hnew
      · exact .inl ⟨other, hold, rfl, hmember⟩
      · rw [List.mem_singleton.mp hnew] at hmember ⊢
        exact .inr ⟨List.mem_singleton.mp hmember, rfl⟩
  · rename_i index hindex
    obtain ⟨hlt, hcontent, -⟩ := List.findIdx?_eq_some_iff_getElem.mp hindex
    have hnode : nodes[index]? = some nodes[index] := List.getElem?_eq_getElem hlt
    simp only [decide_eq_true_eq] at hcontent
    simp only
    split
    · apply Interned.modify hnode rfl rfl
      · exact List.subset_append_left _ _
      · intro member hmember
        rcases List.mem_append.mp hmember with hold | hnew
        · exact .inl hold
        · exact .inr ⟨List.mem_singleton.mp hnew, hcontent⟩
    · exact Interned.modify hnode rfl rfl (List.Subset.refl _) fun member hmember => .inl hmember

theorem internString_node (nodes : List StringTableNode) (content : Text) (assignee : Assignee) :
    ∃ node ∈ (internString nodes content assignee).2, untilNul node.scStr = untilNul content ∧
      match (internString nodes content assignee).1 with
      | none => node.stringId = 0 ∧ assignee ∈ node.assignees
      | some stringId => node.stringId = stringId ∧ stringId ≠ 0 := by
  rw [internString]
  split
  · exact ⟨_, List.mem_append_right _ (List.mem_singleton_self _), rfl, rfl,
      List.mem_singleton_self _⟩
  · rename_i index hindex
    obtain ⟨hlt, hcontent, -⟩ := List.findIdx?_eq_some_iff_getElem.mp hindex
    have hnode : nodes[index]? = some nodes[index] := List.getElem?_eq_getElem hlt
    simp only [decide_eq_true_eq] at hcontent
    have hstringId : (nodes.map StringTableNode.stringId).getD index 0 = nodes[index].stringId := by
      simp [List.getD_eq_getElem?_getD, hnode]
    simp only [hstringId]
    split
    · rename_i hzero
      exact ⟨_, mem_modify.mpr (.inr ⟨_, hnode, rfl⟩), hcontent, hzero,
        List.mem_append_right _ (List.mem_singleton_self _)⟩
    · rename_i hid
      exact ⟨_, mem_modify.mpr (.inr ⟨_, hnode, rfl⟩), hcontent, rfl, hid⟩

/-! ## The invariant -/

/-- What holds of quoted texts at the start of every pass; `initial` are the
nodes of the map's strings. -/
structure LiteralInvariant (stringContents : List Text)
    (initial : List StringTableNode) (state : ParserState) : Prop where
  early : state.1.expecting.beforeActions = true → state.2.numActions = 0
  bounded : state.2.numActions ≤ maxActions
  begun : ∀ entry ∈ state.2.literals, state.2.Begun entry.1
  listed : ∀ entry ∈ state.2.literals, entry.1.action < maxActions ∧ entry.2 ∈ stringContents
  nodup : (state.2.literals.map Prod.fst).Nodup
  current : ∀ actionId argIndex, state.1.expecting = .actionArgOrEndOfAction actionId argIndex →
    0 < state.2.numActions ∧ (actionId ≠ .custom →
        state.2.currAction.actionType = actionId.actionType) ∧
      ∀ isSound, state.2.assignee isSound ∈ state.2.literals.map Prod.fst →
        stringArgument isSound ∈ actionId.textArguments.take argIndex
  assigned : ∀ node ∈ state.2.nodes, ∀ assignee ∈ node.assignees,
    ∃ content, (assignee, content) ∈ state.2.literals ∧ untilNul node.scStr = untilNul content
  original : ∀ node ∈ state.2.nodes, node.stringId ≠ 0 →
    ∃ source ∈ initial, source.scStr = node.scStr ∧ source.stringId = node.stringId
  resolved : ∀ entry ∈ state.2.literals, state.2.Resolved entry
  uses : ∀ entry ∈ state.2.literals, entry.1.isSound = false →
    ∀ action, actionAt state.2.triggers entry.1 = some action →
      actionUsesStringArg action.actionType = true

namespace LiteralInvariant

variable {stringContents : List Text} {initial : List StringTableNode}
  {state following : ParserState}

theorem start (hassignees : ∀ node ∈ initial, node.assignees = []) :
    LiteralInvariant stringContents initial (.start, .start initial) where
  early _ := rfl
  bounded := Nat.zero_le _
  begun := by simp [Parsed.start]
  listed := by simp [Parsed.start]
  nodup := by simp [Parsed.start]
  current := by simp [Cursor.start]
  assigned := by
    intro node hnode assignee hassignee
    rw [hassignees node hnode] at hassignee
    cases hassignee
  original := fun node hnode _ => ⟨node, hnode, rfl, rfl⟩
  resolved := by simp [Parsed.start]
  uses := by simp [Parsed.start]

/-- Steps that neither add a quoted text nor touch an action with one. -/
theorem frame (hinv : LiteralInvariant stringContents initial state)
    (hliterals : following.2.literals = state.2.literals)
    (hnodes : following.2.nodes = state.2.nodes)
    (hactions : ∀ assignee, state.2.Begun assignee →
      actionAt following.2.triggers assignee = actionAt state.2.triggers assignee)
    (hbegun : ∀ assignee, state.2.Begun assignee → following.2.Begun assignee)
    (hearly : following.1.expecting.beforeActions = true → following.2.numActions = 0)
    (hbounded : following.2.numActions ≤ maxActions)
    (hcurrent : ∀ actionId argIndex,
      following.1.expecting = .actionArgOrEndOfAction actionId argIndex →
      0 < following.2.numActions ∧ (actionId ≠ .custom →
          following.2.currAction.actionType = actionId.actionType) ∧
        ∀ isSound, following.2.assignee isSound ∈ following.2.literals.map Prod.fst →
          stringArgument isSound ∈ actionId.textArguments.take argIndex) :
    LiteralInvariant stringContents initial following where
  early := hearly
  bounded := hbounded
  begun entry hentry := hbegun _ (hinv.begun entry (hliterals ▸ hentry))
  listed := by rw [hliterals]; exact hinv.listed
  nodup := by rw [hliterals]; exact hinv.nodup
  current := hcurrent
  assigned := by rw [hliterals, hnodes]; exact hinv.assigned
  original := by rw [hnodes]; exact hinv.original
  resolved entry hentry := by
    rw [hliterals] at hentry
    obtain ⟨node, hnode, hcontent, hfield⟩ := hinv.resolved entry hentry
    refine ⟨node, hnodes ▸ hnode, hcontent, ?_⟩
    rw [hactions _ (hinv.begun entry hentry)]
    exact hfield
  uses entry hentry hstring action haction := by
    rw [hliterals] at hentry
    rw [hactions _ (hinv.begun entry hentry)] at haction
    exact hinv.uses entry hentry hstring action haction

/-! ### Steps without a quoted text -/

theorem ne_actionArg_of_beforeActions {expecting : Expecting}
    (hbefore : expecting.beforeActions = true) (actionId : VirtualAction)
    (argIndex : ℕ) : expecting ≠ .actionArgOrEndOfAction actionId argIndex := by
  rintro rfl
  cases hbefore

variable {cursor next : Cursor} {parsed : Parsed}

section

variable (hinv : LiteralInvariant stringContents initial (cursor, parsed))

include hinv

/-- Before the actions of a trigger, what has begun is finished. -/
theorem actionAt_beforeActions (hcurrent : cursor.expecting.beforeActions = true)
    (houtput : changed.output = parsed.output)
    (hbegun : parsed.Begun assignee) :
    actionAt changed.triggers assignee = actionAt parsed.triggers assignee := by
  have hlt : assignee.trigger < parsed.output.length := by
    rcases hbegun with hlt | ⟨-, hlt⟩
    · exact hlt
    · have hzero : parsed.numActions = 0 := hinv.early hcurrent
      rw [hzero] at hlt
      cases hlt
  rw [Parsed.triggers, Parsed.triggers, houtput, actionAt_append_left hlt, actionAt_append_left hlt]

theorem beforeActions (hcurrent : cursor.expecting.beforeActions = true)
    (hnext : next.expecting.beforeActions = true)
    (houtput : changed.output = parsed.output)
    (hnumActions : changed.numActions = parsed.numActions)
    (hliterals : changed.literals = parsed.literals)
    (hnodes : changed.nodes = parsed.nodes) :
    LiteralInvariant stringContents initial (next, changed) := by
  have hzero : parsed.numActions = 0 := hinv.early hcurrent
  apply hinv.frame hliterals hnodes
  · intro assignee hbegun
    exact hinv.actionAt_beforeActions hcurrent houtput hbegun
  · intro assignee hbegun
    rw [Parsed.Begun, houtput, hnumActions]
    exact hbegun
  · intro _
    rw [hnumActions, hzero]
  · rw [hnumActions]
    exact hinv.bounded
  · intro actionId argIndex heq
    exact absurd heq (ne_actionArg_of_beforeActions hnext _ _)

theorem moves (hleads : next.expecting = cursor.expecting ∨
      cursor.expecting.leadsTo next.expecting = true) :
    LiteralInvariant stringContents initial (next, parsed) := by
  refine hinv.frame rfl rfl (fun _ _ => rfl) (fun _ hbegun => hbegun) ?_ ?_ ?_
  · intro hbefore
    rcases hleads with heq | hleads
    · exact hinv.early (heq ▸ hbefore)
    · exact hinv.early (Expecting.beforeActions_of_leadsTo hleads hbefore)
  · exact hinv.bounded
  · intro actionId argIndex heq
    rcases hleads with hsame | hleads
    · exact hinv.current actionId argIndex (hsame ▸ heq)
    · simp only at heq
      rw [heq] at hleads
      unfold Expecting.leadsTo at hleads
      cases hleads

theorem action (hnext : next.expecting = .actionArgOrEndOfAction actionId 0)
    (hadded : parsed.addAction actionId stateFlags = .ok added) :
    LiteralInvariant stringContents initial (next, added) := by
  obtain ⟨hroom, hnumActions, houtput, hnodes, hliterals, hactions⟩ := Parsed.addAction_spec hadded
  refine hinv.frame hliterals hnodes ?_ ?_ ?_ ?_ ?_
  · intro assignee hbegun
    exact hbegun.actionAt_addAction hadded
  · intro assignee hbegun
    rw [Parsed.Begun, houtput, hnumActions]
    rcases hbegun with hlt | ⟨heq, hlt⟩
    · exact .inl hlt
    · exact .inr ⟨heq, Nat.lt_succ_of_lt hlt⟩
  · intro hbefore
    exact absurd hnext (ne_actionArg_of_beforeActions hbefore _ _)
  · rw [hnumActions]
    exact hroom
  · intro otherId argIndex heq
    rw [hnext] at heq
    cases heq
    refine ⟨hnumActions ▸ Nat.succ_pos _, fun _ => ?_, fun isSound hmem => ?_⟩
    · have hlt : parsed.numActions < parsed.currTrig.actions.toList.length := by
        rw [List.Vector.toList_length]
        exact hroom
      simp [Parsed.currAction, hnumActions, hactions,
        List.getD_eq_getElem?_getD, List.getElem?_eq_getElem hlt]
    · -- No quoted text belongs to an action that has just begun.
      rw [hliterals] at hmem
      obtain ⟨entry, hentry, heq⟩ := List.mem_map.mp hmem
      have hbegun := hinv.begun entry hentry
      rw [heq, Parsed.assignee, houtput, hnumActions] at hbegun
      rcases hbegun with hlt | ⟨-, hlt⟩ <;> simp at hlt

theorem finishes (hnext : next.expecting = .triggerOrEndOfText) :
    LiteralInvariant stringContents initial (next, parsed.finishTrigger) := by
  have hlength : parsed.finishTrigger.output.length = parsed.output.length + 1 := by
    rw [Parsed.finishTrigger, List.length_append, List.length_singleton]
  refine hinv.frame rfl rfl (fun _ hbegun => hbegun.actionAt_finishTrigger) ?_ ?_ ?_ ?_
  · intro assignee hbegun
    exact .inl (hlength ▸ hbegun.lt_succ)
  · intro _
    rfl
  · exact Nat.zero_le _
  · intro actionId argIndex heq
    rw [hnext] at heq
    cases heq

end

/-! ### Arguments of actions -/

theorem notMem_take_of_nodup {A : Type} {elements : List A} {element : A}
    (hnodup : elements.Nodup) (helement : elements[index]? = some element) :
    element ∉ elements.take index := by
  obtain ⟨hlt, rfl⟩ := List.getElem?_eq_some_iff.mp helement
  rw [← List.take_append_drop index elements, List.nodup_append] at hnodup
  intro hmem
  apply hnodup.2.2 _ hmem _ _ rfl
  rw [List.drop_eq_getElem_cons hlt]
  exact List.mem_cons_self

/-- Only `Custom` has a type argument. -/
theorem eq_custom_of_actionType_mem
    (hmem : .actionType ∈ actionId.textArguments) : actionId = .custom := by
  revert hmem
  cases actionId <;> decide

/-- `Custom` has no string argument. -/
theorem ne_custom_of_string_mem (hmem : .string ∈ actionId.textArguments) : actionId ≠ .custom := by
  rintro rfl
  revert hmem
  decide

theorem actionAt_assignee (hpos : 0 < parsed.numActions)
    (hbound : parsed.numActions ≤ maxActions) (isSound : Bool) :
    actionAt parsed.triggers (parsed.assignee isSound) = some parsed.currAction := by
  have hlt : parsed.numActions - 1 < parsed.currTrig.actions.toList.length := by
    rw [List.Vector.toList_length]
    omega
  rw [Parsed.triggers, actionAt_append_length rfl, Parsed.currAction, List.getD_eq_getElem _ _ hlt]
  exact List.getElem?_eq_getElem hlt

theorem currAction_setAction (hpos : 0 < parsed.numActions)
    (hbound : parsed.numActions ≤ maxActions) (changed : Action) :
    (parsed.setAction changed).currAction = changed := by
  have hlt : parsed.numActions - 1 < parsed.currTrig.actions.toList.length := by
    rw [List.Vector.toList_length]
    omega
  simp [Parsed.currAction, Parsed.setAction, List.getD_eq_getElem?_getD,
    List.getElem?_eq_getElem hlt]

variable {actionId : VirtualAction} {argIndex : ℕ}

section

variable (hinv : LiteralInvariant stringContents initial (cursor, parsed))
  (hcurrent : cursor.expecting = .actionArgOrEndOfAction actionId argIndex)

include hinv hcurrent

/-- An argument that leaves alone what quoted texts of the action were written
to. -/
theorem setAction {changed : Action} {nextIndex : ℕ}
    (hnext : next.expecting = .actionArgOrEndOfAction actionId nextIndex)
    (hindex : argIndex ≤ nextIndex)
    (hfield : ∀ isSound, stringArgument isSound ∈ actionId.textArguments.take argIndex →
      stringField isSound changed = stringField isSound parsed.currAction)
    (htype : actionId ≠ .custom → changed.actionType = parsed.currAction.actionType) :
    LiteralInvariant stringContents initial (next, parsed.setAction changed) := by
  obtain ⟨hpos, hcurrentType, hkeys⟩ := hinv.current actionId argIndex hcurrent
  -- What a quoted text's action looks like afterwards.
  have hactions : ∀ entry ∈ parsed.literals, ∀ action,
      actionAt parsed.triggers entry.1 = some action →
      ∃ other, actionAt (parsed.setAction changed).triggers entry.1 = some other ∧
        stringField entry.1.isSound other = stringField entry.1.isSound action ∧
        (entry.1.isSound = false → other.actionType = action.actionType) := by
    intro entry hentry action haction
    rw [Parsed.actionAt_setAction, haction, Option.map_some]
    by_cases hhere : entry.1.trigger = parsed.output.length ∧ entry.1.action = parsed.numActions - 1
    · have hassignee : entry.1 = parsed.assignee entry.1.isSound := by
        rw [Parsed.assignee, ← hhere.1, ← hhere.2]
      have hmem := hkeys entry.1.isSound (hassignee ▸ List.mem_map_of_mem hentry)
      have hsame : action = parsed.currAction := by
        rw [hassignee, actionAt_assignee hpos hinv.bounded] at haction
        exact (Option.some.inj haction).symm
      refine ⟨changed, by rw [if_pos hhere], hsame ▸ hfield _ hmem, ?_⟩
      intro hstring
      rw [hstring] at hmem
      rw [hsame]
      exact htype (ne_custom_of_string_mem (List.mem_of_mem_take hmem))
    · exact ⟨action, by rw [if_neg hhere], rfl, fun _ => rfl⟩
  refine
    { early := ?_, bounded := hinv.bounded, begun := hinv.begun,
      listed := hinv.listed, nodup := hinv.nodup, current := ?_,
      assigned := hinv.assigned,
      original := hinv.original, resolved := ?_, uses := ?_ }
  · intro hbefore
    exact absurd hnext (ne_actionArg_of_beforeActions hbefore _ _)
  · intro otherId otherIndex heq
    rw [hnext] at heq
    cases heq
    refine ⟨hpos, fun hcustom => ?_, fun isSound hmem => ?_⟩
    · rw [currAction_setAction hpos hinv.bounded, htype hcustom, hcurrentType hcustom]
    · exact List.take_subset_take_left _ hindex (hkeys isSound hmem)
  · intro entry hentry
    obtain ⟨node, hnode, hcontent, hresolved⟩ := hinv.resolved entry hentry
    refine ⟨node, hnode, hcontent, ?_⟩
    split at hresolved
    · rename_i hzero
      rw [if_pos hzero]
      exact hresolved
    · rename_i hid
      rw [if_neg hid]
      obtain ⟨action, haction, hstringId⟩ := hresolved
      obtain ⟨other, hother, hsame, -⟩ := hactions entry hentry action haction
      exact ⟨other, hother, hsame.trans hstringId⟩
  · intro entry hentry hstring other hother
    have hbegun := hinv.begun entry hentry
    cases haction : actionAt parsed.triggers entry.1 with
    | none =>
        rw [Parsed.actionAt_setAction, haction] at hother
        cases hother
    | some action =>
        obtain ⟨again, hagain, -, hsame⟩ := hactions entry hentry action haction
        rw [hagain] at hother
        cases hother
        rw [hsame hstring]
        exact hinv.uses entry hentry hstring action haction

/-- A quoted text whose node is known, after its field was written. -/
theorem addLiteral (hnext : next.expecting = .actionArgOrEndOfAction actionId (argIndex + 1))
    (hargument : actionId.textArguments[argIndex]? = some (stringArgument isSound))
    (hcontent : content ∈ stringContents)
    (hinterned : Interned parsed.nodes nodes content (parsed.assignee isSound))
    (hresolved : ∃ node ∈ nodes, untilNul node.scStr = untilNul content ∧
      if node.stringId = 0 then parsed.assignee isSound ∈ node.assignees
      else stringField isSound parsed.currAction = UInt32.ofNat node.stringId) :
    LiteralInvariant stringContents initial (next,
      { parsed with
        nodes := nodes
        literals := parsed.literals ++ [(parsed.assignee isSound, content)] }) := by
  obtain ⟨hpos, hcurrentType, hkeys⟩ := hinv.current actionId argIndex hcurrent
  have hmemArgument : stringArgument isSound ∈ actionId.textArguments :=
    List.mem_of_getElem? hargument
  have hfresh : parsed.assignee isSound ∉ parsed.literals.map Prod.fst := by
    intro hmem
    exact notMem_take_of_nodup (textArguments_nodup actionId) hargument (hkeys isSound hmem)
  refine
    { early := ?_, bounded := hinv.bounded, begun := ?_, listed := ?_,
      nodup := ?_, current := ?_, assigned := ?_, original := ?_, resolved := ?_,
      uses := ?_ }
  · intro hbefore
    exact absurd hnext (ne_actionArg_of_beforeActions hbefore _ _)
  · intro entry hentry
    rcases List.mem_append.mp hentry with hold | hnew
    · exact hinv.begun entry hold
    · rw [List.mem_singleton.mp hnew]
      exact .inr ⟨rfl, Nat.sub_lt hpos Nat.one_pos⟩
  · intro entry hentry
    rcases List.mem_append.mp hentry with hold | hnew
    · exact hinv.listed entry hold
    · rw [List.mem_singleton.mp hnew]
      exact ⟨Nat.lt_of_lt_of_le (Nat.sub_lt hpos Nat.one_pos) hinv.bounded, hcontent⟩
  · rw [List.map_append, List.map_singleton]
    exact hinv.nodup.append (List.nodup_singleton _) (List.disjoint_singleton.mpr hfresh)
  · intro otherId otherIndex heq
    rw [hnext] at heq
    cases heq
    refine ⟨hpos, hcurrentType, fun other hmem => ?_⟩
    rw [List.map_append, List.map_singleton] at hmem
    rcases List.mem_append.mp hmem with hold | hnew
    · exact List.take_subset_take_left _ (Nat.le_succ _) (hkeys other hold)
    · have hsame : other = isSound := congrArg Assignee.isSound (List.mem_singleton.mp hnew)
      rw [hsame, List.take_add_one, hargument]
      exact List.mem_append_right _ (List.mem_singleton_self _)
  · intro node hnode assignee hassignee
    rcases hinterned.assigned node hnode assignee hassignee with
      ⟨source, hsource, hscStr, hmember⟩ | ⟨rfl, hcontent⟩
    · obtain ⟨old, hold, hcontent⟩ := hinv.assigned source hsource assignee hmember
      exact ⟨old, List.mem_append_left _ hold, hscStr ▸ hcontent⟩
    · exact ⟨content, List.mem_append_right _ (List.mem_singleton_self _), hcontent⟩
  · intro node hnode hid
    obtain ⟨source, hsource, hscStr, hstringId⟩ := hinterned.original node hnode hid
    rw [← hscStr, ← hstringId]
    exact hinv.original source hsource (hstringId ▸ hid)
  · intro entry hentry
    rcases List.mem_append.mp hentry with hold | hnew
    · obtain ⟨node, hnode, hcontent, hfield⟩ := hinv.resolved entry hold
      obtain ⟨other, hother, hscStr, hstringId, hsubset⟩ := hinterned.kept node hnode
      refine ⟨other, hother, hscStr ▸ hcontent, ?_⟩
      rw [hstringId]
      split at hfield
      · rename_i hzero
        rw [if_pos hzero]
        exact hsubset hfield
      · rename_i hid
        rw [if_neg hid]
        exact hfield
    · rw [List.mem_singleton.mp hnew]
      obtain ⟨node, hnode, hcontent, hfield⟩ := hresolved
      refine ⟨node, hnode, hcontent, ?_⟩
      split at hfield
      · rename_i hzero
        rw [if_pos hzero]
        exact hfield
      · rename_i hid
        rw [if_neg hid]
        exact ⟨parsed.currAction, actionAt_assignee hpos hinv.bounded isSound, hfield⟩
  · intro entry hentry hstring action haction
    rcases List.mem_append.mp hentry with hold | hnew
    · exact hinv.uses entry hold hstring action haction
    · rw [List.mem_singleton.mp hnew] at hstring haction
      obtain rfl : isSound = false := hstring
      have hcurrentAction : action = parsed.currAction := by
        have hhere := actionAt_assignee hpos hinv.bounded false
        exact Option.some.inj (haction.symm.trans hhere)
      rw [hcurrentAction, hcurrentType (ne_custom_of_string_mem hmemArgument)]
      exact actionUsesStringArg_of_mem hmemArgument

theorem actionArg (hnext : next.expecting = .actionArgOrEndOfAction actionId (argIndex + 1))
    (hargument : actionId.textArguments[argIndex]? = some argument)
    (hframe : EffectFrame stringContents argument parsed.currAction effect) :
    LiteralInvariant stringContents initial (next, parsed.applyEffect effect) := by
  have hne : ∀ isSound, stringArgument isSound ∈ actionId.textArguments.take argIndex →
      argument ≠ stringArgument isSound := by
    rintro isSound hmem rfl
    exact notMem_take_of_nodup (textArguments_nodup actionId) hargument hmem
  cases hframe with
  | set hfield htype =>
      apply hinv.setAction hcurrent hnext (Nat.le_succ _)
      · intro isSound hmem
        exact hfield isSound (hne isSound hmem)
      · intro hcustom
        apply htype
        rintro rfl
        exact hcustom (eq_custom_of_actionType_mem (List.mem_of_getElem? hargument))
  | @refer isSound content hstring hmem =>
      subst hstring
      have hinterned := internString_interned parsed.nodes content (parsed.assignee isSound)
      obtain ⟨node, hnode, hcontent, hid⟩ := internString_node parsed.nodes
        content (parsed.assignee isSound)
      obtain ⟨stringId, nodes, hintern⟩ : ∃ stringId nodes,
          internString parsed.nodes content (parsed.assignee isSound) =
            (stringId, nodes) := ⟨_, _, rfl⟩
      simp only [hintern] at hinterned hnode hid
      simp only [Parsed.applyEffect, Parsed.refer, hintern]
      cases stringId with
      | none =>
          apply hinv.addLiteral hcurrent hnext hargument hmem hinterned
          exact ⟨node, hnode, hcontent, by rw [if_pos hid.1]; exact hid.2⟩
      | some stringId =>
          -- The field is written first; the quoted text is recorded then.
          have hwritten : LiteralInvariant stringContents initial
              (cursor, parsed.setAction (setStringId isSound
                (UInt32.ofNat stringId) parsed.currAction)) := by
            apply hinv.setAction hcurrent hcurrent (Nat.le_refl _)
            · intro other hmem
              apply stringField_setStringId_of_ne
              rintro rfl
              exact hne _ hmem rfl
            · intro _
              exact actionType_setStringId _ _ _
          obtain ⟨hpos, -, -⟩ := hinv.current actionId argIndex hcurrent
          apply hwritten.addLiteral hcurrent hnext hargument hmem hinterned
          refine ⟨node, hnode, hcontent, ?_⟩
          rw [if_neg (hid.1 ▸ hid.2), currAction_setAction hpos hinv.bounded,
            stringField_setStringId, hid.1]

end

theorem partStep (hinv : LiteralInvariant input.stringContents initial state)
    (hstep : PartStep input state following) :
    LiteralInvariant input.stringContents initial following := by
  cases hstep with
  | moves hleads => exact hinv.moves hleads
  | begins hcurrent hnext =>
      exact hinv.beforeActions (by rw [hcurrent]; rfl) hnext rfl rfl rfl rfl
  | owner hcurrent hnext =>
      exact hinv.beforeActions hcurrent hnext rfl rfl rfl rfl
  | condition hcurrent hnext hadded =>
      rw [Parsed.addCondition] at hadded
      split at hadded
      · cases hadded
        exact hinv.beforeActions hcurrent hnext rfl rfl rfl rfl
      · cases hadded
  | conditionArg hcurrent hnext =>
      exact hinv.beforeActions hcurrent hnext rfl rfl rfl rfl
  | action hcurrent hnext hadded => exact hinv.action hnext hadded
  | actionArg hcurrent hnext hargument heffect =>
      exact hinv.actionArg hcurrent hnext hargument (parseActionArg_frame heffect)
  | flags hnext =>
      refine hinv.frame rfl rfl (fun assignee _ => Parsed.actionAt_setFlags _ _ assignee)
        (fun _ hbegun => hbegun) ?_ hinv.bounded ?_
      · intro hbefore
        simp only at hbefore
        rw [hnext] at hbefore
        cases hbefore
      · intro actionId argIndex heq
        simp only at heq
        rw [hnext] at heq
        cases heq
  | finishes hnext => exact hinv.finishes hnext

end LiteralInvariant

/-- What a run that returns triggers has done with the quoted texts. -/
structure ParsedLiterals (stringContents : List Text)
    (initial : List StringTableNode) (parsed : Parsed) : Prop where
  finished : ∀ entry ∈ parsed.literals, entry.1.trigger < parsed.output.length
  listed : ∀ entry ∈ parsed.literals, entry.1.action < maxActions ∧ entry.2 ∈ stringContents
  nodup : (parsed.literals.map Prod.fst).Nodup
  assigned : ∀ node ∈ parsed.nodes, ∀ assignee ∈ node.assignees,
    ∃ content, (assignee, content) ∈ parsed.literals ∧ untilNul node.scStr = untilNul content
  original : ∀ node ∈ parsed.nodes, node.stringId ≠ 0 →
    ∃ source ∈ initial, source.scStr = node.scStr ∧ source.stringId = node.stringId
  resolved : ∀ entry ∈ parsed.literals,
    ∃ node ∈ parsed.nodes, untilNul node.scStr = untilNul entry.2 ∧
      if node.stringId = 0 then entry.1 ∈ node.assignees
      else ∃ action, actionAt parsed.output entry.1 = some action ∧
        stringField entry.1.isSound action = UInt32.ofNat node.stringId
  uses : ∀ entry ∈ parsed.literals, entry.1.isSound = false →
    ∀ action, actionAt parsed.output entry.1 = some action →
      actionUsesStringArg action.actionType = true

theorem LiteralInvariant.parsedLiterals {stringContents : List Text}
    {initial : List StringTableNode} {state : ParserState}
    (hinv : LiteralInvariant stringContents initial state)
    (hnone : state.2.numActions = 0) :
    ParsedLiterals stringContents initial state.2 := by
  have hfinished : ∀ entry ∈ state.2.literals, entry.1.trigger < state.2.output.length := by
    intro entry hentry
    rcases hinv.begun entry hentry with hlt | ⟨-, hlt⟩
    · exact hlt
    · rw [hnone] at hlt
      cases hlt
  have hactions : ∀ entry ∈ state.2.literals,
      actionAt state.2.triggers entry.1 = actionAt state.2.output entry.1 :=
    fun entry hentry => actionAt_append_left (hfinished entry hentry) _
  refine
    { finished := hfinished, listed := hinv.listed, nodup := hinv.nodup,
      assigned := hinv.assigned,
      original := hinv.original, resolved := ?_, uses := ?_ }
  · intro entry hentry
    have hresolved := hinv.resolved entry hentry
    rw [Parsed.Resolved, hactions entry hentry] at hresolved
    exact hresolved
  · intro entry hentry hstring action haction
    rw [← hactions entry hentry] at haction
    exact hinv.uses entry hentry hstring action haction

theorem parseTriggers_parsedLiterals {initial : List StringTableNode}
    {parsed : Parsed} (hnul : EndsWithNul input.text)
    (hassignees : ∀ node ∈ initial, node.assignees = [])
    (hparse : parseTriggers input initial = .ok parsed) :
    ParsedLiterals input.stringContents initial parsed := by
  obtain ⟨cursor, hinv, hbefore⟩ := parseTriggers_invariant hnul hparse
    (LiteralInvariant.start hassignees)
    fun _ _ => LiteralInvariant.partStep
  exact hinv.parsedLiterals (hinv.early hbefore)

end Chkdraft.TextTrigs
