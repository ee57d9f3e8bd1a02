import Chkdraft.Commands.GenericCommand
import Mathlib.Tactic.Cases

/-!
# ACID commands

Under an ACID command nothing is ever undone: `UndoCommand` returns false for a
leaf without calling its `Undo`, and so for every subcommand.  So the leaves are
done one after the other until one fails, and unless that was the first of all
the rollback fails.
-/

namespace Chkdraft.Commands

variable {W S : Type}

/-- A command without subcommands. -/
structure Leaf (W S : Type) where
  info : CommandInfo
  doIt : Call W S Unit
  undoIt : Call W S Unit

mutual

def leaves : GenericCommand W S → List (Leaf W S)
  | .make info doIt undoIt [] => [⟨info, doIt, undoIt⟩]
  | .make _ _ _ (command :: rest) => leaves command ++ leavesOfAll rest

def leavesOfAll : List (GenericCommand W S) → List (Leaf W S)
  | [] => []
  | command :: rest => leaves command ++ leavesOfAll rest

end

theorem leaves_ne_nil (command : GenericCommand W S) : leaves command ≠ [] := by
  match command with
  | .make info doIt undoIt [] => exact List.cons_ne_nil _ _
  | .make info doIt undoIt (first :: rest) =>
      rw [leaves]
      exact fun hnil => leaves_ne_nil first (List.append_eq_nil_iff.mp hnil).1

namespace Call

variable {α β γ : Type}

theorem followedBy_assoc (call : Call W S α) (next : α → Call W S β) (last : β → Call W S γ) :
    (call.followedBy next).followedBy last =
      call.followedBy fun value => (next value).followedBy last := by
  funext running
  simp only [followedBy]
  rcases call running with ⟨after, thrown | value⟩
  · rfl
  · rfl

theorem followedBy_ok {call : Call W S α} {next : α → Call W S β}
    {running after : Running W S} {value : α}
    (hcall : call running = (after, .ok value)) :
    call.followedBy next running = next value after := by
  simp only [followedBy, hcall]

/-- A call that throws nothing the guards catch. -/
def Passing (call : Call W S α) : Prop :=
  ∀ running after thrown, call running = (after, .error thrown) →
    thrown = .rollbackFailure ∨ thrown = .foreign

theorem passing_returns (value : α) : (returns value : Call W S α).Passing := by
  rintro running after thrown ⟨⟩

theorem passing_throws_rollbackFailure : (throws .rollbackFailure : Call W S α).Passing := by
  rintro running after thrown ⟨⟩
  exact .inl rfl

theorem Passing.followedBy {call : Call W S α} {next : α → Call W S β}
    (hcall : call.Passing) (hnext : ∀ value, (next value).Passing) :
    (call.followedBy next).Passing := by
  intro running after thrown hthrown
  simp only [Call.followedBy] at hthrown
  split at hthrown
  · exact hnext _ _ _ _ hthrown
  · rename_i heq
    cases hthrown
    exact hcall _ _ _ heq

end Call

/-- A guard changes nothing if there is nothing to catch. -/
theorem guarded_of_passing (observers : Observers W)
    (info retryInfo : CommandInfo) {call : Call W S Bool} (hcall : call.Passing)
    (retry : Call W S Bool) :
    guarded observers info retryInfo call retry = call := by
  funext running
  rw [guarded]
  split
  · rename_i heq
    rcases hcall _ _ _ heq with hthrown | hthrown
    · cases hthrown
    · cases hthrown
  · rename_i heq
    rcases hcall _ _ _ heq with hthrown | hthrown
    · cases hthrown
    · cases hthrown
  · rfl

section Acid

variable (observers : Observers W)

section Attempts

variable {info : CommandInfo} {doIt : Call W S Unit} {retry : Call W S Bool}
  {running after : Running W S}

theorem attempt_ok (hdone : doIt running = (after, .ok ())) :
    attempt observers info doIt retry running = (after, .ok true) := by
  simp only [attempt, hdone]

theorem attempt_known {errorId : UInt32}
    (hknown : doIt running = (after, .error (.known errorId))) :
    attempt observers info doIt retry running =
      if (handleError observers info errorId after).2 = .retryCommand then
        retry (handleError observers info errorId after).1
      else
        ((handleError observers info errorId after).1, .ok false) := by
  simp only [attempt, hknown]
  rcases handleError observers info errorId after with ⟨handled, action⟩
  cases action with
  | retryCommand => rfl
  | _ => rfl

end Attempts

theorem passing_attempt (info : CommandInfo) (doIt : Call W S Unit)
    {retry : Call W S Bool} (hretry : retry.Passing) :
    (attempt observers info doIt retry).Passing := by
  intro running after thrown hthrown
  rcases hdo : doIt running with ⟨reached, result⟩
  cases result with
  | ok done =>
      rw [attempt_ok observers hdo] at hthrown
      cases hthrown
  | error exception =>
      cases exception with
      | known errorId =>
          rw [attempt_known observers hdo] at hthrown
          split at hthrown
          · exact hretry _ _ _ hthrown
          · cases hthrown
      | unknown =>
          simp only [attempt, hdo] at hthrown
          cases hthrown
      | rollbackFailure =>
          simp only [attempt, hdo] at hthrown
          cases hthrown
          exact .inl rfl
      | foreign =>
          simp only [attempt, hdo] at hthrown
          cases hthrown
          exact .inr rfl

theorem passing_doDo (info : CommandInfo) (doIt : Call W S Unit) :
    (doDo observers info doIt false).Passing :=
  passing_attempt observers info doIt
    (passing_attempt observers info doIt (Call.passing_returns false))

theorem undoAcidSubItems_eq {info : CommandInfo} {items : List (SubItem W S)} (hne : items ≠ [])
    (hitems : ∀ item ∈ items, item.undoCommand = .returns false) :
    undoAcidSubItems observers info items = .returns false := by
  obtain ⟨last, earlier, hreverse⟩ := List.exists_cons_of_ne_nil (List.reverse_ne_nil_iff.mpr hne)
  have hlast : last.undoCommand = .returns false := by
    apply hitems
    rw [← List.mem_reverse, hreverse]
    exact List.mem_cons_self
  rw [undoAcidSubItems, hreverse, acidSubItems, hlast,
    guarded_of_passing observers _ _ (Call.passing_returns false)]
  rfl

mutual

theorem undoCommandUnder_acid (command : GenericCommand W S) :
    undoCommandUnder observers command true = .returns false := by
  match command with
  | .make info doIt undoIt [] => rfl
  | .make info doIt undoIt (first :: rest) =>
      have hitems : ∀ item ∈ subItems observers true (first :: rest),
          item.undoCommand = .returns false := by
        rw [subItems, List.forall_mem_cons]
        exact ⟨undoCommandUnder_acid first, undoCommand_subItems rest⟩
      exact undoAcidSubItems_eq observers (List.cons_ne_nil _ _) hitems

theorem undoCommand_subItems (commands : List (GenericCommand W S)) :
    ∀ item ∈ subItems observers true commands, item.undoCommand = .returns false := by
  match commands with
  | [] => exact List.forall_mem_nil _
  | command :: rest =>
      rw [subItems, List.forall_mem_cons]
      exact ⟨undoCommandUnder_acid command, undoCommand_subItems rest⟩

end

theorem rollBack_eq {item : SubItem W S} {passed : List (SubItem W S)}
    (hitem : item.undoCommand = .returns false) :
    rollBack observers SubItem.doCommand SubItem.undoCommand (item :: passed) =
      .throws .rollbackFailure := by
  rw [rollBack, hitem, guarded_of_passing observers _ _ (Call.passing_returns false)]
  rfl

/-- The leaves behind the first one: a failure cannot be rolled back. -/
def laterLeaves : List (Leaf W S) → Call W S Bool
  | [] => .returns true
  | leaf :: rest =>
      (doDo observers leaf.info leaf.doIt false).followedBy fun success =>
        if success then laterLeaves rest else .throws .rollbackFailure

/-- All leaves: nothing is to be rolled back if the first one fails. -/
def acidLeaves : List (Leaf W S) → Call W S Bool
  | [] => .returns true
  | leaf :: rest =>
      (doDo observers leaf.info leaf.doIt false).followedBy fun success =>
        if success then laterLeaves observers rest else .returns false

theorem laterLeaves_followedBy (leafs : List (Leaf W S)) (next : Bool → Call W S Bool) :
    (laterLeaves observers leafs).followedBy next =
      (laterLeaves observers leafs).followedBy fun _ => next true := by
  induction leafs with
  | nil => rfl
  | cons leaf rest ih =>
      rw [laterLeaves, Call.followedBy_assoc, Call.followedBy_assoc]
      congr 1
      funext success
      cases success with
      | true => exact ih
      | false => rfl

theorem laterLeaves_append (first second : List (Leaf W S)) :
    laterLeaves observers (first ++ second) = (laterLeaves observers first).followedBy fun _ =>
        laterLeaves observers second := by
  induction first with
  | nil => rfl
  | cons leaf rest ih =>
      rw [List.cons_append, laterLeaves, laterLeaves, Call.followedBy_assoc]
      congr 1
      funext success
      cases success with
      | true => exact ih
      | false => rfl

theorem acidLeaves_append {first : List (Leaf W S)} (hne : first ≠ []) (second : List (Leaf W S)) :
    acidLeaves observers (first ++ second) = (acidLeaves observers first).followedBy fun success =>
        if success then laterLeaves observers second else .returns false := by
  obtain ⟨leaf, rest, rfl⟩ := List.exists_cons_of_ne_nil hne
  rw [List.cons_append, acidLeaves, acidLeaves, Call.followedBy_assoc]
  congr 1
  funext success
  cases success with
  | false => rfl
  | true =>
      refine (laterLeaves_append observers rest second).trans ?_
      exact (laterLeaves_followedBy observers rest fun success =>
        if success then laterLeaves observers second else .returns false).symm

theorem laterLeaves_eq {leafs : List (Leaf W S)} (hne : leafs ≠ []) :
    laterLeaves observers leafs = (acidLeaves observers leafs).followedBy fun success =>
        if success then .returns true else .throws .rollbackFailure := by
  obtain ⟨leaf, rest, rfl⟩ := List.exists_cons_of_ne_nil hne
  rw [laterLeaves, acidLeaves, Call.followedBy_assoc]
  congr 1
  funext success
  cases success with
  | false => rfl
  | true =>
      have hreturns := laterLeaves_append observers rest []
      rw [List.append_nil] at hreturns
      refine hreturns.trans ?_
      exact (laterLeaves_followedBy observers rest fun success =>
        if success then .returns true else .throws .rollbackFailure).symm

theorem passing_laterLeaves (leafs : List (Leaf W S)) : (laterLeaves observers leafs).Passing := by
  induction leafs with
  | nil => exact Call.passing_returns true
  | cons leaf rest ih =>
      refine (passing_doDo observers leaf.info leaf.doIt).followedBy ?_
      intro success
      cases success with
      | true => exact ih
      | false => exact Call.passing_throws_rollbackFailure

theorem passing_acidLeaves (leafs : List (Leaf W S)) : (acidLeaves observers leafs).Passing := by
  cases leafs with
  | nil => exact Call.passing_returns true
  | cons leaf rest =>
      refine (passing_doDo observers leaf.info leaf.doIt).followedBy ?_
      intro success
      cases success with
      | true => exact passing_laterLeaves observers rest
      | false => exact Call.passing_returns false

mutual

/-- An ACID command does its leaves in order, as far as they do not fail. -/
theorem doCommandUnder_acid (command : GenericCommand W S) :
    doCommandUnder observers command true = acidLeaves observers (leaves command) := by
  match command with
  | .make info doIt undoIt [] =>
      funext running
      change doDo observers info doIt false running =
        ((doDo observers info doIt false).followedBy fun success =>
          if success then .returns true else .returns false) running
      simp only [Call.followedBy]
      split
      · rename_i success heq
        rw [heq]
        cases success with
        | true => rfl
        | false => rfl
      · assumption
  | .make info doIt undoIt (first :: rest) =>
      have hfirst := doCommandUnder_acid first
      have hpassed : ∀ item ∈ [subItem observers true first],
          item.undoCommand = .returns false := by
        rw [List.forall_mem_singleton]
        exact undoCommandUnder_acid observers first
      have hrest := acidSubItems_later rest (List.cons_ne_nil _ _) hpassed
      have hpassing : (subItem observers true first).doCommand.Passing := by
        change (doCommandUnder observers first true).Passing
        rw [hfirst]
        exact passing_acidLeaves observers (leaves first)
      change doAcidSubItems observers (subItem observers true first ::
        subItems observers true rest) = _
      rw [leaves, acidLeaves_append observers (leaves_ne_nil first), ← hfirst,
        doAcidSubItems, acidSubItems, guarded_of_passing observers _ _ hpassing, hrest]
      rfl

theorem acidSubItems_later (commands : List (GenericCommand W S))
    {passed : List (SubItem W S)} (hne : passed ≠ [])
    (hpassed : ∀ item ∈ passed, item.undoCommand = .returns false) :
    acidSubItems observers SubItem.doCommand SubItem.undoCommand SubItem.info
        passed (subItems observers true commands) =
      laterLeaves observers (leavesOfAll commands) := by
  match commands with
  | [] => rfl
  | command :: rest =>
      have hcommand := doCommandUnder_acid command
      have hmore : ∀ item ∈ subItem observers true command :: passed,
          item.undoCommand = .returns false := by
        rw [List.forall_mem_cons]
        exact ⟨undoCommandUnder_acid observers command, hpassed⟩
      have hrest := acidSubItems_later rest (List.cons_ne_nil _ _) hmore
      have hpassing : (subItem observers true command).doCommand.Passing := by
        change (doCommandUnder observers command true).Passing
        rw [hcommand]
        exact passing_acidLeaves observers (leaves command)
      obtain ⟨last, earlier, rfl⟩ := List.exists_cons_of_ne_nil hne
      have hroll := @rollBack_eq _ _ observers last earlier (hpassed last List.mem_cons_self)
      rw [subItems, leavesOfAll, laterLeaves_append,
        laterLeaves_eq observers (leaves_ne_nil command), ← hcommand, acidSubItems,
        guarded_of_passing observers _ _ hpassing, hrest, hroll, Call.followedBy_assoc]
      change (doCommandUnder observers command true).followedBy _ = _
      congr 1
      funext success
      cases success with
      | true => rfl
      | false => rfl

end

/-! ## Atomicity -/

/-- `Undo` succeeds and takes `Do` back, and a `Do` that throws has no
effect. -/
structure Leaf.Lawful (leaf : Leaf W S) : Prop where
  undo_succeeds : ∀ running, ∃ undone, leaf.undoIt running = (undone, .ok ())
  undo_inverts : ∀ running done, leaf.doIt running = (done, .ok ()) →
    ∀ world undone, leaf.undoIt ⟨world, done.state⟩ = (undone, .ok ()) →
      undone.state = running.state
  no_effect : ∀ running after thrown,
    leaf.doIt running = (after, .error thrown) → after.state = running.state

/-- The leaf is done, at the first call or at the retry that the handler of a
known error asks for. -/
def Leaf.Done (leaf : Leaf W S) (running done : Running W S) : Prop :=
  leaf.doIt running = (done, .ok ()) ∨
    ∃ after errorId handled, leaf.doIt running = (after, .error (.known errorId)) ∧
      handleError observers leaf.info errorId after = (handled, .retryCommand) ∧
      leaf.doIt handled = (done, .ok ())

/-- The leaf fails with a known error, at the retry as well if there is one. -/
def Leaf.Fails (leaf : Leaf W S) (running : Running W S) : Prop :=
  ∃ after errorId handled action, leaf.doIt running = (after, .error (.known errorId)) ∧
    handleError observers leaf.info errorId after = (handled, action) ∧
    (action = .retryCommand → ∃ again errorId, leaf.doIt handled = (again, .error (.known errorId)))

/-- All leaves are done one after the other. -/
def DoneInOrder : List (Leaf W S) → Running W S → Running W S → Prop
  | [], running, done => done = running
  | leaf :: rest, running, done => ∃ middle,
      leaf.Done observers running middle ∧ DoneInOrder rest middle done

/-- The command returns true with all leaves done, or false with the state as
it was. -/
def Atomic (command : GenericCommand W S) (running : Running W S) : Prop :=
  (∃ after done, doCommand observers command running = (after, .ok true) ∧
      DoneInOrder observers (leaves command) running done ∧
      after.state = done.state) ∨
    ∃ after, doCommand observers command running = (after, .ok false) ∧ after.state = running.state

theorem handleError_state (info : CommandInfo) (errorId : UInt32) (running : Running W S) :
    (handleError observers info errorId running).1.state = running.state := by
  rw [handleError]
  split
  · rfl
  · rfl

section Attempts

variable {info : CommandInfo} {doIt : Call W S Unit} {retry : Call W S Bool}
  {running after : Running W S}

theorem known_of_attempt (hfalse : attempt observers info doIt retry running = (after, .ok false)) :
    ∃ thrownAt errorId, doIt running = (thrownAt, .error (.known errorId)) := by
  rcases hdo : doIt running with ⟨reached, result⟩
  cases result with
  | ok done =>
      rw [attempt_ok observers hdo] at hfalse
      cases hfalse
  | error exception =>
      cases exception with
      | known errorId => exact ⟨reached, errorId, rfl⟩
      | _ =>
          simp only [attempt, hdo] at hfalse
          cases hfalse

end Attempts

section Leaves

variable {leaf : Leaf W S} {running done : Running W S}

theorem doDo_of_done (hdone : leaf.Done observers running done) :
    doDo observers leaf.info leaf.doIt false running = (done, .ok true) := by
  rcases hdone with hfirst | ⟨after, errorId, handled, hfirst, hretry, hagain⟩
  · exact attempt_ok observers hfirst
  · rw [doDo, attempt_known observers hfirst, hretry]
    exact attempt_ok observers hagain

theorem doDo_of_fails (hlawful : leaf.Lawful) (hfails : leaf.Fails observers running) :
    ∃ after, doDo observers leaf.info leaf.doIt false running =
        (after, .ok false) ∧ after.state = running.state := by
  obtain ⟨after, errorId, handled, action, hfirst, hhandled, hretry⟩ := hfails
  have hstate := handleError_state observers leaf.info errorId after
  rw [hlawful.no_effect _ _ _ hfirst, hhandled] at hstate
  rw [doDo, attempt_known observers hfirst, hhandled]
  by_cases haction : action = .retryCommand
  · obtain ⟨again, errorId, hagain⟩ := hretry haction
    have hagainState := handleError_state observers leaf.info errorId again
    rw [hlawful.no_effect _ _ _ hagain, hstate] at hagainState
    refine ⟨(handleError observers leaf.info errorId again).1, ?_, hagainState⟩
    rw [if_pos haction, if_neg Bool.false_ne_true, attempt_known observers hagain]
    split
    · rfl
    · rfl
  · exact ⟨handled, if_neg haction, hstate⟩

theorem fails_of_doDo (hfalse : doDo observers leaf.info leaf.doIt false running =
      (done, .ok false)) : leaf.Fails observers running := by
  obtain ⟨after, errorId, hfirst⟩ := known_of_attempt observers hfalse
  refine ⟨after, errorId, (handleError observers leaf.info errorId after).1,
    (handleError observers leaf.info errorId after).2, hfirst, rfl,
    fun hretry => ?_⟩
  rw [doDo, attempt_known observers hfirst, if_pos hretry, if_neg Bool.false_ne_true] at hfalse
  exact known_of_attempt observers hfalse

theorem laterLeaves_of_done {leafs : List (Leaf W S)}
    (hdone : DoneInOrder observers leafs running done) :
    laterLeaves observers leafs running = (done, .ok true) := by
  induction leafs generalizing running with
  | nil =>
      cases hdone
      rfl
  | cons leaf rest ih =>
      obtain ⟨middle, hleaf, hrest⟩ := hdone
      simp only [laterLeaves, Call.followedBy, doDo_of_done observers hleaf, if_true]
      exact ih hrest

theorem acidLeaves_of_done {leafs : List (Leaf W S)}
    (hdone : DoneInOrder observers leafs running done) :
    acidLeaves observers leafs running = (done, .ok true) := by
  cases leafs with
  | nil =>
      cases hdone
      rfl
  | cons leaf rest =>
      obtain ⟨middle, hleaf, hrest⟩ := hdone
      simp only [acidLeaves, Call.followedBy, doDo_of_done observers hleaf, if_true]
      exact laterLeaves_of_done observers hrest

theorem laterLeaves_ne_false (leafs : List (Leaf W S)) :
    laterLeaves observers leafs running ≠ (done, .ok false) := by
  induction leafs generalizing running with
  | nil =>
      rintro ⟨⟩
  | cons leaf rest ih =>
      intro hfalse
      rw [laterLeaves, Call.followedBy] at hfalse
      split at hfalse
      · rename_i success _
        cases success with
        | true => exact ih hfalse
        | false => cases hfalse
      · cases hfalse

/-- Only the first leaf can make the leaves return false. -/
theorem fails_of_acidLeaves {rest : List (Leaf W S)}
    (hfalse : acidLeaves observers (leaf :: rest) running =
      (done, .ok false)) : leaf.Fails observers running := by
  rw [acidLeaves, Call.followedBy] at hfalse
  split at hfalse
  · rename_i success hleaf
    cases success with
    | true => exact absurd hfalse (laterLeaves_ne_false observers rest)
    | false => exact fails_of_doDo observers hleaf
  · cases hfalse

end Leaves

theorem doCommand_acid {command : GenericCommand W S}
    (hacid : command.info.subCommandsAreAcid = true) :
    doCommand observers command = notified observers command.info
      (acidLeaves observers (leaves command)) := by
  rw [← doCommandUnder_acid, doCommand]
  congr 1
  cases command with
  | make info doIt undoIt subCommands =>
      have hinfo : info.subCommandsAreAcid = true := hacid
      simp only [doCommandUnder, subItem, hinfo, Bool.or_true, doWith]

theorem notified_true {info : CommandInfo} {call : Call W S Bool}
    {running after : Running W S} (hcall : call running = (after, .ok true)) :
    notified observers info call running =
      (⟨observers.commandListeners info after.world, after.state⟩, .ok true) := by
  simp only [notified, Call.followedBy, hcall, if_true, notifyCommandFinished, Call.returns]

theorem notified_false_iff {info : CommandInfo} {call : Call W S Bool}
    {running after : Running W S} :
    notified observers info call running = (after, .ok false) ↔
      call running = (after, .ok false) := by
  rw [notified, Call.followedBy]
  rcases call running with ⟨middle, thrown | success⟩
  · exact Iff.rfl
  · cases success with
    | false => exact Iff.rfl
    | true =>
        constructor
        · rintro ⟨⟩
        · rintro ⟨⟩

end Acid

/-- An ACID command with lawful leaves is atomic if and only if all its leaves
are done, or the first of them fails with a known error. -/
theorem atomic_iff {observers : Observers W} {command : GenericCommand W S}
    (hacid : command.info.subCommandsAreAcid = true)
    (hlawful : ∀ leaf ∈ leaves command, leaf.Lawful) (running : Running W S) :
    Atomic observers command running ↔
      (∃ done, DoneInOrder observers (leaves command) running done) ∨
        ∃ leaf ∈ (leaves command).head?, leaf.Fails observers running := by
  obtain ⟨first, rest, hleaves⟩ := List.exists_cons_of_ne_nil (leaves_ne_nil command)
  rw [Atomic, doCommand_acid observers hacid]
  constructor
  · rintro (⟨after, done, -, hdone, -⟩ | ⟨after, hfalse, -⟩)
    · exact .inl ⟨done, hdone⟩
    · right
      rw [notified_false_iff, hleaves] at hfalse
      rw [hleaves]
      exact ⟨first, rfl, fails_of_acidLeaves observers hfalse⟩
  · rintro (⟨done, hdone⟩ | ⟨leaf, hleaf, hfails⟩)
    · left
      have hcall := acidLeaves_of_done observers hdone
      exact ⟨_, done, notified_true observers hcall, hdone, rfl⟩
    · right
      rw [hleaves, List.head?_cons, Option.mem_some_iff] at hleaf
      subst hleaf
      have hlaw := hlawful first (by rw [hleaves]; exact List.mem_cons_self)
      obtain ⟨after, hfalse, hstate⟩ := doDo_of_fails observers hlaw hfails
      refine ⟨after, ?_, hstate⟩
      rw [notified_false_iff, hleaves]
      simp only [acidLeaves, Call.followedBy, hfalse]
      rfl

/-! ### Commands on a text -/

def noObservers : Observers Unit := ⟨fun _ => none, fun _ world => world⟩

/-- A command like `ExampleCommand`, which adds to a text. -/
def addition (added : List Char) : GenericCommand Unit (List Char) :=
  .make ⟨4, 0, true, false⟩ (fun running => (⟨(), running.state ++ added⟩, .ok ()))
    (fun running => (⟨(), running.state.take (running.state.length - added.length)⟩, .ok ())) []

/-- A command that always throws a known error. -/
def failing : GenericCommand Unit (List Char) :=
  .make ⟨5, 0, true, false⟩ (.throws (.known 1)) (.returns ()) []

def acidOf (subCommands : List (GenericCommand Unit (List Char))) :
    GenericCommand Unit (List Char) :=
  .make ⟨3, 0, true, true⟩ (.returns ()) (.returns ()) subCommands

theorem lawful_addition (added : List Char) : ∀ leaf ∈ leaves (addition added), leaf.Lawful := by
  rw [addition, leaves, List.forall_mem_singleton]
  refine ⟨fun running => ⟨_, rfl⟩, ?_, ?_⟩
  · rintro running done ⟨⟩ world undone ⟨⟩
    simp
  · rintro running after thrown ⟨⟩

theorem lawful_failing : ∀ leaf ∈ leaves failing, leaf.Lawful := by
  rw [failing, leaves, List.forall_mem_singleton]
  refine ⟨fun running => ⟨_, rfl⟩, ?_, ?_⟩
  · rintro running done ⟨⟩
  · rintro running after thrown ⟨⟩
    rfl

/-- Two additions are both made. -/
theorem atomic_additions :
    (acidOf [addition ['a'], addition ['b']]).info.subCommandsAreAcid = true ∧
      Atomic noObservers (acidOf [addition ['a'], addition ['b']]) ⟨(), []⟩ := by
  have hlawful : ∀ leaf ∈ leaves (acidOf [addition ['a'], addition ['b']]),
      leaf.Lawful := by
    intro leaf hleaf
    rcases List.mem_append.mp hleaf with hfirst | hsecond
    · exact lawful_addition ['a'] leaf hfirst
    · rw [leavesOfAll, leavesOfAll, List.append_nil] at hsecond
      exact lawful_addition ['b'] leaf hsecond
  refine ⟨rfl, (atomic_iff rfl hlawful ⟨(), []⟩).mpr (.inl ?_)⟩
  exact ⟨⟨(), ['a', 'b']⟩, ⟨(), ['a']⟩, .inl rfl, ⟨(), ['a', 'b']⟩, .inl rfl,
    rfl⟩

/-- An addition and a failure: the rollback fails, and the addition stays. -/
theorem addition_not_rolled_back :
    (∀ leaf ∈ leaves (acidOf [addition ['a'], failing]), leaf.Lawful) ∧
      doCommand noObservers (acidOf [addition ['a'], failing]) ⟨(), []⟩ =
        (⟨(), ['a']⟩, .error .rollbackFailure) ∧
      ¬ Atomic noObservers (acidOf [addition ['a'], failing]) ⟨(), []⟩ := by
  have hrun : doCommand noObservers (acidOf [addition ['a'], failing])
      ⟨(), []⟩ = (⟨(), ['a']⟩, .error .rollbackFailure) := rfl
  refine ⟨?_, hrun, ?_⟩
  · intro leaf hleaf
    rcases List.mem_append.mp hleaf with hfirst | hsecond
    · exact lawful_addition ['a'] leaf hfirst
    · rw [leavesOfAll, leavesOfAll, List.append_nil] at hsecond
      exact lawful_failing leaf hsecond
  · rintro (⟨after, done, htrue, -⟩ | ⟨after, hfalse, -⟩)
    · cases hrun.symm.trans htrue
    · cases hrun.symm.trans hfalse

end Chkdraft.Commands
