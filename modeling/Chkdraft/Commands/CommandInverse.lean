import Chkdraft.Commands.AcidCommands

/-!
# Undoing what was done

A plain command undoes its leaves in the order in which it did them, and passes
over its ACID parts; an ACID command undoes nothing and says so.
-/

namespace Chkdraft.Commands

variable {W S : Type}

mutual

/-- The leaves outside the ACID parts of a command. -/
def plainLeaves : GenericCommand W S → List (Leaf W S)
  | .make info doIt undoIt [] =>
      if info.subCommandsAreAcid then [] else [⟨info, doIt, undoIt⟩]
  | .make info _ _ (command :: rest) =>
      if info.subCommandsAreAcid then []
      else plainLeaves command ++ plainLeavesOfAll rest

def plainLeavesOfAll : List (GenericCommand W S) → List (Leaf W S)
  | [] => []
  | command :: rest => plainLeaves command ++ plainLeavesOfAll rest

end

mutual

theorem plainLeaves_sublist (command : GenericCommand W S) :
    (plainLeaves command).Sublist (leaves command) := by
  match command with
  | .make info doIt undoIt [] =>
      rw [plainLeaves, leaves]
      split
      · exact List.nil_sublist _
      · exact List.Sublist.refl _
  | .make info doIt undoIt (first :: rest) =>
      rw [plainLeaves, leaves]
      split
      · exact List.nil_sublist _
      · exact (plainLeaves_sublist first).append (plainLeavesOfAll_sublist rest)

theorem plainLeavesOfAll_sublist (commands : List (GenericCommand W S)) :
    (plainLeavesOfAll commands).Sublist (leavesOfAll commands) := by
  match commands with
  | [] => exact List.Sublist.refl _
  | command :: rest =>
      rw [plainLeavesOfAll, leavesOfAll]
      exact (plainLeaves_sublist command).append (plainLeavesOfAll_sublist rest)

end

/-- Calls one after the other, all of which return. -/
def AllReturn : List (Call W S Unit) → Running W S → Running W S → Prop
  | [], running, after => after = running
  | call :: rest, running, after => ∃ middle,
      call running = (middle, .ok ()) ∧ AllReturn rest middle after

/-- All leaves are undone, in the order in which they were done. -/
def UndoAll (leafs : List (Leaf W S)) : Running W S → Running W S → Prop :=
  AllReturn (leafs.map Leaf.undoIt)

/-- What a call does to the state, and what it returns or throws, depends on the
state only. -/
def Call.OfState {α : Type} (call : Call W S α) : Prop :=
  ∀ running other, other.state = running.state →
    (call other).1.state = (call running).1.state ∧ (call other).2 = (call running).2

/-- The answers of the error handlers depend on the command and the error
only. -/
def Observers.Steady (observers : Observers W) : Prop :=
  ∀ errorId handler, observers.errorHandlers errorId = some handler →
    ∀ info world other, (handler info other).2 = (handler info world).2

section AllReturn

variable {calls others : List (Call W S Unit)} {running after : Running W S}

theorem allReturn_append : AllReturn (calls ++ others) running after ↔
      ∃ middle, AllReturn calls running middle ∧ AllReturn others middle after := by
  induction calls generalizing running with
  | nil => simp [AllReturn]
  | cons call rest ih =>
      simp only [List.cons_append, AllReturn, ih]
      constructor
      · rintro ⟨next, hcall, middle, hrest, hothers⟩
        exact ⟨middle, ⟨next, hcall, hrest⟩, hothers⟩
      · rintro ⟨middle, ⟨next, hcall, hrest⟩, hothers⟩
        exact ⟨next, hcall, middle, hrest, hothers⟩

theorem AllReturn.unique {other : Running W S} (hfirst : AllReturn calls running after)
    (hsecond : AllReturn calls running other) : other = after := by
  induction calls generalizing running with
  | nil =>
      cases hfirst
      exact hsecond
  | cons call rest ih =>
      obtain ⟨middle, hcall, hrest⟩ := hfirst
      obtain ⟨next, hnext, hother⟩ := hsecond
      cases hcall.symm.trans hnext
      exact ih hrest hother

end AllReturn

section Commands

variable (observers : Observers W)

theorem undoAll_append {first second : List (Leaf W S)}
    {running undone : Running W S} :
    UndoAll (first ++ second) running undone ↔
      ∃ middle, UndoAll first running middle ∧ UndoAll second middle undone := by
  rw [UndoAll, List.map_append]
  exact allReturn_append

/-- An ACID command behaves the same below an ACID command. -/
theorem subItem_acid {command : GenericCommand W S}
    (hacid : command.info.subCommandsAreAcid = true) (hasAcidParent : Bool) :
    subItem observers hasAcidParent command = subItem observers true command := by
  cases command with
  | make info doIt undoIt subCommands =>
      have hinfo : info.subCommandsAreAcid = true := hacid
      simp only [subItem, hinfo, Bool.or_true, doWith, undoWith]

section Plain

variable {info : CommandInfo} (hplain : info.subCommandsAreAcid = false)
include hplain

theorem doWith_leaf (doIt : Call W S Unit) : doWith observers info doIt false [] =
      (doDo observers info doIt false).followedBy fun _ => .returns true := by
  rw [doWith, hplain, if_neg (by decide)]
  exact Call.followedBy_assoc _ _ _

theorem doWith_items (doIt : Call W S Unit) {items : List (SubItem W S)} (hne : items ≠ []) :
    doWith observers info doIt false items =
      (doSubItems items).followedBy fun _ => .returns true := by
  rw [doWith, hplain, if_neg (by decide), if_pos (List.length_pos_iff.mpr hne)]

theorem undoWith_leaf (undoIt : Call W S Unit) : undoWith observers info undoIt false [] =
      undoIt.followedBy fun _ => .returns true := by
  rw [undoWith, hplain, if_neg (by decide)]
  rfl

theorem undoWith_items (undoIt : Call W S Unit) {items : List (SubItem W S)} (hne : items ≠ []) :
    undoWith observers info undoIt false items =
      (undoSubItems items).followedBy fun _ => .returns true := by
  rw [undoWith, hplain, if_neg (by decide), if_pos (List.length_pos_iff.mpr hne)]

end Plain

theorem handleError_ofState (hsteady : observers.Steady) (info : CommandInfo)
    (errorId : UInt32) {running other : Running W S}
    (hsame : other.state = running.state) :
    (handleError observers info errorId other).1.state =
        (handleError observers info errorId running).1.state ∧
      (handleError observers info errorId other).2 =
        (handleError observers info errorId running).2 := by
  refine ⟨?_, ?_⟩
  · rw [handleError_state, handleError_state, hsame]
  · rw [handleError, handleError]
    cases hhandler : observers.errorHandlers errorId with
    | none => rfl
    | some handler =>
        exact hsteady errorId handler hhandler info running.world other.world

namespace Call.OfState

variable {α β : Type}

theorem returns (value : α) : (Call.returns value : Call W S α).OfState :=
  fun _ _ hsame => ⟨hsame, rfl⟩

theorem throws (thrown : Thrown) : (Call.throws thrown : Call W S α).OfState :=
  fun _ _ hsame => ⟨hsame, rfl⟩

theorem followedBy {call : Call W S α} {next : α → Call W S β}
    (hcall : call.OfState) (hnext : ∀ value, (next value).OfState) :
    (call.followedBy next).OfState := by
  intro running other hsame
  obtain ⟨hstate, hresult⟩ := hcall running other hsame
  rw [Call.followedBy, Call.followedBy]
  rcases hrun : call running with ⟨after, thrown | value⟩ <;>
    rcases hagain : call other with ⟨again, result⟩ <;>
    rw [hrun, hagain] at hstate hresult <;> cases hresult
  · exact ⟨hstate, rfl⟩
  · exact hnext value after again hstate

end Call.OfState

section Steady

variable {observers} (hsteady : observers.Steady)
include hsteady

theorem ofState_attempt (info : CommandInfo) {doIt : Call W S Unit}
    {retry : Call W S Bool} (hdo : doIt.OfState) (hretry : retry.OfState) :
    (attempt observers info doIt retry).OfState := by
  intro running other hsame
  obtain ⟨hstate, hresult⟩ := hdo running other hsame
  rcases hrun : doIt running with ⟨after, result⟩
  rcases hagain : doIt other with ⟨again, result'⟩
  rw [hrun, hagain] at hstate hresult
  cases hresult
  rcases result with (errorId | - | - | -) | done
  · obtain ⟨hhandled, haction⟩ := handleError_ofState observers hsteady info errorId hstate
    rw [attempt_known observers hrun, attempt_known observers hagain, haction]
    split
    · exact hretry _ _ hhandled
    · exact ⟨hhandled, rfl⟩
  all_goals
    simp only [attempt, hrun, hagain, and_true]
    exact hstate

theorem ofState_doDo {leaf : Leaf W S} (hdo : leaf.doIt.OfState) :
    (doDo observers leaf.info leaf.doIt false).OfState :=
  ofState_attempt hsteady leaf.info hdo (ofState_attempt hsteady leaf.info hdo (.returns false))

theorem ofState_laterLeaves {leafs : List (Leaf W S)}
    (hleaves : ∀ leaf ∈ leafs, leaf.doIt.OfState) :
    (laterLeaves observers leafs).OfState := by
  induction leafs with
  | nil => exact .returns true
  | cons leaf rest ih =>
      rw [List.forall_mem_cons] at hleaves
      refine (ofState_doDo hsteady hleaves.1).followedBy fun success => ?_
      cases success with
      | true => exact ih hleaves.2
      | false => exact .throws .rollbackFailure

theorem ofState_acidLeaves {leafs : List (Leaf W S)} (hleaves : ∀ leaf ∈ leafs, leaf.doIt.OfState) :
    (acidLeaves observers leafs).OfState := by
  cases leafs with
  | nil => exact .returns true
  | cons leaf rest =>
      rw [List.forall_mem_cons] at hleaves
      refine (ofState_doDo hsteady hleaves.1).followedBy fun success => ?_
      cases success with
      | true => exact ofState_laterLeaves hsteady hleaves.2
      | false => exact .returns false

omit hsteady

mutual

theorem ofState_doCommandUnder (hsteady : observers.Steady) (command : GenericCommand W S)
    (hleaves : ∀ leaf ∈ leaves command, leaf.doIt.OfState) :
    (doCommandUnder observers command false).OfState := by
  cases hacid : command.info.subCommandsAreAcid with
  | true =>
      rw [doCommandUnder, subItem_acid observers hacid]
      change (doCommandUnder observers command true).OfState
      rw [doCommandUnder_acid]
      exact ofState_acidLeaves hsteady hleaves
  | false =>
      match command with
      | .make info doIt undoIt [] =>
          have hinfo : info.subCommandsAreAcid = false := hacid
          rw [leaves, List.forall_mem_singleton] at hleaves
          change (doWith observers info doIt false []).OfState
          rw [doWith_leaf observers hinfo]
          exact (ofState_doDo hsteady hleaves).followedBy fun _ =>
            .returns true
      | .make info doIt undoIt (first :: rest) =>
          have hinfo : info.subCommandsAreAcid = false := hacid
          rw [leaves] at hleaves
          have hall := ofState_forEach hsteady (first :: rest) hleaves
          rw [doCommandUnder, subItem, hinfo]
          change (doWith observers info doIt false
            (subItems observers false (first :: rest))).OfState
          rw [doWith_items observers hinfo doIt
            (show subItems observers false (first :: rest) ≠ [] from
              List.cons_ne_nil _ _)]
          exact hall.followedBy fun _ => .returns true

theorem ofState_forEach (hsteady : observers.Steady) (commands : List (GenericCommand W S))
    (hleaves : ∀ leaf ∈ leavesOfAll commands, leaf.doIt.OfState) :
    (doSubItems (subItems observers false commands)).OfState := by
  match commands with
  | [] => exact .returns ()
  | command :: rest =>
      rw [leavesOfAll, List.forall_mem_append] at hleaves
      exact (ofState_doCommandUnder hsteady command
        hleaves.1).followedBy fun _ => ofState_forEach hsteady rest hleaves.2

end

end Steady

mutual

theorem undoCommandUnder_of_undoAll (command : GenericCommand W S)
    {running undone : Running W S}
    (hundo : UndoAll (plainLeaves command) running undone) :
    undoCommandUnder observers command false running =
      (undone, .ok (!command.info.subCommandsAreAcid)) := by
  cases hacid : command.info.subCommandsAreAcid with
  | true =>
      have hnone : plainLeaves command = [] := by
        match command with
        | .make info doIt undoIt [] =>
            rw [plainLeaves]
            exact if_pos hacid
        | .make info doIt undoIt (first :: rest) =>
            rw [plainLeaves]
            exact if_pos hacid
      rw [hnone] at hundo
      cases hundo
      rw [undoCommandUnder, subItem_acid observers hacid]
      change undoCommandUnder observers command true running = _
      rw [undoCommandUnder_acid]
      rfl
  | false =>
      match command with
      | .make info doIt undoIt [] =>
          have hinfo : info.subCommandsAreAcid = false := hacid
          rw [plainLeaves, hinfo, if_neg Bool.false_ne_true] at hundo
          obtain ⟨middle, hleaf, hundone⟩ := hundo
          cases hundone
          change undoWith observers info undoIt false [] running = _
          rw [undoWith_leaf observers hinfo, Call.followedBy_ok hleaf]
          rfl
      | .make info doIt undoIt (first :: rest) =>
          have hinfo : info.subCommandsAreAcid = false := hacid
          rw [plainLeaves, hinfo, if_neg Bool.false_ne_true] at hundo
          have hall := forEach_undoCommand (first :: rest) hundo
          rw [undoCommandUnder, subItem, hinfo]
          change undoWith observers info undoIt false
            (subItems observers false (first :: rest)) running = _
          rw [undoWith_items observers hinfo undoIt
            (show subItems observers false (first :: rest) ≠ [] from
              List.cons_ne_nil _ _), undoSubItems, Call.followedBy_ok hall]
          rfl

theorem forEach_undoCommand (commands : List (GenericCommand W S))
    {running undone : Running W S}
    (hundo : UndoAll (plainLeavesOfAll commands) running undone) :
    forEach SubItem.undoCommand (subItems observers false commands) running = (undone, .ok ()) := by
  match commands with
  | [] =>
      cases hundo
      rfl
  | command :: rest =>
      rw [plainLeavesOfAll, undoAll_append] at hundo
      obtain ⟨middle, hcommand, hrest⟩ := hundo
      have hfirst : (subItem observers false command).undoCommand running =
          (middle, .ok (!command.info.subCommandsAreAcid)) :=
        undoCommandUnder_of_undoAll command hcommand
      rw [subItems, forEach, Call.followedBy_ok hfirst]
      exact forEach_undoCommand rest hrest

end

end Commands

section Inverse

variable {observers : Observers W} {command : GenericCommand W S}

end Inverse

end Chkdraft.Commands
