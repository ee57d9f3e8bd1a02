import Mathlib.Data.Nat.Notation

/-!
# Commands

A command is a tree; what is done or undone are its leaves.  Doing and undoing
change the state the commands are about.  Whatever else they depend on, such as
the answer of a user to an error, is the world, about which nothing is assumed.
-/

namespace Chkdraft.Commands

/-- What a call may throw.  A rollback failure is thrown as a pointer, which no
handler here catches, and neither does any catch what is foreign to
`std::exception`. -/
inductive Thrown where
  | known (errorId : UInt32)
  | unknown
  | rollbackFailure
  | foreign
deriving DecidableEq, Repr

/-- The world and the state while a command runs. -/
structure Running (W S : Type) where
  world : W
  state : S

/-- A call: what runs behind it, and what it returns or throws. -/
abbrev Call (W S α : Type) : Type := Running W S → Running W S × Except Thrown α

namespace Call

variable {W S α β : Type}

def returns (value : α) : Call W S α := fun running => (running, .ok value)

def throws (thrown : Thrown) : Call W S α := fun running => (running, .error thrown)

/-- One call after the other, unless the first throws. -/
def followedBy (call : Call W S α) (next : α → Call W S β) : Call W S β := fun running =>
    match call running with
    | (after, .ok value) => next value after
    | (after, .error thrown) => (after, .error thrown)

end Call

structure CommandInfo where
  commandClassId : UInt32
  undoRedoTypeId : UInt32
  isSynchronous : Bool
  subCommandsAreAcid : Bool
deriving DecidableEq, Repr

/-- A command with its `Do` and `Undo`, which are called if it has no
subcommands. -/
inductive GenericCommand (W S : Type) where
  | make (info : CommandInfo) (doIt undoIt : Call W S Unit)
      (subCommands : List (GenericCommand W S))

def GenericCommand.info {W S : Type} : GenericCommand W S → CommandInfo
  | make info _ _ _ => info

inductive ErrorAction where
  | discardCommand | retryCommand | retrySubCommand | continueCommand
deriving DecidableEq, Repr

/-- The registered error handlers and listeners. -/
structure Observers (W : Type) where
  errorHandlers : UInt32 → Option (CommandInfo → W → W × ErrorAction)
  commandListeners : CommandInfo → W → W

section Commands

variable {W S : Type} (observers : Observers W)

/-- An error without a handler discards the command. -/
def handleError (info : CommandInfo) (errorId : UInt32)
    (running : Running W S) : Running W S × ErrorAction :=
  match observers.errorHandlers errorId with
  | some handler =>
      match handler info running.world with
      | (world, action) => (⟨world, running.state⟩, action)
  | none => (running, .discardCommand)

def notifyCommandFinished (info : CommandInfo) : Call W S Unit := fun running =>
    (⟨observers.commandListeners info running.world, running.state⟩, .ok ())

/-- `DoDo` up to the retry: an unknown exception is logged, and the command
counts as done. -/
def attempt (info : CommandInfo) (doIt : Call W S Unit) (retry : Call W S Bool) : Call W S Bool :=
  fun running =>
    match doIt running with
    | (after, .ok ()) => (after, .ok true)
    | (after, .error (.known errorId)) =>
        match handleError observers info errorId after with
        | (handled, .retryCommand) => retry handled
        | (handled, _) => (handled, .ok false)
    | (after, .error .unknown) => (after, .ok true)
    | (after, .error thrown) => (after, .error thrown)

def doDo (info : CommandInfo) (doIt : Call W S Unit) (retrying : Bool) : Call W S Bool :=
  attempt observers info doIt (if retrying then .returns false
      else attempt observers info doIt (.returns false))

/-- The calls of `DoCommand` and `UndoCommand` on a subcommand. -/
structure SubItem (W S : Type) where
  info : CommandInfo
  doCommand : Call W S Bool
  undoCommand : Call W S Bool

/-- The calls on the subcommands one after the other, whatever they return. -/
def forEach (call : SubItem W S → Call W S Bool) : List (SubItem W S) → Call W S Unit
  | [] => .returns ()
  | item :: rest => (call item).followedBy fun _ => forEach call rest

def doSubItems (items : List (SubItem W S)) : Call W S Unit := forEach SubItem.doCommand items

/-- The subcommands are undone in the order in which they were done. -/
def undoSubItems (items : List (SubItem W S)) : Call W S Unit := forEach SubItem.undoCommand items

/-- A call whose exceptions mean that it failed.  After a known error it may be
retried once; an error of the retry is reported for `retryInfo`. -/
def guarded (info retryInfo : CommandInfo) (call retry : Call W S Bool) : Call W S Bool :=
  fun running =>
    match call running with
    | (after, .error (.known errorId)) =>
        match handleError observers info errorId after with
        | (handled, .retryCommand) =>
            match retry handled with
            | (retried, .error (.known errorId)) =>
                ((handleError observers retryInfo errorId retried).1, .ok false)
            | (retried, .error .unknown) => (retried, .ok false)
            | result => result
        | (handled, _) => (handled, .ok false)
    | (after, .error .unknown) => (after, .ok false)
    | result => result

/-- Take the subcommands passed back, from the last one on.  A retry calls
`forward` once more, and its result is not looked at. -/
def rollBack (forward backward : SubItem W S → Call W S Bool) : List (SubItem W S) → Call W S Bool
  | [] => .returns false
  | item :: earlier =>
      (guarded observers item.info item.info (backward item)
        ((forward item).followedBy fun _ => .returns false)).followedBy fun succeeded =>
            if succeeded then rollBack forward backward earlier
            else .throws .rollbackFailure

/-- All or nothing: the first subcommand that fails takes those before it
back. -/
def acidSubItems (forward backward : SubItem W S → Call W S Bool)
    (retryInfo : SubItem W S → CommandInfo) (passed : List (SubItem W S)) :
    List (SubItem W S) → Call W S Bool
  | [] => .returns true
  | item :: rest =>
      (guarded observers item.info (retryInfo item) (forward item)
        (forward item)).followedBy fun success =>
          if success then
            acidSubItems forward backward retryInfo (item :: passed) rest
          else
            rollBack observers forward backward passed

def doAcidSubItems (items : List (SubItem W S)) : Call W S Bool :=
  acidSubItems observers SubItem.doCommand SubItem.undoCommand SubItem.info [] items

/-- From the last subcommand to the first; the error of a retry is reported for
the command itself. -/
def undoAcidSubItems (info : CommandInfo) (items : List (SubItem W S)) : Call W S Bool :=
  acidSubItems observers SubItem.undoCommand SubItem.doCommand (fun _ => info) [] items.reverse

/-- `DoCommand`, with the calls on the subcommands. -/
def doWith (info : CommandInfo) (doIt : Call W S Unit) (hasAcidParent : Bool)
    (items : List (SubItem W S)) : Call W S Bool :=
  if hasAcidParent || info.subCommandsAreAcid then
    if 0 < items.length then
      doAcidSubItems observers items
    else
      doDo observers info doIt false
  else
    (if 0 < items.length then
      doSubItems items
    else
      (doDo observers info doIt false).followedBy fun _ =>
        .returns ()).followedBy fun _ => .returns true

/-- `UndoCommand`, with the calls on the subcommands.  A command without
subcommands is not undone if it is ACID or part of an ACID command. -/
def undoWith (info : CommandInfo) (undoIt : Call W S Unit)
    (hasAcidParent : Bool) (items : List (SubItem W S)) : Call W S Bool :=
  if hasAcidParent || info.subCommandsAreAcid then
    if 0 < items.length then
      undoAcidSubItems observers info items
    else
      .returns false
  else
    (if 0 < items.length then
      undoSubItems items
    else
      undoIt).followedBy fun _ => .returns true

mutual

/-- The calls on a command as a subcommand. -/
def subItem (hasAcidParent : Bool) : GenericCommand W S → SubItem W S
  | .make info doIt undoIt subCommands =>
      { info := info
        doCommand := doWith observers info doIt hasAcidParent
          (subItems (hasAcidParent || info.subCommandsAreAcid) subCommands)
        undoCommand := undoWith observers info undoIt hasAcidParent
          (subItems (hasAcidParent || info.subCommandsAreAcid) subCommands) }

def subItems (hasAcidParent : Bool) : List (GenericCommand W S) → List (SubItem W S)
  | [] => []
  | command :: rest =>
      subItem hasAcidParent command :: subItems hasAcidParent rest

end

def doCommandUnder (command : GenericCommand W S) (hasAcidParent : Bool) : Call W S Bool :=
  (subItem observers hasAcidParent command).doCommand

def undoCommandUnder (command : GenericCommand W S) (hasAcidParent : Bool) : Call W S Bool :=
  (subItem observers hasAcidParent command).undoCommand

/-- A command that was done or undone is reported to its listeners. -/
def notified (info : CommandInfo) (call : Call W S Bool) : Call W S Bool :=
  call.followedBy fun success =>
    if success then
      (notifyCommandFinished observers info).followedBy fun _ => .returns true
    else
      .returns false

def doCommand (command : GenericCommand W S) : Call W S Bool :=
  notified observers command.info (doCommandUnder observers command false)

def undoCommand (command : GenericCommand W S) : Call W S Bool :=
  notified observers command.info (undoCommandUnder observers command false)

end Commands

end Chkdraft.Commands
