import Chkdraft.Commands.GenericCommand
import Chkdraft.Core.Fault
import Mathlib.Logic.Function.Basic

/-!
# The command queue

Clients enqueue requests under the command lock, and one worker takes them from
the queue and executes them.  A request to undo or redo is one shared object, in
which each caller writes the type to be undone; the worker reads the type when
it executes the request.  Behind each request stands what its caller asked for,
which the worker does not see.

A client that waits looks at the counter first and falls asleep then, and both
it and the worker sleep on a lock.  Waiting with a lock that one's thread does
not own is undefined.
-/

namespace Chkdraft.Commands

variable {W S : Type}

/-- What is put on the queue. -/
inductive Entry (W S : Type) where
  | command (command : GenericCommand W S)
  | undo
  | redo
  | kill

def Entry.isSynchronous : Entry W S → Bool
  | .command single => single.info.isSynchronous
  | .undo => true
  | .redo => true
  | .kill => true

/-- An entry with the type its caller asked for, and whether the caller
waits. -/
structure Request (W S : Type) where
  entry : Entry W S
  undoRedoTypeId : UInt32
  waits : Bool

/-- A command that was done, with the type asked for. -/
structure DoneCommand (W S : Type) where
  command : GenericCommand W S
  undoRedoTypeId : UInt32

/-- What the worker did. -/
inductive Event (W S : Type) where
  | did (done : DoneCommand W S)
  | undid (done : DoneCommand W S)
  | redid (done : DoneCommand W S)

def noUndoRedoType : UInt32 := 4294967295

/-- Where the thread of a client stands in `wait`: it is going to evaluate the
predicate, has found it false, or is asleep. -/
inductive Caller where
  | free
  | looking
  | settling
  | blocked
deriving DecidableEq, Repr

/-- `asleep` is the worker inside `hasCommands.wait`, and `ownsLock` says that
its `hasCommandsLock` is locked.  Clients are threads, by number. -/
structure Commander (W S : Type) where
  todoBuffer : List (Request W S)
  undoBuffers : UInt32 → List (DoneCommand W S)
  redoBuffers : UInt32 → List (DoneCommand W S)
  numSynchronousCommands : UInt32
  undoTypeId : UInt32
  redoTypeId : UInt32
  executing : Option (Request W S)
  keepRunning : Bool
  hasCommandsToExecute : Bool
  asleep : Bool
  ownsLock : Bool
  callers : ℕ → Caller
  running : Running W S
  history : List (Event W S)

namespace Commander

def started (running : Running W S) : Commander W S where
  todoBuffer := []
  undoBuffers := fun _ => []
  redoBuffers := fun _ => []
  numSynchronousCommands := 0
  undoTypeId := noUndoRedoType
  redoTypeId := noUndoRedoType
  executing := none
  keepRunning := true
  hasCommandsToExecute := false
  asleep := false
  ownsLock := true
  callers := fun _ => .free
  running := running
  history := []

/-- The requests that are queued or executing. -/
def pending (commander : Commander W S) : List (Request W S) :=
  commander.executing.toList ++ commander.todoBuffer

end Commander

/-- The thread that made the commander, and owns its `synchronousLock`. -/
def maker : ℕ := 0

/-- The calls of a client. -/
inductive ClientCall (W S : Type) where
  | doOne (command : GenericCommand W S)
  | doEach (commands : List (GenericCommand W S))
  | doAcid (subCommands : List (GenericCommand W S)) (undoRedoTypeId : UInt32)
      (async : Bool)
  | undo (undoRedoTypeId : UInt32)
  | redo (undoRedoTypeId : UInt32)
  | finish

/-- The parent `DoAcid` makes.  It is given `async` where it takes
`isSynchronous`, and no type. -/
def acidParent (subCommands : List (GenericCommand W S)) (async : Bool) : GenericCommand W S :=
  .make ⟨3, noUndoRedoType, async, true⟩ (.returns ()) (.returns ()) subCommands

def commandRequest (command : GenericCommand W S) : Request W S :=
  ⟨.command command, command.info.undoRedoTypeId, command.info.isSynchronous⟩

namespace Commander

def push (commander : Commander W S) (counts : Bool) (request : Request W S) : Commander W S :=
  { commander with
    numSynchronousCommands :=
      if counts then commander.numSynchronousCommands + 1
      else commander.numSynchronousCommands
    todoBuffer := commander.todoBuffer ++ [request] }

def enqueue (commander : Commander W S) : ClientCall W S → Commander W S
  | .doOne command =>
      commander.push command.info.isSynchronous (commandRequest command)
  | .doEach commands => commands.foldl (fun commander command =>
      commander.push command.info.isSynchronous (commandRequest command)) commander
  | .doAcid subCommands undoRedoTypeId async =>
      commander.push (!async) ⟨.command (acidParent subCommands async), undoRedoTypeId, !async⟩
  | .undo undoRedoTypeId =>
      { commander with undoTypeId := undoRedoTypeId }.push (Entry.undo : Entry W S).isSynchronous
        ⟨.undo, undoRedoTypeId, true⟩
  | .redo undoRedoTypeId =>
      { commander with redoTypeId := undoRedoTypeId }.push (Entry.undo : Entry W S).isSynchronous
        ⟨.redo, undoRedoTypeId, true⟩
  | .finish => commander.push (Entry.kill : Entry W S).isSynchronous
      ⟨.kill, noUndoRedoType, true⟩

end Commander

/-- Whether a call goes on to look at the counter.  `Do` of a list, `Undo`,
`Redo` and `End` do so whatever they have put on the queue. -/
def ClientCall.looks : ClientCall W S → Bool
  | doOne command => command.info.isSynchronous
  | doAcid _ _ async => !async
  | _ => true

namespace Commander

/-- A call under the command lock.  A client that waits makes no call. -/
def call (commander : Commander W S) (client : ℕ) (call : ClientCall W S) : Commander W S :=
  if commander.callers client = .free then
    { commander.enqueue call with
      hasCommandsToExecute := true
      callers := Function.update commander.callers client (if call.looks then .looking else .free) }
  else
    commander

/-- `synchronousExecution.wait` up to the predicate.  To sleep, the thread has
to own `synchronousLock`. -/
def look (commander : Commander W S) (client : ℕ) : Except (Fault Thrown) (Commander W S) :=
  if commander.callers client = .looking then
    if commander.numSynchronousCommands = 0 then
      .ok { commander with
        callers := Function.update commander.callers client .free }
    else if client = maker then
      .ok { commander with
        callers := Function.update commander.callers client .settling }
    else
      .error (.hazard .undefinedBehavior)
  else
    .ok commander

def block (commander : Commander W S) (client : ℕ) : Commander W S :=
  if commander.callers client = .settling then
    { commander with
      callers := Function.update commander.callers client .blocked }
  else
    commander

def take (commander : Commander W S) : Commander W S :=
  match commander.todoBuffer with
  | [] => commander
  | request :: rest =>
      { commander with
        todoBuffer := rest
        executing := some request }

/-- The top of the loop of `Run`.  The worker goes to sleep if the queue is
empty, and unlocks `hasCommandsLock` when it wakes up.  It never locks it again,
so it does not own it when it goes to sleep a second time. -/
def dequeue (commander : Commander W S) : Except (Fault Thrown) (Commander W S) :=
  if commander.executing.isSome || !commander.keepRunning then
    .ok commander
  else if commander.asleep then
    .ok (if commander.hasCommandsToExecute then
      { commander with asleep := false, ownsLock := false }.take
    else
      commander)
  else if commander.todoBuffer = [] then
    if commander.ownsLock then
      .ok { commander with hasCommandsToExecute := false, asleep := true }
    else
      .error (.hazard .undefinedBehavior)
  else
    .ok commander.take

def clipRedos (commander : Commander W S) (undoRedoTypeId : UInt32) : Commander W S :=
  { commander with
    redoBuffers := Function.update commander.redoBuffers undoRedoTypeId [] }

def addUndo (commander : Commander W S) (undoRedoTypeId : UInt32)
    (done : DoneCommand W S) : Commander W S :=
  { commander with
    undoBuffers := Function.update commander.undoBuffers undoRedoTypeId
      (done :: commander.undoBuffers undoRedoTypeId) }

def addRedo (commander : Commander W S) (undoRedoTypeId : UInt32)
    (done : DoneCommand W S) : Commander W S :=
  { commander with
    redoBuffers := Function.update commander.redoBuffers undoRedoTypeId
      (done :: commander.redoBuffers undoRedoTypeId) }

/-- The state and the history behind a command. -/
def record (commander : Commander W S) (running : Running W S)
    (events : List (Event W S)) : Commander W S :=
  { commander with
    running := running
    history := commander.history ++ events }

variable (observers : Observers W)

/-- An exception ends the thread, and with it the program. -/
def tryUndo (commander : Commander W S) : Except Thrown (Commander W S) :=
  match commander.undoBuffers commander.undoTypeId with
  | [] => .ok commander
  | done :: rest =>
      let popped := { commander with
        undoBuffers := Function.update commander.undoBuffers commander.undoTypeId rest }
      match undoCommand observers done.command commander.running with
      | (after, .ok true) => .ok ((popped.addRedo commander.undoTypeId
          done).record after [.undid done])
      | (after, .ok false) => .ok (popped.record after [])
      | (_, .error thrown) => .error thrown

def tryRedo (commander : Commander W S) : Except Thrown (Commander W S) :=
  match commander.redoBuffers commander.redoTypeId with
  | [] => .ok commander
  | done :: rest =>
      let popped := { commander with
        redoBuffers := Function.update commander.redoBuffers commander.redoTypeId rest }
      match doCommand observers done.command commander.running with
      | (after, .ok true) => .ok ((popped.addUndo commander.redoTypeId
          done).record after [.redid done])
      | (after, .ok false) => .ok (popped.record after [])
      | (_, .error thrown) => .error thrown

def perform (commander : Commander W S) (request : Request W S) : Except Thrown (Commander W S) :=
  match request.entry with
  | .undo => commander.tryUndo observers
  | .redo => commander.tryRedo observers
  | .kill => .ok { commander with keepRunning := false }
  | .command command =>
      match doCommand observers command commander.running with
      | (after, .ok true) =>
          let done := ⟨command, request.undoRedoTypeId⟩
          .ok (((commander.clipRedos command.info.undoRedoTypeId).addUndo
            command.info.undoRedoTypeId done).record after [.did done])
      | (after, .ok false) => .ok (commander.record after [])
      | (_, .error thrown) => .error thrown

/-- The request is done; if it is synchronous it is counted down, and one caller
is notified.  Only the maker of the commander can be asleep. -/
def completed (commander : Commander W S) (request : Request W S) : Commander W S :=
  { commander with
    numSynchronousCommands :=
      if request.entry.isSynchronous then commander.numSynchronousCommands - 1
      else commander.numSynchronousCommands
    executing := none
    callers :=
      if request.entry.isSynchronous && commander.callers maker = .blocked then
        Function.update commander.callers maker .looking
      else
        commander.callers }

/-- An exception that leaves a command leaves the thread. -/
def execute (commander : Commander W S) : Except (Fault Thrown) (Commander W S) :=
  match commander.executing with
  | none => .ok commander
  | some request => do
      let performed ← (commander.perform observers request).mapError Fault.thrown
      return performed.completed request

end Commander

/-- A step of any client, or of the worker. -/
inductive Step (W S : Type) where
  | call (client : ℕ) (call : ClientCall W S)
  | look (client : ℕ)
  | block (client : ℕ)
  | dequeue
  | execute

def Commander.step (observers : Observers W) (commander : Commander W S) :
    Step W S → Except (Fault Thrown) (Commander W S)
  | .call client call => .ok (commander.call client call)
  | .look client => commander.look client
  | .block client => .ok (commander.block client)
  | .dequeue => commander.dequeue
  | .execute => commander.execute observers

/-- The commander behind some steps since it was started. -/
def runCommander (observers : Observers W) (running : Running W S)
    (steps : List (Step W S)) : Except (Fault Thrown) (Commander W S) :=
  steps.foldlM (Commander.step observers) (Commander.started running)

end Chkdraft.Commands
