import Chkdraft.Commands.CommandInverse
import Chkdraft.Commands.SynchronousCount

/-!
# Requests to undo and redo

What a request is to do follows from the history: it undoes the last command of
its type that was not undone yet, or redoes the last one undone since.  The
worker does so as long as no two pending requests to undo are for different
types, the commands carry the types asked for, and no ACID command is to be
undone.
-/

namespace Chkdraft.Commands

variable {W S : Type}

/-- The commands of a type that can be undone and redone, the next one first. -/
structure Stacks (W S : Type) where
  done : List (DoneCommand W S)
  undone : List (DoneCommand W S)

/-- Doing a command drops what was undone. -/
def Stacks.after (undoRedoTypeId : UInt32) (before : Stacks W S) : Event W S → Stacks W S
  | .did command =>
      if command.undoRedoTypeId = undoRedoTypeId then
        ⟨command :: before.done, []⟩
      else
        before
  | .undid command =>
      if command.undoRedoTypeId = undoRedoTypeId then
        ⟨before.done.tail, command :: before.undone⟩
      else
        before
  | .redid command =>
      if command.undoRedoTypeId = undoRedoTypeId then
        ⟨command :: before.done, before.undone.tail⟩
      else
        before

def stacksOf (undoRedoTypeId : UInt32) (history : List (Event W S)) : Stacks W S :=
  history.foldl (Stacks.after undoRedoTypeId) ⟨[], []⟩

section Plain

variable {observers : Observers W} {command : GenericCommand W S}
  {running : Running W S}

end Plain

namespace Commander

/-- The buffers of a type hold what the history says, and what can be redone is
plain. -/
structure Stacked (commander : Commander W S) (typeId : UInt32) : Prop where
  buffers : stacksOf typeId commander.history =
    ⟨commander.undoBuffers typeId, commander.redoBuffers typeId⟩
  typed_undo : ∀ done ∈ commander.undoBuffers typeId, done.undoRedoTypeId = typeId
  typed_redo : ∀ done ∈ commander.redoBuffers typeId, done.undoRedoTypeId = typeId
  plain : ∀ done ∈ commander.redoBuffers typeId, done.command.info.subCommandsAreAcid = false

/-- The type the worker reads for a request is the type its caller asked
for. -/
def Agrees (commander : Commander W S) (request : Request W S) : Prop :=
  match request.entry with
  | .command command => command.info.undoRedoTypeId = request.undoRedoTypeId
  | .undo => request.undoRedoTypeId = commander.undoTypeId
  | .redo => request.undoRedoTypeId = commander.redoTypeId
  | .kill => True

structure Serving (commander : Commander W S) : Prop where
  stacked : ∀ typeId, commander.Stacked typeId
  agrees : ∀ request ∈ commander.pending, commander.Agrees request

end Commander

def Event.command : Event W S → DoneCommand W S
  | .did command => command
  | .undid command => command
  | .redid command => command

section Stacked

variable {commander next : Commander W S} {done : DoneCommand W S}
  {rest : List (DoneCommand W S)} {typeId : UInt32} {after : Running W S}

theorem Commander.Stacked.of_eq (hstacked : commander.Stacked typeId)
    (hhistory : next.history = commander.history)
    (hundo : next.undoBuffers = commander.undoBuffers)
    (hredo : next.redoBuffers = commander.redoBuffers) :
    next.Stacked typeId := by
  obtain ⟨hbuffers, htypedUndo, htypedRedo, hplain⟩ := hstacked
  rw [← hhistory, ← hundo, ← hredo] at hbuffers
  rw [← hundo] at htypedUndo
  rw [← hredo] at htypedRedo hplain
  exact ⟨hbuffers, htypedUndo, htypedRedo, hplain⟩

section

variable (hstacked : ∀ typeId, commander.Stacked typeId)

include hstacked

end

end Stacked

/-! ## The steps -/

section Steps

variable {observers : Observers W} {commander : Commander W S}
  {request : Request W S}

section

variable (hserving : commander.Serving)

include hserving

theorem Commander.Serving.of_eq {next : Commander W S} (hpending : next.pending = commander.pending)
    (hhistory : next.history = commander.history)
    (hundo : next.undoBuffers = commander.undoBuffers)
    (hredo : next.redoBuffers = commander.redoBuffers)
    (hundoType : next.undoTypeId = commander.undoTypeId)
    (hredoType : next.redoTypeId = commander.redoTypeId) : next.Serving := by
  refine ⟨fun typeId => (hserving.stacked typeId).of_eq hhistory hundo hredo,
    fun request hmem => ?_⟩
  rw [hpending] at hmem
  have hagrees := hserving.agrees request hmem
  rw [Commander.Agrees] at hagrees ⊢
  rw [hundoType, hredoType]
  exact hagrees

end

end Steps

end Chkdraft.Commands
