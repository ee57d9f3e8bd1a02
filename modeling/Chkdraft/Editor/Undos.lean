import Chkdraft.Core.Undo
import Mathlib.Data.Fintype.Basic

/-!
# The undo and redo stacks of a map

Both stacks hold actions of every undo type.  Undoing and redoing take the first
action of one type, reverse it on the part of the map its type changes, and put
it on the other stack.  A counter for each type drives the flag that asks to
save.
-/

namespace Chkdraft.Editor

open Undo

/-- What the classes derived from `Reversible` implement, with the part of the
map the actions of a type change. -/
structure Reversibles (K E : Type) where
  Content : K → Type
  Action : K → Type
  count : {type : K} → Action type → ℕ
  reverse (type : K) : Action type → Content type → Except E (Content type × Action type)

/-- A `ReversibleActions`: reversed from the last action if `reversed`, which
it is before the first time. -/
structure ReversibleActions (A : Type) where
  actions : List A
  reversed : Bool
deriving DecidableEq, Repr

namespace ReversibleActions

variable {A C E : Type}

/-- What was inserted, in the order of the insertions. -/
def make (actions : List A) : ReversibleActions A :=
  { actions := actions, reversed := true }

def count (group : ReversibleActions A) : ℕ := group.actions.length

def reverse (reverseAction : A → C → Except E (C × A)) (group : ReversibleActions A) (content : C) :
    Except E (C × ReversibleActions A) :=
  if group.reversed then do
    let (content, actions) ← reverseAll reverseAction group.actions.reverse content
    return (content, { actions := actions.reverse, reversed := false })
  else do
    let (content, actions) ← reverseAll reverseAction group.actions content
    return (content, { actions := actions, reversed := true })

def turned (backs : List A) : ReversibleActions A :=
  { actions := backs, reversed := false }

variable {reverseAction : A → C → Except E (C × A)}

section

variable {S : Swapping reverseAction} {actions backs : List A} {before after : C}
  (hrecorded : Recorded S actions backs before after)

include hrecorded

theorem reverse_make : reverse reverseAction (make actions) after = .ok (before, turned backs) := by
  simp only [reverse, make, ↓reduceIte, hrecorded.backward]
  exact congrArg (fun backs => Except.ok (before, turned backs)) (List.reverse_reverse backs)

theorem reverse_turned :
    reverse reverseAction (turned backs) before = .ok (after, make actions) := by
  simp only [reverse, turned, Bool.false_eq_true, ↓reduceIte, hrecorded.forward]
  rfl

end

end ReversibleActions

/-- What `AddUndo` takes: one action or a group of them. -/
inductive Reversible (A : Type) where
  | action (action : A)
  | actions (group : ReversibleActions A)
deriving DecidableEq, Repr

namespace Reversible

variable {A C E : Type}

def count : Reversible A → ℕ
  | action _ => 1
  | actions group => group.count

def reverse (reverseAction : A → C → Except E (C × A)) :
    Reversible A → C → Except E (C × Reversible A)
  | action single, content => do
      let (content, single) ← reverseAction single content
      return (content, action single)
  | actions group, content => do
      let (content, group) ← group.reverse reverseAction content
      return (content, actions group)

variable {reverseAction : A → C → Except E (C × A)}

/-- Single actions that swap, and groups with one for each of several edits. -/
inductive Swaps (S : Swapping reverseAction) : Reversible A → C → Reversible A → C → Prop
  | action {single back : A} {content before : C}
      (hswaps : S.swaps single content back before) :
      Swaps S (.action single) content (.action back) before
  | undone {actions backs : List A} {content before : C}
      (hrecorded : Recorded S actions backs before content) :
      Swaps S (.actions (.make actions)) content (.actions (.turned backs)) before
  | redone {actions backs : List A} {content before : C}
      (hrecorded : Recorded S actions backs content before) :
      Swaps S (.actions (.turned backs)) content (.actions (.make actions)) before

/-- A swapping of actions as one of what `AddUndo` takes. -/
def swapping (S : Swapping reverseAction) : Swapping (reverse reverseAction)
    where
  swaps := Swaps S
  reverses hswaps := by
    cases hswaps with
    | action hswaps =>
        rw [reverse, S.reverses hswaps]
        rfl
    | undone hrecorded =>
        rw [reverse, ReversibleActions.reverse_make hrecorded]
        rfl
    | redone hrecorded =>
        rw [reverse, ReversibleActions.reverse_turned hrecorded]
        rfl
  symm hswaps := by
    cases hswaps with
    | action hswaps => exact .action (S.symm hswaps)
    | undone hrecorded => exact .redone hrecorded
    | redone hrecorded => exact .undone hrecorded

end Reversible

variable {K E : Type} {R : Reversibles K E}

/-- The content of a map, with the members of `Undos` and the two flags of
`GuiMap`. -/
structure GuiMap (R : Reversibles K E) where
  content : (type : K) → R.Content type
  undos : List (Σ type, R.Action type)
  redos : List (Σ type, R.Action type)
  changeCounters : K → Option ℤ
  unsavedChanges : Bool
  changeLock : Bool

namespace GuiMap

def opened (content : (type : K) → R.Content type) : GuiMap R where
  content := content
  undos := []
  redos := []
  changeCounters := fun _ => none
  unsavedChanges := false
  changeLock := false

def notifyChange (map : GuiMap R) (undoable : Bool) : GuiMap R :=
  { map with
    changeLock := map.changeLock || !undoable
    unsavedChanges := true }

def changesUndone (map : GuiMap R) : GuiMap R :=
  { map with unsavedChanges := map.unsavedChanges && map.changeLock }

/-- The new value of a counter; a counter that reaches 0 is erased. -/
def adjustedCounter (counter : Option ℤ) (adjustBy : ℤ) : Option ℤ :=
  match counter with
  | some count =>
      if count + adjustBy = 0 then none else some (count + adjustBy)
  | none => some adjustBy

variable [Fintype K]

/-- Tell the observer whether a counter is left. -/
def notifyObserver (map : GuiMap R) : GuiMap R :=
  if ∀ type, map.changeCounters type = none then
    map.changesUndone
  else
    map.notifyChange true

@[simp]
theorem notifyObserver_content (map : GuiMap R) : map.notifyObserver.content = map.content := by
  unfold notifyObserver
  split <;> rfl

@[simp]
theorem notifyObserver_undos (map : GuiMap R) : map.notifyObserver.undos = map.undos := by
  unfold notifyObserver
  split <;> rfl

@[simp]
theorem notifyObserver_redos (map : GuiMap R) : map.notifyObserver.redos = map.redos := by
  unfold notifyObserver
  split <;> rfl

@[simp]
theorem notifyObserver_changeCounters (map : GuiMap R) :
    map.notifyObserver.changeCounters = map.changeCounters := by
  unfold notifyObserver
  split <;> rfl

@[simp]
theorem notifyObserver_changeLock (map : GuiMap R) :
    map.notifyObserver.changeLock = map.changeLock := by
  unfold notifyObserver
  split
  · rfl
  · simp [notifyChange]

/-- Without the lock the flag says whether a counter is left. -/
theorem notifyObserver_unsavedChanges {map : GuiMap R} (hlock : map.changeLock = false) :
    map.notifyObserver.unsavedChanges = true ↔ ∃ type, map.changeCounters type ≠ none := by
  by_cases hnone : ∀ type, map.changeCounters type = none
  · simp [notifyObserver, hnone, changesUndone, hlock]
  · simp only [notifyObserver, if_neg hnone, notifyChange, true_iff]
    exact not_forall.mp hnone

variable [DecidableEq K]

def setContent (map : GuiMap R) (type : K) (content : R.Content type) : GuiMap R :=
  { map with content := Function.update map.content type content }

def adjustChangeCount (map : GuiMap R) (type : K) (adjustBy : ℤ) : GuiMap R :=
  { map with
    changeCounters := Function.update map.changeCounters type
      (adjustedCounter (map.changeCounters type) adjustBy) }.notifyObserver

/-- `Undos::AddUndo`.  An action without content is not recorded, and the actions
to redo stay. -/
def addUndo (map : GuiMap R) {type : K} (action : R.Action type) : GuiMap R :=
  if 0 < R.count action then
    { map with undos := ⟨type, action⟩ :: map.undos }.adjustChangeCount type 1
  else
    map

def doUndo (map : GuiMap R) (type : K) : Except E (GuiMap R) :=
  match pop type map.undos with
  | none => .ok map
  | some (action, undos) => do
      let (content, action) ← R.reverse type action (map.content type)
      return ({ map with
        undos := undos
        redos := ⟨type, action⟩ :: map.redos }.setContent type content).adjustChangeCount type (-1)

def doRedo (map : GuiMap R) (type : K) : Except E (GuiMap R) :=
  match pop type map.redos with
  | none => .ok map
  | some (action, redos) => do
      let (content, action) ← R.reverse type action (map.content type)
      return ({ map with
        undos := ⟨type, action⟩ :: map.undos
        redos := redos }.setContent type content).adjustChangeCount type 1

/-- `SaveFile` after the file is written. -/
def saveFile (map : GuiMap R) : GuiMap R :=
  if map.unsavedChanges then
    { map with
      changeLock := false
      unsavedChanges := false
      changeCounters := fun _ => none }
  else
    { map with changeLock := false }

end GuiMap

variable [DecidableEq K] [Fintype K]

/-- What a user does: edit one part of the map and record it, undo, redo and
save. -/
inductive Command (R : Reversibles K E) where
  | edit (type : K)
      (change : R.Content type → Except E (R.Content type × R.Action type))
  | undo (type : K)
  | redo (type : K)
  | save

/-- A map with its content at the last save, and how many actions of each type
are undone since the last edit of their type. -/
structure Session (R : Reversibles K E) where
  map : GuiMap R
  saved : (type : K) → R.Content type
  fresh : K → ℕ

namespace Session

def opened (content : (type : K) → R.Content type) : Session R where
  map := .opened content
  saved := content
  fresh := fun _ => 0

def setFresh (session : Session R) (type : K) (count : ℕ) (map : GuiMap R) : Session R :=
  { session with
    map := map
    fresh := Function.update session.fresh type count }

def step (session : Session R) : Command R → Except E (Session R)
  | .edit type change => do
      let (content, action) ← change (session.map.content type)
      let edited := (session.map.setContent type content).addUndo action
      return if 0 < R.count action then session.setFresh type 0 edited
        else { session with map := edited }
  | .undo type => do
      let undone ← session.map.doUndo type
      return if ofType type session.map.undos = [] then
          { session with map := undone }
        else session.setFresh type (session.fresh type + 1) undone
  | .redo type => do
      let redone ← session.map.doRedo type
      return if ofType type session.map.redos = [] then
          { session with map := redone }
        else session.setFresh type (session.fresh type - 1) redone
  | .save =>
      .ok { session with
        map := session.map.saveFile
        saved := session.map.content }

def run (session : Session R) (commands : List (Command R)) : Except E (Session R) :=
  commands.foldlM step session

end Session

/-! ## What a step does -/

namespace GuiMap

/-- One part of the map and the two stacks are replaced, and the change is
counted. -/
def replaced (map : GuiMap R) (type : K) (content : R.Content type)
    (undos redos : List (Σ type, R.Action type)) (adjustBy : ℤ) : GuiMap R :=
  ({ map with undos := undos, redos := redos }.setContent type
    content).adjustChangeCount type adjustBy

section Frame

variable (map : GuiMap R) (type : K) (content : R.Content type)
  (undos redos : List (Σ type, R.Action type)) (adjustBy : ℤ)

@[simp]
theorem replaced_content : (map.replaced type content undos redos adjustBy).content =
      Function.update map.content type content := by
  simp [replaced, adjustChangeCount, setContent]

@[simp]
theorem replaced_undos : (map.replaced type content undos redos adjustBy).undos = undos := by
  simp [replaced, adjustChangeCount, setContent]

@[simp]
theorem replaced_redos : (map.replaced type content undos redos adjustBy).redos = redos := by
  simp [replaced, adjustChangeCount, setContent]

@[simp]
theorem replaced_changeCounters : (map.replaced type content undos redos adjustBy).changeCounters =
      Function.update map.changeCounters type
        (adjustedCounter (map.changeCounters type) adjustBy) := by
  simp [replaced, adjustChangeCount, setContent]

@[simp]
theorem replaced_changeLock : (map.replaced type content undos redos adjustBy).changeLock =
      map.changeLock := by
  simp [replaced, adjustChangeCount, setContent]

end Frame

section Save

omit [Fintype K] [DecidableEq K]

@[simp]
theorem saveFile_content (map : GuiMap R) : map.saveFile.content = map.content := by
  unfold saveFile
  split <;> rfl

@[simp]
theorem saveFile_undos (map : GuiMap R) : map.saveFile.undos = map.undos := by
  unfold saveFile
  split <;> rfl

@[simp]
theorem saveFile_redos (map : GuiMap R) : map.saveFile.redos = map.redos := by
  unfold saveFile
  split <;> rfl

end Save

theorem addUndo_setContent (map : GuiMap R) {type : K} {action : R.Action type}
    (content : R.Content type) (hcount : 0 < R.count action) :
    (map.setContent type content).addUndo action =
      map.replaced type content (⟨type, action⟩ :: map.undos) map.redos 1 := by
  rw [addUndo, if_pos hcount]
  rfl

theorem doUndo_eq_ok_iff {map undone : GuiMap R} {type : K}
    {action : R.Action type} {undos : List (Σ type, R.Action type)}
    (hpop : pop type map.undos = some (action, undos)) :
    map.doUndo type = .ok undone ↔ ∃ content back,
      R.reverse type action (map.content type) = .ok (content, back) ∧
        undone = map.replaced type content undos (⟨type, back⟩ :: map.redos) (-1) := by
  simp only [doUndo, hpop, Fault.bind_eq_ok_iff]
  constructor
  · rintro ⟨⟨content, back⟩, hreverse, hundone⟩
    cases hundone
    exact ⟨content, back, hreverse, rfl⟩
  · rintro ⟨content, back, hreverse, rfl⟩
    exact ⟨(content, back), hreverse, rfl⟩

theorem doRedo_eq_ok_iff {map redone : GuiMap R} {type : K}
    {action : R.Action type} {redos : List (Σ type, R.Action type)}
    (hpop : pop type map.redos = some (action, redos)) :
    map.doRedo type = .ok redone ↔ ∃ content back,
      R.reverse type action (map.content type) = .ok (content, back) ∧
        redone = map.replaced type content (⟨type, back⟩ :: map.undos) redos 1 := by
  simp only [doRedo, hpop, Fault.bind_eq_ok_iff]
  constructor
  · rintro ⟨⟨content, back⟩, hreverse, hredone⟩
    cases hredone
    exact ⟨content, back, hreverse, rfl⟩
  · rintro ⟨content, back, hreverse, rfl⟩
    exact ⟨(content, back), hreverse, rfl⟩

/-- An undo and a redo after it reverse the same action twice. -/
theorem undo_redo_iff {map : GuiMap R} {type : K} {action : R.Action type}
    {undos : List (Σ type, R.Action type)}
    (hpop : pop type map.undos = some (action, undos))
    {afterUndo afterRedo : R.Content type → Prop} :
    (∃ undone redone, map.doUndo type = .ok undone ∧ afterUndo (undone.content type) ∧
        undone.doRedo type = .ok redone ∧ afterRedo (redone.content type)) ↔
      ∃ content back again other, R.reverse type action (map.content type) = .ok (content, back) ∧
        afterUndo content ∧
        R.reverse type back content = .ok (again, other) ∧ afterRedo again := by
  constructor
  · rintro ⟨undone, redone, hundo, hundone, hredo, hredone⟩
    obtain ⟨content, back, hreverse, rfl⟩ := (doUndo_eq_ok_iff hpop).mp hundo
    have hback : pop type (map.replaced type content undos
        (⟨type, back⟩ :: map.redos) (-1)).redos = some (back, map.redos) := by
      rw [replaced_redos, pop_cons_self]
    obtain ⟨again, other, hagain, rfl⟩ := (doRedo_eq_ok_iff hback).mp hredo
    rw [replaced_content, Function.update_self] at hundone hagain hredone
    exact ⟨content, back, again, other, hreverse, hundone, hagain, hredone⟩
  · rintro ⟨content, back, again, other, hreverse, hundone, hagain, hredone⟩
    have hundo := (doUndo_eq_ok_iff hpop).mpr ⟨_, _, hreverse, rfl⟩
    have hback : pop type (map.replaced type content undos
        (⟨type, back⟩ :: map.redos) (-1)).redos = some (back, map.redos) := by
      rw [replaced_redos, pop_cons_self]
    have hcontent : (map.replaced type content undos
        (⟨type, back⟩ :: map.redos) (-1)).content type = content := by
      rw [replaced_content, Function.update_self]
    have hredo := (doRedo_eq_ok_iff hback).mpr ⟨_, _, hcontent.symm ▸ hagain, rfl⟩
    refine ⟨_, _, hundo, ?_, hredo, ?_⟩
    · rwa [hcontent]
    · rwa [replaced_content, Function.update_self]

end GuiMap

/-- What it means for each type that an action takes a change back. -/
abbrev Swappings (R : Reversibles K E) : Type := (type : K) → Swapping (R.reverse type)

variable (S : Swappings R)

/-- The recorded action takes the edit back, and what it turns into makes it
again; an edit that records nothing changes nothing. -/
def Undoable {type : K} (change : R.Content type → Except E (R.Content type × R.Action type))
    (before : R.Content type) : Prop :=
  ∃ after action, change before = .ok (after, action) ∧ (R.count action = 0 → after = before) ∧
    (0 < R.count action → ∃ back, (S type).swaps action after back before)

namespace Session

/-- An edit can be undone, and only what was undone since the last edit of its
type is redone. -/
def Replayable (session : Session R) : Command R → Prop
  | .edit type change => Undoable S change (session.map.content type)
  | .undo _ => True
  | .redo type => ofType type session.map.redos = [] ∨ 0 < session.fresh type
  | .save => True

/-- The stacks of every type are consistent. -/
def Replays (start : (type : K) → R.Content type) (session : Session R) : Prop :=
  ∀ type, Consistent (S type) (ofType type session.map.undos)
    (ofType type session.map.redos) (session.fresh type)
    (session.map.content type) (start type)

/-- What a command does to a session whose stacks are consistent. -/
inductive Moves (session : Session R) : Command R → Session R → Prop
  | idle (command : Command R) : Moves session command session
  | edit {type : K} {action back : R.Action type} {content : R.Content type}
      {change : R.Content type → Except E (R.Content type × R.Action type)}
      (hchange : change (session.map.content type) = .ok (content, action))
      (hcount : 0 < R.count action)
      (hswaps : (S type).swaps action content back (session.map.content type)) :
      Moves session (.edit type change) (session.setFresh type 0
        (session.map.replaced type content (⟨type, action⟩ :: session.map.undos)
          session.map.redos 1))
  | undo {type : K} {action back : R.Action type} {content : R.Content type}
      {undos : List (Σ type, R.Action type)}
      (hpop : pop type session.map.undos = some (action, undos))
      (hswaps : (S type).swaps action (session.map.content type) back content) :
      Moves session (.undo type) (session.setFresh type (session.fresh type + 1)
        (session.map.replaced type content undos (⟨type, back⟩ :: session.map.redos) (-1)))
  | redo {type : K} {action back : R.Action type} {content : R.Content type}
      {redos : List (Σ type, R.Action type)}
      (hpop : pop type session.map.redos = some (action, redos))
      (hfresh : 0 < session.fresh type)
      (hswaps : (S type).swaps action (session.map.content type) back content) :
      Moves session (.redo type) (session.setFresh type (session.fresh type - 1)
        (session.map.replaced type content (⟨type, back⟩ :: session.map.undos) redos 1))
  | save : Moves session .save { session with
      map := session.map.saveFile
      saved := session.map.content }

variable {S}

theorem step_edit_idle {session : Session R} {type : K}
    {change : R.Content type → Except E (R.Content type × R.Action type)}
    {action : R.Action type}
    (hchange : change (session.map.content type) = .ok (session.map.content type, action))
    (hcount : R.count action = 0) :
    session.step (.edit type change) = .ok session := by
  have hnone : ¬ 0 < R.count action := by rw [hcount]; exact Nat.not_lt_zero 0
  simp only [step, hchange]
  change Except.ok _ = _
  rw [if_neg hnone, GuiMap.addUndo, if_neg hnone, GuiMap.setContent, Function.update_eq_self]

theorem step_edit_of_pos {session : Session R} {type : K}
    {change : R.Content type → Except E (R.Content type × R.Action type)}
    {action : R.Action type} {content : R.Content type}
    (hchange : change (session.map.content type) = .ok (content, action))
    (hcount : 0 < R.count action) :
    session.step (.edit type change) = .ok (session.setFresh type 0
      (session.map.replaced type content (⟨type, action⟩ :: session.map.undos)
        session.map.redos 1)) := by
  simp only [step, hchange]
  change Except.ok _ = _
  rw [if_pos hcount, GuiMap.addUndo_setContent session.map content hcount]

theorem step_edit {session : Session R} {type : K}
    {change : R.Content type → Except E (R.Content type × R.Action type)}
    (hundoable : Undoable S change (session.map.content type)) :
    ∃ next, session.step (.edit type change) = .ok next ∧
      session.Moves S (.edit type change) next := by
  obtain ⟨after, action, hchange, hidle, hswaps⟩ := hundoable
  by_cases hcount : 0 < R.count action
  · obtain ⟨back, hswaps⟩ := hswaps hcount
    exact ⟨_, step_edit_of_pos hchange hcount, .edit hchange hcount hswaps⟩
  · have hzero := Nat.eq_zero_of_not_pos hcount
    have hsame := hidle hzero
    subst hsame
    exact ⟨session, step_edit_idle hchange hzero, .idle _⟩

theorem step_undo_of_none {session : Session R} {type : K}
    (hpop : pop type session.map.undos = none) :
    session.step (.undo type) = .ok session := by
  simp only [step, GuiMap.doUndo, hpop]
  change Except.ok _ = _
  rw [if_pos (pop_eq_none_iff.mp hpop)]

theorem step_undo_of_pop {session : Session R} {type : K}
    {action back : R.Action type} {content : R.Content type}
    {undos : List (Σ type, R.Action type)}
    (hpop : pop type session.map.undos = some (action, undos))
    (hswaps : (S type).swaps action (session.map.content type) back content) :
    session.step (.undo type) = .ok (session.setFresh type
      (session.fresh type + 1) (session.map.replaced type content undos
        (⟨type, back⟩ :: session.map.redos) (-1))) := by
  have hundo := (GuiMap.doUndo_eq_ok_iff hpop).mpr ⟨_, _, (S type).reverses hswaps, rfl⟩
  simp only [step, hundo]
  change Except.ok _ = _
  rw [if_neg (by simp [(ofType_of_pop hpop).1])]

theorem step_undo {start : (type : K) → R.Content type} {session : Session R}
    (hreplays : session.Replays S start) (type : K) :
    ∃ next, session.step (.undo type) = .ok next ∧ session.Moves S (.undo type) next := by
  cases hpop : pop type session.map.undos with
  | none => exact ⟨session, step_undo_of_none hpop, .idle _⟩
  | some taken =>
      have hstacks := hreplays type
      rw [(ofType_of_pop hpop).1] at hstacks
      obtain ⟨back, before, hswaps⟩ := hstacks.undoes
      exact ⟨_, step_undo_of_pop hpop hswaps, .undo hpop hswaps⟩

theorem step_redo_of_none {session : Session R} {type : K}
    (hpop : pop type session.map.redos = none) :
    session.step (.redo type) = .ok session := by
  simp only [step, GuiMap.doRedo, hpop]
  change Except.ok _ = _
  rw [if_pos (pop_eq_none_iff.mp hpop)]

theorem step_redo_of_pop {session : Session R} {type : K}
    {action back : R.Action type} {content : R.Content type}
    {redos : List (Σ type, R.Action type)}
    (hpop : pop type session.map.redos = some (action, redos))
    (hswaps : (S type).swaps action (session.map.content type) back content) :
    session.step (.redo type) = .ok (session.setFresh type
      (session.fresh type - 1) (session.map.replaced type content
        (⟨type, back⟩ :: session.map.undos) redos 1)) := by
  have hredo := (GuiMap.doRedo_eq_ok_iff hpop).mpr ⟨_, _, (S type).reverses hswaps, rfl⟩
  simp only [step, hredo]
  change Except.ok _ = _
  rw [if_neg (by simp [(ofType_of_pop hpop).1])]

section

variable {start : (type : K) → R.Content type} {session : Session R} {type : K}
  (hreplays : session.Replays S start) (hmeets : session.Replayable S (.redo type))

include hreplays hmeets

omit [Fintype K] in
/-- What is redone was undone since the last edit, so it fits the content. -/
theorem Replays.redoes {action : R.Action type} {redos : List (Σ type, R.Action type)}
    (hpop : pop type session.map.redos = some (action, redos)) :
    0 < session.fresh type ∧ ∃ back after,
      (S type).swaps action (session.map.content type) back after := by
  have hcons := (ofType_of_pop hpop).1
  have hfresh : 0 < session.fresh type := by
    rcases hmeets with hnil | hfresh
    · rw [hcons] at hnil
      cases hnil
    · exact hfresh
  have hstacks := hreplays type
  rw [hcons, ← Nat.sub_add_cancel hfresh] at hstacks
  exact ⟨hfresh, hstacks.redoes⟩

theorem step_redo :
    ∃ next, session.step (.redo type) = .ok next ∧ session.Moves S (.redo type) next := by
  cases hpop : pop type session.map.redos with
  | none => exact ⟨session, step_redo_of_none hpop, .idle _⟩
  | some taken =>
      obtain ⟨hfresh, back, after, hswaps⟩ := hreplays.redoes hmeets hpop
      exact ⟨_, step_redo_of_pop hpop hswaps, .redo hpop hfresh hswaps⟩

end

theorem step_moves {start : (type : K) → R.Content type} {session : Session R}
    {command : Command R} (hreplays : session.Replays S start)
    (hmeets : session.Replayable S command) :
    ∃ next, session.step command = .ok next ∧ session.Moves S command next := by
  cases command with
  | edit type change => exact step_edit hmeets
  | undo type => exact step_undo hreplays type
  | redo type => exact step_redo hreplays hmeets
  | save => exact ⟨_, rfl, .save⟩

section Keeps

variable {start : (type : K) → R.Content type} {session next : Session R}

/-- A command on one type keeps the stacks of the others. -/
theorem Replays.replaced (hreplays : session.Replays S start) {type : K}
    {content : R.Content type} {undos redos : List (Σ type, R.Action type)}
    {fresh : ℕ} (adjustBy : ℤ)
    (hundos : ∀ other ≠ type, ofType other undos = ofType other session.map.undos)
    (hredos : ∀ other ≠ type, ofType other redos = ofType other session.map.redos)
    (hstacks : Consistent (S type) (ofType type undos) (ofType type redos)
      fresh content (start type)) :
    (session.setFresh type fresh (session.map.replaced type content undos redos
      adjustBy)).Replays S start := by
  intro other
  simp only [setFresh, GuiMap.replaced_undos, GuiMap.replaced_redos, GuiMap.replaced_content]
  by_cases hother : other = type
  · subst hother
    simpa using hstacks
  · rw [Function.update_of_ne hother, Function.update_of_ne hother,
      hundos other hother, hredos other hother]
    exact hreplays other

theorem Replays.moves {command : Command R} (hreplays : session.Replays S start)
    (hmoves : session.Moves S command next) : next.Replays S start := by
  cases hmoves with
  | idle => exact hreplays
  | @edit type action back content change hchange hcount hswaps =>
      apply hreplays.replaced
      · exact fun other hother => ofType_cons_of_ne hother.symm _ _
      · exact fun _ _ => rfl
      · rw [ofType_cons_self]
        exact (hreplays type).edit hswaps
  | @undo type action back content undos hpop hswaps =>
      obtain ⟨hcons, hkept⟩ := ofType_of_pop hpop
      apply hreplays.replaced
      · exact hkept
      · exact fun other hother => ofType_cons_of_ne hother.symm _ _
      · rw [ofType_cons_self]
        exact (hcons ▸ hreplays type).undo hswaps
  | @redo type action back content redos hpop hfresh hswaps =>
      obtain ⟨hcons, hkept⟩ := ofType_of_pop hpop
      apply hreplays.replaced
      · exact fun other hother => ofType_cons_of_ne hother.symm _ _
      · exact hkept
      · have hstacks := hreplays type
        rw [hcons, ← Nat.sub_add_cancel hfresh] at hstacks
        rw [ofType_cons_self]
        exact hstacks.redo hswaps
  | save =>
      intro type
      simpa using hreplays type

variable (S) in
omit [Fintype K] in
theorem replays_opened (start : (type : K) → R.Content type) : (opened start).Replays S start :=
  fun type => consistent_start (start type)

end Keeps

end Session

namespace GuiMap

def undoTimes (map : GuiMap R) (type : K) (times : ℕ) : Except E (GuiMap R) :=
  (List.replicate times type).foldlM doUndo map

def redoTimes (map : GuiMap R) (type : K) (times : ℕ) : Except E (GuiMap R) :=
  (List.replicate times type).foldlM doRedo map

theorem redoTimes_succ (map : GuiMap R) (type : K) (times : ℕ) : map.redoTimes type (times + 1) =
      map.redoTimes type times >>= fun redone => redone.doRedo type := by
  rw [redoTimes, redoTimes, List.replicate_succ', List.foldlM_append]
  simp only [List.foldlM_cons, List.foldlM_nil, bind_pure]

/-- Actions on top of the undo stack that lead back are undone one by one, and
redone again. -/
theorem undoTimes_redoTimes {type : K} {S : Swapping (R.reverse type)}
    {actions : List (R.Action type)} {older : List (Σ type, R.Action type)}
    {map : GuiMap R} {before : R.Content type}
    (hundos : map.undos = actions.map (Sigma.mk type) ++ older)
    (hleads : Leads S actions (map.content type) before) :
    ∃ undone redone, map.undoTimes type actions.length = .ok undone ∧ undone.content type = before ∧
      undone.redoTimes type actions.length = .ok redone ∧
      redone.content type = map.content type ∧
      redone.redos = map.redos := by
  induction actions generalizing map with
  | nil =>
      exact ⟨map, map, rfl, leads_nil_iff.mp hleads, rfl, rfl, rfl⟩
  | cons action rest ih =>
      obtain ⟨back, middle, hswaps, hrest⟩ := leads_cons_iff.mp hleads
      have hpop : pop type map.undos = some (action, rest.map (Sigma.mk type) ++ older) := by
        rw [hundos, List.map_cons, List.cons_append, pop_cons_self]
      have hundo := (doUndo_eq_ok_iff hpop).mpr ⟨_, _, S.reverses hswaps, rfl⟩
      -- The map behind the first undo, at which the induction goes on.
      let first := map.replaced type middle
        (rest.map (Sigma.mk type) ++ older) (⟨type, back⟩ :: map.redos) (-1)
      have hfirst : first.content type = middle := by
        rw [replaced_content, Function.update_self]
      obtain ⟨undone, again, hundone, hbefore, hagain, hcontent, hredos⟩ :=
        @ih first (replaced_undos _ _ _ _ _ _) (by rwa [hfirst])
      have hback : pop type again.redos = some (back, map.redos) := by
        rw [hredos, replaced_redos, pop_cons_self]
      have hswapped : R.reverse type back (again.content type) =
          .ok (map.content type, action) := by
        rw [hcontent, hfirst]
        exact S.reverses (S.symm hswaps)
      have hredo := (doRedo_eq_ok_iff hback).mpr ⟨_, _, hswapped, rfl⟩
      refine ⟨undone, again.replaced type (map.content type)
        (⟨type, action⟩ :: again.undos) map.redos 1, ?_, hbefore, ?_, ?_, ?_⟩
      · rw [undoTimes, List.length_cons, List.replicate_succ, List.foldlM_cons, hundo]
        exact hundone
      · rw [List.length_cons, redoTimes_succ, hagain]
        exact hredo
      · rw [replaced_content, Function.update_self]
      · rw [replaced_redos]

end GuiMap

end Chkdraft.Editor
