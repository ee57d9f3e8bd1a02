import Chkdraft.Commands.AcidCommands
import Chkdraft.Commands.Queue
import Mathlib.Data.UInt

/-!
# The count of synchronous commands

A request is counted when its caller waits for it, and counted down when its
command says that it is synchronous.  `DoAcid` makes its command say the
opposite.
-/

namespace Chkdraft.Commands

variable {W S : Type}

namespace Commander

/-- The requests pending whose callers wait. -/
def numWaiting (commander : Commander W S) : ℕ := commander.pending.countP Request.waits

/-- The counter is the number of synchronous requests that are queued or
executing. -/
def CountExact (commander : Commander W S) : Prop :=
  commander.numSynchronousCommands.toNat = commander.numWaiting

/-- A caller is asleep only as long as a synchronous request is left. -/
def Wakes (commander : Commander W S) : Prop :=
  ∀ client, commander.callers client = .blocked → commander.numSynchronousCommands ≠ 0

end Commander

/-- A run does not end early, and along it the counter is exact, a caller that
looks is released exactly when no synchronous request is left, none is asleep
then, and nothing is counted down from 0. -/
structure CountsExactly (observers : Observers W) (running : Running W S)
    (steps : List (Step W S)) : Prop where
  continues : ∀ done rest, steps = done ++ rest →
    ∃ commander, runCommander observers running done = .ok commander
  exact : ∀ done rest commander, steps = done ++ rest →
    runCommander observers running done = .ok commander → commander.CountExact
  released : ∀ done rest commander client next, steps = done ++ .look client :: rest →
    runCommander observers running done = .ok commander →
    commander.callers client = .looking →
    commander.look client = .ok next → (next.callers client = .free ↔
        ∀ request ∈ commander.pending, request.waits = false)
  woken : ∀ done rest commander client, steps = done ++ rest →
    runCommander observers running done = .ok commander →
    commander.callers client = .blocked → ∃ request ∈ commander.pending, request.waits = true
  positive : ∀ done rest commander request next, steps = done ++ .execute :: rest →
    runCommander observers running done = .ok commander →
    commander.executing = some request →
    commander.execute observers = .ok next → request.entry.isSynchronous = true →
        0 < commander.numSynchronousCommands.toNat

/-! ## The steps -/

def ClientCall.requests : ClientCall W S → List (Request W S)
  | doOne command => [commandRequest command]
  | doEach commands => commands.map commandRequest
  | doAcid subCommands undoRedoTypeId async =>
      [⟨.command (acidParent subCommands async), undoRedoTypeId, !async⟩]
  | undo undoRedoTypeId => [⟨.undo, undoRedoTypeId, true⟩]
  | redo undoRedoTypeId => [⟨.redo, undoRedoTypeId, true⟩]
  | finish => [⟨.kill, noUndoRedoType, true⟩]

section Calls

theorem push_eq (commander : Commander W S) (request : Request W S) :
    (commander.push request.waits request).pending = commander.pending ++ [request] ∧
      (commander.push request.waits request).numSynchronousCommands =
        commander.numSynchronousCommands + UInt32.ofNat ([request].countP Request.waits) := by
  constructor
  · simp [Commander.pending, Commander.push]
  · cases hwaits : request.waits <;> simp [Commander.push, hwaits]

/-- The requests are queued, and those that wait are counted. -/
theorem enqueue_eq (commander : Commander W S) (call : ClientCall W S) :
    (commander.enqueue call).pending = commander.pending ++ call.requests ∧
      (commander.enqueue call).numSynchronousCommands = commander.numSynchronousCommands +
          UInt32.ofNat (call.requests.countP Request.waits) := by
  cases call with
  | doOne command => exact push_eq commander (commandRequest command)
  | doEach commands =>
      rw [Commander.enqueue, ClientCall.requests]
      induction commands generalizing commander with
      | nil => simp
      | cons command rest ih =>
          obtain ⟨hpending, hcount⟩ := push_eq commander (commandRequest command)
          obtain ⟨hrest, hrestCount⟩ := ih (commander.push
            command.info.isSynchronous (commandRequest command))
          have hwaits : command.info.isSynchronous = (commandRequest command).waits := rfl
          have hsum : (commandRequest command :: rest.map commandRequest).countP Request.waits =
                [commandRequest command].countP Request.waits +
                  (rest.map commandRequest).countP Request.waits := by
            rw [← List.countP_append]
            rfl
          rw [List.foldl_cons, List.map_cons]
          constructor
          · refine hrest.trans ?_
            rw [hwaits, hpending, List.append_assoc]
            rfl
          · refine hrestCount.trans ?_
            rw [hwaits, hcount, hsum, UInt32.ofNat_add, UInt32.add_assoc]
  | doAcid subCommands undoRedoTypeId async =>
      exact push_eq commander ⟨_, undoRedoTypeId, !async⟩
  | undo undoRedoTypeId =>
      exact push_eq { commander with undoTypeId := undoRedoTypeId } ⟨.undo, undoRedoTypeId, true⟩
  | redo undoRedoTypeId =>
      exact push_eq { commander with redoTypeId := undoRedoTypeId } ⟨.redo, undoRedoTypeId, true⟩
  | finish => exact push_eq commander ⟨.kill, noUndoRedoType, true⟩

theorem call_eq {commander : Commander W S} {client : ℕ}
    (hfree : commander.callers client = .free) (call : ClientCall W S) :
    (commander.call client call).pending = commander.pending ++ call.requests ∧
      (commander.call client call).numSynchronousCommands = commander.numSynchronousCommands +
          UInt32.ofNat (call.requests.countP Request.waits) := by
  rw [Commander.call, if_pos hfree]
  exact enqueue_eq commander call

end Calls

section Worker

variable {observers : Observers W} {commander next : Commander W S}

theorem pending_take (hnone : commander.executing = none) :
    commander.take.pending = commander.pending := by
  rw [Commander.take]
  split
  · rfl
  · rename_i hqueue
    simp [Commander.pending, hnone, hqueue]

theorem take_keeps (commander : Commander W S) :
    commander.take.numSynchronousCommands = commander.numSynchronousCommands ∧
      commander.take.callers = commander.callers := by
  rw [Commander.take]
  split <;> exact ⟨rfl, rfl⟩

/-- The worker takes its next request from those pending, and touches neither
the counter nor the callers. -/
theorem dequeue_eq (hdequeue : commander.dequeue = .ok next) :
    next.pending = commander.pending ∧
      next.numSynchronousCommands = commander.numSynchronousCommands ∧
      next.callers = commander.callers := by
  rw [Commander.dequeue] at hdequeue
  split at hdequeue
  · cases hdequeue
    exact ⟨rfl, rfl, rfl⟩
  · rename_i hidle
    have hnone : commander.executing = none := by
      simp only [Bool.or_eq_true, not_or] at hidle
      simpa using hidle.1
    split at hdequeue
    · cases hdequeue
      split
      · exact ⟨pending_take hnone, take_keeps _⟩
      · exact ⟨rfl, rfl, rfl⟩
    · split at hdequeue
      · split at hdequeue <;> cases hdequeue
        exact ⟨rfl, rfl, rfl⟩
      · cases hdequeue
        exact ⟨pending_take hnone, take_keeps commander⟩

/-- Executing a command leaves the queue, the counter, the types to undo and
redo and the callers. -/
theorem perform_keeps {request : Request W S}
    (hperform : commander.perform observers request = .ok next) :
    next.todoBuffer = commander.todoBuffer ∧
      next.numSynchronousCommands = commander.numSynchronousCommands ∧
      next.undoTypeId = commander.undoTypeId ∧
      next.redoTypeId = commander.redoTypeId ∧
      next.callers = commander.callers := by
  rw [Commander.perform] at hperform
  split at hperform
  · rw [Commander.tryUndo] at hperform
    split at hperform
    · cases hperform
      exact ⟨rfl, rfl, rfl, rfl, rfl⟩
    · split at hperform <;> cases hperform <;> exact ⟨rfl, rfl, rfl, rfl, rfl⟩
  · rw [Commander.tryRedo] at hperform
    split at hperform
    · cases hperform
      exact ⟨rfl, rfl, rfl, rfl, rfl⟩
    · split at hperform <;> cases hperform <;> exact ⟨rfl, rfl, rfl, rfl, rfl⟩
  · cases hperform
    exact ⟨rfl, rfl, rfl, rfl, rfl⟩
  · split at hperform <;> cases hperform <;> exact ⟨rfl, rfl, rfl, rfl, rfl⟩

/-- The request is counted down and a caller woken if the request is
synchronous. -/
theorem execute_some {request : Request W S} (hrequest : commander.executing = some request)
    (hexecute : commander.execute observers = .ok next) :
    next.pending = commander.todoBuffer ∧
      next.numSynchronousCommands = (if request.entry.isSynchronous then
          commander.numSynchronousCommands - 1
        else
          commander.numSynchronousCommands) ∧
      next.callers =
        if request.entry.isSynchronous && commander.callers maker = .blocked
        then Function.update commander.callers maker .looking
        else commander.callers := by
  simp only [Commander.execute, hrequest] at hexecute
  rw [Fault.bind_eq_ok_iff] at hexecute
  obtain ⟨performed, hperform, heq⟩ := hexecute
  cases heq
  obtain ⟨htodo, hcount, -, -, hcallers⟩ := perform_keeps (Fault.mapError_eq_ok_iff.mp hperform)
  refine ⟨?_, ?_, ?_⟩
  · simpa [Commander.pending, Commander.completed] using htodo
  · simp only [Commander.completed, hcount]
  · simp only [Commander.completed, hcallers]

end Worker

/-- No thread starts to wait with a lock that it does not own: the worker goes
to sleep once, and no client but the maker of the commander does. -/
def Step.OwnsLock (commander : Commander W S) : Step W S → Prop
  | .look client => commander.callers client = .looking →
      commander.numSynchronousCommands = 0 ∨ client = maker
  | .dequeue => commander.executing = none → commander.keepRunning = true →
      commander.asleep = false → commander.todoBuffer = [] → commander.ownsLock = true
  | _ => True

/-- Threads wait with locks of their own, the counter does not overflow, a
caller falls asleep before the counter is 0, and what is executed returns and
says about itself what its caller asked for, unlike the command of a call of
`DoAcid`. -/
def Step.MeetsCount (observers : Observers W) (commander : Commander W S)
    (step : Step W S) : Prop :=
  step.OwnsLock commander ∧
    match step with
    | .call client made => commander.callers client = .free →
        commander.numWaiting + made.requests.countP Request.waits < 2 ^ 32
    | .block client => commander.callers client = .settling →
        commander.numSynchronousCommands ≠ 0
    | .execute => ∀ request, commander.executing = some request →
        request.entry.isSynchronous = request.waits ∧ ∃ next, commander.execute observers = .ok next
    | _ => True

/-- Only the maker of the commander comes to sleep. -/
def OnlyMaker (callers : ℕ → Caller) : Prop :=
  ∀ client, callers client = .settling ∨ callers client = .blocked → client = maker

/-- What holds along a run. -/
structure Commander.Accurate (commander : Commander W S) : Prop where
  exact : commander.CountExact
  wakes : commander.Wakes
  onlyMaker : OnlyMaker commander.callers

theorem OnlyMaker.update {callers : ℕ → Caller} (honly : OnlyMaker callers)
    {client : ℕ} {caller : Caller}
    (hmaker : caller = .settling ∨ caller = .blocked → client = maker) :
    OnlyMaker (Function.update callers client caller) := by
  intro other hother
  by_cases hsame : other = client
  · subst hsame
    simp only [Function.update_self] at hother
    exact hmaker hother
  · simp only [Function.update_of_ne hsame] at hother
    exact honly other hother

section Steps

variable {observers : Observers W} {commander next : Commander W S}
  {client : ℕ}

section

variable (haccurate : commander.Accurate)

include haccurate

theorem Commander.Accurate.update {caller : Caller}
    (hblocked : caller = .blocked → commander.numSynchronousCommands ≠ 0)
    (hmaker : caller = .settling ∨ caller = .blocked → client = maker) :
    { commander with
      callers := Function.update commander.callers client caller }.Accurate := by
  refine ⟨haccurate.exact, fun other hother => ?_, haccurate.onlyMaker.update hmaker⟩
  by_cases hsame : other = client
  · subst hsame
    exact hblocked ((Function.update_self _ _ _).symm.trans hother)
  · exact haccurate.wakes other ((Function.update_of_ne hsame _ _).symm.trans hother)

theorem accurate_call_iff (call : ClientCall W S) :
    (commander.call client call).Accurate ↔ (commander.callers client = .free →
        commander.numWaiting + call.requests.countP Request.waits < 2 ^ 32) := by
  by_cases hfree : commander.callers client = .free
  · obtain ⟨hpending, hcount⟩ := call_eq hfree call
    have hexact : (commander.call client call).CountExact ↔
        commander.numWaiting + call.requests.countP Request.waits < 2 ^ 32 := by
      have hbefore := haccurate.exact
      rw [Commander.CountExact] at hbefore ⊢
      rw [Commander.numWaiting, hpending, hcount, List.countP_append,
        UInt32.toNat_add, UInt32.toNat_ofNat', Nat.add_mod_mod, hbefore]
      change (commander.numWaiting + _) % 2 ^ 32 = commander.numWaiting + _ ↔ _
      exact Nat.mod_eq_iff_lt (by decide)
    constructor
    · exact fun hafter _ => hexact.mp hafter.exact
    · intro hroom
      have hcallers : (commander.call client call).callers =
          Function.update commander.callers client (if call.looks then .looking else .free) := by
        rw [Commander.call, if_pos hfree]
      have hafter := @Commander.Accurate.update _ _ _ client haccurate
        (if call.looks then .looking else .free)
        (by split <;> exact nofun) (by split <;> exact nofun)
      refine ⟨hexact.mpr (hroom hfree), fun other hother => ?_, fun other hother => ?_⟩
      · rw [hcallers] at hother
        have hbefore := hafter.wakes other hother
        have hafterExact := hexact.mpr (hroom hfree)
        have hbeforeExact := haccurate.exact
        rw [Commander.CountExact, Commander.numWaiting] at hafterExact
        rw [Commander.CountExact, Commander.numWaiting] at hbeforeExact
        rw [hpending, List.countP_append] at hafterExact
        rw [ne_eq, ← UInt32.toNat_inj] at hbefore ⊢
        change commander.numSynchronousCommands.toNat ≠ 0 at hbefore
        change (commander.call client call).numSynchronousCommands.toNat ≠ 0
        omega
      · rw [hcallers] at hother
        exact hafter.onlyMaker other hother
  · rw [Commander.call, if_neg hfree]
    exact ⟨fun _ hother => absurd hother hfree, fun _ => haccurate⟩

theorem look_accurate_iff : (∃ next, commander.look client = .ok next ∧ next.Accurate) ↔
      (Step.look client).OwnsLock commander := by
  rw [Commander.look, Step.OwnsLock]
  by_cases hlooking : commander.callers client = .looking
  · by_cases hzero : commander.numSynchronousCommands = 0
    · rw [if_pos hlooking, if_pos hzero]
      exact ⟨fun _ _ => .inl hzero, fun _ =>
        ⟨_, rfl, haccurate.update nofun nofun⟩⟩
    · by_cases hmaker : client = maker
      · rw [if_pos hlooking, if_neg hzero, if_pos hmaker]
        exact ⟨fun _ _ => .inr hmaker, fun _ =>
          ⟨_, rfl, haccurate.update nofun fun _ => hmaker⟩⟩
      · rw [if_pos hlooking, if_neg hzero, if_neg hmaker]
        constructor
        · rintro ⟨next, ⟨⟩, -⟩
        · intro howns
          exact absurd (howns hlooking) (not_or.mpr ⟨hzero, hmaker⟩)
  · rw [if_neg hlooking]
    exact ⟨fun _ hother => absurd hother hlooking, fun _ =>
      ⟨_, rfl, haccurate⟩⟩

theorem block_accurate_iff :
    (commander.block client).Accurate ↔ (commander.callers client = .settling →
        commander.numSynchronousCommands ≠ 0) := by
  rw [Commander.block]
  by_cases hsettling : commander.callers client = .settling
  · rw [if_pos hsettling]
    constructor
    · exact fun hafter _ => hafter.wakes client (Function.update_self _ _ _)
    · exact fun hne => haccurate.update (fun _ => hne hsettling)
        fun _ => haccurate.onlyMaker client (.inl hsettling)
  · rw [if_neg hsettling]
    exact ⟨fun _ hother => absurd hother hsettling, fun _ => haccurate⟩

end

theorem dequeue_ok_iff (commander : Commander W S) : (∃ next, commander.dequeue = .ok next) ↔
      (Step.dequeue : Step W S).OwnsLock commander := by
  rw [Commander.dequeue, Step.OwnsLock]
  cases hexecuting : commander.executing <;>
    cases hrunning : commander.keepRunning <;>
    cases hasleep : commander.asleep <;>
    by_cases htodo : commander.todoBuffer = [] <;>
    cases howns : commander.ownsLock <;> simp [htodo]

theorem accurate_dequeue (haccurate : commander.Accurate)
    (hdequeue : commander.dequeue = .ok next) : next.Accurate := by
  obtain ⟨hpending, hcount, hcallers⟩ := dequeue_eq hdequeue
  obtain ⟨hexact, hwakes, hmaker⟩ := haccurate
  rw [Commander.CountExact, Commander.numWaiting] at hexact
  refine ⟨?_, ?_, ?_⟩
  · rw [Commander.CountExact, Commander.numWaiting, hpending, hcount]
    exact hexact
  · rw [Commander.Wakes, hcallers, hcount]
    exact hwakes
  · rw [hcallers]
    exact hmaker

/-- Executing a request keeps the counter exact if and only if the request is
counted down as it was counted up. -/
theorem accurate_execute_iff {request : Request W S} (haccurate : commander.Accurate)
    (hexecuting : commander.executing = some request)
    (hexecute : commander.execute observers = .ok next) :
    next.Accurate ↔ request.entry.isSynchronous = request.waits := by
  have hlt := commander.numSynchronousCommands.toNat_lt
  have hexact := haccurate.exact
  rw [Commander.CountExact] at hexact
  obtain ⟨hpending, hcount, hcallers⟩ := execute_some hexecuting hexecute
  have hwaiting : commander.numWaiting = (if request.waits then 1 else 0) +
      commander.todoBuffer.countP Request.waits := by
    rw [Commander.numWaiting, Commander.pending, hexecuting, List.countP_append]
    congr 1
    simp
  have hsub : (commander.numSynchronousCommands - 1).toNat =
      (2 ^ 32 - 1 + commander.numSynchronousCommands.toNat) % 2 ^ 32 :=
    UInt32.toNat_sub _ _
  have hcounts : next.CountExact ↔ request.entry.isSynchronous = request.waits := by
    rw [Commander.CountExact, Commander.numWaiting, hpending, hcount]
    cases request.entry.isSynchronous <;> cases hwaits : request.waits <;>
      simp only [hwaits, if_true, Bool.false_eq_true, if_false, reduceCtorEq,
        iff_true, iff_false] at hwaiting ⊢ <;> omega
  refine ⟨fun hafter => hcounts.mp hafter.exact, fun hsame =>
    ⟨hcounts.mpr hsame, fun client hblocked => ?_, ?_⟩⟩
  · cases hsynchronous : request.entry.isSynchronous with
    | false =>
        rw [hcallers, hsynchronous] at hblocked
        rw [hcount, hsynchronous]
        exact haccurate.wakes client hblocked
    | true =>
        -- The notified caller is the only one that can be asleep.
        rw [hcallers, hsynchronous, Bool.true_and] at hblocked
        split at hblocked
        · by_cases hmaker : client = maker
          · rw [hmaker, Function.update_self] at hblocked
            cases hblocked
          · rw [Function.update_of_ne hmaker] at hblocked
            exact absurd (haccurate.onlyMaker client (.inr hblocked)) hmaker
        · rename_i hawake
          cases haccurate.onlyMaker client (.inr hblocked)
          simp [hblocked] at hawake
  · rw [hcallers]
    split
    · exact haccurate.onlyMaker.update nofun
    · exact haccurate.onlyMaker

/-- A step returns and keeps the counter exact and the callers awake if and only
if it meets its condition. -/
theorem accurate_step_iff (step : Step W S) (haccurate : commander.Accurate) :
    (∃ next, commander.step observers step = .ok next ∧ next.Accurate) ↔
      step.MeetsCount observers commander := by
  cases step with
  | call client call =>
      simp only [Commander.step, Except.ok.injEq, exists_eq_left',
        accurate_call_iff haccurate, Step.MeetsCount, Step.OwnsLock, true_and]
  | look client =>
      simp only [Commander.step, look_accurate_iff haccurate, Step.MeetsCount, and_true]
  | block client =>
      simp only [Commander.step, Except.ok.injEq, exists_eq_left',
        block_accurate_iff haccurate, Step.MeetsCount, Step.OwnsLock, true_and]
  | dequeue =>
      simp only [Commander.step, Step.MeetsCount, and_true, ← dequeue_ok_iff]
      constructor
      · rintro ⟨next, hnext, -⟩
        exact ⟨next, hnext⟩
      · rintro ⟨next, hnext⟩
        exact ⟨next, hnext, accurate_dequeue haccurate hnext⟩
  | execute =>
      simp only [Commander.step, Step.MeetsCount, Step.OwnsLock, true_and]
      constructor
      · rintro ⟨next, hnext, hafter⟩ request hexecuting
        exact ⟨(accurate_execute_iff haccurate hexecuting hnext).mp hafter,
          next, hnext⟩
      · intro hmeets
        cases hexecuting : commander.executing with
        | none =>
            refine ⟨commander, ?_, haccurate⟩
            simp only [Commander.execute, hexecuting]
        | some request =>
            obtain ⟨hsame, next, hnext⟩ := hmeets request hexecuting
            exact ⟨next, hnext, (accurate_execute_iff haccurate hexecuting hnext).mpr hsame⟩

end Steps

theorem accurate_started (running : Running W S) : (Commander.started running).Accurate :=
  ⟨rfl, nofun, nofun⟩

theorem onlyMaker_step {observers : Observers W} {commander next : Commander W S}
    (honly : OnlyMaker commander.callers) (step : Step W S)
    (hstep : commander.step observers step = .ok next) :
    OnlyMaker next.callers := by
  cases step with
  | call client call =>
      cases hstep
      rw [Commander.call]
      split
      · exact honly.update (by split <;> exact nofun)
      · exact honly
  | look client =>
      simp only [Commander.step, Commander.look] at hstep
      split at hstep
      · split at hstep
        · cases hstep
          exact honly.update nofun
        · split at hstep
          · cases hstep
            exact honly.update fun _ => ‹client = maker›
          · cases hstep
      · cases hstep
        exact honly
  | block client =>
      cases hstep
      rw [Commander.block]
      split
      · rename_i hsettling
        exact honly.update fun _ => honly client (.inl hsettling)
      · exact honly
  | dequeue =>
      rw [(dequeue_eq hstep).2.2]
      exact honly
  | execute =>
      cases hexecuting : commander.executing with
      | none =>
          simp only [Commander.step, Commander.execute, hexecuting] at hstep
          cases hstep
          exact honly
      | some request =>
          rw [(execute_some hexecuting hstep).2.2]
          split
          · exact honly.update nofun
          · exact honly

/-- A run goes on with an exact counter and callers that are woken if and only
if every step meets its condition. -/
theorem countsExactly_iff_meets (observers : Observers W)
    (running : Running W S) (steps : List (Step W S)) :
    CountsExactly observers running steps ↔ Fault.MeetsAlong (Commander.step observers)
        (fun commander step => step.MeetsCount observers commander)
        (Commander.started running) steps := by
  rw [← Fault.MeetsAlong.iff_reached (fun _ step haccurate => accurate_step_iff step haccurate)
    (accurate_started running)]
  constructor
  · intro hcounts done rest hsplit
    obtain ⟨commander, hrun⟩ := hcounts.continues done rest hsplit
    have hexact := hcounts.exact done rest commander hsplit hrun
    refine ⟨commander, hrun, hexact, fun client hblocked hzero => ?_, ?_⟩
    · obtain ⟨request, hmem, hwaits⟩ :=
        hcounts.woken done rest commander client hsplit hrun hblocked
      rw [Commander.CountExact, hzero] at hexact
      exact absurd hwaits (List.countP_eq_zero.mp hexact.symm request hmem)
    · exact Fault.foldlM_invariant (fun state => OnlyMaker state.callers)
        (accurate_started running).onlyMaker
        (fun _ step _ _ honly hstep => onlyMaker_step honly step hstep) hrun
  · intro hreached
    have haccurate : ∀ done rest commander, steps = done ++ rest →
        runCommander observers running done = .ok commander →
          commander.Accurate := by
      intro done rest commander hsplit hrun
      obtain ⟨reached, hother, haccurate⟩ := hreached done rest hsplit
      cases hother.symm.trans hrun
      exact haccurate
    have hzero : ∀ commander : Commander W S, commander.CountExact →
        (commander.numSynchronousCommands = 0 ↔
          ∀ request ∈ commander.pending, request.waits = false) := by
      intro commander hexact
      rw [Commander.CountExact] at hexact
      rw [← UInt32.toNat_inj, hexact, Commander.numWaiting]
      change List.countP _ _ = 0 ↔ _
      simp [List.countP_eq_zero]
    refine ⟨?_, ?_, ?_, ?_, ?_⟩
    · intro done rest hsplit
      obtain ⟨commander, hrun, -⟩ := hreached done rest hsplit
      exact ⟨commander, hrun⟩
    · intro done rest commander hsplit hrun
      exact (haccurate done rest commander hsplit hrun).exact
    · intro done rest commander client next hsplit hrun hlooking hnext
      rw [← hzero commander (haccurate done _ commander hsplit hrun).exact]
      rw [Commander.look, if_pos hlooking] at hnext
      split at hnext
      · cases hnext
        simpa using ‹commander.numSynchronousCommands = 0›
      · split at hnext <;> cases hnext
        simpa using ‹¬ commander.numSynchronousCommands = 0›
    · intro done rest commander client hsplit hrun hblocked
      have hcommander := haccurate done rest commander hsplit hrun
      by_contra hnone
      refine hcommander.wakes client hblocked
        ((hzero commander hcommander.exact).mpr fun request hmem => ?_)
      exact Bool.eq_false_iff.mpr fun hwaits => hnone ⟨request, hmem, hwaits⟩
    · intro done rest commander request next hsplit hrun hrequest hnext hsync
      have hcommander := haccurate done _ commander hsplit hrun
      have hafter : next.Accurate := by
        refine haccurate (done ++ [.execute]) rest next (by simp [hsplit]) ?_
        rw [runCommander, List.foldlM_append, Fault.bind_eq_ok_iff]
        exact ⟨commander, hrun, by
          rw [List.foldlM_cons, Commander.step, hnext]
          rfl⟩
      have hwaits := (accurate_execute_iff hcommander hrequest hnext).mp hafter
      have hcount := hcommander.exact
      rw [Commander.CountExact, Commander.numWaiting, Commander.pending,
        hrequest, List.countP_append] at hcount
      have hone : (some request).toList.countP Request.waits = 1 := by
        simp [← hwaits, hsync]
      rw [hcount, hone]
      exact Nat.add_pos_left Nat.one_pos _

/-- A synchronous ACID command is executed, and its caller still waits. -/
theorem acid_not_counted_down : ¬ CountsExactly noObservers ⟨(), []⟩
      [.call maker (.doAcid [addition ['a']] 0 false), .dequeue, .execute] := by
  intro hcounts
  have hrun : ∃ commander, runCommander noObservers ⟨(), []⟩
      [.call maker (.doAcid [addition ['a']] 0 false), .dequeue, .execute] =
        .ok commander ∧ commander.numSynchronousCommands.toNat = 1 ∧
          commander.pending = [] := ⟨_, rfl, rfl, rfl⟩
  obtain ⟨commander, hcommander, hone, hnone⟩ := hrun
  have hexact := hcounts.exact _ [] commander (List.append_nil _).symm hcommander
  rw [Commander.CountExact, Commander.numWaiting, hone, hnone] at hexact
  cases hexact

end Chkdraft.Commands
