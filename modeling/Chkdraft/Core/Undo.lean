import Chkdraft.Core.Fault
import Mathlib.Algebra.Order.Ring.Int
import Mathlib.Data.List.TakeDrop

/-!
# Undo and redo

An action is reversed at a content: it gives the content before, and the action
that goes back from there.  The two stacks of an editor are consistent when the
undo stack leads back to the start, and the actions undone since the last edit
lead forward.  A counter of the edits since a save is balanced when that many
actions lead to the saved content.

Actions may be reversed together as a group, and one stack may hold actions of
several types, of which only those of one type are taken at a time.
-/

namespace Undo

variable {A C E : Type} (reverse : A → C → Except E (C × A))

/-- Which action and content turn into which other action and content, and back
again. -/
structure Swapping (reverse : A → C → Except E (C × A)) where
  swaps : A → C → A → C → Prop
  reverses {action back : A} {content before : C} :
    swaps action content back before → reverse action content = .ok (before, back)
  symm {action back : A} {content before : C} :
    swaps action content back before → swaps back before action content

/-- Any two that reversing takes to each other. -/
def exactly : Swapping reverse where
  swaps action content back before :=
    reverse action content = .ok (before, back) ∧ reverse back before = .ok (content, action)
  reverses hswaps := hswaps.1
  symm hswaps := ⟨hswaps.2, hswaps.1⟩

variable {reverse} (S : Swapping reverse)

/-- Reversing actions one after the other leads from a content to another, and
each of them can be taken back. -/
inductive Leads : List A → C → C → Prop
  | nil (content : C) : Leads [] content content
  | cons {action back : A} {rest : List A} {content before last : C}
      (hswaps : S.swaps action content back before)
      (hrest : Leads rest before last) : Leads (action :: rest) content last

/-- The undo stack leads to the start, and the `fresh` actions undone since the
last edit lead on. -/
structure Consistent (undos redos : List A) (fresh : ℕ) (content start : C) : Prop where
  undone : Leads S undos content start
  fresh_le : fresh ≤ redos.length
  redone : ∃ last, Leads S (redos.take fresh) content last

/-- `count` edits ahead of the saved content, or that many undone edits
behind. -/
structure Balanced (count : ℤ) (undos redos : List A) (fresh : ℕ) (content saved : C) : Prop where
  ahead : 0 ≤ count → Leads S (undos.take count.toNat) content saved
  behind : count < 0 → (-count).toNat ≤ fresh ∧ Leads S (redos.take (-count).toNat) content saved

variable {S} {action back : A} {undos redos : List A} {fresh : ℕ}
  {content before start saved : C} {count : ℤ}

theorem leads_nil_iff : Leads S [] content before ↔ content = before := by
  constructor
  · rintro ⟨⟩
    rfl
  · rintro rfl
    exact .nil content

theorem leads_cons_iff {rest : List A} {last : C} :
    Leads S (action :: rest) content last ↔ ∃ back before,
      S.swaps action content back before ∧ Leads S rest before last := by
  constructor
  · intro hleads
    cases hleads with
    | cons hswaps hrest => exact ⟨_, _, hswaps, hrest⟩
  · rintro ⟨back, before, hswaps, hrest⟩
    exact .cons hswaps hrest

theorem Leads.append {actions others : List A} {middle last : C}
    (hfirst : Leads S actions content middle)
    (hsecond : Leads S others middle last) :
    Leads S (actions ++ others) content last := by
  induction hfirst with
  | nil => exact hsecond
  | cons hswaps _ ih => exact .cons hswaps (ih hsecond)

theorem Leads.rest {rest : List A} {last : C} (hleads : Leads S (action :: rest) content last)
    (hswaps : S.swaps action content back before) :
    Leads S rest before last := by
  obtain ⟨other, middle, hother, hrest⟩ := leads_cons_iff.mp hleads
  have hsame := (S.reverses hother).symm.trans (S.reverses hswaps)
  cases hsame
  exact hrest

theorem consistent_start (content : C) : Consistent S [] [] 0 content content :=
  ⟨.nil content, Nat.le_refl 0, content, .nil content⟩

/-- An edit that can be taken back; what was undone before it is stale. -/
theorem Consistent.edit (hstacks : Consistent S undos redos fresh before start)
    (hswaps : S.swaps action content back before) :
    Consistent S (action :: undos) redos 0 content start :=
  ⟨.cons hswaps hstacks.undone, Nat.zero_le _, content, .nil content⟩

theorem Consistent.undoes (hstacks : Consistent S (action :: undos) redos fresh content start) :
    ∃ back before, S.swaps action content back before := by
  obtain ⟨back, before, hswaps, -⟩ := leads_cons_iff.mp hstacks.undone
  exact ⟨back, before, hswaps⟩

theorem Consistent.undo (hstacks : Consistent S (action :: undos) redos fresh content start)
    (hswaps : S.swaps action content back before) :
    Consistent S undos (back :: redos) (fresh + 1) before start := by
  obtain ⟨last, hlast⟩ := hstacks.redone
  refine ⟨hstacks.undone.rest hswaps, Nat.succ_le_succ hstacks.fresh_le, last, ?_⟩
  rw [List.take_succ_cons]
  exact .cons (S.symm hswaps) hlast

theorem Consistent.redoes
    (hstacks : Consistent S undos (action :: redos) (fresh + 1) content start) :
    ∃ back after, S.swaps action content back after := by
  obtain ⟨last, hlast⟩ := hstacks.redone
  rw [List.take_succ_cons] at hlast
  obtain ⟨back, after, hswaps, -⟩ := leads_cons_iff.mp hlast
  exact ⟨back, after, hswaps⟩

theorem Consistent.redo {after : C}
    (hstacks : Consistent S undos (action :: redos) (fresh + 1) content start)
    (hswaps : S.swaps action content back after) :
    Consistent S (back :: undos) redos fresh after start := by
  obtain ⟨last, hlast⟩ := hstacks.redone
  rw [List.take_succ_cons] at hlast
  exact ⟨.cons (S.symm hswaps) hstacks.undone,
    Nat.le_of_succ_le_succ hstacks.fresh_le, last, hlast.rest hswaps⟩

theorem balanced_zero_iff : Balanced S 0 undos redos fresh content saved ↔ content = saved := by
  rw [← @leads_nil_iff A C E reverse S]
  constructor
  · intro hbalanced
    exact hbalanced.ahead (Int.le_refl 0)
  · intro hleads
    exact ⟨fun _ => hleads, fun hneg => absurd hneg (Int.lt_irrefl 0)⟩

theorem Balanced.edit (hcount : 0 ≤ count)
    (hbalanced : Balanced S count undos redos fresh before saved)
    (hswaps : S.swaps action content back before) :
    Balanced S (count + 1) (action :: undos) redos 0 content saved := by
  refine ⟨fun _ => ?_, fun hneg => by omega⟩
  have hsucc : (count + 1).toNat = count.toNat + 1 := by omega
  rw [hsucc, List.take_succ_cons]
  exact .cons hswaps (hbalanced.ahead hcount)

theorem Balanced.undo (hbalanced : Balanced S count (action :: undos) redos fresh content saved)
    (hswaps : S.swaps action content back before) :
    Balanced S (count - 1) undos (back :: redos) (fresh + 1) before
      saved := by
  rcases Int.lt_trichotomy count 0 with hneg | rfl | hpos
  · obtain ⟨hfresh, hleads⟩ := hbalanced.behind hneg
    have hsucc : (-(count - 1)).toNat = (-count).toNat + 1 := by omega
    refine ⟨fun hle => by omega, fun _ => ⟨by omega, ?_⟩⟩
    rw [hsucc, List.take_succ_cons]
    exact .cons (S.symm hswaps) hleads
  · have hsaved := balanced_zero_iff.mp hbalanced
    subst hsaved
    exact ⟨fun hle => by omega, fun _ => ⟨by omega, .cons (S.symm hswaps) (.nil content)⟩⟩
  · have hleads := hbalanced.ahead hpos.le
    have hsucc : count.toNat = (count - 1).toNat + 1 := by omega
    rw [hsucc, List.take_succ_cons] at hleads
    exact ⟨fun _ => hleads.rest hswaps, fun hneg => by omega⟩

theorem Balanced.redo {after : C}
    (hbalanced : Balanced S count undos (action :: redos) (fresh + 1) content saved)
    (hswaps : S.swaps action content back after) :
    Balanced S (count + 1) (back :: undos) redos fresh after saved := by
  rcases lt_or_ge count 0 with hneg | hpos
  · obtain ⟨hfresh, hleads⟩ := hbalanced.behind hneg
    have hsucc : (-count).toNat = (-(count + 1)).toNat + 1 := by omega
    rw [hsucc, List.take_succ_cons] at hleads
    have hrest := hleads.rest hswaps
    refine ⟨fun hle => ?_, fun _ => ⟨by omega, hrest⟩⟩
    have hzero : (-(count + 1)).toNat = 0 ∧ (count + 1).toNat = 0 := by omega
    rw [hzero.1] at hrest
    rw [hzero.2]
    exact hrest
  · have hsucc : (count + 1).toNat = count.toNat + 1 := by omega
    refine ⟨fun _ => ?_, fun hneg => by omega⟩
    rw [hsucc, List.take_succ_cons]
    exact .cons (S.symm hswaps) (hbalanced.ahead hpos)

variable (reverse) in
/-- Reverse actions one after the other, each in its place. -/
def reverseAll : List A → C → Except E (C × List A)
  | [], content => .ok (content, [])
  | action :: rest, content => do
      let (content, action) ← reverse action content
      let (content, rest) ← reverseAll rest content
      return (content, action :: rest)

variable (S) in
/-- Edits from one content to another, with what was recorded for each of them
and what it turns into. -/
inductive Recorded : List A → List A → C → C → Prop
  | nil (content : C) : Recorded [] [] content content
  | cons {action back : A} {actions backs : List A} {before middle after : C}
      (hswaps : S.swaps action middle back before)
      (hrest : Recorded actions backs middle after) :
      Recorded (action :: actions) (back :: backs) before after

theorem reverseAll_cons {rest backs : List A} {middle after : C}
    (hfirst : reverse action content = .ok (middle, back))
    (hrest : reverseAll reverse rest middle = .ok (after, backs)) :
    reverseAll reverse (action :: rest) content = .ok (after, back :: backs) := by
  rw [reverseAll, hfirst]
  change (reverseAll reverse rest middle >>= _) = _
  rw [hrest]
  rfl

theorem reverseAll_append {actions others backs turned : List A}
    {middle after : C}
    (hfirst : reverseAll reverse actions content = .ok (middle, backs))
    (hsecond : reverseAll reverse others middle = .ok (after, turned)) :
    reverseAll reverse (actions ++ others) content = .ok (after, backs ++ turned) := by
  induction actions generalizing content backs with
  | nil =>
      cases hfirst
      exact hsecond
  | cons action rest ih =>
      simp only [reverseAll, Fault.bind_eq_ok_iff] at hfirst
      obtain ⟨⟨next, back⟩, haction, ⟨last, restBacks⟩, hrest, heq⟩ := hfirst
      cases heq
      exact reverseAll_cons haction (ih hrest)

/-- What the actions turned into leads forward, the first action first. -/
theorem Recorded.forward {actions backs : List A} {after : C}
    (hrecorded : Recorded S actions backs before after) :
    reverseAll reverse backs before = .ok (after, actions) := by
  induction hrecorded with
  | nil content => rfl
  | cons hswaps hrest ih => exact reverseAll_cons (S.reverses (S.symm hswaps)) ih

theorem Recorded.backward {actions backs : List A} {after : C}
    (hrecorded : Recorded S actions backs before after) :
    reverseAll reverse actions.reverse after = .ok (before, backs.reverse) := by
  induction hrecorded with
  | nil content => rfl
  | cons hswaps hrest ih =>
      rw [List.reverse_cons, List.reverse_cons]
      exact reverseAll_append ih (reverseAll_cons (S.reverses hswaps) rfl)

theorem Recorded.append {actions backs others turned : List A}
    {middle after : C}
    (hfirst : Recorded S actions backs before middle)
    (hsecond : Recorded S others turned middle after) :
    Recorded S (actions ++ others) (backs ++ turned) before after := by
  induction hfirst with
  | nil content => exact hsecond
  | cons hswaps hrest ih => exact .cons hswaps (ih hsecond)

section Typed

variable {K : Type} [DecidableEq K] {Action : K → Type}

/-- The actions of one type, in their order. -/
def ofType (type : K) : List (Σ type, Action type) → List (Action type)
  | [] => []
  | ⟨other, action⟩ :: rest =>
      if hother : other = type then
        (hother ▸ action) :: ofType type rest
      else
        ofType type rest

def pop (type : K) : List (Σ type, Action type) → Option (Action type × List (Σ type, Action type))
  | [] => none
  | ⟨other, action⟩ :: rest =>
      if hother : other = type then
        some (hother ▸ action, rest)
      else
        (pop type rest).map fun (found, rest) =>
          (found, ⟨other, action⟩ :: rest)

@[simp]
theorem ofType_nil (type : K) : ofType type ([] : List (Σ type, Action type)) = [] := rfl

@[simp]
theorem ofType_cons_self {type : K} (action : Action type) (stack : List (Σ type, Action type)) :
    ofType type (⟨type, action⟩ :: stack) = action :: ofType type stack := by
  simp [ofType]

theorem forall_ofType_cons {type : K} {P : Action type → Prop}
    {action : Action type} {stack : List (Σ type, Action type)}
    (haction : P action) (hstack : ∀ other ∈ ofType type stack, P other) :
    ∀ other ∈ ofType type (⟨type, action⟩ :: stack), P other := by
  rw [ofType_cons_self, List.forall_mem_cons]
  exact ⟨haction, hstack⟩

theorem ofType_cons_of_ne {type other : K} (hother : other ≠ type)
    (action : Action other) (stack : List (Σ type, Action type)) :
    ofType type (⟨other, action⟩ :: stack) = ofType type stack := by
  simp [ofType, hother]

@[simp]
theorem pop_cons_self {type : K} (action : Action type) (stack : List (Σ type, Action type)) :
    pop type (⟨type, action⟩ :: stack) = some (action, stack) := by
  simp [pop]

theorem pop_eq_none_iff {type : K} {stack : List (Σ type, Action type)} :
    pop type stack = none ↔ ofType type stack = [] := by
  induction stack with
  | nil => simp [pop]
  | cons entry rest ih =>
      obtain ⟨other, action⟩ := entry
      by_cases hother : other = type
      · subst hother
        simp [pop]
      · simp [pop, hother, ofType_cons_of_ne hother, ih]

/-- The action taken is the first of its type, and the others stay. -/
theorem ofType_of_pop {type : K} {stack rest : List (Σ type, Action type)}
    {action : Action type} (hpop : pop type stack = some (action, rest)) :
    ofType type stack = action :: ofType type rest ∧
      ∀ other ≠ type, ofType other rest = ofType other stack := by
  induction stack generalizing rest with
  | nil => cases hpop
  | cons entry stack ih =>
      obtain ⟨first, firstAction⟩ := entry
      by_cases hfirst : first = type
      · subst hfirst
        simp only [pop, ↓reduceDIte, Option.some.injEq, Prod.mk.injEq] at hpop
        obtain ⟨rfl, rfl⟩ := hpop
        refine ⟨ofType_cons_self _ _, fun other hother => ?_⟩
        rw [ofType_cons_of_ne hother.symm]
      · simp only [pop, hfirst, ↓reduceDIte, Option.map_eq_some_iff, Prod.mk.injEq] at hpop
        obtain ⟨⟨found, others⟩, hrest, rfl, rfl⟩ := hpop
        obtain ⟨hsame, hkept⟩ := ih hrest
        rw [ofType_cons_of_ne hfirst, ofType_cons_of_ne hfirst]
        refine ⟨hsame, fun other hother => ?_⟩
        simp only [ofType, hkept other hother]

end Typed

end Undo
