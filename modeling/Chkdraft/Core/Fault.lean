import Mathlib.Data.Nat.Notation

/-!
# Ways a call does not return

A call that does not return normally has thrown, has left the defined behaviour
of the language, or never ends.  Code that cannot throw returns in
`Except Hazard`, so that its type says so.
-/

/-- What can happen besides returning and throwing. -/
inductive Hazard where
  | undefinedBehavior
  | endlessLoop
deriving DecidableEq, Repr

/-- Why a call that may also throw did not return. -/
inductive Fault (E : Type) where
  | thrown (exception : E)
  | hazard (hazard : Hazard)
deriving DecidableEq, Repr

namespace Fault

variable {E A B : Type}

/-- A call that cannot throw, seen as one that may. -/
def ofHazard (result : Except Hazard A) : Except (Fault E) A := result.mapError Fault.hazard

@[simp]
theorem ofHazard_ok (value : A) : (ofHazard (.ok value) : Except (Fault E) A) = .ok value := rfl

@[simp]
theorem ofHazard_error (hazard : Hazard) :
    (ofHazard (.error hazard) : Except (Fault E) A) = .error (.hazard hazard) :=
  rfl

theorem ofHazard_eq_ok_iff {result : Except Hazard A} {value : A} :
    (ofHazard result : Except (Fault E) A) = .ok value ↔ result = .ok value := by
  cases result <;> simp

theorem bind_eq_ok_iff {first : Except E A} {rest : A → Except E B}
    {value : B} :
    (first >>= rest) = .ok value ↔ ∃ middle, first = .ok middle ∧ rest middle = .ok value := by
  cases first with
  | error error =>
      constructor
      · intro heq
        cases heq
      · rintro ⟨middle, hfirst, -⟩
        cases hfirst
  | ok middle =>
      constructor
      · intro heq
        exact ⟨middle, rfl, heq⟩
      · rintro ⟨other, hfirst, hrest⟩
        cases hfirst
        exact hrest

theorem foldlM_invariant {S : Type} (Inv : S → Prop)
    {step : S → A → Except E S} {items : List A} {start final : S}
    (hstart : Inv start)
    (hstep : ∀ state item following, item ∈ items → Inv state →
      step state item = .ok following → Inv following)
    (hrun : items.foldlM step start = .ok final) : Inv final := by
  induction items generalizing start with
  | nil =>
      cases hrun
      exact hstart
  | cons item rest ih =>
      rw [List.foldlM_cons, bind_eq_ok_iff] at hrun
      obtain ⟨middle, hitem, hrest⟩ := hrun
      apply ih (hstep start item middle List.mem_cons_self hstart hitem) _ hrest
      intro state other following hmem
      exact hstep state other following (List.mem_cons_of_mem item hmem)

/-- A loop with a round that fails in every state does not return. -/
theorem foldlM_ne_ok {S : Type} {step : S → A → Except E S} {items : List A}
    {item : A} (hmem : item ∈ items)
    (hfails : ∀ state following, step state item ≠ .ok following)
    (start final : S) : items.foldlM step start ≠ .ok final := by
  induction items generalizing start with
  | nil => cases hmem
  | cons first rest ih =>
      intro hrun
      rw [List.foldlM_cons, bind_eq_ok_iff] at hrun
      obtain ⟨middle, hfirst, hrest⟩ := hrun
      rcases List.mem_cons.mp hmem with rfl | hlater
      · exact hfails start middle hfirst
      · exact ih hlater middle hrest

/-- Every item of a run meets its condition in the state it is taken in. -/
def MeetsAlong {S : Type} (step : S → A → Except E S) (meets : S → A → Prop) : S → List A → Prop
  | _, [] => True
  | state, item :: rest => meets state item ∧
      ∀ following, step state item = .ok following → MeetsAlong step meets following rest

theorem MeetsAlong.of_append {S : Type} {step : S → A → Except E S}
    {meets : S → A → Prop} {done rest : List A} {start : S}
    (hmeets : MeetsAlong step meets start (done ++ rest)) :
    MeetsAlong step meets start done := by
  induction done generalizing start with
  | nil => trivial
  | cons item done ih =>
      exact ⟨hmeets.1, fun following hitem => ih (hmeets.2 following hitem)⟩

theorem MeetsAlong.meets_at {S : Type} {step : S → A → Except E S}
    {meets : S → A → Prop} {done rest : List A} {item : A} {start state : S}
    (hmeets : MeetsAlong step meets start (done ++ item :: rest))
    (hrun : done.foldlM step start = .ok state) : meets state item := by
  induction done generalizing start with
  | nil =>
      cases hrun
      exact hmeets.1
  | cons first done ih =>
      rw [List.foldlM_cons, bind_eq_ok_iff] at hrun
      obtain ⟨middle, hfirst, hdone⟩ := hrun
      exact ih (hmeets.2 middle hfirst) hdone

/-- A run whose items meet their conditions returns, and keeps what one step
keeps under them. -/
theorem MeetsAlong.run {S : Type} {Inv : S → Prop}
    {step : S → A → Except E S} {meets : S → A → Prop} {items : List A}
    {start : S} (hmeets : MeetsAlong step meets start items)
    (hstep : ∀ state item, Inv state → meets state item →
      ∃ following, step state item = .ok following ∧ Inv following)
    (hstart : Inv start) :
    ∃ final, items.foldlM step start = .ok final ∧ Inv final := by
  induction items generalizing start with
  | nil => exact ⟨start, rfl, hstart⟩
  | cons item rest ih =>
      obtain ⟨middle, hitem, hmiddle⟩ := hstep start item hstart hmeets.1
      obtain ⟨final, hrest, hfinal⟩ := ih (hmeets.2 middle hitem) hmiddle
      refine ⟨final, ?_, hfinal⟩
      rw [List.foldlM_cons, hitem]
      exact hrest

/-- If a step returns and keeps a property exactly under its condition, a run
gets everywhere with the property if and only if its steps meet their
conditions. -/
theorem MeetsAlong.iff_reached {S : Type} {P : S → Prop}
    {step : S → A → Except E S} {meets : S → A → Prop} {items : List A}
    {start : S}
    (hstep : ∀ state item, P state →
      ((∃ following, step state item = .ok following ∧ P following) ↔ meets state item))
    (hstart : P start) :
    (∀ done rest, items = done ++ rest → ∃ state, done.foldlM step start = .ok state ∧ P state) ↔
        MeetsAlong step meets start items := by
  constructor
  · intro hreached
    induction items generalizing start with
    | nil => trivial
    | cons item items ih =>
        obtain ⟨following, hrun, hfollowing⟩ := hreached [item] items rfl
        rw [List.foldlM_cons, bind_eq_ok_iff] at hrun
        obtain ⟨middle, hitem, ⟨⟩⟩ := hrun
        refine ⟨(hstep start item hstart).mp ⟨_, hitem, hfollowing⟩, ?_⟩
        intro other hother
        cases hitem.symm.trans hother
        refine ih hfollowing fun done rest hsplit => ?_
        obtain ⟨state, hdone, hstate⟩ := hreached (item :: done) rest (by
          rw [hsplit, List.cons_append])
        rw [List.foldlM_cons, hitem] at hdone
        exact ⟨state, hdone, hstate⟩
  · rintro hmeets done rest rfl
    exact hmeets.of_append.run (fun state item hP hmeets => (hstep state item hP).mpr hmeets) hstart

theorem map_eq_ok_iff {result : Except E A} {change : A → B} {value : B} :
    result.map change = .ok value ↔ ∃ middle, result = .ok middle ∧ change middle = value := by
  cases result <;> simp [Except.map]

theorem map_injective {change : A → B} (hinj : Function.Injective change)
    {first second : Except E A} (heq : first.map change = second.map change) :
    first = second := by
  cases first with
  | error error =>
      cases second with
      | error other => exact congrArg Except.error (Except.error.inj heq)
      | ok value => cases heq
  | ok value =>
      cases second with
      | error error => cases heq
      | ok other => exact congrArg Except.ok (hinj (Except.ok.inj heq))

theorem mapError_eq_ok_iff {F : Type} {result : Except E A} {change : E → F}
    {value : A} : result.mapError change = .ok value ↔ result = .ok value := by
  cases result <;> constructor <;> intro heq <;> cases heq <;> rfl

/-- A call returns if what is asked of its result can be evaluated. -/
theorem exists_ok_of_toOption_map {result : Except E A} {question : A → B}
    {answer : B} (heval : result.toOption.map question = some answer) :
    ∃ value, result = .ok value ∧ question value = answer := by
  cases result with
  | error error => cases heval
  | ok value => exact ⟨value, rfl, Option.some.inj heval⟩

/-- A call returns a value with a property or throws. -/
def Sound (post : A → Prop) : Except (Fault E) A → Prop
  | .ok value => post value
  | .error (.thrown _) => True
  | .error (.hazard _) => False

theorem Sound.bind {middle : A → Prop} {post : B → Prop}
    {first : Except (Fault E) A} {rest : A → Except (Fault E) B}
    (hfirst : Sound middle first)
    (hrest : ∀ value, first = .ok value → middle value →
      Sound post (rest value)) : Sound post (first >>= rest) := by
  cases first with
  | ok value => exact hrest value rfl hfirst
  | error error =>
      cases error with
      | thrown exception => trivial
      | hazard hazard => exact hfirst

theorem sound_foldlM {S : Type} (inv : S → Prop)
    {step : S → A → Except (Fault E) S} {items : List A} {start : S}
    (hstart : inv start)
    (hstep : ∀ state item, item ∈ items → inv state → Sound inv (step state item)) :
    Sound inv (items.foldlM step start) := by
  induction items generalizing start with
  | nil => exact hstart
  | cons item rest ih =>
      rw [List.foldlM_cons]
      apply (hstep start item List.mem_cons_self hstart).bind
      intro middle _ hmiddle
      apply ih hmiddle
      intro state other hmem
      exact hstep state other (List.mem_cons_of_mem item hmem)

end Fault
