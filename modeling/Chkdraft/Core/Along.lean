import Mathlib.Data.Nat.Notation

/-!
# Properties along a run

A run applies the items of a list to a state one after the other.  What holds of
every item in the state it is applied to is compared step by step: two
properties that agree in the states reached agree along the run.
-/

/-- What one item of a run establishes and all others keep holds in the end. -/
theorem foldl_of_mem {S A : Type} {step : S → A → S} {P : S → Prop}
    {items : List A} {item : A} (hmem : item ∈ items)
    (hitem : ∀ state, P (step state item))
    (hkeep : ∀ state other, P state → P (step state other)) (start : S) :
    P (items.foldl step start) := by
  induction items generalizing start with
  | nil => cases hmem
  | cons first rest ih =>
      rw [List.foldl_cons]
      rcases List.mem_cons.mp hmem with rfl | hlater
      · exact List.foldlRecOn rest step (hitem start)
          fun state hstate other _ => hkeep state other hstate
      · exact ih hlater (step start first)

/-- Every item of a run has the property in the state it is applied to. -/
def Along {S A : Type} (step : S → A → S) (P : S → A → Prop) : S → List A → Prop
  | _, [] => True
  | state, item :: rest => P state item ∧ Along step P (step state item) rest

namespace Along

variable {S A : Type} {step : S → A → S} {P Q : S → A → Prop} {Inv : S → Prop}

/-- Two properties that agree where an invariant holds, which the items with
these properties keep. -/
theorem congr {start : S} {items : List A}
    (hiff : ∀ state item, Inv state → (P state item ↔ Q state item))
    (hstep : ∀ state item, Inv state → Q state item → Inv (step state item))
    (hstart : Inv start) :
    Along step P start items ↔ Along step Q start items := by
  induction items generalizing start with
  | nil => exact Iff.rfl
  | cons item rest ih =>
      constructor
      · rintro ⟨hitem, hrest⟩
        have hmeets := (hiff start item hstart).mp hitem
        exact ⟨hmeets, (ih (hstep start item hstart hmeets)).mp hrest⟩
      · rintro ⟨hmeets, hrest⟩
        exact ⟨(hiff start item hstart).mpr hmeets, (ih (hstep start item hstart hmeets)).mpr hrest⟩

end Along
