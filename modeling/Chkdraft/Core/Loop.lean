import Mathlib.Data.Fintype.Pigeonhole

/-!
# Loops with an exit

A `do … while` body maps the state at the start of a pass either to the state
of the next pass or to the value the loop leaves with.  Returning a value is
stated with fuel; two runs that return agree.  When the body's control flow is
decided by a position in a finite range, the loop returns exactly when no
position is visited twice.
-/

namespace Loop

variable {early fuel late : ℕ}

variable {S R P : Type*}

/-- What one pass of a loop body does. -/
inductive Control (S R : Type*) where
  | next (state : S)
  | done (result : R)

/-- The value the loop leaves with, if `fuel` passes are enough. -/
def run (body : S → Control S R) : ℕ → S → Option R
  | 0, _ => none
  | fuel + 1, state =>
      match body state with
      | .next following => run body fuel following
      | .done result => some result

/-- The loop leaves with `result`. -/
def Returns (body : S → Control S R) (state : S) (result : R) : Prop :=
  ∃ fuel, run body fuel state = some result

/-- The loop performs finitely many passes. -/
def Terminates (body : S → Control S R) (state : S) : Prop := ∃ result, Returns body state result

theorem run_add {body : S → Control S R} {state : S} {result : R}
    (hrun : run body fuel state = some result) (extra : ℕ) :
    run body (fuel + extra) state = some result := by
  induction fuel generalizing state with
  | zero => simp [run] at hrun
  | succ fuel ih =>
      rw [Nat.add_right_comm]
      cases hbody : body state with
      | next following =>
          simp only [run, hbody] at hrun ⊢
          exact ih hrun
      | done value =>
          simp only [run, hbody] at hrun ⊢
          exact hrun

theorem Returns.unique {body : S → Control S R} {state : S} {left right : R}
    (hleft : Returns body state left) (hright : Returns body state right) :
    left = right := by
  rcases hleft with ⟨leftFuel, hleft⟩
  rcases hright with ⟨rightFuel, hright⟩
  have hlong := run_add hleft rightFuel
  have hlong' := run_add hright leftFuel
  rw [Nat.add_comm] at hlong'
  exact Option.some.inj (hlong.symm.trans hlong')

theorem returns_of_done {body : S → Control S R} {state : S} {result : R}
    (hbody : body state = .done result) : Returns body state result :=
  ⟨1, by simp [run, hbody]⟩

theorem returns_next_iff {body : S → Control S R} {state following : S}
    {result : R} (hbody : body state = .next following) :
    Returns body state result ↔ Returns body following result := by
  constructor
  · rintro ⟨fuel, hrun⟩
    cases fuel with
    | zero => simp [run] at hrun
    | succ fuel => exact ⟨fuel, by simpa [run, hbody] using hrun⟩
  · rintro ⟨fuel, hrun⟩
    exact ⟨fuel + 1, by simpa [run, hbody] using hrun⟩

/-- The states at the start of a pass. -/
inductive Reaches (body : S → Control S R) (start : S) : S → Prop where
  | start : Reaches body start start
  | next {state following : S} (hreaches : Reaches body start state)
      (hbody : body state = .next following) : Reaches body start following

/-- What holds at the start and is kept by every pass holds in every state. -/
theorem Reaches.invariant {body : S → Control S R} {start state : S}
    {Inv : S → Prop} (hreaches : Reaches body start state)
    (hstart : Inv start)
    (hstep : ∀ state following, Inv state → body state = .next following →
      Inv following) : Inv state := by
  induction hreaches with
  | start => exact hstart
  | next _ hbody ih => exact hstep _ _ ih hbody

theorem Reaches.returns_iff {body : S → Control S R} {start state : S}
    (hreaches : Reaches body start state) (result : R) :
    Returns body start result ↔ Returns body state result := by
  induction hreaches with
  | start => exact Iff.rfl
  | next _ hbody ih => exact ih.trans (returns_next_iff hbody)

theorem returns_iff_reaches_done {body : S → Control S R} {start : S}
    {result : R} :
    Returns body start result ↔ ∃ state, Reaches body start state ∧ body state = .done result := by
  constructor
  · rintro ⟨fuel, hrun⟩
    have hfrom : ∀ state, Reaches body start state → run body fuel state = some result →
        ∃ last, Reaches body start last ∧ body last = .done result := by
      clear hrun
      induction fuel with
      | zero => simp [run]
      | succ fuel ih =>
          intro state hreaches hrun
          cases hbody : body state with
          | next following =>
              exact ih following (hreaches.next hbody) (by simpa [run, hbody] using hrun)
          | done value =>
              have hvalue : value = result := by simpa [run, hbody] using hrun
              exact ⟨state, hreaches, hvalue ▸ hbody⟩
    exact hfrom start .start hrun
  · rintro ⟨state, hreaches, hbody⟩
    exact (hreaches.returns_iff result).mpr (returns_of_done hbody)

/-- A loop that computes its value from the state it is left in and the value
another one leaves with. -/
def mapDone {T : Type*} (leave : S → R → T) (body : S → Control S R) (state : S) : Control S T :=
  match body state with
  | .next following => .next following
  | .done result => .done (leave state result)

theorem mapDone_eq_next_iff {T : Type*} {leave : S → R → T}
    {body : S → Control S R} {state following : S} :
    mapDone leave body state = .next following ↔ body state = .next following := by
  unfold mapDone
  cases body state <;> simp

theorem mapDone_eq_done_iff {T : Type*} {leave : S → R → T}
    {body : S → Control S R} {state : S} {value : T} :
    mapDone leave body state = .done value ↔
      ∃ result, body state = .done result ∧ leave state result = value := by
  unfold mapDone
  cases body state <;> simp

theorem reaches_mapDone_iff {T : Type*} {leave : S → R → T}
    {body : S → Control S R} {start state : S} :
    Reaches (mapDone leave body) start state ↔ Reaches body start state := by
  constructor
  · intro hreaches
    induction hreaches with
    | start => exact .start
    | next _ hbody ih => exact ih.next (mapDone_eq_next_iff.mp hbody)
  · intro hreaches
    induction hreaches with
    | start => exact .start
    | next _ hbody ih => exact ih.next (mapDone_eq_next_iff.mpr hbody)

theorem returns_mapDone_iff {T : Type*} {leave : S → R → T}
    {body : S → Control S R} {start : S} {value : T} :
    Returns (mapDone leave body) start value ↔ ∃ state result, Reaches body start state ∧
        body state = .done result ∧ leave state result = value := by
  simp only [returns_iff_reaches_done, reaches_mapDone_iff, mapDone_eq_done_iff]
  constructor
  · rintro ⟨state, hreaches, result, hbody, hvalue⟩
    exact ⟨state, result, hreaches, hbody, hvalue⟩
  · rintro ⟨state, result, hreaches, hbody, hvalue⟩
    exact ⟨state, hreaches, result, hbody, hvalue⟩

/-- A measure that every pass lowers bounds the number of passes. -/
theorem run_ne_none_of_measure {body : S → Control S R} {Inv : S → Prop} (measure : S → ℕ)
    (hstep : ∀ state following, Inv state → body state = .next following →
      Inv following ∧ measure following < measure state)
    (fuel : ℕ) (state : S) (hinv : Inv state) (hfuel : measure state < fuel) :
    run body fuel state ≠ none := by
  induction fuel generalizing state with
  | zero => omega
  | succ fuel ih =>
      cases hbody : body state with
      | next following =>
          obtain ⟨hfollowing, hlt⟩ := hstep state following hinv hbody
          simp only [run, hbody]
          exact ih following hfollowing (by omega)
      | done value => simp [run, hbody]

/-- The states at the start of the first passes. -/
def trace (body : S → Control S R) : ℕ → S → List S
  | 0, _ => []
  | fuel + 1, state =>
      state :: match body state with
        | .next following => trace body fuel following
        | .done _ => []

/-- A loop that returns within its fuel has traced all states it reaches. -/
theorem mem_trace_iff {body : S → Control S R} {start state : S}
    (hrun : run body fuel start ≠ none) :
    state ∈ trace body fuel start ↔ Reaches body start state := by
  constructor
  · intro hmem
    have hfrom : ∀ current, Reaches body start current →
        state ∈ trace body fuel current → Reaches body start state := by
      clear hrun hmem
      induction fuel with
      | zero => simp [trace]
      | succ fuel ih =>
          intro current hreaches hmem
          rw [trace, List.mem_cons] at hmem
          rcases hmem with rfl | hmem
          · exact hreaches
          · cases hbody : body current with
            | next following =>
                rw [hbody] at hmem
                exact ih following (hreaches.next hbody) hmem
            | done value =>
                rw [hbody] at hmem
                cases hmem
    exact hfrom start .start hmem
  · intro hreaches
    have hstep : ∀ {fuel : ℕ} {start state following : S},
        run body fuel start ≠ none → state ∈ trace body fuel start →
        body state = .next following → following ∈ trace body fuel start := by
      intro fuel
      induction fuel with
      | zero =>
          intro start state following hrun
          exact absurd rfl hrun
      | succ fuel ih =>
          intro start state following hrun hmem hbody
          rw [trace, List.mem_cons] at hmem ⊢
          right
          cases hfirst : body start with
          | done value =>
              rw [hfirst] at hmem
              rcases hmem with rfl | hmem
              · rw [hbody] at hfirst
                cases hfirst
              · cases hmem
          | next second =>
              rw [hfirst] at hmem
              simp only [run, hfirst] at hrun
              rcases hmem with rfl | hmem
              · rw [hbody] at hfirst
                cases hfirst
                cases fuel with
                | zero => exact absurd rfl hrun
                | succ fuel => exact List.mem_cons_self
              · exact ih hrun hmem hbody
    induction hreaches with
    | start =>
        cases fuel with
        | zero => exact absurd rfl hrun
        | succ fuel => exact List.mem_cons_self
    | next _ hbody ih => exact hstep hrun ih hbody

/-- The position at the start of pass `count`, if the loop gets that far. -/
def visit (next : P → Option P) (start : P) : ℕ → Option P
  | 0 => some start
  | count + 1 => (visit next start count).bind next

theorem visit_succ' (next : P → Option P) (start : P) (count : ℕ) : visit next start (count + 1) =
      (next start).bind fun following => visit next following count := by
  induction count with
  | zero => cases hnext : next start <;> simp [visit, hnext]
  | succ count ih =>
      rw [visit, ih]
      cases hnext : next start <;> simp [visit]

theorem visit_eq_none_of_le {next : P → Option P} {start : P} (hle : early ≤ late)
    (hnone : visit next start early = none) : visit next start late = none := by
  induction late, hle using Nat.le_induction with
  | base => exact hnone
  | succ late _ ih => simp [visit, ih]

/-- Two visits of one position repeat the whole stretch between them. -/
theorem visit_add_of_eq {next : P → Option P} {start : P}
    (heq : visit next start early = visit next start late) (count : ℕ) :
    visit next start (early + count) = visit next start (late + count) := by
  induction count with
  | zero => exact heq
  | succ count ih =>
      rw [← Nat.add_assoc, ← Nat.add_assoc, visit, visit, ih]

theorem visit_ne_none_of_revisit {next : P → Option P} {start : P} (hlt : early < late)
    (heq : visit next start early = visit next start late)
    (hsome : visit next start early ≠ none) (count : ℕ) :
    visit next start count ≠ none := by
  intro hnone
  have hpass : ∀ laps, visit next start (early + laps * (late - early)) =
        visit next start early := by
    intro laps
    induction laps with
    | zero => simp
    | succ laps ih =>
        have hshift := visit_add_of_eq heq (laps * (late - early))
        have hindex : early + (laps + 1) * (late - early) = late + laps * (late - early) := by
          have : early + (late - early) = late := by omega
          rw [Nat.succ_mul]
          omega
        rw [hindex, ← hshift, ih]
  have hle : count ≤ early + count * (late - early) := by
    have hone : 1 ≤ late - early := by omega
    calc count = count * 1 := (Nat.mul_one count).symm
      _ ≤ count * (late - early) := Nat.mul_le_mul_left count hone
      _ ≤ early + count * (late - early) := Nat.le_add_left _ _
  exact hsome ((hpass count).symm.trans (visit_eq_none_of_le hle hnone))

/-- Positions below a bound: the walk ends exactly when it never comes back to
a position. -/
theorem visit_ends_iff (next : ℕ → Option ℕ) (start bound : ℕ) (hstart : start < bound)
    (hnext : ∀ position following,
      next position = some following → following < bound) :
    (∃ count, visit next start count = none) ↔ ∀ early late, early < late →
        visit next start early ≠ none →
        visit next start early ≠ visit next start late := by
  constructor
  · rintro ⟨count, hnone⟩ early late hlt hsome heq
    exact visit_ne_none_of_revisit hlt heq hsome count hnone
  · intro hdistinct
    by_contra hforever
    push Not at hforever
    -- `bound + 1` passes would need `bound + 1` distinct positions.
    have hbelow : ∀ count, ∃ position < bound, visit next start count = some position := by
      intro count
      obtain ⟨position, hposition⟩ := Option.ne_none_iff_exists'.mp (hforever count)
      cases count with
      | zero => exact ⟨start, hstart, rfl⟩
      | succ count =>
          refine ⟨position, ?_, hposition⟩
          rw [visit, Option.bind_eq_some_iff] at hposition
          obtain ⟨previous, -, hstep⟩ := hposition
          exact hnext previous position hstep
    choose position hlt hvisit using hbelow
    obtain ⟨left, right, hne, heq⟩ :=
      Fintype.exists_ne_map_eq_of_card_lt (fun count : Fin (bound + 1) =>
          (⟨position count, hlt count⟩ : Fin bound)) (by simp)
    have hpositions : position left = position right := congrArg Fin.val heq
    have hsame : visit next start left = visit next start right := by
      rw [hvisit, hvisit, hpositions]
    rcases Nat.lt_or_gt_of_ne (fun h => hne (Fin.ext h)) with horder | horder
    · exact hdistinct left right horder (hforever left) hsame
    · exact hdistinct right left horder (hforever right) hsame.symm

/-- When a position decides whether the body goes on and where, the loop
terminates exactly when the walk of its positions ends.  `Inv` collects what
holds at the start of every pass. -/
theorem terminates_iff_visit_ends {body : S → Control S R}
    {position : S → P} {next : P → Option P} {Inv : S → Prop}
    (hgo : ∀ state, Inv state → ∀ following, body state = .next following →
      next (position state) = some (position following) ∧ Inv following)
    (hstop : ∀ state, Inv state → ∀ result, body state = .done result →
      next (position state) = none)
    {state : S} (hinv : Inv state) :
    Terminates body state ↔ ∃ count, visit next (position state) count = none := by
  constructor
  · rintro ⟨result, fuel, hrun⟩
    induction fuel generalizing state with
    | zero => simp [run] at hrun
    | succ fuel ih =>
        cases hbody : body state with
        | next following =>
            obtain ⟨hnext, hfollowing⟩ := hgo state hinv following hbody
            obtain ⟨count, hcount⟩ := ih hfollowing (by simpa [run, hbody] using hrun)
            exact ⟨count + 1, by simp [visit_succ', hnext, hcount]⟩
        | done value =>
            have hnone := hstop state hinv value hbody
            exact ⟨1, by simp [visit, hnone]⟩
  · rintro ⟨count, hcount⟩
    induction count generalizing state with
    | zero => simp [visit] at hcount
    | succ count ih =>
        cases hbody : body state with
        | next following =>
            obtain ⟨hnext, hfollowing⟩ := hgo state hinv following hbody
            rw [visit_succ', hnext, Option.bind_some] at hcount
            obtain ⟨result, hreturns⟩ := ih hfollowing hcount
            exact ⟨result, (returns_next_iff hbody).mpr hreturns⟩
        | done value => exact ⟨value, returns_of_done hbody⟩

end Loop
