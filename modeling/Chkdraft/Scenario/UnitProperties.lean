import Chkdraft.Chk.Records
import Chkdraft.Core.Along

/-!
# Unit properties of triggers

Actions that create units with properties name a slot of the UPRP section, and
the UPUS section marks the slots that are used.  `addCuwp` looks a value up, or
writes it into the first slot that is not marked, which it does not mark: the
next new value is written into the same slot again.
-/

namespace Chkdraft.Scenario

open Chk

variable {slot : ℕ}

/-- `Chk::Cuwp`, 20 bytes. -/
structure Cuwp where
  validUnitStateFlags : UInt16
  validUnitFieldFlags : UInt16
  owner : UInt8
  hitpointPercent : UInt8
  shieldPercent : UInt8
  energyPercent : UInt8
  resourceAmount : UInt32
  hangerAmount : UInt16
  unitStateFlags : UInt16
  unknown : UInt32
deriving DecidableEq

/-- `Sc::Unit::MaxCuwps`. -/
def maxCuwps : ℕ := 64

/-- What the sections UPRP and UPUS hold. -/
structure CuwpTables where
  createUnitProperties : List.Vector Cuwp maxCuwps
  cuwpUsed : List.Vector UInt8 maxCuwps

/-- `UpusSection::setCuwpUsed`. -/
def setCuwpUsed (cuwpUsed : List.Vector UInt8 maxCuwps) (cuwpIndex : ℕ)
    (used : Bool) : List.Vector UInt8 maxCuwps :=
  if h : cuwpIndex < maxCuwps then
    cuwpUsed.set ⟨cuwpIndex, h⟩ (if used then 1 else 0)
  else
    cuwpUsed

/-- `UpusSection::getNextUnusedCuwpIndex`. -/
def getNextUnusedCuwpIndex (cuwpUsed : List.Vector UInt8 maxCuwps) : ℕ :=
  ((List.range maxCuwps).find? fun i =>
    cuwpUsed.toList[i]? = some 0).getD maxCuwps

namespace CuwpTables

/-- `UprpSection::getCuwp`, `none` behind the table. -/
def getCuwp (tables : CuwpTables) (cuwpIndex : ℕ) : Option Cuwp :=
  tables.createUnitProperties.toList[cuwpIndex]?

/-- `UprpSection::setCuwp`. -/
def setCuwp (tables : CuwpTables) (cuwpIndex : ℕ) (cuwp : Cuwp) : CuwpTables :=
  if h : cuwpIndex < maxCuwps then
    { tables with
      createUnitProperties := tables.createUnitProperties.set ⟨cuwpIndex, h⟩ cuwp }
  else
    tables

/-- `UprpSection::findCuwp`. -/
def findCuwp (tables : CuwpTables) (cuwp : Cuwp) : ℕ := ((List.range maxCuwps).find? fun i =>
    tables.getCuwp i = some cuwp).getD maxCuwps

end CuwpTables

/-- A call of `Triggers::addCuwp`. -/
structure AddCuwp where
  cuwp : Cuwp
  fixUsageBeforeAdding : Bool
  excludedTriggerIndex : ℕ
  excludedTriggerActionIndex : ℕ

namespace AddCuwp

/-- An action that `fixCuwpUsage` counts. -/
def Counts (call : AddCuwp) (triggerIndex actionIndex : ℕ) (action : Action) : Prop :=
  action.actionType = 11 ∧ action.number.toNat < maxCuwps ∧
    ¬ (triggerIndex = call.excludedTriggerIndex ∧ actionIndex = call.excludedTriggerActionIndex)

instance (call : AddCuwp) (triggerIndex actionIndex : ℕ) (action : Action) :
    Decidable (call.Counts triggerIndex actionIndex action) :=
  inferInstanceAs (Decidable (_ ∧ _ ∧ ¬ (_ ∧ _)))

/-- The loop of `fixCuwpUsage` over the actions of a trigger. -/
def markActions (call : AddCuwp) (cuwpUsed : List.Vector UInt8 maxCuwps)
    (trigger : Trigger × ℕ) : List.Vector UInt8 maxCuwps :=
  trigger.1.actions.toList.zipIdx.foldl (fun cuwpUsed action =>
    if call.Counts trigger.2 action.2 action.1 then
      setCuwpUsed cuwpUsed action.1.number.toNat true
    else
      cuwpUsed) cuwpUsed

/-- `Triggers::fixCuwpUsage`. -/
def fixCuwpUsage (call : AddCuwp) (triggers : List Trigger)
    (cuwpUsed : List.Vector UInt8 maxCuwps) : List.Vector UInt8 maxCuwps :=
  triggers.zipIdx.foldl call.markActions ((List.range maxCuwps).foldl (fun cuwpUsed i =>
      setCuwpUsed cuwpUsed i false) cuwpUsed)

def usage (call : AddCuwp) (triggers : List Trigger)
    (cuwpUsed : List.Vector UInt8 maxCuwps) : List.Vector UInt8 maxCuwps :=
  if call.fixUsageBeforeAdding then call.fixCuwpUsage triggers cuwpUsed
  else cuwpUsed

/-- `Triggers::addCuwp`: the slot and the tables. -/
def apply (call : AddCuwp) (triggers : List Trigger) (tables : CuwpTables) : ℕ × CuwpTables :=
  let found := tables.findCuwp call.cuwp
  if found < maxCuwps then
    (found, tables)
  else
    let fixed : CuwpTables :=
      { tables with cuwpUsed := call.usage triggers tables.cuwpUsed }
    let nextUnused := getNextUnusedCuwpIndex fixed.cuwpUsed
    (nextUnused,
      if nextUnused < maxCuwps then fixed.setCuwp nextUnused call.cuwp
      else fixed)

/-- A slot is named by an action of a trigger that is not excluded. -/
def References (call : AddCuwp) (triggers : List Trigger) (slot : ℕ) : Prop :=
  ∃ triggerIndex trigger actionIndex action, triggers[triggerIndex]? = some trigger ∧
    trigger.actions.toList[actionIndex]? = some action ∧
    call.Counts triggerIndex actionIndex action ∧ action.number.toNat = slot

end AddCuwp

/-- The tables, and the slots that were returned so far with the values added
there. -/
structure CuwpRun where
  tables : CuwpTables
  returned : List (ℕ × Cuwp)

namespace CuwpRun

def step (triggers : List Trigger) (run : CuwpRun) (call : AddCuwp) : CuwpRun where
  tables := (call.apply triggers run.tables).2
  returned :=
    if (call.apply triggers run.tables).1 < maxCuwps then
      ((call.apply triggers run.tables).1, call.cuwp) :: run.returned
    else
      run.returned

/-- The value is in the slot that is returned, no slot that is referenced is
changed, and no slot that was returned for another value. -/
def Keeps (triggers : List Trigger) (run : CuwpRun) (call : AddCuwp) : Prop :=
  ((call.apply triggers run.tables).1 < maxCuwps → (call.apply triggers run.tables).2.getCuwp
        (call.apply triggers run.tables).1 = some call.cuwp) ∧
    (∀ slot, call.References triggers slot →
      (call.apply triggers run.tables).2.getCuwp slot = run.tables.getCuwp slot) ∧
    ∀ slot value, (slot, value) ∈ run.returned → value ≠ call.cuwp →
      (call.apply triggers run.tables).2.getCuwp slot = run.tables.getCuwp slot

/-- The condition on a call: it finds its value, or no slot is unmarked, or the
first slot that is unmarked was not returned before and, unless the marks are
recomputed, is not referenced. -/
def Meets (triggers : List Trigger) (run : CuwpRun) (call : AddCuwp) : Prop :=
  let nextUnused := getNextUnusedCuwpIndex (call.usage triggers run.tables.cuwpUsed)
  run.tables.findCuwp call.cuwp < maxCuwps ∨ nextUnused = maxCuwps ∨
    (∀ value, (nextUnused, value) ∉ run.returned) ∧
      (call.fixUsageBeforeAdding = false → ¬ call.References triggers nextUnused)

/-- The values that were added are in their slots. -/
def Stored (run : CuwpRun) : Prop :=
  ∀ slot value, (slot, value) ∈ run.returned → run.tables.getCuwp slot = some value

end CuwpRun

theorem find_range_getD_cases (test : ℕ → Bool) (count : ℕ) :
    (((List.range count).find? test).getD count < count ∧
        test (((List.range count).find? test).getD count) = true) ∨
      (((List.range count).find? test).getD count = count ∧ ∀ i < count, test i = false) := by
  cases hfind : (List.range count).find? test with
  | none =>
      refine .inr ⟨rfl, fun i hi => ?_⟩
      have hnot := List.find?_eq_none.mp hfind i (List.mem_range.mpr hi)
      exact Bool.eq_false_of_not_eq_true hnot
  | some i =>
      exact .inl ⟨List.mem_range.mp (List.mem_of_find?_eq_some hfind), List.find?_some hfind⟩

section Tables

variable {tables : CuwpTables} {cuwp : Cuwp}

theorem CuwpTables.lt_of_getCuwp (hget : tables.getCuwp slot = some cuwp) : slot < maxCuwps := by
  have hlt := (List.getElem?_eq_some_iff.mp hget).1
  rw [List.Vector.toList_length] at hlt
  exact hlt

/-- A value that is found is in its slot, one that is not found in none. -/
theorem CuwpTables.findCuwp_cases (tables : CuwpTables) (cuwp : Cuwp) :
    (tables.findCuwp cuwp < maxCuwps ∧ tables.getCuwp (tables.findCuwp cuwp) = some cuwp) ∨
      (¬ tables.findCuwp cuwp < maxCuwps ∧ ∀ slot, tables.getCuwp slot ≠ some cuwp) := by
  rcases find_range_getD_cases (fun i => decide (tables.getCuwp i = some cuwp)) maxCuwps with
    ⟨hlt, hfound⟩ | ⟨heq, hnone⟩
  · exact .inl ⟨hlt, of_decide_eq_true hfound⟩
  · refine .inr ⟨Nat.not_lt.mpr heq.ge, fun slot hget => ?_⟩
    exact of_decide_eq_false (hnone slot (lt_of_getCuwp hget)) hget

theorem getNextUnusedCuwpIndex_cases (cuwpUsed : List.Vector UInt8 maxCuwps) :
    (getNextUnusedCuwpIndex cuwpUsed < maxCuwps ∧
        cuwpUsed.toList[getNextUnusedCuwpIndex cuwpUsed]? = some 0) ∨
      getNextUnusedCuwpIndex cuwpUsed = maxCuwps := by
  rcases find_range_getD_cases (fun i => decide (cuwpUsed.toList[i]? = some 0)) maxCuwps with
    ⟨hlt, hfound⟩ | ⟨heq, -⟩
  · exact .inl ⟨hlt, of_decide_eq_true hfound⟩
  · exact .inr heq

theorem CuwpTables.getCuwp_setCuwp (hlt : slot < maxCuwps) (other : ℕ) :
    (tables.setCuwp slot cuwp).getCuwp other =
      if other = slot then some cuwp else tables.getCuwp other := by
  rw [setCuwp, dif_pos hlt, getCuwp, List.Vector.toList_set, List.getElem?_set]
  by_cases heq : slot = other
  · rw [if_pos heq, if_pos heq.symm, if_pos]
    rw [List.Vector.toList_length]
    exact hlt
  · rw [if_neg heq, if_neg (Ne.symm heq)]
    rfl

end Tables

def CuwpMarked (slot : ℕ) (cuwpUsed : List.Vector UInt8 maxCuwps) : Prop :=
  cuwpUsed.toList[slot]? ≠ some 0

variable {cuwpUsed : List.Vector UInt8 maxCuwps}

theorem cuwpMarked_setCuwpUsed {cuwpIndex : ℕ}
    (hmarked : slot = cuwpIndex ∨ CuwpMarked slot cuwpUsed) (hlt : cuwpIndex < maxCuwps) :
    CuwpMarked slot (setCuwpUsed cuwpUsed cuwpIndex true) := by
  rw [CuwpMarked, setCuwpUsed, dif_pos hlt, List.Vector.toList_set, List.getElem?_set]
  by_cases heq : cuwpIndex = slot
  · rw [if_pos heq, if_pos (by rw [List.Vector.toList_length]; exact hlt)]
    nofun
  · rw [if_neg heq]
    exact hmarked.resolve_left (Ne.symm heq)

namespace AddCuwp

variable {call : AddCuwp} {triggers : List Trigger} {slot : ℕ}

theorem cuwpMarked_markAction (hmarked : CuwpMarked slot cuwpUsed) (triggerIndex : ℕ)
    (action : Action × ℕ) :
    CuwpMarked slot (if call.Counts triggerIndex action.2 action.1 then
      setCuwpUsed cuwpUsed action.1.number.toNat true else cuwpUsed) := by
  split
  · rename_i hcounts
    exact cuwpMarked_setCuwpUsed (.inr hmarked) hcounts.2.1
  · exact hmarked

theorem cuwpMarked_markActions (hmarked : CuwpMarked slot cuwpUsed)
    (trigger : Trigger × ℕ) : CuwpMarked slot (call.markActions cuwpUsed trigger) :=
  List.foldlRecOn _ _ hmarked fun _ hstate action _ =>
    cuwpMarked_markAction hstate trigger.2 action

theorem cuwpMarked_fixCuwpUsage (hreferences : call.References triggers slot)
    (cuwpUsed : List.Vector UInt8 maxCuwps) :
    CuwpMarked slot (call.fixCuwpUsage triggers cuwpUsed) := by
  obtain ⟨triggerIndex, trigger, actionIndex, action, htrigger, haction,
    hcounts, rfl⟩ := hreferences
  have hpair : (trigger, triggerIndex) ∈ triggers.zipIdx :=
    List.mem_zipIdx_iff_getElem?.mpr htrigger
  have hactionPair : (action, actionIndex) ∈ trigger.actions.toList.zipIdx :=
    List.mem_zipIdx_iff_getElem?.mpr haction
  have hmarks : ∀ before, CuwpMarked action.number.toNat
      (call.markActions before (trigger, triggerIndex)) := by
    intro before
    rw [markActions]
    refine @foldl_of_mem _ _ _ (CuwpMarked action.number.toNat) _ _ hactionPair ?_ ?_ before
    · intro marks
      rw [if_pos hcounts]
      exact cuwpMarked_setCuwpUsed (.inl rfl) hcounts.2.1
    · intro marks other hmarked
      exact cuwpMarked_markAction hmarked triggerIndex other
  rw [fixCuwpUsage]
  exact @foldl_of_mem _ _ _ (CuwpMarked action.number.toNat) _ _ hpair hmarks
    (fun _ other hmarked => cuwpMarked_markActions hmarked other) _

/-- The value is found; or it is not, and there is no slot for it, or it is
written into the slot that is returned. -/
theorem apply_cases (call : AddCuwp) (triggers : List Trigger) (tables : CuwpTables) :
    let nextUnused := getNextUnusedCuwpIndex (call.usage triggers tables.cuwpUsed)
    (tables.findCuwp call.cuwp < maxCuwps ∧
        tables.getCuwp (tables.findCuwp call.cuwp) = some call.cuwp ∧
        call.apply triggers tables = (tables.findCuwp call.cuwp, tables)) ∨
      (¬ tables.findCuwp call.cuwp < maxCuwps ∧ (∀ slot, tables.getCuwp slot ≠ some call.cuwp) ∧
        (call.apply triggers tables).1 = nextUnused ∧
        (nextUnused = maxCuwps ∧ (∀ slot,
            (call.apply triggers tables).2.getCuwp slot = tables.getCuwp slot) ∨
          nextUnused < maxCuwps ∧ ∀ slot, (call.apply triggers tables).2.getCuwp slot =
              if slot = nextUnused then some call.cuwp
              else tables.getCuwp slot)) := by
  intro nextUnused
  rcases tables.findCuwp_cases call.cuwp with ⟨hlt, hget⟩ | ⟨hge, hnone⟩
  · refine .inl ⟨hlt, hget, ?_⟩
    rw [apply, if_pos hlt]
  · refine .inr ⟨hge, hnone, ?_, ?_⟩
    · rw [apply, if_neg hge]
    · rw [apply, if_neg hge]
      rcases getNextUnusedCuwpIndex_cases
          (call.usage triggers tables.cuwpUsed) with ⟨hunused, -⟩ | hfull
      · refine .inr ⟨hunused, fun slot => ?_⟩
        simp only [if_pos hunused]
        exact CuwpTables.getCuwp_setCuwp hunused slot
      · refine .inl ⟨hfull, fun slot => ?_⟩
        simp only [if_neg (Nat.not_lt.mpr hfull.ge)]
        rfl

end AddCuwp

namespace CuwpRun

variable {triggers : List Trigger} {run : CuwpRun} {call : AddCuwp}

/-- A call does what it should exactly under the condition. -/
theorem keeps_iff (hstored : run.Stored) : run.Keeps triggers call ↔ run.Meets triggers call := by
  rcases call.apply_cases triggers run.tables with
    ⟨hlt, hget, happly⟩ | ⟨hge, hnone, hslot, hrest⟩
  · apply iff_of_true
    · rw [Keeps, happly]
      exact ⟨fun _ => hget, fun _ _ => rfl, fun _ _ _ _ => rfl⟩
    · exact .inl hlt
  · rw [Meets, or_iff_right hge, Keeps]
    simp only [hslot]
    rcases hrest with ⟨hfull, hsame⟩ | ⟨hunused, hwritten⟩
    · apply iff_of_true
      · refine ⟨fun hlt => absurd hlt (Nat.not_lt.mpr hfull.ge), ?_, ?_⟩
        · exact fun other _ => hsame other
        · exact fun other _ _ _ => hsame other
      · exact .inl hfull
    · rw [or_iff_right (Nat.ne_of_lt hunused)]
      simp only [hwritten, if_true, implies_true, true_and]
      -- The slot is changed, because its value was not found.
      have hchanged : some call.cuwp ≠ run.tables.getCuwp (getNextUnusedCuwpIndex
            (call.usage triggers run.tables.cuwpUsed)) :=
        Ne.symm (hnone _)
      constructor
      · rintro ⟨hreferenced, hreturned⟩
        constructor
        · intro value hmem
          have hvalue := hstored _ _ hmem
          have hne : value ≠ call.cuwp := by
            rintro rfl
            exact hnone _ hvalue
          have hsame := hreturned _ value hmem hne
          rw [if_pos rfl] at hsame
          exact hchanged hsame
        · intro _ hreferences
          have hsame := hreferenced _ hreferences
          rw [if_pos rfl] at hsame
          exact hchanged hsame
      · rintro ⟨hreturned, hreferenced⟩
        constructor
        · intro other hreferences
          rw [if_neg]
          rintro rfl
          cases hfix : call.fixUsageBeforeAdding with
          | false => exact hreferenced hfix hreferences
          | true =>
              rw [AddCuwp.usage, hfix, if_pos rfl] at hreferences
              have hmarked := AddCuwp.cuwpMarked_fixCuwpUsage hreferences run.tables.cuwpUsed
              rw [AddCuwp.usage, hfix, if_pos rfl] at hunused
              rcases getNextUnusedCuwpIndex_cases
                  (call.fixCuwpUsage triggers run.tables.cuwpUsed) with
                ⟨-, hzero⟩ | hfull
              · exact hmarked hzero
              · exact absurd hunused (Nat.not_lt.mpr hfull.ge)
        · intro other value hmem _
          rw [if_neg]
          rintro rfl
          exact hreturned value hmem

theorem stored_step (hstored : run.Stored)
    (hmeets : run.Meets triggers call) : (run.step triggers call).Stored := by
  obtain ⟨hreturns, -, hkept⟩ := (keeps_iff hstored).mpr hmeets
  intro slot value hmem
  have hold : (slot, value) ∈ run.returned →
      (call.apply triggers run.tables).2.getCuwp slot = some value := by
    intro hreturned
    by_cases hvalue : value = call.cuwp
    · rcases call.apply_cases triggers run.tables with
        ⟨-, -, happly⟩ | ⟨-, hnone, -, -⟩
      · rw [happly]
        exact hstored slot value hreturned
      · rw [hvalue] at hreturned
        exact absurd (hstored slot call.cuwp hreturned) (hnone slot)
    · rw [hkept slot value hreturned hvalue]
      exact hstored slot value hreturned
  simp only [step] at hmem ⊢
  split at hmem
  · rename_i hlt
    rcases List.mem_cons.mp hmem with heq | hreturned
    · cases heq
      exact hreturns hlt
    · exact hold hreturned
  · exact hold hmem

/-- Along a run every call does what it should exactly if every call meets the
condition. -/
theorem keeps_along_iff (triggers : List Trigger) (tables : CuwpTables) (calls : List AddCuwp) :
    Along (step triggers) (Keeps triggers) ⟨tables, []⟩ calls ↔
      Along (step triggers) (Meets triggers) ⟨tables, []⟩ calls :=
  Along.congr (fun _ _ hstored => keeps_iff hstored)
    (fun _ _ hstored hmeets => stored_step hstored hmeets)
    (fun _ _ hmem => by cases hmem)

def ownedBy (owner : UInt8) : Cuwp := ⟨0, 1, owner, 0, 0, 0, 0, 0, 0, 0⟩

def newTables : CuwpTables :=
  ⟨List.Vector.replicate maxCuwps ⟨0, 0, 0, 0, 0, 0, 0, 0, 0, 0⟩, List.Vector.replicate maxCuwps 0⟩

/-- The second value that is added overwrites the first. -/
theorem addCuwp_overwrites : ¬ Along (step []) (Keeps []) ⟨newTables, []⟩
      [⟨ownedBy 1, true, 894785, 64⟩, ⟨ownedBy 2, true, 894785, 64⟩] := by
  rintro ⟨-, ⟨-, -, hkept⟩, -⟩
  have hsame := hkept 0 (ownedBy 1) (by decide) (by decide)
  revert hsame
  decide

end CuwpRun

end Chkdraft.Scenario
