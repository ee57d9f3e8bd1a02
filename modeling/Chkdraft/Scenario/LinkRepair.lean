import Chkdraft.Core.Table
import Chkdraft.Scenario.LinkClaims

/-!
# Repairing the links of triggers

The second loop of `Triggers::fixTriggerExtensions` in closed form.  It looks at
the entries no trigger names, the orphans: one that asks for no trigger is
deleted, and the first that asks for a trigger without an index is linked to it.
All others stay where they are, linked from nowhere.
-/

namespace Chkdraft.Scenario

open Binary Chk Sections

variable {count index position : ℕ} {entries : List (Option ExtendedTrigData)}
  {extension : ExtendedTrigData} {trigger : Trigger} {links : Links}

/-- No entry is stored at an index that triggers cannot hold: neither
`KtrgSection::read` nor `addExtendedTrigger` puts one there. -/
def UsableEntries (entries : List (Option ExtendedTrigData)) : Prop :=
  ∀ index, entries.getD index none ≠ none → indexUsable index = true

theorem not_of_find?_reverse_range {test : ℕ → Bool} {last : ℕ}
    (hfind : (List.range count).reverse.find? test = some last)
    (hgt : last < index) (hlt : index < count) : test index = false := by
  induction count with
  | zero => exact absurd hlt (Nat.not_lt_zero index)
  | succ count ih =>
      rw [List.range_succ, List.reverse_append, List.reverse_singleton,
        List.singleton_append, List.find?_cons] at hfind
      cases htest : test count with
      | true =>
          rw [htest] at hfind
          have hlast : count = last := Option.some.inj hfind
          omega
      | false =>
          rw [htest] at hfind
          rcases Nat.lt_succ_iff_lt_or_eq.mp hlt with hbelow | rfl
          · exact ih hfind hbelow
          · exact htest

theorem getD_cleanTail (husable : UsableEntries entries) (index : ℕ) :
    (cleanTail entries).getD index none = entries.getD index none := by
  rw [cleanTail, List.getD_eq_getElem?_getD, List.getElem?_take]
  split
  · rw [List.getD_eq_getElem?_getD]
  · rename_i hge
    by_contra hstored
    have hne : entries.getD index none ≠ none := fun h => hstored h.symm
    have hlt : index < entries.length := by
      by_contra hbeyond
      exact hne (List.getD_eq_default _ _ (Nat.le_of_not_lt hbeyond))
    have hmem : index ∈ (List.range entries.length).reverse :=
      List.mem_reverse.mpr (List.mem_range.mpr hlt)
    cases hfind : (List.range entries.length).reverse.find? fun index =>
        indexUsable index ∧ entries.getD index none ≠ none with
    | none =>
        have hnot := List.find?_eq_none.mp hfind index hmem
        simp only [decide_eq_true_eq, not_and] at hnot
        exact hnot (husable index hne) hne
    | some last =>
        rw [hfind, Option.elim_some] at hge
        have hnot := not_of_find?_reverse_range hfind (Nat.lt_of_succ_le (Nat.le_of_not_lt hge)) hlt
        simp only [decide_eq_false_iff_not, not_and] at hnot
        exact hnot (husable index hne) hne

theorem getD_deleteExtendedTrigger (husable : UsableEntries entries) (index other : ℕ) :
    (deleteExtendedTrigger entries index).getD other none =
      if other = index then none else entries.getD other none := by
  unfold deleteExtendedTrigger
  split
  · rename_i hlt
    have hset := fun stored =>
      Table.getD_set entries index stored none hlt
    rw [getD_cleanTail, hset]
    intro stored hstored
    apply husable stored
    rw [hset] at hstored
    split at hstored
    · exact absurd rfl hstored
    · exact hstored
  · rename_i hge
    split
    · rename_i heq
      rw [heq]
      exact List.getD_eq_default _ _ (Nat.le_of_not_lt hge)
    · rfl

theorem usableEntries_deleteExtendedTrigger (husable : UsableEntries entries)
    (index : ℕ) : UsableEntries (deleteExtendedTrigger entries index) := by
  intro other hstored
  rw [getD_deleteExtendedTrigger husable] at hstored
  split at hstored
  · exact absurd rfl hstored
  · exact husable other hstored

section Orphans

variable (triggers : List Trigger) (entries : List (Option ExtendedTrigData))

def Orphan (index : ℕ) (extension : ExtendedTrigData) : Prop :=
  entries.getD index none = some extension ∧
    ∀ position < triggers.length, indexAt triggers position ≠ some index

instance (index : ℕ) (extension : ExtendedTrigData) :
    Decidable (Orphan triggers entries index extension) :=
  inferInstanceAs (Decidable (_ ∧ _))

def wanted (index : ℕ) : Option ℕ := (entries.getD index none).bind fun extension =>
    if Orphan triggers entries index extension ∧ extension.trigNum ≠ 0xFFFFFFFF then
      some extension.trigNum.toNat
    else
      none

/-- The first of the orphans before `count` that ask for a position. -/
def adopted (count position : ℕ) : Option ℕ := (List.range count).find? fun index =>
    wanted triggers entries index = some position

abbrev keptTriggers : List Trigger := claimTriggers triggers entries triggers.length

/-- The triggers after `count` rounds of the second loop. -/
def adoptTriggers (count : ℕ) : List Trigger :=
  (keptTriggers triggers entries).mapIdx fun position trigger =>
    if getExtendedDataIndex trigger = none then
      (adopted triggers entries count position).elim trigger (linkedTo trigger)
    else
      trigger

/-- What the entry with an index is after `count` rounds of the second loop. -/
def adoptEntry (count index : ℕ) : Option ExtendedTrigData :=
  if index < count ∧ ∃ extension ∈ entries.getD index none,
      Orphan triggers entries index extension ∧ extension.trigNum = 0xFFFFFFFF then
    none
  else
    (claimEntries triggers entries triggers.length).getD index none

/-- An orphan can be looked at without a fault: the position it asks for has a
trigger, and its index can be set if it is the first to ask. -/
def Adoptable (index : ℕ) : Prop := ∀ position, wanted triggers entries index = some position →
    ∃ trigger, (keptTriggers triggers entries)[position]? = some trigger ∧
      (getExtendedDataIndex trigger = none →
        adopted triggers entries index position = none → Settable index)

variable {triggers entries}

theorem Orphan.unique {first second : ExtendedTrigData}
    (hfirst : Orphan triggers entries index first)
    (hsecond : Orphan triggers entries index second) : first = second :=
  Option.some.inj (hfirst.1.symm.trans hsecond.1)

theorem wanted_eq_some_iff : wanted triggers entries index = some position ↔
      ∃ extension, Orphan triggers entries index extension ∧ extension.trigNum ≠ 0xFFFFFFFF ∧
        extension.trigNum.toNat = position := by
  rw [wanted, Option.bind_eq_some_iff]
  constructor
  · rintro ⟨extension, -, hwanted⟩
    split at hwanted
    · rename_i horphan
      exact ⟨extension, horphan.1, horphan.2, Option.some.inj hwanted⟩
    · cases hwanted
  · rintro ⟨extension, horphan, hnum, rfl⟩
    exact ⟨extension, horphan.1, if_pos ⟨horphan, hnum⟩⟩

theorem adopted_succ_of_ne (hne : wanted triggers entries count ≠ some position) :
    adopted triggers entries (count + 1) position = adopted triggers entries count position := by
  rw [adopted, List.range_succ, List.find?_append, ← adopted]
  simp [hne]

theorem adopted_succ_of_some (hadopted : adopted triggers entries count position = some index) :
    adopted triggers entries (count + 1) position = some index := by
  rw [adopted, List.range_succ, List.find?_append, ← adopted, hadopted]
  rfl

theorem adopted_succ_of_wanted (hnone : adopted triggers entries count position = none)
    (hwanted : wanted triggers entries count = some position) :
    adopted triggers entries (count + 1) position = some count := by
  rw [adopted, List.range_succ, List.find?_append, ← adopted, hnone]
  simp [hwanted]

theorem adopted_eq_some (hadopted : adopted triggers entries count position = some index) :
    index < count ∧ wanted triggers entries index = some position ∧
      ∀ earlier < index, wanted triggers entries earlier ≠ some position := by
  induction count with
  | zero => cases hadopted
  | succ count ih =>
      cases hbefore : adopted triggers entries count position with
      | some earlier =>
          rw [adopted_succ_of_some hbefore] at hadopted
          obtain ⟨hlt, hrest⟩ := ih (hbefore.trans hadopted)
          exact ⟨Nat.lt_succ_of_lt hlt, hrest⟩
      | none =>
          by_cases hwanted : wanted triggers entries count = some position
          · rw [adopted_succ_of_wanted hbefore hwanted] at hadopted
            obtain rfl := Option.some.inj hadopted
            refine ⟨Nat.lt_succ_self count, hwanted, ?_⟩
            intro earlier hearlier hother
            have hnone := List.find?_eq_none.mp hbefore earlier (List.mem_range.mpr hearlier)
            exact hnone (decide_eq_true hother)
          · rw [adopted_succ_of_ne hwanted, hbefore] at hadopted
            cases hadopted

/-- Nobody before the first orphan asked for its position. -/
theorem adopted_eq_none_of_first (hadopted : adopted triggers entries count position = some index) :
    adopted triggers entries index position = none := by
  obtain ⟨-, -, hfirst⟩ := adopted_eq_some hadopted
  cases hearlier : adopted triggers entries index position with
  | none => rfl
  | some earlier =>
      obtain ⟨hlt, hother, -⟩ := adopted_eq_some hearlier
      exact absurd hother (hfirst earlier hlt)

/-- Somebody is the first to ask for a position that is asked for. -/
theorem adopted_ne_none_of_wanted (hlt : index < count)
    (hwanted : wanted triggers entries index = some position) :
    adopted triggers entries count position ≠ none := by
  intro hnone
  have hnot := List.find?_eq_none.mp hnone index (List.mem_range.mpr hlt)
  exact hnot (decide_eq_true hwanted)

theorem lt_length_of_wanted (hwanted : wanted triggers entries index = some position) :
    index < entries.length := by
  obtain ⟨extension, horphan, -⟩ := wanted_eq_some_iff.mp hwanted
  by_contra hge
  rw [Orphan, List.getD_eq_default _ _ (Nat.le_of_not_lt hge)] at horphan
  cases horphan.1

theorem claimed_iff_not_orphan (hentry : entries.getD index none = some extension) :
    (∃ position, claimer triggers entries triggers.length index =
        some position) ↔ ¬ Orphan triggers entries index extension := by
  constructor
  · rintro ⟨position, hclaimer⟩ horphan
    obtain ⟨hlt, hclaims⟩ := claimer_eq_some_iff.mp hclaimer
    exact horphan.2 position hlt hclaims.1
  · intro hnot
    have hnamed : ∃ position < triggers.length, indexAt triggers position = some index := by
      by_contra hnone
      apply hnot
      refine ⟨hentry, fun position hlt hnamed => ?_⟩
      exact hnone ⟨position, hlt, hnamed⟩
    obtain ⟨position, hlt, hnamed⟩ := hnamed
    have hstored : entries.getD index none ≠ none := by
      rw [hentry]
      exact Option.some_ne_none extension
    obtain ⟨first, hle, hclaims⟩ := exists_claims_of_named hnamed hstored
    exact ⟨first, claimer_eq_some_iff.mpr ⟨by omega, hclaims⟩⟩

theorem getD_claimEntries_of_orphan (horphan : Orphan triggers entries index extension) :
    (claimEntries triggers entries triggers.length).getD index none = some extension := by
  have hclaimer : claimer triggers entries triggers.length index = none := by
    by_contra hsome
    exact (claimed_iff_not_orphan horphan.1).mp (Option.ne_none_iff_exists'.mp hsome) horphan
  rw [getD_claimEntries, hclaimer]
  exact horphan.1

theorem getD_claimEntries_eq_none_iff :
    (claimEntries triggers entries count).getD index none = none ↔
      entries.getD index none = none := by
  rw [getD_claimEntries]
  cases claimer triggers entries count index with
  | none => rfl
  | some position => exact Option.map_eq_none_iff

/-- A round that links no orphan leaves the triggers alone. -/
theorem adoptTriggers_succ_of_keep
    (hkeep : ∀ position, wanted triggers entries count = some position →
      ∀ trigger, (keptTriggers triggers entries)[position]? = some trigger →
        getExtendedDataIndex trigger = none →
        adopted triggers entries count position ≠ none) :
    adoptTriggers triggers entries (count + 1) = adoptTriggers triggers entries count := by
  apply List.ext_getElem?
  intro position
  rw [adoptTriggers, List.getElem?_mapIdx, adoptTriggers, List.getElem?_mapIdx]
  cases htrigger : (keptTriggers triggers entries)[position]? with
  | none => rfl
  | some trigger =>
      simp only [Option.map_some, Option.some.injEq]
      split
      · rename_i hfree
        by_cases hwanted : wanted triggers entries count = some position
        · obtain ⟨index, hindex⟩ := Option.ne_none_iff_exists'.mp
            (hkeep position hwanted trigger htrigger hfree)
          rw [hindex, adopted_succ_of_some hindex]
        · rw [adopted_succ_of_ne hwanted]
      · rfl

theorem adoptTriggers_succ_of_link (hwanted : wanted triggers entries count = some position)
    (htrigger : (keptTriggers triggers entries)[position]? = some trigger)
    (hfree : getExtendedDataIndex trigger = none)
    (hfirst : adopted triggers entries count position = none) :
    adoptTriggers triggers entries (count + 1) =
      (adoptTriggers triggers entries count).set position (linkedTo trigger count) := by
  have hlt : position < (adoptTriggers triggers entries count).length := by
    rw [adoptTriggers, List.length_mapIdx]
    exact (List.getElem?_eq_some_iff.mp htrigger).1
  apply List.ext_getElem?
  intro other
  rw [List.getElem?_set, adoptTriggers, List.getElem?_mapIdx, adoptTriggers, List.getElem?_mapIdx]
  by_cases heq : position = other
  · subst heq
    rw [adoptTriggers] at hlt
    rw [if_pos rfl, if_pos hlt, htrigger, Option.map_some, if_pos hfree,
      adopted_succ_of_wanted hfirst hwanted]
    rfl
  · rw [if_neg heq]
    have hne : wanted triggers entries count ≠ some other := by
      rw [hwanted]
      exact fun h => heq (Option.some.inj h)
    simp only [adopted_succ_of_ne hne]

/-- A round that deletes no orphan leaves the entries alone. -/
theorem adoptEntry_succ_of_keep (hkeep : ∀ extension, Orphan triggers entries count extension →
      extension.trigNum ≠ 0xFFFFFFFF) (index : ℕ) :
    adoptEntry triggers entries (count + 1) index = adoptEntry triggers entries count index := by
  have hiff : (index < count + 1 ∧ ∃ extension ∈ entries.getD index none,
        Orphan triggers entries index extension ∧ extension.trigNum = 0xFFFFFFFF) ↔
      (index < count ∧ ∃ extension ∈ entries.getD index none,
        Orphan triggers entries index extension ∧ extension.trigNum = 0xFFFFFFFF) := by
    constructor
    · rintro ⟨hlt, extension, hmem, horphan, hnum⟩
      have hne : index ≠ count := by
        rintro rfl
        exact hkeep extension horphan hnum
      exact ⟨by omega, extension, hmem, horphan, hnum⟩
    · rintro ⟨hlt, hrest⟩
      exact ⟨Nat.lt_succ_of_lt hlt, hrest⟩
  rw [adoptEntry, adoptEntry]
  simp only [hiff]

theorem adoptEntry_succ_of_delete (horphan : Orphan triggers entries count extension)
    (hnum : extension.trigNum = 0xFFFFFFFF) (index : ℕ) :
    adoptEntry triggers entries (count + 1) index =
      if index = count then none
      else adoptEntry triggers entries count index := by
  rw [adoptEntry]
  by_cases heq : index = count
  · subst heq
    rw [if_pos rfl, if_pos]
    exact ⟨Nat.lt_succ_self index, extension, horphan.1, horphan, hnum⟩
  · rw [if_neg heq, adoptEntry]
    have hiff : index < count + 1 ↔ index < count := by omega
    simp only [hiff]

theorem adoptEntry_self (count : ℕ) : adoptEntry triggers entries count count =
      (claimEntries triggers entries triggers.length).getD count none :=
  if_neg fun h => absurd h.1 (Nat.lt_irrefl count)

/-! ## The second loop -/

theorem fixEntry_of_none (hentry : links.entries.getD index none = none) :
    fixEntry links index = .ok links := by
  unfold fixEntry
  simp only [hentry]

theorem fixEntry_of_used (hused : index ∈ links.used) : fixEntry links index = .ok links := by
  unfold fixEntry
  cases links.entries.getD index none with
  | none => rfl
  | some extension => simp only [if_pos hused]

section

variable (hentry : links.entries.getD index none = some extension)

include hentry

theorem fixEntry_of_unnamed (hunused : index ∉ links.used) (hnum : extension.trigNum = 0xFFFFFFFF) :
    fixEntry links index = .ok { links with
        entries := deleteExtendedTrigger links.entries index } := by
  unfold fixEntry
  simp only [hentry, if_neg hunused, if_pos hnum]

section

variable (hunused : index ∉ links.used) (hnum : extension.trigNum ≠ 0xFFFFFFFF)

include hunused hnum

theorem fixEntry_of_missing (hmissing : links.triggers[extension.trigNum.toNat]? = none) :
    fixEntry links index = .error (.hazard .undefinedBehavior) := by
  unfold fixEntry
  simp only [hentry, if_neg hunused, if_neg hnum, hmissing]

theorem fixEntry_of_taken (htrigger : links.triggers[extension.trigNum.toNat]? = some trigger)
    (htaken : getExtendedDataIndex trigger ≠ none) :
    fixEntry links index = .ok links := by
  obtain ⟨other, hother⟩ := Option.ne_none_iff_exists'.mp htaken
  unfold fixEntry
  simp only [hentry, if_neg hunused, if_neg hnum, htrigger, hother]

theorem fixEntry_of_free (htrigger : links.triggers[extension.trigNum.toNat]? = some trigger)
    (hfree : getExtendedDataIndex trigger = none) :
    fixEntry links index =
      if Settable index then
        .ok { links with
          triggers := links.triggers.set extension.trigNum.toNat (linkedTo trigger index) }
      else
        .error (.thrown .invalidArgument) := by
  unfold fixEntry
  simp only [hentry, if_neg hunused, if_neg hnum, htrigger, hfree, setExtendedDataIndex_eq]
  by_cases hsettable : Settable index
  · rw [if_pos hsettable, if_pos hsettable]
  · rw [if_neg hsettable, if_neg hsettable]

end

end

/-- The links after `count` rounds of the second loop. -/
structure Repaired (triggers : List Trigger)
    (entries : List (Option ExtendedTrigData)) (count : ℕ) (links : Links) :
    Prop where
  triggers_eq : links.triggers = adoptTriggers triggers entries count
  getD_entries : ∀ index, links.entries.getD index none = adoptEntry triggers entries count index
  mem_used_iff : ∀ index, index ∈ links.used ↔ ∃ position,
    claimer triggers entries triggers.length index = some position
  usable : UsableEntries links.entries
  adoptable : ∀ index < count, Adoptable triggers entries index

theorem Claimed.repaired (husable : UsableEntries entries)
    (hclaimed : Claimed triggers entries triggers.length links) :
    Repaired triggers entries 0 links where
  triggers_eq := by
    rw [hclaimed.triggers_eq]
    apply List.ext_getElem?
    intro position
    rw [adoptTriggers, List.getElem?_mapIdx]
    cases (keptTriggers triggers entries)[position]? with
    | none => rfl
    | some trigger =>
        simp only [Option.map_some, Option.some.injEq]
        split <;> rfl
  getD_entries := by
    intro index
    rw [hclaimed.entries_eq, adoptEntry, if_neg]
    exact fun h => absurd h.1 (Nat.not_lt_zero index)
  mem_used_iff := hclaimed.mem_used_iff
  usable := by
    intro index hstored
    apply husable index
    rw [hclaimed.entries_eq] at hstored
    exact fun hnone => hstored (getD_claimEntries_eq_none_iff.mpr hnone)
  adoptable := fun index hlt => absurd hlt (Nat.not_lt_zero index)

namespace Repaired

variable {count : ℕ} {links : Links}

section

variable (hrepaired : Repaired triggers entries count links)

include hrepaired

theorem adoptable_succ (hadoptable : Adoptable triggers entries count) :
    ∀ index < count + 1, Adoptable triggers entries index := by
  intro index hlt
  rcases Nat.lt_succ_iff_lt_or_eq.mp hlt with hbefore | rfl
  · exact hrepaired.adoptable index hbefore
  · exact hadoptable

theorem keep (hnone : ∀ extension, ¬ Orphan triggers entries count extension) :
    Repaired triggers entries (count + 1) links where
  triggers_eq := by
    rw [adoptTriggers_succ_of_keep]
    · exact hrepaired.triggers_eq
    · intro position hwanted
      obtain ⟨extension, horphan, -⟩ := wanted_eq_some_iff.mp hwanted
      exact absurd horphan (hnone extension)
  getD_entries := by
    intro index
    rw [adoptEntry_succ_of_keep fun extension horphan =>
      absurd horphan (hnone extension)]
    exact hrepaired.getD_entries index
  mem_used_iff := hrepaired.mem_used_iff
  usable := hrepaired.usable
  adoptable := by
    apply hrepaired.adoptable_succ
    intro position hwanted
    obtain ⟨extension, horphan, -⟩ := wanted_eq_some_iff.mp hwanted
    exact absurd horphan (hnone extension)

theorem delete (horphan : Orphan triggers entries count extension)
    (hnum : extension.trigNum = 0xFFFFFFFF) :
    Repaired triggers entries (count + 1)
      { links with
        entries := deleteExtendedTrigger links.entries count } := by
  have hunwanted : ∀ position, wanted triggers entries count ≠ some position := by
    intro position hwanted
    obtain ⟨other, hother, hne, -⟩ := wanted_eq_some_iff.mp hwanted
    rw [hother.unique horphan] at hne
    exact hne hnum
  exact
    { triggers_eq := by
        rw [adoptTriggers_succ_of_keep fun position hwanted =>
          absurd hwanted (hunwanted position)]
        exact hrepaired.triggers_eq
      getD_entries := by
        intro index
        rw [getD_deleteExtendedTrigger hrepaired.usable,
          adoptEntry_succ_of_delete horphan hnum, hrepaired.getD_entries]
      mem_used_iff := hrepaired.mem_used_iff
      usable := usableEntries_deleteExtendedTrigger hrepaired.usable count
      adoptable := hrepaired.adoptable_succ fun position hwanted =>
        absurd hwanted (hunwanted position) }

/-- The trigger an orphan finds at the position it asks for. -/
theorem getElem?_triggers (position : ℕ) : links.triggers[position]? =
      (keptTriggers triggers entries)[position]?.map fun trigger =>
        if getExtendedDataIndex trigger = none then
          (adopted triggers entries count position).elim trigger (linkedTo trigger)
        else
          trigger := by
  rw [hrepaired.triggers_eq, adoptTriggers, List.getElem?_mapIdx]

section

variable (hwanted : wanted triggers entries count = some position)
  (htrigger : (keptTriggers triggers entries)[position]? = some trigger)

include hwanted htrigger

theorem pass (htaken : getExtendedDataIndex trigger = none →
      adopted triggers entries count position ≠ none) :
    Repaired triggers entries (count + 1) links where
  triggers_eq := by
    rw [adoptTriggers_succ_of_keep]
    · exact hrepaired.triggers_eq
    · intro other hother found hfound hfree
      obtain rfl := Option.some.inj (hwanted.symm.trans hother)
      obtain rfl := Option.some.inj (htrigger.symm.trans hfound)
      exact htaken hfree
  getD_entries := by
    intro index
    rw [adoptEntry_succ_of_keep]
    · exact hrepaired.getD_entries index
    · intro extension horphan
      obtain ⟨other, hother, hnum, -⟩ := wanted_eq_some_iff.mp hwanted
      rw [horphan.unique hother]
      exact hnum
  mem_used_iff := hrepaired.mem_used_iff
  usable := hrepaired.usable
  adoptable := by
    apply hrepaired.adoptable_succ
    intro other hother
    obtain rfl := Option.some.inj (hwanted.symm.trans hother)
    exact ⟨trigger, htrigger, fun hfree hnone => absurd hnone (htaken hfree)⟩

theorem link (hfree : getExtendedDataIndex trigger = none)
    (hfirst : adopted triggers entries count position = none)
    (hsettable : Settable count) :
    Repaired triggers entries (count + 1)
      { links with
        triggers := links.triggers.set position (linkedTo trigger count) } where
  triggers_eq := by
    rw [adoptTriggers_succ_of_link hwanted htrigger hfree hfirst, hrepaired.triggers_eq]
  getD_entries := by
    intro index
    rw [adoptEntry_succ_of_keep]
    · exact hrepaired.getD_entries index
    · intro extension horphan
      obtain ⟨other, hother, hnum, -⟩ := wanted_eq_some_iff.mp hwanted
      rw [horphan.unique hother]
      exact hnum
  mem_used_iff := hrepaired.mem_used_iff
  usable := hrepaired.usable
  adoptable := by
    apply hrepaired.adoptable_succ
    intro other hother
    obtain rfl := Option.some.inj (hwanted.symm.trans hother)
    exact ⟨trigger, htrigger, fun _ _ => hsettable⟩

end

theorem taken_of_adopted (htrigger : (keptTriggers triggers entries)[position]? = some trigger)
    (hfree : getExtendedDataIndex trigger = none)
    (hadopted : adopted triggers entries count position = some index) :
    getExtendedDataIndex (linkedTo trigger index) ≠ none := by
  obtain ⟨hbefore, hindex, -⟩ := adopted_eq_some hadopted
  have hnone := adopted_eq_none_of_first hadopted
  obtain ⟨found, hfound, hset⟩ := hrepaired.adoptable index hbefore _ hindex
  obtain rfl := Option.some.inj (htrigger.symm.trans hfound)
  rw [getExtendedDataIndex_linkedTo (hset hfree hnone)]
  exact Option.some_ne_none _

theorem fixEntry_wanted (horphan : Orphan triggers entries count extension)
    (hnum : extension.trigNum ≠ 0xFFFFFFFF)
    (hentry : links.entries.getD count none = some extension)
    (hunused : count ∉ links.used) :
    (∃ following, fixEntry links count = .ok following ∧
        Repaired triggers entries (count + 1) following) ∨
      (fixEntry links count = .error (.hazard .undefinedBehavior) ∧
        triggers.length ≤ extension.trigNum.toNat) ∨
      (fixEntry links count = .error (.thrown .invalidArgument) ∧
        ¬ Adoptable triggers entries count) := by
  have hwanted : wanted triggers entries count = some extension.trigNum.toNat :=
    wanted_eq_some_iff.mpr ⟨extension, horphan, hnum, rfl⟩
  have hget := hrepaired.getElem?_triggers extension.trigNum.toNat
  cases htrigger : (keptTriggers triggers entries)[extension.trigNum.toNat]? with
  | none =>
      rw [htrigger, Option.map_none] at hget
      refine .inr (.inl ⟨fixEntry_of_missing hentry hunused hnum hget, ?_⟩)
      simpa [claimTriggers] using List.getElem?_eq_none_iff.mp htrigger
  | some trigger =>
      rw [htrigger, Option.map_some] at hget
      by_cases hfree : getExtendedDataIndex trigger = none
      · rw [if_pos hfree] at hget
        cases hadopted : adopted triggers entries count extension.trigNum.toNat with
        | none =>
            rw [hadopted] at hget
            rw [fixEntry_of_free hentry hunused hnum hget hfree]
            by_cases hsettable : Settable count
            · rw [if_pos hsettable]
              exact .inl ⟨_, rfl, hrepaired.link hwanted htrigger hfree hadopted hsettable⟩
            · rw [if_neg hsettable]
              refine .inr (.inr ⟨rfl, fun hadoptable => hsettable ?_⟩)
              obtain ⟨found, hfound, hset⟩ := hadoptable _ hwanted
              obtain rfl := Option.some.inj (htrigger.symm.trans hfound)
              exact hset hfree hadopted
        | some index =>
            rw [hadopted] at hget
            have htaken := hrepaired.taken_of_adopted htrigger hfree hadopted
            refine .inl ⟨links, fixEntry_of_taken hentry hunused hnum hget
              htaken, hrepaired.pass hwanted htrigger fun _ => ?_⟩
            rw [hadopted]
            exact Option.some_ne_none index
      · rw [if_neg hfree] at hget
        exact .inl ⟨links, fixEntry_of_taken hentry hunused hnum hget hfree,
          hrepaired.pass hwanted htrigger fun h => absurd h hfree⟩

/-- One round of the second loop: it repairs, finds no trigger where an orphan
asks for one, or has to set an index that cannot be set. -/
theorem fixEntry_cases : (∃ following, fixEntry links count = .ok following ∧
        Repaired triggers entries (count + 1) following) ∨
      (fixEntry links count = .error (.hazard .undefinedBehavior) ∧
        ∃ position, wanted triggers entries count = some position ∧ triggers.length ≤ position) ∨
      (fixEntry links count = .error (.thrown .invalidArgument) ∧
        ¬ Adoptable triggers entries count) := by
  have hentry : links.entries.getD count none =
      (claimEntries triggers entries triggers.length).getD count none :=
    (hrepaired.getD_entries count).trans (adoptEntry_self count)
  by_cases horphan : ∃ extension, Orphan triggers entries count extension
  · obtain ⟨extension, horphan⟩ := horphan
    have hstored : links.entries.getD count none = some extension :=
      hentry.trans (getD_claimEntries_of_orphan horphan)
    have hunused : count ∉ links.used := by
      rw [hrepaired.mem_used_iff, claimed_iff_not_orphan horphan.1, not_not]
      exact horphan
    by_cases hnum : extension.trigNum = 0xFFFFFFFF
    · exact .inl ⟨_, fixEntry_of_unnamed hstored hunused hnum, hrepaired.delete horphan hnum⟩
    · rcases hrepaired.fixEntry_wanted horphan hnum hstored hunused with
        hok | ⟨hhazard, hle⟩ | hthrown
      · exact .inl hok
      · exact .inr (.inl ⟨hhazard, _, wanted_eq_some_iff.mpr ⟨extension, horphan, hnum, rfl⟩, hle⟩)
      · exact .inr (.inr hthrown)
  · refine .inl ⟨links, ?_, hrepaired.keep fun extension h =>
      horphan ⟨extension, h⟩⟩
    cases hstored : entries.getD count none with
    | none =>
        apply fixEntry_of_none
        rw [hentry]
        exact getD_claimEntries_eq_none_iff.mpr hstored
    | some extension =>
        apply fixEntry_of_used
        rw [hrepaired.mem_used_iff, claimed_iff_not_orphan hstored]
        exact fun h => horphan ⟨extension, h⟩

end

theorem foldlM_fixEntry_cases (hrepaired : Repaired triggers entries 0 links) (count : ℕ) :
    (∃ final, (List.range count).foldlM fixEntry links = .ok final ∧
        Repaired triggers entries count final) ∨
      ((List.range count).foldlM fixEntry links = .error (.hazard .undefinedBehavior) ∧
        ∃ index position, wanted triggers entries index = some position ∧
          triggers.length ≤ position) ∨
      ((List.range count).foldlM fixEntry links = .error (.thrown .invalidArgument) ∧
        ∃ index, ¬ Adoptable triggers entries index) := by
  induction count with
  | zero => exact .inl ⟨links, rfl, hrepaired⟩
  | succ count ih =>
      rw [List.range_succ, List.foldlM_append]
      rcases ih with ⟨middle, hmiddle, hrounds⟩ | ⟨hhazard, hwhere⟩ | ⟨hthrown, hwhere⟩
      · rw [hmiddle]
        have hlast : ([count].foldlM fixEntry middle) = fixEntry middle count := by
          rw [List.foldlM_cons]
          cases fixEntry middle count <;> rfl
        rcases hrounds.fixEntry_cases with ⟨final, hfinal, hnext⟩ |
          ⟨hhazard, hwhere⟩ | ⟨hthrown, hwhere⟩
        · exact .inl ⟨final, hlast.trans hfinal, hnext⟩
        · exact .inr (.inl ⟨hlast.trans hhazard, count, hwhere⟩)
        · exact .inr (.inr ⟨hlast.trans hthrown, count, hwhere⟩)
      · rw [hhazard]
        exact .inr (.inl ⟨rfl, hwhere⟩)
      · rw [hthrown]
        exact .inr (.inr ⟨rfl, hwhere⟩)

end Repaired

theorem adoptable_of_length_le (hle : entries.length ≤ index) :
    Adoptable triggers entries index := by
  intro position hwanted
  exact absurd (lt_length_of_wanted hwanted) (Nat.not_lt_of_le hle)

/-- What `fixTriggerExtensions` leaves. -/
structure RepairedTo (triggers : List Trigger)
    (entries : List (Option ExtendedTrigData)) (fixedTriggers : List Trigger)
    (fixedEntries : List (Option ExtendedTrigData)) : Prop where
  triggers_eq : fixedTriggers = adoptTriggers triggers entries entries.length
  getD_entries : ∀ index, fixedEntries.getD index none =
    adoptEntry triggers entries entries.length index
  usable : UsableEntries fixedEntries
  adoptable : ∀ index, Adoptable triggers entries index

theorem fixTriggerExtensions_cases (husable : UsableEntries entries) :
    (∃ fixedTriggers fixedEntries, fixTriggerExtensions triggers entries =
          .ok (fixedTriggers, fixedEntries) ∧
        RepairedTo triggers entries fixedTriggers fixedEntries) ∨
      (fixTriggerExtensions triggers entries = .error (.hazard .undefinedBehavior) ∧
        ∃ index position, wanted triggers entries index = some position ∧
          triggers.length ≤ position) ∨
      (fixTriggerExtensions triggers entries = .error (.thrown .invalidArgument) ∧
        ∃ index, ¬ Adoptable triggers entries index) := by
  have hclaimed := claimed_foldl_fixTrigger triggers entries triggers.length
  have hlength : ((List.range triggers.length).foldl fixTrigger
      ⟨triggers, entries, []⟩).entries.length = entries.length := by
    rw [hclaimed.entries_eq, claimEntries, List.length_mapIdx]
  have hrun : ∀ outcome, (List.range entries.length).foldlM fixEntry
      ((List.range triggers.length).foldl fixTrigger ⟨triggers, entries, []⟩) = outcome →
      fixTriggerExtensions triggers entries =
        outcome.map fun links => (links.triggers, links.entries) := by
    rintro outcome rfl
    unfold fixTriggerExtensions
    simp only [hlength]
    rfl
  rcases (hclaimed.repaired husable).foldlM_fixEntry_cases entries.length with
    ⟨final, hfinal, hrepaired⟩ | ⟨hhazard, hwhere⟩ | ⟨hthrown, hwhere⟩
  · refine .inl ⟨final.triggers, final.entries, hrun _ hfinal,
      hrepaired.triggers_eq, hrepaired.getD_entries, hrepaired.usable, ?_⟩
    intro index
    rcases Nat.lt_or_ge index entries.length with hlt | hge
    · exact hrepaired.adoptable index hlt
    · exact adoptable_of_length_le hge
  · exact .inr (.inl ⟨hrun _ hhazard, hwhere⟩)
  · exact .inr (.inr ⟨hrun _ hthrown, hwhere⟩)

/-- The repair returns exactly if every orphan can be looked at. -/
theorem fixTriggerExtensions_returns_iff (husable : UsableEntries entries) :
    (∃ fixedTriggers fixedEntries, fixTriggerExtensions triggers entries =
          .ok (fixedTriggers, fixedEntries)) ↔
      ∀ index, Adoptable triggers entries index := by
  rcases fixTriggerExtensions_cases husable with
    ⟨fixedTriggers, fixedEntries, hok, hrepaired⟩ |
    ⟨hhazard, index, position, hwanted, hle⟩ | ⟨hthrown, index, hnot⟩
  · exact iff_of_true ⟨_, _, hok⟩ hrepaired.adoptable
  · apply iff_of_false
    · rintro ⟨fixedTriggers, fixedEntries, hok⟩
      rw [hhazard] at hok
      cases hok
    · intro hadoptable
      obtain ⟨trigger, htrigger, -⟩ := hadoptable index position hwanted
      have hlt := (List.getElem?_eq_some_iff.mp htrigger).1
      rw [keptTriggers, claimTriggers, List.length_mapIdx] at hlt
      omega
  · apply iff_of_false
    · rintro ⟨fixedTriggers, fixedEntries, hok⟩
      rw [hthrown] at hok
      cases hok
    · exact fun hadoptable => hnot (hadoptable index)

theorem repairedTo_of_ok (husable : UsableEntries entries)
    {fixedTriggers : List Trigger}
    {fixedEntries : List (Option ExtendedTrigData)}
    (hok : fixTriggerExtensions triggers entries = .ok (fixedTriggers, fixedEntries)) :
    RepairedTo triggers entries fixedTriggers fixedEntries := by
  rcases fixTriggerExtensions_cases husable with
    ⟨others, otherEntries, hother, hrepaired⟩ | ⟨hhazard, -⟩ | ⟨hthrown, -⟩
  · rw [hok] at hother
    cases hother
    exact hrepaired
  · rw [hok] at hhazard
    cases hhazard
  · rw [hok] at hthrown
    cases hthrown

/-- A trigger that claims nothing has no index after the first loop. -/
theorem getElem?_keptTriggers_of_not (htrigger : triggers[position]? = some trigger)
    (hnot : ∀ index, ¬ Claims triggers entries position index) :
    (keptTriggers triggers entries)[position]? = some (dropIndex trigger) := by
  have hlt := (List.getElem?_eq_some_iff.mp htrigger).1
  rw [getElem?_claimTriggers, htrigger, Option.map_some, if_pos ⟨hlt, fun index _ => hnot index⟩]

theorem getElem?_keptTriggers_of_claims (hclaims : Claims triggers entries position index) :
    (keptTriggers triggers entries)[position]? = triggers[position]? := by
  rw [getElem?_claimTriggers]
  have hnot : ¬ ∀ other ∈ indexAt triggers position, ¬ Claims triggers entries position other :=
    fun hall => hall index hclaims.1 hclaims
  cases triggers[position]? with
  | none => rfl
  | some trigger => rw [Option.map_some, if_neg fun h => hnot h.2]

theorem indexAt_adoptTriggers_of_claims {count : ℕ}
    (hclaims : Claims triggers entries position index) :
    indexAt (adoptTriggers triggers entries count) position = some index := by
  have hnamed := hclaims.1
  rw [indexAt] at hnamed ⊢
  rw [adoptTriggers, List.getElem?_mapIdx, getElem?_keptTriggers_of_claims hclaims]
  cases htrigger : triggers[position]? with
  | none =>
      rw [htrigger] at hnamed
      cases hnamed
  | some trigger =>
      rw [htrigger, Option.bind_some] at hnamed
      have htaken : ¬ getExtendedDataIndex trigger = none := by
        rw [hnamed]
        exact Option.some_ne_none index
      rw [Option.map_some, Option.bind_some, if_neg htaken]
      exact hnamed

theorem indexAt_adoptTriggers_of_not {count : ℕ}
    (hadoptable : ∀ index, Adoptable triggers entries index)
    (htrigger : triggers[position]? = some trigger)
    (hnot : ∀ index, ¬ Claims triggers entries position index) :
    indexAt (adoptTriggers triggers entries count) position =
      (adopted triggers entries count position).map (linkTarget (dropIndex trigger)) := by
  have hkept := getElem?_keptTriggers_of_not htrigger hnot
  have hfree : getExtendedDataIndex (dropIndex trigger) = none :=
    getExtendedDataIndex_dropIndex trigger
  rw [indexAt, adoptTriggers, List.getElem?_mapIdx, hkept, Option.map_some,
    Option.bind_some, if_pos hfree]
  cases hadopted : adopted triggers entries count position with
  | none => exact hfree
  | some index =>
      obtain ⟨-, hwanted, -⟩ := adopted_eq_some hadopted
      have hnone := adopted_eq_none_of_first hadopted
      obtain ⟨found, hfound, hset⟩ := hadoptable index position hwanted
      rw [hkept] at hfound
      obtain rfl := Option.some.inj hfound
      exact getExtendedDataIndex_linkedTo (hset hfree hnone)

theorem adoptEntry_of_claims {count : ℕ} (hclaims : Claims triggers entries position index)
    (hentry : entries.getD index none = some extension) :
    adoptEntry triggers entries count index =
      some { extension with trigNum := UInt32.ofNat position } := by
  have hlt : position < triggers.length := by
    by_contra hge
    have hnamed := hclaims.1
    rw [indexAt, List.getElem?_eq_none (Nat.le_of_not_lt hge)] at hnamed
    cases hnamed
  have hclaimer := claimer_eq_some_iff.mpr ⟨hlt, hclaims⟩
  rw [adoptEntry, if_neg, getD_claimEntries, hclaimer, hentry]
  · rfl
  · rintro ⟨-, other, -, horphan, -⟩
    exact horphan.2 position hlt hclaims.1

theorem adoptEntry_of_orphan {count : ℕ} (horphan : Orphan triggers entries index extension)
    (hnum : extension.trigNum ≠ 0xFFFFFFFF) :
    adoptEntry triggers entries count index = some extension := by
  rw [adoptEntry, if_neg, getD_claimEntries_of_orphan horphan]
  rintro ⟨-, other, -, hother, hothernum⟩
  rw [hother.unique horphan] at hothernum
  exact hnum hothernum

theorem wanted_ne_of_claims {other : ℕ} (hclaims : Claims triggers entries position index) :
    wanted triggers entries index ≠ some other := by
  intro hwanted
  obtain ⟨extension, horphan, -⟩ := wanted_eq_some_iff.mp hwanted
  apply horphan.2 position _ hclaims.1
  by_contra hge
  have hnamed := hclaims.1
  rw [indexAt, List.getElem?_eq_none (Nat.le_of_not_lt hge)] at hnamed
  cases hnamed

/-- An entry that is left was claimed or asks for a trigger. -/
theorem claims_or_wanted_of_adoptEntry
    (hentry : adoptEntry triggers entries entries.length index ≠ none) :
    (∃ position, Claims triggers entries position index) ∨
      ∃ position, wanted triggers entries index = some position := by
  rw [adoptEntry] at hentry
  split at hentry
  · exact absurd rfl hentry
  · rename_i hkept
    have hstored : entries.getD index none ≠ none :=
      fun hnone => hentry (getD_claimEntries_eq_none_iff.mpr hnone)
    obtain ⟨extension, hextension⟩ := Option.ne_none_iff_exists'.mp hstored
    by_cases horphan : Orphan triggers entries index extension
    · right
      refine ⟨_, wanted_eq_some_iff.mpr ⟨extension, horphan, ?_, rfl⟩⟩
      intro hnum
      have hlt : index < entries.length := by
        by_contra hge
        exact hstored (List.getD_eq_default _ _ (Nat.le_of_not_lt hge))
      exact hkept ⟨hlt, extension, hextension, horphan, hnum⟩
    · left
      obtain ⟨position, hclaimer⟩ := (claimed_iff_not_orphan hextension).mpr horphan
      exact ⟨position, (claimer_eq_some_iff.mp hclaimer).2⟩

end Orphans

end Chkdraft.Scenario
