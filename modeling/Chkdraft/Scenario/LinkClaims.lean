import Chkdraft.Scenario.TriggerExtensions

/-!
# Claiming the entries of the KTRG section

The first loop of `Triggers::fixTriggerExtensions` in closed form: the first
trigger that names an entry claims it, and all other indexes are dropped.
Indexes are set over the owner bits of a trigger, so the index a trigger has
afterwards may be another one than the index that was set.
-/

namespace Chkdraft.Scenario

open Binary Chk Sections

variable {count index position : ℕ} {trigger : Trigger} {links : Links}

/-- The bits of owners in the word of a trigger that setting an index keeps and
getting it reads. -/
def ownerBits (trigger : Trigger) : ℕ := (indexWord trigger).toNat &&& 0x010101

/-- The indexes `setExtendedDataIndex` does not throw at. -/
def Settable (index : ℕ) : Prop := indexUsable (index % 2 ^ 32) = true ∧ index % 2 ^ 32 ≤ 0x00FEFEFE

instance (index : ℕ) : Decidable (Settable index) := inferInstanceAs (Decidable (_ ∧ _))

def linkedTo (trigger : Trigger) (index : ℕ) : Trigger :=
  withIndexWord trigger (indexWord trigger &&& 0x1010101 ||| UInt32.ofNat (index % 2 ^ 32))

/-- The index a trigger has after one was set. -/
def linkTarget (trigger : Trigger) (index : ℕ) : ℕ := ownerBits trigger ||| index % 2 ^ 32

theorem le_one_of_and_eq_zero : ∀ byte < 256, byte &&& 0xFE = 0 → byte ≤ 1 := by
  decide +kernel

/-- The indexes named one by one are those without a bit of the mask. -/
theorem mem_unusableIndexes_iff (hle : index ≤ 0x00FEFEFE) :
    index ∈ [0, 1, 256, 257, 65536, 65537, 65792, 65793] ↔ indexUsable index = false := by
  constructor
  · intro hmem
    simp only [List.mem_cons, List.not_mem_nil, or_false] at hmem
    rcases hmem with rfl | rfl | rfl | rfl | rfl | rfl | rfl | rfl <;> decide
  · intro hunusable
    have hand : index &&& 0xFEFEFEFE = 0 := not_not.mp (of_decide_eq_false hunusable)
    have hbyte : ∀ shift, (index / 2 ^ shift) % 2 ^ 8 &&& (0xFEFEFEFE / 2 ^ shift) % 2 ^ 8 = 0 := by
      intro shift
      rw [← Nat.and_mod_two_pow, ← Nat.and_div_two_pow, hand, Nat.zero_div, Nat.zero_mod]
    have hlow := le_one_of_and_eq_zero (index / 2 ^ 0 % 2 ^ 8) (Nat.mod_lt _ (by decide)) (hbyte 0)
    have hmiddle := le_one_of_and_eq_zero (index / 2 ^ 8 % 2 ^ 8)
      (Nat.mod_lt _ (by decide)) (hbyte 8)
    have hhigh := le_one_of_and_eq_zero (index / 2 ^ 16 % 2 ^ 8)
      (Nat.mod_lt _ (by decide)) (hbyte 16)
    simp only [List.mem_cons, List.not_mem_nil, or_false]
    omega

theorem setExtendedDataIndex_eq (trigger : Trigger) (index : ℕ) :
    setExtendedDataIndex trigger index =
      if Settable index then .ok (linkedTo trigger index)
      else .error .invalidArgument := by
  unfold setExtendedDataIndex
  simp only
  by_cases hsettable : Settable index
  · rw [if_pos hsettable, if_neg]
    · rfl
    · obtain ⟨husable, hle⟩ := hsettable
      rintro (hmem | hbig | hbig)
      · rw [mem_unusableIndexes_iff hle, husable] at hmem
        cases hmem
      · omega
      · omega
  · rw [if_neg hsettable, if_pos]
    by_contra hnone
    simp only [not_or, Nat.not_lt, gt_iff_lt] at hnone
    apply hsettable
    refine ⟨?_, hnone.2.2⟩
    by_contra hunusable
    exact hnone.1 ((mem_unusableIndexes_iff hnone.2.2).mpr (Bool.eq_false_of_not_eq_true hunusable))

theorem getExtendedDataIndex_linkedTo (hsettable : Settable index) :
    getExtendedDataIndex (linkedTo trigger index) = some (linkTarget trigger index) := by
  obtain ⟨husable, hle⟩ := hsettable
  set sized := index % 2 ^ 32 with hsized
  set word := indexWord trigger &&& 0x1010101 ||| UInt32.ofNat sized
    with hword
  have hindexWord : indexWord (linkedTo trigger index) = word :=
    indexWord_withIndexWord trigger word
  have hsizedNat : (UInt32.ofNat sized).toNat = sized := by
    rw [UInt32.toNat_ofNat']
    exact Nat.mod_eq_of_lt (by omega)
  have htoNat : word.toNat = (indexWord trigger).toNat &&& 0x1010101 |||
      sized := by
    rw [hword, UInt32.toNat_or, UInt32.toNat_and, hsizedNat]
    rfl
  have hlow : word.toNat &&& 0x00FFFFFF = linkTarget trigger index := by
    rw [htoNat, Nat.and_or_distrib_right, Nat.and_assoc]
    have hkeep : sized &&& 0x00FFFFFF = sized :=
      (Nat.and_two_pow_sub_one_eq_mod sized 24).trans (Nat.mod_eq_of_lt (by omega))
    rw [hkeep]
    rfl
  have hmask : word.toNat &&& 0xFEFEFEFE ≠ 0 := by
    rw [htoNat, Nat.and_or_distrib_right, Nat.and_assoc]
    have hnone : (0x1010101 &&& 0xFEFEFEFE : ℕ) = 0 := by decide
    rw [hnone, Nat.and_zero, Nat.zero_or]
    exact of_decide_eq_true husable
  have hpos : linkTarget trigger index ≠ 0 := by
    intro hzero
    have hzero' : sized = 0 := by
      have hor : ownerBits trigger ||| sized = 0 := hzero
      exact (Nat.or_eq_zero_iff.mp hor).2
    rw [hzero'] at husable
    exact absurd husable (by decide)
  rw [getExtendedDataIndex, hindexWord]
  have hfirst : word &&& 0xFEFEFEFE > 0 := by
    rw [gt_iff_lt, UInt32.lt_iff_toNat_lt, UInt32.toNat_and]
    exact Nat.pos_of_ne_zero hmask
  have hsecond : (word &&& 0x00FFFFFF).toNat = linkTarget trigger index := by
    rw [UInt32.toNat_and]
    exact hlow
  have hthird : word &&& 0x00FFFFFF > 0 := by
    rw [gt_iff_lt, UInt32.lt_iff_toNat_lt, hsecond]
    exact Nat.pos_of_ne_zero hpos
  rw [if_pos ⟨hfirst, hthird⟩, hsecond]

/-! ## Claiming entries -/

/-- The index the trigger at a position has. -/
def indexAt (triggers : List Trigger) (position : ℕ) : Option ℕ :=
  triggers[position]?.bind getExtendedDataIndex

section Claims

variable (triggers : List Trigger) (entries : List (Option ExtendedTrigData))

/-- The trigger at a position is the first that names an entry. -/
def Claims (position index : ℕ) : Prop :=
  indexAt triggers position = some index ∧ entries.getD index none ≠ none ∧
    ∀ earlier < position, indexAt triggers earlier ≠ some index

instance (position index : ℕ) : Decidable (Claims triggers entries position index) :=
  inferInstanceAs (Decidable (_ ∧ _ ∧ _))

/-- The position before `count` whose trigger claims an entry. -/
def claimer (count index : ℕ) : Option ℕ := (List.range count).find? fun position =>
    Claims triggers entries position index

/-- The triggers after `count` rounds: an index that claims nothing was
dropped. -/
def claimTriggers (count : ℕ) : List Trigger := triggers.mapIdx fun position trigger =>
    if position < count ∧ ∀ index ∈ indexAt triggers position,
        ¬ Claims triggers entries position index then
      dropIndex trigger
    else
      trigger

/-- The entries after `count` rounds: a claimed one names its trigger. -/
def claimEntries (count : ℕ) : List (Option ExtendedTrigData) := entries.mapIdx fun index entry =>
    (claimer triggers entries count index).elim entry fun position =>
      entry.map fun extension =>
        { extension with trigNum := UInt32.ofNat position }

variable {triggers entries}

theorem Claims.unique {first second : ℕ} (hfirst : Claims triggers entries first index)
    (hsecond : Claims triggers entries second index) : first = second := by
  rcases Nat.lt_trichotomy first second with hlt | heq | hgt
  · exact absurd hfirst.1 (hsecond.2.2 first hlt)
  · exact heq
  · exact absurd hsecond.1 (hfirst.2.2 second hgt)

theorem claimer_eq_some_iff : claimer triggers entries count index = some position ↔
      position < count ∧ Claims triggers entries position index := by
  constructor
  · intro hfind
    exact ⟨List.mem_range.mp (List.mem_of_find?_eq_some hfind),
      by simpa using List.find?_some hfind⟩
  · rintro ⟨hlt, hclaims⟩
    cases hfind : claimer triggers entries count index with
    | none =>
        have hnone := List.find?_eq_none.mp hfind position (List.mem_range.mpr hlt)
        simp only [decide_eq_true_eq] at hnone
        exact absurd hclaims hnone
    | some other =>
        have hother : Claims triggers entries other index := by
          simpa using List.find?_some hfind
        rw [hother.unique hclaims]

theorem claimer_succ_of_not (hnot : ¬ Claims triggers entries count index) :
    claimer triggers entries (count + 1) index = claimer triggers entries count index := by
  rw [claimer, List.range_succ, List.find?_append, ← claimer]
  simp [hnot]

theorem claimer_succ_of_claims (hclaims : Claims triggers entries count index) :
    claimer triggers entries (count + 1) index = some count :=
  claimer_eq_some_iff.mpr ⟨Nat.lt_succ_self count, hclaims⟩

@[simp]
theorem getElem?_claimTriggers (count position : ℕ) :
    (claimTriggers triggers entries count)[position]? = triggers[position]?.map fun trigger =>
        if position < count ∧ ∀ index ∈ indexAt triggers position,
            ¬ Claims triggers entries position index then
          dropIndex trigger
        else
          trigger :=
  List.getElem?_mapIdx

@[simp]
theorem getD_claimEntries (count index : ℕ) :
    (claimEntries triggers entries count).getD index none =
      (claimer triggers entries count index).elim (entries.getD index none)
        fun position => (entries.getD index none).map fun extension =>
          { extension with trigNum := UInt32.ofNat position } := by
  rw [claimEntries, List.getD_eq_getElem?_getD, List.getElem?_mapIdx, List.getD_eq_getElem?_getD]
  cases hentry : entries[index]? with
  | some entry => rfl
  | none => cases claimer triggers entries count index <;> rfl

/-- A round that drops no index leaves the triggers alone. -/
theorem claimTriggers_succ_of_keep (hkeep : indexAt triggers count = none ∨
      ∃ index, Claims triggers entries count index) :
    claimTriggers triggers entries (count + 1) = claimTriggers triggers entries count := by
  apply List.ext_getElem?
  intro position
  rw [getElem?_claimTriggers, getElem?_claimTriggers]
  cases htrigger : triggers[position]? with
  | none => rfl
  | some trigger =>
      simp only [Option.map_some, Option.some.injEq]
      rcases Nat.lt_trichotomy position count with hlt | rfl | hgt
      · simp only [hlt, Nat.lt_succ_of_lt hlt]
      · rcases hkeep with hnone | ⟨index, hclaims⟩
        · have hindex : getExtendedDataIndex trigger = none := by
            simpa [indexAt, htrigger] using hnone
          have hsame : dropIndex trigger = trigger := if_pos hindex
          simp [hsame]
        · have hnot : ¬ ∀ other ∈ indexAt triggers position,
              ¬ Claims triggers entries position other := by
            intro hall
            exact hall index hclaims.1 hclaims
          rw [if_neg fun h => hnot h.2, if_neg fun h => hnot h.2]
      · have hnot : ¬ position < count := by omega
        have hnot' : ¬ position < count + 1 := by omega
        simp only [hnot, hnot', false_and]

theorem claimTriggers_succ_of_drop (htrigger : triggers[count]? = some trigger)
    (hindex : getExtendedDataIndex trigger = some index)
    (hnot : ¬ Claims triggers entries count index) :
    claimTriggers triggers entries (count + 1) = (claimTriggers triggers entries count).set count
        (clearExtendedDataIndex trigger) := by
  have hlt : count < (claimTriggers triggers entries count).length := by
    rw [claimTriggers, List.length_mapIdx]
    exact (List.getElem?_eq_some_iff.mp htrigger).1
  apply List.ext_getElem?
  intro position
  rw [List.getElem?_set, getElem?_claimTriggers, getElem?_claimTriggers]
  by_cases heq : count = position
  · subst heq
    have hall : ∀ other ∈ indexAt triggers count, ¬ Claims triggers entries count other := by
      intro other hother
      rw [indexAt, htrigger, Option.bind_some, hindex] at hother
      rw [← Option.some.inj hother]
      exact hnot
    have hclear : dropIndex trigger = clearExtendedDataIndex trigger :=
      if_neg (by rw [hindex]; exact Option.some_ne_none index)
    rw [if_pos rfl, if_pos hlt, htrigger, Option.map_some,
      if_pos ⟨Nat.lt_succ_self count, hall⟩, hclear]
  · rw [if_neg heq]
    have hiff : position < count + 1 ↔ position < count := by omega
    simp only [hiff]

/-- A round that claims nothing leaves the entries alone. -/
theorem claimEntries_succ_of_not (hnot : ∀ index, ¬ Claims triggers entries count index) :
    claimEntries triggers entries (count + 1) = claimEntries triggers entries count := by
  rw [claimEntries, claimEntries]
  congr 1
  funext index entry
  rw [claimer_succ_of_not (hnot index)]

theorem claimEntries_succ_of_claims {extension : ExtendedTrigData}
    (hclaims : Claims triggers entries count index)
    (hentry : entries.getD index none = some extension) :
    claimEntries triggers entries (count + 1) = (claimEntries triggers entries count).set index
        (some { extension with trigNum := UInt32.ofNat count }) := by
  have hlt : index < entries.length := by
    by_contra hge
    rw [List.getD_eq_default _ _ (Nat.le_of_not_lt hge)] at hentry
    cases hentry
  have hget : entries[index]? = some (some extension) := by
    rw [List.getD_eq_getElem _ _ hlt] at hentry
    rw [List.getElem?_eq_getElem hlt, hentry]
  apply List.ext_getElem?
  intro other
  rw [List.getElem?_set, claimEntries, List.getElem?_mapIdx, claimEntries,
    List.getElem?_mapIdx, List.length_mapIdx]
  by_cases heq : index = other
  · subst heq
    rw [if_pos rfl, if_pos hlt, hget, Option.map_some, claimer_succ_of_claims hclaims]
    rfl
  · have hnot : ¬ Claims triggers entries count other := by
      intro hother
      have hsame := hclaims.1.symm.trans hother.1
      exact heq (Option.some.inj hsame)
    rw [if_neg heq, claimer_succ_of_not hnot]

/-- The links after `count` rounds of the first loop. -/
structure Claimed (triggers : List Trigger)
    (entries : List (Option ExtendedTrigData)) (count : ℕ) (links : Links) :
    Prop where
  triggers_eq : links.triggers = claimTriggers triggers entries count
  entries_eq : links.entries = claimEntries triggers entries count
  mem_used_iff : ∀ index, index ∈ links.used ↔
    ∃ position, claimer triggers entries count index = some position

theorem Claimed.start : Claimed triggers entries 0 ⟨triggers, entries, []⟩ where
  triggers_eq := by
    apply List.ext_getElem?
    simp
  entries_eq := by
    apply List.ext_getElem?
    intro index
    rw [claimEntries, List.getElem?_mapIdx]
    cases entries[index]? <;> rfl
  mem_used_iff := by
    intro index
    apply iff_of_false List.not_mem_nil
    rintro ⟨position, hclaimer⟩
    exact absurd (claimer_eq_some_iff.mp hclaimer).1 (Nat.not_lt_zero position)

/-- A named entry is claimed by the first trigger that names it. -/
theorem exists_claims_of_named (hnamed : indexAt triggers position = some index)
    (hentry : entries.getD index none ≠ none) :
    ∃ first ≤ position, Claims triggers entries first index := by
  have hexists : ∃ first, indexAt triggers first = some index := ⟨position, hnamed⟩
  refine ⟨Nat.find hexists, Nat.find_min' hexists hnamed, Nat.find_spec hexists, hentry, ?_⟩
  intro earlier hearlier
  exact Nat.find_min hexists hearlier

theorem fixTrigger_of_none (hnone : indexAt links.triggers position = none) :
    fixTrigger links position = links := by
  unfold fixTrigger
  cases htrigger : links.triggers[position]? with
  | none => rfl
  | some trigger =>
      rw [indexAt, htrigger, Option.bind_some] at hnone
      simp only [hnone]

section

variable (htrigger : links.triggers[position]? = some trigger)
  (hindex : getExtendedDataIndex trigger = some index)

include htrigger hindex

theorem fixTrigger_of_drop (hdrop : links.entries.getD index none ≠ none → index ∈ links.used) :
    fixTrigger links position =
      { links with
        triggers := links.triggers.set position (clearExtendedDataIndex trigger) } := by
  unfold fixTrigger
  simp only [htrigger, hindex]
  cases hentry : links.entries.getD index none with
  | none => rfl
  | some extension =>
      have hmem : index ∈ links.used := hdrop (by rw [hentry]; simp)
      simp only [if_pos hmem]

theorem fixTrigger_of_claim {extension : ExtendedTrigData}
    (hentry : links.entries.getD index none = some extension) (hunused : index ∉ links.used) :
    fixTrigger links position =
      { links with
        entries := links.entries.set index
          (some { extension with trigNum := UInt32.ofNat position })
        used := index :: links.used } := by
  unfold fixTrigger
  simp only [htrigger, hindex, hentry, if_neg hunused]

end

namespace Claimed

variable {count : ℕ} {links : Links}

section

variable (hclaimed : Claimed triggers entries count links)

include hclaimed

theorem getElem?_triggers : links.triggers[count]? = triggers[count]? := by
  rw [hclaimed.triggers_eq, getElem?_claimTriggers]
  simp

theorem unclaimed (hnot : ∀ index, ¬ Claims triggers entries count index) :
    links.entries = claimEntries triggers entries (count + 1) ∧
      ∀ index, index ∈ links.used ↔ ∃ position,
        claimer triggers entries (count + 1) index = some position := by
  constructor
  · rw [claimEntries_succ_of_not hnot]
    exact hclaimed.entries_eq
  · intro index
    rw [claimer_succ_of_not (hnot index)]
    exact hclaimed.mem_used_iff index

theorem step_of_none (hnone : indexAt triggers count = none) :
    Claimed triggers entries (count + 1) (fixTrigger links count) := by
  have hlinks : indexAt links.triggers count = none := by
    rw [indexAt, hclaimed.getElem?_triggers]
    exact hnone
  have hnot : ∀ index, ¬ Claims triggers entries count index := by
    intro index hclaims
    rw [Claims, hnone] at hclaims
    cases hclaims.1
  obtain ⟨hentries, hused⟩ := hclaimed.unclaimed hnot
  rw [fixTrigger_of_none hlinks]
  refine ⟨?_, hentries, hused⟩
  rw [claimTriggers_succ_of_keep (.inl hnone)]
  exact hclaimed.triggers_eq

section

variable (htrigger : triggers[count]? = some trigger)
  (hindex : getExtendedDataIndex trigger = some index)

include htrigger hindex

theorem step_of_drop (hnot : ¬ Claims triggers entries count index) :
    Claimed triggers entries (count + 1) (fixTrigger links count) := by
  have hsome : indexAt triggers count = some index := by
    rw [indexAt, htrigger, Option.bind_some, hindex]
  have hall : ∀ other, ¬ Claims triggers entries count other := by
    intro other hother
    have hsame := hsome.symm.trans hother.1
    rw [← Option.some.inj hsame] at hother
    exact hnot hother
  -- An entry that was not claimed in this round was claimed before.
  have hused : links.entries.getD index none ≠ none → index ∈ links.used := by
    intro hstored
    have hentry : entries.getD index none ≠ none := by
      rintro hgone
      apply hstored
      rw [hclaimed.entries_eq, getD_claimEntries, hgone]
      cases claimer triggers entries count index <;> rfl
    obtain ⟨first, hle, hfirst⟩ := exists_claims_of_named hsome hentry
    have hne : first ≠ count := by
      rintro rfl
      exact hnot hfirst
    exact (hclaimed.mem_used_iff index).mpr ⟨first, claimer_eq_some_iff.mpr ⟨by omega, hfirst⟩⟩
  have hlinks : links.triggers[count]? = some trigger := hclaimed.getElem?_triggers.trans htrigger
  obtain ⟨hentries, hmem⟩ := hclaimed.unclaimed hall
  rw [fixTrigger_of_drop hlinks hindex hused]
  refine ⟨?_, hentries, hmem⟩
  rw [claimTriggers_succ_of_drop htrigger hindex hnot, hclaimed.triggers_eq]

theorem step_of_claim (hclaims : Claims triggers entries count index) :
    Claimed triggers entries (count + 1) (fixTrigger links count) := by
  obtain ⟨extension, hextension⟩ := Option.ne_none_iff_exists'.mp hclaims.2.1
  have hclaimer : claimer triggers entries count index = none := by
    cases hfind : claimer triggers entries count index with
    | none => rfl
    | some position =>
        obtain ⟨hlt, hother⟩ := claimer_eq_some_iff.mp hfind
        exact absurd hother.1 (hclaims.2.2 position hlt)
  have hentry : links.entries.getD index none = some extension := by
    rw [hclaimed.entries_eq, getD_claimEntries, hclaimer, hextension]
    rfl
  have hunused : index ∉ links.used := by
    rw [hclaimed.mem_used_iff, hclaimer]
    simp
  have hlinks : links.triggers[count]? = some trigger := hclaimed.getElem?_triggers.trans htrigger
  rw [fixTrigger_of_claim hlinks hindex hentry hunused]
  refine ⟨?_, ?_, ?_⟩
  · rw [claimTriggers_succ_of_keep (.inr ⟨index, hclaims⟩)]
    exact hclaimed.triggers_eq
  · rw [claimEntries_succ_of_claims hclaims hextension, hclaimed.entries_eq]
  · intro other
    rw [List.mem_cons, hclaimed.mem_used_iff]
    by_cases heq : other = index
    · subst heq
      simp [claimer_succ_of_claims hclaims]
    · have hnot : ¬ Claims triggers entries count other := by
        intro hother
        have hsame := hclaims.1.symm.trans hother.1
        exact heq (Option.some.inj hsame).symm
      rw [claimer_succ_of_not hnot]
      simp [heq]

end

theorem step : Claimed triggers entries (count + 1) (fixTrigger links count) := by
  cases htrigger : triggers[count]? with
  | none =>
      apply hclaimed.step_of_none
      rw [indexAt, htrigger, Option.bind_none]
  | some trigger =>
      cases hindex : getExtendedDataIndex trigger with
      | none =>
          apply hclaimed.step_of_none
          rw [indexAt, htrigger, Option.bind_some, hindex]
      | some index =>
          by_cases hclaims : Claims triggers entries count index
          · exact hclaimed.step_of_claim htrigger hindex hclaims
          · exact hclaimed.step_of_drop htrigger hindex hclaims

end

end Claimed

theorem claimed_foldl_fixTrigger (triggers : List Trigger)
    (entries : List (Option ExtendedTrigData)) (count : ℕ) :
    Claimed triggers entries count
      ((List.range count).foldl fixTrigger ⟨triggers, entries, []⟩) := by
  induction count with
  | zero => exact Claimed.start
  | succ count ih =>
      rw [List.range_succ, List.foldl_append]
      exact ih.step

end Claims

end Chkdraft.Scenario
