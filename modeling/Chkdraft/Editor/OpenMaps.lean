import Chkdraft.Core.Fault
import Mathlib.Data.List.Nodup

/-!
# Ids of the open maps

Opening a map gives it an id, by which it is looked up and removed again.  Ids
are counted up to the largest one of 16 bits; after that the lowest one without
an open map is taken.  An id of 0 stands for the active map, and the largest id
is what removing a map starts its search with, so that neither should be given
to a map.
-/

namespace Chkdraft.Editor

/-- `AllMapIdsExausted`. -/
inductive MapIdException where
  | allMapIdsExausted
deriving DecidableEq, Repr

/-- The maps that are open, by their ids in ascending order, and the id each map
remembers.  A null pointer is `none`. -/
structure Maps (M : Type) where
  openMaps : List (UInt16 × M)
  mapId : M → UInt16
  currentlyActiveMap : Option M
  lastUsedMapID : UInt16

namespace Maps

variable {M : Type} [DecidableEq M]

def initial (mapId : M → UInt16) : Maps M where
  openMaps := []
  mapId := mapId
  currentlyActiveMap := none
  lastUsedMapID := 0

def nextId (maps : Maps M) : Except MapIdException (UInt16 × Maps M) :=
  if maps.lastUsedMapID < 65535 then
    .ok (maps.lastUsedMapID + 1,
      { maps with lastUsedMapID := maps.lastUsedMapID + 1 })
  else
    match (List.range 65536).find? fun mapId =>
        UInt16.ofNat mapId ∉ maps.openMaps.map Prod.fst with
    | some mapId => .ok (UInt16.ofNat mapId, maps)
    | none => .error .allMapIdsExausted

/-- `std::multimap::insert`, behind the entries of the same id. -/
def insert (openMaps : List (UInt16 × M)) (id : UInt16) (map : M) : List (UInt16 × M) :=
  openMaps.takeWhile (fun entry => entry.1 ≤ id) ++
    (id, map) :: openMaps.dropWhile fun entry => entry.1 ≤ id

def addMap (maps : Maps M) : Option M → Except MapIdException (Maps M)
  | none => .ok maps
  | some map =>
      maps.nextId.map fun (id, maps) =>
        { maps with
          openMaps := insert maps.openMaps id map
          mapId := Function.update maps.mapId map id }

/-- The largest id stands for a map that is not found. -/
def removeMap (maps : Maps M) : Option M → Bool × Maps M
  | none => (false, maps)
  | some guiMap =>
      let toDelete := ((maps.openMaps.find? fun entry =>
        entry.2 = guiMap).map Prod.fst).getD 65535
      if toDelete ≠ 65535 then
        (true, { maps with
          openMaps := maps.openMaps.filter fun entry => entry.1 ≠ toDelete
          currentlyActiveMap :=
            if maps.currentlyActiveMap = some guiMap then none
            else maps.currentlyActiveMap })
      else
        (false, maps)

end Maps

inductive MapCall (M : Type) where
  | add (map : Option M)
  | remove (map : Option M)

namespace MapCall

variable {M : Type} [DecidableEq M]

def make (maps : Maps M) : MapCall M → Except MapIdException (Maps M)
  | add map => maps.addMap map
  | remove map => .ok (maps.removeMap map).2

def opens : MapCall M → Bool
  | add map => map.isSome
  | remove _ => false

/-- A map that is added was not open, and with it fewer than 65535 maps are. -/
def Allowed (maps : Maps M) : MapCall M → Prop
  | add (some map) => map ∉ maps.openMaps.map Prod.snd ∧
      maps.openMaps.length + 1 < 65535
  | _ => True

end MapCall

/-- The open maps have ids of their own, none of them 0, and each open map can
be removed, which leaves the others. -/
structure IdsHold {M : Type} [DecidableEq M] (maps : Maps M) : Prop where
  distinct : (maps.openMaps.map Prod.fst).Nodup
  nonzero : ∀ entry ∈ maps.openMaps, entry.1 ≠ 0
  own : ∀ entry ∈ maps.openMaps, maps.mapId entry.2 = entry.1
  removes : ∀ map ∈ maps.openMaps.map Prod.snd,
    (maps.removeMap (some map)).1 = true ∧ (maps.removeMap (some map)).2.openMaps =
        maps.openMaps.filter fun entry => entry.2 ≠ map

def KeepsIds {M : Type} [DecidableEq M] (start : Maps M) (calls : List (MapCall M)) : Prop :=
  ∀ done rest maps, calls = done ++ rest → done.foldlM MapCall.make start = .ok maps → IdsHold maps

/-- So many maps have been opened, and their ids were counted. -/
structure IdsCounted {M : Type} (count : ℕ) (maps : Maps M) : Prop where
  last : maps.lastUsedMapID.toNat = count
  ids : (maps.openMaps.map Prod.fst).Nodup
  handles : (maps.openMaps.map Prod.snd).Nodup
  range : ∀ entry ∈ maps.openMaps, 0 < entry.1.toNat ∧ entry.1.toNat ≤ count
  own : ∀ entry ∈ maps.openMaps, maps.mapId entry.2 = entry.1

theorem perm_insert {M : Type} (openMaps : List (UInt16 × M)) (id : UInt16)
    (map : M) : (Maps.insert openMaps id map).Perm ((id, map) :: openMaps) := by
  rw [Maps.insert]
  refine List.perm_middle.trans ?_
  rw [List.takeWhile_append_dropWhile]

theorem IdsCounted.sublist {M : Type} {maps : Maps M} {count : ℕ}
    (hcounted : IdsCounted count maps) {openMaps : List (UInt16 × M)}
    (hsublist : openMaps.Sublist maps.openMaps)
    (currentlyActiveMap : Option M) :
    IdsCounted count ⟨openMaps, maps.mapId, currentlyActiveMap, maps.lastUsedMapID⟩ where
  last := hcounted.last
  ids := (hsublist.map _).nodup hcounted.ids
  handles := (hsublist.map _).nodup hcounted.handles
  range := fun entry hmem => hcounted.range entry (hsublist.subset hmem)
  own := fun entry hmem => hcounted.own entry (hsublist.subset hmem)

/-- Where keys are distinct, an item is found by its own. -/
theorem find_of_mem {A K : Type} [DecidableEq K] {key : A → K} {items : List A}
    {item : A} (hmem : item ∈ items) (hkeys : (items.map key).Nodup) :
    (items.find? fun other => key other = key item) = some item := by
  induction items with
  | nil => cases hmem
  | cons first rest ih =>
      rw [List.map_cons, List.nodup_cons] at hkeys
      rcases List.mem_cons.mp hmem with rfl | hrest
      · rw [List.find?_cons_of_pos (by simp)]
      · have hne : key first ≠ key item := fun heq =>
          hkeys.1 (heq ▸ List.mem_map_of_mem hrest)
        rw [List.find?_cons_of_neg (by simpa using hne), ih hrest hkeys.2]

section Steps

variable {M : Type} [DecidableEq M] {maps : Maps M} {count : ℕ}

section

variable (hcounted : IdsCounted count maps)

include hcounted

theorem IdsCounted.removeMap {entry : UInt16 × M} (hmem : entry ∈ maps.openMaps) :
    (maps.removeMap (some entry.2)).1 = decide (entry.1 ≠ 65535) ∧
      (entry.1 ≠ 65535 → (maps.removeMap (some entry.2)).2.openMaps =
        maps.openMaps.filter fun other => other.2 ≠ entry.2) := by
  have hfind := find_of_mem hmem hcounted.handles
  simp only [Maps.removeMap, hfind, Option.map_some, Option.getD_some]
  by_cases hlast : entry.1 = 65535
  · simp [hlast]
  · refine ⟨by simp [hlast], fun _ => ?_⟩
    rw [if_pos hlast]
    refine List.filter_congr fun other hother => ?_
    -- Entries of the same id or the same map are the same entry.
    have hsame : other.1 = entry.1 ↔ other.2 = entry.2 := by
      constructor
      · intro hid
        rw [List.inj_on_of_nodup_map hcounted.ids hother hmem hid]
      · intro hmap
        rw [List.inj_on_of_nodup_map hcounted.handles hother hmem hmap]
    exact decide_eq_decide.mpr (not_congr hsame)

theorem IdsCounted.idsHold (hlt : count < 65535) : IdsHold maps where
  distinct := hcounted.ids
  nonzero := by
    intro entry hmem hzero
    have hpos := (hcounted.range entry hmem).1
    rw [hzero] at hpos
    exact Nat.lt_irrefl 0 hpos
  own := hcounted.own
  removes := by
    intro map hmap
    obtain ⟨entry, hmem, rfl⟩ := List.mem_map.mp hmap
    have hlast : entry.1 ≠ 65535 := by
      intro heq
      have hle := (hcounted.range entry hmem).2
      rw [heq] at hle
      exact absurd hle (Nat.not_le_of_lt hlt)
    obtain ⟨hremoved, hothers⟩ := hcounted.removeMap hmem
    exact ⟨hremoved.trans (decide_eq_true hlast), hothers hlast⟩

theorem IdsCounted.of_removeMap (map : Option M) : IdsCounted count (maps.removeMap map).2 := by
  cases map with
  | none => exact hcounted
  | some guiMap =>
      simp only [Maps.removeMap]
      split
      · exact hcounted.sublist List.filter_sublist _
      · exact hcounted

theorem IdsCounted.addMap (map : M) (hlt : count < 65535)
    (hnew : map ∉ maps.openMaps.map Prod.snd) :
    ∃ added, maps.addMap (some map) = .ok added ∧ IdsCounted (count + 1) added ∧
      added.openMaps = Maps.insert maps.openMaps (maps.lastUsedMapID + 1) map := by
  have hbelow : maps.lastUsedMapID < 65535 := by
    rw [UInt16.lt_iff_toNat_lt, hcounted.last]
    exact hlt
  have hnext : (maps.lastUsedMapID + 1).toNat = count + 1 := by
    rw [UInt16.toNat_add, hcounted.last]
    exact Nat.mod_eq_of_lt (Nat.succ_lt_succ hlt)
  have hperm := perm_insert maps.openMaps (maps.lastUsedMapID + 1) map
  have hid : maps.lastUsedMapID + 1 ∉ maps.openMaps.map Prod.fst := by
    rw [List.mem_map]
    rintro ⟨entry, hmem, heq⟩
    have hle := (hcounted.range entry hmem).2
    rw [heq, hnext] at hle
    exact Nat.not_succ_le_self count hle
  rw [Maps.addMap, Maps.nextId, if_pos hbelow]
  refine ⟨_, rfl, ⟨hnext, ?_, ?_, ?_, ?_⟩, rfl⟩
  · rw [(hperm.map _).nodup_iff]
    exact List.nodup_cons.mpr ⟨hid, hcounted.ids⟩
  · rw [(hperm.map _).nodup_iff]
    exact List.nodup_cons.mpr ⟨hnew, hcounted.handles⟩
  · intro entry hmem
    rcases List.mem_cons.mp (hperm.mem_iff.mp hmem) with rfl | hold
    · rw [hnext]
      exact ⟨Nat.succ_pos count, Nat.le_refl _⟩
    · exact (hcounted.range entry hold).imp_right Nat.le_succ_of_le
  · intro entry hmem
    rcases List.mem_cons.mp (hperm.mem_iff.mp hmem) with rfl | hold
    · exact Function.update_self _ _ _
    · have hne : entry.2 ≠ map := fun heq =>
        hnew (heq ▸ List.mem_map_of_mem hold)
      exact (Function.update_of_ne hne _ _).trans (hcounted.own entry hold)

theorem IdsCounted.make {call : MapCall M} (hallowed : call.Allowed maps)
    (hlt : call.opens = true → count < 65535) :
    ∃ following, call.make maps = .ok following ∧
      IdsCounted (count + if call.opens then 1 else 0) following := by
  cases call with
  | add map =>
      cases map with
      | none => exact ⟨maps, rfl, hcounted⟩
      | some map =>
          obtain ⟨added, hadd, hadded, -⟩ := hcounted.addMap map (hlt rfl) hallowed.1
          exact ⟨added, hadd, hadded⟩
  | remove map => exact ⟨_, rfl, hcounted.of_removeMap map⟩

theorem IdsCounted.run {calls : List (MapCall M)}
    (hallowed : Fault.MeetsAlong MapCall.make MapCall.Allowed maps calls)
    (hle : count + calls.countP MapCall.opens ≤ 65535) :
    ∃ final, calls.foldlM MapCall.make maps = .ok final ∧
      IdsCounted (count + calls.countP MapCall.opens) final := by
  induction calls generalizing maps count with
  | nil => exact ⟨maps, rfl, hcounted⟩
  | cons call calls ih =>
      rw [List.countP_cons] at hle ⊢
      obtain ⟨following, hmake, hfollowing⟩ := hcounted.make hallowed.1 fun hopens => by
          rw [if_pos hopens] at hle
          omega
      rw [Nat.add_comm (calls.countP _), ← Nat.add_assoc] at hle ⊢
      obtain ⟨final, hrun, hfinal⟩ := ih hfollowing (hallowed.2 following hmake) hle
      refine ⟨final, ?_, hfinal⟩
      rw [List.foldlM_cons, hmake]
      exact hrun

end

end Steps

theorem exists_split_of_lt_countP {A : Type*} {counts : A → Bool}
    {items : List A} {count : ℕ} (hlt : count < items.countP counts) :
    ∃ done item rest, items = done ++ item :: rest ∧ counts item = true ∧
      done.countP counts = count := by
  induction items generalizing count with
  | nil => cases hlt
  | cons first items ih =>
      rw [List.countP_cons] at hlt
      cases hfirst : counts first with
      | false =>
          rw [if_neg (by simp [hfirst])] at hlt
          obtain ⟨done, item, rest, rfl, hitem, hdone⟩ := ih hlt
          exact ⟨first :: done, item, rest, rfl, hitem, by
            rw [List.countP_cons_of_neg (by simp [hfirst]), hdone]⟩
      | true =>
          cases count with
          | zero => exact ⟨[], first, items, rfl, hfirst, rfl⟩
          | succ count =>
              rw [if_pos hfirst] at hlt
              obtain ⟨done, item, rest, rfl, hitem, hdone⟩ := ih (Nat.lt_of_succ_lt_succ hlt)
              exact ⟨first :: done, item, rest, rfl, hitem, by
                rw [List.countP_cons_of_pos hfirst, hdone]⟩

theorem idsCounted_initial {M : Type} (mapId : M → UInt16) : IdsCounted 0 (Maps.initial mapId) :=
  ⟨rfl, .nil, .nil, List.forall_mem_nil _, List.forall_mem_nil _⟩

/-- Open the same map again and again, closing it in between. -/
def reopenings {M : Type} (map : M) : ℕ → List (MapCall M)
  | 0 => [.add (some map)]
  | count + 1 => .add (some map) :: .remove (some map) :: reopenings map count

theorem countP_reopenings {M : Type} (map : M) (count : ℕ) :
    (reopenings map count).countP MapCall.opens = count + 1 := by
  induction count with
  | zero => rfl
  | succ count ih =>
      rw [reopenings, List.countP_cons_of_pos rfl,
        List.countP_cons_of_neg (by simp [MapCall.opens]), ih]

section LastId

variable {M : Type} [DecidableEq M]

theorem not_keepsIds {mapId : M → UInt16} {calls : List (MapCall M)}
    (hallowed : Fault.MeetsAlong MapCall.make MapCall.Allowed (Maps.initial mapId) calls)
    (hlt : 65534 < calls.countP MapCall.opens) :
    ¬ KeepsIds (Maps.initial mapId) calls := by
  intro hkeeps
  obtain ⟨done, call, rest, rfl, hopens, hcount⟩ := exists_split_of_lt_countP hlt
  obtain ⟨maps, hdone, hcounted⟩ := (idsCounted_initial mapId).run hallowed.of_append (by omega)
  have hnow := hallowed.meets_at hdone
  rw [Nat.zero_add, hcount] at hcounted
  match call, hopens with
  | .add (some map), _ =>
      obtain ⟨added, hadd, hadded, hopen⟩ := hcounted.addMap map (by decide) hnow.1
      have hlast : maps.lastUsedMapID + 1 = 65535 := by
        rw [← UInt16.toNat_inj, UInt16.toNat_add, hcounted.last]
        rfl
      have hmem : ((65535, map) : UInt16 × M) ∈ added.openMaps := by
        rw [hopen, hlast]
        exact (perm_insert _ _ _).mem_iff.mpr List.mem_cons_self
      have hhold : IdsHold added := by
        refine hkeeps (done ++ [.add (some map)]) rest added (by simp) ?_
        rw [List.foldlM_append, hdone]
        exact (bind_pure _).trans hadd
      have hremoved := (hhold.removes map (List.mem_map_of_mem hmem)).1
      rw [(hadded.removeMap hmem).1] at hremoved
      cases hremoved

theorem allowed_reopenings (map : M) (count : ℕ) {maps : Maps M} {opened : ℕ}
    (hcounted : IdsCounted opened maps) (hempty : maps.openMaps = [])
    (hle : opened + count ≤ 65534) :
    Fault.MeetsAlong MapCall.make MapCall.Allowed maps (reopenings map count) := by
  induction count generalizing maps opened with
  | zero => exact ⟨by simp [MapCall.Allowed, hempty], fun _ _ => trivial⟩
  | succ count ih =>
      refine ⟨by simp [MapCall.Allowed, hempty], fun added hadd => ?_⟩
      obtain ⟨_, hadd', hadded, hopen⟩ := hcounted.addMap map (by omega) (by simp [hempty])
      cases hadd.symm.trans hadd'
      refine ⟨trivial, fun removed hremove => ?_⟩
      cases hremove
      rw [hempty] at hopen
      have hmem : (maps.lastUsedMapID + 1, map) ∈ added.openMaps := hopen ▸ List.mem_cons_self
      have hlast : maps.lastUsedMapID + 1 ≠ 65535 := by
        intro heq
        have hrange := (hadded.range _ hmem).2
        rw [heq] at hrange
        have hle : 65535 ≤ opened + 1 := hrange
        omega
      refine ih (hadded.of_removeMap _) ?_ (by omega)
      rw [(hadded.removeMap hmem).2 hlast, hopen]
      simp [Maps.insert]

end LastId

/-- The ids hold in every state of a run if and only if it opens fewer than
65535 maps. -/
theorem keepsIds_iff {M : Type} [DecidableEq M] (mapId : M → UInt16) (calls : List (MapCall M))
    (hallowed : Fault.MeetsAlong MapCall.make MapCall.Allowed (Maps.initial mapId) calls) :
    KeepsIds (Maps.initial mapId) calls ↔ calls.countP MapCall.opens < 65535 := by
  constructor
  · intro hkeeps
    by_contra hle
    exact not_keepsIds hallowed (by omega) hkeeps
  · rintro hlt done rest maps rfl hrun
    rw [List.countP_append] at hlt
    obtain ⟨final, hdone, hcounted⟩ := (idsCounted_initial mapId).run hallowed.of_append (by omega)
    cases hrun.symm.trans hdone
    exact hcounted.idsHold (by omega)

theorem keepsIds_once : KeepsIds (Maps.initial fun _ => 0) [.add (some 7), .remove (some 7)] :=
  (keepsIds_iff (fun _ : ℕ => 0) [.add (some 7), .remove (some 7)] ⟨⟨List.not_mem_nil, by decide⟩,
      fun _ _ => ⟨trivial, fun _ _ => trivial⟩⟩).mpr (by decide)

/-- One map at a time is opened, 65535 times: the last one stays open. -/
theorem last_map_stays_open : Fault.MeetsAlong MapCall.make MapCall.Allowed
        (Maps.initial fun _ : ℕ => 0) (reopenings 7 65534) ∧
      ¬ KeepsIds (Maps.initial fun _ : ℕ => 0) (reopenings 7 65534) := by
  have hallowed := allowed_reopenings 7 65534 (idsCounted_initial fun _ : ℕ => 0) rfl (by decide)
  refine ⟨hallowed, not_keepsIds hallowed ?_⟩
  rw [countP_reopenings]
  decide

end Chkdraft.Editor
