import Chkdraft.Archive.ModifiedAssets
import Mathlib.Data.List.Induction
import Mathlib.Data.List.Nodup
import Mathlib.Data.List.ReduceOption

/-!
# Replaying the changed assets

The list of changed assets is seen as one queue for each path: an addition goes
to the end, a removal takes the first entry or, without one, is the entry.  So
the additions in a queue are the last ones made, and the first of them is what
the asset reads as.
-/

namespace Chkdraft.Archive

variable {temporaryMpq : Mpq} {assets : List ModifiedAsset} {other : String}

/-- A change of the asset at a path: its new content, or none. -/
abbrev Change : Type := String × Option (List UInt8)

/-- An entry stands for a change. -/
structure Matches (temporaryMpq : Mpq) (asset : ModifiedAsset) (change : Change) : Prop where
  path : asset.assetMpqPath = change.1
  quality : asset.wavQualitySelected = .uncompressed
  content : match change.2 with
    | some data => asset.actionTaken = .add ∧
        temporaryMpq asset.assetTempMpqPath = some data
    | none => asset.actionTaken = .remove

/-- The entries of a map file stand for changes, and those that wait in the
temporary archive do not share a path there. -/
structure Holds (map : MapFile) (changes : List Change) : Prop where
  entries : List.Forall₂ (Matches map.temporaryMpq) map.modifiedAssets changes
  made : ∀ asset ∈ map.modifiedAssets, ∃ id < map.nextAssetId, asset.assetTempMpqPath = id.repr
  distinct : (map.modifiedAssets.map ModifiedAsset.assetTempMpqPath).Nodup

theorem repr_inj {first second : ℕ} (hsame : first.repr = second.repr) : first = second := by
  have hdigits := congrArg String.toList hsame
  rw [Nat.toList_repr, Nat.toList_repr] at hdigits
  rw [← @Nat.ofDigitChars_toDigits 10 first (by decide) (by decide), hdigits,
    Nat.ofDigitChars_toDigits (by decide) (by decide)]

theorem matches_update {changes : List Change} {mpqPath : String}
    (hentries : List.Forall₂ (Matches temporaryMpq) assets changes)
    (hother : ∀ asset ∈ assets, asset.assetTempMpqPath ≠ mpqPath)
    (data : Option (List UInt8)) :
    List.Forall₂ (Matches (Function.update temporaryMpq mpqPath data)) assets
      changes := by
  induction hentries with
  | nil => exact .nil
  | @cons asset change assets changes hmatches _ ih =>
      rw [List.forall_mem_cons] at hother
      refine .cons ⟨hmatches.path, hmatches.quality, ?_⟩ (ih hother.2)
      rw [Function.update_of_ne hother.1]
      exact hmatches.content

/-- What removing an asset does to the changes. -/
def removeChange (changes : List Change) (path : String) : List Change :=
  if path ∈ changes.map Prod.fst then
    changes.eraseP fun change => change.1 = path
  else
    changes ++ [(path, none)]

section Calls

variable {map : MapFile} {changes : List Change}

theorem Holds.fresh (hholds : Holds map changes) : ∀ asset ∈ map.modifiedAssets,
      asset.assetTempMpqPath ≠ map.nextAssetId.repr := by
  intro asset hasset hsame
  obtain ⟨id, hlt, hid⟩ := hholds.made asset hasset
  exact Nat.ne_of_lt hlt (repr_inj (hid.symm.trans hsame))

theorem Holds.append {asset : ModifiedAsset} {change : Change} (hholds : Holds map changes)
    (htemporary : List.Forall₂ (Matches temporaryMpq) map.modifiedAssets
      changes) (hpath : asset.assetTempMpqPath = map.nextAssetId.repr)
    (hmatches : Matches temporaryMpq asset change) :
    Holds ⟨map.archive, temporaryMpq, map.modifiedAssets ++ [asset],
      map.nextAssetId + 1⟩ (changes ++ [change]) where
  entries := List.rel_append htemporary (.cons hmatches .nil)
  made := by
    intro other hother
    rcases List.mem_append.mp hother with hold | hnew
    · obtain ⟨id, hlt, hid⟩ := hholds.made other hold
      exact ⟨id, Nat.lt_succ_of_lt hlt, hid⟩
    · rw [List.mem_singleton.mp hnew]
      exact ⟨map.nextAssetId, Nat.lt_succ_self _, hpath⟩
  distinct := by
    rw [List.map_append, List.map_singleton, List.nodup_append]
    refine ⟨hholds.distinct, List.nodup_cons.mpr ⟨by simp, .nil⟩, ?_⟩
    intro old hold new hnew
    obtain ⟨other, hother, rfl⟩ := List.mem_map.mp hold
    rw [List.mem_singleton.mp hnew, hpath]
    exact hholds.fresh other hother

theorem Holds.addMpqAsset (hholds : Holds map changes) (path : String)
    (asset : List UInt8) (wavQuality : WavQuality) :
    Holds (map.addMpqAsset path asset wavQuality) (changes ++ [(path, some asset)]) := by
  refine hholds.append ?_ rfl ⟨rfl, rfl, rfl, ?_⟩
  · exact matches_update hholds.entries hholds.fresh _
  · exact Function.update_self _ _ _

theorem erase_matches {changes : List Change} {path : String}
    (hentries : List.Forall₂ (Matches temporaryMpq) assets changes) :
    List.Forall₂ (Matches temporaryMpq) (assets.eraseP fun asset => asset.assetMpqPath = path)
      (changes.eraseP fun change => change.1 = path) := by
  induction hentries with
  | nil => exact .nil
  | @cons asset change assets changes hmatches hrest ih =>
      rw [List.eraseP_cons, List.eraseP_cons, hmatches.path]
      by_cases hpath : change.1 = path
      · simpa [hpath] using hrest
      · simpa [hpath] using ⟨hmatches, ih⟩

theorem paths_eq {changes : List Change}
    (hentries : List.Forall₂ (Matches temporaryMpq) assets changes) :
    assets.map ModifiedAsset.assetMpqPath = changes.map Prod.fst := by
  induction hentries with
  | nil => rfl
  | cons hmatches _ ih => rw [List.map_cons, List.map_cons, hmatches.path, ih]

/-- No other entry shares the temporary path of the one erased. -/
theorem ne_of_erased {path : String} {asset : ModifiedAsset}
    (hdistinct : (assets.map ModifiedAsset.assetTempMpqPath).Nodup)
    (hfind : (assets.find? fun asset => asset.assetMpqPath = path) = some asset) :
    ∀ other ∈ assets.eraseP fun asset => asset.assetMpqPath = path,
      other.assetTempMpqPath ≠ asset.assetTempMpqPath := by
  obtain ⟨hpath, before, behind, rfl, hbefore⟩ := List.find?_eq_some_iff_append.mp hfind
  have hnone : ∀ other ∈ before, ¬ (decide (other.assetMpqPath = path)) = true := by
    intro other hother
    simpa using hbefore other hother
  have herase : (asset :: behind).eraseP (fun asset =>
      asset.assetMpqPath = path) = behind := List.eraseP_cons_of_pos hpath
  rw [List.eraseP_append_right _ hnone, herase]
  intro other hother hsame
  rw [List.map_append, List.map_cons, List.nodup_middle, List.nodup_cons,
    ← List.map_append] at hdistinct
  exact hdistinct.1 (List.mem_map.mpr ⟨other, hother, hsame⟩)

theorem Holds.removeMpqAsset (hholds : Holds map changes) (path : String) :
    Holds (map.removeMpqAsset path) (removeChange changes path) := by
  have hpaths := paths_eq hholds.entries
  rw [MapFile.removeMpqAsset, removeChange]
  cases hfind : map.modifiedAssets.find? fun asset =>
      asset.assetMpqPath = path with
  | none =>
      have hnone : path ∉ changes.map Prod.fst := by
        rw [← hpaths, List.mem_map]
        rintro ⟨asset, hasset, rfl⟩
        simpa using List.find?_eq_none.mp hfind asset hasset
      rw [if_neg hnone]
      exact hholds.append hholds.entries rfl ⟨rfl, rfl, rfl⟩
  | some asset =>
      have hpath : asset.assetMpqPath = path := by
        simpa using List.find?_some hfind
      have hmem : path ∈ changes.map Prod.fst := by
        rw [← hpaths]
        exact List.mem_map.mpr ⟨asset, List.mem_of_find?_eq_some hfind, hpath⟩
      rw [if_pos hmem]
      have hsublist := @List.eraseP_sublist _ (fun asset : ModifiedAsset =>
        asset.assetMpqPath = path) map.modifiedAssets
      refine ⟨?_, fun other hother => hholds.made other
        (hsublist.subset hother), (hsublist.map _).nodup hholds.distinct⟩
      apply matches_update (erase_matches hholds.entries)
      exact ne_of_erased hholds.distinct hfind

/-- What the changes hold for one path, in their order. -/
def queue (path : String) (changes : List Change) : List (Option (List UInt8)) :=
  (changes.filter fun change => change.1 = path).map Prod.snd

section Queue

variable {path : String} {change : Change} {changes : List Change}

theorem queue_cons_self (hpath : change.1 = path) :
    queue path (change :: changes) = change.2 :: queue path changes := by
  simp [queue, hpath]

theorem queue_cons_of_ne (hpath : change.1 ≠ path) :
    queue path (change :: changes) = queue path changes := by
  simp [queue, hpath]

theorem queue_append_self (path : String) (changes : List Change) (data : Option (List UInt8)) :
    queue path (changes ++ [(path, data)]) = queue path changes ++ [data] := by
  simp [queue]

theorem queue_append_of_ne (hpath : other ≠ path) (data : Option (List UInt8)) :
    queue path (changes ++ [(other, data)]) = queue path changes := by
  simp [queue, hpath]

theorem queue_eq_nil_iff : queue path changes = [] ↔ path ∉ changes.map Prod.fst := by
  rw [queue, List.map_eq_nil_iff, List.filter_eq_nil_iff, List.mem_map]
  constructor
  · rintro hnone ⟨change, hchange, hpath⟩
    exact hnone change hchange (by simpa using hpath)
  · intro hnone change hchange hpath
    exact hnone ⟨change, hchange, by simpa using hpath⟩

theorem queue_eraseP_self (path : String) (changes : List Change) :
    queue path (changes.eraseP fun change => change.1 = path) = (queue path changes).tail := by
  induction changes with
  | nil => rfl
  | cons change rest ih =>
      by_cases hpath : change.1 = path
      · simp [queue, hpath]
      · rw [List.eraseP_cons_of_neg (by simpa using hpath),
          queue_cons_of_ne hpath, queue_cons_of_ne hpath, ih]

theorem queue_eraseP_of_ne (hpath : other ≠ path) (changes : List Change) :
    queue path (changes.eraseP fun change => change.1 = other) = queue path changes := by
  induction changes with
  | nil => rfl
  | cons change rest ih =>
      by_cases hother : change.1 = other
      · rw [List.eraseP_cons_of_pos (by simpa using hother), queue_cons_of_ne (hother ▸ hpath)]
      · rw [List.eraseP_cons_of_neg (by simpa using hother)]
        by_cases hself : change.1 = path
        · rw [queue_cons_self hself, queue_cons_self hself, ih]
        · rw [queue_cons_of_ne hself, queue_cons_of_ne hself, ih]

/-- A removal takes the first entry of its queue, or is the only one. -/
theorem queue_removeChange_self (path : String) (changes : List Change) :
    queue path (removeChange changes path) =
      if queue path changes = [] then [none]
      else (queue path changes).tail := by
  rw [removeChange]
  by_cases hmem : path ∈ changes.map Prod.fst
  · rw [if_pos hmem, if_neg (mt queue_eq_nil_iff.mp (not_not.mpr hmem)), queue_eraseP_self]
  · have hnil := queue_eq_nil_iff.mpr hmem
    rw [if_neg hmem, if_pos hnil, queue_append_self, hnil]
    rfl

theorem queue_removeChange_of_ne (hpath : other ≠ path) (changes : List Change) :
    queue path (removeChange changes other) = queue path changes := by
  rw [removeChange]
  split
  · exact queue_eraseP_of_ne hpath changes
  · exact queue_append_of_ne hpath none

end Queue

/-- An asset reads as its first addition, or from the archive. -/
theorem getMpqAsset_eq (hentries : List.Forall₂ (Matches temporaryMpq) assets changes)
    (archive : Mpq) (nextAssetId : ℕ) (path : String) :
    MapFile.getMpqAsset ⟨archive, temporaryMpq, assets, nextAssetId⟩ path =
      (queue path changes).reduceOption.head?.or (archive path) := by
  induction hentries with
  | nil => rfl
  | @cons asset change assets changes hmatches _ ih =>
      obtain ⟨changed, data⟩ := change
      have hcontent := hmatches.content
      have hpath : asset.assetMpqPath = changed := hmatches.path
      rw [MapFile.getMpqAsset] at ih ⊢
      by_cases hself : changed = path
      · rw [queue_cons_self hself]
        cases data with
        | some data =>
            obtain ⟨haction, hdata⟩ := hcontent
            rw [List.find?_cons_of_pos (by simp [haction, hpath, hself]),
              List.reduceOption_cons_of_some, List.head?_cons, Option.some_or]
            exact hdata
        | none =>
            have hremove : asset.actionTaken = .remove := hcontent
            rw [List.find?_cons_of_neg (by simp [hremove]), List.reduceOption_cons_of_none]
            exact ih
      · rw [queue_cons_of_ne hself, List.find?_cons_of_neg (by simp [hpath, hself])]
        exact ih

theorem Holds.getMpqAsset (hholds : Holds map changes) (path : String) : map.getMpqAsset path =
      (queue path changes).reduceOption.head?.or (map.archive path) :=
  getMpqAsset_eq hholds.entries map.archive map.nextAssetId path

/-- The last entry of a queue is what the archive then holds. -/
theorem processAssets_eq (wave : WavQuality → List UInt8 → List UInt8) (archive : Mpq)
    (hentries : List.Forall₂ (Matches temporaryMpq) assets changes)
    (hdistinct : (assets.map ModifiedAsset.assetTempMpqPath).Nodup) :
    ∃ processed rest, MapFile.processAssets wave assets archive temporaryMpq =
        (processed, rest, List.replicate assets.length true) ∧
      ∀ path, processed path = (queue path changes).getLast?.getD (archive path) := by
  induction assets generalizing archive temporaryMpq changes with
  | nil =>
      cases hentries
      exact ⟨archive, temporaryMpq, rfl, fun _ => rfl⟩
  | cons asset assets ih =>
      obtain ⟨⟨changed, data⟩, changes, hmatches, hrest, rfl⟩ :=
        List.forall₂_cons_left_iff.mp hentries
      rw [List.map_cons, List.nodup_cons] at hdistinct
      have hpath : asset.assetMpqPath = changed := hmatches.path
      -- The entry is processed, and the temporary files of the others stay.
      have hone : ∃ middle, MapFile.processAsset wave archive temporaryMpq
          asset = (Function.update archive changed data, middle, true) ∧
            List.Forall₂ (Matches middle) assets changes := by
        have hcontent := hmatches.content
        cases data with
        | none =>
            have hremove : asset.actionTaken = .remove := hcontent
            refine ⟨temporaryMpq, ?_, hrest⟩
            rw [MapFile.processAsset, hremove, hpath]
            rfl
        | some data =>
            obtain ⟨hadd, hdata⟩ := hcontent
            refine ⟨temporaryMpq.removeFile asset.assetTempMpqPath, ?_, ?_⟩
            · simp only [MapFile.processAsset, hadd, Mpq.getFile, hdata, hmatches.quality, hpath]
              rfl
            · apply matches_update hrest
              intro other hother hsame
              exact hdistinct.1 (List.mem_map.mpr ⟨other, hother, hsame⟩)
      obtain ⟨middle, hprocess, hmiddle⟩ := hone
      obtain ⟨processed, rest, hothers, hprocessed⟩ :=
        ih (Function.update archive changed data) hmiddle hdistinct.2
      refine ⟨processed, rest, ?_, fun path => ?_⟩
      · simp only [MapFile.processAssets, hprocess, hothers]
        rfl
      · rw [hprocessed path]
        by_cases hself : changed = path
        · rw [queue_cons_self hself, hself, Function.update_self, List.getLast?_cons]
          rfl
        · rw [queue_cons_of_ne hself, Function.update_of_ne (Ne.symm hself)]

theorem Holds.processModifiedAssets (hholds : Holds map changes)
    (wave : WavQuality → List UInt8 → List UInt8) :
    ∃ saved, map.processModifiedAssets wave = .ok (saved, true) ∧ ∀ path, saved.archive path =
        (queue path changes).getLast?.getD (map.archive path) := by
  obtain ⟨processed, rest, hprocess, hprocessed⟩ :=
    processAssets_eq wave map.archive hholds.entries hholds.distinct
  refine ⟨⟨processed, rest, [], map.nextAssetId⟩, ?_, hprocessed⟩
  simp only [MapFile.processModifiedAssets, hprocess, List.count_replicate_self, if_true]

end Calls

/-- What is pending of a path: a removal, and so many of the last additions. -/
structure Pending where
  removal : Bool
  additions : ℕ
deriving DecidableEq, Repr

namespace Pending

def add (pending : Pending) : Pending :=
  { pending with additions := pending.additions + 1 }

/-- A removal cancels what is pending first, be it another removal. -/
def remove (pending : Pending) : Pending :=
  if pending.removal then
    { pending with removal := false }
  else if 0 < pending.additions then
    { pending with additions := pending.additions - 1 }
  else
    { pending with removal := true }

end Pending

def callsOn (path : String) (calls : List AssetCall) : List AssetCall :=
  calls.filter fun call => call.path = path

/-- What calls on one path leave pending. -/
def pendingOf (calls : List AssetCall) : Pending := calls.foldl (fun pending call => match call with
    | .add _ _ _ => pending.add
    | .remove _ => pending.remove) ⟨false, 0⟩

def additionsOf (calls : List AssetCall) : List (List UInt8) :=
  calls.filterMap fun call => match call with
    | .add _ asset _ => some asset
    | .remove _ => none

def pendingAdditions (calls : List AssetCall) : List (List UInt8) :=
  (additionsOf calls).drop ((additionsOf calls).length - (pendingOf calls).additions)

/-- An asset added last was not added before with another content, as far as is
pending; one removed last is not in the archive, and no addition is pending. -/
def MeetsAssets (archive : Mpq) (calls : List AssetCall) (path : String) : Prop :=
  match (callsOn path calls).getLast? with
  | none => True
  | some (.add _ asset _) =>
      (pendingAdditions (callsOn path calls)).head? = some asset
  | some (.remove _) =>
      (pendingOf (callsOn path calls)).additions = 0 ∧ archive path = none

section Pending

variable {calls : List AssetCall}

theorem additions_le (calls : List AssetCall) :
    (pendingOf calls).additions ≤ (additionsOf calls).length := by
  induction calls using List.reverseRecOn with
  | nil => exact Nat.le_refl 0
  | append_singleton calls call ih =>
      rw [pendingOf, List.foldl_append, additionsOf, List.filterMap_append, List.length_append]
      cases call with
      | add path asset wavQuality =>
          change (pendingOf calls).additions + 1 ≤ (additionsOf calls).length + 1
          omega
      | remove path =>
          change (pendingOf calls).remove.additions ≤ (additionsOf calls).length + 0
          rw [Pending.remove]
          split_ifs <;> simp only <;> omega

theorem pendingAdditions_add (calls : List AssetCall) (path : String)
    (asset : List UInt8) (wavQuality : WavQuality) :
    pendingAdditions (calls ++ [.add path asset wavQuality]) =
      pendingAdditions calls ++ [asset] := by
  have hle := additions_le calls
  have hadditions : additionsOf (calls ++ [.add path asset wavQuality]) =
      additionsOf calls ++ [asset] := by
    simp [additionsOf]
  have hpending : (pendingOf (calls ++ [.add path asset wavQuality])).additions =
        (pendingOf calls).additions + 1 := by
    simp [pendingOf, Pending.add]
  rw [pendingAdditions, hadditions, hpending, List.length_append,
    List.length_singleton, List.drop_append_of_le_length (by omega),
    pendingAdditions, Nat.add_sub_add_right]

theorem pendingAdditions_remove (calls : List AssetCall) (path : String) :
    pendingAdditions (calls ++ [.remove path]) =
      if (pendingOf calls).removal then pendingAdditions calls
      else (pendingAdditions calls).tail := by
  have hle := additions_le calls
  have hadditions : additionsOf (calls ++ [.remove path]) = additionsOf calls := by
    simp [additionsOf]
  have hpending : pendingOf (calls ++ [.remove path]) = (pendingOf calls).remove := by
    simp [pendingOf]
  rw [pendingAdditions, hadditions, hpending, Pending.remove]
  split
  · rfl
  · split
    · rw [pendingAdditions, List.tail_drop]
      simp only
      congr 1
      omega
    · have hzero : (pendingOf calls).additions = 0 := by omega
      simp [pendingAdditions, hzero]

theorem length_pendingAdditions (calls : List AssetCall) :
    (pendingAdditions calls).length = (pendingOf calls).additions := by
  have hle := additions_le calls
  rw [pendingAdditions, List.length_drop]
  omega

theorem pendingAdditions_eq_nil_iff :
    pendingAdditions calls = [] ↔ (pendingOf calls).additions = 0 := by
  rw [← length_pendingAdditions, List.length_eq_zero_iff]

end Pending

def AssetCall.change (changes : List Change) : AssetCall → List Change
  | add path asset _ => changes ++ [(path, some asset)]
  | remove path => removeChange changes path

theorem holds_calls (archive temporaryMpq : Mpq) (nextAssetId : ℕ) (calls : List AssetCall) :
    Holds (calls.foldl AssetCall.make (.saved archive temporaryMpq nextAssetId))
      (calls.foldl AssetCall.change []) ∧
    (calls.foldl AssetCall.make (.saved archive temporaryMpq nextAssetId)).archive = archive := by
  induction calls using List.reverseRecOn with
  | nil => exact ⟨⟨.nil, List.forall_mem_nil _, .nil⟩, rfl⟩
  | append_singleton calls call ih =>
      rw [List.foldl_append, List.foldl_append]
      obtain ⟨hholds, harchive⟩ := ih
      cases call with
      | add path asset wavQuality =>
          exact ⟨hholds.addMpqAsset path asset wavQuality, harchive⟩
      | remove path =>
          refine ⟨hholds.removeMpqAsset path, Eq.trans ?_ harchive⟩
          change (MapFile.removeMpqAsset _ path).archive = _
          rw [MapFile.removeMpqAsset]
          split
          · rfl
          · rfl

variable {call : AssetCall}

theorem callsOn_append_self {path : String} (hpath : call.path = path) (calls : List AssetCall) :
    callsOn path (calls ++ [call]) = callsOn path calls ++ [call] := by
  simp [callsOn, hpath]

theorem callsOn_append_of_ne {path : String} (hpath : call.path ≠ path) (calls : List AssetCall) :
    callsOn path (calls ++ [call]) = callsOn path calls := by
  simp [callsOn, hpath]

theorem queue_change_of_ne {path : String} (hpath : call.path ≠ path) (changes : List Change) :
    queue path (call.change changes) = queue path changes := by
  cases call with
  | add other asset wavQuality => exact queue_append_of_ne hpath _
  | remove other => exact queue_removeChange_of_ne hpath changes

/-- The queue of a path holds the pending removal and the last additions. -/
theorem queue_calls (path : String) (calls : List AssetCall) :
    queue path (calls.foldl AssetCall.change []) =
      (if (pendingOf (callsOn path calls)).removal then [none] else []) ++
        (pendingAdditions (callsOn path calls)).map some := by
  induction calls using List.reverseRecOn with
  | nil => rfl
  | append_singleton calls call ih =>
      rw [List.foldl_append, List.foldl_cons, List.foldl_nil]
      by_cases hpath : call.path = path
      · rw [callsOn_append_self hpath]
        generalize calls.foldl AssetCall.change [] = changes at ih
        generalize callsOn path calls = own at ih
        subst hpath
        cases call with
        | add path asset wavQuality =>
            have hremoval : (pendingOf (own ++ [.add path asset wavQuality])).removal =
                  (pendingOf own).removal := by
              simp [pendingOf, Pending.add]
            have hqueue : queue path (changes ++ [(path, some asset)]) =
                queue path changes ++ [some asset] := queue_append_self _ _ _
            rw [pendingAdditions_add, hremoval, List.map_append, ← List.append_assoc]
            exact hqueue.trans (congrArg (· ++ [some asset]) ih)
        | remove path =>
            have hpending : pendingOf (own ++ [.remove path]) = (pendingOf own).remove := by
              simp [pendingOf]
            have hqueue : queue path (removeChange changes path) = _ :=
              queue_removeChange_self path changes
            refine hqueue.trans ?_
            simp only [AssetCall.path] at ih
            rw [ih, pendingAdditions_remove, hpending, Pending.remove]
            by_cases hremoval : (pendingOf own).removal
            · simp [hremoval]
            · rcases Nat.eq_zero_or_pos (pendingOf own).additions with
                hzero | hpos
              · simp [hremoval, hzero, pendingAdditions_eq_nil_iff.mpr hzero]
              · have hne : pendingAdditions own ≠ [] := fun hnil =>
                  Nat.ne_of_gt hpos (pendingAdditions_eq_nil_iff.mp hnil)
                simp [hremoval, hpos, hne]
      · rw [callsOn_append_of_ne hpath, queue_change_of_ne hpath, ih]

theorem apply_calls (archive : Mpq) (calls : List AssetCall) (path : String) :
    calls.foldl AssetCall.apply archive path =
      match (callsOn path calls).getLast? with
      | none => archive path
      | some (.add _ asset _) => some asset
      | some (.remove _) => none := by
  induction calls using List.reverseRecOn with
  | nil => rfl
  | append_singleton calls call ih =>
      rw [List.foldl_append, List.foldl_cons, List.foldl_nil]
      by_cases hpath : call.path = path
      · rw [callsOn_append_self hpath, List.getLast?_concat]
        subst hpath
        cases call with
        | add path asset wavQuality => exact Function.update_self _ _ _
        | remove path => exact Function.update_self _ _ _
      · rw [callsOn_append_of_ne hpath, ← ih]
        cases call with
        | add other asset wavQuality =>
            exact Function.update_of_ne (Ne.symm hpath) _ _
        | remove other => exact Function.update_of_ne (Ne.symm hpath) _ _

section Paths

variable {archive : Mpq} {calls : List AssetCall} {path : String}

theorem meetsAssets_iff : MeetsAssets archive calls path ↔
      (pendingAdditions (callsOn path calls)).head?.or (archive path) =
        calls.foldl AssetCall.apply archive path := by
  rw [apply_calls, MeetsAssets]
  rcases (callsOn path calls).eq_nil_or_concat with hnil | ⟨own, call, hown⟩
  · rw [hnil]
    simp [pendingAdditions, additionsOf]
  · rw [hown, List.concat_eq_append, List.getLast?_concat]
    cases call with
    | add other asset wavQuality =>
        rw [pendingAdditions_add]
        cases pendingAdditions own with
        | nil => rfl
        | cons first rest => rfl
    | remove other =>
        simp only [Option.or_eq_none_iff, List.head?_eq_none_iff, pendingAdditions_eq_nil_iff]

theorem processed_of_meets (hmeets : MeetsAssets archive calls path) :
    (queue path (calls.foldl AssetCall.change [])).getLast?.getD (archive path) =
      calls.foldl AssetCall.apply archive path := by
  rw [MeetsAssets] at hmeets
  rw [apply_calls, queue_calls]
  rcases (callsOn path calls).eq_nil_or_concat with hnil | ⟨own, call, hown⟩
  · rw [hnil]
    rfl
  · rw [hown, List.concat_eq_append, List.getLast?_concat] at hmeets ⊢
    cases call with
    | add other asset wavQuality =>
        rw [pendingAdditions_add, List.map_append, ← List.append_assoc,
          List.map_singleton, List.getLast?_concat]
        rfl
    | remove other =>
        obtain ⟨hzero, harchive⟩ := hmeets
        rw [pendingAdditions_eq_nil_iff.mpr hzero, harchive]
        split
        · rfl
        · rfl

end Paths

/-- Pending changes are replayed if and only if the calls on each path meet
their condition. -/
theorem replaysAssets_iff_meets
    (wave : WavQuality → List UInt8 → List UInt8) (archive temporaryMpq : Mpq)
    (nextAssetId : ℕ) (calls : List AssetCall) :
    ReplaysAssets wave (.saved archive temporaryMpq nextAssetId) calls ↔
      ∀ path, MeetsAssets archive calls path := by
  obtain ⟨hholds, harchive⟩ := holds_calls archive temporaryMpq nextAssetId calls
  have hget (path : String) : (calls.foldl AssetCall.make (.saved archive temporaryMpq
          nextAssetId)).getMpqAsset path =
        (pendingAdditions (callsOn path calls)).head?.or (archive path) := by
    have hsome (additions : List (List UInt8)) : (additions.map some).reduceOption = additions := by
      simp [List.reduceOption, List.filterMap_map]
    rw [hholds.getMpqAsset, harchive, queue_calls, List.reduceOption_append, hsome]
    split
    · rfl
    · rfl
  constructor
  · intro hreplays path
    rw [meetsAssets_iff, ← hget path]
    exact hreplays.get path
  · intro hmeets
    refine ⟨fun path => ?_, ?_⟩
    · rw [hget path]
      exact meetsAssets_iff.mp (hmeets path)
    · obtain ⟨saved, hprocess, hsaved⟩ := hholds.processModifiedAssets wave
      rw [harchive] at hsaved
      exact ⟨saved, hprocess, funext fun path =>
        (hsaved path).trans (processed_of_meets (hmeets path))⟩

/-- An asset of the archive is replaced and then removed: the removal cancels
the addition, and the old content is saved. -/
theorem removed_asset_stays : ¬ ReplaysAssets (fun _ data => data)
      (.saved (Mpq.addFile (fun _ => none) "a.wav" [1]) (fun _ => none) 0)
      [.add "a.wav" [2] .uncompressed, .remove "a.wav"] := by
  rintro ⟨-, map, hprocess, harchive⟩
  cases hprocess
  have hstays := congrFun harchive "a.wav"
  revert hstays
  decide

end Chkdraft.Archive
