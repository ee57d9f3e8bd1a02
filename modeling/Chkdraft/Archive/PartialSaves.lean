import Chkdraft.Archive.ModifiedAssets
import Chkdraft.Core.Iterators
import Mathlib.Data.List.Nodup

/-!
# Saves that process only some assets

Every archive operation behind `processModifiedAssets` may fail.  An asset whose
operation fails should stay on the list with its data, for the next save to try
again.  The data of an addition leaves the temporary archive before it is known
whether the map archive takes it, and the processed entries are erased through
iterators of which the first erasure leaves at most one valid.
-/

namespace Chkdraft.Archive

/-- Which archive operations succeed, for each asset. -/
structure Outcomes where
  openTemporaryMpq : Bool
  getFile : ModifiedAsset → Bool
  removeTemporary : ModifiedAsset → Bool
  addFile : ModifiedAsset → Bool
  removeFile : ModifiedAsset → Bool

namespace Outcomes

variable (outcomes : Outcomes) (temporaryMpq : Mpq) (asset : ModifiedAsset)

/-- The data of an added asset is there and can be read. -/
def reads : Bool := outcomes.openTemporaryMpq &&
    ((temporaryMpq.getFile asset.assetTempMpqPath).isSome && outcomes.getFile asset)

def succeeds : Bool :=
  match asset.actionTaken with
  | .add => outcomes.reads temporaryMpq asset && outcomes.addFile asset
  | .remove => outcomes.openTemporaryMpq && outcomes.removeFile asset

/-- The data of an added asset is taken out of the temporary archive. -/
def takes : Bool :=
  match asset.actionTaken with
  | .add => outcomes.reads temporaryMpq asset && outcomes.removeTemporary asset
  | .remove => false

variable {outcomes temporaryMpq asset}

section

variable {other : Mpq} (hsame : other asset.assetTempMpqPath = temporaryMpq asset.assetTempMpqPath)

include hsame

/-- What happens to an asset depends on its own data only. -/
theorem reads_congr : outcomes.reads other asset = outcomes.reads temporaryMpq asset := by
  rw [reads, reads, Mpq.getFile, hsame, Mpq.getFile]

theorem succeeds_congr : outcomes.succeeds other asset = outcomes.succeeds temporaryMpq asset := by
  rw [succeeds, succeeds, reads_congr hsame]

theorem takes_congr : outcomes.takes other asset = outcomes.takes temporaryMpq asset := by
  rw [takes, takes, reads_congr hsame]

end

theorem exists_data_of_takes (htakes : outcomes.takes temporaryMpq asset) :
    asset.actionTaken = .add ∧ ∃ data, temporaryMpq asset.assetTempMpqPath = some data := by
  rw [takes] at htakes
  cases hadd : asset.actionTaken with
  | add =>
      simp only [hadd, reads, Mpq.getFile, Bool.and_eq_true] at htakes
      exact ⟨rfl, Option.isSome_iff_exists.mp htakes.1.2.1⟩
  | remove => simp [hadd] at htakes

end Outcomes

namespace MapFile

def processAssetWith (outcomes : Outcomes)
    (wave : WavQuality → List UInt8 → List UInt8) (archive temporaryMpq : Mpq)
    (asset : ModifiedAsset) : Mpq × Mpq × Bool :=
  match asset.actionTaken with
  | .add =>
      match temporaryMpq.getFile asset.assetTempMpqPath with
      | some assetBuffer =>
          if outcomes.getFile asset then
            let temporaryMpq :=
              if outcomes.removeTemporary asset then
                temporaryMpq.removeFile asset.assetTempMpqPath
              else temporaryMpq
            if outcomes.addFile asset then
              (archive.addFileWithQuality wave asset.assetMpqPath assetBuffer
                asset.wavQualitySelected, temporaryMpq, true)
            else
              (archive, temporaryMpq, false)
          else
            (archive, temporaryMpq, false)
      | none => (archive, temporaryMpq, false)
  | .remove =>
      if outcomes.removeFile asset then
        (archive.removeFile asset.assetMpqPath, temporaryMpq, true)
      else
        (archive, temporaryMpq, false)

/-- The loop, with the iterators to the assets it processed. -/
def processAssetsWith (outcomes : Outcomes) (wave : WavQuality → List UInt8 → List UInt8) :
    ℕ → List ModifiedAsset → Mpq → Mpq → Mpq × Mpq × List ℕ
  | _, [], archive, temporaryMpq => (archive, temporaryMpq, [])
  | position, asset :: rest, archive, temporaryMpq =>
      match processAssetWith outcomes wave archive temporaryMpq asset with
      | (archive, temporaryMpq, processed) =>
          match processAssetsWith outcomes wave (position + 1) rest archive temporaryMpq with
          | (archive, temporaryMpq, processedAssets) =>
              (archive, temporaryMpq,
                if processed then position :: processedAssets
                else processedAssets)

def processModifiedAssetsWith (outcomes : Outcomes)
    (wave : WavQuality → List UInt8 → List UInt8) (map : MapFile) :
    Except Hazard (MapFile × Bool) :=
  match
    if outcomes.openTemporaryMpq then
      processAssetsWith outcomes wave 0 map.modifiedAssets map.archive map.temporaryMpq
    else
      (map.archive, map.temporaryMpq, []) with
  | (archive, temporaryMpq, processedAssets) =>
      if processedAssets.length = map.modifiedAssets.length then
        .ok ({ map with
          archive := archive
          temporaryMpq := temporaryMpq
          modifiedAssets := [] }, true)
      else
        (Iterators.eraseEach map.modifiedAssets.length map.modifiedAssets
          processedAssets).map fun modifiedAssets =>
            ({ map with
              archive := archive
              temporaryMpq := temporaryMpq
              modifiedAssets := modifiedAssets }, false)

end MapFile

def Outcomes.allSucceed : Outcomes :=
  ⟨true, fun _ => true, fun _ => true, fun _ => true, fun _ => true⟩

section AllSucceed

variable {wave : WavQuality → List UInt8 → List UInt8}

variable (wave) in
theorem length_processAssets (assets : List ModifiedAsset) (archive temporaryMpq : Mpq) :
    (MapFile.processAssets wave assets archive temporaryMpq).2.2.length =
      assets.length := by
  induction assets generalizing archive temporaryMpq with
  | nil => rfl
  | cons asset assets ih =>
      rw [MapFile.processAssets, List.length_cons, List.length_cons, ih]

theorem processAssetWith_allSucceed (archive temporaryMpq : Mpq) (asset : ModifiedAsset) :
    MapFile.processAssetWith .allSucceed wave archive temporaryMpq asset =
      MapFile.processAsset wave archive temporaryMpq asset := by
  rw [MapFile.processAssetWith, MapFile.processAsset]
  cases asset.actionTaken with
  | add => cases temporaryMpq.getFile asset.assetTempMpqPath <;> rfl
  | remove => rfl

theorem processAssetsWith_allSucceed (position : ℕ)
    (assets : List ModifiedAsset) (archive temporaryMpq : Mpq) :
    MapFile.processAssetsWith .allSucceed wave position assets archive temporaryMpq =
      match MapFile.processAssets wave assets archive temporaryMpq with
      | (archive, temporaryMpq, processed) =>
          (archive, temporaryMpq, processed.findIdxs id position) := by
  induction assets generalizing position archive temporaryMpq with
  | nil => rfl
  | cons asset assets ih =>
      rw [MapFile.processAssetsWith, MapFile.processAssets, processAssetWith_allSucceed]
      simp only [ih, List.findIdxs_cons, id]

/-- With operations that succeed, assets fail for missing data only. -/
theorem processModifiedAssetsWith_allSucceed (map : MapFile) :
    map.processModifiedAssetsWith .allSucceed wave = map.processModifiedAssets wave := by
  have hlength := length_processAssets wave map.modifiedAssets map.archive map.temporaryMpq
  simp only [MapFile.processModifiedAssetsWith, MapFile.processModifiedAssets,
    Outcomes.allSucceed, if_true]
  rw [← Outcomes.allSucceed, processAssetsWith_allSucceed]
  generalize MapFile.processAssets wave map.modifiedAssets map.archive
    map.temporaryMpq = result at hlength ⊢
  obtain ⟨archive, temporaryMpq, processed⟩ := result
  simp only at hlength ⊢
  have hassets : (map.modifiedAssets.zip processed).map Prod.fst =
      map.modifiedAssets := List.map_fst_zip (Nat.le_of_eq hlength.symm)
  have hflags : (map.modifiedAssets.zip processed).map Prod.snd =
      processed := List.map_snd_zip (Nat.le_of_eq hlength)
  have hcount : processed.countP id = processed.count true := by
    rw [List.count]
    exact List.countP_congr fun flag _ => by cases flag <;> rfl
  -- The assets are erased together with their flags.
  have herase := Iterators.eraseEach_flags (map.modifiedAssets.zip processed)
  rw [hassets, hflags, List.length_zip, hlength, Nat.min_self] at herase
  rw [herase, List.length_findIdxs, hcount]
  split_ifs <;> rfl

end AllSucceed

/-- What is left to try again: the failed assets in their order, each addition
with the data it had. -/
structure LeavesFailed (outcomes : Outcomes) (map saved : MapFile) : Prop where
  pending : saved.modifiedAssets = map.modifiedAssets.filter fun asset =>
    !outcomes.succeeds map.temporaryMpq asset
  available : ∀ asset ∈ saved.modifiedAssets, asset.actionTaken = .add →
    ∀ data, map.temporaryMpq.getFile asset.assetTempMpqPath = some data →
      saved.temporaryMpq.getFile asset.assetTempMpqPath = some data

/-- The save returns, and what it did not process can be tried again. -/
def RetriesFailed (outcomes : Outcomes)
    (wave : WavQuality → List UInt8 → List UInt8) (map : MapFile) : Prop :=
  match map.processModifiedAssetsWith outcomes wave with
  | .ok (_, true) => True
  | .ok (saved, false) => LeavesFailed outcomes map saved
  | .error _ => False

/-- All operations succeed; or at most one does, and no addition fails after its
data was taken. -/
def MeetsRetry (outcomes : Outcomes) (map : MapFile) : Prop :=
  (∀ asset ∈ map.modifiedAssets, outcomes.succeeds map.temporaryMpq asset = true) ∨
  map.modifiedAssets.countP (outcomes.succeeds map.temporaryMpq) ≤ 1 ∧
    ∀ asset ∈ map.modifiedAssets, outcomes.takes map.temporaryMpq asset = true →
        outcomes.succeeds map.temporaryMpq asset = true

section Loop

variable {outcomes : Outcomes} {wave : WavQuality → List UInt8 → List UInt8}

variable (wave) in
/-- One round takes the data if it can, whatever becomes of the asset. -/
theorem processAssetWith_eq (hopen : outcomes.openTemporaryMpq = true)
    (archive temporaryMpq : Mpq) (asset : ModifiedAsset) :
    ∃ saved, MapFile.processAssetWith outcomes wave archive temporaryMpq asset = (saved,
        if outcomes.takes temporaryMpq asset then
          temporaryMpq.removeFile asset.assetTempMpqPath
        else temporaryMpq,
        outcomes.succeeds temporaryMpq asset) := by
  simp only [MapFile.processAssetWith, Outcomes.takes, Outcomes.succeeds,
    Outcomes.reads, hopen, Bool.true_and]
  cases asset.actionTaken with
  | add =>
      cases temporaryMpq.getFile asset.assetTempMpqPath <;>
        cases outcomes.getFile asset <;>
        cases outcomes.addFile asset <;>
        simp
  | remove => cases outcomes.removeFile asset <;> simp

variable (wave) in
/-- Every asset meets the data that was there before the loop. -/
theorem processAssetsWith_eq (hopen : outcomes.openTemporaryMpq = true)
    {assets : List ModifiedAsset} {before : Mpq}
    (hdistinct : (assets.map ModifiedAsset.assetTempMpqPath).Nodup)
    (position : ℕ) (archive temporaryMpq : Mpq)
    (hsame : ∀ asset ∈ assets, temporaryMpq asset.assetTempMpqPath =
      before asset.assetTempMpqPath) :
    ∃ saved left, MapFile.processAssetsWith outcomes wave position assets archive temporaryMpq =
      (saved, left, assets.findIdxs (outcomes.succeeds before) position) ∧
      (∀ asset ∈ assets, left asset.assetTempMpqPath =
        if outcomes.takes before asset then none
        else before asset.assetTempMpqPath) ∧
      ∀ path, path ∉ assets.map ModifiedAsset.assetTempMpqPath →
        left path = temporaryMpq path := by
  induction assets generalizing position archive temporaryMpq with
  | nil =>
      exact ⟨archive, temporaryMpq, rfl, List.forall_mem_nil _, fun _ _ => rfl⟩
  | cons asset assets ih =>
      rw [List.map_cons, List.nodup_cons] at hdistinct
      rw [List.forall_mem_cons] at hsame
      obtain ⟨middle, hasset⟩ := processAssetWith_eq wave hopen archive temporaryMpq asset
      rw [Outcomes.takes_congr hsame.1, Outcomes.succeeds_congr hsame.1] at hasset
      have hself : (if outcomes.takes before asset then
          temporaryMpq.removeFile asset.assetTempMpqPath
          else temporaryMpq) asset.assetTempMpqPath =
          if outcomes.takes before asset then none
          else before asset.assetTempMpqPath := by
        split
        · exact Function.update_self _ _ _
        · exact hsame.1
      have hothers (path : String) (hne : path ≠ asset.assetTempMpqPath) :
          (if outcomes.takes before asset then
            temporaryMpq.removeFile asset.assetTempMpqPath
            else temporaryMpq) path = temporaryMpq path := by
        split
        · exact Function.update_of_ne hne _ _
        · rfl
      generalize (if outcomes.takes before asset then
        temporaryMpq.removeFile asset.assetTempMpqPath
        else temporaryMpq) = taken at hasset hself hothers
      obtain ⟨saved, left, hrest, hleft, hkept⟩ :=
        ih hdistinct.2 (position + 1) middle taken fun other hother =>
          (hothers _ fun heq => hdistinct.1
            (heq ▸ List.mem_map_of_mem hother)).trans (hsame.2 other hother)
      refine ⟨saved, left, ?_, ?_, ?_⟩
      · rw [MapFile.processAssetsWith, hasset]
        simp only [hrest, List.findIdxs_cons]
      · rw [List.forall_mem_cons]
        exact ⟨(hkept _ hdistinct.1).trans hself, hleft⟩
      · intro path hpath
        rw [List.map_cons, List.mem_cons, not_or] at hpath
        exact (hkept path hpath.2).trans (hothers path hpath.1)

variable (outcomes wave) in
/-- The call as a whole, for entries that do not share a temporary path. -/
theorem processModifiedAssetsWith_eq {map : MapFile} (hdistinct :
      (map.modifiedAssets.map ModifiedAsset.assetTempMpqPath).Nodup) :
    ∃ saved left, (∀ asset ∈ map.modifiedAssets,
        left asset.assetTempMpqPath =
          if outcomes.takes map.temporaryMpq asset then none
          else map.temporaryMpq asset.assetTempMpqPath) ∧
      map.processModifiedAssetsWith outcomes wave =
        if map.modifiedAssets.countP (outcomes.succeeds map.temporaryMpq) =
              map.modifiedAssets.length then
          .ok (⟨saved, left, [], map.nextAssetId⟩, true)
        else if map.modifiedAssets.countP (outcomes.succeeds map.temporaryMpq) ≤ 1 then
          .ok (⟨saved, left, map.modifiedAssets.filter fun asset =>
            !outcomes.succeeds map.temporaryMpq asset,
            map.nextAssetId⟩, false)
        else
          .error .undefinedBehavior := by
  have hloop : ∃ saved left, (if outcomes.openTemporaryMpq then
        MapFile.processAssetsWith outcomes wave 0 map.modifiedAssets map.archive map.temporaryMpq
      else
        (map.archive, map.temporaryMpq, [])) =
      (saved, left, map.modifiedAssets.findIdxs (outcomes.succeeds map.temporaryMpq)) ∧
      ∀ asset ∈ map.modifiedAssets, left asset.assetTempMpqPath =
        if outcomes.takes map.temporaryMpq asset then none
        else map.temporaryMpq asset.assetTempMpqPath := by
    cases hopen : outcomes.openTemporaryMpq with
    | true =>
        obtain ⟨saved, left, hrun, hleft, -⟩ :=
          processAssetsWith_eq wave hopen hdistinct 0 map.archive map.temporaryMpq fun _ _ => rfl
        exact ⟨saved, left, hrun, hleft⟩
    | false =>
        refine ⟨map.archive, map.temporaryMpq, ?_, fun asset _ => ?_⟩
        · have hnone : map.modifiedAssets.findIdxs (outcomes.succeeds map.temporaryMpq) = [] := by
            rw [List.findIdxs_eq_nil_iff]
            intro asset _
            simp only [Outcomes.succeeds, Outcomes.reads, hopen]
            cases asset.actionTaken <;> rfl
          rw [hnone]
          rfl
        · simp only [Outcomes.takes, Outcomes.reads, hopen]
          cases asset.actionTaken <;> rfl
  obtain ⟨saved, left, hrun, hleft⟩ := hloop
  refine ⟨saved, left, hleft, ?_⟩
  simp only [MapFile.processModifiedAssetsWith, hrun, List.length_findIdxs,
    Iterators.eraseEach_findIdxs]
  split_ifs <;> rfl

end Loop

/-- A partly failed save can be tried again if and only if its operations meet
the condition. -/
theorem retriesFailed_iff (outcomes : Outcomes)
    (wave : WavQuality → List UInt8 → List UInt8) (map : MapFile)
    (hdistinct : (map.modifiedAssets.map ModifiedAsset.assetTempMpqPath).Nodup) :
    RetriesFailed outcomes wave map ↔ MeetsRetry outcomes map := by
  obtain ⟨saved, left, hleft, hrun⟩ := processModifiedAssetsWith_eq outcomes wave hdistinct
  rw [RetriesFailed, hrun, MeetsRetry, ← List.countP_eq_length]
  by_cases hall : map.modifiedAssets.countP
      (outcomes.succeeds map.temporaryMpq) = map.modifiedAssets.length
  · simp [hall]
  by_cases hone : map.modifiedAssets.countP (outcomes.succeeds map.temporaryMpq) ≤ 1
  · rw [if_neg hall, if_pos hone]
    constructor
    · intro hfailed
      refine .inr ⟨hone, fun asset hasset htakes => ?_⟩
      by_contra hfails
      -- The data of an addition that failed behind the read is gone.
      obtain ⟨hadd, data, hdata⟩ := Outcomes.exists_data_of_takes htakes
      have hremains : asset ∈ map.modifiedAssets.filter fun asset =>
          !outcomes.succeeds map.temporaryMpq asset :=
        List.mem_filter.mpr ⟨hasset, by simpa using hfails⟩
      have hthere : left asset.assetTempMpqPath = some data :=
        hfailed.available asset hremains hadd data hdata
      rw [hleft asset hasset, if_pos htakes] at hthere
      cases hthere
    · rintro (hsucceed | ⟨-, hkept⟩)
      · exact absurd hsucceed hall
      · refine ⟨rfl, fun asset hremains _ data hdata => ?_⟩
        obtain ⟨hasset, hfails⟩ := List.mem_filter.mp hremains
        have htakes : ¬ outcomes.takes map.temporaryMpq asset = true :=
          fun htakes => by simp [hkept asset hasset htakes] at hfails
        exact (hleft asset hasset).trans ((if_neg htakes).trans hdata)
  · simp [hall, hone]

/-- One addition is saved, and a removal fails. -/
def savedAddition : MapFile where
  archive := fun _ => none
  temporaryMpq := Mpq.addFile (fun _ => none) "0" [1]
  modifiedAssets := [.make 0 "a.wav" .add .uncompressed,
    .make 1 "b.wav" .remove .uncompressed]
  nextAssetId := 2

theorem retriesFailed_savedAddition :
    RetriesFailed ⟨true, fun _ => true, fun _ => true, fun _ => true,
      fun _ => false⟩ (fun _ data => data) savedAddition :=
  (retriesFailed_iff _ _ _ (by decide)).mpr (.inr (by decide))

/-- The archive does not take the addition: it stays on the list, but its data
is gone. -/
theorem failed_addition_loses_data :
    ¬ RetriesFailed ⟨true, fun _ => true, fun _ => true, fun _ => false,
      fun _ => true⟩ (fun _ data => data)
      ⟨fun _ => none, Mpq.addFile (fun _ => none) "0" [1],
        [.make 0 "a.wav" .add .uncompressed], 1⟩ := by
  rintro ⟨-, havailable⟩
  have hdata := havailable _ List.mem_cons_self rfl [1] rfl
  revert hdata
  decide

end Chkdraft.Archive
