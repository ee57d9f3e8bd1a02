import Chkdraft.Core.Fault
import Mathlib.Logic.Function.Basic

/-!
# Assets changed since the last save

A map file keeps one list of the assets that were added or removed since the
last save.  The content of an added asset waits in a temporary archive under a
path of its own.  Removing an asset first looks for an entry of its path, and
cancels the first one it finds; only without an entry is the removal itself put
on the list.
-/

namespace Chkdraft.Archive

/-- The files of an archive, by their paths. -/
abbrev Mpq : Type := String → Option (List UInt8)

inductive WavQuality where
  | low | med | high | uncompressed
deriving DecidableEq, Repr

inductive AssetAction where
  | add | remove
deriving DecidableEq, Repr

namespace Mpq

def addFile (mpq : Mpq) (mpqPath : String) (fileData : List UInt8) : Mpq :=
  Function.update mpq mpqPath (some fileData)

/-- With a quality the file is stored as a wave, which may change its bytes. -/
def addFileWithQuality (wave : WavQuality → List UInt8 → List UInt8)
    (mpq : Mpq) (mpqPath : String) (fileData : List UInt8)
    (wavQuality : WavQuality) : Mpq :=
  if wavQuality = .uncompressed then
    mpq.addFile mpqPath fileData
  else
    mpq.addFile mpqPath (wave wavQuality fileData)

def removeFile (mpq : Mpq) (mpqPath : String) : Mpq := Function.update mpq mpqPath none

def getFile (mpq : Mpq) (mpqPath : String) : Option (List UInt8) := mpq mpqPath

end Mpq

/-- A file modified in an archive. -/
structure ModifiedAsset where
  assetMpqPath : String
  assetTempMpqPath : String
  wavQualitySelected : WavQuality
  actionTaken : AssetAction

/-- The constructor.  It leaves the quality it is given. -/
def ModifiedAsset.make (nextAssetId : ℕ) (assetMpqPath : String)
    (actionTaken : AssetAction) (_wavQualitySelected : WavQuality) :
    ModifiedAsset where
  assetMpqPath := assetMpqPath
  assetTempMpqPath := nextAssetId.repr
  wavQualitySelected := .uncompressed
  actionTaken := actionTaken

/-- The archive of a map file, and what is to be done to it at the next save. -/
structure MapFile where
  archive : Mpq
  temporaryMpq : Mpq
  modifiedAssets : List ModifiedAsset
  nextAssetId : ℕ

namespace MapFile

def addMpqAsset (map : MapFile) (assetMpqFilePath : String)
    (asset : List UInt8) (wavQuality : WavQuality) : MapFile where
  archive := map.archive
  temporaryMpq := map.temporaryMpq.addFile (ModifiedAsset.make map.nextAssetId
    assetMpqFilePath .add wavQuality).assetTempMpqPath asset
  modifiedAssets := map.modifiedAssets ++
    [ModifiedAsset.make map.nextAssetId assetMpqFilePath .add wavQuality]
  nextAssetId := map.nextAssetId + 1

def removeMpqAsset (map : MapFile) (assetMpqFilePath : String) : MapFile :=
  match map.modifiedAssets.find? fun asset =>
      asset.assetMpqPath = assetMpqFilePath with
  | some recentlyAddedAsset =>
      { map with
        modifiedAssets := map.modifiedAssets.eraseP fun asset =>
          asset.assetMpqPath = assetMpqFilePath
        temporaryMpq := map.temporaryMpq.removeFile recentlyAddedAsset.assetTempMpqPath }
  | none =>
      { map with
        modifiedAssets := map.modifiedAssets ++ [ModifiedAsset.make
          map.nextAssetId assetMpqFilePath .remove .uncompressed]
        nextAssetId := map.nextAssetId + 1 }

/-- Only additions are looked for; a removal on the list is passed over. -/
def getMpqAsset (map : MapFile) (assetMpqFilePath : String) : Option (List UInt8) :=
  match map.modifiedAssets.find? fun asset =>
      asset.actionTaken = .add ∧ asset.assetMpqPath = assetMpqFilePath with
  | some asset => map.temporaryMpq.getFile asset.assetTempMpqPath
  | none => map.archive.getFile assetMpqFilePath

/-- The archive and the temporary one behind an asset, and whether it was
processed. -/
def processAsset (wave : WavQuality → List UInt8 → List UInt8)
    (archive temporaryMpq : Mpq) (asset : ModifiedAsset) : Mpq × Mpq × Bool :=
  match asset.actionTaken with
  | .add =>
      match temporaryMpq.getFile asset.assetTempMpqPath with
      | some assetBuffer =>
          (archive.addFileWithQuality wave asset.assetMpqPath assetBuffer asset.wavQualitySelected,
            temporaryMpq.removeFile asset.assetTempMpqPath, true)
      | none => (archive, temporaryMpq, false)
  | .remove => (archive.removeFile asset.assetMpqPath, temporaryMpq, true)

def processAssets (wave : WavQuality → List UInt8 → List UInt8) :
    List ModifiedAsset → Mpq → Mpq → Mpq × Mpq × List Bool
  | [], archive, temporaryMpq => (archive, temporaryMpq, [])
  | asset :: rest, archive, temporaryMpq =>
      match processAsset wave archive temporaryMpq asset with
      | (archive, temporaryMpq, processed) =>
          match processAssets wave rest archive temporaryMpq with
          | (archive, temporaryMpq, others) =>
              (archive, temporaryMpq, processed :: others)

/-- The assets that were not processed stay on the list.  Erasing one asset
invalidates the iterators to the others. -/
def processModifiedAssets (wave : WavQuality → List UInt8 → List UInt8)
    (map : MapFile) : Except Hazard (MapFile × Bool) :=
  match processAssets wave map.modifiedAssets map.archive map.temporaryMpq with
  | (archive, temporaryMpq, processed) =>
      if processed.count true = map.modifiedAssets.length then
        .ok ({ map with
          archive := archive
          temporaryMpq := temporaryMpq
          modifiedAssets := [] }, true)
      else if processed.count true ≤ 1 then
        .ok ({ map with
          archive := archive
          temporaryMpq := temporaryMpq
          modifiedAssets := ((map.modifiedAssets.zip processed).filter
            fun entry => !entry.2).map Prod.fst }, false)
      else
        .error .undefinedBehavior

end MapFile

inductive AssetCall where
  | add (path : String) (asset : List UInt8) (wavQuality : WavQuality)
  | remove (path : String)

namespace AssetCall

def path : AssetCall → String
  | add path _ _ => path
  | remove path => path

def make (map : MapFile) : AssetCall → MapFile
  | add path asset wavQuality => map.addMpqAsset path asset wavQuality
  | remove path => map.removeMpqAsset path

def apply (archive : Mpq) : AssetCall → Mpq
  | add path asset _ => archive.addFile path asset
  | remove path => archive.removeFile path

end AssetCall

def MapFile.saved (archive temporaryMpq : Mpq) (nextAssetId : ℕ) : MapFile :=
  ⟨archive, temporaryMpq, [], nextAssetId⟩

/-- Behind the calls every asset reads as if they had been made on the archive,
and processing makes them there. -/
structure ReplaysAssets (wave : WavQuality → List UInt8 → List UInt8)
    (saved : MapFile) (calls : List AssetCall) : Prop where
  get : ∀ path, (calls.foldl AssetCall.make saved).getMpqAsset path =
    calls.foldl AssetCall.apply saved.archive path
  process : ∃ map, (calls.foldl AssetCall.make saved).processModifiedAssets wave = .ok (map, true) ∧
    map.archive = calls.foldl AssetCall.apply saved.archive

end Chkdraft.Archive
