import Chkdraft.Scenario.LoadedFile

/-!
# A new scenario

The constructor `Scenario(tileset, width, height)`: a Hybrid map with the
default object of every section, of which all but IVER and the editor's own
sections are to be saved.
-/

namespace Chkdraft.Scenario

open Binary Chk Sections

/-- The `GetDefault` functions of the structure sections that a file cannot
lack; the constants of VCOD are a parameter. -/
def newStructs (vcod : List UInt8) (tileset width height : UInt16) :
    List (StructName × List UInt8) :=
  [(.ver, littleEndian 2 63), (.vcod, vcod), (.ownr, runs [(8, 6), (4, 0)]),
    (.era, littleEndian 2 tileset.toNat),
    (.dim, littleEndian 2 width.toNat ++ littleEndian 2 height.toNat),
    (.side, [1, 0, 2, 1, 0, 2, 1, 0, 7, 7, 7, 4]),
    (.sprp, littleEndian 2 1 ++ littleEndian 2 2),
    (.forc, runs [(8, 0)] ++ [4, 0, 5, 0, 6, 0, 7, 0] ++ runs [(4, 15)])]

def newSections (vcod : List UInt8) (tileset width height : UInt16) :
    List (SectionName × Section) :=
  ((newStructs vcod tileset width height).map fun entry =>
    (.struct entry.1, .struct (structOf entry.1 entry.2))) ++
  [(.mtxm, .mtxm (List.replicate (width.toNat * height.toNat) 0)),
    (.unit, .unit []), (.thg2, .thg2 [])] ++
  dimensionDefaults width.toNat height.toNat ++ plainDefaults 63

/-- The names of the sections that are to be saved, in their order.  The version
is Hybrid, so TYPE is one of them and IVER is not. -/
def newSaveSections : List SectionName :=
  [.struct .type, .struct .ver, .struct .ive2, .struct .vcod, .struct .iown,
    .struct .ownr, .struct .era, .struct .dim, .struct .side, .mtxm,
    .struct .puni, .struct .upgr, .struct .ptec, .unit, .isom, .tile, .dd2,
    .thg2, .mask, .str, .struct .uprp, .struct .upus, .mrgn, .trig, .mbrf,
    .struct .sprp, .struct .forc, .struct .wav, .struct .unis, .struct .upgs,
    .struct .tecs, .struct .swnm, .struct .colr, .struct .pupx, .struct .ptex,
    .struct .unix, .struct .upgx, .struct .tecx]

/-- The names of all sections, in the order of their objects. -/
def newNames : List SectionName :=
  [.struct .ver, .struct .vcod, .struct .ownr, .struct .era, .struct .dim,
    .struct .side, .struct .sprp, .struct .forc, .mtxm, .unit, .thg2, .tile,
    .isom, .mask, .mrgn, .str, .kstr, .dd2, .trig, .mbrf, .ktrg, .ktgp,
    .struct .type, .struct .iver, .struct .ive2, .struct .ostr, .struct .colr,
    .struct .iown, .struct .unis, .struct .unix, .struct .puni, .struct .upgs,
    .struct .upgx, .struct .upgr, .struct .pupx, .struct .tecs, .struct .tecx,
    .struct .ptec, .struct .ptex, .struct .uprp, .struct .upus, .struct .swnm,
    .struct .wav]

/-- `Scenario(tileset, width, height)`. -/
def newScenario (vcod : List UInt8) (tileset width height : UInt16) : LoadedFile where
  objects := (newSections vcod tileset width height).map Prod.snd
  allSections := newSaveSections.map newNames.idxOf
  pointer := fun name =>
    if name ∈ newNames then some (newNames.idxOf name) else none
  tailData := List.replicate 7 0
  tailLength := 0
  mapIsProtected := false
  jumpCompress := false
  memorySafe := true

theorem map_name_newScenario (vcod : List UInt8) (tileset width height : UInt16) :
    (newScenario vcod tileset width height).objects.map Section.name =
      newNames := rfl

end Chkdraft.Scenario
