import Chkdraft.Scenario.SectionLoop

/-!
# The sections a loaded scenario uses

Behind the section loop `Scenario::read` selects one object for each section
name: the last one parsed, or for sections that append or override the first,
into which all later ones were read.  Missing sections get a default object.
Default objects are not put into `allSections`, so they are never saved.
-/

namespace Chkdraft.Scenario

open Binary Chk Sections

/-- A scenario as `read` leaves it.  `pointer` holds the section pointers of
its parts as numbers of objects, `none` for a null pointer. -/
structure LoadedFile where
  objects : List Section
  allSections : List ℕ
  pointer : SectionName → Option ℕ
  tailData : List UInt8
  tailLength : ℕ
  mapIsProtected : Bool
  jumpCompress : Bool
  memorySafe : Bool

namespace LoadedFile

/-- The object a section pointer leads to. -/
def section? (file : LoadedFile) (name : SectionName) : Option Section :=
  (file.pointer name).bind fun handle => file.objects[handle]?

/-- Put a default object behind a null pointer. -/
def addDefault (name : SectionName) (content : Section) (file : LoadedFile) : LoadedFile :=
  match file.pointer name with
  | some _ => file
  | none =>
      { file with
        objects := file.objects ++ [content]
        pointer := Function.update file.pointer name (some file.objects.length) }

end LoadedFile

/-- The constructor of `StructSection` from a structure, whose bytes behind
`data` are zero. -/
def structOf (name : StructName) (data : List UInt8) : StructSection where
  name := name
  rawData := overwrite (List.replicate name.size 0) 0 data
  dataValid := true
  size_le := by
    simp only [overwrite_zero, List.length_append, List.length_drop, List.length_replicate]
    omega

def runs (pieces : List (ℕ × UInt8)) : List UInt8 :=
  pieces.flatMap fun piece => List.replicate piece.1 piece.2

/-- The `defaultMaxLevel` of the upgrades of original StarCraft. -/
def originalMaxLevels : List UInt8 := runs [(16, 3), (2, 1), (1, 0), (26, 1), (1, 0)]

/-- The `defaultMaxLevel` of all upgrades. -/
def expansionMaxLevels : List UInt8 :=
  originalMaxLevels ++ [0, 1, 0, 1, 0, 1, 1, 1, 1, 0, 0, 0, 0, 0, 0]

/-- The `techResearchedByDefault` of the technologies of original StarCraft. -/
def originalResearched : List UInt8 :=
  [0, 0, 0, 0, 1, 0, 1, 0, 0, 0, 0, 0, 1, 0, 1, 0, 0, 0, 1, 0, 0, 0, 0, 1]

/-- The `techResearchedByDefault` of all technologies. -/
def expansionResearched : List UInt8 :=
  originalResearched ++ [0, 0, 0, 0, 1, 1, 0, 0, 0, 1, 1, 0, 0, 0, 0, 0, 0, 0, 0, 0]

/-- The `GetDefault` functions of the structure sections that are set when
missing. -/
def structDefaults (version : ℕ) : List (StructName × List UInt8) :=
  [(.type, littleEndian 4 (if version < 205 then 0x53574152 else 0x42574152)),
    (.iver, littleEndian 2 10), (.ive2, littleEndian 2 11),
    (.ostr, littleEndian 4 1), (.colr, [0, 1, 2, 3, 4, 5, 6, 7]),
    (.iown, runs [(8, 6), (4, 0)]), (.unis, runs [(228, 1)]),
    (.unix, runs [(228, 1)]), (.puni, runs [(5700, 1)]),
    (.upgs, runs [(46, 1)]), (.upgx, runs [(61, 1)]),
    (.upgr, runs [(1104, 0)] ++ originalMaxLevels ++ runs [(46, 0), (552, 1)]),
    (.pupx, runs [(1464, 0)] ++ expansionMaxLevels ++ runs [(61, 0), (732, 1)]),
    (.tecs, runs [(24, 1)]), (.tecx, runs [(44, 1)]),
    (.ptec, runs [(576, 0), (24, 1)] ++ originalResearched ++ runs [(288, 1)]),
    (.ptex, runs [(1056, 0), (44, 1)] ++ expansionResearched ++ runs [(528, 1)]),
    (.uprp, []), (.upus, []), (.swnm, []), (.wav, [])]

/-- `Chk::Location()`. -/
def blankLocation : Location := ⟨0, 0, 0, 0, 0, 0⟩

/-- `MrgnSection::GetDefault`: 255 blank locations but for id 64, which covers
the map. -/
def defaultMrgn (tileWidth tileHeight : ℕ) : List (Option Location) :=
  let anywhere : Location :=
    { blankLocation with
      right := UInt32.ofNat (tileWidth * 32)
      bottom := UInt32.ofNat (tileHeight * 32)
      stringId := 3 }
  none :: List.replicate 63 (some blankLocation) ++
    (some anywhere :: List.replicate 191 (some blankLocation))

/-- `IsomSection::GetDefault`. -/
def defaultIsom (tileWidth tileHeight : ℕ) : List IsomEntry :=
  List.replicate ((tileWidth / 2 + 1) * (tileHeight + 1)) ⟨0, 0, 0, 0⟩

/-- The defaults that depend on the dimensions of the map. -/
def dimensionDefaults (tileWidth tileHeight : ℕ) : List (SectionName × Section) :=
  [(.tile, .tile (List.replicate (tileWidth * tileHeight) 0)),
    (.isom, .isom (defaultIsom tileWidth tileHeight)),
    (.mask, .mask (List.replicate (tileWidth * tileHeight) 0)),
    (.mrgn, .mrgn (defaultMrgn tileWidth tileHeight))]

/-- The defaults every scenario of a version gets. -/
def plainDefaults (version : ℕ) : List (SectionName × Section) :=
  [(.str, .str StrSection.default), (.kstr, .kstr KstrSection.default),
    (.dd2, .dd2 []), (.trig, .trig []), (.mbrf, .mbrf []),
    (.ktrg, .ktrg KtrgSection.default), (.ktgp, .ktgp KtgpSection.default)] ++
  (structDefaults version).map fun entry =>
    (.struct entry.1, .struct (structOf entry.1 entry.2))

namespace LoadedFile

def addDefaults (defaults : List (SectionName × Section)) (file : LoadedFile) : LoadedFile :=
  defaults.foldl (fun file entry => file.addDefault entry.1 entry.2) file

/-- The sections with a default that depends on the dimensions. -/
def lacksDimensionDefault (file : LoadedFile) : Bool :=
  [SectionName.tile, .isom, .mask, .mrgn].any fun name =>
    (file.pointer name).isNone

def struct? (file : LoadedFile) (name : StructName) : Option StructSection :=
  match file.section? (.struct name) with
  | some (.struct content) => some content
  | _ => none

/-- The defaults of a map with these dimensions; they are only read when a
section they determine is missing. -/
def addDimensionDefaults (file : LoadedFile) : LoadedFile :=
  match file.struct? .dim with
  | none => file
  | some dim =>
      { file with
        memorySafe := file.memorySafe &&
          (dim.dataValid || !file.lacksDimensionDefault) }.addDefaults
        (dimensionDefaults (wordAt 2 dim.rawData 0) (wordAt 2 dim.rawData 2))

/-- The `set` functions of `Versions`, `Strings`, `Players`, `Terrain`,
`Layers`, `Properties` and `Triggers`, for a scenario with a VER section. -/
def setMissing (ver : StructSection) (file : LoadedFile) : LoadedFile :=
  { file with
    memorySafe := file.memorySafe && ver.dataValid }.addDimensionDefaults
    |>.addDefaults (plainDefaults (wordAt 2 ver.rawData 0))

end LoadedFile

namespace LoadState

/-- The instance of a section that is used.  Looking a name up that was not
parsed may find an object of another class, which the cast to the class of the
name turns into a null pointer. -/
def selected (state : LoadState) (name : SectionName) : Option ℕ :=
  let instances := state.parsedSections.filter fun entry =>
    entry.1 = name.code
  if name.loadBehavior = .standard then
    instances.getLast?.map Prod.snd
  else
    instances.head?.map Prod.snd

/-- The scenario behind the loop, with its missing sections set; `none` when
there is no VER section. -/
def selectSections (state : LoadState) : Option LoadedFile :=
  let file : LoadedFile :=
    { objects := state.objects
      allSections := state.allSections
      pointer := state.selected
      tailData := state.tailData
      tailLength := state.tailLength
      mapIsProtected := state.mapIsProtected
      jumpCompress := state.jumpCompress
      memorySafe := state.memorySafe }
  (file.struct? .ver).map fun ver => file.setMissing ver

end LoadState

end Chkdraft.Scenario
