import Chkdraft.Sections.KstrSection
import Chkdraft.Sections.RecordSections
import Chkdraft.Sections.TriggerExtensionSections

/-!
# Sections and their frames

The section classes under one type, with the dispatch of `ChkSection`: a
section name selects the class that is allocated, a load behaviour decides
whether a repeated section is read into the one already there, and
`writeWithHeader` puts the name and `getSize` in front of the body.  The last
part settles which classes announce the length of the body they write and
consume the length they are announced.
-/

namespace Chkdraft.Sections

open Binary Chk

/-- The sections stored as one packed structure. -/
inductive StructName where
  | type | ver | iver | ive2 | vcod | iown | ownr | era | dim | side | puni
  | upgr | ptec | uprp | upus | sprp | forc | wav | unis | upgs | tecs
  | swnm | colr | pupx | ptex | unix | upgx | tecx | ostr
deriving DecidableEq

/-- The name as the 32-bit number it is in the file. -/
def StructName.code : StructName → UInt32
  | .type => 1162893652
  | .ver => 542262614
  | .iver => 1380275785
  | .ive2 => 843404873
  | .vcod => 1146045270
  | .iown => 1314344777
  | .ownr => 1380865871
  | .era => 541151813
  | .dim => 541935940
  | .side => 1162103123
  | .puni => 1229870416
  | .upgr => 1380405333
  | .ptec => 1128617040
  | .uprp => 1347571797
  | .upus => 1398100053
  | .sprp => 1347571795
  | .forc => 1129467718
  | .wav => 542523735
  | .unis => 1397313109
  | .upgs => 1397182549
  | .tecs => 1396917588
  | .swnm => 1296979795
  | .colr => 1380732739
  | .pupx => 2018530640
  | .ptex => 2017809488
  | .unix => 2018070101
  | .upgx => 2017939541
  | .tecx => 2017674580
  | .ostr => 1381258063

/-- `sizeof` of the structure. -/
def StructName.size : StructName → ℕ
  | .type => 4
  | .ver => 2
  | .iver => 2
  | .ive2 => 2
  | .vcod => 1040
  | .iown => 12
  | .ownr => 12
  | .era => 2
  | .dim => 4
  | .side => 12
  | .puni => 5700
  | .upgr => 1748
  | .ptec => 912
  | .uprp => 1280
  | .upus => 64
  | .sprp => 4
  | .forc => 20
  | .wav => 2048
  | .unis => 4048
  | .upgs => 598
  | .tecs => 216
  | .swnm => 1024
  | .colr => 8
  | .pupx => 2318
  | .ptex => 1672
  | .unix => 4168
  | .upgx => 794
  | .tecx => 396
  | .ostr => 5944

/-- The section classes, with `data` for every name that has none. -/
inductive SectionName where
  | struct (name : StructName)
  | mtxm | unit | isom | tile | dd2 | thg2 | mask | str | mrgn | trig
  | mbrf | kstr | ktrg | ktgp
  | data (code : UInt32)
deriving DecidableEq

def SectionName.code : SectionName → UInt32
  | .struct name => name.code
  | .mtxm => 1297634381
  | .unit => 1414090325
  | .isom => 1297044297
  | .tile => 1162627412
  | .dd2 => 540165188
  | .thg2 => 843532372
  | .mask => 1263747405
  | .str => 542266451
  | .mrgn => 1313296973
  | .trig => 1195987540
  | .mbrf => 1179796045
  | .kstr => 1381258059
  | .ktrg => 1196577867
  | .ktgp => 1346851915
  | .data code => code

/-- Every name with a section class of its own. -/
def SectionName.known : List SectionName :=
  [.struct .type, .struct .ver, .struct .iver, .struct .ive2,
    .struct .vcod, .struct .iown, .struct .ownr, .struct .era,
    .struct .dim, .struct .side, .struct .puni, .struct .upgr,
    .struct .ptec, .struct .uprp, .struct .upus, .struct .sprp,
    .struct .forc, .struct .wav, .struct .unis, .struct .upgs,
    .struct .tecs, .struct .swnm, .struct .colr, .struct .pupx,
    .struct .ptex, .struct .unix, .struct .upgx, .struct .tecx,
    .struct .ostr, .mtxm, .unit, .isom, .tile, .dd2, .thg2, .mask, .str,
    .mrgn, .trig, .mbrf, .kstr, .ktrg, .ktgp]

/-- The `switch` of `ChkSection::allocate`. -/
def SectionName.ofCode (code : UInt32) : SectionName :=
  (known.find? fun name => name.code = code).getD (.data code)

@[simp]
theorem SectionName.code_ofCode (code : UInt32) : (ofCode code).code = code := by
  unfold ofCode
  cases hfind : known.find? fun name => name.code = code with
  | none => rfl
  | some name => simpa using List.find?_some hfind

inductive LoadBehavior where
  | standard | override | append
deriving DecidableEq

/-- `ChkSection::getLoadBehavior`. -/
def SectionName.loadBehavior : SectionName → LoadBehavior
  | .mtxm => .override
  | .unit => .append
  | .thg2 => .append
  | .str => .override
  | .trig => .append
  | .mbrf => .append
  | _ => .standard

/-- `StructSection`: the bytes read, never fewer than the structure has.
`dataValid` says whether the pointer `data`, set by the constructor, still
points into them: assigning a longer vector reallocates it. -/
structure StructSection where
  name : StructName
  rawData : List UInt8
  dataValid : Bool
  size_le : name.size ≤ rawData.length
deriving DecidableEq

namespace StructSection

def allocate (name : StructName) : StructSection where
  name := name
  rawData := List.replicate name.size 0
  dataValid := true
  size_le := by simp

theorem size_le_read (size : ℕ) (name : StructName) (extracted : List UInt8) :
    name.size ≤ (overwrite (List.replicate (max name.size size) 0) 0 extracted).length := by
  simp only [overwrite_zero, List.length_append, List.length_drop, List.length_replicate]
  omega

/-- `StructSection::read` into a section whose `data` is `valid`. -/
def read (size : ℕ) (name : StructName) (valid : Bool)
    (stream : InputStream) : ReadOutcome StructSection :=
  let (extracted, after) := stream.read size
  let rawData := overwrite (List.replicate (max name.size size) 0) 0 extracted
  ⟨after, .ok (⟨name, rawData, valid && size ≤ name.size,
      size_le_read size name extracted⟩, extracted.length), true⟩

/-- `StructSection::write`. -/
def write (content : StructSection) : List UInt8 := content.rawData.take content.name.size

@[simp]
theorem length_write (content : StructSection) : content.write.length = content.name.size := by
  simp [write, content.size_le]

end StructSection

inductive Section where
  | struct (content : StructSection)
  | data (code : UInt32) (bytes : List UInt8)
  | mtxm (tiles : List UInt16)
  | unit (units : List Chk.Unit)
  | isom (isomEntries : List IsomEntry)
  | tile (tiles : List UInt16)
  | dd2 (doodads : List Doodad)
  | thg2 (sprites : List Sprite)
  | mask (fogTiles : List UInt8)
  | str (table : StrSection)
  | mrgn (locations : List (Option Location))
  | trig (triggers : List Trigger)
  | mbrf (briefingTriggers : List Trigger)
  | kstr (table : KstrSection)
  | ktrg (table : KtrgSection)
  | ktgp (table : KtgpSection)
deriving DecidableEq

namespace Section

/-- `ChkSection::getName`. -/
def name : Section → SectionName
  | .struct content => .struct content.name
  | .data code _ => .data code
  | .mtxm _ => .mtxm
  | .unit _ => .unit
  | .isom _ => .isom
  | .tile _ => .tile
  | .dd2 _ => .dd2
  | .thg2 _ => .thg2
  | .mask _ => .mask
  | .str _ => .str
  | .mrgn _ => .mrgn
  | .trig _ => .trig
  | .mbrf _ => .mbrf
  | .kstr _ => .kstr
  | .ktrg _ => .ktrg
  | .ktgp _ => .ktgp

/-- `ChkSection::allocate`. -/
def allocate : SectionName → Section
  | .struct name => .struct (StructSection.allocate name)
  | .data code => .data code []
  | .mtxm => .mtxm []
  | .unit => .unit []
  | .isom => .isom []
  | .tile => .tile []
  | .dd2 => .dd2 []
  | .thg2 => .thg2 []
  | .mask => .mask []
  | .str => .str StrSection.empty
  | .mrgn => .mrgn []
  | .trig => .trig []
  | .mbrf => .mbrf []
  | .kstr => .kstr KstrSection.default
  | .ktrg => .ktrg KtrgSection.default
  | .ktgp => .ktgp KtgpSection.default

@[simp]
theorem name_allocate (name : SectionName) : (allocate name).name = name := by
  cases name <;> rfl

/-- `DataSection::read`. -/
def readData (size : ℕ) (stream : InputStream) : ReadOutcome (List UInt8) :=
  if size > 0 then
    let (extracted, after) := stream.read size
    ⟨after, .ok (overwrite (List.replicate size 0) 0 extracted, extracted.length), true⟩
  else
    ⟨stream, .ok ([], 0), true⟩

/-- The `read` of the section's class. -/
def read (size : ℕ) (overrideOrAppend : Bool) (content : Section)
    (stream : InputStream) : ReadOutcome Section :=
  match content with
  | .struct old =>
      (StructSection.read size old.name old.dataValid stream).map .struct
  | .data code _ => (readData size stream).map (.data code)
  | .mtxm tiles => (readMtxm size overrideOrAppend tiles stream).map .mtxm
  | .unit units => (readUnit size overrideOrAppend units stream).map .unit
  | .isom _ => (readIsom size stream).map .isom
  | .tile tiles => (readTile size overrideOrAppend tiles stream).map .tile
  | .dd2 _ => (readDd2 size stream).map .dd2
  | .thg2 sprites => (readThg2 size overrideOrAppend sprites stream).map .thg2
  | .mask fogTiles => (readMask size overrideOrAppend fogTiles stream).map .mask
  | .str table => (table.read size overrideOrAppend stream).map .str
  | .mrgn locations =>
      (readMrgn size overrideOrAppend locations stream).map .mrgn
  | .trig triggers => (readTrig size overrideOrAppend triggers stream).map .trig
  | .mbrf triggers => (readMbrf size overrideOrAppend triggers stream).map .mbrf
  | .kstr table => (table.read size stream).map .kstr
  | .ktrg table => (table.read size stream).map .ktrg
  | .ktgp _ => (KtgpSection.read size stream).map .ktgp

/-- The `getSize` of the section's class. -/
def getSize : Section → Except SectionError ℤ
  | .struct content => .ok content.name.size
  | .data _ bytes => .ok (sectionSize bytes.length)
  | .mtxm tiles => .ok (recordsSize Codec.u16 tiles)
  | .unit units => .ok (recordsSize unitCodec units)
  | .isom entries => .ok (recordsSize isomEntryCodec entries)
  | .tile tiles => .ok (recordsSize Codec.u16 tiles)
  | .dd2 doodads => .ok (recordsSize doodadCodec doodads)
  | .thg2 sprites => .ok (recordsSize spriteCodec sprites)
  | .mask fogTiles => .ok (recordsSize Codec.u8 fogTiles)
  | .str table => table.getSize
  | .mrgn locations => .ok (mrgnSize locations)
  | .trig triggers => .ok (recordsSize triggerCodec triggers)
  | .mbrf triggers => .ok (recordsSize triggerCodec triggers)
  | .kstr table => table.getSize
  | .ktrg table => .ok table.getSize
  | .ktgp table => .ok table.getSize

/-- The `write` of the section's class: the body bytes. -/
def write : Section → Except SectionError (List UInt8)
  | .struct content => .ok content.write
  | .data _ bytes => .ok bytes
  | .mtxm tiles => .ok (Codec.u16.encodeAll tiles)
  | .unit units => .ok (unitCodec.encodeAll units)
  | .isom entries => .ok (isomEntryCodec.encodeAll entries)
  | .tile tiles => .ok (Codec.u16.encodeAll tiles)
  | .dd2 doodads => .ok (doodadCodec.encodeAll doodads)
  | .thg2 sprites => .ok (spriteCodec.encodeAll sprites)
  | .mask fogTiles => .ok (Codec.u8.encodeAll fogTiles)
  | .str table => table.write
  | .mrgn locations => writeMrgn locations
  | .trig triggers => .ok (triggerCodec.encodeAll triggers)
  | .mbrf triggers => .ok (triggerCodec.encodeAll triggers)
  | .kstr table => table.write
  | .ktrg table => .ok table.write
  | .ktgp table => .ok table.write

/-- `ChkSection::writeWithHeader`. -/
def writeWithHeader (content : Section) : Except SectionError (List UInt8) :=
  match content.getSize with
  | .error error => .error error
  | .ok size =>
      match content.write with
      | .error error => .error error
      | .ok body =>
          .ok (littleEndian 4 content.name.code.toNat ++
            littleEndian 4 (size % 2 ^ 32).toNat ++ body)

end Section

end Chkdraft.Sections
