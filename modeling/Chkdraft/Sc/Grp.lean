import Chkdraft.Core.CheckedRead

/-!
# Sprites

A GRP file holds frames, a frame holds rows of pixels, and a row is a sequence
of lines: transparent pixels, pixels of one colour, or a colour for each pixel.
Only the lines say how long a row is.  `Grp::load` looks through the whole file
and rejects it unless every row has enough pixels inside the file.
-/

namespace Chkdraft.Sc

open Binary

namespace PixelLine

def isTransparentLine (header : UInt8) : Bool := header &&& 0x80 = 0x80

def isSolidLine (header : UInt8) : Bool := header &&& (0x80 ||| 0x40) = 0x40

def lineLength (header : UInt8) : UInt8 :=
  if isTransparentLine header then header &&& 0x7F
  else if isSolidLine header then header &&& (0x7F &&& 0xBF)
  else header

def sizeInBytes (header : UInt8) : UInt8 :=
  if isTransparentLine header then 1
  else if isSolidLine header then 2
  else 1 + header

/-- The bytes behind a header that belong to its line. -/
def indexCount (header : UInt8) : ℕ := (sizeInBytes header).toNat - 1

/-- A header counts itself, and a line that is neither transparent nor of one
colour has a byte for each pixel. -/
def Consistent (header : UInt8) : Prop :=
  0 < (sizeInBytes header).toNat ∧ (isTransparentLine header = false → isSolidLine header = false →
      indexCount header = (lineLength header).toNat)

instance (header : UInt8) : Decidable (Consistent header) := inferInstanceAs (Decidable (_ ∧ _))

theorem consistent (header : UInt8) : Consistent header := by
  have hall : ∀ value < 256, Consistent (UInt8.ofNat value) := by
    decide +kernel
  have hheader := hall header.toNat header.toNat_lt
  rwa [UInt8.ofNat_toNat] at hheader

/-- The palette indices of the pixels of a line; transparent pixels have
none. -/
def pixels (header : UInt8) (paletteIndex : List UInt8) : List (Option UInt8) :=
  if isTransparentLine header then
    List.replicate (lineLength header).toNat none
  else if isSolidLine header then
    List.replicate (lineLength header).toNat (some (paletteIndex.headD 0))
  else
    (paletteIndex.take (lineLength header).toNat).map some

theorem length_pixels {header : UInt8} {paletteIndex : List UInt8}
    (hroom : indexCount header ≤ paletteIndex.length) :
    (pixels header paletteIndex).length = (lineLength header).toNat := by
  rw [pixels]
  cases htransparent : isTransparentLine header with
  | true => rw [if_pos rfl, List.length_replicate]
  | false =>
      rw [if_neg (by decide)]
      cases hsolid : isSolidLine header with
      | true => rw [if_pos rfl, List.length_replicate]
      | false =>
          have hcount := (consistent header).2 htransparent hsolid
          rw [if_neg (by decide), List.length_map, List.length_take]
          omega

end PixelLine

/-- The lines that bytes stand for, up to one that is cut off. -/
def pixelLines : List UInt8 → List (List (Option UInt8))
  | [] => []
  | header :: bytes =>
      if bytes.length < PixelLine.indexCount header then []
      else PixelLine.pixels header bytes :: pixelLines (bytes.drop (PixelLine.indexCount header))
termination_by bytes => bytes.length
decreasing_by
  rw [List.length_drop, List.length_cons]
  omega

/-- The pixels of the row whose first line begins with the bytes. -/
def rowPixels (bytes : List UInt8) : List (Option UInt8) := (pixelLines bytes).flatten

namespace Grp

structure FrameHeader where
  xOffset : ℕ
  yOffset : ℕ
  frameWidth : ℕ
  frameHeight : ℕ
  frameOffset : ℕ

def FileHeaderSize : ℕ := 6

def FrameHeaderSize : ℕ := 8

section File

variable (grpData : List UInt8)

def numFrames : ℕ := wordAt 2 grpData 0
def grpWidth : ℕ := wordAt 2 grpData 2
def grpHeight : ℕ := wordAt 2 grpData 4

def frameHeader (frame : ℕ) : FrameHeader where
  xOffset := wordAt 1 grpData (FileHeaderSize + FrameHeaderSize * frame)
  yOffset := wordAt 1 grpData (FileHeaderSize + FrameHeaderSize * frame + 1)
  frameWidth := wordAt 1 grpData (FileHeaderSize + FrameHeaderSize * frame + 2)
  frameHeight := wordAt 1 grpData (FileHeaderSize + FrameHeaderSize * frame + 3)
  frameOffset := wordAt 4 grpData (FileHeaderSize + FrameHeaderSize * frame + 4)

/-- A reference to a frame header and what is behind it. -/
def readFrameHeader (frame : ℕ) : Except Hazard FrameHeader :=
  if FileHeaderSize + FrameHeaderSize * (frame + 1) ≤ grpData.length then
    .ok (frameHeader grpData frame)
  else
    .error .undefinedBehavior

def rowBytes (header : FrameHeader) (row : ℕ) : List UInt8 :=
  grpData.drop (header.frameOffset + wordAt 2 grpData (header.frameOffset + 2 * row))

def fileHeaderIsValid : Bool := FileHeaderSize ≤ grpData.length

def frameHeadersAreValid : Except Hazard Bool := do
  let numFrames ← readWord 2 grpData 0
  .ok (FileHeaderSize + numFrames * FrameHeaderSize ≤ grpData.length)

/-- The loop over the lines of a row, on the bytes from `pixelLineOffset` on. -/
def linesAreValid (frameWidth : ℕ) (bytes : List UInt8) (column : ℕ) : Bool :=
  if column < frameWidth then
    match bytes with
    | [] => false
    | header :: bytes =>
        if bytes.length + 1 < (PixelLine.sizeInBytes header).toNat then false
        else
          linesAreValid frameWidth (bytes.drop (PixelLine.indexCount header))
            (column + (PixelLine.lineLength header).toNat)
  else
    true
termination_by bytes.length
decreasing_by
  rw [List.length_drop, List.length_cons]
  omega

def rowIsValid (header : FrameHeader) (row : ℕ) : Except Hazard Bool := do
  let rowOffset ← readWord 2 grpData (header.frameOffset + 2 * row)
  let pixelRowOffset := header.frameOffset + rowOffset
  .ok (if grpData.length < pixelRowOffset + 1 then false
    else linesAreValid header.frameWidth (grpData.drop pixelRowOffset) 0)

def frameIsValid (frame : ℕ) : Except Hazard Bool := do
  let header ← readFrameHeader grpData frame
  let grpWidth ← readWord 2 grpData 2
  let grpHeight ← readWord 2 grpData 4
  if header.frameHeight = 0 ∨ header.frameWidth = 0 then
    .ok true
  else if grpHeight < header.yOffset + header.frameHeight then
    .ok false
  else if grpWidth < header.xOffset + header.frameWidth then
    .ok false
  else if grpData.length < header.frameOffset + 2 * header.frameHeight + header.frameHeight then
    .ok false
  else
    (List.range header.frameHeight).allM (rowIsValid grpData header)

def framesAreValid : Except Hazard Bool := do
  let numFrames ← readWord 2 grpData 0
  (List.range numFrames).allM (frameIsValid grpData)

/-- `Grp::isValid`. -/
def isValid : Except Hazard Bool :=
  if fileHeaderIsValid grpData then do
    let valid ← frameHeadersAreValid grpData
    if valid then framesAreValid grpData else .ok false
  else
    .ok false

end File

/-- A frame whose rows are inside the file, each with enough pixels; a frame
without pixels may be anything. -/
def FrameFits (grpData : List UInt8) (header : FrameHeader) : Prop :=
  header.frameHeight = 0 ∨ header.frameWidth = 0 ∨
    header.yOffset + header.frameHeight ≤ grpHeight grpData ∧
    header.xOffset + header.frameWidth ≤ grpWidth grpData ∧
    header.frameOffset + 3 * header.frameHeight ≤ grpData.length ∧
    ∀ row < header.frameHeight, header.frameWidth ≤ (rowPixels (rowBytes grpData header row)).length

/-- The headers are in the file and the frames fit. -/
structure WellFormed (grpData : List UInt8) : Prop where
  file : FileHeaderSize ≤ grpData.length
  headers : FileHeaderSize + FrameHeaderSize * numFrames grpData ≤ grpData.length
  frames : ∀ frame < numFrames grpData, FrameFits grpData (frameHeader grpData frame)

/-- The loop finds the columns it needs exactly if the lines have them. -/
theorem linesAreValid_iff (frameWidth : ℕ) (bytes : List UInt8) (column : ℕ) :
    linesAreValid frameWidth bytes column = true ↔
      frameWidth ≤ column + (rowPixels bytes).length := by
  induction bytes using pixelLines.induct generalizing column with
  | case1 =>
      rw [linesAreValid, rowPixels, pixelLines]
      split <;> simp <;> omega
  | case2 header bytes hcut =>
      have hsize : bytes.length + 1 < (PixelLine.sizeInBytes header).toNat := by
        rw [PixelLine.indexCount] at hcut
        omega
      rw [linesAreValid, rowPixels, pixelLines, if_pos hcut]
      simp only [if_pos hsize]
      split <;> simp <;> omega
  | case3 header bytes hwhole ih =>
      have hroom := Nat.not_lt.mp hwhole
      have hsize : ¬ bytes.length + 1 < (PixelLine.sizeInBytes header).toNat := by
        have hpos := (PixelLine.consistent header).1
        rw [PixelLine.indexCount] at hroom
        omega
      rw [linesAreValid, rowPixels, pixelLines, if_neg hwhole,
        List.flatten_cons, List.length_append, PixelLine.length_pixels hroom]
      simp only [if_neg hsize]
      split
      · rw [ih, rowPixels, Nat.add_assoc]
      · simp
        omega

theorem allM_eq {A : Type} (check : A → Except Hazard Bool)
    {meets : A → Prop} (items : List A)
    (hcheck : ∀ item ∈ items, ∃ valid, check item = .ok valid ∧ (valid = true ↔ meets item)) :
    ∃ valid, items.allM check = .ok valid ∧ (valid = true ↔ ∀ item ∈ items, meets item) := by
  induction items with
  | nil => exact ⟨true, rfl, by simp⟩
  | cons item items ih =>
      obtain ⟨valid, hvalid, hitem⟩ := hcheck item List.mem_cons_self
      obtain ⟨rest, hrest, hitems⟩ :=
        ih fun other hother => hcheck other (List.mem_cons_of_mem item hother)
      rw [List.allM, hvalid]
      cases valid with
      | true =>
          refine ⟨rest, hrest, ?_⟩
          rw [hitems, List.forall_mem_cons]
          exact (and_iff_right (hitem.mp rfl)).symm
      | false =>
          refine ⟨false, rfl, ?_⟩
          simp only [Bool.false_eq_true, false_iff, List.forall_mem_cons]
          exact fun hall => Bool.noConfusion (hitem.mpr hall.1)

theorem exists_false {P : Prop} (hnot : ¬ P) :
    ∃ valid, (.ok false : Except Hazard Bool) = .ok valid ∧ (valid = true ↔ P) :=
  ⟨false, rfl, iff_of_false (by decide) hnot⟩

section Validation

variable {grpData : List UInt8}

theorem exists_rowIsValid {header : FrameHeader} {row : ℕ} (hwidth : 0 < header.frameWidth)
    (hroom : header.frameOffset + 2 * row + 2 ≤ grpData.length) :
    ∃ valid, rowIsValid grpData header row = .ok valid ∧ (valid = true ↔ header.frameWidth ≤
        (rowPixels (rowBytes grpData header row)).length) := by
  rw [rowIsValid, readWord_of_le hroom]
  refine ⟨_, rfl, ?_⟩
  split
  · next hshort =>
      have hnil : rowBytes grpData header row = [] := List.drop_eq_nil_of_le (by omega)
      rw [hnil, rowPixels, pixelLines]
      simp only [Bool.false_eq_true, List.flatten_nil, List.length_nil, false_iff]
      omega
  · rw [linesAreValid_iff, Nat.zero_add]
    rfl

theorem exists_frameIsValid (hheaders : FileHeaderSize + FrameHeaderSize * numFrames grpData ≤
      grpData.length) {frame : ℕ} (hframe : frame < numFrames grpData) :
    ∃ valid, frameIsValid grpData frame = .ok valid ∧
      (valid = true ↔ FrameFits grpData (frameHeader grpData frame)) := by
  have hroom : FileHeaderSize + FrameHeaderSize * (frame + 1) ≤
      grpData.length :=
    (Nat.add_le_add_left (Nat.mul_le_mul_left _ hframe) _).trans hheaders
  rw [FileHeaderSize, FrameHeaderSize] at hroom
  rw [frameIsValid, readFrameHeader, FileHeaderSize, FrameHeaderSize,
    if_pos hroom, readWord_of_le (by omega), readWord_of_le (by omega),
    FrameFits]
  generalize frameHeader grpData frame = header
  simp only [bind, Except.bind]
  split
  · next hempty =>
      exact ⟨true, rfl, iff_of_true rfl (hempty.imp_right Or.inl)⟩
  · next hpixels =>
      rw [not_or] at hpixels
      rw [or_iff_right hpixels.1, or_iff_right hpixels.2]
      split
      · next hhigh =>
          exact exists_false fun hfits => Nat.not_lt.mpr hfits.1 hhigh
      split
      · next hwide =>
          exact exists_false fun hfits => Nat.not_lt.mpr hfits.2.1 hwide
      split
      · next hshort =>
          exact exists_false fun hfits => Nat.not_lt.mpr hfits.2.2.1 (by omega)
      · next hhigh hwide hshort =>
          have hrow : ∀ row ∈ List.range header.frameHeight, ∃ valid,
              rowIsValid grpData header row = .ok valid ∧ (valid = true ↔ header.frameWidth ≤
                  (rowPixels (rowBytes grpData header row)).length) := by
            intro row hmem
            rw [List.mem_range] at hmem
            exact exists_rowIsValid (by omega) (by omega)
          obtain ⟨valid, hvalid, hrows⟩ := allM_eq _ _ hrow
          refine ⟨valid, hvalid, hrows.trans ?_⟩
          simp only [List.mem_range]
          refine ⟨fun hall => ⟨Nat.not_lt.mp hhigh, Nat.not_lt.mp hwide,
            by omega, hall⟩, fun hfits => hfits.2.2.2⟩

end Validation

/-- Validation looks at nothing outside the file, and accepts exactly the
well-formed ones. -/
theorem exists_isValid (grpData : List UInt8) :
    ∃ valid, isValid grpData = .ok valid ∧ (valid = true ↔ WellFormed grpData) := by
  rw [isValid, fileHeaderIsValid]
  by_cases hfile : FileHeaderSize ≤ grpData.length
  swap
  · rw [decide_eq_false hfile]
    exact exists_false fun hfits => hfile hfits.file
  have htwo : 0 + 2 ≤ grpData.length := by
    rw [FileHeaderSize] at hfile
    omega
  rw [decide_eq_true hfile, if_pos rfl, frameHeadersAreValid, readWord_of_le htwo]
  change ∃ valid, (if decide (FileHeaderSize +
    numFrames grpData * FrameHeaderSize ≤ grpData.length) = true then
      framesAreValid grpData else .ok false) = .ok valid ∧ _
  rw [Nat.mul_comm]
  by_cases hheaders : FileHeaderSize + FrameHeaderSize * numFrames grpData ≤ grpData.length
  swap
  · rw [if_neg (by simpa using hheaders)]
    exact exists_false fun hfits => hheaders hfits.headers
  rw [if_pos (decide_eq_true hheaders), framesAreValid, readWord_of_le htwo]
  obtain ⟨valid, hvalid, hframes⟩ := allM_eq (frameIsValid grpData)
    (List.range (numFrames grpData)) fun frame hframe =>
      exists_frameIsValid hheaders (List.mem_range.mp hframe)
  refine ⟨valid, hvalid, hframes.trans ?_⟩
  simp only [List.mem_range]
  exact ⟨fun hall => ⟨hfile, hheaders, hall⟩, fun hfits => hfits.frames⟩

end Grp

end Chkdraft.Sc
