import Chkdraft.Core.CheckedRead
import Chkdraft.Core.RunLength
import Mathlib.Data.List.GetD

/-!
# Pictures

`Pcx::load` reads a run-length encoded picture and puts the colour of each pixel
on a palette.  The number of pixels is read from the header; the colours are the
last bytes of the file.
-/

namespace Chkdraft.Sc

open Binary RunLength

structure SystemColor where
  red : UInt8
  green : UInt8
  blue : UInt8
  null : UInt8
deriving DecidableEq

namespace PcxFile

def PcxHeaderSize : ℕ := 128
def PaletteSize : ℕ := 3 * 256
def MaxOffset : UInt8 := 192

section Header

variable (pcxData : List UInt8)

def bitCount : ℕ := wordAt 1 pcxData 3
def ncp : ℕ := wordAt 1 pcxData 65
def nbs : ℕ := wordAt 2 pcxData 66

def pixelCount : ℕ := ncp pcxData * nbs pcxData

/-- The bytes from `data` on. -/
def data : List UInt8 := pcxData.drop PcxHeaderSize

end Header

end PcxFile

namespace Pcx

open PcxFile

/-- `&pcxData[pcxData.size()-PaletteSize]`, as the bytes from there on.  In a
file that is shorter than the palette there is no such byte, as the unsigned
difference wraps around. -/
def paletteData (pcxData : List UInt8) : Except Hazard (List UInt8) :=
  if PaletteSize ≤ pcxData.length then
    .ok (pcxData.drop (pcxData.length - PaletteSize))
  else
    .error .undefinedBehavior

def colorAt (paletteData : List UInt8) (index : UInt8) : Except Hazard SystemColor :=
  match paletteData.drop (index.toNat * 3) with
  | red :: green :: blue :: _ => .ok ⟨red, green, blue, 0⟩
  | _ => .error .undefinedBehavior

/-- The loop over the pixels, on the bytes from `dataOffset` on. -/
def loadPixels (paletteData : List UInt8) (pixelCount : ℕ) :
    List UInt8 → ℕ → List SystemColor → Except Hazard (List SystemColor)
  | [], pixel, palette =>
      if pixel < pixelCount then .error .undefinedBehavior else .ok palette
  | compSect :: bytes, pixel, palette =>
      if pixel < pixelCount then
        if compSect < MaxOffset then do
          let color ← colorAt paletteData compSect
          loadPixels paletteData pixelCount bytes (pixel + 1) (palette ++ [color])
        else
          match bytes with
          | [] => .error .undefinedBehavior
          | colorIndex :: bytes => do
              let color ← colorAt paletteData colorIndex
              let count := (compSect - MaxOffset).toNat
              loadPixels paletteData pixelCount bytes (pixel + count)
                (palette ++ List.replicate count color)
      else
        .ok palette

/-- `load`, for the file `GetAsset` finds and the palette there was. -/
def load (palette : List SystemColor) :
    Option (List UInt8) → Except Hazard (Bool × List SystemColor)
  | none => .ok (false, palette)
  | some pcxData =>
      if pcxData.length < PcxHeaderSize then
        .ok (false, palette)
      else if bitCount pcxData ≠ 8 then
        .ok (false, palette)
      else do
        let colors ← paletteData pcxData
        let palette ← loadPixels colors (pixelCount pcxData) (data pcxData) 0 palette
        .ok (true, palette)

/-- The runs that bytes stand for: a byte below `MaxOffset` is one pixel, and
any other byte repeats the byte behind it. -/
def runs : List UInt8 → List (Run UInt8)
  | [] => []
  | compSect :: bytes =>
      if compSect < MaxOffset then
        ⟨1, compSect⟩ :: runs bytes
      else
        match bytes with
        | [] => []
        | colorIndex :: bytes =>
            ⟨(compSect - MaxOffset).toNat, colorIndex⟩ :: runs bytes

/-- The colour of an index in the last bytes of a file. -/
def color (pcxData : List UInt8) (index : UInt8) : SystemColor :=
  let first := pcxData.length - PaletteSize + index.toNat * 3
  ⟨pcxData.getD first 0, pcxData.getD (first + 1) 0, pcxData.getD (first + 2) 0, 0⟩

/-- A file is decoded inside its bytes, and a palette that is loaded holds the
pixels of the picture and nothing else. -/
def DecodesPicture (palette : List SystemColor) (pcxData : List UInt8) : Prop :=
  ∃ result loaded, load palette (some pcxData) = .ok (result, loaded) ∧
    (result = true → loaded.length = pixelCount pcxData ∧
        loaded = ((expand (runs (data pcxData))).take (pixelCount pcxData)).map (color pcxData))

/-- The header is one that `load` goes on with. -/
def Recognized (pcxData : List UInt8) : Prop :=
  PcxHeaderSize ≤ pcxData.length ∧ bitCount pcxData = 8

/-- A recognized file has room for its colours and data that fill the picture to
the last pixel, and it is loaded to an empty palette. -/
def MeetsFormat (palette : List SystemColor) (pcxData : List UInt8) : Prop :=
  Recognized pcxData → PaletteSize ≤ pcxData.length ∧
      Fits (pixelCount pcxData) (runs (data pcxData)) ∧ palette = []

/-- Every index has its colour in the last bytes of a file that has room for
them. -/
theorem colorAt_eq {pcxData : List UInt8} (hroom : PaletteSize ≤ pcxData.length) (index : UInt8) :
    colorAt (pcxData.drop (pcxData.length - PaletteSize)) index = .ok (color pcxData index) := by
  have hindex := index.toNat_lt
  have hfirst : pcxData.length - PaletteSize + index.toNat * 3 + 2 <
      pcxData.length := by
    rw [PaletteSize] at hroom ⊢
    omega
  rw [colorAt, color, List.drop_drop, List.drop_eq_getElem_cons (by omega),
    List.drop_eq_getElem_cons (by omega), List.drop_eq_getElem_cons hfirst,
    List.getD_eq_getElem _ _ (by omega), List.getD_eq_getElem _ _ (by omega),
    List.getD_eq_getElem _ _ hfirst]

/-- The palette with the colours of pixels, if there are enough of them. -/
def put (pcxData : List UInt8) (palette : List SystemColor) :
    Option (List UInt8) → Except Hazard (List SystemColor)
  | some indices => .ok (palette ++ indices.map (color pcxData))
  | none => .error .undefinedBehavior

theorem put_map_expand (pcxData : List UInt8) (palette : List SystemColor)
    (run : Run UInt8) (indices : Option (List UInt8)) :
    put pcxData palette (indices.map (run.expand ++ ·)) = put pcxData
        (palette ++ List.replicate run.count (color pcxData run.value))
        indices := by
  cases indices with
  | none => rfl
  | some indices =>
      rw [Option.map_some, put, put, List.map_append, Run.expand,
        List.map_replicate, List.append_assoc]

theorem loadPixels_of_le {pixelCount pixel : ℕ} (hle : pixelCount ≤ pixel)
    (pcxData colors bytes : List UInt8) (palette : List SystemColor) :
    loadPixels colors pixelCount bytes pixel palette =
      put pcxData palette (fill (pixelCount - pixel) (runs bytes)) := by
  rw [Nat.sub_eq_zero_of_le hle, fill, put, List.map_nil, List.append_nil, loadPixels.eq_def]
  cases bytes with
  | nil => exact if_neg (Nat.not_lt.mpr hle)
  | cons compSect bytes => exact if_neg (Nat.not_lt.mpr hle)

theorem loadPixels_eq {pcxData : List UInt8} (hroom : PaletteSize ≤ pcxData.length) (pixelCount : ℕ)
    (bytes : List UInt8) (pixel : ℕ) (palette : List SystemColor) :
    loadPixels (pcxData.drop (pcxData.length - PaletteSize)) pixelCount bytes pixel palette =
      put pcxData palette (fill (pixelCount - pixel) (runs bytes)) := by
  induction bytes using runs.induct generalizing pixel palette with
  | case1 =>
      rcases Nat.lt_or_ge pixel pixelCount with hpixel | hle
      · obtain ⟨left, hleft⟩ := Nat.exists_eq_add_of_lt hpixel
        rw [loadPixels, if_pos hpixel, hleft, Nat.add_assoc,
          Nat.add_sub_cancel_left, runs, fill, put]
      · exact loadPixels_of_le hle ..
  | case2 compSect bytes hlt ih =>
      rcases Nat.lt_or_ge pixel pixelCount with hpixel | hle
      · obtain ⟨left, hleft⟩ := Nat.exists_eq_add_of_lt hpixel
        have hcount : pixelCount - pixel = left + 1 := by omega
        have hbehind : left + 1 - 1 = pixelCount - (pixel + 1) := by omega
        rw [loadPixels.eq_def, runs.eq_def]
        simp only [if_pos hpixel, if_pos hlt, colorAt_eq hroom]
        rw [hcount, fill, put_map_expand, hbehind]
        exact ih ..
      · exact loadPixels_of_le hle ..
  | case3 compSect hlt =>
      rcases Nat.lt_or_ge pixel pixelCount with hpixel | hle
      · obtain ⟨left, hleft⟩ := Nat.exists_eq_add_of_lt hpixel
        rw [loadPixels, if_pos hpixel, if_neg hlt, runs, if_neg hlt, hleft,
          Nat.add_assoc, Nat.add_sub_cancel_left, fill, put]
      · exact loadPixels_of_le hle ..
  | case4 compSect hlt colorIndex bytes ih =>
      rcases Nat.lt_or_ge pixel pixelCount with hpixel | hle
      · obtain ⟨left, hleft⟩ := Nat.exists_eq_add_of_lt hpixel
        have hcount : pixelCount - pixel = left + 1 := by omega
        have hbehind : left + 1 - (compSect - MaxOffset).toNat =
            pixelCount - (pixel + (compSect - MaxOffset).toNat) := by omega
        rw [loadPixels, if_pos hpixel, if_neg hlt, colorAt_eq hroom, runs,
          if_neg hlt, hcount, fill, put_map_expand, hbehind]
        exact ih ..
      · exact loadPixels_of_le hle ..

theorem load_of_not_recognized {pcxData : List UInt8}
    (hrecognized : ¬ Recognized pcxData) (palette : List SystemColor) :
    load palette (some pcxData) = .ok (false, palette) := by
  rw [load]
  split
  · rfl
  · next hheader =>
      rw [if_pos fun hbits => hrecognized ⟨Nat.not_lt.mp hheader, hbits⟩]

theorem load_of_recognized {pcxData : List UInt8} (hrecognized : Recognized pcxData)
    (hroom : PaletteSize ≤ pcxData.length) (palette : List SystemColor) :
    load palette (some pcxData) = (put pcxData palette
        (fill (pixelCount pcxData) (runs (data pcxData)))).map (true, ·) := by
  rw [load, if_neg (Nat.not_lt.mpr hrecognized.1),
    if_neg (not_not.mpr hrecognized.2), paletteData, if_pos hroom]
  change (loadPixels _ _ _ 0 palette >>= fun palette => .ok (true, palette)) = _
  rw [loadPixels_eq hroom, Nat.sub_zero]
  cases fill (pixelCount pcxData) (runs (data pcxData)) with
  | none => rfl
  | some indices => rfl

/-- A file is decoded safely exactly when it meets the format. -/
theorem decodesPicture_iff (palette : List SystemColor) (pcxData : List UInt8) :
    DecodesPicture palette pcxData ↔ MeetsFormat palette pcxData := by
  rw [DecodesPicture, MeetsFormat]
  by_cases hrecognized : Recognized pcxData
  swap
  · rw [load_of_not_recognized hrecognized]
    exact iff_of_true ⟨false, palette, rfl, nofun⟩ fun h => absurd h hrecognized
  by_cases hroom : PaletteSize ≤ pcxData.length
  swap
  · rw [load, if_neg (Nat.not_lt.mpr hrecognized.1),
      if_neg (not_not.mpr hrecognized.2), paletteData, if_neg hroom]
    constructor
    · rintro ⟨result, loaded, hload, -⟩
      cases hload
    · intro hmeets
      exact absurd (hmeets hrecognized).1 hroom
  rw [load_of_recognized hrecognized hroom]
  constructor
  · rintro ⟨result, loaded, hload, hcolours⟩ -
    cases hfill : fill (pixelCount pcxData) (runs (data pcxData)) with
    | none =>
        rw [hfill] at hload
        cases hload
    | some indices =>
        rw [hfill] at hload
        cases hload
        have hlength := (hcolours rfl).1
        have hle := le_length_of_fill hfill
        rw [List.length_append, List.length_map] at hlength
        refine ⟨hroom, fill_length_iff.mp ⟨indices, hfill, by omega⟩, ?_⟩
        rw [← List.length_eq_zero_iff]
        omega
  · intro hmeets
    obtain ⟨-, hfits, rfl⟩ := hmeets hrecognized
    rw [hfits.fill_eq]
    refine ⟨true, _, rfl, fun _ => ⟨?_, List.nil_append _⟩⟩
    rw [List.nil_append, List.length_map, hfits.length_take]

/-- A picture of one pixel whose data repeat a colour twice. -/
def doubledPixel : List UInt8 :=
  [10, 5, 1, 8] ++ List.replicate 61 0 ++ [1, 1, 0] ++ List.replicate 60 0 ++
    [194, 0] ++ List.replicate PaletteSize 0

/-- A run goes on behind the end of the picture. -/
theorem doubledPixel_overruns : ¬ DecodesPicture [] doubledPixel := by
  rintro ⟨result, loaded, hload, hcolours⟩
  have hrun : (load [] (some doubledPixel)).toOption.map (fun loading =>
      (loading.1, loading.2.length, pixelCount doubledPixel)) = some (true, 2, 1) := by
    decide +kernel
  simp only [hload, Except.toOption, Option.map_some, Option.some.injEq, Prod.mk.injEq] at hrun
  have hlength := (hcolours hrun.1).1
  omega

end Pcx

end Chkdraft.Sc
