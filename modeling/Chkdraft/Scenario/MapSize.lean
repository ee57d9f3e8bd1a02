import Mathlib.Tactic.IntervalCases
import Chkdraft.Scenario.NewScenario
import Chkdraft.Sections.TileResize

/-!
# The size of a map

`setTileWidth`, `setTileHeight` and `setDimensions` of `Layers`.  The size of a
map is stored in DIM and again in the lengths of MTXM, TILE, MASK and ISOM.  Of
these only ISOM is resized, to one entry for each tile; the tiles are resized in
a copy, the fog is not, and a single side is stored as it was.
-/

namespace Chkdraft.Scenario

open Chk Sections

/-- The parts of `Layers` that depend on the size of the map. -/
structure Layers where
  tileWidth : UInt16
  tileHeight : UInt16
  mtxm : List UInt16
  tile : List UInt16
  isomEntries : List IsomEntry
  fogTiles : List UInt8

/-- The layers of `Scenario(tileset, width, height)`. -/
def newLayers (width height : UInt16) : Layers where
  tileWidth := width
  tileHeight := height
  mtxm := List.replicate (width.toNat * height.toNat) 0
  tile := List.replicate (width.toNat * height.toNat) 0
  isomEntries := defaultIsom width.toNat height.toNat
  fogTiles := List.replicate (width.toNat * height.toNat) 0

/-- `IsomSection::setDimensions`. -/
def isomSetDimensions (isomEntries : List IsomEntry)
    (newTileWidth newTileHeight : UInt16) : List IsomEntry :=
  let newNumIndices := newTileWidth.toNat * newTileHeight.toNat
  isomEntries.take newNumIndices ++ List.replicate (newNumIndices - isomEntries.length) ⟨0, 0, 0, 0⟩

namespace Layers

/-- What the three functions of `Terrain` do before they set DIM.  MTXM and TILE
keep the lists they had. -/
def resizeSections (layers : Layers) (newTileWidth newTileHeight : UInt16)
    (leftEdge topEdge : ℤ) : Except (Fault LengthError) Layers := do
  let _ ← setMtxmOrTileDimensions layers.tile newTileWidth newTileHeight
    layers.tileWidth layers.tileHeight leftEdge topEdge
  let _ ← setMtxmOrTileDimensions layers.mtxm newTileWidth newTileHeight
    layers.tileWidth layers.tileHeight leftEdge topEdge
  pure { layers with
    isomEntries := isomSetDimensions layers.isomEntries newTileWidth newTileHeight }

/-- `Terrain::setTileWidth`, which stores the width there was. -/
def setTileWidth (layers : Layers) (newTileWidth : UInt16) (leftEdge : ℤ) :
    Except (Fault LengthError) Layers := do
  let resized ← layers.resizeSections newTileWidth layers.tileHeight leftEdge 0
  pure { resized with tileWidth := layers.tileWidth }

/-- `Terrain::setTileHeight`, which stores the height there was. -/
def setTileHeight (layers : Layers) (newTileHeight : UInt16) (topEdge : ℤ) :
    Except (Fault LengthError) Layers := do
  let resized ← layers.resizeSections layers.tileWidth newTileHeight 0 topEdge
  pure { resized with tileHeight := layers.tileHeight }

/-- `Terrain::setDimensions`. -/
def setDimensions (layers : Layers) (newTileWidth newTileHeight : UInt16)
    (leftEdge topEdge : ℤ) : Except (Fault LengthError) Layers := do
  let resized ← layers.resizeSections newTileWidth newTileHeight leftEdge topEdge
  pure { resized with
    tileWidth := newTileWidth
    tileHeight := newTileHeight }

end Layers

/-- A call that sets the size of the map. -/
inductive SizeCall where
  | setTileWidth (newTileWidth : UInt16) (leftEdge : ℤ)
  | setTileHeight (newTileHeight : UInt16) (topEdge : ℤ)
  | setDimensions (newTileWidth newTileHeight : UInt16) (leftEdge topEdge : ℤ)

namespace SizeCall

/-- The call; what `Layers::validateSizes` does behind it to locations, doodads,
units and sprites is left out. -/
def apply : SizeCall → Layers → Except (Fault LengthError) Layers
  | .setTileWidth newTileWidth leftEdge, layers =>
      layers.setTileWidth newTileWidth leftEdge
  | .setTileHeight newTileHeight topEdge, layers =>
      layers.setTileHeight newTileHeight topEdge
  | .setDimensions newTileWidth newTileHeight leftEdge topEdge, layers =>
      layers.setDimensions newTileWidth newTileHeight leftEdge topEdge

def newWidth (layers : Layers) : SizeCall → UInt16
  | .setTileWidth newTileWidth _ => newTileWidth
  | .setTileHeight _ _ => layers.tileWidth
  | .setDimensions newTileWidth _ _ _ => newTileWidth

def newHeight (layers : Layers) : SizeCall → UInt16
  | .setTileWidth _ _ => layers.tileHeight
  | .setTileHeight newTileHeight _ => newTileHeight
  | .setDimensions _ newTileHeight _ _ => newTileHeight

def leftEdge : SizeCall → ℤ
  | .setTileWidth _ leftEdge => leftEdge
  | .setTileHeight _ _ => 0
  | .setDimensions _ _ leftEdge _ => leftEdge

def topEdge : SizeCall → ℤ
  | .setTileWidth _ _ => 0
  | .setTileHeight _ topEdge => topEdge
  | .setDimensions _ _ _ topEdge => topEdge

def Positive : SizeCall → Prop
  | .setTileWidth newTileWidth _ => 0 < newTileWidth.toNat
  | .setTileHeight newTileHeight _ => 0 < newTileHeight.toNat
  | .setDimensions newTileWidth newTileHeight _ _ =>
      0 < newTileWidth.toNat ∧ 0 < newTileHeight.toNat

end SizeCall

/-- All sections have this size. -/
structure HasSize (width height : UInt16) (layers : Layers) : Prop where
  width_eq : layers.tileWidth = width
  height_eq : layers.tileHeight = height
  mtxm : layers.mtxm.length = width.toNat * height.toNat
  tile : layers.tile.length = width.toNat * height.toNat
  fog : layers.fogTiles.length = width.toNat * height.toNat
  isom : layers.isomEntries.length = (defaultIsom width.toNat height.toNat).length

/-- Every call of a run returns and leaves the size it was asked for. -/
def SizesHold : Layers → List SizeCall → Prop
  | _, [] => True
  | layers, call :: rest => ∃ after, call.apply layers = .ok after ∧
      HasSize (call.newWidth layers) (call.newHeight layers) after ∧
      SizesHold after rest

/-- The condition on a call: it asks for one of the three sizes at which ISOM has
one entry for each tile, with as many tiles as there are, a single side is not
changed, and the copies of the tiles are cut inside. -/
def SizeCall.Meets (layers : Layers) (call : SizeCall) : Prop :=
  ((call.newWidth layers).toNat, (call.newHeight layers).toNat) ∈ [(3, 2), (4, 3), (6, 2)] ∧
    (call.newWidth layers).toNat * (call.newHeight layers).toNat =
      layers.tileWidth.toNat * layers.tileHeight.toNat ∧
    CopyInside (call.newWidth layers) (call.newHeight layers)
      layers.tileWidth layers.tileHeight call.leftEdge call.topEdge ∧
    match call with
    | .setTileWidth newTileWidth _ => newTileWidth = layers.tileWidth
    | .setTileHeight newTileHeight _ => newTileHeight = layers.tileHeight
    | .setDimensions _ _ _ _ => True

/-- Every call of a run meets the condition on it. -/
def MeetsAlong : Layers → List SizeCall → Prop
  | _, [] => True
  | layers, call :: rest => call.Meets layers ∧
      ∀ after, call.apply layers = .ok after → MeetsAlong after rest

theorem length_isomSetDimensions (isomEntries : List IsomEntry)
    (newTileWidth newTileHeight : UInt16) :
    (isomSetDimensions isomEntries newTileWidth newTileHeight).length =
      newTileWidth.toNat * newTileHeight.toNat := by
  simp only [isomSetDimensions, List.length_append, List.length_take, List.length_replicate]
  omega

theorem isom_size_iff {width height : ℕ} (hwidth : 0 < width) (hheight : 0 < height) :
    width * height = (width / 2 + 1) * (height + 1) ↔
      (width, height) ∈ [(3, 2), (4, 3), (6, 2)] := by
  constructor
  · intro hsize
    obtain ⟨rows, rfl⟩ := Nat.exists_eq_succ_of_ne_zero (Nat.ne_of_gt hheight)
    obtain ⟨half, hhalf | hhalf⟩ := Nat.even_or_odd' width
    · have hdiv : width / 2 = half := by omega
      obtain ⟨columns, rfl⟩ := Nat.exists_eq_succ_of_ne_zero (by omega : half ≠ 0)
      have hproduct : columns * rows = 2 := by
        rw [hdiv, hhalf] at hsize
        simp only [Nat.succ_eq_add_one] at hsize
        linarith
      have hle : columns ≤ 2 := Nat.le_of_dvd (by decide) ⟨rows, hproduct.symm⟩
      interval_cases columns
      · omega
      · simp only [List.mem_cons, Prod.mk.injEq]
        omega
      · simp only [List.mem_cons, Prod.mk.injEq]
        omega
    · have hdiv : width / 2 = half := by omega
      have hproduct : half * rows = 1 := by
        rw [hdiv, hhalf] at hsize
        simp only [Nat.succ_eq_add_one] at hsize
        linarith
      have hhalfOne := Nat.eq_one_of_mul_eq_one_right hproduct
      have hrowsOne := Nat.eq_one_of_mul_eq_one_left hproduct
      simp only [List.mem_cons, Prod.mk.injEq]
      omega
  · simp only [List.mem_cons, Prod.mk.injEq, List.not_mem_nil, or_false]
    rintro (⟨rfl, rfl⟩ | ⟨rfl, rfl⟩ | ⟨rfl, rfl⟩) <;> rfl

def SizeCall.store (layers resized : Layers) : SizeCall → Layers
  | .setTileWidth _ _ => { resized with tileWidth := layers.tileWidth }
  | .setTileHeight _ _ => { resized with tileHeight := layers.tileHeight }
  | .setDimensions newTileWidth newTileHeight _ _ =>
      { resized with
        tileWidth := newTileWidth
        tileHeight := newTileHeight }

section Store

variable (layers resized : Layers) (call : SizeCall)

@[simp]
theorem SizeCall.store_mtxm : (call.store layers resized).mtxm =
    resized.mtxm := by
  cases call <;> rfl

@[simp]
theorem SizeCall.store_tile : (call.store layers resized).tile =
    resized.tile := by
  cases call <;> rfl

@[simp]
theorem SizeCall.store_fogTiles : (call.store layers resized).fogTiles =
    resized.fogTiles := by
  cases call <;> rfl

@[simp]
theorem SizeCall.store_isomEntries : (call.store layers resized).isomEntries =
    resized.isomEntries := by
  cases call <;> rfl

end Store

section Step

variable {layers after : Layers} {call : SizeCall}

theorem SizeCall.apply_eq_ok_iff : call.apply layers = .ok after ↔ ∃ resized,
      layers.resizeSections (call.newWidth layers) (call.newHeight layers)
          call.leftEdge call.topEdge = .ok resized ∧
        after = call.store layers resized := by
  have hstored : ∀ resized, (pure (call.store layers resized) :
      Except (Fault LengthError) Layers) = .ok after ↔
      after = call.store layers resized := by
    intro resized
    constructor
    · intro heq
      cases heq
      rfl
    · rintro rfl
      rfl
  simp only [← hstored]
  cases call <;> exact Fault.bind_eq_ok_iff

variable (hsize : HasSize layers.tileWidth layers.tileHeight layers)
  (hwidth : 0 < layers.tileWidth.toNat) (hheight : 0 < layers.tileHeight.toNat)

include hsize hwidth hheight

theorem resizeSections_eq_ok_iff {newTileWidth newTileHeight : UInt16}
    {leftEdge topEdge : ℤ} {resized : Layers} :
    layers.resizeSections newTileWidth newTileHeight leftEdge topEdge = .ok resized ↔
      CopyInside newTileWidth newTileHeight layers.tileWidth layers.tileHeight leftEdge topEdge ∧
        resized = { layers with
          isomEntries := isomSetDimensions layers.isomEntries newTileWidth newTileHeight } := by
  have htile := setMtxmOrTileDimensions_ok_iff hwidth hheight hsize.tile
    newTileWidth newTileHeight leftEdge topEdge
  have hmtxm := setMtxmOrTileDimensions_ok_iff hwidth hheight hsize.mtxm
    newTileWidth newTileHeight leftEdge topEdge
  simp only [Layers.resizeSections, Fault.bind_eq_ok_iff]
  constructor
  · rintro ⟨tiles, htiles, others, hothers, hresult⟩
    cases hresult
    exact ⟨htile.mp ⟨tiles, htiles⟩, rfl⟩
  · rintro ⟨hinside, rfl⟩
    obtain ⟨tiles, htiles⟩ := htile.mpr hinside
    obtain ⟨others, hothers⟩ := hmtxm.mpr hinside
    exact ⟨tiles, htiles, others, hothers, rfl⟩

omit hsize in
/-- The sizes a call asks for are positive on a map that has a size. -/
theorem SizeCall.Positive.new_pos (hpositive : call.Positive) :
    0 < (call.newWidth layers).toNat ∧ 0 < (call.newHeight layers).toNat := by
  cases call with
  | setTileWidth newTileWidth leftEdge => exact ⟨hpositive, hheight⟩
  | setTileHeight newTileHeight topEdge => exact ⟨hwidth, hpositive⟩
  | setDimensions newTileWidth newTileHeight leftEdge topEdge =>
      exact hpositive

/-- A call leaves the size it was asked for exactly if it meets the condition. -/
theorem SizeCall.meets_iff (hpositive : call.Positive) : (∃ after, call.apply layers = .ok after ∧
        HasSize (call.newWidth layers) (call.newHeight layers) after) ↔
      call.Meets layers := by
  obtain ⟨hnewWidth, hnewHeight⟩ := hpositive.new_pos hwidth hheight
  have hresize := fun resized => @resizeSections_eq_ok_iff layers hsize hwidth
    hheight (call.newWidth layers) (call.newHeight layers) call.leftEdge
    call.topEdge resized
  have hisom : (call.newWidth layers).toNat * (call.newHeight layers).toNat =
      (defaultIsom (call.newWidth layers).toNat (call.newHeight layers).toNat).length ↔
      ((call.newWidth layers).toNat, (call.newHeight layers).toNat) ∈ [(3, 2), (4, 3), (6, 2)] := by
    rw [defaultIsom, List.length_replicate]
    exact isom_size_iff hnewWidth hnewHeight
  simp only [SizeCall.apply_eq_ok_iff, hresize]
  constructor
  · rintro ⟨after, ⟨resized, ⟨hinside, rfl⟩, rfl⟩, hafter⟩
    have harea := hafter.mtxm
    have hentries := hafter.isom
    rw [SizeCall.store_mtxm, hsize.mtxm] at harea
    rw [SizeCall.store_isomEntries, length_isomSetDimensions] at hentries
    refine ⟨hisom.mp hentries, harea.symm, hinside, ?_⟩
    cases call with
    | setTileWidth newTileWidth leftEdge => exact hafter.width_eq.symm
    | setTileHeight newTileHeight topEdge => exact hafter.height_eq.symm
    | setDimensions => trivial
  · rintro ⟨hentries, harea, hinside, hside⟩
    refine ⟨_, ⟨_, ⟨hinside, rfl⟩, rfl⟩, ?_, ?_, ?_, ?_, ?_, ?_⟩
    · cases call with
      | setTileWidth newTileWidth leftEdge => exact hside.symm
      | setTileHeight newTileHeight topEdge => rfl
      | setDimensions => rfl
    · cases call with
      | setTileWidth newTileWidth leftEdge => rfl
      | setTileHeight newTileHeight topEdge => exact hside.symm
      | setDimensions => rfl
    · rw [SizeCall.store_mtxm, harea]
      exact hsize.mtxm
    · rw [SizeCall.store_tile, harea]
      exact hsize.tile
    · rw [SizeCall.store_fogTiles, harea]
      exact hsize.fog
    · rw [SizeCall.store_isomEntries, length_isomSetDimensions]
      exact hisom.mpr hentries

end Step

/-- On a map that has its size, a run keeps it exactly if every call meets the
condition on it. -/
theorem sizesHold_iff_of_hasSize {layers : Layers} {calls : List SizeCall}
    (hsize : HasSize layers.tileWidth layers.tileHeight layers)
    (hwidth : 0 < layers.tileWidth.toNat)
    (hheight : 0 < layers.tileHeight.toNat)
    (hpositive : ∀ call ∈ calls, call.Positive) :
    SizesHold layers calls ↔ MeetsAlong layers calls := by
  induction calls generalizing layers with
  | nil => exact Iff.rfl
  | cons call rest ih =>
      have hcall := hpositive call List.mem_cons_self
      have hstep := SizeCall.meets_iff hsize hwidth hheight hcall
      have hnew := hcall.new_pos hwidth hheight
      have hrest : ∀ after, HasSize (call.newWidth layers) (call.newHeight layers) after →
          (SizesHold after rest ↔ MeetsAlong after rest) := by
        intro after hafter
        have hsame := hafter
        rw [← hafter.width_eq, ← hafter.height_eq] at hsame
        apply ih hsame
        · rw [hafter.width_eq]
          exact hnew.1
        · rw [hafter.height_eq]
          exact hnew.2
        · intro other hother
          exact hpositive other (List.mem_cons_of_mem call hother)
      constructor
      · rintro ⟨after, hafter, hsizeAfter, hlater⟩
        refine ⟨hstep.mp ⟨after, hafter, hsizeAfter⟩, ?_⟩
        intro other hother
        rw [hafter] at hother
        cases hother
        exact (hrest after hsizeAfter).mp hlater
      · rintro ⟨hmeets, hlater⟩
        obtain ⟨after, hafter, hsizeAfter⟩ := hstep.mpr hmeets
        exact ⟨after, hafter, hsizeAfter, (hrest after hsizeAfter).mpr (hlater after hafter)⟩

theorem hasSize_newLayers (width height : UInt16) :
    HasSize width height (newLayers width height) where
  width_eq := rfl
  height_eq := rfl
  mtxm := List.length_replicate
  tile := List.length_replicate
  fog := List.length_replicate
  isom := rfl

/-- From a new map a run keeps the sizes exactly if every call meets the
condition on it. -/
theorem sizesHold_iff {width height : UInt16} (hwidth : 0 < width.toNat)
    (hheight : 0 < height.toNat) {calls : List SizeCall}
    (hpositive : ∀ call ∈ calls, call.Positive) :
    SizesHold (newLayers width height) calls ↔ MeetsAlong (newLayers width height) calls :=
  sizesHold_iff_of_hasSize (hasSize_newLayers width height) hwidth hheight hpositive

/-- A map of 4 times 3 tiles made 6 tiles wide and 2 tiles high. -/
theorem sizesHold_small :
    SizesHold (newLayers 4 3) [.setDimensions 6 2 0 0, .setTileWidth 6 0] := by
  have hpositive : ∀ call ∈ [SizeCall.setDimensions 6 2 0 0, .setTileWidth 6 0], call.Positive := by
    intro call hcall
    simp only [List.mem_cons, List.not_mem_nil, or_false] at hcall
    rcases hcall with rfl | rfl
    · exact ⟨by decide, by decide⟩
    · exact (by decide : 0 < (6 : UInt16).toNat)
  rw [sizesHold_iff (by decide) (by decide) hpositive]
  refine ⟨⟨by decide, by decide, by decide, trivial⟩, ?_⟩
  intro after hafter
  cases hafter
  exact ⟨⟨by decide, by decide, by decide, rfl⟩, fun _ _ => trivial⟩

/-- Doubling the sides of a map leaves its tiles as they were. -/
theorem setDimensions_keeps_tiles : ¬ SizesHold (newLayers 64 64) [.setDimensions 128 128 0 0] := by
  rw [sizesHold_iff_of_hasSize (hasSize_newLayers 64 64) (by decide) (by decide)]
  · rintro ⟨⟨hsize, -⟩, -⟩
    revert hsize
    decide
  · intro call hcall
    rw [List.mem_singleton.mp hcall]
    exact ⟨by decide, by decide⟩

end Chkdraft.Scenario
