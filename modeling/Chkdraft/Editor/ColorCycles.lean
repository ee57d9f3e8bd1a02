import Chkdraft.Core.Fault
import Mathlib.Logic.Equiv.Basic
import Mathlib.Logic.Function.Iterate

/-!
# Cycling colors

Ranges of a map's palette turn while the map is shown.  The timers are static:
all maps whose tilesets use a rotator set share them, but only the palette of
the active map turns when a timer has run down.
-/

namespace Chkdraft.Editor

variable {C : Type}

structure Rotator where
  enabled : Bool
  ticksBetweenRotations : UInt8
  ticksRemaining : UInt8
  paletteIndexMin : UInt16
  paletteIndexMax : UInt16
deriving DecidableEq

def tilesetRotationSet : List ℕ := [0, 1, 1, 2, 0, 3, 3, 3]

/-- An array of eight rotators that begins with the given ones. -/
def rotatorSet (rotators : List Rotator) : List Rotator :=
  rotators ++ List.replicate (8 - rotators.length) ⟨false, 0, 0, 0, 0⟩

/-- `RotatorSets`, and `NoRotators` for an index behind it. -/
def initialRotatorSets : ℕ → List Rotator
  | 0 => rotatorSet [⟨true, 8, 0, 1, 6⟩, ⟨true, 8, 0, 7, 13⟩,
      ⟨true, 8, 0, 248, 254⟩]
  | 2 => rotatorSet [⟨true, 8, 0, 1, 4⟩, ⟨true, 8, 0, 5, 8⟩,
      ⟨true, 8, 0, 9, 13⟩]
  | 3 => rotatorSet [⟨true, 8, 0, 1, 13⟩, ⟨true, 8, 0, 248, 254⟩]
  | _ => rotatorSet []

structure ColorCycler where
  prevTickCount : UInt32
  rotatorSets : ℕ → List Rotator

/-- The colors by their indices, of which an access needs one below 256. -/
abbrev Palette (C : Type) := ℕ → C

/-- `std::swap` on two colors. -/
def swapColors (palette : Palette C) (index other : ℕ) : Except Hazard (Palette C) :=
  if index < 256 ∧ other < 256 then .ok (palette ∘ Equiv.swap index other)
  else .error .undefinedBehavior

/-- The loop of swaps, from `paletteIndex` on. -/
def rotateColors (paletteIndexMin : ℕ) : ℕ → Palette C → Except Hazard (Palette C)
  | 0, palette => .ok palette
  | paletteIndex + 1, palette =>
      if paletteIndexMin < paletteIndex + 1 then
        (swapColors palette (paletteIndex + 1) paletteIndex).bind
          (rotateColors paletteIndexMin paletteIndex)
      else
        .ok palette

/-- What a tick does to a rotator and a palette, and whether it rotates. -/
def Rotator.tick (rotator : Rotator) (palette : Palette C) :
    Except Hazard (Rotator × Palette C × Bool) :=
  if rotator.enabled then
    if rotator.ticksRemaining = 0 then
      (rotateColors rotator.paletteIndexMin.toNat
          rotator.paletteIndexMax.toNat palette).map fun palette =>
        ({ rotator with ticksRemaining := rotator.ticksBetweenRotations }, palette, true)
    else
      .ok ({ rotator with ticksRemaining := rotator.ticksRemaining - 1 }, palette, false)
  else
    .ok (rotator, palette, false)

def tickAll : List Rotator → Palette C → Except Hazard (List Rotator × Palette C × Bool)
  | [], palette => .ok ([], palette, false)
  | rotator :: rotators, palette =>
      (rotator.tick palette).bind fun (rotator, palette, rotates) =>
        (tickAll rotators palette).map fun (rotators, palette, redraw) =>
          (rotator :: rotators, palette, rotates || redraw)

/-- `CycleColors`, with the tick counts that are read first and last. -/
def ColorCycler.cycleColors (cycler : ColorCycler) (tileset : ℕ)
    (palette : Palette C) (tickCount lastTickCount : UInt32) :
    Except Hazard (ColorCycler × Palette C × Bool) :=
  if cycler.prevTickCount < tickCount then
    match tilesetRotationSet[tileset]? with
    | none => .error .undefinedBehavior
    | some currentRotationSet =>
        (tickAll (cycler.rotatorSets currentRotationSet) palette).map
          fun (rotatorSet, palette, redraw) =>
            (⟨lastTickCount, Function.update cycler.rotatorSets
              currentRotationSet rotatorSet⟩, palette, redraw)
  else
    .ok (cycler, palette, false)

/-- The tileset of a map and the palette of its graphics. -/
structure MapColors (C : Type) where
  tileset : UInt16
  palette : Palette C

structure ScreenColors (C : Type) where
  cycler : ColorCycler
  maps : ℕ → Option (MapColors C)

/-- `getColorPalette` -/
def getColorPalette (palettes : ℕ → Palette C) (tileset : UInt16) : Palette C :=
  palettes (tileset.toNat % 8)

/-- A map is opened with a tileset or gets another one, or it is the active map
when the main loop comes around. -/
inductive ColorStep where
  | updatePalette (map : ℕ) (tileset : UInt16)
  | cycleColors (map : ℕ) (tickCount lastTickCount : UInt32)

/-- The colors behind a step, and whether the map is drawn again. -/
def ScreenColors.step (palettes : ℕ → Palette C) (screen : ScreenColors C) :
    ColorStep → Except Hazard (ScreenColors C × Bool)
  | .updatePalette map tileset =>
      .ok ({ screen with
        maps := Function.update screen.maps map
          (some ⟨tileset, getColorPalette palettes tileset⟩) }, false)
  | .cycleColors map tickCount lastTickCount =>
      match screen.maps map with
      | none => .ok (screen, false)
      | some active =>
          (screen.cycler.cycleColors active.tileset.toNat active.palette
              tickCount lastTickCount).map fun (cycler, palette, redraw) =>
            (⟨cycler, Function.update screen.maps map (some ⟨active.tileset, palette⟩)⟩, redraw)

/-- What is left behind a run, and which steps drew a map again. -/
def runColors {S : Type} (step : S → ColorStep → Except Hazard (S × Bool))
    (state : S) : List ColorStep → Except Hazard (S × List Bool)
  | [] => .ok (state, [])
  | first :: steps =>
      (step state first).bind fun (next, redraw) =>
        (runColors step next steps).map fun (last, redraws) =>
          (last, redraw :: redraws)

/-- A map, and how often its palette has turned since it was loaded. -/
structure MapTurns where
  tileset : UInt16
  turns : ℕ

/-- The ticks of each rotator set, whichever map was active. -/
structure Turns where
  prevTickCount : UInt32
  ticks : ℕ → ℕ
  maps : ℕ → Option MapTurns

/-- A palette turns with the first tick of its set and with every ninth after
it. -/
def Turns.step (state : Turns) : ColorStep → Except Hazard (Turns × Bool)
  | .updatePalette map tileset =>
      .ok ({ state with
        maps := Function.update state.maps map (some ⟨tileset, 0⟩) }, false)
  | .cycleColors map tickCount lastTickCount =>
      match state.maps map with
      | none => .ok (state, false)
      | some active =>
          if state.prevTickCount < tickCount then
            match tilesetRotationSet[active.tileset.toNat]? with
            | none => .error .undefinedBehavior
            | some rotationSet =>
                let ticks := state.ticks rotationSet
                let turns := active.turns + if 9 ∣ ticks then 1 else 0
                .ok (⟨lastTickCount, Function.update state.ticks rotationSet (ticks + 1),
                  Function.update state.maps map (some ⟨active.tileset, turns⟩)⟩,
                  decide (9 ∣ ticks) && (initialRotatorSets rotationSet).any Rotator.enabled)
          else
            .ok (state, false)

/-- Where a color was before it was rotated to the right. -/
def Rotator.source (rotator : Rotator) (index : ℕ) : ℕ :=
  if index = rotator.paletteIndexMin.toNat then rotator.paletteIndexMax.toNat
  else if rotator.paletteIndexMin.toNat < index ∧
      index ≤ rotator.paletteIndexMax.toNat then index - 1
  else index

/-- A palette that all enabled rotators have rotated once. -/
def turned (rotators : List Rotator) (palette : Palette C) : Palette C :=
  rotators.foldl (fun palette rotator =>
    if rotator.enabled then palette ∘ rotator.source else palette) palette

/-- A rotator behind some ticks of its set. -/
def Rotator.behind (ticks : ℕ) (rotator : Rotator) : Rotator :=
  if rotator.enabled then
    { rotator with ticksRemaining := UInt8.ofNat ((9 - ticks % 9) % 9) }
  else
    rotator

def MapTurns.colors (palettes : ℕ → Palette C) (map : MapTurns) : MapColors C where
  tileset := map.tileset
  palette := (turned ((tilesetRotationSet[map.tileset.toNat]?).elim
    [] initialRotatorSets))^[map.turns] (getColorPalette palettes map.tileset)

/-- The timers and palettes that the ticks make. -/
def Turns.screen (palettes : ℕ → Palette C) (state : Turns) : ScreenColors C where
  cycler := ⟨state.prevTickCount, fun rotationSet =>
    (initialRotatorSets rotationSet).map (Rotator.behind (state.ticks rotationSet))⟩
  maps := Option.map (MapTurns.colors palettes) ∘ state.maps

/-- The timer of a rotator and its part of a palette. -/
def Rotator.Sound (rotator : Rotator) : Prop := rotator.ticksBetweenRotations = 8 ∧
    rotator.paletteIndexMin.toNat ≤ rotator.paletteIndexMax.toNat ∧
    rotator.paletteIndexMax.toNat < 256

instance (rotator : Rotator) : Decidable rotator.Sound := inferInstanceAs (Decidable (_ ∧ _))

theorem sound_initialRotatorSets (rotationSet : ℕ) :
    ∀ rotator ∈ initialRotatorSets rotationSet, rotator.behind 0 = rotator ∧
        (rotator.enabled = true → rotator.Sound) := by
  match rotationSet with
  | 0 | 1 | 2 | 3 => decide
  | _ + 4 =>
      change ∀ rotator ∈ rotatorSet [], _
      decide

theorem ticksRemaining_eq_zero_iff (ticks : ℕ) :
    UInt8.ofNat ((9 - ticks % 9) % 9) = 0 ↔ 9 ∣ ticks := by
  have hall : ∀ rest < 9, UInt8.ofNat ((9 - rest) % 9) = 0 ↔ rest = 0 := by decide
  rw [hall _ (Nat.mod_lt _ (by decide)), Nat.dvd_iff_mod_eq_zero]

theorem ticksRemaining_succ (ticks : ℕ) : UInt8.ofNat ((9 - (ticks + 1) % 9) % 9) =
      if 9 ∣ ticks then 8 else UInt8.ofNat ((9 - ticks % 9) % 9) - 1 := by
  have hall : ∀ rest < 9, UInt8.ofNat ((9 - (rest + 1) % 9) % 9) =
      if rest = 0 then 8 else UInt8.ofNat ((9 - rest) % 9) - 1 := by
    decide
  rw [← Nat.mod_add_mod, hall _ (Nat.mod_lt _ (by decide))]
  simp only [Nat.dvd_iff_mod_eq_zero]

theorem rotateColors_eq {first last : ℕ} (hle : first ≤ last)
    (hlt : last < 256) (palette : Palette C) :
    rotateColors first last palette = .ok fun index =>
      palette (if index = first then last
        else if first < index ∧ index ≤ last then index - 1 else index) := by
  induction last generalizing palette with
  | zero =>
      refine congrArg Except.ok (funext fun index => congrArg palette ?_)
      split_ifs <;> omega
  | succ last ih =>
      rw [rotateColors]
      split
      · rw [swapColors, if_pos ⟨hlt, Nat.lt_of_succ_lt hlt⟩]
        refine (ih (by omega) (by omega) _).trans (congrArg Except.ok
          (funext fun index => congrArg palette ?_))
        rw [Equiv.swap_apply_def]
        split_ifs <;> omega
      · refine congrArg Except.ok (funext fun index => congrArg palette ?_)
        split_ifs <;> omega

theorem tick_eq {rotator : Rotator} (hsound : rotator.enabled = true → rotator.Sound) (ticks : ℕ)
    (palette : Palette C) :
    (rotator.behind ticks).tick palette = .ok (rotator.behind (ticks + 1),
        if 9 ∣ ticks then turned [rotator] palette else palette,
        decide (9 ∣ ticks) && rotator.enabled) := by
  cases henabled : rotator.enabled with
  | false => simp [Rotator.behind, Rotator.tick, turned, henabled]
  | true =>
      have hrotator := hsound henabled
      simp only [Rotator.behind, Rotator.tick, turned, henabled, if_true,
        ticksRemaining_eq_zero_iff, ticksRemaining_succ, List.foldl_cons,
        List.foldl_nil, rotateColors_eq hrotator.2.1 hrotator.2.2]
      by_cases hdue : 9 ∣ ticks
      · simp [hdue, hrotator.1, Except.map]
        rfl
      · simp [hdue]

theorem tickAll_eq {rotators : List Rotator}
    (hsound : ∀ rotator ∈ rotators, rotator.enabled = true → rotator.Sound)
    (ticks : ℕ) (palette : Palette C) :
    tickAll (rotators.map (Rotator.behind ticks)) palette =
      .ok (rotators.map (Rotator.behind (ticks + 1)),
        if 9 ∣ ticks then turned rotators palette else palette,
        decide (9 ∣ ticks) && rotators.any Rotator.enabled) := by
  induction rotators generalizing palette with
  | nil => simp [tickAll, turned]
  | cons rotator rotators ih =>
      obtain ⟨hrotator, hrest⟩ := List.forall_mem_cons.mp hsound
      rw [List.map_cons, tickAll, tick_eq hrotator, Except.bind]
      simp only [ih hrest, Except.map, List.map_cons, List.any_cons, Bool.and_or_distrib_left]
      split <;> rfl

variable {palettes : ℕ → Palette C}

theorem MapTurns.colors_turn {map : MapTurns} {rotationSet : ℕ}
    (hset : tilesetRotationSet[map.tileset.toNat]? = some rotationSet)
    (ticks : ℕ) :
    MapColors.mk map.tileset (if 9 ∣ ticks then
        turned (initialRotatorSets rotationSet) (map.colors palettes).palette
      else (map.colors palettes).palette) =
      MapTurns.colors palettes ⟨map.tileset, map.turns + if 9 ∣ ticks then 1 else 0⟩ := by
  simp only [MapTurns.colors, hset, Option.elim_some]
  split
  · rw [Function.iterate_succ_apply']
  · rfl

theorem rotatorSets_update (ticks : ℕ → ℕ) (rotationSet now : ℕ) :
    Function.update (fun other => (initialRotatorSets other).map
        (Rotator.behind (ticks other))) rotationSet
          ((initialRotatorSets rotationSet).map (Rotator.behind now)) =
      fun other => (initialRotatorSets other).map
        (Rotator.behind (Function.update ticks rotationSet now other)) := by
  funext other
  by_cases hother : other = rotationSet
  · rw [hother, Function.update_self, Function.update_self]
  · rw [Function.update_of_ne hother, Function.update_of_ne hother]

theorem Turns.screen_step (state : Turns) (step : ColorStep) :
    (state.screen palettes).step palettes step =
      (state.step step).map (Prod.map (Turns.screen palettes) id) := by
  cases step with
  | updatePalette map tileset =>
      change _ = Except.ok (ScreenColors.mk _ (_ ∘ Function.update _ _ _), _)
      rw [Function.comp_update]
      rfl
  | cycleColors map tickCount lastTickCount =>
      rw [ScreenColors.step, Turns.step]
      change (match (state.maps map).map (MapTurns.colors palettes) with
        | none => _ | some active => _) = _
      cases hmap : state.maps map with
      | none => rfl
      | some active =>
          have hactive : (state.screen palettes).maps map =
              some (active.colors palettes) := congrArg (Option.map _) hmap
          change Except.map _ (ColorCycler.cycleColors _ active.tileset.toNat
            _ tickCount lastTickCount) = _
          rw [ColorCycler.cycleColors]
          change Except.map _ (if state.prevTickCount < tickCount then _
            else _) = Except.map _ (if _ then _ else _)
          split
          swap
          · change Except.ok (ScreenColors.mk _ (Function.update _ map
              (some (active.colors palettes))), false) = _
            rw [← hactive, Function.update_eq_self]
            rfl
          cases hset : tilesetRotationSet[active.tileset.toNat]? with
          | none => rfl
          | some rotationSet =>
              have htick := tickAll_eq (fun rotator hmem =>
                  (sound_initialRotatorSets rotationSet rotator hmem).2)
                (state.ticks rotationSet) (active.colors palettes).palette
              change Except.map _ (Except.map _ (tickAll
                ((initialRotatorSets rotationSet).map _) _)) = _
              rw [htick]
              refine congrArg Except.ok (Prod.ext ?_ rfl)
              refine (ScreenColors.mk.injEq _ _ _ _).mpr ⟨?_, ?_⟩
              · exact congrArg (ColorCycler.mk lastTickCount)
                  (rotatorSets_update state.ticks rotationSet _)
              · refine Eq.trans ?_ (Function.comp_update _ _ _ _).symm
                rw [Option.map_some, ← MapTurns.colors_turn hset]
                rfl

theorem Turns.screen_run (state : Turns) (steps : List ColorStep) :
    runColors (ScreenColors.step palettes) (state.screen palettes) steps =
      (runColors Turns.step state steps).map (Prod.map (Turns.screen palettes) id) := by
  induction steps generalizing state with
  | nil => rfl
  | cons first steps ih =>
      rw [runColors, runColors, screen_step]
      cases state.step first with
      | error hazard => rfl
      | ok result =>
          change (runColors _ _ steps).map _ = _
          rw [ih]
          change _ = Except.map _ ((runColors Turns.step _ steps).map _)
          cases runColors Turns.step result.1 steps with
          | error hazard => rfl
          | ok last => rfl

/-- In any run from the start of the program, over any maps, a palette is that
of its tileset turned with the first tick of its rotator set and with every
ninth.  The run is undefined where a map with a tileset from 8 on has a tick. -/
theorem runColors_eq (palettes : ℕ → Palette C) (steps : List ColorStep) :
    runColors (ScreenColors.step palettes) ⟨⟨0, initialRotatorSets⟩, fun _ => none⟩ steps =
      (runColors Turns.step ⟨0, fun _ => 0, fun _ => none⟩ steps).map
        (Prod.map (Turns.screen palettes) id) := by
  have hstart : (fun rotationSet => (initialRotatorSets rotationSet).map
      (Rotator.behind 0)) = initialRotatorSets := by
    funext rotationSet
    refine (List.map_congr_left fun rotator hmem => ?_).trans (List.map_id _)
    exact (sound_initialRotatorSets rotationSet rotator hmem).1
  rw [← Turns.screen_run, Turns.screen, hstart]
  rfl

end Chkdraft.Editor
