import Chkdraft.Editor.TerrainEdits

/-!
# Undoing changes of tiles

What was recorded of a tile is its value in MTXM, and reversing it writes that
value to TILE as well.  So undoing leads to the terrain before the edit with
MTXM copied to TILE wherever the edit changed a tile, and redoing leads back.
-/

namespace Chkdraft.Editor

open Chk Scenario Sections Undo

variable {after layers : Layers} {tileValue : UInt16}

def TileChange.index (layers : Layers) (change : TileChange) : ℕ :=
  tileIndex layers change.xc.toNat change.yc.toNat

def writeTile (layers : Layers) (index : ℕ) (tileValue : UInt16) : Layers :=
  { layers with
    mtxm := layers.mtxm.set index tileValue
    tile := layers.tile.set index tileValue }

theorem getTile_eq_ok_iff {xc yc : ℕ} : getTile layers xc yc = .ok tileValue ↔
      layers.mtxm[tileIndex layers xc yc]? = some tileValue := by
  rw [getTile]
  cases layers.mtxm[tileIndex layers xc yc]? <;> simp

theorem setTile_eq_ok_iff {xc yc : ℕ} : setTile layers xc yc tileValue = .ok after ↔
      (tileIndex layers xc yc < layers.mtxm.length ∧ tileIndex layers xc yc < layers.tile.length) ∧
      writeTile layers (tileIndex layers xc yc) tileValue = after := by
  rw [setTile]
  by_cases hwritable : tileIndex layers xc yc < layers.mtxm.length ∧
      tileIndex layers xc yc < layers.tile.length
  · rw [if_pos hwritable, and_iff_right hwritable, writeTile, Except.ok.injEq]
  · rw [if_neg hwritable]
    exact iff_of_false (fun h => by cases h) fun h => hwritable h.1

/-- Tiles are changed one after the other, each after its value in MTXM was
recorded. -/
inductive Changes : Layers → List TileChange → Layers → Prop
  | nil (layers : Layers) : Changes layers [] layers
  | cons {layers after : Layers} {change : TileChange} {rest : List TileChange}
      (tileValue : UInt16)
      (hrecorded : layers.mtxm[change.index layers]? = some change.tileValue)
      (htile : change.index layers < layers.tile.length)
      (hrest : Changes (writeTile layers (change.index layers) tileValue) rest after) :
      Changes layers (change :: rest) after

variable {changes : List TileChange}

theorem Changes.append {middle : Layers} {others : List TileChange}
    (hfirst : Changes layers changes middle)
    (hsecond : Changes middle others after) :
    Changes layers (changes ++ others) after := by
  induction hfirst with
  | nil => exact hsecond
  | cons tileValue hrecorded htile _ ih =>
      exact .cons tileValue hrecorded htile (ih hsecond)

variable {change : TileChange}

theorem Changes.concat {middle : Layers}
    (hchanges : Changes layers changes middle) (tileValue : UInt16)
    (hrecorded : middle.mtxm[change.index middle]? = some change.tileValue)
    (htile : change.index middle < middle.tile.length) :
    Changes layers (changes ++ [change]) (writeTile middle (change.index middle) tileValue) :=
  hchanges.append (.cons tileValue hrecorded htile (.nil _))

theorem Changes.size (hchanges : Changes layers changes after) :
    after.tileWidth = layers.tileWidth ∧ after.tileHeight = layers.tileHeight ∧
      after.mtxm.length = layers.mtxm.length ∧
      after.tile.length = layers.tile.length := by
  induction hchanges with
  | nil => exact ⟨rfl, rfl, rfl, rfl⟩
  | cons tileValue hrecorded htile _ ih => simpa [writeTile] using ih

/-- MTXM is copied to TILE at some places. -/
def synced (places : ℕ → Prop) [DecidablePred places] (layers : Layers) : Layers :=
  { layers with
    tile := layers.tile.mapIdx fun index tileValue =>
      if places index then layers.mtxm.getD index tileValue else tileValue }

section Synced

variable (places : ℕ → Prop) [DecidablePred places] (layers : Layers)

theorem getElem?_synced_tile (index : ℕ) : (synced places layers).tile[index]? =
      layers.tile[index]?.map fun tileValue =>
        if places index then layers.mtxm.getD index tileValue
        else tileValue := by
  rw [synced, List.getElem?_mapIdx]

@[simp]
theorem length_synced_tile : (synced places layers).tile.length = layers.tile.length :=
  List.length_mapIdx

variable {places layers}

theorem synced_agrees {index : ℕ} (hplace : places index)
    (hmtxm : layers.mtxm[index]? = some tileValue)
    (htile : index < layers.tile.length) :
    (synced places layers).tile[index]? = some tileValue := by
  rw [getElem?_synced_tile, List.getElem?_eq_getElem htile, Option.map_some,
    if_pos hplace, List.getD_eq_getElem?_getD, hmtxm]
  rfl

theorem synced_writeTile {index : ℕ} (hplace : places index)
    (hmtxm : index < layers.mtxm.length) (tileValue : UInt16) :
    synced places (writeTile layers index tileValue) =
      writeTile (synced places layers) index tileValue := by
  have htile : (synced places (writeTile layers index tileValue)).tile =
      (writeTile (synced places layers) index tileValue).tile := by
    apply List.ext_getElem?
    intro other
    rw [getElem?_synced_tile]
    simp only [writeTile, List.getElem?_set, length_synced_tile,
      getElem?_synced_tile, List.getD_eq_getElem?_getD]
    by_cases hother : index = other
    · subst hother
      by_cases hlt : index < layers.tile.length
      · simp [hlt, hplace, hmtxm]
      · simp [hlt]
    · simp [hother]
  change { writeTile layers index tileValue with
    tile := (synced places (writeTile layers index tileValue)).tile } = _
  rw [htile]
  rfl

theorem synced_tile_eq_iff (hplaces : ∀ index, places index → index < layers.mtxm.length ∧
      index < layers.tile.length) :
    (synced places layers).tile = layers.tile ↔
      ∀ index, places index → layers.mtxm[index]? = layers.tile[index]? := by
  constructor
  · intro hsame index hplace
    obtain ⟨hmtxm, htile⟩ := hplaces index hplace
    have hagrees := synced_agrees hplace (List.getElem?_eq_getElem hmtxm) htile
    rw [hsame] at hagrees
    rw [hagrees, List.getElem?_eq_getElem hmtxm]
  · intro hagree
    apply List.ext_getElem?
    intro index
    rw [getElem?_synced_tile]
    by_cases hplace : places index
    · have hsame := hagree index hplace
      cases htile : layers.tile[index]? with
      | none => rfl
      | some tileValue =>
          rw [htile] at hsame
          simp [hplace, List.getD_eq_getElem?_getD, hsame]
    · simp [hplace]

end Synced

/-- The recorded changes that take each other back. -/
abbrev tileSwaps : Swapping TileChange.reverse := exactly TileChange.reverse

theorem reverse_tileChange {layers : Layers}
    (hmtxm : layers.mtxm[change.index layers]? = some tileValue)
    (htile : change.index layers < layers.tile.length) :
    change.reverse layers = .ok (writeTile layers (change.index layers) change.tileValue,
        { change with tileValue := tileValue }) := by
  obtain ⟨hlt, -⟩ := List.getElem?_eq_some_iff.mp hmtxm
  have hget : getTile layers change.xc.toNat change.yc.toNat =
      .ok tileValue := getTile_eq_ok_iff.mpr hmtxm
  have hset : setTile layers change.xc.toNat change.yc.toNat change.tileValue =
      .ok (writeTile layers (change.index layers) change.tileValue) :=
    setTile_eq_ok_iff.mpr ⟨⟨hlt, htile⟩, rfl⟩
  rw [TileChange.reverse, hget]
  change (setTile _ _ _ _ >>= _) = _
  rw [hset]
  rfl

theorem writeTile_self {layers : Layers} {index : ℕ} (hmtxm : layers.mtxm[index]? = some tileValue)
    (htile : layers.tile[index]? = some tileValue) (other : UInt16) :
    writeTile (writeTile layers index other) index tileValue = layers := by
  obtain ⟨hmtxmLt, rfl⟩ := List.getElem?_eq_some_iff.mp hmtxm
  obtain ⟨htileLt, htileValue⟩ := List.getElem?_eq_some_iff.mp htile
  have htileSet : layers.tile.set index layers.mtxm[index] = layers.tile := by
    rw [← htileValue, List.set_getElem_self]
  simp only [writeTile, List.set_set, List.set_getElem_self, htileSet]

/-- A change where the sections agree is taken back exactly. -/
theorem swaps_tileChange {layers : Layers}
    (hmtxm : layers.mtxm[change.index layers]? = some change.tileValue)
    (htile : layers.tile[change.index layers]? = some change.tileValue)
    (tileValue : UInt16) :
    tileSwaps.swaps change (writeTile layers (change.index layers) tileValue)
      { change with tileValue := tileValue } layers := by
  obtain ⟨hmtxmLt, -⟩ := List.getElem?_eq_some_iff.mp hmtxm
  obtain ⟨htileLt, -⟩ := List.getElem?_eq_some_iff.mp htile
  constructor
  · have hwritten : (writeTile layers (change.index layers) tileValue).mtxm[
        change.index layers]? = some tileValue :=
      List.getElem?_set_self hmtxmLt
    have hlength : change.index layers <
        (writeTile layers (change.index layers) tileValue).tile.length := by
      simpa [writeTile] using htileLt
    have hreverse := @reverse_tileChange tileValue change
      (writeTile layers (change.index layers) tileValue) hwritten hlength
    rw [hreverse]
    exact congrArg (fun before => Except.ok (before, _)) (writeTile_self hmtxm htile tileValue)
  · exact @reverse_tileChange change.tileValue
      { change with tileValue := tileValue } layers hmtxm htileLt

def Touched (layers : Layers) (changes : List TileChange) (index : ℕ) : Prop :=
  ∃ change ∈ changes, change.index layers = index

instance (layers : Layers) (changes : List TileChange) : DecidablePred (Touched layers changes) :=
  fun _ => inferInstanceAs (Decidable (∃ change ∈ changes, _))

section Changes

variable {layers after : Layers} {changes : List TileChange}

section

variable (hchanges : Changes layers changes after)

include hchanges

theorem Changes.touched_lt {index : ℕ} (htouched : Touched layers changes index) :
    index < layers.mtxm.length ∧ index < layers.tile.length := by
  induction hchanges with
  | nil =>
      obtain ⟨change, hchange, -⟩ := htouched
      cases hchange
  | cons tileValue hrecorded htile hrest ih =>
      obtain ⟨change, hchange, hindex⟩ := htouched
      rcases List.mem_cons.mp hchange with rfl | hchange
      · rw [← hindex]
        exact ⟨(List.getElem?_eq_some_iff.mp hrecorded).1, htile⟩
      · simpa [writeTile] using ih ⟨change, hchange, hindex⟩

/-- Behind the changes the sections agree at the changed tiles. -/
theorem Changes.agrees {index : ℕ} (hindex : Touched layers changes index ∨
      layers.mtxm[index]? = layers.tile[index]?) :
    after.mtxm[index]? = after.tile[index]? := by
  induction hchanges with
  | nil =>
      rcases hindex with ⟨change, hchange, -⟩ | hagree
      · cases hchange
      · exact hagree
  | @cons layers _ change rest tileValue hrecorded htile hrest ih =>
      obtain ⟨hmtxm, -⟩ := List.getElem?_eq_some_iff.mp hrecorded
      apply ih
      by_cases hsame : change.index layers = index
      · right
        subst hsame
        simp [writeTile, hmtxm, htile]
      · rcases hindex with ⟨other, hother, hindex⟩ | hagree
        · left
          rcases List.mem_cons.mp hother with rfl | hother
          · exact absurd hindex hsame
          · exact ⟨other, hother, hindex⟩
        · right
          simp [writeTile, hsame, hagree]

/-- From the terrain with MTXM copied to the changed tiles, every change is
taken back exactly. -/
theorem Changes.recorded {places : ℕ → Prop} [DecidablePred places]
    (hplaces : ∀ index, Touched layers changes index → places index) :
    ∃ backs, Recorded tileSwaps changes backs (synced places layers) (synced places after) := by
  induction hchanges with
  | nil layers => exact ⟨[], .nil _⟩
  | @cons layers _ change rest tileValue hrecorded htile hrest ih =>
      obtain ⟨hmtxm, -⟩ := List.getElem?_eq_some_iff.mp hrecorded
      have hplace : places (change.index layers) := hplaces _ ⟨change, List.mem_cons_self, rfl⟩
      obtain ⟨backs, hbacks⟩ := ih fun index ⟨other, hother, hindex⟩ =>
        hplaces index ⟨other, List.mem_cons_of_mem _ hother, hindex⟩
      rw [synced_writeTile hplace hmtxm] at hbacks
      have hagrees := synced_agrees hplace hrecorded htile
      have hswaps := @swaps_tileChange change (synced places layers) hrecorded hagrees tileValue
      exact ⟨_, .cons hswaps hbacks⟩

theorem Changes.synced_after : synced (Touched layers changes) after = after := by
  obtain ⟨-, -, hmtxm, htile⟩ := hchanges.size
  have htiles : (synced (Touched layers changes) after).tile = after.tile := by
    apply (synced_tile_eq_iff _).mpr
    · intro _ htouched
      exact hchanges.agrees (.inl htouched)
    · intro _ htouched
      rw [hmtxm, htile]
      exact hchanges.touched_lt htouched
  change { after with tile := (synced (Touched layers changes) after).tile } = _
  rw [htiles]

end

end Changes

section Stack

variable {A C E : Type} {reverseAction : A → C → Except E (C × A)}
  {S : Swapping reverseAction}

theorem leads_actions {actions backs : List A} {before after : C}
    (hrecorded : Recorded S actions backs before after) :
    Leads (Reversible.swapping S) (actions.map .action).reverse after
      before := by
  induction hrecorded with
  | nil content => exact .nil content
  | cons hswaps _ ih =>
      rw [List.map_cons, List.reverse_cons]
      exact ih.append (.cons (.action hswaps) (.nil _))

/-- What is put on the stack for a group; an empty group is not. -/
theorem leads_group {actions backs : List A} {before after : C}
    (hrecorded : Recorded S actions backs before after) :
    Leads (Reversible.swapping S) ([Reversible.actions (.make actions)].filter fun group =>
        0 < group.count).reverse after before := by
  cases actions with
  | nil =>
      cases hrecorded
      exact .nil _
  | cons action rest =>
      exact .cons (.undone hrecorded) (.nil before)

end Stack

def layersOf (map : GuiMap reversibles) : Layers := map.content .tileChange

def tileEntry (undo : Reversible TileChange) : Σ type, reversibles.Action type :=
  ⟨.tileChange, undo⟩

theorem recordTiles_spec (map : GuiMap reversibles) (undo : Reversible TileChange) :
    (recordTiles map undo).content = map.content ∧ (recordTiles map undo).undos =
        if 0 < undo.count then tileEntry undo :: map.undos
        else map.undos := by
  have hcount : @Reversibles.count _ _ reversibles .tileChange undo =
      undo.count := rfl
  unfold recordTiles GuiMap.addUndo
  rw [hcount]
  split
  · exact ⟨GuiMap.notifyObserver_content _, GuiMap.notifyObserver_undos _⟩
  · exact ⟨rfl, rfl⟩

theorem foldl_recordTiles_content (map : GuiMap reversibles)
    (undos : List (Reversible TileChange)) :
    (undos.foldl recordTiles map).content = map.content := by
  induction undos generalizing map with
  | nil => rfl
  | cons undo rest ih =>
      rw [List.foldl_cons, ih, (recordTiles_spec map undo).1]

theorem foldl_recordTiles_undos (map : GuiMap reversibles) (undos : List (Reversible TileChange)) :
    (undos.foldl recordTiles map).undos =
      (undos.filter fun undo => 0 < undo.count).reverse.map tileEntry ++
        map.undos := by
  induction undos generalizing map with
  | nil => rfl
  | cons undo rest ih =>
      rw [List.foldl_cons, ih, (recordTiles_spec map undo).2, List.filter_cons]
      by_cases hcount : 0 < undo.count
      · simp [hcount]
      · simp [hcount]

/-- Undoing as often as the edit has recorded something restores both sections,
and redoing as often restores what the edit left. -/
def TerrainRestores (edit : TerrainEdit) (map : GuiMap reversibles) : Prop :=
  ∃ after undone redone, edit.perform map = .ok after ∧
    after.undoTimes .tileChange (after.undos.length - map.undos.length) = .ok undone ∧
    ((layersOf undone).mtxm = (layersOf map).mtxm ∧ (layersOf undone).tile = (layersOf map).tile) ∧
    undone.redoTimes .tileChange (after.undos.length - map.undos.length) = .ok redone ∧
    (layersOf redone).mtxm = (layersOf after).mtxm ∧ (layersOf redone).tile = (layersOf after).tile

/-- An edit records its changes one by one or as one group. -/
def RecordsChanges (layers : Layers) (edited : TerrainEdited) (changes : List TileChange) : Prop :=
  ∃ after undos, edited = .ok (after, undos) ∧ Changes layers changes after ∧
    (undos = changes.map .action ∨ undos = [.actions (.make changes)])

/-- Both sections agree at every tile an edit has recorded. -/
theorem terrainRestores_iff_of_records {edit : TerrainEdit}
    {map : GuiMap reversibles} {changes : List TileChange}
    (hrecords : RecordsChanges (layersOf map) (edit.change (layersOf map)) changes) :
    TerrainRestores edit map ↔ ∀ index, Touched (layersOf map) changes index →
        (layersOf map).mtxm[index]? = (layersOf map).tile[index]? := by
  obtain ⟨after, undos, hedited, hchanges, hundos⟩ := hrecords
  let performed := undos.foldl recordTiles (map.setContent .tileChange after)
  have hperform : edit.perform map = .ok performed := by
    rw [TerrainEdit.perform]
    change (edit.change (layersOf map) >>= _) = _
    rw [hedited]
    rfl
  have hcontent : layersOf performed = after := by
    rw [layersOf, foldl_recordTiles_content]
    exact Function.update_self UndoTypes.tileChange after map.content
  let entries := (undos.filter fun undo => 0 < undo.count).reverse
  have hstack : performed.undos = entries.map tileEntry ++ map.undos := foldl_recordTiles_undos _ _
  have htimes : performed.undos.length - map.undos.length =
      entries.length := by
    rw [hstack, List.length_append, List.length_map, Nat.add_sub_cancel]
  -- The changes lead back to the terrain with MTXM copied to the changed tiles.
  obtain ⟨backs, hrecorded⟩ := @Changes.recorded _ _ _ hchanges
    (Touched (layersOf map) changes) _ fun _ htouched => htouched
  rw [hchanges.synced_after] at hrecorded
  have hleads : Leads (Reversible.swapping tileSwaps) entries
      (layersOf performed) (synced (Touched (layersOf map) changes) (layersOf map)) := by
    rw [hcontent]
    rcases hundos with rfl | rfl
    · have hall : (changes.map Reversible.action).filter
          (fun undo => decide (0 < undo.count)) = changes.map Reversible.action := by
        apply List.filter_eq_self.mpr
        intro undo hundo
        obtain ⟨change, -, rfl⟩ := List.mem_map.mp hundo
        rfl
      change Leads _ (List.filter _ _).reverse _ _
      rw [hall]
      exact leads_actions hrecorded
    · exact leads_group hrecorded
  obtain ⟨undone, redone, hundo, hbefore, hredo, hafter, -⟩ :=
    @GuiMap.undoTimes_redoTimes _ _ reversibles _ _ .tileChange
      (Reversible.swapping tileSwaps) _ _ performed _ hstack hleads
  have hundone : layersOf undone = synced (Touched (layersOf map) changes) (layersOf map) := hbefore
  have hredone : layersOf redone = layersOf performed := hafter
  have hagree := @synced_tile_eq_iff (Touched (layersOf map) changes) _
    (layersOf map) fun _ => hchanges.touched_lt
  rw [← hagree]
  constructor
  · rintro ⟨performed', undone', redone', hperform', hundo', hrestored, -⟩
    cases hperform.symm.trans hperform'
    rw [htimes] at hundo'
    cases hundo.symm.trans hundo'
    rw [← hundone]
    exact hrestored.2
  · intro htile
    refine ⟨performed, undone, redone, hperform, ?_, ?_, ?_, ?_⟩
    · rw [htimes]
      exact hundo
    · rw [hundone]
      exact ⟨rfl, htile⟩
    · rw [htimes]
      exact hredo
    · rw [hredone]
      exact ⟨rfl, rfl⟩

end Chkdraft.Editor
