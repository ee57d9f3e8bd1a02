import Chkdraft.Scenario.Strings
import Chkdraft.Sections.TriggerExtensionSections

/-!
# Extended data of triggers

A trigger names its entry of the KTRG section in four of its owner bytes.  An
index occupies bits that are zero for owners, which are 0 or 1 each.
`Triggers::fixTriggerExtensions` clears dangling and doubled indexes, and links
or deletes the entries no trigger names.
-/

namespace Chkdraft.Scenario

open Binary Chk Sections

/-- `(u32 &)owners[22]`. -/
def indexWord (trigger : Trigger) : UInt32 := UInt32.ofNat (wordAt 4 trigger.owners.toList 22)

/-- The trigger with another word in the owners 22 to 25. -/
def withIndexWord (trigger : Trigger) (word : UInt32) : Trigger :=
  { trigger with
    owners := ⟨overwrite trigger.owners.toList 22 (littleEndian 4 word.toNat), by
      have hlength := trigger.owners.toList_length
      rw [length_overwrite, hlength]
      rw [hlength, length_littleEndian]
      decide⟩ }

/-- `Trigger::getExtendedDataIndex`, `none` for `ExtendedTrigDataIndex::None`. -/
def getExtendedDataIndex (trigger : Trigger) : Option ℕ :=
  let word := indexWord trigger
  if word &&& 0xFEFEFEFE > 0 ∧ word &&& 0x00FFFFFF > 0 then
    some (word &&& 0x00FFFFFF).toNat
  else
    none

/-- `Trigger::setExtendedDataIndex`.  The bits of owners stay set. -/
def setExtendedDataIndex (trigger : Trigger) (extendedDataIndex : ℕ) : Except Exception Trigger :=
  let sizedExtendedDataIndex := extendedDataIndex % 2 ^ 32
  if sizedExtendedDataIndex ∈ [0, 1, 256, 257, 65536, 65537, 65792, 65793] ∨
      sizedExtendedDataIndex > 0x00FFFFFF ∨
      sizedExtendedDataIndex > 0x00FEFEFE then
    .error .invalidArgument
  else
    .ok (withIndexWord trigger (indexWord trigger &&& 0x1010101 |||
        UInt32.ofNat sizedExtendedDataIndex))

/-- `Trigger::clearExtendedDataIndex`. -/
def clearExtendedDataIndex (trigger : Trigger) : Trigger := withIndexWord trigger 0

@[simp]
theorem indexWord_withIndexWord (trigger : Trigger) (word : UInt32) :
    indexWord (withIndexWord trigger word) = word := by
  have hdrop : ((withIndexWord trigger word).owners.toList.drop 22).take 4 =
      littleEndian 4 word.toNat := by
    simp only [withIndexWord, List.Vector.toList_mk, overwrite]
    have hfront : (trigger.owners.toList.take 22).length = 22 := by
      rw [List.length_take, trigger.owners.toList_length]
      rfl
    rw [List.append_assoc, List.drop_left' hfront]
    exact List.take_left' (length_littleEndian 4 word.toNat)
  have hmod : word.toNat % 256 ^ 4 = word.toNat := Nat.mod_eq_of_lt word.toNat_lt
  rw [indexWord, wordAt, hdrop, littleEndianValue_littleEndian, hmod, UInt32.ofNat_toNat]

@[simp]
theorem getExtendedDataIndex_clear (trigger : Trigger) :
    getExtendedDataIndex (clearExtendedDataIndex trigger) = none := by
  simp [getExtendedDataIndex, clearExtendedDataIndex]

/-- `KtrgSection::cleanTail`: drop null and unusable entries at the end. -/
def cleanTail (entries : List (Option ExtendedTrigData)) : List (Option ExtendedTrigData) :=
  entries.take (((List.range entries.length).reverse.find? fun index =>
    indexUsable index ∧ entries.getD index none ≠ none).elim 0 (· + 1))

/-- `KtrgSection::deleteExtendedTrigger`. -/
def deleteExtendedTrigger (entries : List (Option ExtendedTrigData))
    (index : ℕ) : List (Option ExtendedTrigData) :=
  if index < entries.length then cleanTail (entries.set index none)
  else entries

/-- The first usable index at or behind `length`; eight consecutive indexes
are never all unusable. -/
def nextUsableIndex (length : ℕ) : ℕ :=
  ((List.range' length 8).find? fun index => indexUsable index).getD length

/-- `KtrgSection::addExtendedTrigger`: the entries and the index of the new
one. -/
def addExtendedTrigger (entries : List (Option ExtendedTrigData))
    (extendedTrigger : ExtendedTrigData) :
    ℕ × List (Option ExtendedTrigData) :=
  match (List.range entries.length).find? fun index =>
      entries.getD index none = none ∧ indexUsable index with
  | some index => (index, entries.set index (some extendedTrigger))
  | none =>
      let next := nextUsableIndex entries.length
      (next, entries ++ List.replicate (next - entries.length) none ++ [some extendedTrigger])

/-- `Triggers::getTriggerExtension` without adding one: the extension of the
trigger at a position, with its index. -/
def triggerExtension? (triggers : List Trigger)
    (entries : List (Option ExtendedTrigData)) (position : ℕ) :
    Option (ℕ × ExtendedTrigData) := do
  let trigger ← triggers[position]?
  let index ← getExtendedDataIndex trigger
  let extension ← entries.getD index none
  pure (index, extension)

/-- `Triggers::setExtendedCommentStringId` and `setExtendedNotesStringId`, which
differ in the field `change` sets to `stringId`.  A string adds the extension it
needs, and an extension left blank is deleted. -/
def setTriggerExtension (triggers : List Trigger)
    (entries : List (Option ExtendedTrigData)) (position stringId : ℕ)
    (change : ExtendedTrigData → ExtendedTrigData) :
    Except (Fault Exception) (List Trigger × List (Option ExtendedTrigData)) :=
  match triggers[position]? with
  | none => .error (.hazard .undefinedBehavior)
  | some trigger =>
      match triggerExtension? triggers entries position with
      | some (index, extension) =>
          if stringId = 0 ∧ change extension = .blank then
            .ok (triggers.set position (clearExtendedDataIndex trigger),
              deleteExtendedTrigger (entries.set index (some (change extension))) index)
          else
            .ok (triggers, entries.set index (some (change extension)))
      | none =>
          if stringId = 0 then
            .ok (triggers, entries)
          else
            let (index, entries) := addExtendedTrigger entries .blank
            match setExtendedDataIndex trigger index with
            | .error error => .error (.thrown error)
            | .ok linked =>
                .ok (triggers.set position linked, entries.set index (some (change .blank)))

/-- `Triggers::getExtendedCommentStringId`. -/
def getExtendedCommentStringId (triggers : List Trigger)
    (entries : List (Option ExtendedTrigData)) (position : ℕ) : ℕ :=
  (triggerExtension? triggers entries position).elim 0
    fun (_, extension) => extension.commentStringId.toNat

/-- `Triggers::getExtendedNotesStringId`. -/
def getExtendedNotesStringId (triggers : List Trigger)
    (entries : List (Option ExtendedTrigData)) (position : ℕ) : ℕ :=
  (triggerExtension? triggers entries position).elim 0
    fun (_, extension) => extension.notesStringId.toNat

/-- The triggers and entries while they are being fixed, with the indexes
already claimed by a trigger. -/
structure Links where
  triggers : List Trigger
  entries : List (Option ExtendedTrigData)
  used : List ℕ

/-- The index of one trigger is cleared if it is invalid or taken; its entry is
told the position of the trigger otherwise. -/
def fixTrigger (links : Links) (position : ℕ) : Links :=
  match links.triggers[position]? with
  | none => links
  | some trigger =>
      match getExtendedDataIndex trigger with
      | none => links
      | some index =>
          match links.entries.getD index none with
          | some extension =>
              if index ∈ links.used then
                { links with
                  triggers := links.triggers.set position (clearExtendedDataIndex trigger) }
              else
                { links with
                  entries := links.entries.set index
                    (some { extension with trigNum := UInt32.ofNat position })
                  used := index :: links.used }
          | none =>
              { links with
                triggers := links.triggers.set position (clearExtendedDataIndex trigger) }

/-- An entry no trigger claimed is linked to the trigger it names, if that has
none, and deleted if it names none.  The position it names is not compared with
the number of triggers. -/
def fixEntry (links : Links) (index : ℕ) : Except (Fault Exception) Links :=
  match links.entries.getD index none with
  | none => .ok links
  | some extension =>
      if index ∈ links.used then
        .ok links
      else if extension.trigNum = 0xFFFFFFFF then
        .ok { links with
          entries := deleteExtendedTrigger links.entries index }
      else
        match links.triggers[extension.trigNum.toNat]? with
        | none => .error (.hazard .undefinedBehavior)
        | some trigger =>
            match getExtendedDataIndex trigger with
            | some _ => .ok links
            | none =>
                match setExtendedDataIndex trigger index with
                | .error error => .error (.thrown error)
                | .ok linked =>
                    .ok { links with
                      triggers := links.triggers.set extension.trigNum.toNat linked }

/-- `Triggers::fixTriggerExtensions`: a loop over the triggers and their links,
and one over the entries that none of them claimed. -/
def fixTriggerExtensions (triggers : List Trigger) (entries : List (Option ExtendedTrigData)) :
    Except (Fault Exception) (List Trigger × List (Option ExtendedTrigData)) := do
  let fixed := (List.range triggers.length).foldl fixTrigger ⟨triggers, entries, []⟩
  let links ← (List.range fixed.entries.length).foldlM fixEntry fixed
  pure (links.triggers, links.entries)

/-- A trigger whose index, if any, was dropped. -/
def dropIndex (trigger : Trigger) : Trigger :=
  if getExtendedDataIndex trigger = none then trigger
  else clearExtendedDataIndex trigger

@[simp]
theorem getExtendedDataIndex_dropIndex (trigger : Trigger) :
    getExtendedDataIndex (dropIndex trigger) = none := by
  unfold dropIndex
  split
  · assumption
  · exact getExtendedDataIndex_clear trigger

end Chkdraft.Scenario
