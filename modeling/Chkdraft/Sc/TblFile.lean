import Chkdraft.Core.CheckedRead
import Chkdraft.Core.Scan

/-!
# String tables of the game

`TblFile::load` reads a count, an offset for each string and the strings at the
offsets.  None of the three need fit the file.
-/

namespace Chkdraft.Sc

open Binary Scan

/-- What `std::out_of_range` says. -/
structure OutOfRange where
  message : String

namespace TblFile

/-- The number of strings a file claims to have. -/
def numStrings (rawData : List UInt8) : ℕ :=
  if 2 ≤ rawData.length then wordAt 2 rawData 0 else 0

def terminated (rawData : List UInt8) : List UInt8 :=
  if rawData.getLast? = some 0 then rawData else rawData ++ [0]

/-- One round of the loop over the offsets. -/
def loadString (rawData : List UInt8) (i : ℕ) : Except Hazard Text := do
  let stringOffset ← readWord 2 rawData (2 * i)
  if stringOffset < rawData.length then
    readCString rawData stringOffset
  else
    .ok []

/-- The loop, with `rounds` claimed strings from string `i` on. -/
def loadStrings (rawData : List UInt8) : ℕ → ℕ → List Text → Except Hazard (List Text)
  | 0, _, strings => .ok strings
  | rounds + 1, i, strings =>
      if 2 * i < rawData.length then do
        let string ← loadString rawData i
        loadStrings rawData rounds (i + 1) (strings ++ [string])
      else
        .ok strings

/-- `load`, for the file `GetAsset` finds: the result and the strings. -/
def load : Option (List UInt8) → Except Hazard (Bool × List Text)
  | none => .ok (false, [])
  | some rawData =>
      if 0 < numStrings rawData then do
        let strings ← loadStrings (terminated rawData) (numStrings rawData) 1 [[]]
        .ok (true, strings)
      else
        .ok (true, [])

def getString (strings : List Text) (stringIndex : ℕ) : Except OutOfRange Text :=
  match strings[stringIndex]? with
  | some string => .ok string
  | none =>
      .error ⟨"StringIndex " ++ stringIndex.repr ++
        " overflows tbl file of size " ++ strings.length.repr⟩

/-- `getString` with a result, which takes string 0 to be there always. -/
def getString? (strings : List Text) (stringIndex : ℕ) : Option Text :=
  if stringIndex = 0 then some [] else strings[stringIndex]?

/-- The string an offset leads to, if it leads into the data. -/
def entry (data : List UInt8) (i : ℕ) : Text :=
  if wordAt 2 data (2 * i) < data.length then
    cString data (wordAt 2 data (2 * i))
  else
    []

/-- A file is read inside its data, and the strings behind the entries that lie
in them can be had. -/
def DecodesStrings (rawData : List UInt8) : Prop :=
  ∃ strings, load (some rawData) = .ok (true, strings) ∧
    ∀ i, 1 ≤ i → i ≤ numStrings rawData → 2 * i + 2 ≤ (terminated rawData).length →
        getString strings i = .ok (entry (terminated rawData) i) ∧
          getString? strings i = some (entry (terminated rawData) i)

/-- No claimed entry has only its first byte in the data. -/
def MeetsOffsets (rawData : List UInt8) : Prop :=
  ∀ i, 1 ≤ i → i ≤ numStrings rawData → 2 * i + 1 ≠ (terminated rawData).length

section Loop

variable {data : List UInt8}

theorem getLast?_terminated (rawData : List UInt8) : (terminated rawData).getLast? = some 0 := by
  rw [terminated]
  split
  · next hlast => exact hlast
  · exact List.getLast?_concat

/-- An entry that lies in the data is read, and so is its string, as there is
a NUL behind it. -/
theorem loadString_eq (hlast : data.getLast? = some 0) {i : ℕ} (hinside : 2 * i + 2 ≤ data.length) :
    loadString data i = .ok (entry data i) := by
  rw [loadString, readWord_of_le hinside, entry]
  change (if wordAt 2 data (2 * i) < data.length then _ else _) = _
  split
  · next hoffset =>
      obtain ⟨front, rfl⟩ := List.getLast?_eq_some_iff.mp hlast
      rw [List.length_append, List.length_singleton] at hoffset
      refine scanString_of_mem ?_
      rw [List.drop_append_of_le_length (by omega)]
      exact List.mem_append_right _ List.mem_cons_self
  · rfl

/-- Without a half entry the loop loads every entry that begins in the data. -/
theorem loadStrings_eq (hlast : data.getLast? = some 0) {rounds i : ℕ}
    (hwhole : ∀ j, i ≤ j → j < i + rounds → 2 * j + 1 ≠ data.length)
    (strings : List Text) :
    ∃ entries, loadStrings data rounds i strings = .ok (strings ++ entries) ∧
      ∀ j, j < rounds → 2 * (i + j) < data.length → entries[j]? = some (entry data (i + j)) := by
  induction rounds generalizing i strings with
  | zero => exact ⟨[], by rw [loadStrings, List.append_nil], nofun⟩
  | succ rounds ih =>
      rw [loadStrings]
      split
      · next hbegins =>
          have hodd := hwhole i (Nat.le_refl i) (by omega)
          rw [loadString_eq hlast (by omega)]
          obtain ⟨entries, hload, hentries⟩ :=
            ih (i := i + 1) (fun j hle hlt => hwhole j (by omega) (by omega))
              (strings ++ [entry data i])
          refine ⟨entry data i :: entries, hload.trans ?_, ?_⟩
          · rw [List.append_assoc, List.singleton_append]
          · intro j hlt hinside
            cases j with
            | zero => rfl
            | succ j =>
                rw [List.getElem?_cons_succ, hentries j (by omega) (by omega)]
                congr 2
                omega
      · next hbegins =>
          exact ⟨[], by rw [List.append_nil], fun j _ hinside => by omega⟩

/-- The second byte of a half entry is read behind the data. -/
theorem loadStrings_ne_ok {rounds i j : ℕ} (hle : i ≤ j)
    (hlt : j < i + rounds) (hhalf : 2 * j + 1 = data.length)
    (strings loaded : List Text) :
    loadStrings data rounds i strings ≠ .ok loaded := by
  induction rounds generalizing i strings with
  | zero => omega
  | succ rounds ih =>
      rw [loadStrings, if_pos (by omega)]
      intro hload
      obtain ⟨string, hstring, hrest⟩ := Fault.bind_eq_ok_iff.mp hload
      rcases Nat.eq_or_lt_of_le hle with rfl | hbefore
      · rw [loadString, readWord, if_neg (by omega)] at hstring
        cases hstring
      · exact ih hbefore (by omega) _ hrest

end Loop

theorem getString_of_getElem? {strings : List Text} {stringIndex : ℕ}
    (hindex : 1 ≤ stringIndex) {string : Text}
    (hstring : strings[stringIndex]? = some string) :
    getString strings stringIndex = .ok string ∧ getString? strings stringIndex = some string := by
  rw [getString, hstring, getString?, if_neg (by omega), hstring]
  exact ⟨rfl, rfl⟩

/-- A file is decoded safely exactly when no entry lies half in its data. -/
theorem decodesStrings_iff (rawData : List UInt8) :
    DecodesStrings rawData ↔ MeetsOffsets rawData := by
  rw [DecodesStrings, load]
  constructor
  · rintro ⟨strings, hload, -⟩ i hpos hle hhalf
    rw [if_pos (by omega), Fault.bind_eq_ok_iff] at hload
    obtain ⟨loaded, hstrings, -⟩ := hload
    exact loadStrings_ne_ok hpos (by omega) hhalf _ _ hstrings
  · intro hmeets
    split
    · obtain ⟨entries, hload, hentries⟩ := loadStrings_eq (getLast?_terminated rawData)
          (fun j hpos hlt => hmeets j hpos (Nat.lt_add_one_iff.mp (Nat.add_comm 1 _ ▸ hlt))) [[]]
      rw [hload]
      refine ⟨[] :: entries, rfl, fun i hpos hle hinside => ?_⟩
      obtain ⟨j, rfl⟩ := Nat.exists_eq_add_of_le hpos
      refine getString_of_getElem? hpos ?_
      rw [Nat.add_comm 1 j, List.getElem?_cons_succ, Nat.add_comm j 1]
      exact hentries j (by omega) (by omega)
    · exact ⟨[], rfl, fun i hpos hle _ => by omega⟩

/-- Of the entry of the only string there is one byte, a NUL that also ends
the data. -/
theorem half_entry_is_read : ¬ DecodesStrings [1, 0, 0] := by
  rintro ⟨strings, hload, -⟩
  cases hload

end TblFile

end Chkdraft.Sc
