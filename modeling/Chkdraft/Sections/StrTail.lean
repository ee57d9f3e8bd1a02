import Mathlib.Algebra.Order.BigOperators.Group.List
import Chkdraft.Sections.OverrideReads

/-!
# Data behind the strings

The bytes behind the last string of a loaded STR section are kept and written
behind the strings again.  Where the strings end is not stored: every load
infers it from the offsets and from the strings they lead to, and a table for
which the inferred end is not the written one has its tail data moved.
-/

namespace Chkdraft.Sections

open Binary

variable {strings : List (Option ScStr)} {table : StrSection}
  {body : List UInt8}

namespace StrSection

/-- Saving a section, and loading the body into a new one. -/
def reload (table : StrSection) : Except SectionError StrSection :=
  match table.write with
  | .error error => .error error
  | .ok body =>
      match (empty.read body.length false (InputStream.ofBytes body)).result with
      | .error error => .error error
      | .ok (loaded, _) => .ok loaded

def reloads : ℕ → StrSection → Except SectionError StrSection
  | 0, table => .ok table
  | count + 1, table =>
      match table.reload with
      | .error error => .error error
      | .ok loaded => reloads count loaded

/-- The length of the section when it is saved. -/
def writtenLength (table : StrSection) : Except SectionError ℕ := table.write.map List.length

/-- Every later save is as long as the next one. -/
def LengthSettled (table : StrSection) : Prop :=
  ∀ count, ∃ loaded, reloads count table = .ok loaded ∧ loaded.writtenLength = table.writtenLength

/-- The tail data is loaded as it was saved, and no number of further saves
and loads changes the length of the section. -/
structure KeepsTail (table : StrSection) : Prop where
  tailData_eq : ∃ loaded, table.reload = .ok loaded ∧ loaded.tailData = table.tailData
  length_eq : table.LengthSettled

/-- The ids after a load: a null id is an empty string, and a string ends in
front of its first NUL. -/
def loadedIds (ids : List (Option ScStr)) : List (Option ScStr) := (readBack ids).map some

@[simp]
theorem length_loadedIds (ids : List (Option ScStr)) : (loadedIds ids).length = ids.length := by
  simp [loadedIds, readBack]

theorem loadedIds_append (left right : List (Option ScStr)) :
    loadedIds (left ++ right) = loadedIds left ++ loadedIds right := by
  simp [loadedIds, readBack]

theorem loadedIds_loadedIds (ids : List (Option ScStr)) :
    loadedIds (loadedIds ids) = loadedIds ids := by
  simp only [loadedIds, readBack, List.map_map]
  apply List.map_congr_left
  intro entry _
  simp [List.takeWhile_takeWhile]

theorem nulFree_loadedIds (ids : List (Option ScStr)) : NulFree (loadedIds ids) := by
  intro chars hmem hzero
  obtain ⟨entry, -, rfl⟩ : ∃ entry ∈ ids, (entry.getD []).takeWhile (· ≠ 0) = chars := by
    simpa [loadedIds, readBack] using hmem
  simpa using List.mem_takeWhile_imp hzero

/-- Characters of stored strings from their first NUL on. -/
def charactersBehindNul (ids : List (Option ScStr)) : ℕ :=
  (ids.map fun string => (string.getD []).length - ((string.getD []).takeWhile (· ≠ 0)).length).sum

/-- A load adds a NUL for every null id, and drops what is behind a NUL. -/
theorem length_pool_loadedIds (ids : List (Option ScStr)) :
    (pool (loadedIds ids)).length + charactersBehindNul ids =
      (pool ids).length + ids.count none := by
  induction ids with
  | nil => rfl
  | cons entry rest ih =>
      simp only [loadedIds, readBack, charactersBehindNul, List.map_cons,
        List.sum_cons, pool, List.length_append, List.length_cons] at ih ⊢
      cases entry with
      | none =>
          simp only [Option.getD_none, List.takeWhile_nil, List.length_nil,
            pool, List.count_cons_self]
          omega
      | some chars =>
          have hle := (List.takeWhile_sublist (l := chars) (p := (· ≠ 0))).length_le
          rw [List.count_cons_of_ne (by simp)]
          simp only [Option.getD_some, pool, List.length_append, List.length_cons]
          omega

theorem withinLimits_loadedIds (hlimits : WithinLimits strings) :
    WithinLimits (none :: loadedIds strings.tail) := by
  have hle : charactersLength (loadedIds strings.tail) ≤ charactersLength strings.tail := by
    rw [charactersLength, charactersLength, loadedIds, readBack, List.map_map, List.map_map]
    apply List.sum_le_sum
    intro string _
    exact (List.takeWhile_sublist _).length_le
  obtain ⟨hcount, hsum⟩ := hlimits
  refine ⟨by simpa using hcount, ?_⟩
  rw [List.tail_cons, length_loadedIds]
  omega

theorem reload_of_write (hwrite : table.write = .ok body) : table.reload = .ok (ofBody body) := by
  have hread := result_read_fresh body []
  rw [List.append_nil] at hread
  simp only [reload, hwrite, hread]

theorem writtenLength_of_write (hwrite : table.write = .ok body) :
    table.writtenLength = .ok body.length := by
  rw [writtenLength, hwrite]
  rfl

/-- Without padding the tail data follows the strings at once. -/
theorem write_of_tailData (hlimits : WithinLimits table.strings)
    (htail : table.tailData ≠ []) (htwo : table.bytePaddedTo ≠ 2)
    (hfour : table.bytePaddedTo ≠ 4) :
    table.write = .ok (encodedStrings table.strings.tail ++ table.tailData) := by
  have hpos : table.tailData.length > 0 := List.length_pos_iff.mpr htail
  rw [write, syncStringsToBytes_of_withinLimits hlimits]
  simp only [if_pos hpos, tailPadding]
  rw [if_neg (by tauto)]
  rfl

/-- An encoded table is never empty, so its bytes are decoded. -/
theorem ofBody_encodedStrings (ids : List (Option ScStr)) (tail : List UInt8) :
    ofBody (encodedStrings ids ++ tail) = syncBytesToStrings (encodedStrings ids ++ tail) := by
  have hlength := length_encodedStrings ids
  rw [ofBody, if_pos (by rw [List.length_append]; omega)]

/-- A section loaded from an encoded table with tail data behind it. -/
def settled (ids : List (Option ScStr)) (tail : List UInt8) : StrSection where
  strings := none :: loadedIds ids
  stringBytes := encodedStrings ids
  bytePaddedTo := 0
  initialTailDataOffset := (encodedStrings ids).length
  tailData := tail

theorem ofBody_eq_settled {ids : List (Option ScStr)}
    (hids : ids.length ≤ maxStrings) (hpos : 0 < ids.length)
    (hfit : OffsetsFit ids) (hwhole : LastWhole ids) {tail : List UInt8}
    (htail : tail ≠ []) :
    ofBody (encodedStrings ids ++ tail) = settled ids tail := by
  have hend := (regularStrSectionEnd_eq_length_iff hids tail).mpr ⟨hpos, hfit, hwhole⟩
  have hlt : (encodedStrings ids).length < (encodedStrings ids ++ tail).length := by
    have htailLength := List.length_pos_iff.mpr htail
    rw [List.length_append]
    omega
  have hstrings := strings_syncBytesToStrings hids hfit tail
  rw [ofBody_encodedStrings]
  simp only [syncBytesToStrings] at hstrings ⊢
  rw [hstrings, hend, if_pos hlt, if_pos hlt, List.take_left, List.drop_left]
  rfl

theorem withinLimits_of_write (hwrite : table.write = .ok body) : WithinLimits table.strings := by
  cases hsync : syncStringsToBytes table.strings with
  | error error => simp [write, hsync] at hwrite
  | ok bytes => exact withinLimits_of_syncStringsToBytes hsync

/-- The ids an encoded table is loaded as, from the first wide offset on. -/
theorem strings_ofBody_append {before after : List (Option ScStr)}
    (hids : (before ++ after).length ≤ maxStrings)
    (hloaded : loadedIds before = before)
    (hfit : ∀ offset ∈ poolOffsets (2 + 2 * (before ++ after).length)
      (3 + 2 * (before ++ after).length) before, offset < 65536)
    (tail : List UInt8) :
    ∃ others : List ScStr, others.length = after.length ∧
      (ofBody (encodedStrings (before ++ after) ++ tail)).strings.tail =
        before ++ others.map some := by
  obtain ⟨others, hothers, hfst⟩ := map_fst_loadedStrings_append before after hids hfit tail
  refine ⟨others, hothers, ?_⟩
  rw [List.map_append, ← loadedIds, hloaded] at hfst
  rw [ofBody_encodedStrings, ← hfst]
  simp [syncBytesToStrings, outOfBoundsStrings_encodedStrings hids]

/-- A table whose strings a load does not change, with offsets that do not fit.
The strings in front of the first such offset are loaded, every byte behind
them becomes tail data, and the ids from there on are strings once more. -/
theorem length_lt_of_not_offsetsFit {ids : List (Option ScStr)}
    (hids : ids.length ≤ maxStrings) (hloaded : loadedIds ids = ids)
    (hfit : ¬ OffsetsFit ids) {tail : List UInt8}
    (hwrite : (ofBody (encodedStrings ids ++ tail)).write = .ok body) :
    (encodedStrings ids ++ tail).length < body.length := by
  obtain ⟨before, chars, after, rfl, hwide, hbefore⟩ := exists_first_wide hids hfit
  rw [loadedIds_append] at hloaded
  obtain ⟨others, hothers, hstrings⟩ := strings_ofBody_append hids
    (List.append_inj hloaded (by simp)).1 hbefore tail
  rw [ofBody_encodedStrings] at hwrite hstrings
  have hend := regularStrSectionEnd_le_start hids hwide tail
  have hlength := length_encodedStrings (before ++ some chars :: after)
  have hpool : (pool (before ++ some chars :: after)).length =
      (pool before).length + (chars.length + 1 + (pool after).length) := by
    rw [pool_append]
    simp only [pool, List.length_append, List.length_cons]
    omega
  have hothersPool : 0 < (pool (others.map some)).length := by
    obtain ⟨other, hother⟩ := List.exists_mem_of_length_pos (l := others)
      (by rw [hothers, List.length_cons]; omega)
    exact List.length_pos_iff.mpr (pool_ne_nil (List.mem_map_of_mem hother))
  generalize hbytes : encodedStrings (before ++ some chars :: after) ++ tail = bytes at *
  have hsize : bytes.length = (encodedStrings (before ++ some chars :: after)).length +
        tail.length := by
    rw [← hbytes, List.length_append]
  have htailData : (syncBytesToStrings bytes).tailData.length =
      bytes.length - regularStrSectionEnd bytes := by
    simp only [syncBytesToStrings, List.length_drop]
  have hpadded : (syncBytesToStrings bytes).bytePaddedTo = 0 := if_pos (by omega)
  rw [write_of_tailData (withinLimits_of_write hwrite)
    (List.ne_nil_of_length_pos (by omega)) (by omega) (by omega)] at hwrite
  have hbody := congrArg List.length (Except.ok.inj hwrite)
  rw [List.length_append, length_encodedStrings, hstrings, pool_append,
    List.length_append, List.length_append, List.length_map, hothers] at hbody
  simp only [List.length_append] at hlength hend
  omega

section Settled

variable {ids : List (Option ScStr)} {tail : List UInt8}

section

variable (hlimits : WithinLimits (none :: loadedIds ids))

include hlimits

theorem write_settled (htail : tail ≠ []) : (settled ids tail).write =
      .ok (encodedStrings (loadedIds ids) ++ tail) := by
  have hpadded : (settled ids tail).bytePaddedTo = 0 := rfl
  exact write_of_tailData hlimits htail (by omega) (by omega)

/-- Once the strings are what a load makes of them, the next load changes
nothing as long as their offsets fit. -/
theorem reload_settled (hpos : 0 < ids.length) (htail : tail ≠ [])
    (hfit : OffsetsFit (loadedIds ids)) :
    (settled ids tail).reload = .ok (settled (loadedIds ids) tail) := by
  have hids : (loadedIds ids).length ≤ maxStrings := hlimits.1
  rw [reload_of_write (write_settled hlimits htail),
    ofBody_eq_settled hids (by simpa using hpos) hfit
      (lastWhole_of_nulFree (nulFree_loadedIds ids)) htail]

theorem lengthSettled_settled (hpos : 0 < ids.length) (htail : tail ≠ [])
    (hfit : OffsetsFit (loadedIds ids)) : (settled ids tail).LengthSettled := by
  intro count
  induction count generalizing ids with
  | zero => exact ⟨settled ids tail, rfl, rfl⟩
  | succ count ih =>
      have hagain := loadedIds_loadedIds ids
      have hlimitsAgain : WithinLimits (none :: loadedIds (loadedIds ids)) := by
        rwa [hagain]
      obtain ⟨loaded, hloaded, hlength⟩ := ih hlimitsAgain (by simpa using hpos) (by rwa [hagain])
      refine ⟨loaded, ?_, ?_⟩
      · simp only [reloads, reload_settled hlimits hpos htail hfit]
        exact hloaded
      · rw [hlength, writtenLength_of_write (write_settled hlimits htail),
          writtenLength_of_write (write_settled hlimitsAgain htail), hagain]

/-- The second save of strings whose offsets do not fit is longer, or
throws. -/
theorem offsetsFit_of_lengthSettled (htail : tail ≠ [])
    (hsettled : (settled ids tail).LengthSettled) :
    OffsetsFit (loadedIds ids) := by
  by_contra hfit
  have hwrite := write_settled hlimits htail
  obtain ⟨loaded, hloaded, hlength⟩ := hsettled 1
  simp only [reloads, reload_of_write hwrite, Except.ok.injEq] at hloaded
  rw [writtenLength_of_write hwrite, ← hloaded] at hlength
  cases hagain : (ofBody (encodedStrings (loadedIds ids) ++ tail)).write with
  | error error =>
      rw [writtenLength, hagain] at hlength
      cases hlength
  | ok body =>
      have hids : (loadedIds ids).length ≤ maxStrings := hlimits.1
      have hlt := length_lt_of_not_offsetsFit hids (loadedIds_loadedIds ids) hfit hagain
      rw [writtenLength_of_write hagain, Except.ok.injEq] at hlength
      omega

end

end Settled

/-- A table behind which tail data stays in place at every load. -/
structure TailInPlace (strings : List (Option ScStr)) : Prop where
  some_id : strings.tail ≠ []
  starts : StartsWithinWord strings
  last_whole : LastWhole strings.tail
  starts_loaded : StartsWithinWord (none :: loadedIds strings.tail)

theorem tailInPlace_iff (hids : strings.tail.length ≤ maxStrings) :
    TailInPlace strings ↔ (0 < strings.tail.length ∧ OffsetsFit strings.tail ∧
        LastWhole strings.tail) ∧ OffsetsFit (loadedIds strings.tail) := by
  have hidsLoaded : (none :: loadedIds strings.tail).tail.length ≤ maxStrings := by
    simpa using hids
  have hfitLoaded := offsetsFit_iff_startsWithinWord hidsLoaded
  rw [List.tail_cons] at hfitLoaded
  rw [offsetsFit_iff_startsWithinWord hids, hfitLoaded, List.length_pos_iff]
  exact ⟨fun hplace => ⟨⟨hplace.some_id, hplace.starts, hplace.last_whole⟩,
    hplace.starts_loaded⟩, fun ⟨⟨hsome, hstarts, hwhole⟩, hloaded⟩ =>
      ⟨hsome, hstarts, hwhole, hloaded⟩⟩

theorem tailData_ofBody {ids : List (Option ScStr)} {tail : List UInt8}
    (hids : ids.length ≤ maxStrings) :
    (ofBody (encodedStrings ids ++ tail)).tailData = tail ↔
      0 < ids.length ∧ OffsetsFit ids ∧ LastWhole ids := by
  rw [← tailData_eq_iff hids tail, ofBody_encodedStrings]

/-- The tail data is loaded as it was saved, and the length does not change
from the next save on, exactly for such tables. -/
theorem settlesTail_iff {tail : List UInt8} (hlimits : WithinLimits strings) (htail : tail ≠ []) :
    ((ofBody (encodedStrings strings.tail ++ tail)).tailData = tail ∧
        (ofBody (encodedStrings strings.tail ++ tail)).LengthSettled) ↔
      TailInPlace strings := by
  have hlimitsLoaded := withinLimits_loadedIds hlimits
  rw [tailInPlace_iff hlimits.1, tailData_ofBody hlimits.1]
  apply and_congr_right
  rintro ⟨hpos, hfit, hwhole⟩
  rw [ofBody_eq_settled hlimits.1 hpos hfit hwhole htail]
  exact ⟨offsetsFit_of_lengthSettled hlimitsLoaded htail,
    lengthSettled_settled hlimitsLoaded hpos htail⟩

theorem lengthSettled_iff {loaded : StrSection} (hreload : table.reload = .ok loaded) :
    table.LengthSettled ↔ loaded.LengthSettled ∧ loaded.writtenLength = table.writtenLength := by
  have hreloads : ∀ count, reloads (count + 1) table = reloads count loaded := by
    intro count
    simp only [reloads, hreload]
  constructor
  · intro hsettled
    obtain ⟨first, hfirst, hlength⟩ := hsettled 1
    rw [hreloads] at hfirst
    obtain rfl : loaded = first := Except.ok.inj hfirst
    refine ⟨?_, hlength⟩
    intro count
    obtain ⟨later, hlater, heq⟩ := hsettled (count + 1)
    exact ⟨later, (hreloads count).symm.trans hlater, heq.trans hlength.symm⟩
  · rintro ⟨hsettled, hlength⟩ count
    cases count with
    | zero => exact ⟨table, rfl, rfl⟩
    | succ count =>
        obtain ⟨later, hlater, heq⟩ := hsettled count
        exact ⟨later, (hreloads count).trans hlater, heq.trans hlength⟩

/-- Tail data stays in place when there is an id, every stored string starts
within the first 65536 bytes before and after a load, and the last string has
no NUL in it.  The length stays what it was when the load adds as many NULs for
null ids as it drops characters behind a NUL. -/
theorem keepsTail_iff {table : StrSection} {bytes : List UInt8}
    (htail : table.tailData ≠ []) (htwo : table.bytePaddedTo ≠ 2)
    (hfour : table.bytePaddedTo ≠ 4)
    (hsync : syncStringsToBytes table.strings = .ok bytes) :
    table.KeepsTail ↔ TailInPlace table.strings ∧ table.strings.tail.count none =
        charactersBehindNul table.strings.tail := by
  have hlimits := withinLimits_of_syncStringsToBytes hsync
  have hwrite := write_of_tailData hlimits htail htwo hfour
  have hreload := reload_of_write hwrite
  have hkeeps : table.KeepsTail ↔ ((ofBody (encodedStrings table.strings.tail ++
          table.tailData)).tailData = table.tailData ∧
        (ofBody (encodedStrings table.strings.tail ++ table.tailData)).LengthSettled) ∧
      (ofBody (encodedStrings table.strings.tail ++
        table.tailData)).writtenLength = table.writtenLength := by
    rw [and_assoc, ← lengthSettled_iff hreload]
    constructor
    · rintro ⟨⟨loaded, hloaded, heq⟩, hsettled⟩
      rw [hreload, Except.ok.injEq] at hloaded
      exact ⟨hloaded ▸ heq, hsettled⟩
    · rintro ⟨heq, hsettled⟩
      exact ⟨⟨_, hreload, heq⟩, hsettled⟩
  rw [hkeeps, settlesTail_iff hlimits htail]
  apply and_congr_right
  intro hplace
  obtain ⟨⟨hpos, hfit, hwhole⟩, -⟩ := (tailInPlace_iff hlimits.1).mp hplace
  have hpool := length_pool_loadedIds table.strings.tail
  rw [ofBody_eq_settled hlimits.1 hpos hfit hwhole htail, writtenLength_of_write hwrite,
    writtenLength_of_write (write_settled (withinLimits_loadedIds hlimits) htail),
    Except.ok.injEq, List.length_append, List.length_append, length_encodedStrings,
    length_encodedStrings, length_loadedIds]
  omega

theorem keepsTail_one_string : KeepsTail ⟨[none, some [65]], [], 0, 0, [7]⟩ := by
  refine (keepsTail_iff (by decide) (by decide) (by decide) rfl).mpr ⟨?_, rfl⟩
  have hfit : OffsetsFit [some [65]] := by
    unfold OffsetsFit
    decide
  have hwhole : LastWhole [some [65]] := lastWhole_of_nulFree (nulFree_loadedIds [some [65]])
  exact (tailInPlace_iff (by decide)).mpr ⟨⟨by decide, hfit, hwhole⟩, hfit⟩

/-- Without strings the NUL the encoder puts in front of them is not counted
when the end is inferred: it is added to the tail data at every load. -/
theorem not_keepsTail_no_strings : syncStringsToBytes [none] = .ok [0, 0, 0] ∧
      reload ⟨[none], [0, 0], 0, 2, [7]⟩ = .ok ⟨[none], [0, 0], 0, 2, [0, 7]⟩ ∧
      ¬ KeepsTail ⟨[none], [0, 0], 0, 2, [7]⟩ := by
  have hreload : reload ⟨[none], [0, 0], 0, 2, [7]⟩ = .ok ⟨[none], [0, 0], 0, 2, [0, 7]⟩ := by
    decide
  refine ⟨by decide, hreload, ?_⟩
  rintro ⟨⟨loaded, hloaded, htail⟩, -⟩
  rw [hreload, Except.ok.injEq] at hloaded
  rw [← hloaded] at htail
  exact absurd htail (by decide)

end StrSection

end Chkdraft.Sections
