import Mathlib.Data.List.TakeWhile
import Mathlib.Tactic.Linarith

/-!
# Pools of NUL-terminated strings

A string table stores an offset for each entry and, behind the offsets, one
NUL byte followed by the characters of the present entries, each closed by a
NUL.  An absent entry points at the first NUL.  These lemmas say where the
entries stand in the pool and that reading characters up to the next NUL at
those offsets gives the entries back.
-/

namespace Binary

variable {entries : List (Option (List UInt8))} {bytes : List UInt8}
  {base limit nul offset : ℕ}

/-- The characters from `offset` to the next NUL, or to the end. -/
def cString (bytes : List UInt8) (offset : ℕ) : List UInt8 := (bytes.drop offset).takeWhile (· ≠ 0)

/-- No character of a present entry is the terminator. -/
def NulFree (entries : List (Option (List UInt8))) : Prop :=
  ∀ chars, some chars ∈ entries → (0 : UInt8) ∉ chars

/-- The characters of the present entries, each followed by its NUL. -/
def pool : List (Option (List UInt8)) → List UInt8
  | [] => []
  | none :: rest => pool rest
  | some chars :: rest => chars ++ 0 :: pool rest

/-- The offsets of the entries of a pool whose first string starts at `base`;
absent entries are sent to `nul`. -/
def poolOffsets (nul : ℕ) : ℕ → List (Option (List UInt8)) → List ℕ
  | _, [] => []
  | base, none :: rest => nul :: poolOffsets nul base rest
  | base, some chars :: rest =>
      base :: poolOffsets nul (base + chars.length + 1) rest

theorem pool_append (left right : List (Option (List UInt8))) :
    pool (left ++ right) = pool left ++ pool right := by
  induction left with
  | nil => rfl
  | cons head tail ih => cases head <;> simp [pool, ih]

@[simp]
theorem length_poolOffsets (nul base : ℕ) (entries : List (Option (List UInt8))) :
    (poolOffsets nul base entries).length = entries.length := by
  induction entries generalizing base with
  | nil => rfl
  | cons head tail ih => cases head <;> simp [poolOffsets, ih]

theorem poolOffsets_append (nul base : ℕ) (left right : List (Option (List UInt8))) :
    poolOffsets nul base (left ++ right) = poolOffsets nul base left ++
        poolOffsets nul (base + (pool left).length) right := by
  induction left generalizing base with
  | nil => simp [poolOffsets, pool]
  | cons entry rest ih =>
      cases entry with
      | none => simp [poolOffsets, pool, ih]
      | some chars =>
          have hbase : base + chars.length + 1 + (pool rest).length =
              base + (pool (some chars :: rest)).length := by
            simp only [pool, List.length_append, List.length_cons]
            omega
          simp only [List.cons_append, poolOffsets, ih, hbase]

theorem pool_ne_nil {chars : List UInt8} (hmem : some chars ∈ entries) : pool entries ≠ [] := by
  obtain ⟨before, after, rfl⟩ := List.append_of_mem hmem
  rw [pool_append]
  simp [pool]

theorem takeWhile_append_zero (chars rest : List UInt8) :
    (chars ++ 0 :: rest).takeWhile (· ≠ 0) = chars.takeWhile (· ≠ 0) := by
  induction chars with
  | nil => simp
  | cons head tail ih =>
      by_cases hhead : head = 0
      · simp [hhead]
      · simpa [List.takeWhile_cons, hhead] using ih

theorem takeWhile_eq_self_of_not_mem (hnone : (0 : UInt8) ∉ bytes) :
    bytes.takeWhile (· ≠ 0) = bytes := by
  rw [List.takeWhile_eq_self_iff]
  intro byte hmem
  simpa using fun hzero : byte = 0 => hnone (hzero ▸ hmem)

theorem takeWhile_append_nul {chars : List UInt8} (hfree : (0 : UInt8) ∉ chars)
    (rest : List UInt8) :
    (chars ++ 0 :: rest).takeWhile (· ≠ 0) = chars := by
  rw [takeWhile_append_zero, takeWhile_eq_self_of_not_mem hfree]

/-- A string followed by its NUL is read back from the offset it stands at, up
to the first NUL in it. -/
theorem cString_append_takeWhile (chars before rest : List UInt8) :
    cString (before ++ (chars ++ 0 :: rest)) before.length = chars.takeWhile (· ≠ 0) := by
  rw [cString, List.drop_left]
  exact takeWhile_append_zero chars rest

theorem cString_append_nil (before rest : List UInt8) :
    cString (before ++ 0 :: rest) before.length = [] := by
  simpa using cString_append_takeWhile [] before rest

theorem add_length_cString_le (hle : offset ≤ limit) (hnul : bytes[limit]? = some 0) :
    offset + (cString bytes offset).length ≤ limit := by
  have hprefix : ∀ (suffix : List UInt8) (distance : ℕ), suffix[distance]? = some 0 →
        (suffix.takeWhile (· ≠ 0)).length ≤ distance := by
    intro suffix
    induction suffix with
    | nil => simp
    | cons head tail ih =>
        intro distance hdistance
        cases distance with
        | zero =>
            have hhead : head = 0 := by simpa using hdistance
            simp [hhead]
        | succ distance =>
            by_cases hhead : head = 0
            · simp [hhead]
            · have htail := ih distance (by simpa using hdistance)
              simpa [List.takeWhile_cons, hhead] using htail
  have hdrop : (bytes.drop offset)[limit - offset]? = some 0 := by
    rw [List.getElem?_drop, Nat.add_sub_cancel' hle]
    exact hnul
  have hlength := hprefix _ _ hdrop
  unfold cString
  omega

/-- What follows a NUL is not read by a string starting in front of it. -/
theorem cString_append_of_nul (hle : offset ≤ limit)
    (hnul : bytes[limit]? = some 0) (rest : List UInt8) :
    cString (bytes ++ rest) offset = cString bytes offset := by
  have hend := add_length_cString_le hle hnul
  have hlt := (List.getElem?_eq_some_iff.mp hnul).1
  have hshort : (cString bytes offset).length ≠ (bytes.drop offset).length := by
    rw [List.length_drop]
    omega
  rw [cString, List.drop_append_of_le_length (by omega), List.takeWhile_append]
  exact if_neg hshort

/-- Whatever is read at the offsets of a pool: it is what the entries hold
exactly if every present entry stands at its own offset, and nothing at that of
the absent ones. -/
theorem map_poolOffsets_eq_iff {read : ℕ → List UInt8} :
    (poolOffsets nul base entries).map read = entries.map (·.getD []) ↔
      (none ∈ entries → read nul = []) ∧
        ∀ before chars after, entries = before ++ some chars :: after →
          read (base + (pool before).length) = chars := by
  induction entries generalizing base with
  | nil => simp [poolOffsets]
  | cons entry rest ih =>
      cases entry with
      | none =>
          rw [poolOffsets, List.map_cons, List.map_cons, List.cons_eq_cons, ih]
          constructor
          · rintro ⟨hnul, -, hstrings⟩
            refine ⟨fun _ => hnul, fun before chars after hsplit => ?_⟩
            rcases before with _ | ⟨first, before⟩
            · cases hsplit
            · obtain ⟨rfl, hrest⟩ := List.cons.inj hsplit
              exact hstrings before chars after hrest
          · rintro ⟨hnul, hstrings⟩
            exact ⟨hnul List.mem_cons_self, fun _ => hnul List.mem_cons_self,
              fun before chars after hsplit =>
                hstrings (none :: before) chars after (by rw [hsplit]; rfl)⟩
      | some first =>
          have hbase : ∀ before, base + first.length + 1 + (pool before).length =
              base + (pool (some first :: before)).length := by
            intro before
            simp only [pool, List.length_append, List.length_cons]
            omega
          rw [poolOffsets, List.map_cons, List.map_cons, List.cons_eq_cons, ih]
          simp only [List.mem_cons, reduceCtorEq, false_or, hbase]
          constructor
          · rintro ⟨hfirst, hnul, hstrings⟩
            refine ⟨hnul, fun before chars after hsplit => ?_⟩
            rcases before with _ | ⟨other, before⟩
            · obtain ⟨hchars, -⟩ := List.cons.inj hsplit
              exact hfirst.trans (Option.some.inj hchars)
            · obtain ⟨rfl, hrest⟩ := List.cons.inj hsplit
              exact hstrings before chars after hrest
          · rintro ⟨hnul, hstrings⟩
            exact ⟨hstrings [] first rest rfl, hnul, fun before chars after hsplit =>
                hstrings (some first :: before) chars after (by rw [hsplit]; rfl)⟩

/-- What is read back for the entries of a pool: an absent one as the empty
string, a present one up to the first NUL in it. -/
def readBack (entries : List (Option (List UInt8))) : List (List UInt8) :=
  entries.map fun entry => (entry.getD []).takeWhile (· ≠ 0)

theorem readBack_of_nulFree (hfree : NulFree entries) :
    readBack entries = entries.map (·.getD []) := by
  apply List.map_congr_left
  intro entry hmem
  cases entry with
  | none => rfl
  | some chars => exact takeWhile_eq_self_of_not_mem (hfree chars hmem)

theorem map_cString_poolOffsets (entries : List (Option (List UInt8)))
    (before rest : List UInt8) (nul : ℕ)
    (hnul : none ∈ entries → cString (before ++ pool entries ++ rest) nul = []) :
    (poolOffsets nul before.length entries).map
        (cString (before ++ pool entries ++ rest)) = readBack entries := by
  induction entries generalizing before with
  | nil => rfl
  | cons head tail ih =>
      cases head with
      | none =>
          simp only [poolOffsets, pool, List.map_cons] at hnul ⊢
          rw [hnul List.mem_cons_self, ih before fun hmem =>
            hnul (List.mem_cons_of_mem _ hmem)]
          rfl
      | some chars =>
          have hbytes : before ++ pool (some chars :: tail) ++ rest =
              (before ++ chars ++ [0]) ++ pool tail ++ rest := by
            simp [pool]
          have hread : cString (before ++ pool (some chars :: tail) ++ rest)
              before.length = chars.takeWhile (· ≠ 0) := by
            simpa [pool] using cString_append_takeWhile chars before (pool tail ++ rest)
          have hlength : (before ++ chars ++ [0]).length = before.length + chars.length + 1 := by
            simp [Nat.add_assoc]
          have htail := ih (before ++ chars ++ [0]) (by
            intro hmem
            rw [← hbytes]
            exact hnul (List.mem_cons_of_mem _ hmem))
          rw [hlength, ← hbytes] at htail
          simp only [poolOffsets, List.map_cons, hread, htail]
          rfl

/-- Every string of the pool starts at or behind its base and in front of its
last byte. -/
theorem mem_poolOffsets (hmem : offset ∈ poolOffsets nul base entries) :
    offset = nul ∨ base ≤ offset ∧ offset < base + (pool entries).length := by
  induction entries generalizing base with
  | nil => simp [poolOffsets] at hmem
  | cons head tail ih =>
      cases head with
      | none =>
          rcases List.mem_cons.mp hmem with rfl | hmem
          · exact Or.inl rfl
          · exact ih hmem
      | some chars =>
          rcases List.mem_cons.mp hmem with rfl | hmem
          · right
            simp [pool]
          · rcases ih hmem with hnul | ⟨hbase, hlt⟩
            · exact Or.inl hnul
            · right
              simp only [pool, List.length_append, List.length_cons]
              omega

/-- The first string of a pool that starts at or behind a limit. -/
theorem exists_first_poolOffset (hnul : nul < limit)
    (hwide : ∃ offset ∈ poolOffsets nul base entries, limit ≤ offset) :
    ∃ before chars after, entries = before ++ some chars :: after ∧
      limit ≤ base + (pool before).length ∧
      ∀ offset ∈ poolOffsets nul base before, offset < limit := by
  obtain ⟨wide, hmem, hle⟩ := hwide
  induction entries generalizing base with
  | nil => simp [poolOffsets] at hmem
  | cons head tail ih =>
      cases head with
      | none =>
          rcases List.mem_cons.mp hmem with rfl | hmem
          · omega
          · obtain ⟨before, chars, after, rfl, hbase, hbefore⟩ := ih hmem
            refine ⟨none :: before, chars, after, rfl, hbase, ?_⟩
            intro offset hoffset
            rcases List.mem_cons.mp hoffset with rfl | hoffset
            · exact hnul
            · exact hbefore offset hoffset
      | some first =>
          by_cases hstart : limit ≤ base
          · refine ⟨[], first, tail, rfl, Nat.le_add_right_of_le hstart, ?_⟩
            simp [poolOffsets]
          · rcases List.mem_cons.mp hmem with rfl | hmem
            · exact absurd hle hstart
            · obtain ⟨before, chars, after, rfl, hbase, hbefore⟩ := ih hmem
              refine ⟨some first :: before, chars, after, rfl, ?_, ?_⟩
              · simp only [pool, List.length_append, List.length_cons]
                omega
              · intro offset hoffset
                rcases List.mem_cons.mp hoffset with rfl | hoffset
                · omega
                · exact hbefore offset hoffset

theorem filterMap_id_of_pool_eq_nil (hpool : pool entries = []) : entries.filterMap id = [] := by
  rw [List.filterMap_eq_nil_iff]
  intro entry hmem
  cases entry with
  | none => rfl
  | some chars => exact absurd hpool (pool_ne_nil hmem)

/-- The last string of a pool: where it starts, and that its characters end
the pool. -/
theorem exists_last_poolOffset (nul : ℕ) (before : List UInt8)
    (hnul : nul < before.length) (hpool : pool entries ≠ []) :
    ∃ last chars, last ∈ poolOffsets nul before.length entries ∧
      (entries.filterMap id).getLast? = some chars ∧
      before.length ≤ last ∧
      (before ++ pool entries).drop last = chars ++ [0] ∧
      ∀ offset ∈ poolOffsets nul before.length entries, offset ≤ last := by
  induction entries generalizing before with
  | nil => exact absurd rfl hpool
  | cons head tail ih =>
      cases head with
      | none =>
          obtain ⟨last, chars, hmem, hlast, hbase, hend, hmax⟩ := ih before hnul hpool
          refine ⟨last, chars, List.mem_cons_of_mem _ hmem, hlast, hbase, hend, ?_⟩
          intro offset hoffset
          rcases List.mem_cons.mp hoffset with rfl | hoffset
          · omega
          · exact hmax offset hoffset
      | some chars =>
          have hfilter : (some chars :: tail).filterMap id = chars :: tail.filterMap id := rfl
          have hbytes : before ++ pool (some chars :: tail) =
              (before ++ chars ++ [0]) ++ pool tail := by
            simp [pool]
          have hlength : (before ++ chars ++ [0]).length = before.length + chars.length + 1 := by
            simp [Nat.add_assoc]
          by_cases htail : pool tail = []
          · refine ⟨before.length, chars, List.mem_cons_self, ?_, le_rfl, ?_, ?_⟩
            · rw [hfilter, filterMap_id_of_pool_eq_nil htail]
              rfl
            · simp [pool, htail]
            · intro offset hoffset
              rcases List.mem_cons.mp hoffset with rfl | hoffset
              · exact le_rfl
              · rcases mem_poolOffsets hoffset with rfl | ⟨hle, hlt⟩
                · exact hnul.le
                · rw [htail, List.length_nil] at hlt
                  omega
          · obtain ⟨last, lastChars, hmem, hlast, hbase, hend, hmax⟩ :=
              ih (before ++ chars ++ [0]) (by omega) htail
            rw [hlength] at hmem hbase hmax
            rw [← hbytes] at hend
            refine ⟨last, lastChars, List.mem_cons_of_mem _ hmem, ?_, by omega, hend, ?_⟩
            · rw [hfilter, List.getLast?_cons, hlast]
              rfl
            · intro offset hoffset
              rcases List.mem_cons.mp hoffset with rfl | hoffset
              · omega
              · exact hmax offset hoffset

end Binary
