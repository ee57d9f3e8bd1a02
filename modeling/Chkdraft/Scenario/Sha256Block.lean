import Chkdraft.Scenario.Sha256

/-!
# A block of SHA-256

Eight lines of the source are eight rounds: each line leaves the words of the
standard under other names, and after eight of them the names are the first
ones again.  Its constants are those of the standard, so `processBlock` is the
compression of one block.
-/

namespace Chkdraft.Scenario.SHA256

open Binary SecureHash

variable {index : ℕ} {data : List UInt8} {words : List Word}

theorem rotate_eq (a : Word) {c : ℕ} (hlt : c < 32) : rotate a c = a.rotateRight c := by
  rw [rotate, BitVec.rotateRight_def, Nat.mod_eq_of_lt hlt]

theorem f1_eq (e f g : Word) : f1 e f g = upperSigma1 e + choice e f g := by
  rw [f1, rotate_eq e (by decide), rotate_eq e (by decide), rotate_eq e (by decide)]
  rfl

theorem majority_eq (a b c : Word) : ((a ||| b) &&& c) ||| (a &&& b) = majority a b c := by
  apply BitVec.eq_of_getLsbD_eq
  intro index _
  simp only [majority, BitVec.getLsbD_or, BitVec.getLsbD_and, BitVec.getLsbD_xor]
  cases a.getLsbD index <;> cases b.getLsbD index <;>
    cases c.getLsbD index <;> rfl

theorem f2_eq (a b c : Word) : f2 a b c = upperSigma0 a + majority a b c := by
  rw [f2, rotate_eq a (by decide), rotate_eq a (by decide), rotate_eq a (by decide), majority_eq]
  rfl

/-- The words after a line, under the names of the standard. -/
def rename (r : Words) : Words :=
  { a := r.h
    b := r.a
    c := r.b
    d := r.c
    e := r.d
    f := r.e
    g := r.f
    h := r.g }

theorem line_eq (a b c d e f g h constant word : Word) : line a b c d e f g h constant word =
      (d + (h + upperSigma1 e + choice e f g + constant + word),
        h + upperSigma1 e + choice e f g + constant + word + (upperSigma0 a + majority a b c)) := by
  rw [line, f1_eq, f2_eq, ← BitVec.add_assoc h]

/-- Each line is a round under its own names; behind the eighth line, the names
are those before the first one. -/
theorem rename_lines (constant word : Word) (r : Words) :
    rename (line0 constant word r) = round constant word r ∧
      rename^[2] (line1 constant word r) = round constant word (rename r) ∧
      rename^[3] (line2 constant word r) = round constant word (rename^[2] r) ∧
      rename^[4] (line3 constant word r) = round constant word (rename^[3] r) ∧
      rename^[5] (line4 constant word r) = round constant word (rename^[4] r) ∧
      rename^[6] (line5 constant word r) = round constant word (rename^[5] r) ∧
      rename^[7] (line6 constant word r) = round constant word (rename^[6] r) ∧
      line7 constant word r = round constant word (rename^[7] r) := by
  simp only [line0, line1, line2, line3, line4, line5, line6, line7, line_eq]
  exact ⟨rfl, rfl, rfl, rfl, rfl, rfl, rfl, rfl⟩

/-- The constants of the source are fractions of cube roots. -/
theorem constants_eq : constants = primes.map (rootFraction 3) := by
  rw [primes_eq]
  decide +kernel

theorem constant_eq (hlt : index < 64) : constants.getD index 0 = roundConstant index := by
  have hprimes : index < primes.length := by
    rw [primes_eq]
    exact hlt
  rw [roundConstant, constants_eq, List.getD_eq_getElem?_getD, List.getElem?_map,
    List.getD_eq_getElem?_getD, List.getElem?_eq_getElem hprimes]
  rfl

theorem initialHash_eq : initialHash = start := by
  rw [start, primes_eq]
  decide +kernel

/-- The words set so far are the beginning of the schedule. -/
def Scheduled (data : List UInt8) (words : List Word) : Prop :=
  words = (List.range words.length).map (schedule data)

section

variable (hwords : Scheduled data words)

include hwords

theorem Scheduled.getD (hlt : index < words.length) : words.getD index 0 = schedule data index := by
  rw [Scheduled] at hwords
  rw [hwords, List.getD_eq_getElem?_getD, List.getElem?_map, List.getElem?_range hlt]
  rfl

theorem eightLines_eq {first : ℕ} (hle : first + 8 ≤ words.length) (hrounds : first + 8 ≤ 64)
    (r : Words) : eightLines words first r = rounds data first 8 r := by
  have hconstant : ∀ index < 8, constants.getD (first + index) 0 =
      roundConstant (first + index) := fun index hlt =>
    constant_eq (by omega)
  have hword : ∀ index < 8, words.getD (first + index) 0 =
      schedule data (first + index) := fun index hlt =>
    hwords.getD (by omega)
  simp only [eightLines, rename_lines, hconstant, hword, Nat.reduceLT]
  rfl

theorem extendWord_scheduled (hle : 16 ≤ words.length) :
    Scheduled data (extendWord words) ∧ (extendWord words).length = words.length + 1 := by
  have hlength : (extendWord words).length = words.length + 1 := by
    rw [extendWord, List.length_append]
    rfl
  refine ⟨?_, hlength⟩
  rw [Scheduled, hlength, List.range_succ, List.map_append, ← hwords,
    List.map_singleton, schedule_of_le data hle, extendWord]
  simp only [rotate_eq _ (show 7 < 32 by decide),
    rotate_eq _ (show 18 < 32 by decide), rotate_eq _ (show 17 < 32 by decide),
    rotate_eq _ (show 19 < 32 by decide)]
  rw [hwords.getD (by omega), hwords.getD (by omega), hwords.getD (by omega),
    hwords.getD (by omega)]
  congr 2
  change schedule data (words.length - 16) +
    lowerSigma0 (schedule data (words.length - 15)) + schedule data (words.length - 7) +
        lowerSigma1 (schedule data (words.length - 2)) = _
  ac_rfl

theorem extendTo_scheduled (hsixteen : 16 ≤ words.length) {limit : ℕ} (hle : words.length ≤ limit) :
    Scheduled data (extendTo limit words) ∧ (extendTo limit words).length = limit := by
  rw [extendTo]
  obtain ⟨count, rfl⟩ := Nat.exists_eq_add_of_le hle
  rw [Nat.add_sub_cancel_left]
  induction count with
  | zero => exact ⟨hwords, rfl⟩
  | succ count ih =>
      obtain ⟨hbefore, hlength⟩ := ih (by omega)
      rw [Function.iterate_succ_apply']
      obtain ⟨hafter, hnext⟩ := extendWord_scheduled hbefore (by omega)
      exact ⟨hafter, by omega⟩

end

theorem swap_eq {bytes : List UInt8} (hlength : bytes.length = 4) :
    swap (BitVec.ofNat 32 (littleEndianValue bytes)) = BitVec.ofNat 32 (bigEndianValue bytes) := by
  have hlt : littleEndianValue bytes < 2 ^ 32 := by
    have := littleEndianValue_lt bytes
    rwa [hlength] at this
  have hbytes := littleEndian_littleEndianValue bytes
  rw [hlength] at hbytes
  rw [swap, BitVec.toNat_ofNat, Nat.mod_eq_of_lt hlt, hbytes, bigEndianValue]

theorem inputWords_eq {count : ℕ} (hle : 4 * (index + count) ≤ data.length) :
    inputWords data index count = .ok ((List.range' index count).map (blockWord data)) := by
  induction count generalizing index with
  | zero => rfl
  | succ count ih =>
      have hlength : ((data.drop (4 * index)).take 4).length = 4 := by
        rw [List.length_take, List.length_drop]
        omega
      rw [inputWords, readWord_of_le (by omega), ih (by omega)]
      change Except.ok (swap (BitVec.ofNat 32 (wordAt 4 data (4 * index))) :: _) = _
      rw [wordAt, swap_eq hlength]
      rfl

theorem blockWord_take (data : List UInt8) (hlt : index < 16) :
    blockWord (data.take 64) index = blockWord data index := by
  rw [blockWord, blockWord, List.drop_take, List.take_take]
  congr 3
  omega

/-- One call of `processBlock` compresses the first sixty-four bytes. -/
theorem processBlock_eq (hash : SHA256) (hle : 64 ≤ data.length) : hash.processBlock data =
      .ok { hash with m_hash := compress hash.m_hash (data.take 64) } := by
  have hinput : inputWords data 0 16 = .ok ((List.range 16).map (schedule (data.take 64))) := by
    rw [inputWords_eq (by omega), ← List.range_eq_range']
    congr 1
    apply List.map_congr_left
    intro index hindex
    have hlt := List.mem_range.mp hindex
    rw [schedule_of_lt _ hlt, blockWord_take data hlt]
  have h16 : Scheduled (data.take 64) ((List.range 16).map (schedule (data.take 64))) := by
    rw [Scheduled, List.length_map, List.length_range]
  have hlen : ((List.range 16).map (schedule (data.take 64))).length = 16 := by
    rw [List.length_map, List.length_range]
  obtain ⟨h24, hlen24⟩ := extendTo_scheduled h16 (by omega) (show _ ≤ 24 by omega)
  obtain ⟨h32, hlen32⟩ := extendTo_scheduled h24 (by omega) (show _ ≤ 32 by omega)
  obtain ⟨h40, hlen40⟩ := extendTo_scheduled h32 (by omega) (show _ ≤ 40 by omega)
  obtain ⟨h48, hlen48⟩ := extendTo_scheduled h40 (by omega) (show _ ≤ 48 by omega)
  obtain ⟨h56, hlen56⟩ := extendTo_scheduled h48 (by omega) (show _ ≤ 56 by omega)
  obtain ⟨h64, hlen64⟩ := extendTo_scheduled h56 (by omega) (show _ ≤ 64 by omega)
  rw [processBlock, hinput]
  simp only [bind, Except.bind]
  rw [eightLines_eq h16 (by omega) (by omega), eightLines_eq h16 (by omega) (by omega),
    eightLines_eq h24 (by omega) (by omega),
    eightLines_eq h32 (by omega) (by omega),
    eightLines_eq h40 (by omega) (by omega),
    eightLines_eq h48 (by omega) (by omega),
    eightLines_eq h56 (by omega) (by omega),
    eightLines_eq h64 (by omega) (by omega)]
  rw [compress, rounds_add _ 0 56 8, rounds_add _ 0 48 8, rounds_add _ 0 40 8,
    rounds_add _ 0 32 8, rounds_add _ 0 24 8, rounds_add _ 0 16 8, rounds_add _ 0 8 8]
  rfl

end Chkdraft.Scenario.SHA256
