import Chkdraft.Scenario.Sha256Block

/-!
# Adding bytes to SHA-256 in parts

Between the calls, an object holds the message of all its bytes: its hash is
that of the whole blocks, and its buffer begins with the bytes behind them.
Every call keeps this, also `getHash`, which overwrites only the rest of the
buffer.
-/

namespace Chkdraft.Scenario.SHA256

open Binary SecureHash BlockHash

variable {block rest : List UInt8} {bufferSize length : ℕ}

variable {hash : SHA256} {data extra message : List UInt8}

/-- The bytes that wait for the rest of their block. -/
def pending (hash : SHA256) : List UInt8 := hash.m_buffer.take hash.m_bufferSize

/-- What the state of an object says about the bytes added to it. -/
structure Holds (hash : SHA256) (message : List UInt8) : Prop where
  length_buffer : hash.m_buffer.length = 64
  bufferSize_lt : hash.m_bufferSize < 64
  absorb_eq : absorb 64 compress start message = (hash.m_hash, hash.pending)
  numBytes_eq : hash.m_numBytes + BitVec.ofNat 64 hash.m_bufferSize = BitVec.ofNat 64 message.length

theorem holds_reset (hlength : hash.m_buffer.length = 64) : Holds hash.reset [] where
  length_buffer := hlength
  bufferSize_lt := Nat.zero_lt_succ 63
  absorb_eq := by
    rw [absorb_of_lt _ (by decide), ← initialHash_eq]
    rfl
  numBytes_eq := rfl

/-- The bytes of a loop of writes are the ones that `Memory.storeAll`
stores. -/
theorem keepRemaining_eq_storeAll (hash : SHA256) (data : List UInt8) : hash.keepRemaining data =
      (Memory.storeAll hash.m_buffer hash.m_bufferSize data).map fun buffer =>
        { hash with
          m_buffer := buffer
          m_bufferSize := hash.m_bufferSize + data.length } := by
  induction data generalizing hash with
  | nil => rfl
  | cons byte data ih =>
      rw [keepRemaining, push, Memory.storeAll]
      cases Memory.store hash.m_buffer hash.m_bufferSize byte with
      | error hazard => rfl
      | ok buffer =>
          change keepRemaining _ data = _
          rw [ih, List.length_cons, Nat.add_comm data.length, ← Nat.add_assoc]
          rfl

/-- The object with some bytes more in its buffer. -/
def keep (hash : SHA256) (data : List UInt8) : SHA256 :=
  { hash with
    m_buffer := hash.m_buffer.take hash.m_bufferSize ++ data ++
      hash.m_buffer.drop (hash.m_bufferSize + data.length)
    m_bufferSize := hash.m_bufferSize + data.length }

section

variable (hle : hash.m_bufferSize + data.length ≤ hash.m_buffer.length)

include hle

theorem keepRemaining_eq : hash.keepRemaining data = .ok (hash.keep data) := by
  rw [keepRemaining_eq_storeAll, Memory.storeAll_of_le hle]
  rfl

theorem pending_keep : (hash.keep data).pending = hash.pending ++ data := by
  have hlength : (hash.m_buffer.take hash.m_bufferSize ++ data).length =
      hash.m_bufferSize + data.length := by
    rw [List.length_append, List.length_take]
    omega
  exact List.take_left' hlength

theorem length_keep : (hash.keep data).m_buffer.length = hash.m_buffer.length := by
  rw [keep, List.length_append, List.length_append, List.length_take, List.length_drop]
  omega

end

/-- The loop that completes a block keeps bytes up to its end. -/
theorem fillBuffer_eq_keepRemaining (hle : hash.m_bufferSize ≤ 64) :
    hash.fillBuffer data = (hash.keepRemaining (data.take (64 - hash.m_bufferSize))).map
        fun after => (after, data.drop (64 - hash.m_bufferSize)) := by
  induction data generalizing hash with
  | nil => simp [fillBuffer, keepRemaining, Except.map]
  | cons byte data ih =>
      rw [fillBuffer]
      split
      · next hlt =>
          change hash.m_bufferSize < 64 at hlt
          obtain ⟨room, hroom⟩ : ∃ room, 64 - hash.m_bufferSize = room + 1 :=
            ⟨63 - hash.m_bufferSize, by omega⟩
          rw [hroom, List.take_succ_cons, List.drop_succ_cons, keepRemaining, push]
          cases Memory.store hash.m_buffer hash.m_bufferSize byte with
          | error hazard => rfl
          | ok buffer =>
              have hnext : 64 - (hash.m_bufferSize + 1) = room := by omega
              change fillBuffer _ data = _
              rw [ih (show hash.m_bufferSize + 1 ≤ 64 by omega), hnext]
              rfl
      · next hge =>
          change ¬ hash.m_bufferSize < 64 at hge
          have hzero : 64 - hash.m_bufferSize = 0 := by omega
          rw [hzero]
          rfl

theorem processBlocks_eq (hash : SHA256) (data : List UInt8) : ∃ numBytes,
      hash.processBlocks data = .ok ({ hash with
            m_numBytes := numBytes
            m_hash := (absorb 64 compress hash.m_hash data).1 },
          (absorb 64 compress hash.m_hash data).2) ∧
      numBytes + BitVec.ofNat 64 (absorb 64 compress hash.m_hash data).2.length =
        hash.m_numBytes + BitVec.ofNat 64 data.length := by
  fun_induction processBlocks hash data with
  | case1 hash data hle ih =>
      change 64 ≤ data.length at hle
      obtain ⟨numBytes, hrun, hcount⟩ := ih
        { hash with m_hash := compress hash.m_hash (data.take 64) }
      refine ⟨numBytes, ?_, ?_⟩
      · rw [processBlock_eq hash hle]
        change processBlocks _ _ = _
        rw [hrun, absorb_of_le _ (by decide) hle]
        rfl
      · rw [absorb_of_le _ (by decide) hle]
        change numBytes + BitVec.ofNat 64 (absorb 64 compress
          (compress hash.m_hash (data.take 64)) (data.drop 64)).2.length =
            hash.m_numBytes + 64 + BitVec.ofNat 64 (data.drop 64).length
          at hcount
        rw [hcount, List.length_drop, BitVec.add_assoc]
        congr 1
        change BitVec.ofNat 64 64 + _ = _
        rw [← BitVec.ofNat_add]
        congr 1
        omega
  | case2 hash data hlt =>
      change ¬ 64 ≤ data.length at hlt
      rw [absorb_of_lt _ (by omega)]
      exact ⟨hash.m_numBytes, rfl, rfl⟩

/-- The part of `add` behind the buffer, from an empty buffer on. -/
theorem addRest_eq (hempty : hash.m_bufferSize = 0)
    (hlength : hash.m_buffer.length = 64) (data : List UInt8) :
    ∃ after, hash.addRest data = .ok after ∧ after.m_buffer.length = 64 ∧ after.m_bufferSize < 64 ∧
      absorb 64 compress hash.m_hash data = (after.m_hash, after.pending) ∧
      after.m_numBytes + BitVec.ofNat 64 after.m_bufferSize =
        hash.m_numBytes + BitVec.ofNat 64 data.length := by
  unfold addRest
  split
  · next hnone =>
      have hdata := List.eq_nil_of_length_eq_zero hnone
      subst hdata
      refine ⟨hash, rfl, hlength, by omega, ?_, by rw [hempty, hnone]⟩
      rw [absorb_of_lt _ (by decide), pending, hempty, List.take_zero]
  · obtain ⟨numBytes, hrun, hcount⟩ := processBlocks_eq hash data
    have hrest : (absorb 64 compress hash.m_hash data).2.length < 64 :=
      length_rest_lt hash.m_hash (by decide) data
    rw [hrun]
    generalize hvalue : absorb 64 compress hash.m_hash data = value
    rw [hvalue] at hcount hrest
    have hroom : hash.m_bufferSize + value.2.length ≤
        hash.m_buffer.length := by omega
    refine ⟨_, keepRemaining_eq hroom, ?_, ?_, ?_, ?_⟩
    · exact (length_keep hroom).trans hlength
    · change hash.m_bufferSize + value.2.length < 64
      omega
    · refine Prod.ext rfl ?_
      have hkept := pending_keep (hroom : ({ hash with
        m_numBytes := numBytes
        m_hash := value.1 } : SHA256).m_bufferSize + _ ≤ _)
      refine (hkept.trans ?_).symm
      rw [pending, hempty, List.take_zero, List.nil_append]
    · change numBytes + BitVec.ofNat 64 (hash.m_bufferSize + value.2.length) = _
      rw [hempty, Nat.zero_add]
      exact hcount

theorem absorb_block (hholds : Holds hash message) (hblock : (hash.pending ++ block).length = 64) :
    absorb 64 compress start (message ++ (block ++ rest)) =
      absorb 64 compress (compress hash.m_hash (hash.pending ++ block))
        rest := by
  rw [absorb_append, hholds.absorb_eq, ← List.append_assoc,
    absorb_block_append _ (by decide) hblock]

theorem Holds.length_pending (hholds : Holds hash message) :
    hash.pending.length = hash.m_bufferSize := by
  have hlength := hholds.length_buffer
  have hlt := hholds.bufferSize_lt
  rw [pending, List.length_take]
  omega

theorem takeBuffer_of_full (hfull : hash.m_bufferSize = 64) (hlength : hash.m_buffer.length = 64) :
    hash.takeBuffer = .ok { hash with
        m_numBytes := hash.m_numBytes + 64
        m_bufferSize := 0
        m_hash := compress hash.m_hash hash.pending } := by
  have hblock : hash.m_bufferSize = BlockSize := hfull
  rw [takeBuffer, if_pos hblock, processBlock_eq _ hlength.ge, pending, hfull]
  rfl

theorem takeBuffer_of_lt (hlt : hash.m_bufferSize < 64) : hash.takeBuffer = .ok hash := by
  have hne : hash.m_bufferSize ≠ BlockSize := hlt.ne
  rw [takeBuffer, if_neg hne]

/-- With an empty buffer, the data are absorbed from its first byte on. -/
theorem exists_add_of_empty (hholds : Holds hash message)
    (hempty : hash.m_bufferSize = 0) (data : List UInt8) :
    ∃ after, hash.add data = .ok after ∧ Holds after (message ++ data) := by
  obtain ⟨after, hrun, hafterLength, hafterLt, habsorb, hcount⟩ :=
    addRest_eq hempty hholds.length_buffer data
  refine ⟨after, ?_, hafterLength, hafterLt, ?_, ?_⟩
  · rw [add, if_neg (by omega)]
    change hash.takeBuffer >>= _ = _
    rw [takeBuffer_of_lt hholds.bufferSize_lt]
    exact hrun
  · rw [absorb_append, hholds.absorb_eq, pending, hempty, List.take_zero, List.nil_append]
    exact habsorb
  · have hbefore := hholds.numBytes_eq
    rw [hempty, BitVec.add_zero] at hbefore
    rw [hcount, hbefore, List.length_append, BitVec.ofNat_add]

theorem exists_add_of_short (hholds : Holds hash message) (hpos : 0 < hash.m_bufferSize)
    (hshort : hash.m_bufferSize + data.length < 64) :
    ∃ after, hash.add data = .ok after ∧ Holds after (message ++ data) := by
  have hlength := hholds.length_buffer
  have hroom : hash.m_bufferSize + data.length ≤ hash.m_buffer.length := by
    omega
  have hfill : hash.fillBuffer data = .ok (hash.keep data, []) := by
    rw [fillBuffer_eq_keepRemaining hholds.bufferSize_lt.le,
      List.take_of_length_le (by omega), List.drop_of_length_le (by omega),
      keepRemaining_eq hroom]
    rfl
  refine ⟨hash.keep data, ?_, (length_keep hroom).trans hlength, hshort, ?_, ?_⟩
  · rw [add, if_pos hpos, hfill]
    change (hash.keep data).takeBuffer >>= _ = _
    rw [takeBuffer_of_lt (show (hash.keep data).m_bufferSize < 64 from hshort)]
    rfl
  · rw [absorb_append, hholds.absorb_eq, pending_keep hroom]
    apply absorb_of_lt
    rw [List.length_append, hholds.length_pending]
    exact hshort
  · change hash.m_numBytes + BitVec.ofNat 64 (hash.m_bufferSize + data.length) = _
    rw [List.length_append, BitVec.ofNat_add, BitVec.ofNat_add,
      ← hholds.numBytes_eq, BitVec.add_assoc]

theorem exists_add_of_full (hholds : Holds hash message) (hpos : 0 < hash.m_bufferSize)
    (hfull : hash.m_bufferSize + block.length = 64) :
    ∃ after, hash.add (block ++ rest) = .ok after ∧ Holds after (message ++ (block ++ rest)) := by
  have hlength := hholds.length_buffer
  have hroom : hash.m_bufferSize + block.length ≤ hash.m_buffer.length := by
    omega
  have hkept := (length_keep hroom).trans hlength
  have hblock : (hash.pending ++ block).length = 64 := by
    rw [List.length_append, hholds.length_pending]
    exact hfull
  have hcut : 64 - hash.m_bufferSize = block.length := by omega
  have hfill : hash.fillBuffer (block ++ rest) = .ok (hash.keep block, rest) := by
    rw [fillBuffer_eq_keepRemaining hholds.bufferSize_lt.le, hcut,
      List.take_left, List.drop_left, keepRemaining_eq hroom]
    rfl
  obtain ⟨after, hrun, hafterLength, hafterLt, habsorb, hcount⟩ :=
    addRest_eq (rfl : ({ hash.keep block with
      m_numBytes := hash.m_numBytes + 64
      m_bufferSize := 0
      m_hash := compress hash.m_hash (hash.keep block).pending } :
        SHA256).m_bufferSize = 0) hkept rest
  refine ⟨after, ?_, hafterLength, hafterLt, ?_, ?_⟩
  · rw [add, if_pos hpos, hfill]
    change (hash.keep block).takeBuffer >>= _ = _
    rw [takeBuffer_of_full hfull hkept]
    exact hrun
  · rw [absorb_block hholds hblock, ← pending_keep hroom]
    exact habsorb
  · rw [hcount]
    change hash.m_numBytes + BitVec.ofNat 64 64 + _ = _
    have hsum : BitVec.ofNat 64 64 =
        BitVec.ofNat 64 hash.m_bufferSize + BitVec.ofNat 64 block.length := by
      rw [← BitVec.ofNat_add, hfull]
    rw [List.length_append, List.length_append, BitVec.ofNat_add,
      BitVec.ofNat_add, ← hholds.numBytes_eq, hsum]
    ac_rfl

/-- Adding bytes returns, and appends them to the message. -/
theorem exists_add (hholds : Holds hash message) (data : List UInt8) :
    ∃ after, hash.add data = .ok after ∧ Holds after (message ++ data) := by
  rcases Nat.eq_zero_or_pos hash.m_bufferSize with hempty | hpos
  · exact exists_add_of_empty hholds hempty data
  · rcases Nat.lt_or_ge (hash.m_bufferSize + data.length) 64 with
      hshort | hlong
    · exact exists_add_of_short hholds hpos hshort
    · have hlt := hholds.bufferSize_lt
      have hblock : hash.m_bufferSize + (data.take (64 - hash.m_bufferSize)).length = 64 := by
        rw [List.length_take]
        omega
      have hadd : ∃ after, hash.add (data.take (64 - hash.m_bufferSize) ++
          data.drop (64 - hash.m_bufferSize)) = .ok after ∧ _ :=
        exists_add_of_full hholds hpos hblock
      rwa [List.take_append_drop] at hadd

/-- The length ends the first block, if there is room for it behind the
buffered bytes and the one bit, and otherwise the second one. -/
theorem paddedLength_eq : ∀ bufferSize < 64,
    paddedLength bufferSize = if bufferSize < 56 then 56 else 120 := by
  decide +kernel

theorem shiftedByte {width : ℕ} (hwidth : 255 < 2 ^ width) (bits : BitVec width) (shift : ℕ) :
    ((bits >>> shift) &&& BitVec.ofNat width 255).toNat = bits.toNat / 2 ^ shift % 256 := by
  rw [BitVec.toNat_and, BitVec.toNat_ushiftRight, Nat.shiftRight_eq_div_pow,
    BitVec.toNat_ofNat, Nat.mod_eq_of_lt hwidth]
  exact Nat.and_two_pow_sub_one_eq_mod _ 8

theorem lengthBytes_ofNat (value : ℕ) :
    lengthBytes (BitVec.ofNat 64 value) = bigEndian 8 value := by
  rw [← bigEndian_mod, bigEndian_eq_map]
  simp only [lengthBytes, List.map_cons, List.map_nil, BitVec.ofNat_eq_ofNat,
    shiftedByte (show 255 < 2 ^ 64 by decide), BitVec.toNat_ofNat]
  rfl

theorem wordBytes_eq (word : Word) : wordBytes word = bigEndian 4 word.toNat := by
  rw [bigEndian_eq_map]
  simp only [wordBytes, List.map_cons, List.map_nil, BitVec.ofNat_eq_ofNat,
    shiftedByte (show 255 < 2 ^ 32 by decide)]
  rfl

/-- The last bytes of a message, its padding and its length in one block. -/
theorem padding_of_lt (hmod : length % 64 = bufferSize) (_ : bufferSize < 56) :
    padding length = 128 :: List.replicate (55 - bufferSize) 0 ++ bigEndian 8 (8 * length) := by
  rw [padding, hmod]
  congr 3
  omega

theorem padding_of_le (hmod : length % 64 = bufferSize) (_ : 56 ≤ bufferSize)
    (_ : bufferSize < 64) :
    padding length = 128 :: List.replicate (63 - bufferSize) 0 ++
      (List.replicate 56 0 ++ bigEndian 8 (8 * length)) := by
  rw [padding, hmod, List.cons_append, List.cons_append, ← List.append_assoc,
    List.replicate_append_replicate]
  congr 3
  omega

section

variable (hholds : Holds hash message)

include hholds

theorem Holds.mod_eq : message.length % 64 = hash.m_bufferSize := by
  have hrest : (absorb 64 compress start message).2.length =
      message.length % 64 := length_rest start (by decide) message
  rw [hholds.absorb_eq] at hrest
  exact hrest.symm.trans hholds.length_pending

theorem storeOne_eq (extra : List UInt8) : storeOne hash.m_bufferSize hash.m_buffer extra =
      .ok (hash.m_buffer.set hash.m_bufferSize 128, extra) := by
  have hlt : hash.m_bufferSize < BlockSize := hholds.bufferSize_lt
  have hbuffer : hash.m_bufferSize < hash.m_buffer.length := by
    rw [hholds.length_buffer]
    exact hlt
  rw [storeOne, if_pos hlt, Memory.store_of_lt hbuffer]
  rfl

/-- The buffer with the one bit, and zeros up to its end. -/
theorem storeAll_zeros : Memory.storeAll (hash.m_buffer.set hash.m_bufferSize 128)
        (hash.m_bufferSize + 1)
        (List.replicate (BlockSize - (hash.m_bufferSize + 1)) 0) =
      .ok (hash.pending ++ 128 :: List.replicate (63 - hash.m_bufferSize) 0) := by
  have hlength := hholds.length_buffer
  have hlt := hholds.bufferSize_lt
  have hcount : BlockSize - (hash.m_bufferSize + 1) = 63 - hash.m_bufferSize := by
    change 64 - (hash.m_bufferSize + 1) = _
    omega
  have hwhole : hash.m_bufferSize + (128 ::
      List.replicate (63 - hash.m_bufferSize) (0 : UInt8)).length = 64 := by
    rw [List.length_cons, List.length_replicate]
    omega
  have hall := Memory.storeAll_of_le (hwhole.trans hlength.symm).le
  rw [Memory.storeAll, Memory.store_of_lt (by omega), hwhole,
    List.drop_of_length_le hlength.le, List.append_nil] at hall
  rw [hcount]
  exact hall

/-- The number of bits of the message, as the last eight bytes. -/
theorem lengthBytes_of_holds : lengthBytes
        (8 * (hash.m_numBytes + BitVec.ofNat 64 hash.m_bufferSize)) =
      bigEndian 8 (8 * message.length) := by
  rw [hholds.numBytes_eq, ← lengthBytes_ofNat, BitVec.ofNat_mul]
  rfl

theorem storeLength_of_lt (hlt : hash.m_bufferSize < 56) (extra : List UInt8) :
    storeLength 56 (8 * (hash.m_numBytes + BitVec.ofNat 64 hash.m_bufferSize))
        (hash.pending ++ 128 :: List.replicate (63 - hash.m_bufferSize) 0)
        extra =
      .ok (hash.pending ++ padding message.length, extra) := by
  have hpending := hholds.length_pending
  have hblock : hash.pending ++ 128 :: List.replicate (63 - hash.m_bufferSize) 0 =
        (hash.pending ++ 128 :: List.replicate (55 - hash.m_bufferSize) 0) ++
          List.replicate 8 0 := by
    rw [List.append_assoc, List.cons_append, List.replicate_append_replicate]
    congr 3
    omega
  have hstart : (hash.pending ++
      128 :: List.replicate (55 - hash.m_bufferSize) (0 : UInt8)).length = 56 := by
    rw [List.length_append, List.length_cons, List.length_replicate]
    omega
  rw [storeLength, if_pos (by decide), lengthBytes_of_holds hholds,
    padding_of_lt hholds.mod_eq hlt, hblock,
    Memory.storeAll_of_le (by
      rw [length_bigEndian, List.length_append, hstart]
      rfl),
    length_bigEndian, List.take_left' hstart,
    List.drop_of_length_le (by
      rw [List.length_append, hstart]
      rfl), List.append_nil, List.append_assoc]
  rfl

theorem storeLength_of_le (buffer : List UInt8) (hextra : extra.length = 64) :
    storeLength 120 (8 * (hash.m_numBytes + BitVec.ofNat 64 hash.m_bufferSize))
        buffer (List.replicate 56 0 ++ extra.drop 56) =
      .ok (buffer, List.replicate 56 0 ++ bigEndian 8 (8 * message.length)) := by
  have hlength : (List.replicate 56 0 ++ extra.drop 56).length = 64 := by
    rw [List.length_append, List.length_replicate, List.length_drop]
    omega
  rw [storeLength, if_neg (by decide), lengthBytes_of_holds hholds]
  change (Memory.storeAll _ 56 _).map _ = _
  rw [Memory.storeAll_of_le (by
      rw [length_bigEndian]
      exact hlength.ge),
    length_bigEndian, List.take_left' List.length_replicate,
    List.drop_of_length_le hlength.le, List.append_nil]
  rfl

/-- `processBuffer` compresses the bytes that wait and the padding; only the
rest of the buffer is overwritten, whatever was in the local array. -/
theorem exists_processBuffer (hextra : extra.length = 64) :
    ∃ buffer, buffer.length = 64 ∧ buffer.take hash.m_bufferSize = hash.pending ∧
      hash.processBuffer extra = .ok { hash with
          m_buffer := buffer
          m_hash := BlockHash.digest 64 compress padding start message } := by
  have hlt := hholds.bufferSize_lt
  have hpending := hholds.length_pending
  have hmod := hholds.mod_eq
  have hmax : max (hash.m_bufferSize + 1) BlockSize = 64 := max_eq_right hlt
  rw [digest_of_absorb hholds.absorb_eq]
  by_cases hshort : hash.m_bufferSize < 56
  · have hpadded : paddedLength hash.m_bufferSize = 56 := by
      rw [paddedLength_eq _ hlt, if_pos hshort]
    have hblock : (hash.pending ++ padding message.length).length = 64 := by
      rw [padding_of_lt hmod hshort, List.length_append, List.length_append,
        List.length_cons, List.length_replicate, length_bigEndian]
      omega
    refine ⟨_, hblock, List.take_left' hpending, ?_⟩
    rw [processBuffer, storeOne_eq hholds]
    change (Memory.storeAll _ _ _ >>= _) = _
    rw [storeAll_zeros hholds, hpadded, hmax]
    change (storeLength 56 _ _ _ >>= _) = _
    rw [storeLength_of_lt hholds hshort]
    change (processBlock _ _ >>= _) = _
    rw [processBlock_eq _ hblock.ge, List.take_of_length_le hblock.le,
      absorb_of_le _ (by decide) hblock.ge,
      absorb_of_lt _ (by rw [List.length_drop]; omega),
      List.take_of_length_le hblock.le]
    rfl
  · have hlong : 56 ≤ hash.m_bufferSize := by omega
    have hpadded : paddedLength hash.m_bufferSize = 120 := by
      rw [paddedLength_eq _ hlt, if_neg hshort]
    obtain ⟨buffer, hbuffer⟩ : ∃ buffer, buffer = hash.pending ++
      128 :: List.replicate (63 - hash.m_bufferSize) 0 := ⟨_, rfl⟩
    have hfirst : buffer.length = 64 := by
      rw [hbuffer, List.length_append, List.length_cons, List.length_replicate]
      omega
    have hsecond : (List.replicate 56 0 ++ bigEndian 8 (8 * message.length)).length = 64 := by
      rw [List.length_append, List.length_replicate, length_bigEndian]
    refine ⟨buffer, hfirst, by rw [hbuffer, List.take_left' hpending], ?_⟩
    rw [processBuffer, storeOne_eq hholds]
    change (Memory.storeAll _ _ _ >>= _) = _
    rw [storeAll_zeros hholds, hpadded, hmax, ← hbuffer]
    change (Memory.storeAll extra 0 (List.replicate 56 0) >>= _) = _
    rw [Memory.storeAll_of_le (by rw [List.length_replicate]; omega)]
    change (storeLength 120 _ buffer (List.replicate 56 0 ++ extra.drop (0 + 56)) >>= _) = _
    rw [Nat.zero_add, storeLength_of_le hholds buffer hextra]
    change (processBlock _ buffer >>= _) = _
    rw [processBlock_eq _ hfirst.ge, List.take_of_length_le hfirst.le]
    simp only [bind, Except.bind]
    rw [processExtra, if_pos (by decide), processBlock_eq _ hsecond.ge,
      List.take_of_length_le hsecond.le, padding_of_le hmod hlong hlt,
      ← List.append_assoc, ← hbuffer,
      absorb_block_append _ (by decide) hfirst,
      absorb_of_le _ (by decide) hsecond.ge,
      absorb_of_lt _ (by rw [List.length_drop]; omega),
      List.take_of_length_le hsecond.le]

/-- A call of the interface.  The calls that give a hash come with what is in
their local array. -/
inductive Call where
  | add (data : List UInt8)
  | reset
  | getHash (extra : List UInt8)
  | hashText (extra text : List UInt8)

def Call.extraWhole : Call → Prop
  | add _ => True
  | reset => True
  | getHash extra => extra.length = 64
  | hashText extra _ => extra.length = 64

/-- What a call gives, and the object after it. -/
def call (hash : SHA256) : Call → Except Hazard (List (Fin 16) × SHA256)
  | .add data => do
      let hash ← hash.add data
      .ok ([], hash)
  | .reset => .ok ([], hash.reset)
  | .getHash extra => hash.getHash extra
  | .hashText extra text => hash.hashText extra text

/-- What the calls of a run give, one after the other. -/
def run (hash : SHA256) : List Call → Except Hazard (List (List (Fin 16)))
  | [] => .ok []
  | first :: calls => do
      let (answer, hash) ← hash.call first
      let answers ← hash.run calls
      .ok (answer :: answers)

def messageAfter (message : List UInt8) : Call → List UInt8
  | .add data => message ++ data
  | .reset => []
  | .getHash _ => message
  | .hashText _ text => text

def hashDigits (message : List UInt8) : List (Fin 16) :=
  (SecureHash.digest message).flatMap hexDigits

def answerOf (message : List UInt8) : Call → List (Fin 16)
  | .add _ => []
  | .reset => []
  | .getHash _ => hashDigits message
  | .hashText _ text => hashDigits text

def answersOf (message : List UInt8) : List Call → List (List (Fin 16))
  | [] => []
  | first :: calls =>
      answerOf message first :: answersOf (messageAfter message first) calls

/-- `getHash` gives the hash of the message, and the object goes on holding
it. -/
theorem exists_getHash (hextra : extra.length = 64) :
    ∃ after, hash.getHash extra = .ok (hashDigits message, after) ∧ Holds after message := by
  obtain ⟨buffer, hlength, htake, hrun⟩ := exists_processBuffer hholds hextra
  refine ⟨{ hash with m_buffer := buffer }, ?_, hlength, hholds.bufferSize_lt,
    ?_, hholds.numBytes_eq⟩
  · rw [getHash, getRawHash, hrun]
    have hbytes : wordBytes = fun word => bigEndian 4 word.toNat :=
      funext wordBytes_eq
    rw [hashDigits, SecureHash.digest, ← hbytes]
    rfl
  · rw [hholds.absorb_eq]
    exact Prod.ext rfl htake.symm

theorem exists_call {first : Call} (hextra : first.extraWhole) :
    ∃ after, hash.call first = .ok (answerOf message first, after) ∧
      Holds after (messageAfter message first) := by
  cases first with
  | add data =>
      obtain ⟨after, hadd, hafter⟩ := exists_add hholds data
      refine ⟨after, ?_, hafter⟩
      rw [call, hadd]
      rfl
  | reset => exact ⟨hash.reset, rfl, holds_reset hholds.length_buffer⟩
  | getHash extra => exact exists_getHash hholds hextra
  | hashText extra text =>
      obtain ⟨added, hadd, hadded⟩ := exists_add (holds_reset hholds.length_buffer) text
      obtain ⟨after, hget, hafter⟩ := exists_getHash hadded hextra
      refine ⟨after, ?_, hafter⟩
      rw [call, hashText, hadd]
      exact hget

/-- Any run of calls returns, inside all its arrays, and every hash in it is
that of the bytes added since the last restart: asking for a hash in between
changes no later one. -/
theorem run_eq_answersOf {calls : List Call} (hextra : ∀ first ∈ calls, first.extraWhole) :
    hash.run calls = .ok (answersOf message calls) := by
  induction calls generalizing hash message with
  | nil => rfl
  | cons first calls ih =>
      obtain ⟨after, hcall, hafter⟩ := exists_call hholds (hextra first List.mem_cons_self)
      rw [run, hcall]
      change (after.run calls >>= _) = _
      rw [ih hafter fun later hlater =>
        hextra later (List.mem_cons_of_mem _ hlater)]
      rfl

end

/-- The constructor, whatever was in the memory of the object. -/
theorem run_constructed {memory : SHA256} {calls : List Call}
    (hbuffer : memory.m_buffer.length = 64)
    (hextra : ∀ first ∈ calls, first.extraWhole) :
    memory.reset.run calls = .ok (answersOf [] calls) :=
  run_eq_answersOf (holds_reset hbuffer) hextra

/-- A text in two parts, with its hash asked for after each. -/
theorem run_parts : ∃ memory : SHA256, memory.reset.run
          [.add [97], .getHash (List.replicate 64 7), .add [98, 99],
            .getHash (List.replicate 64 9)] =
        .ok [[], hashDigits [97], [], hashDigits [97, 98, 99]] := by
  refine ⟨{ m_numBytes := 5, m_bufferSize := 70
            m_buffer := List.replicate 64 1, m_hash := initialHash }, ?_⟩
  refine run_constructed List.length_replicate fun first hfirst => ?_
  simp only [List.mem_cons, List.not_mem_nil, or_false] at hfirst
  rcases hfirst with rfl | rfl | rfl | rfl
  · trivial
  · exact List.length_replicate
  · trivial
  · exact List.length_replicate

end Chkdraft.Scenario.SHA256
