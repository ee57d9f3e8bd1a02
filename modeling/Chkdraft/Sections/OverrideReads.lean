import Chkdraft.Sections.BodyRoundTrip

/-!
# Sections that are read again

MTXM and STR may occur several times in a file; each occurrence is read over
the section that is already there.  The bytes of a later body replace the first
bytes of an earlier one and the others stay, as if the file had held one body
with the later bytes laid over the earlier ones.
-/

namespace Chkdraft.Sections

open Binary

/-- A later body laid over an earlier one. -/
def overlaid (earlier later : List UInt8) : List UInt8 := later ++ earlier.drop later.length

theorem length_overlaid (earlier later : List UInt8) :
    (overlaid earlier later).length = max earlier.length later.length := by
  rw [overlaid, List.length_append, List.length_drop]
  omega

/-- The bytes a body is read over, which are zeroed first. -/
theorem overwrite_zeroed (buffer body : List UInt8) :
    overwrite (overwrite buffer 0 (List.replicate body.length 0)) 0 body =
      overlaid buffer body := by
  rw [overwrite_zero, overwrite_zero, List.length_replicate, overlaid,
    List.drop_left' List.length_replicate]

/-- The bytes of the tiles that hold a body. -/
def tileBytes (body : List UInt8) : List UInt8 := body ++ List.replicate (body.length % 2) 0

theorem length_tileBytes (body : List UInt8) :
    (tileBytes body).length = body.length + body.length % 2 := by
  rw [tileBytes, List.length_append, List.length_replicate]

theorem encodeAll_u16_append_zeros (tiles : List UInt16) (count : ℕ) :
    Codec.u16.encodeAll (tiles ++ List.replicate count 0) =
      Codec.u16.encodeAll tiles ++ List.replicate (2 * count) 0 := by
  induction tiles with
  | nil =>
      induction count with
      | zero => rfl
      | succ count ih =>
          rw [List.nil_append] at ih ⊢
          rw [List.replicate_succ, Codec.encodeAll_cons, ih, Nat.mul_succ,
            Nat.add_comm, List.replicate_add]
          rfl
  | cons tile rest ih =>
      rw [List.cons_append, Codec.encodeAll_cons, ih, Codec.encodeAll_cons, List.append_assoc]

/-- The tiles allocated for a body hold it and at most one byte more. -/
theorem two_mul_numRecords (size : ℕ) : 2 * numRecords Codec.u16 size = size + size % 2 := by
  rw [numRecords, Codec.size_u16]
  omega

theorem encodeAll_u16_injective : Function.Injective Codec.u16.encodeAll := by
  intro left right heq
  have hlength := congrArg List.length heq
  rw [Codec.length_encodeAll, Codec.length_encodeAll, Codec.size_u16] at hlength
  have hcount : left.length = right.length := by omega
  rw [← Codec.u16.decodeAll_encodeAll left, heq, hcount, Codec.u16.decodeAll_encodeAll]

/-- What reading a body over tiles whose bytes are `old` leaves as bytes. -/
theorem result_readOverTiles (body rest : List UInt8) (overriding : Bool)
    (tiles : List UInt16) {old : List UInt8} {resized : List UInt16}
    (hresized : resized =
      if numRecords Codec.u16 body.length > tiles.length then
        tiles ++ List.replicate (numRecords Codec.u16 body.length - tiles.length) 0
      else if overriding = false ∧ numRecords Codec.u16 body.length < tiles.length then
        tiles.take (numRecords Codec.u16 body.length)
      else
        tiles)
    (hold : Codec.u16.encodeAll resized = old)
    (hle : body.length ≤ old.length) :
    ∃ read, (readOverTiles Codec.u16 0 body.length overriding tiles
        (InputStream.ofBytes (body ++ rest))).result = .ok (read, body.length) ∧
      Codec.u16.encodeAll read = overlaid old body := by
  have hbody := fst_read_ofBytes_append body rest
  have hlength : (overlaid old body).length = Codec.u16.size * resized.length := by
    rw [length_overlaid, ← Codec.length_encodeAll, hold]
    omega
  refine ⟨Codec.u16.decodeAll resized.length (overlaid old body), ?_,
    Codec.u16.encodeAll_decodeAll _ _ hlength⟩
  simp only [readOverTiles, hbody, ← hresized, hold, overwrite_zeroed]

theorem result_readMtxm_fresh (body rest : List UInt8) : ∃ tiles, (readMtxm body.length false []
        (InputStream.ofBytes (body ++ rest))).result = .ok (tiles, body.length) ∧
      Codec.u16.encodeAll tiles = tileBytes body := by
  rcases List.eq_nil_or_concat body with rfl | ⟨front, last, rfl⟩
  · exact ⟨[], rfl, rfl⟩
  · generalize hbody : front.concat last = body
    have hpos : body.length > 0 := by
      rw [← hbody]
      simp
    have hcount := two_mul_numRecords body.length
    have hold : Codec.u16.encodeAll (List.replicate (numRecords Codec.u16 body.length) 0) =
        List.replicate (body.length + body.length % 2) 0 := by
      rw [← hcount]
      exact encodeAll_u16_append_zeros [] _
    obtain ⟨tiles, hread, htiles⟩ := result_readOverTiles body rest false []
      (by rw [if_pos (by rw [List.length_nil]; omega)]; rfl) hold
      (by rw [List.length_replicate]; omega)
    refine ⟨tiles, ?_, ?_⟩
    · rw [readMtxm, if_pos hpos, hread]
    · rw [htiles, overlaid, List.drop_replicate, tileBytes, Nat.add_sub_cancel_left]

/-- A later MTXM section of a file, over tiles that hold an earlier one. -/
theorem result_readMtxm_over {earlier : List UInt8} {tiles : List UInt16}
    (htiles : Codec.u16.encodeAll tiles = tileBytes earlier)
    (body rest : List UInt8) :
    ∃ read, (readMtxm body.length true tiles
        (InputStream.ofBytes (body ++ rest))).result = .ok (read, body.length) ∧
      Codec.u16.encodeAll read = tileBytes (overlaid earlier body) := by
  rcases List.eq_nil_or_concat body with rfl | ⟨front, last, rfl⟩
  · exact ⟨tiles, rfl, htiles⟩
  · generalize hbody : front.concat last = body
    have hpos : body.length > 0 := by
      rw [← hbody]
      simp
    have hcount := two_mul_numRecords body.length
    have hlength : 2 * tiles.length = earlier.length + earlier.length % 2 := by
      rw [← length_tileBytes, ← htiles, Codec.length_encodeAll, Codec.size_u16]
    -- The tiles hold the earlier body and zeros up to the longer of the two.
    obtain ⟨resized, hresized⟩ : ∃ resized, resized =
        if numRecords Codec.u16 body.length > tiles.length then
          tiles ++ List.replicate (numRecords Codec.u16 body.length - tiles.length) 0
        else if true = false ∧ numRecords Codec.u16 body.length < tiles.length then
          tiles.take (numRecords Codec.u16 body.length)
        else
          tiles := ⟨_, rfl⟩
    have hold : Codec.u16.encodeAll resized = earlier ++ List.replicate
        (max (2 * tiles.length) (2 * numRecords Codec.u16 body.length) - earlier.length) 0 := by
      rw [hresized]
      split
      · rw [encodeAll_u16_append_zeros, htiles, tileBytes, List.append_assoc,
          List.replicate_append_replicate]
        congr 2
        omega
      · rw [if_neg (by simp), htiles, tileBytes]
        congr 2
        omega
    obtain ⟨read, hread, hencode⟩ := result_readOverTiles body rest true tiles hresized hold (by
        rw [List.length_append, List.length_replicate]
        omega)
    refine ⟨read, ?_, ?_⟩
    · rw [readMtxm, if_pos hpos, hread]
    · rw [hencode, tileBytes, length_overlaid, overlaid, overlaid,
        List.drop_append, List.drop_replicate, List.append_assoc]
      congr 3
      omega

namespace StrSection

/-- The table a first STR section of a file is read into. -/
def ofBody (body : List UInt8) : StrSection :=
  if body.length > 0 then syncBytesToStrings body else empty

/-- No byte of the body is lost between characters and tail data. -/
theorem stringBytes_append_tailData (body : List UInt8) :
    (ofBody body).stringBytes ++ (ofBody body).tailData = body := by
  unfold ofBody
  split
  · exact List.take_append_drop _ body
  · rename_i hempty
    rw [List.length_eq_zero_iff.mp (Nat.eq_zero_of_not_pos hempty)]
    rfl

theorem readBuffer_ofBody (size : ℕ) (earlier : List UInt8) :
    readBuffer size true (ofBody earlier) =
      earlier ++ List.replicate (size - earlier.length) 0 := by
  have hwhole : (if true = true ∧ (ofBody earlier).tailData.length > 0 then
      (ofBody earlier).stringBytes ++ (ofBody earlier).tailData
      else (ofBody earlier).stringBytes) = earlier := by
    have happend := stringBytes_append_tailData earlier
    split
    · exact happend
    · rename_i hnone
      have htail : (ofBody earlier).tailData = [] := by
        apply List.length_eq_zero_iff.mp
        simpa using hnone
      rwa [htail, List.append_nil] at happend
  unfold readBuffer
  dsimp only
  rw [hwhole]
  split
  · rfl
  · rename_i hle
    rw [if_neg (by simp), Nat.sub_eq_zero_of_le (not_lt.mp hle),
      List.replicate_zero, List.append_nil]

theorem result_read_fresh (body rest : List UInt8) : (empty.read body.length false
      (InputStream.ofBytes (body ++ rest))).result = .ok (ofBody body, body.length) := by
  rcases Nat.eq_zero_or_pos body.length with hzero | hpos
  · rw [List.length_eq_zero_iff.mp hzero]
    rfl
  · have hbody := fst_read_ofBytes_append body rest
    have hbuffer : readBuffer body.length false empty = List.replicate body.length 0 := by
      simp [readBuffer, empty, hpos]
    rw [read, if_pos hpos, hbuffer]
    simp only [hbody, overwrite_zeroed, overlaid,
      List.drop_eq_nil_of_le (List.length_replicate).le, List.append_nil,
      ofBody, if_pos hpos]

theorem result_read_over (earlier body rest : List UInt8) :
    ((ofBody earlier).read body.length true (InputStream.ofBytes (body ++ rest))).result =
        .ok (ofBody (overlaid earlier body), body.length) := by
  rcases Nat.eq_zero_or_pos body.length with hzero | hpos
  · rw [List.length_eq_zero_iff.mp hzero]
    rfl
  · have hbody := fst_read_ofBytes_append body rest
    have hzeros : (List.replicate (body.length - earlier.length)
        (0 : UInt8)).drop (body.length - earlier.length) = [] :=
      List.drop_eq_nil_of_le (List.length_replicate).le
    have hlater : (overlaid earlier body).length > 0 := by
      rw [length_overlaid]
      omega
    rw [read, if_pos hpos, readBuffer_ofBody]
    simp only [hbody, overwrite_zeroed, ofBody, if_pos hlater]
    rw [overlaid, List.drop_append, hzeros, List.append_nil, overlaid]

end StrSection

/-- Reading a body into a new section and another over it leaves the section
that reading the overlaid body once leaves. -/
theorem read_override_eq_overlaid (name : SectionName) (hoverride : name.loadBehavior = .override)
    (earlier later afterEarlier afterLater afterOverlaid : List UInt8) :
    ∃ first second, ((Section.allocate name).read earlier.length false
        (InputStream.ofBytes (earlier ++ afterEarlier))).result = .ok (first, earlier.length) ∧
      (first.read later.length true (InputStream.ofBytes (later ++ afterLater))).result =
          .ok (second, later.length) ∧
      ((Section.allocate name).read (overlaid earlier later).length false
        (InputStream.ofBytes (overlaid earlier later ++ afterOverlaid))).result =
          .ok (second, (overlaid earlier later).length) := by
  cases name with
  | mtxm =>
      obtain ⟨tiles, hfirst, htiles⟩ := result_readMtxm_fresh earlier afterEarlier
      obtain ⟨read, hsecond, hread⟩ := result_readMtxm_over htiles later afterLater
      obtain ⟨once, honce, hbytes⟩ := result_readMtxm_fresh (overlaid earlier later) afterOverlaid
      have hsame : once = read := encodeAll_u16_injective (hbytes.trans hread.symm)
      rw [hsame] at honce
      exact ⟨.mtxm tiles, .mtxm read, congrArg (Except.map _) hfirst,
        congrArg (Except.map _) hsecond, congrArg (Except.map _) honce⟩
  | str =>
      have hfirst := StrSection.result_read_fresh earlier afterEarlier
      have hsecond := StrSection.result_read_over earlier later afterLater
      have honce := StrSection.result_read_fresh (overlaid earlier later) afterOverlaid
      exact ⟨.str _, .str _, congrArg (Except.map _) hfirst,
        congrArg (Except.map _) hsecond, congrArg (Except.map _) honce⟩
  | struct name => cases hoverride
  | unit => cases hoverride
  | isom => cases hoverride
  | tile => cases hoverride
  | dd2 => cases hoverride
  | thg2 => cases hoverride
  | mask => cases hoverride
  | mrgn => cases hoverride
  | trig => cases hoverride
  | mbrf => cases hoverride
  | kstr => cases hoverride
  | ktrg => cases hoverride
  | ktgp => cases hoverride
  | data code => cases hoverride

/-- Five bytes of tiles, then three over them. -/
theorem read_override_mtxm : SectionName.loadBehavior .mtxm = .override ∧
      ∃ first second, ((Section.allocate .mtxm).read 5 false
          (InputStream.ofBytes [1, 2, 3, 4, 5])).result = .ok (first, 5) ∧
        (first.read 3 true (InputStream.ofBytes [6, 7, 8])).result = .ok (second, 3) ∧
        ((Section.allocate .mtxm).read 5 false
          (InputStream.ofBytes [6, 7, 8, 4, 5])).result = .ok (second, 5) :=
  ⟨rfl, read_override_eq_overlaid .mtxm rfl [1, 2, 3, 4, 5] [6, 7, 8] [] [] []⟩

end Chkdraft.Sections
