import Chkdraft.Scenario.SectionLoop

/-!
# Reading a written section

What a section body written by `write` becomes when it is read again, into a
new object or over an object that already holds it.  Sections are compared by
what a scenario shows of them: record lists and tiles as they are, structures by
their bytes, string tables by the characters of their ids.
-/

namespace Chkdraft.Scenario

open Binary Chk Sections

variable {body bytes : List UInt8} {offset : ℕ} {content new : Section}

/-- Characters end at the first NUL, and only location id 0 is null. -/
def WellFormed : Section → Prop
  | .str table => NulFree table.strings
  | .kstr table => NulFree (KstrSection.entryChars table.strings)
  | .mrgn locations => ∃ rest : List Location, locations = none :: rest.map some
  | _ => True

theorem nul_not_mem_cString (bytes : List UInt8) (offset : ℕ) :
    (0 : UInt8) ∉ cString bytes offset := by
  intro hmem
  simpa using List.mem_takeWhile_imp hmem

theorem nulFree_loadString {chars : ScStr}
    (hload : (StrSection.loadString bytes offset).1 = some chars) :
    (0 : UInt8) ∉ chars := by
  by_cases hlt : offset < bytes.length
  · rw [StrSection.fst_loadString hlt] at hload
    rw [← Option.some.inj hload]
    exact nul_not_mem_cString bytes offset
  · rw [StrSection.loadString, if_neg hlt] at hload
    cases hload

theorem nulFree_syncBytesToStrings (bytes : List UInt8) :
    NulFree (StrSection.syncBytesToStrings bytes).strings := by
  intro chars hmem
  simp only [StrSection.syncBytesToStrings, List.cons_append, List.mem_cons,
    reduceCtorEq, false_or, List.mem_append, List.mem_map] at hmem
  rcases hmem with ⟨loaded, hloaded, hchars⟩ | hout
  · obtain ⟨index, -, rfl⟩ := List.mem_map.mp hloaded
    exact nulFree_loadString hchars
  · unfold StrSection.outOfBoundsStrings at hout
    simp only at hout
    split at hout
    · split at hout
      · rcases List.mem_cons.mp hout with hchars | hnone
        · exact nulFree_loadString hchars.symm
        · cases List.eq_of_mem_replicate hnone
      · cases List.eq_of_mem_replicate hout
    · cases hout

theorem nulFree_kstr_loadString {chars : ScStr} (hload : (KstrSection.loadString bytes offset).map
      EditorString.chars = some chars) : (0 : UInt8) ∉ chars := by
  unfold KstrSection.loadString at hload
  split at hload
  · rw [← Option.some.inj hload]
    exact nul_not_mem_cString bytes offset
  · cases hload

theorem nulFree_kstr_syncBytesToStrings (bytes : List UInt8) :
    NulFree (KstrSection.entryChars (KstrSection.syncBytesToStrings bytes).strings) := by
  intro chars hmem
  obtain ⟨entry, hentry, hchars⟩ := List.mem_map.mp hmem
  simp only [KstrSection.syncBytesToStrings, List.cons_append, List.mem_cons,
    List.mem_append, List.mem_map] at hentry
  rcases hentry with rfl | ⟨index, -, rfl⟩ | hout
  · cases hchars
  · have hload : (KstrSection.loadString bytes
        (wordAt 4 bytes (4 + 4 * (index + 1)))).map EditorString.chars =
        some chars := by
      rw [← hchars, KstrSection.loadedString]
      split
      · rw [Option.map_map]
        rfl
      · rfl
    exact nulFree_kstr_loadString hload
  · have hfirst : ∀ offset count, entry ∈
        KstrSection.loadString bytes offset :: List.replicate count none →
        (0 : UInt8) ∉ chars := by
      intro offset count hmember
      rcases List.mem_cons.mp hmember with rfl | hnone
      · exact nulFree_kstr_loadString hchars
      · rw [List.eq_of_mem_replicate hnone] at hchars
        cases hchars
    unfold KstrSection.outOfBoundsStrings at hout
    simp only at hout
    split_ifs at hout
    · exact hfirst _ _ hout
    · exact hfirst _ _ hout
    · exact hfirst _ _ hout
    · rw [List.eq_of_mem_replicate hout] at hchars
      cases hchars
    · cases hout

theorem eq_of_ok_eq_ok {S : Type*} {left right : S} {leftSize rightSize : ℕ}
    (heq : (Except.ok (left, leftSize) : Except SectionError (S × ℕ)) =
      .ok (right, rightSize)) : left = right :=
  (Prod.mk.inj (Except.ok.inj heq)).1

/-- A reader leaves a section well formed; one that appends needs a well
formed section to start with. -/
theorem wellFormed_read {size sizeRead : ℕ} {overrideOrAppend : Bool}
    {chk : InputStream} (hold : overrideOrAppend = true → WellFormed content)
    (hresult : (content.read size overrideOrAppend chk).result =
      .ok (new, sizeRead)) : WellFormed new := by
  cases content with
  | str table =>
      obtain ⟨inner, hinner, rfl⟩ := result_map_eq_ok hresult
      unfold StrSection.read at hinner
      split at hinner
      · rw [← eq_of_ok_eq_ok hinner]
        exact nulFree_syncBytesToStrings _
      · split at hinner
        · rw [← eq_of_ok_eq_ok hinner]
          intro chars hmem
          cases hmem
        · rename_i hoverride
          rw [← eq_of_ok_eq_ok hinner]
          exact hold (by simpa using hoverride)
  | kstr table =>
      obtain ⟨inner, hinner, rfl⟩ := result_map_eq_ok hresult
      unfold KstrSection.read at hinner
      split at hinner
      · rw [← eq_of_ok_eq_ok hinner]
        exact nulFree_kstr_syncBytesToStrings _
      · rw [← eq_of_ok_eq_ok hinner]
        intro chars hmem
        cases hmem
  | mrgn locations =>
      obtain ⟨inner, hinner, rfl⟩ := result_map_eq_ok hresult
      unfold readMrgn at hinner
      split at hinner
      · obtain ⟨read, -, rfl⟩ := result_map_eq_ok hinner
        cases overrideOrAppend with
        | false => exact ⟨read, rfl⟩
        | true =>
            obtain ⟨rest, hlocations⟩ := hold rfl
            refine ⟨rest ++ read, ?_⟩
            rw [if_pos rfl, hlocations, List.map_append, List.cons_append]
      · split at hinner
        · rw [← eq_of_ok_eq_ok hinner]
          exact ⟨[], rfl⟩
        · rename_i hoverride
          rw [← eq_of_ok_eq_ok hinner]
          exact hold (by simpa using hoverride)
  | _ =>
      obtain ⟨inner, -, rfl⟩ := result_map_eq_ok hresult
      trivial

/-- A reader takes `body`, wherever it stands in a file, and returns `new`. -/
def TakesBody {S : Type*} (body : List UInt8)
    (reader : InputStream → ReadOutcome S) (new : S) : Prop :=
  ∀ bytes offset rest, bytes.drop offset = body ++ rest → reader (streamAt bytes offset) =
      ⟨streamAt bytes (offset + body.length), .ok (new, body.length), true⟩

theorem TakesBody.map {S T : Type*} {reader : InputStream → ReadOutcome S}
    {new : S} (htakes : TakesBody body reader new) (embed : S → T) :
    TakesBody body (fun chk => (reader chk).map embed) (embed new) := by
  intro bytes offset rest hbody
  simp only [htakes bytes offset rest hbody]
  rfl

/-- A reader that leaves the stream alone takes the empty body. -/
theorem takesBody_nil {S : Type*} {reader : InputStream → ReadOutcome S}
    {new : S} (hreader : ∀ chk, reader chk = ⟨chk, .ok (new, 0), true⟩) :
    TakesBody [] reader new := by
  intro bytes offset rest _
  rw [hreader]
  rfl

theorem read_body {rest : List UInt8} (hbody : bytes.drop offset = body ++ rest) (hne : body ≠ []) :
    (streamAt bytes offset).read body.length = (body, streamAt bytes (offset + body.length)) := by
  have hpos := List.length_pos_iff.mpr hne
  have hlength := congrArg List.length hbody
  rw [List.length_drop, List.length_append] at hlength
  rw [read_streamAt_of_le (by omega), hbody, List.take_left]

theorem takesBody_of_read {S : Type*} (hne : body ≠ [])
    {reader : InputStream → ReadOutcome S} (decode : List UInt8 → S)
    (safe : List UInt8 → Bool)
    (hreader : ∀ chk, reader chk = ⟨(chk.read body.length).2,
        .ok (decode (chk.read body.length).1, (chk.read body.length).1.length),
        safe (chk.read body.length).1⟩) (hsafe : safe body = true) :
    TakesBody body reader (decode body) := by
  intro bytes offset rest hbody
  rw [hreader, read_body hbody hne, hsafe]

section Records

variable {A : Type*} {codec : Codec A}

section

variable (hsize : 0 < codec.size)

include hsize

theorem numRecords_encodeAll (records : List A) :
    numRecords codec (codec.encodeAll records).length = records.length := by
  rw [numRecords, Codec.length_encodeAll, Nat.mul_div_cancel_left _ hsize,
    Nat.mul_mod_right, Nat.add_zero]

theorem encodeAll_ne_nil {records : List A} (hne : records ≠ []) :
    codec.encodeAll records ≠ [] := by
  apply List.ne_nil_of_length_pos
  rw [Codec.length_encodeAll]
  exact Nat.mul_pos hsize (List.length_pos_iff.mpr hne)

theorem takesBody_readRecords {records : List A} (hne : records ≠ []) :
    TakesBody (codec.encodeAll records)
      (readRecords codec (codec.encodeAll records).length) records := by
  have hreader : ∀ chk, readRecords codec (codec.encodeAll records).length chk =
        ⟨(chk.read (codec.encodeAll records).length).2,
          .ok (codec.decodeAll records.length (overwrite
              (List.replicate (codec.size * records.length) 0) 0
              (chk.read (codec.encodeAll records).length).1),
            (chk.read (codec.encodeAll records).length).1.length), true⟩ := by
    intro chk
    rw [readRecords, numRecords_encodeAll hsize]
  have htakes := takesBody_of_read (encodeAll_ne_nil hsize hne)
    (fun extracted => codec.decodeAll records.length (overwrite
      (List.replicate (codec.size * records.length) 0) 0 extracted))
    (fun _ => true) hreader rfl
  have hbuffer : overwrite (List.replicate (codec.size * records.length) 0) 0
      (codec.encodeAll records) = codec.encodeAll records := by
    apply overwrite_zero_of_length_eq
    rw [Codec.length_encodeAll, List.length_replicate]
  rwa [hbuffer, Codec.decodeAll_encodeAll] at htakes

theorem takesBody_readAppendable (old records : List A) (append : Bool) :
    TakesBody (codec.encodeAll records)
      (readAppendable codec (codec.encodeAll records).length append old)
      (if append then old ++ records else records) := by
  by_cases hne : records = []
  · subst hne
    apply takesBody_nil
    intro chk
    cases append with
    | false => rfl
    | true =>
        rw [if_pos rfl, List.append_nil]
        rfl
  · have hpos := List.length_pos_iff.mpr (encodeAll_ne_nil hsize hne)
    intro bytes offset rest hbody
    rw [readAppendable, if_pos hpos, takesBody_readRecords hsize hne bytes offset rest hbody]
    rfl

theorem takesBody_readReplacing (records : List A) : TakesBody (codec.encodeAll records)
      (readReplacing codec (codec.encodeAll records).length) records := by
  by_cases hne : records = []
  · subst hne
    exact takesBody_nil fun chk => rfl
  · have hpos := List.length_pos_iff.mpr (encodeAll_ne_nil hsize hne)
    intro bytes offset rest hbody
    rw [readReplacing, if_pos hpos, takesBody_readRecords hsize hne bytes offset rest hbody]

/-- Tiles read into a new section, or over a section of as many tiles. -/
theorem takesBody_readOverTiles (blank : A) {old tiles : List A}
    {overriding : Bool} (hne : tiles ≠ [])
    (hold : old = [] ∨ old.length = tiles.length) :
    TakesBody (codec.encodeAll tiles)
      (readOverTiles codec blank (codec.encodeAll tiles).length overriding old)
      tiles := by
  have hpos := List.length_pos_iff.mpr hne
  obtain ⟨resized, hresized⟩ : ∃ resized : List A, resized =
      if tiles.length > old.length then
        old ++ List.replicate (tiles.length - old.length) blank
      else if overriding = false ∧ tiles.length < old.length then
        old.take tiles.length
      else old := ⟨_, rfl⟩
  have hlength : resized.length = tiles.length := by
    rw [hresized]
    rcases hold with rfl | heq
    · simp [hpos]
    · simp [heq]
  have hreader : ∀ chk,
      readOverTiles codec blank (codec.encodeAll tiles).length overriding old chk =
        ⟨(chk.read (codec.encodeAll tiles).length).2, .ok (codec.decodeAll resized.length (overwrite
              (overwrite (codec.encodeAll resized) 0
                (List.replicate (codec.encodeAll tiles).length 0)) 0
              (chk.read (codec.encodeAll tiles).length).1),
            (chk.read (codec.encodeAll tiles).length).1.length), true⟩ := by
    intro chk
    rw [readOverTiles, numRecords_encodeAll hsize, ← hresized]
  have htakes := takesBody_of_read (encodeAll_ne_nil hsize hne)
    (fun extracted => codec.decodeAll resized.length (overwrite
      (overwrite (codec.encodeAll resized) 0
        (List.replicate (codec.encodeAll tiles).length 0)) 0 extracted))
    (fun _ => true) hreader rfl
  have hbuffer : overwrite (overwrite (codec.encodeAll resized) 0
      (List.replicate (codec.encodeAll tiles).length 0)) 0
      (codec.encodeAll tiles) = codec.encodeAll tiles := by
    apply overwrite_zero_of_length_eq
    rw [length_overwrite] <;>
      simp only [Codec.length_encodeAll, List.length_replicate, hlength, Nat.zero_add, le_refl]
  rwa [hbuffer, hlength, Codec.decodeAll_encodeAll] at htakes

end

end Records

/-- A table written and read again: into a new section, and over the section
that came out. -/
theorem takesBody_str {table : StrSection} (hwrite : table.write = .ok body) :
    body ≠ [] ∧ TakesBody body (StrSection.empty.read body.length false)
        (StrSection.syncBytesToStrings body) ∧
      TakesBody body ((StrSection.syncBytesToStrings body).read body.length true)
        (StrSection.syncBytesToStrings body) := by
  have hne : body ≠ [] := by
    unfold StrSection.write at hwrite
    cases hsync : StrSection.syncStringsToBytes table.strings with
    | error error => simp [hsync] at hwrite
    | ok stringBytes =>
        obtain ⟨-, rfl⟩ := StrSection.syncStringsToBytes_eq_ok hsync
        simp only [hsync] at hwrite
        rw [← Except.ok.inj hwrite]
        apply List.ne_nil_of_length_pos
        rw [List.length_append, StrSection.length_encodedStrings]
        omega
  have hpos := List.length_pos_iff.mpr hne
  have hoverwrite : ∀ buffer : List UInt8, buffer.length = body.length →
      overwrite (overwrite buffer 0 (List.replicate body.length 0)) 0 body =
        body := by
    intro buffer hbuffer
    apply overwrite_zero_of_length_eq
    rw [length_overwrite] <;> simp [hbuffer]
  -- Either way the vector read into is as long as the body.
  have htakes : ∀ (old : StrSection) (overriding : Bool),
      (StrSection.readBuffer body.length overriding old).length = body.length →
      TakesBody body (old.read body.length overriding) (StrSection.syncBytesToStrings body) := by
    intro old overriding hbuffer
    have hread := takesBody_of_read hne
      (fun extracted => StrSection.syncBytesToStrings (overwrite (overwrite
        (StrSection.readBuffer body.length overriding old) 0
        (List.replicate body.length 0)) 0 extracted))
      (fun _ => true)
      (show ∀ chk, old.read body.length overriding chk = _ by
        intro chk
        rw [StrSection.read, if_pos hpos]) rfl
    simpa only [hoverwrite _ hbuffer] using hread
  refine ⟨hne, htakes _ _ ?_, htakes _ _ ?_⟩
  · simp [StrSection.readBuffer, StrSection.empty, hpos]
  · have hjoin : (StrSection.syncBytesToStrings body).stringBytes ++
        (StrSection.syncBytesToStrings body).tailData = body := by
      simp [StrSection.syncBytesToStrings]
    by_cases htail : (StrSection.syncBytesToStrings body).tailData = []
    · rw [htail, List.append_nil] at hjoin
      simp [StrSection.readBuffer, htail, hjoin]
    · have hlength := List.length_pos_iff.mpr htail
      simp [StrSection.readBuffer, hlength, hjoin]

theorem characters_str_iff {table : StrSection} (hwrite : table.write = .ok body) :
    (StrSection.syncBytesToStrings body).characters = table.characters ↔
      StrSection.ReadsAtStarts table.strings := by
  unfold StrSection.write at hwrite
  cases hsync : StrSection.syncStringsToBytes table.strings with
  | error error => simp [hsync] at hwrite
  | ok stringBytes =>
      obtain ⟨hids, rfl⟩ := StrSection.syncStringsToBytes_eq_ok hsync
      simp only [hsync] at hwrite
      rw [← Except.ok.inj hwrite]
      exact StrSection.characters_syncBytesToStrings_iff hids _

theorem takesBody_kstr {table : KstrSection}
    (hfree : NulFree (KstrSection.entryChars table.strings))
    (hwrite : table.write = .ok body) :
    TakesBody body (KstrSection.default.read body.length) (KstrSection.syncBytesToStrings body) ∧
      (KstrSection.syncBytesToStrings body).characters = table.characters ∧
      (KstrSection.syncBytesToStrings body).version =
        KstrSection.currentVersion := by
  have hfreeTail : NulFree (KstrSection.entryChars table.strings.tail) := by
    intro chars hmem
    apply hfree
    rw [KstrSection.entryChars, List.map_tail] at hmem
    exact List.mem_of_mem_tail hmem
  obtain ⟨hcharacters, hversion, hinside, hpos⟩ :=
    KstrSection.syncBytesToStrings_syncStringsToBytes hfreeTail hwrite
  have hbuffer : overwrite (List.replicate body.length 0) 0 body = body :=
    overwrite_zero_of_length_eq (by simp)
  have hread := takesBody_of_read (List.length_pos_iff.mp hpos)
    (fun extracted => KstrSection.syncBytesToStrings
      (overwrite (List.replicate body.length 0) 0 extracted))
    (fun extracted => KstrSection.readsInside
      (overwrite (List.replicate body.length 0) 0 extracted))
    (show ∀ chk, KstrSection.default.read body.length chk = _ by
      intro chk
      rw [KstrSection.read, if_pos hpos])
    (by rw [hbuffer]; exact hinside)
  rw [hbuffer] at hread
  exact ⟨hread, hcharacters, hversion⟩

/-- What a section becomes when it is saved and loaded: record lists, tiles and
unknown sections stay as they are, structures keep their bytes, and string
tables the characters of their ids, as far as 16-bit offsets reach. -/
def ReloadsTo : Section → Section → Prop
  | .struct old, .struct new =>
      new.name = old.name ∧ new.rawData = old.write ∧ new.dataValid = true
  | .str old, .str new =>
      new.characters = old.characters ↔ StrSection.ReadsAtStarts old.strings
  | .kstr old, .kstr new =>
      new.characters = old.characters ∧ new.version = KstrSection.currentVersion
  | old, new => new = old

/-- The records a section appends to when its name occurs again. -/
def appendedRecords : Section → ℕ
  | .unit units => units.length
  | .thg2 sprites => sprites.length
  | .trig triggers => triggers.length
  | .mbrf triggers => triggers.length
  | _ => 0

/-- A body is read into a new section as `new`, and into that section again
without changing it when it is overridden or appends nothing. -/
structure Reload (content : Section) (body : List UInt8) (new : Section) : Prop where
  reloadsTo : ReloadsTo content new
  name_eq : new.name = content.name
  takesBody : TakesBody body ((Section.allocate content.name).read body.length false) new
  repeated : appendedRecords content = 0 → content.name.loadBehavior ≠ .standard →
    TakesBody body (new.read body.length true) new

theorem reload_struct (content : StructSection) :
    ∃ new, Reload (.struct content) content.write new := by
  have hlength := content.length_write
  have hne : content.write ≠ [] := by
    apply List.ne_nil_of_length_pos
    rw [hlength]
    cases content.name <;> decide
  have hbuffer : overwrite (List.replicate (max content.name.size content.write.length) 0) 0
      content.write = content.write := by
    apply overwrite_zero_of_length_eq
    rw [hlength, Nat.max_self, List.length_replicate]
  have htakes : TakesBody content.write (StructSection.read content.write.length content.name true)
      ⟨content.name, content.write, true, hlength.ge⟩ := by
    intro bytes offset rest hbody
    have hread := read_body hbody hne
    rw [hlength] at hread hbuffer
    simp only [StructSection.read, hlength, hread, hbuffer, le_refl, decide_true, Bool.and_true]
  exact ⟨.struct ⟨content.name, content.write, true, hlength.ge⟩,
    ⟨rfl, rfl, rfl⟩, rfl, htakes.map Section.struct,
    fun _ hstandard => absurd rfl hstandard⟩

theorem reload_data (code : UInt32) (bytes : List UInt8) :
    ∃ new, Reload (.data code bytes) bytes new := by
  have htakes : TakesBody bytes (Section.readData bytes.length) bytes := by
    by_cases hne : bytes = []
    · subst hne
      exact takesBody_nil fun chk => rfl
    · have hread := takesBody_of_read hne (fun extracted =>
          overwrite (List.replicate bytes.length 0) 0 extracted)
        (fun _ => true)
        (show ∀ chk, Section.readData bytes.length chk = _ by
          intro chk
          rw [Section.readData, if_pos (List.length_pos_iff.mpr hne)]) rfl
      rwa [overwrite_zero_of_length_eq (by simp)] at hread
  exact ⟨.data code bytes, rfl, rfl, htakes.map _, fun _ hstandard => absurd rfl hstandard⟩

theorem reload_mrgn {locations : List (Option Location)} (hformed : WellFormed (.mrgn locations))
    (hwrite : writeMrgn locations = .ok body) :
    ∃ new, Reload (.mrgn locations) body new := by
  obtain ⟨rest, rfl⟩ := hformed
  have hbody : body = locationCodec.encodeAll rest := by
    have hsome : (rest.map some).filterMap id = rest := by
      rw [List.filterMap_map]
      exact List.filterMap_some
    rw [writeMrgn, List.tail_cons, if_pos (by simp), hsome] at hwrite
    exact (Except.ok.inj hwrite).symm
  subst hbody
  refine ⟨.mrgn (none :: rest.map some), rfl, rfl, ?_, fun _ hstandard => absurd rfl hstandard⟩
  have htakes : TakesBody (locationCodec.encodeAll rest)
      (readMrgn (locationCodec.encodeAll rest).length false [])
      (none :: rest.map some) := by
    by_cases hne : rest = []
    · subst hne
      exact takesBody_nil fun chk => rfl
    · have hsize : 0 < locationCodec.size := by decide
      intro bytes offset after hbytes
      rw [readMrgn, if_pos (List.length_pos_iff.mpr (encodeAll_ne_nil hsize hne)),
        takesBody_readRecords hsize hne bytes offset after hbytes]
      rfl
  exact htakes.map Section.mrgn

/-- Tiles are read back into a new section and over themselves. -/
theorem reload_mtxm (tiles : List UInt16) :
    ∃ new, Reload (.mtxm tiles) (Codec.u16.encodeAll tiles) new := by
  have hsize : 0 < Codec.u16.size := by decide
  have htakes : ∀ (old : List UInt16) (overriding : Bool),
      (old = [] ∧ overriding = false ∨ old = tiles ∧ overriding = true) →
      TakesBody (Codec.u16.encodeAll tiles)
        (readMtxm (Codec.u16.encodeAll tiles).length overriding old)
        tiles := by
    intro old overriding hold
    by_cases hne : tiles = []
    · subst hne
      apply takesBody_nil
      intro chk
      rcases hold with ⟨rfl, rfl⟩ | ⟨rfl, rfl⟩ <;> rfl
    · intro bytes offset rest hbytes
      rw [readMtxm, if_pos (List.length_pos_iff.mpr (encodeAll_ne_nil hsize hne))]
      apply takesBody_readOverTiles hsize 0 hne _ bytes offset rest hbytes
      rcases hold with ⟨rfl, -⟩ | ⟨rfl, -⟩
      · exact Or.inl rfl
      · exact Or.inr rfl
  exact ⟨.mtxm tiles, rfl, rfl, (htakes [] false (Or.inl ⟨rfl, rfl⟩)).map Section.mtxm,
    fun _ _ => (htakes tiles true (Or.inr ⟨rfl, rfl⟩)).map Section.mtxm⟩

theorem takesBody_tile {A : Type*} {codec : Codec A} (hsize : 0 < codec.size)
    (blank : A) (tiles : List A) :
    TakesBody (codec.encodeAll tiles) (fun chk =>
      if (codec.encodeAll tiles).length > 0 then
        readOverTiles codec blank (codec.encodeAll tiles).length false [] chk
      else ⟨chk, .ok ([], 0), true⟩) tiles := by
  by_cases hne : tiles = []
  · subst hne
    exact takesBody_nil fun chk => rfl
  · intro bytes offset rest hbytes
    simp only [if_pos (List.length_pos_iff.mpr (encodeAll_ne_nil hsize hne))]
    exact takesBody_readOverTiles hsize blank hne (Or.inl rfl) bytes offset rest hbytes

/-- Records that append: read again they double, unless there are none. -/
theorem reload_records {A : Type*} {codec : Codec A} (hsize : 0 < codec.size)
    {embed : List A → Section} (records : List A)
    (hreload : ReloadsTo (embed records) (embed records))
    (hallocate : Section.allocate (embed records).name = embed [])
    (hread : ∀ size append old chk, (embed old).read size append chk =
      (readAppendable codec size append old chk).map embed)
    (hcount : appendedRecords (embed records) = records.length) :
    ∃ new, Reload (embed records) (codec.encodeAll records) new := by
  refine ⟨embed records, hreload, rfl, ?_, ?_⟩
  · intro bytes offset rest hbytes
    rw [hallocate, hread, takesBody_readAppendable hsize [] records false bytes offset rest hbytes]
    rfl
  · intro hnone _
    rw [hcount] at hnone
    rw [List.length_eq_zero_iff.mp hnone]
    intro bytes offset rest hbytes
    rw [hread]
    rfl

theorem exists_reload (hformed : WellFormed content)
    (hktrg : content.name ≠ .ktrg) (hktgp : content.name ≠ .ktgp)
    (hwrite : content.write = .ok body) : ∃ new, Reload content body new := by
  cases content with
  | ktrg table => exact absurd rfl hktrg
  | ktgp table => exact absurd rfl hktgp
  | struct content =>
      rw [← Except.ok.inj hwrite]
      exact reload_struct content
  | data code bytes =>
      rw [← Except.ok.inj hwrite]
      exact reload_data code bytes
  | mtxm tiles =>
      rw [← Except.ok.inj hwrite]
      exact reload_mtxm tiles
  | mrgn locations => exact reload_mrgn hformed hwrite
  | str table =>
      obtain ⟨-, hfresh, hagain⟩ := takesBody_str hwrite
      exact ⟨.str (StrSection.syncBytesToStrings body), characters_str_iff hwrite, rfl,
        hfresh.map Section.str, fun _ _ => hagain.map Section.str⟩
  | kstr table =>
      obtain ⟨hfresh, hcharacters, hversion⟩ := takesBody_kstr hformed hwrite
      exact ⟨.kstr (KstrSection.syncBytesToStrings body),
        ⟨hcharacters, hversion⟩, rfl, hfresh.map Section.kstr,
        fun _ hstandard => absurd rfl hstandard⟩
  | unit units =>
      rw [← Except.ok.inj hwrite]
      exact reload_records (by decide) units rfl rfl (fun _ _ _ _ => rfl) rfl
  | thg2 sprites =>
      rw [← Except.ok.inj hwrite]
      exact reload_records (by decide) sprites rfl rfl (fun _ _ _ _ => rfl) rfl
  | trig triggers =>
      rw [← Except.ok.inj hwrite]
      exact reload_records (by decide) triggers rfl rfl (fun _ _ _ _ => rfl)
        rfl
  | mbrf triggers =>
      rw [← Except.ok.inj hwrite]
      exact reload_records (by decide) triggers rfl rfl (fun _ _ _ _ => rfl)
        rfl
  | isom entries =>
      rw [← Except.ok.inj hwrite]
      exact ⟨.isom entries, rfl, rfl,
        (takesBody_readReplacing (by decide) entries).map Section.isom,
        fun _ hstandard => absurd rfl hstandard⟩
  | dd2 doodads =>
      rw [← Except.ok.inj hwrite]
      exact ⟨.dd2 doodads, rfl, rfl, (takesBody_readReplacing (by decide) doodads).map Section.dd2,
        fun _ hstandard => absurd rfl hstandard⟩
  | tile tiles =>
      rw [← Except.ok.inj hwrite]
      exact ⟨.tile tiles, rfl, rfl, (takesBody_tile (by decide) 0 tiles).map Section.tile,
        fun _ hstandard => absurd rfl hstandard⟩
  | mask fogTiles =>
      rw [← Except.ok.inj hwrite]
      exact ⟨.mask fogTiles, rfl, rfl, (takesBody_tile (by decide) 0 fogTiles).map Section.mask,
        fun _ hstandard => absurd rfl hstandard⟩

theorem appendedRecords_of_reloadsTo (hname : new.name = content.name)
    (hreload : ReloadsTo content new) :
    appendedRecords new = appendedRecords content := by
  cases content with
  | struct | str | kstr =>
      cases new with
      | struct | str | kstr => rfl
      | _ => cases hname
  | _ => rw [show new = _ from hreload]

/-- Reading the records of a section once more appends them. -/
theorem takesBody_appended {old : Section} (hwrite : content.write = .ok body)
    (hname : old.name = content.name) (hrecords : appendedRecords content ≠ 0) :
    ∃ joined, TakesBody body (old.read body.length true) joined ∧ joined.name = content.name ∧
      appendedRecords joined = appendedRecords old + appendedRecords content ∧
      ∀ saved before, content = .trig saved → old = .trig before →
        joined = .trig (before ++ saved) := by
  cases content with
  | unit units =>
      cases old with
      | unit before =>
          rw [← Except.ok.inj hwrite]
          exact ⟨_, (takesBody_readAppendable (by decide) before units
            true).map Section.unit, rfl, List.length_append, by simp⟩
      | _ => cases hname
  | thg2 sprites =>
      cases old with
      | thg2 before =>
          rw [← Except.ok.inj hwrite]
          exact ⟨_, (takesBody_readAppendable (by decide) before sprites
            true).map Section.thg2, rfl, List.length_append, by simp⟩
      | _ => cases hname
  | trig triggers =>
      cases old with
      | trig before =>
          rw [← Except.ok.inj hwrite]
          exact ⟨_, (takesBody_readAppendable (by decide) before triggers
            true).map Section.trig, rfl, List.length_append, by
              rintro _ _ ⟨⟩ ⟨⟩
              rfl⟩
      | _ => cases hname
  | mbrf triggers =>
      cases old with
      | mbrf before =>
          rw [← Except.ok.inj hwrite]
          exact ⟨_, (takesBody_readAppendable (by decide) before triggers
            true).map Section.mbrf, rfl, List.length_append, by simp⟩
      | _ => cases hname
  | _ => exact absurd rfl hrecords

/-- What a saved section has become when its body was read `count` times into
one object: its records are there as often, and a section without records is as
if it had been read once. -/
structure Reread (count : ℕ) (content : Section) (body : List UInt8) (new : Section) : Prop where
  name_eq : new.name = content.name
  records_eq : appendedRecords new = count * appendedRecords content
  reload : count = 1 ∨ appendedRecords content = 0 → Reload content body new
  triggers : ∀ saved, content = .trig saved → new = .trig (List.replicate count saved).flatten

theorem Reload.reread (hreload : Reload content body new) : Reread 1 content body new where
  name_eq := hreload.name_eq
  records_eq := by
    rw [Nat.one_mul]
    exact appendedRecords_of_reloadsTo hreload.name_eq hreload.reloadsTo
  reload := fun _ => hreload
  triggers := by
    rintro saved rfl
    rw [show new = .trig saved from hreload.reloadsTo]
    simp

theorem Reread.again {count : ℕ} (hreread : Reread count content body new)
    (hcount : 0 < count) (hwrite : content.write = .ok body)
    (hbehavior : content.name.loadBehavior ≠ .standard) :
    ∃ next, TakesBody body (new.read body.length true) next ∧
      Reread (count + 1) content body next := by
  by_cases hrecords : appendedRecords content = 0
  · have hreload := hreread.reload (Or.inr hrecords)
    refine ⟨new, hreload.repeated hrecords hbehavior, hreread.name_eq, ?_, fun _ => hreload, ?_⟩
    · rw [hreread.records_eq, hrecords, Nat.mul_zero, Nat.mul_zero]
    · rintro saved rfl
      obtain rfl := List.length_eq_zero_iff.mp hrecords
      rw [hreread.triggers [] rfl]
      simp
  · obtain ⟨joined, htakes, hname, hjoined, htriggers⟩ :=
      takesBody_appended hwrite hreread.name_eq hrecords
    refine ⟨joined, htakes, hname, ?_, ?_, ?_⟩
    · rw [hjoined, hreread.records_eq, Nat.succ_mul]
    · rintro (hone | hnone)
      · omega
      · exact absurd hnone hrecords
    · intro saved hsaved
      rw [htriggers saved _ hsaved (hreread.triggers saved hsaved),
        List.replicate_succ', List.flatten_concat]

end Chkdraft.Scenario
