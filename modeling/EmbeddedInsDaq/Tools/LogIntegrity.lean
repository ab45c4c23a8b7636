import EmbeddedInsDaq.Logging.RecordChecksum
import EmbeddedInsDaq.Tools.LogPrefix

/-!
# The checksum of a log

The CRC-32 that both ends compute is the one of the standard (`crc32_agrees`). In a log it shows
every burst of at most four bytes that leaves the payload length alone (`parse_binary_log_burst`),
and it makes up for the two words that the decoder drops: the parser's list determines the log
(`parse_binary_log_injective`).
-/

namespace EmbeddedInsDaq

open Bytes Crc

/-! ## One checksum -/

/-- **Agreement.** Chained as `build_record` does or taken at once, the table-driven checksum is the
bit-at-a-time one, and so is the one that the parser chains. -/
theorem crc32_agrees (a b : List UInt8) :
    (~~~ crc32Update (~~~ crc32Bytes a) b).toBitVec = checksum crc32Poly (a ++ b) ∧
      (crc32Bytes (a ++ b)).toBitVec = checksum crc32Poly (a ++ b) ∧
      zlibCrc32 b (zlibCrc32 a 0) = checksum crc32Poly (a ++ b) := by
  refine ⟨?_, toBitVec_crc32Bytes _, not_update_not_checksum crc32Poly a b⟩
  rw [not_crc32Update_not_crc32Bytes, toBitVec_crc32Bytes]

/-! ## Bursts -/

/-- The bytes of a record in which a burst is looked at: the type and version, the timestamp and
source id, the checksum, or the payload. -/
def BurstRegion (r : LogRecord) (off n : ℕ) : Prop :=
  off + n ≤ 4 ∨ (8 ≤ off ∧ off + n ≤ 20) ∨ (20 ≤ off ∧ off + n ≤ 24) ∨
    (24 ≤ off ∧ off + n ≤ 24 + r.payload.length)

theorem checksum_splice_ne {bs ys : List UInt8} {off : ℕ} (hfits : off + ys.length ≤ bs.length)
    (hshort : ys.length ≤ 4) (hne : splice bs off ys ≠ bs) :
    checksum crc32Poly (splice bs off ys) ≠ checksum crc32Poly bs := by
  have hslice : ys ≠ slice off ys.length bs := fun h => hne (splice_eq_self_iff.mpr h.symm)
  have hburst := checksum_burst_ne crc32Poly_top (length_slice hfits).symm (by omega) hslice
    (bs.take off) (bs.drop (off + ys.length))
  rwa [take_append_slice_append_drop, ← List.append_assoc] at hburst

theorem parseBinaryLog_mismatch (rs : List LogRecord) {fields crc payload : List UInt8}
    (hfields : fields.length = 20) (hcrc : crc.length = 4)
    (hpayload : field 4 4 fields = payload.length)
    (hne : (checksum crc32Poly (fields ++ payload)).toNat ≠ leNat crc) (rest : List UInt8) :
    parseBinaryLog (logBytes rs ++ (fields ++ crc ++ payload ++ rest)) =
      .error (.crcMismatch (logBytes rs).length
        (checksum crc32Poly (fields ++ payload)).toNat (leNat crc)) := by
  have hheader : (fields ++ crc).length = headerStructSize := by
    rw [List.length_append, hfields, hcrc]
    rfl
  have hlength : (unpackHeader (fields ++ crc)).payloadLength = payload.length := by
    rw [← hpayload]
    exact field_append_left (by omega)
  have hgot : (unpackHeader (fields ++ crc)).crc32 = leNat crc := by
    show field 20 4 (fields ++ crc) = leNat crc
    rw [field_append_right hfields.le, hfields, field, slice_zero_self hcrc.symm]
  have hexpected : expectedCrc (fields ++ crc) payload =
      (checksum crc32Poly (fields ++ payload)).toNat := by
    rw [expectedCrc_eq, hheader]
    show (checksum crc32Poly ((fields ++ crc).take 20 ++ payload)).toNat = _
    rw [List.take_left' hfields]
  have hdecode : decodeChecked (0 + (logBytes rs).length) (fields ++ crc) payload =
      .error (.crcMismatch (logBytes rs).length
        (checksum crc32Poly (fields ++ payload)).toNat (leNat crc)) := by
    unfold decodeChecked
    dsimp only
    rw [hgot, hexpected, if_pos hne, Nat.zero_add]
  have hread : logRecords.read (0 + (logBytes rs).length) (fields ++ crc ++ payload ++ rest) =
      .error (.crcMismatch (logBytes rs).length
        (checksum crc32Poly (fields ++ payload)).toNat (leNat crc)) := by
    have happend := LengthPrefixed.read_append (c := logRecords) hheader hlength.symm
      (0 + (logBytes rs).length) rest
    rw [happend]
    exact congrArg _ hdecode
  have hnonempty : fields ++ crc ++ payload ++ rest ≠ [] := by
    intro hnil
    have hzero := congrArg List.length hnil
    simp only [List.length_append, List.length_nil] at hzero
    omega
  rw [parseBinaryLog_eq]
  exact FrameReader.readAll_flatten_append_of_error (areFrames_map rs) 0 hnonempty hread

theorem LogRecord.field_headerFields (r : LogRecord) :
    field 4 4 r.headerFields = r.payload.length := by
  have hlength : (unpackHeader r.header).payloadLength = r.payload.length := by
    rw [r.unpackHeader_header]
  rw [← hlength]
  exact (field_append_left (by rw [r.length_headerFields]; omega)).symm

/-- A short copy that changes what the checksum covers leaves the stored one behind. -/
theorem LogRecord.checksum_ne_stored (r : LogRecord) {off : ℕ} {ys : List UInt8}
    (hfits : off + ys.length ≤ (r.headerFields ++ r.payload).length) (hshort : ys.length ≤ 4)
    (hne : splice (r.headerFields ++ r.payload) off ys ≠ r.headerFields ++ r.payload) :
    (checksum crc32Poly (splice (r.headerFields ++ r.payload) off ys)).toNat ≠
      leNat (leBytes 4 r.crc32.toNat) := by
  rw [leNat_leBytes_of_lt r.crc32.isLt]
  intro heq
  exact checksum_splice_ne hfits hshort hne (BitVec.eq_of_toNat_eq heq)

section Burst

variable (rs : List LogRecord) (r : LogRecord) (rest : List UInt8) {off : ℕ} {ys : List UInt8}
  (hne : splice r.bytes off ys ≠ r.bytes)

include hne

theorem parseBinaryLog_burst_fields (hshort : ys.length ≤ 4) (hfits : off + ys.length ≤ 20)
    (hbeside : off + ys.length ≤ 4 ∨ 8 ≤ off) :
    ∃ expected got, parseBinaryLog (logBytes rs ++ (splice r.bytes off ys ++ rest)) =
      .error (.crcMismatch (logBytes rs).length expected got) := by
  have h20 := r.length_headerFields
  have hfits' : off + ys.length ≤ r.headerFields.length := by omega
  have hbytes : splice r.bytes off ys =
      splice r.headerFields off ys ++ leBytes 4 r.crc32.toNat ++ r.payload := by
    unfold LogRecord.bytes LogRecord.header
    rw [splice_append_left (by rw [List.length_append]; omega), splice_append_left hfits']
  have hlength : field 4 4 (splice r.headerFields off ys) = r.payload.length := by
    rw [← r.field_headerFields]
    rcases hbeside with hbefore | hbehind
    · exact congrArg leNat (slice_splice_behind (by omega) hbefore)
    · exact congrArg leNat (slice_splice_before hfits' hbehind)
  have hcovered : splice r.headerFields off ys ++ r.payload =
      splice (r.headerFields ++ r.payload) off ys := (splice_append_left hfits').symm
  have hchanged : splice (r.headerFields ++ r.payload) off ys ≠ r.headerFields ++ r.payload := by
    rw [← hcovered]
    intro heq
    refine hne ?_
    rw [hbytes, List.append_cancel_right heq]
    rfl
  have hcrc : (checksum crc32Poly (splice r.headerFields off ys ++ r.payload)).toNat ≠
      leNat (leBytes 4 r.crc32.toNat) := by
    rw [hcovered]
    exact r.checksum_ne_stored (by rw [List.length_append]; omega) hshort hchanged
  rw [hbytes]
  exact ⟨_, _, parseBinaryLog_mismatch rs ((length_splice hfits').trans h20) (length_leBytes _ _)
    hlength hcrc rest⟩

theorem parseBinaryLog_burst_crc (hlo : 20 ≤ off) (hhi : off + ys.length ≤ 24) :
    ∃ expected got, parseBinaryLog (logBytes rs ++ (splice r.bytes off ys ++ rest)) =
      .error (.crcMismatch (logBytes rs).length expected got) := by
  have h20 := r.length_headerFields
  have h4 : (leBytes 4 r.crc32.toNat).length = 4 := length_leBytes _ _
  have hfits : off - 20 + ys.length ≤ (leBytes 4 r.crc32.toNat).length := by omega
  have hbytes : splice r.bytes off ys =
      r.headerFields ++ splice (leBytes 4 r.crc32.toNat) (off - 20) ys ++ r.payload := by
    unfold LogRecord.bytes LogRecord.header
    rw [splice_append_left (by rw [List.length_append]; omega),
      splice_append_right (h20.trans_le hlo), h20]
  have hchanged : splice (leBytes 4 r.crc32.toNat) (off - 20) ys ≠ leBytes 4 r.crc32.toNat := by
    intro heq
    refine hne ?_
    rw [hbytes, heq]
    rfl
  have hcrc : (checksum crc32Poly (r.headerFields ++ r.payload)).toNat ≠
      leNat (splice (leBytes 4 r.crc32.toNat) (off - 20) ys) := by
    show r.crc32.toNat ≠ _
    intro heq
    refine hchanged (leNat_inj (length_splice hfits) ?_)
    rw [← heq, leNat_leBytes_of_lt r.crc32.isLt]
  rw [hbytes]
  exact ⟨_, _, parseBinaryLog_mismatch rs h20 ((length_splice hfits).trans h4)
    r.field_headerFields hcrc rest⟩

theorem parseBinaryLog_burst_payload (hshort : ys.length ≤ 4) (hlo : 24 ≤ off)
    (hhi : off + ys.length ≤ 24 + r.payload.length) :
    ∃ expected got, parseBinaryLog (logBytes rs ++ (splice r.bytes off ys ++ rest)) =
      .error (.crcMismatch (logBytes rs).length expected got) := by
  have h20 := r.length_headerFields
  have h24 : r.header.length = 24 := r.length_header
  have hfits : off - 24 + ys.length ≤ r.payload.length := by omega
  have hbytes : splice r.bytes off ys =
      r.headerFields ++ leBytes 4 r.crc32.toNat ++ splice r.payload (off - 24) ys := by
    unfold LogRecord.bytes
    rw [splice_append_right (h24.trans_le hlo), h24]
    rfl
  have hlength : field 4 4 r.headerFields = (splice r.payload (off - 24) ys).length := by
    rw [length_splice hfits, r.field_headerFields]
  have hcovered : r.headerFields ++ splice r.payload (off - 24) ys =
      splice (r.headerFields ++ r.payload) (off - 4) ys := by
    rw [splice_append_right (by omega), h20, Nat.sub_sub]
  have hchanged : splice (r.headerFields ++ r.payload) (off - 4) ys ≠
      r.headerFields ++ r.payload := by
    rw [← hcovered]
    intro heq
    refine hne ?_
    rw [hbytes, List.append_cancel_left heq]
    rfl
  have hcrc : (checksum crc32Poly (r.headerFields ++ splice r.payload (off - 24) ys)).toNat ≠
      leNat (leBytes 4 r.crc32.toNat) := by
    rw [hcovered]
    exact r.checksum_ne_stored (by rw [List.length_append]; omega) hshort hchanged
  rw [hbytes]
  exact ⟨_, _, parseBinaryLog_mismatch rs h20 (length_leBytes _ _) hlength hcrc rest⟩

end Burst

/-- **Bursts.** A change within four consecutive bytes of a record, beside its payload length, is
reported as a mismatch of that record's checksum. -/
theorem parse_binary_log_burst {data : List UInt8} {ds : List RecordDict}
    (h : parseBinaryLog data = .ok ds) :
    ∃ rs : List LogRecord, data = logBytes rs ∧ ds = rs.map LogRecord.dict ∧
      ∀ m r, rs[m]? = some r → ∀ off ys, ys.length ≤ 4 → BurstRegion r off ys.length →
        splice data (recordEnd rs m + off) ys ≠ data →
          ∃ expected got, parseBinaryLog (splice data (recordEnd rs m + off) ys) =
            .error (.crcMismatch (recordEnd rs m) expected got) := by
  obtain ⟨rs, rfl, rfl⟩ := parseBinaryLog_eq_ok_iff.mp h
  refine ⟨rs, rfl, rfl, ?_⟩
  intro m r hr off ys hshort hregion hne
  have hbytes : r.bytes.length = 24 + r.payload.length := by
    rw [LogRecord.bytes, List.length_append, r.length_header]
    rfl
  have hfits : off + ys.length ≤ r.bytes.length := by
    unfold BurstRegion at hregion
    omega
  have hsplit := logBytes_split hr
  have hsplice : splice (logBytes rs) (recordEnd rs m + off) ys =
      logBytes (rs.take m) ++ (splice r.bytes off ys ++ logBytes (rs.drop (m + 1))) := by
    unfold recordEnd
    rw [hsplit, splice_append_right (Nat.le_add_right _ _), Nat.add_sub_cancel_left,
      splice_append_left hfits]
  have hchanged : splice r.bytes off ys ≠ r.bytes := by
    intro heq
    refine hne ?_
    rw [hsplice, heq, ← hsplit]
  rw [hsplice]
  rcases hregion with hend | ⟨hlo, hhi⟩ | ⟨hlo, hhi⟩ | ⟨hlo, hhi⟩
  · exact parseBinaryLog_burst_fields _ r _ hchanged hshort (by omega) (.inl hend)
  · exact parseBinaryLog_burst_fields _ r _ hchanged hshort hhi (.inr hlo)
  · exact parseBinaryLog_burst_crc _ r _ hchanged hlo hhi
  · exact parseBinaryLog_burst_payload _ r _ hchanged hshort hlo hhi

/-- The unknown record with another source id. -/
theorem parse_binary_log_burst_unknown :
    ∃ expected got, parseBinaryLog (splice (logBytes [unknownRecord]) 16 [9]) =
      .error (.crcMismatch 0 expected got) := by
  obtain ⟨rs, hdata, -, hburst⟩ := parse_binary_log_burst (parseBinaryLog_logBytes [unknownRecord])
  cases logBytes_injective hdata
  have hne : splice (logBytes [unknownRecord]) 16 [9] ≠ logBytes [unknownRecord] := by
    intro heq
    exact absurd (splice_eq_self_iff.mp heq) (by decide)
  exact hburst 0 unknownRecord rfl 16 [9] (by decide) (.inr (.inl (by decide))) hne

/-! ## Nothing is lost -/

theorem digitChar_inj {m n : ℕ} (hm : m < 16) (hn : n < 16) (h : m.digitChar = n.digitChar) :
    m = n := by
  have hall : ∀ a b : Fin 16, a.val.digitChar = b.val.digitChar → a = b := by decide
  exact congrArg Fin.val (hall ⟨m, hm⟩ ⟨n, hn⟩ h)

theorem hex_injective : Function.Injective hex := by
  intro as
  induction as with
  | nil =>
    intro bs h
    cases bs with
    | nil => rfl
    | cons b bs => exact nomatch String.ofList_injective h
  | cons a as ih =>
    intro bs h
    cases bs with
    | nil => exact nomatch String.ofList_injective h
    | cons b bs =>
      obtain ⟨hhigh, hrest⟩ := List.cons.inj (String.ofList_injective h)
      obtain ⟨hlow, htail⟩ := List.cons.inj hrest
      have ha := a.toNat_lt
      have hb := b.toNat_lt
      have hdiv := digitChar_inj (by omega) (by omega) hhigh
      have hmod := digitChar_inj (by omega) (by omega) hlow
      have hhead : a = b := UInt8.toNat_inj.mp (by omega)
      rw [hhead, ih (congrArg String.ofList htail)]

theorem repr_inj {m n : ℕ} (h : m.repr = n.repr) : m = n := by
  have hdigits := congrArg (fun s => Nat.ofDigitChars 10 s.toList 0) h
  simpa using hdigits

theorem recordTypeName_cases (t : ℕ) :
    (t, recordTypeName t) ∈ recordTypes ∨ recordTypeName t = "unknown_" ++ t.repr := by
  unfold recordTypeName
  cases hlookup : recordTypes.lookup t with
  | none => exact .inr rfl
  | some name =>
    obtain ⟨before, behind, hsplit, -⟩ := List.lookup_eq_some_iff.mp hlookup
    left
    rw [hsplit]
    exact List.mem_append_right _ List.mem_cons_self

/-- No known type has a name that is made up for another one. -/
theorem ne_unknown_of_mem {t u : ℕ} {name : String} (h : (t, name) ∈ recordTypes) :
    name ≠ "unknown_" ++ u.repr := by
  have hstart : ∀ p ∈ recordTypes, p.2.toList.take 2 ≠ "unknown_".toList.take 2 := by decide
  rintro rfl
  refine hstart _ h ?_
  rw [String.toList_append]
  rfl

theorem recordTypeName_injective : Function.Injective recordTypeName := by
  have hnames : ∀ p ∈ recordTypes, ∀ q ∈ recordTypes, p.2 = q.2 → p.1 = q.1 := by decide
  intro t u h
  rcases recordTypeName_cases t with ht | ht <;> rcases recordTypeName_cases u with hu | hu
  · exact hnames _ ht _ hu h
  · exact absurd (h.trans hu) (ne_unknown_of_mem ht)
  · exact absurd (h.symm.trans ht) (ne_unknown_of_mem hu)
  · exact repr_inj ((String.append_right_inj _).mp (ht.symm.trans (h.trans hu)))

theorem take_four_eq {p q : List UInt8} (hp : 4 ≤ p.length) (hq : 4 ≤ q.length)
    (h0 : field 0 4 p = field 0 4 q) : p.take 4 = q.take 4 := by
  have htake0 : p.take 0 = q.take 0 := rfl
  exact take_eq_of_field (by omega) (by omega) htake0 h0

theorem take_twelve_eq {p q : List UInt8} (hp : p.length = 16) (hq : q.length = 16)
    (h0 : field 0 4 p = field 0 4 q) (h4 : field 4 4 p = field 4 4 q)
    (h8 : field 8 4 p = field 8 4 q) : p.take 12 = q.take 12 := by
  have htake4 := take_four_eq (by omega) (by omega) h0
  have htake8 := take_eq_of_field (by omega) (by omega) htake4 h4
  exact take_eq_of_field (by omega) (by omega) htake8 h8

/-- Payloads of one type with the same entries are the same if their last four bytes are pinned
down, which takes care of the word that is not copied. -/
theorem payload_eq_of_fields {t : ℕ} {p q : List UInt8} (hp : PayloadShape t p)
    (hq : PayloadShape t q) (hfields : payloadFields t p = payloadFields t q)
    (htail : ∀ n, p.length ≤ n + 4 → q.length ≤ n + 4 → p.take n = q.take n → p = q) : p = q := by
  by_cases h1 : t = 1
  · subst h1
    have hp16 : p.length = 16 := hp
    have hq16 : q.length = 16 := hq
    obtain ⟨hid, hhash, hmask, -⟩ := RecordFields.sessionStart.inj hfields
    exact htail 12 hp16.le hq16.le (take_twelve_eq hp16 hq16 hid hhash hmask)
  by_cases h2 : t = 2
  · subst h2
    have hp16 : p.length = 16 := hp
    have hq16 : q.length = 16 := hq
    obtain ⟨hcode, hseverity, hstatus⟩ := RecordFields.faultEvent.inj hfields
    exact htail 12 hp16.le hq16.le (take_twelve_eq hp16 hq16 hcode hseverity hstatus)
  by_cases h3 : t = 3
  · subst h3
    obtain ⟨hp4, -⟩ : 4 ≤ p.length ∧ _ := hp
    obtain ⟨hq4, -⟩ : 4 ≤ q.length ∧ _ := hq
    obtain ⟨hlead, hdata⟩ := RecordFields.uartData.inj hfields
    rw [← List.take_append_drop 4 p, ← List.take_append_drop 4 q, take_four_eq hp4 hq4 hlead]
    exact congrArg _ (hex_injective hdata)
  by_cases h4 : t = 4
  · subst h4
    have hp8 : p.length = 8 := hp
    have hq8 : q.length = 8 := hq
    have hpolarity := RecordFields.syncEdge.inj hfields
    exact htail 4 hp8.le hq8.le (take_four_eq (by omega) (by omega) hpolarity)
  unfold payloadFields at hfields
  rw [if_neg h1, if_neg h2, if_neg h3, if_neg h4, if_neg h1, if_neg h2, if_neg h3, if_neg h4]
    at hfields
  exact hex_injective (RecordFields.unknown.inj hfields)

theorem eq_of_checksum_eq {as bs : List UInt8} (hlength : as.length = bs.length)
    {n : ℕ} (hn : as.length ≤ n + 4) (htake : as.take n = bs.take n) (pre : List UInt8)
    (hcrc : checksum crc32Poly (pre ++ as) = checksum crc32Poly (pre ++ bs)) : as = bs := by
  have hdrop : as.drop n = bs.drop n := by
    by_contra hne
    refine checksum_burst_ne crc32Poly_top ?_ ?_ hne (pre ++ as.take n) [] ?_
    · rw [List.length_drop, List.length_drop, hlength]
    · rw [List.length_drop]
      omega
    · rw [List.append_nil, List.append_nil, List.append_assoc, List.append_assoc,
        List.take_append_drop, htake, List.take_append_drop]
      exact hcrc
  rw [← List.take_append_drop n as, htake, hdrop, List.take_append_drop]

theorem LogRecord.dict_injective : Function.Injective LogRecord.dict := by
  intro r r' h
  obtain ⟨hname, hversion, hlength, htimestamp, hsource, hcrc, hfields⟩ := RecordDict.mk.inj h
  have htype := recordTypeName_injective hname
  have hheader : r.headerFields = r'.headerFields := by
    unfold LogRecord.headerFields
    rw [htype, hversion, hlength, htimestamp, hsource]
  have hcrc32 : r.crc32 = r'.crc32 := BitVec.eq_of_toNat_eq hcrc
  have hshape := r'.shape
  rw [← htype] at hfields hshape
  have hpayload : r.payload = r'.payload := by
    refine payload_eq_of_fields r.shape hshape hfields ?_
    intro n hn _ htake
    refine eq_of_checksum_eq hlength hn htake r.headerFields ?_
    conv_rhs => rw [hheader]
    exact hcrc32
  apply LogRecord.bytes_injective
  unfold LogRecord.bytes LogRecord.header
  rw [hheader, hcrc32, hpayload]

/-- **Injectivity.** Logs that give the same list are the same, byte for byte. -/
theorem parse_binary_log_injective {data data' : List UInt8} {ds : List RecordDict}
    (h : parseBinaryLog data = .ok ds) (h' : parseBinaryLog data' = .ok ds) : data = data' := by
  obtain ⟨rs, rfl, hdicts⟩ := parseBinaryLog_eq_ok_iff.mp h
  obtain ⟨rs', rfl, hdicts'⟩ := parseBinaryLog_eq_ok_iff.mp h'
  rw [LogRecord.dict_injective.list_map (hdicts.symm.trans hdicts')]

/-- One log, and no other, has the entry of the unknown record. -/
theorem parse_binary_log_injective_unknown :
    ∃! data, parseBinaryLog data = .ok [unknownRecord.dict] := by
  have hparse := parseBinaryLog_logBytes [unknownRecord]
  exact ⟨_, hparse, fun _ h => parse_binary_log_injective h hparse⟩

end EmbeddedInsDaq
