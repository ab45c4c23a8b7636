import EmbeddedInsDaq.Tools.ParseBinaryLog

/-!
# The grammar of binary logs

A `LogRecord` is a record that may stand in a log: its payload fits the 32-bit length and has the
shape its type asks for, so no malformed record can be built. `LogRecord.bytes` is its encoding with
the checksum in place. `parse_binary_log_grammar` says that the parser accepts exactly the
concatenations of such encodings, which split in one way, and raises on everything else.
-/

namespace EmbeddedInsDaq

open Bytes Crc

/-! ## Payloads -/

/-- The payloads that `_decode_record` takes for a record type. -/
def PayloadShape (recordType : ℕ) (payload : List UInt8) : Prop :=
  if recordType = 1 ∨ recordType = 2 then payload.length = 16
  else if recordType = 3 then 4 ≤ payload.length ∧ field 0 4 payload = (payload.drop 4).length
  else if recordType = 4 then payload.length = 8
  else True

/-- What a payload of the right shape says. -/
def payloadFields (recordType : ℕ) (payload : List UInt8) : RecordFields :=
  if recordType = 1 then
    .sessionStart (field 0 4 payload) (field 4 4 payload) (field 8 4 payload) (field 12 4 payload)
  else if recordType = 2 then
    .faultEvent (field 0 4 payload) (field 4 4 payload) (field 8 4 payload)
  else if recordType = 3 then
    .uartData (field 0 4 payload) (hex (payload.drop 4))
  else if recordType = 4 then
    .syncEdge (field 0 4 payload)
  else
    .unknown (hex payload)

theorem checkStructSize_bind {α : Type} (size : ℕ) (bytes : List UInt8)
    (f : Unit → Except ParseError α) (a : α) :
    checkStructSize size bytes >>= f = .ok a ↔ bytes.length = size ∧ f () = .ok a := by
  unfold checkStructSize
  by_cases h : bytes.length = size
  · rw [if_pos h]
    exact (and_iff_right h).symm
  · rw [if_neg h]
    exact iff_of_false nofun fun h' => h h'.1

theorem decodeFields_uartData (payload : List UInt8) (fields : RecordFields) :
    decodeFields 3 payload = .ok fields ↔
      (4 ≤ payload.length ∧ field 0 4 payload = (payload.drop 4).length) ∧
        .uartData (field 0 4 payload) (hex (payload.drop 4)) = fields := by
  have hfield : field 0 4 (payload.take 4) = field 0 4 payload := by
    unfold field slice
    rw [List.drop_zero, List.drop_zero, List.take_take]
    rfl
  show checkStructSize 4 (payload.take 4) >>= (fun _ =>
    if (payload.drop 4).length ≠ field 0 4 (payload.take 4) then .error .uartLengthMismatch
    else .ok (.uartData (field 0 4 (payload.take 4)) (hex (payload.drop 4)))) = .ok fields ↔ _
  rw [checkStructSize_bind, hfield, List.length_take, and_assoc]
  refine and_congr (by omega) ?_
  by_cases hlen : field 0 4 payload = (payload.drop 4).length
  · rw [if_neg (not_not.mpr hlen.symm), and_iff_right hlen]
    exact ⟨Except.ok.inj, congrArg Except.ok⟩
  · rw [if_pos (Ne.symm hlen)]
    exact iff_of_false nofun fun h => hlen h.1

theorem decodeFields_eq_ok_iff (recordType : ℕ) (payload : List UInt8) (fields : RecordFields) :
    decodeFields recordType payload = .ok fields ↔
      PayloadShape recordType payload ∧ payloadFields recordType payload = fields := by
  by_cases h1 : recordType = 1
  · subst h1
    show checkStructSize 16 payload >>= _ = .ok fields ↔ payload.length = 16 ∧ _
    rw [checkStructSize_bind]
    exact and_congr_right fun _ => ⟨Except.ok.inj, congrArg Except.ok⟩
  by_cases h2 : recordType = 2
  · subst h2
    show checkStructSize 16 payload >>= _ = .ok fields ↔ payload.length = 16 ∧ _
    rw [checkStructSize_bind]
    exact and_congr_right fun _ => ⟨Except.ok.inj, congrArg Except.ok⟩
  by_cases h3 : recordType = 3
  · subst h3
    exact decodeFields_uartData payload fields
  by_cases h4 : recordType = 4
  · subst h4
    show checkStructSize 8 payload >>= _ = .ok fields ↔ payload.length = 8 ∧ _
    rw [checkStructSize_bind]
    exact and_congr_right fun _ => ⟨Except.ok.inj, congrArg Except.ok⟩
  unfold decodeFields PayloadShape payloadFields
  rw [if_neg h1, if_neg h2, if_neg h3, if_neg h4, if_neg (not_or.mpr ⟨h1, h2⟩), if_neg h3,
    if_neg h4, if_neg h1, if_neg h2, if_neg h3, if_neg h4, and_iff_right trivial]
  exact ⟨Except.ok.inj, congrArg Except.ok⟩

/-! ## Records -/

/-- A record of a log, with the checksum left out. -/
structure LogRecord where
  recordType : UInt16
  version : UInt16
  timestampUs : UInt64
  sourceId : UInt32
  payload : List UInt8
  payload_lt : payload.length < 2 ^ 32
  shape : PayloadShape recordType.toNat payload

namespace LogRecord

variable (r : LogRecord)

/-- The first 20 bytes of the header, up to the checksum. -/
def headerFields : List UInt8 :=
  leBytes 2 r.recordType.toNat ++ (leBytes 2 r.version.toNat ++ (leBytes 4 r.payload.length ++
    (leBytes 8 r.timestampUs.toNat ++ leBytes 4 r.sourceId.toNat)))

/-- The CRC-32 of the header fields and the payload. -/
def crc32 : BitVec 32 := checksum crc32Poly (r.headerFields ++ r.payload)

/-- The header `<HHIQII`. -/
def header : List UInt8 := r.headerFields ++ leBytes 4 r.crc32.toNat

/-- The whole record. -/
def bytes : List UInt8 := r.header ++ r.payload

/-- The entry of the record in the parser's list. -/
def dict : RecordDict where
  type := recordTypeName r.recordType.toNat
  version := r.version.toNat
  payloadLength := r.payload.length
  timestampUs := r.timestampUs.toNat
  sourceId := r.sourceId.toNat
  crc32 := r.crc32.toNat
  fields := payloadFields r.recordType.toNat r.payload

theorem length_headerFields : r.headerFields.length = 20 := by
  simp [headerFields]

theorem length_header : r.header.length = headerStructSize := by
  rw [header, List.length_append, length_headerFields, length_leBytes]
  rfl

theorem unpackHeader_header : unpackHeader r.header =
    ⟨r.recordType.toNat, r.version.toNat, r.payload.length, r.timestampUs.toNat, r.sourceId.toNat,
      r.crc32.toNat⟩ := by
  have htype := r.recordType.toNat_lt
  have hversion := r.version.toNat_lt
  have hpayload : r.payload.length < 4294967296 := r.payload_lt
  have htimestamp := r.timestampUs.toNat_lt
  have hsource := r.sourceId.toNat_lt
  have hcrc := r.crc32.isLt
  unfold header headerFields unpackHeader
  simp [field_append_right, field_leBytes_append, field_leBytes, htype, hversion, hpayload,
    htimestamp, hsource, hcrc]

end LogRecord

/-- The loop's checksum is that of the header without its last four bytes, and the payload. -/
theorem expectedCrc_eq (headerBytes payload : List UInt8) :
    expectedCrc headerBytes payload =
      (checksum crc32Poly (headerBytes.take (headerBytes.length - 4) ++ payload)).toNat := by
  have hmask (x : BitVec 32) : x &&& 0xffffffff = x := BitVec.and_allOnes
  unfold expectedCrc
  dsimp only
  rw [hmask]
  exact congrArg BitVec.toNat (not_update_not_checksum crc32Poly _ payload)

theorem LogRecord.expectedCrc_header (r : LogRecord) :
    expectedCrc r.header r.payload = r.crc32.toNat := by
  have htake : r.header.take (r.header.length - 4) = r.headerFields := by
    rw [r.length_header]
    exact List.take_left' r.length_headerFields
  rw [expectedCrc_eq, htake]
  rfl

theorem LogRecord.isFrame (r : LogRecord) : logRecords.IsFrame r.bytes r.dict := by
  refine ⟨r.header, r.payload, rfl, r.length_header, ?_, ?_, ?_⟩
  · show _ = (unpackHeader r.header).payloadLength
    rw [r.unpackHeader_header]
  · rw [r.expectedCrc_header, r.unpackHeader_header]
  · rw [r.unpackHeader_header]
    unfold decodeRecord
    rw [(decodeFields_eq_ok_iff _ _ _).mpr ⟨r.shape, rfl⟩]
    rfl

theorem leBytes_unpackHeader {headerBytes : List UInt8}
    (h : headerBytes.length = headerStructSize) :
    leBytes 2 (unpackHeader headerBytes).recordType ++
      (leBytes 2 (unpackHeader headerBytes).version ++
        (leBytes 4 (unpackHeader headerBytes).payloadLength ++
          (leBytes 8 (unpackHeader headerBytes).timestampUs ++
            leBytes 4 (unpackHeader headerBytes).sourceId))) = slice 0 20 headerBytes := by
  have h24 : headerBytes.length = 24 := h
  unfold unpackHeader
  dsimp only
  rw [leBytes_field (by omega), leBytes_field (by omega), leBytes_field (by omega),
    leBytes_field (by omega), leBytes_field (by omega), slice_append_slice headerBytes 8 8 4,
    slice_append_slice headerBytes 4 4 12, slice_append_slice headerBytes 2 2 16,
    slice_append_slice headerBytes 0 2 18]

theorem unpackHeader_lt {headerBytes : List UInt8} (h : headerBytes.length = headerStructSize) :
    (unpackHeader headerBytes).recordType < 2 ^ 16 ∧ (unpackHeader headerBytes).version < 2 ^ 16 ∧
      (unpackHeader headerBytes).payloadLength < 2 ^ 32 ∧
      (unpackHeader headerBytes).timestampUs < 2 ^ 64 ∧
      (unpackHeader headerBytes).sourceId < 2 ^ 32 := by
  have h24 : headerBytes.length = 24 := h
  exact ⟨field_lt (by omega), field_lt (by omega), field_lt (by omega), field_lt (by omega),
    field_lt (by omega)⟩

theorem decodeRecord_eq_ok_iff (header : LogHeader) (payload : List UInt8) (d : RecordDict) :
    decodeRecord header payload = .ok d ↔
      PayloadShape header.recordType payload ∧
        header.dict (payloadFields header.recordType payload) = d := by
  unfold decodeRecord
  constructor
  · intro h
    cases hfields : decodeFields header.recordType payload with
    | error e => rw [hfields] at h; cases h
    | ok fields =>
      rw [hfields] at h
      obtain ⟨hshape, heq⟩ := (decodeFields_eq_ok_iff _ _ _).mp hfields
      rw [heq]
      exact ⟨hshape, Except.ok.inj h⟩
  · rintro ⟨hshape, rfl⟩
    rw [(decodeFields_eq_ok_iff _ _ _).mpr ⟨hshape, rfl⟩]
    rfl

theorem exists_of_isFrame {f : List UInt8} {d : RecordDict} (h : logRecords.IsFrame f d) :
    ∃ r : LogRecord, r.bytes = f ∧ r.dict = d := by
  obtain ⟨headerBytes, payload, rfl, hheader, hpayload, hcrc, hdecode⟩ := h
  obtain ⟨hshape, rfl⟩ := (decodeRecord_eq_ok_iff _ _ _).mp hdecode
  have hlen : payload.length = (unpackHeader headerBytes).payloadLength := hpayload
  have h24 : headerBytes.length = 24 := hheader
  obtain ⟨htypeLt, hversionLt, hlengthLt, htimestampLt, hsourceLt⟩ := unpackHeader_lt hheader
  have htype := UInt16.toNat_ofNat_of_lt' htypeLt
  have hversion := UInt16.toNat_ofNat_of_lt' hversionLt
  have htimestamp := UInt64.toNat_ofNat_of_lt' htimestampLt
  have hsource := UInt32.toNat_ofNat_of_lt' hsourceLt
  let r : LogRecord :=
    { recordType := UInt16.ofNat (unpackHeader headerBytes).recordType
      version := UInt16.ofNat (unpackHeader headerBytes).version
      timestampUs := UInt64.ofNat (unpackHeader headerBytes).timestampUs
      sourceId := UInt32.ofNat (unpackHeader headerBytes).sourceId
      payload := payload
      payload_lt := hlen.trans_lt hlengthLt
      shape := by rw [htype]; exact hshape }
  have hfields : r.headerFields = slice 0 20 headerBytes := by
    unfold LogRecord.headerFields
    rw [htype, hversion, htimestamp, hsource, hlen, leBytes_unpackHeader hheader]
  have hcrc32 : r.crc32.toNat = (unpackHeader headerBytes).crc32 := by
    rw [← hcrc, expectedCrc_eq, h24, LogRecord.crc32, hfields]
    rfl
  refine ⟨r, ?_, ?_⟩
  · unfold LogRecord.bytes LogRecord.header
    rw [hfields, hcrc32, show (unpackHeader headerBytes).crc32 = field 20 4 headerBytes from rfl,
      leBytes_field (by omega), slice_append_slice headerBytes 0 20 4, slice_zero_self h24.symm]
  · unfold LogRecord.dict LogHeader.dict
    rw [htype, hversion, htimestamp, hsource, hcrc32, hlen]

theorem LogRecord.bytes_injective : Function.Injective LogRecord.bytes := by
  intro r r' h
  obtain ⟨hheader, hpayload⟩ := List.append_inj h (r.length_header.trans r'.length_header.symm)
  have hfields := r.unpackHeader_header.symm.trans
    ((congrArg unpackHeader hheader).trans r'.unpackHeader_header)
  obtain ⟨htype, hversion, -, htimestamp, hsource, -⟩ := LogHeader.mk.inj hfields
  cases r
  cases r'
  cases UInt16.toNat_inj.mp htype
  cases UInt16.toNat_inj.mp hversion
  cases UInt64.toNat_inj.mp htimestamp
  cases UInt32.toNat_inj.mp hsource
  cases hpayload
  rfl

/-! ## Logs -/

/-- The log of some records. -/
def logBytes (rs : List LogRecord) : List UInt8 := (rs.map LogRecord.bytes).flatten

theorem areFrames_map (rs : List LogRecord) :
    logRecords.toReader.AreFrames (rs.map LogRecord.bytes) (rs.map LogRecord.dict) := by
  induction rs with
  | nil => exact .nil
  | cons r rs ih => exact .cons r.isFrame ih

theorem exists_of_areFrames {fs : List (List UInt8)} {ds : List RecordDict}
    (h : logRecords.toReader.AreFrames fs ds) :
    ∃ rs : List LogRecord, rs.map LogRecord.bytes = fs ∧ rs.map LogRecord.dict = ds := by
  induction h with
  | nil => exact ⟨[], rfl, rfl⟩
  | cons hd _ ih =>
    obtain ⟨r, rfl, rfl⟩ := exists_of_isFrame hd
    obtain ⟨rs, rfl, rfl⟩ := ih
    exact ⟨r :: rs, rfl, rfl⟩

theorem parseBinaryLog_eq_ok_iff {data : List UInt8} {ds : List RecordDict} :
    parseBinaryLog data = .ok ds ↔
      ∃ rs : List LogRecord, data = logBytes rs ∧ ds = rs.map LogRecord.dict := by
  rw [parseBinaryLog_eq, FrameReader.readAll_eq_ok_iff]
  constructor
  · rintro ⟨fs, rfl, hframes⟩
    obtain ⟨rs, rfl, rfl⟩ := exists_of_areFrames hframes
    exact ⟨rs, rfl, rfl⟩
  · rintro ⟨rs, rfl, rfl⟩
    exact ⟨_, rfl, areFrames_map rs⟩

theorem logBytes_injective : Function.Injective logBytes := by
  intro rs rs' h
  have hsplit := FrameReader.split_unique (areFrames_map rs) (areFrames_map rs') h
  exact LogRecord.bytes_injective.list_map hsplit.1

/-- **Grammar.** The parser returns exactly on the logs of some records, and then the entries of
these records in order; the records are unique, and on everything else it raises. -/
theorem parse_binary_log_grammar (data : List UInt8) :
    (∀ ds, parseBinaryLog data = .ok ds ↔
      ∃ rs : List LogRecord, data = logBytes rs ∧ ds = rs.map LogRecord.dict) ∧
    (∀ rs rs' : List LogRecord, data = logBytes rs → data = logBytes rs' → rs = rs') ∧
    ((¬ ∃ rs : List LogRecord, data = logBytes rs) → ∃ e, parseBinaryLog data = .error e) := by
  refine ⟨fun ds => parseBinaryLog_eq_ok_iff, ?_, ?_⟩
  · rintro rs rs' rfl h
    exact logBytes_injective h
  · intro hnone
    cases hparse : parseBinaryLog data with
    | error e => exact ⟨e, rfl⟩
    | ok ds =>
      obtain ⟨rs, hdata, -⟩ := parseBinaryLog_eq_ok_iff.mp hparse
      exact absurd ⟨rs, hdata⟩ hnone

end EmbeddedInsDaq
