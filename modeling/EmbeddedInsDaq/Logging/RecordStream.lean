import EmbeddedInsDaq.Logging.RecordChecksum
import EmbeddedInsDaq.Logging.RecordReader
import Mathlib.Tactic.Ring

/-!
# The stream that the builders write

Reading by the packed layouts inverts the builders: `stored_stream_round_trip` takes any sequence of
successful calls back from the concatenation of their images.
-/

namespace EmbeddedInsDaq

open Bytes

/-! ## Decoding one record -/

/-- The payload of a record, by kind. -/
inductive RecordBody
  | sessionStart (sessionId configHash enabledPortMask enabledPortCount : ℕ)
  | faultEvent (faultCode faultSeverity healthStatus : ℕ)
  | uartData (dataLength : ℕ) (data : List UInt8)
  | syncEdge (edgePolarity : Bool)
  deriving DecidableEq

/-- The values of a record. -/
structure RecordValues where
  recordType : ℕ
  recordVersion : ℕ
  timestampUs : ℕ
  sourceId : ℕ
  body : RecordBody
  deriving DecidableEq

/-- The fields of a payload, for a known type and the size of its layout. -/
def decodeBody (recordType : UInt8) (payload : List UInt8) : Option RecordBody :=
  if recordType = RecordType.sessionStart.toUInt8 ∧
      payload.length = SessionStartRecordPayload.size then
    some (.sessionStart (field 0 4 payload) (field 4 4 payload) (field 8 4 payload)
      (field 12 1 payload))
  else if recordType = RecordType.faultEvent.toUInt8 ∧
      payload.length = FaultEventRecordPayload.size then
    some (.faultEvent (field 0 1 payload) (field 1 1 payload) (field 2 1 payload))
  else if recordType = RecordType.uartData.toUInt8 ∧
      payload.length = UartDataRecordPayloadPrefix.size + field 0 2 payload then
    some (.uartData (field 0 2 payload) (payload.drop UartDataRecordPayloadPrefix.size))
  else if recordType = RecordType.syncEdge.toUInt8 ∧
      payload.length = SyncEdgeRecordPayload.size then
    some (.syncEdge (field 0 1 payload ≠ 0))
  else none

/-- The values under a header. -/
def recordValues (header : BinaryRecordHeader) (body : RecordBody) : RecordValues where
  recordType := header.recordType.toNat
  recordVersion := header.recordVersion.toNat
  timestampUs := header.timestampUs.toNat
  sourceId := header.sourceId.toNat
  body := body

/-- Why a stream is refused, and where. -/
inductive StreamError
  | truncatedHeader (pos : ℕ)
  | truncatedPayload (pos : ℕ)
  | crcMismatch (pos : ℕ)
  | malformed (pos : ℕ)
  deriving DecidableEq

/-- Check a record and take its values. -/
def decodeStored (pos : ℕ) (header payload : List UInt8) : Except StreamError RecordValues :=
  if CrcMatches (header ++ payload) then
    match decodeBody (readHeader header).recordType payload with
    | some body => .ok (recordValues (readHeader header) body)
    | none => .error (.malformed pos)
  else .error (.crcMismatch pos)

/-- A record with a matching checksum and the values `v`. -/
def Carries (header payload : List UInt8) (v : RecordValues) : Prop :=
  CrcMatches (header ++ payload) ∧
    ∃ body, decodeBody (readHeader header).recordType payload = some body ∧
      recordValues (readHeader header) body = v

theorem decodeStored_eq_ok_iff (pos : ℕ) (header payload : List UInt8) (v : RecordValues) :
    decodeStored pos header payload = .ok v ↔ Carries header payload v := by
  unfold decodeStored Carries
  by_cases hcrc : CrcMatches (header ++ payload)
  · rw [if_pos hcrc]
    cases decodeBody (readHeader header).recordType payload with
    | none => exact iff_of_false nofun fun h => by obtain ⟨-, _, h, -⟩ := h; cases h
    | some body =>
      constructor
      · intro h
        cases h
        exact ⟨hcrc, body, rfl, rfl⟩
      · rintro ⟨-, _, h, rfl⟩
        cases h
        rfl
  · rw [if_neg hcrc]
    exact iff_of_false nofun fun h => hcrc h.1

/-- Stored records, framed by `payload_length`. -/
def storedRecords : LengthPrefixed UInt8 StreamError RecordValues where
  headerSize := BinaryRecordHeader.size
  headerSize_pos := by decide
  payloadSize header := (readHeader header).payloadLength.toNat
  truncatedHeader := .truncatedHeader
  truncatedPayload := .truncatedPayload
  decode := decodeStored
  Carries := Carries
  decode_eq_ok_iff := decodeStored_eq_ok_iff

/-- Read a stream of stored records. -/
def readStream (bytes : List UInt8) : Except StreamError (List RecordValues) :=
  storedRecords.toReader.readAll 0 bytes

theorem StoredRecord.isFrame (r : StoredRecord) {body : RecordBody}
    (h : decodeBody r.recordType.toUInt8 r.payload = some body) :
    storedRecords.IsFrame r.image (recordValues r.header body) := by
  have hheader : readHeader r.header.bytes = r.header := by
    have := readHeader_bytes r.header []
    rwa [List.append_nil] at this
  refine ⟨r.header.bytes, r.payload, rfl, r.header.length_bytes, ?_, r.crcMatches_image, body, ?_,
    ?_⟩
  · show r.payload.length = (readHeader r.header.bytes).payloadLength.toNat
    rw [hheader]
    show _ = (UInt16.ofNat r.payload.length).toNat
    rw [UInt16.toNat_ofNat', Nat.mod_eq_of_lt r.length_payload_lt]
  · rw [hheader]
    exact h
  · rw [hheader]

/-! ## The values of a call -/

/-- Bit `i` of the mask is set when port `i` is enabled. -/
def RuntimeConfig.enabledPortMask (config : RuntimeConfig) : ℕ :=
  Nat.ofDigits 2 (config.ports.toList.map fun port => port.enabled.toNat)

/-- The number of enabled ports. -/
def RuntimeConfig.enabledPortCount (config : RuntimeConfig) : ℕ :=
  config.ports.toList.countP (·.enabled)

namespace BuilderCall

variable {p : Platform}

/-- What a call says, in the caller's values. -/
def values : BuilderCall p → Option RecordValues
  | .sessionStart (some session) (some config) => some
      { recordType := 1
        recordVersion := 1
        timestampUs := session.startTimestampUs.toNat
        sourceId := 0
        body := .sessionStart session.sessionId.toNat (recordBuilderConfigHash (some config)).toNat
          config.enabledPortMask config.enabledPortCount }
  | .faultEvent timestampUs sourceId (some event) health => some
      { recordType := 2
        recordVersion := 1
        timestampUs := timestampUs.toNat
        sourceId := sourceId.toNat
        body := .faultEvent event.code.toNat event.severity.toNat health.toNat }
  | .uartData sourceId firstByteTimestampUs (some bytes) length => some
      { recordType := 3
        recordVersion := 1
        timestampUs := firstByteTimestampUs.toNat
        sourceId := sourceId.toNat
        body := .uartData length.toNat (bytes.take length.toNat) }
  | .syncEdge sourceId timestampUs levelHigh => some
      { recordType := 4
        recordVersion := 1
        timestampUs := timestampUs.toNat
        sourceId := sourceId.toNat
        body := .syncEdge levelHigh }
  | _ => none

/-- The enumerations of a fault event fit their one-byte fields. -/
def EnumsFit : BuilderCall p → Prop
  | .faultEvent _ _ (some event) health =>
    event.code.toNat < 256 ∧ event.severity.toNat < 256 ∧ health.toNat < 256
  | _ => True

end BuilderCall

/-! ### The port summary -/

theorem toNat_or_one_shiftLeft {mask : UInt32} {i : ℕ} (hi : i < 32) (hmask : mask.toNat < 2 ^ i) :
    (mask ||| 1 <<< UInt32.ofNat i).toNat = mask.toNat + 2 ^ i := by
  have hshift : ((1 : UInt32) <<< UInt32.ofNat i).toNat = 2 ^ i := by
    rw [UInt32.toNat_shiftLeft, UInt32.toNat_ofNat', Nat.mod_mod_of_dvd _ (by decide),
      Nat.mod_eq_of_lt hi]
    show 1 <<< i % 2 ^ 32 = 2 ^ i
    rw [Nat.one_shiftLeft, Nat.mod_eq_of_lt (Nat.pow_lt_pow_right (by decide) hi)]
  rw [UInt32.toNat_or, hshift, Nat.or_comm]
  have hadd := Nat.two_pow_add_eq_or_of_lt hmask 1
  rw [Nat.mul_one] at hadd
  rw [← hadd, Nat.add_comm]

/-- The port loop of the session start, from port `i` on. -/
theorem enabledPorts_eq (ports : List RuntimePortConfig) {i : ℕ} (hi : i + ports.length ≤ 32)
    {mask : UInt32} (hmask : mask.toNat < 2 ^ i) {count : UInt8}
    (hcount : count.toNat + ports.length < 256) :
    (enabledPorts i mask count ports).1.toNat =
        mask.toNat + 2 ^ i * Nat.ofDigits 2 (ports.map fun port => port.enabled.toNat) ∧
      (enabledPorts i mask count ports).2.toNat = count.toNat + ports.countP (·.enabled) := by
  induction ports generalizing i mask count with
  | nil => exact ⟨rfl, rfl⟩
  | cons port ports ih =>
    rw [List.length_cons] at hi hcount
    have hlt : i < 32 := by omega
    have hpow : 2 ^ (i + 1) = 2 * 2 ^ i := pow_succ' 2 i
    rw [enabledPorts, if_pos hlt, List.map_cons, Nat.ofDigits_cons, List.countP_cons]
    cases hport : port.enabled
    · obtain ⟨hm, hc⟩ := ih (by omega) (show mask.toNat < 2 ^ (i + 1) by omega)
        (show count.toNat + ports.length < 256 by omega)
      refine ⟨hm.trans ?_, hc⟩
      rw [hpow]
      simp only [Bool.toNat_false, Nat.zero_add]
      rw [Nat.mul_left_comm, Nat.mul_assoc]
    · have hmask' := toNat_or_one_shiftLeft hlt hmask
      have hcount' : (count + 1).toNat = count.toNat + 1 := by
        rw [UInt8.toNat_add]
        exact Nat.mod_eq_of_lt (by show count.toNat + 1 < 256; omega)
      obtain ⟨hm, hc⟩ := ih (by omega)
        (show (mask ||| 1 <<< UInt32.ofNat i).toNat < 2 ^ (i + 1) by omega)
        (show (count + 1).toNat + ports.length < 256 by omega)
      refine ⟨hm.trans ?_, hc.trans ?_⟩
      · rw [hmask', hpow]
        simp only [Bool.toNat_true]
        ring
      · rw [hcount', if_pos rfl]
        omega

theorem enabledPorts_fst (config : RuntimeConfig) :
    (enabledPorts 0 0 0 config.ports.toList).1.toNat = config.enabledPortMask := by
  have hlen : config.ports.toList.length = 4 := Vector.length_toList
  rw [(enabledPorts_eq _ (by omega) Nat.one_pos (by rw [hlen]; decide)).1]
  show 0 + 2 ^ 0 * _ = _
  rw [Nat.zero_add, pow_zero, Nat.one_mul]
  rfl

theorem enabledPorts_snd (config : RuntimeConfig) :
    (enabledPorts 0 0 0 config.ports.toList).2.toNat = config.enabledPortCount := by
  have hlen : config.ports.toList.length = 4 := Vector.length_toList
  rw [(enabledPorts_eq _ (by omega) Nat.one_pos (by rw [hlen]; decide)).2]
  exact Nat.zero_add _

/-! ### One call -/

theorem toNat_toUInt8_of_lt {x : UInt32} (h : x.toNat < 256) : x.toUInt8.toNat = x.toNat := by
  rw [UInt32.toNat_toUInt8]
  exact Nat.mod_eq_of_lt h

theorem decodeBody_sessionStart (session : SessionInfo) (config : RuntimeConfig) :
    decodeBody RecordType.sessionStart.toUInt8 (sessionStartRecord session config).payload =
      some (.sessionStart session.sessionId.toNat (recordBuilderConfigHash (some config)).toNat
        config.enabledPortMask config.enabledPortCount) := by
  have hid := session.sessionId.toNat_lt
  have hhash := (recordBuilderConfigHash (some config)).toNat_lt
  have hmask := (enabledPorts 0 0 0 config.ports.toList).1.toNat_lt
  have hcount := (enabledPorts 0 0 0 config.ports.toList).2.toNat_lt
  rw [← enabledPorts_fst, ← enabledPorts_snd]
  unfold decodeBody
  rw [if_pos ⟨rfl, SessionStartRecordPayload.length_bytes _⟩]
  unfold sessionStartRecord SessionStartRecordPayload.bytes
  simp only [List.append_assoc, ← leBytes_one]
  simp [field_append_right, field_leBytes_append, field_leBytes, hid, hhash, hmask, hcount]

theorem decodeBody_faultEvent (timestampUs : UInt64) (sourceId : UInt32) {event : FaultEvent}
    {health : UInt32} (hcode : event.code.toNat < 256) (hseverity : event.severity.toNat < 256)
    (hhealth : health.toNat < 256) :
    decodeBody RecordType.faultEvent.toUInt8
        (faultEventRecord timestampUs sourceId event health).payload =
      some (.faultEvent event.code.toNat event.severity.toNat health.toNat) := by
  rw [← toNat_toUInt8_of_lt hcode, ← toNat_toUInt8_of_lt hseverity, ← toNat_toUInt8_of_lt hhealth]
  rfl

theorem decodeBody_uartData (sourceId : UInt32) (firstByteTimestampUs : UInt64)
    {bytes : List UInt8} {length : ℕ} (h : UartFits bytes length) :
    decodeBody RecordType.uartData.toUInt8
        (uartDataRecord sourceId firstByteTimestampUs h).payload =
      some (.uartData length (bytes.take length)) := by
  have hle := h.le_capacity
  have hfield : field 0 2 (uartPayload bytes length) = length := by
    rw [uartPayload_eq h]
    exact field_leBytes_append (by omega)
  have hdrop : (uartPayload bytes length).drop UartDataRecordPayloadPrefix.size =
      bytes.take length := by
    rw [uartPayload_eq h]
    exact List.drop_left' (length_leBytes _ _)
  show decodeBody _ (uartPayload bytes length) = _
  unfold decodeBody
  rw [if_neg (by rintro ⟨h, -⟩; cases h), if_neg (by rintro ⟨h, -⟩; cases h), hfield,
    if_pos ⟨rfl, h.length_payload⟩, hdrop]

theorem decodeBody_syncEdge (sourceId : UInt32) (timestampUs : UInt64) (levelHigh : Bool) :
    decodeBody RecordType.syncEdge.toUInt8 (syncEdgeRecord sourceId timestampUs levelHigh).payload =
      some (.syncEdge levelHigh) := by
  cases levelHigh <;> rfl

namespace BuilderCall

variable {p : Platform}

theorem isFrame_of_record {call : BuilderCall p} {r : StoredRecord} (hr : call.record = some r)
    (hsource : call.sourceId.toNat ≤ 255) (henums : call.EnumsFit) :
    ∃ v, call.values = some v ∧ storedRecords.IsFrame r.image v := by
  have hsourceId := toNat_toUInt8_of_lt (Nat.lt_succ_of_le hsource)
  cases stores_of_record hr with
  | sessionStart session config =>
    exact ⟨_, rfl, StoredRecord.isFrame _ (decodeBody_sessionStart session config)⟩
  | faultEvent timestampUs sourceId event health =>
    refine ⟨_, rfl, ?_⟩
    rw [← show sourceId.toUInt8.toNat = sourceId.toNat from hsourceId]
    exact (faultEventRecord timestampUs sourceId event health).isFrame
      (decodeBody_faultEvent timestampUs sourceId henums.1 henums.2.1 henums.2.2)
  | uartData sourceId firstByteTimestampUs hfits =>
    refine ⟨_, rfl, ?_⟩
    rw [← show sourceId.toUInt8.toNat = sourceId.toNat from hsourceId]
    exact (uartDataRecord sourceId firstByteTimestampUs hfits).isFrame
      (decodeBody_uartData sourceId firstByteTimestampUs hfits)
  | syncEdge sourceId timestampUs levelHigh =>
    refine ⟨_, rfl, ?_⟩
    rw [← show sourceId.toUInt8.toNat = sourceId.toNat from hsourceId]
    exact (syncEdgeRecord sourceId timestampUs levelHigh).isFrame
      (decodeBody_syncEdge sourceId timestampUs levelHigh)

end BuilderCall

/-! ## Whole streams -/

variable {p : Platform}

theorem areFrames_of_encodes {calls : List (BuilderCall p)} {images : List (List UInt8)}
    (h : List.Forall₂ BuilderCall.Encodes calls images) (henums : ∀ call ∈ calls, call.EnumsFit) :
    ∃ vs, calls.map BuilderCall.values = vs.map some ∧
      storedRecords.toReader.AreFrames images vs := by
  induction h with
  | nil => exact ⟨[], rfl, .nil⟩
  | cons hd _ ih =>
    obtain ⟨hcall, hcalls⟩ := List.forall_mem_cons.mp henums
    obtain ⟨hsource, r, hr, rfl⟩ := BuilderCall.encodes_iff.mp hd
    obtain ⟨v, hv, hframe⟩ := BuilderCall.isFrame_of_record hr hsource hcall
    obtain ⟨vs, hvs, hframes⟩ := ih hcalls
    refine ⟨v :: vs, ?_, .cons hframe hframes⟩
    rw [List.map_cons, List.map_cons, hv, hvs]

/-- The checksum that a reader recomputes is CRC-32, over the timestamp and the payload. -/
theorem crcMatches_iff_checksum (record : List UInt8) :
    CrcMatches record ↔ (readHeader record).crc32.toBitVec = Crc.checksum Crc.crc32Poly
      (slice 0 BinaryRecordHeader.crc32Offset (record.take BinaryRecordHeader.size) ++
        slice BinaryRecordHeader.size (readHeader record).payloadLength.toNat record) := by
  rw [CrcMatches, recordCrc_eq, ← toBitVec_crc32Bytes]
  exact UInt32.toBitVec_inj.symm

theorem crcMatches_of_encodes {call : BuilderCall p} {image : List UInt8}
    (h : call.Encodes image) : CrcMatches image := by
  obtain ⟨-, r, -, rfl⟩ := BuilderCall.encodes_iff.mp h
  exact r.crcMatches_image

theorem checksum_of_encodes {call : BuilderCall p} {image : List UInt8} (h : call.Encodes image) :
    (readHeader image).crc32.toBitVec = Crc.checksum Crc.crc32Poly
      (slice 0 BinaryRecordHeader.crc32Offset (image.take BinaryRecordHeader.size) ++
        slice BinaryRecordHeader.size (readHeader image).payloadLength.toNat image) :=
  (crcMatches_iff_checksum image).mp (crcMatches_of_encodes h)

/-- **Round trip.** The concatenated images of successful calls are read back, one record for each
call, in order, with the values of the call; every image passes the checksum and fits the buffer. -/
theorem stored_stream_round_trip {calls : List (BuilderCall p)} {images : List (List UInt8)}
    (h : List.Forall₂ BuilderCall.Encodes calls images) (henums : ∀ call ∈ calls, call.EnumsFit) :
    (∃ vs, readStream images.flatten = .ok vs ∧ calls.map BuilderCall.values = vs.map some) ∧
      ∀ image ∈ images, CrcMatches image ∧ image.length ≤ recordBufferCapacityBytes := by
  constructor
  · obtain ⟨vs, hvs, hframes⟩ := areFrames_of_encodes h henums
    exact ⟨vs, FrameReader.readAll_flatten hframes 0, hvs⟩
  · clear henums
    induction h with
    | nil => exact List.forall_mem_nil _
    | cons hd _ ih =>
      obtain ⟨-, r, -, rfl⟩ := BuilderCall.encodes_iff.mp hd
      exact List.forall_mem_cons.mpr ⟨⟨r.crcMatches_image, r.length_image_le⟩, ih⟩

/-- A capture overflow, and four bytes behind it. -/
theorem stored_stream_round_trip_two :
    (∃ vs, readStream [(faultEventRecord 3 4 ⟨.captureOverflow, .fatal⟩ 2).image,
        (uartDataRecord 2 9 (show UartFits [0xde, 0xad, 0xbe, 0xef] 4 by decide)).image].flatten =
          .ok vs ∧
      [BuilderCall.faultEvent (p := .target) 3 4 (some ⟨.captureOverflow, .fatal⟩) 2,
        .uartData 2 9 (some [0xde, 0xad, 0xbe, 0xef]) 4].map BuilderCall.values = vs.map some) ∧
      ∀ image ∈ [(faultEventRecord 3 4 ⟨.captureOverflow, .fatal⟩ 2).image,
        (uartDataRecord 2 9 (show UartFits [0xde, 0xad, 0xbe, 0xef] 4 by decide)).image],
        CrcMatches image ∧ image.length ≤ recordBufferCapacityBytes :=
  stored_stream_round_trip
    (.cons (BuilderCall.encodes_iff.mpr ⟨by decide, _, rfl, rfl⟩)
      (.cons (BuilderCall.encodes_iff.mpr ⟨by decide, _, rfl, rfl⟩) .nil))
    (List.forall_mem_cons.mpr ⟨⟨by decide, by decide, by decide⟩,
      List.forall_mem_cons.mpr ⟨trivial, List.forall_mem_nil _⟩⟩)

end EmbeddedInsDaq
