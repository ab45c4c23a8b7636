import EmbeddedInsDaq.Logging.RecordStream
import EmbeddedInsDaq.Tools.LogGrammar

/-!
# The parser on the builders' output

The parser expects headers of 24 bytes with the checksum last; the builders write the compact
header of 17 bytes with the checksum third. `round_trips_iff` says what comes of it: no log with a
record in it survives the trip.

The argument needs only the first record. Where the parser looks for the timestamp, its top byte is
the version, which is 1; if the parser is right about the timestamp, then the top byte of what it
takes for the payload length is 1 too, and no known record type has such a payload.
-/

namespace EmbeddedInsDaq

open Bytes

/-! ## The round trip -/

/-- The keys that the parser adds for the values of a payload. -/
def RecordBody.fields : RecordBody → RecordFields
  | .sessionStart sessionId configHash enabledPortMask enabledPortCount =>
    .sessionStart sessionId configHash enabledPortMask enabledPortCount
  | .faultEvent faultCode faultSeverity healthStatus =>
    .faultEvent faultCode faultSeverity healthStatus
  | .uartData dataLength data => .uartData dataLength (hex data)
  | .syncEdge edgePolarity => .syncEdge edgePolarity.toNat

/-- An entry of the parser's list says what the call said. -/
def RecordDict.Agrees (d : RecordDict) (v : RecordValues) : Prop :=
  d.type = recordTypeName v.recordType ∧ d.version = v.recordVersion ∧
    d.timestampUs = v.timestampUs ∧ d.sourceId = v.sourceId ∧ d.fields = v.body.fields

/-- The parser takes the images back to the calls, one for one and in order. -/
def RoundTrips {p : Platform} (calls : List (BuilderCall p)) (images : List (List UInt8)) : Prop :=
  ∃ ds, parseBinaryLog images.flatten = .ok ds ∧
    List.Forall₂ (fun call d => ∃ v, call.values = some v ∧ d.Agrees v) calls ds

/-! ## Payload lengths -/

theorem length_payload_le {recordType : ℕ} {payload : List UInt8} {body : RecordBody}
    (hshape : PayloadShape recordType payload)
    (hfields : payloadFields recordType payload = body.fields)
    (hdata : ∀ dataLength data, body = .uartData dataLength data → dataLength ≤ 493) :
    payload.length ≤ 497 := by
  by_cases h1 : recordType = 1 ∨ recordType = 2
  · rw [PayloadShape, if_pos h1] at hshape
    omega
  by_cases h3 : recordType = 3
  · subst h3
    rw [PayloadShape, if_neg h1, if_pos rfl, List.length_drop] at hshape
    cases body with
    | uartData dataLength data =>
      have hlength : field 0 4 payload = dataLength := (RecordFields.uartData.inj hfields).1
      have hle := hdata dataLength data rfl
      omega
    | sessionStart => cases hfields
    | faultEvent => cases hfields
    | syncEdge => cases hfields
  by_cases h4 : recordType = 4
  · rw [PayloadShape, if_neg h1, if_neg h3, if_pos h4] at hshape
    omega
  rw [not_or] at h1
  rw [payloadFields, if_neg h1.1, if_neg h1.2, if_neg h3, if_neg h4] at hfields
  cases body <;> cases hfields

theorem BuilderCall.values_of_record {p : Platform} {call : BuilderCall p} {r : StoredRecord}
    {v : RecordValues} (hr : call.record = some r) (hv : call.values = some v) :
    v.timestampUs = r.timestampUs.toNat ∧
      ∀ dataLength data, v.body = .uartData dataLength data → dataLength ≤ 493 := by
  cases stores_of_record hr with
  | sessionStart session config =>
    cases hv
    exact ⟨rfl, nofun⟩
  | faultEvent timestampUs sourceId event health =>
    cases hv
    exact ⟨rfl, nofun⟩
  | uartData sourceId firstByteTimestampUs hfits =>
    cases hv
    refine ⟨rfl, ?_⟩
    rintro _ _ ⟨⟩
    exact hfits.le_capacity
  | syncEdge sourceId timestampUs levelHigh =>
    cases hv
    exact ⟨rfl, nofun⟩

/-! ## The first record -/

/-- Where both layouts find the same timestamp, the length the parser finds is large. -/
theorem payloadLength_ge {stream : List UInt8} (hlen : 24 ≤ stream.length)
    (htimestamp : field 8 8 stream = field 0 8 stream) (hversion : field 15 1 stream = 1) :
    256 ^ 3 ≤ field 4 4 stream := by
  have hlow : field 0 7 stream < 256 ^ 7 := field_lt (by omega)
  have hlow' : field 8 7 stream < 256 ^ 7 := field_lt (by omega)
  have hencoder : field 0 8 stream = field 0 7 stream + 256 ^ 7 * field 7 1 stream :=
    field_add 0 7 1 stream (by omega)
  have hparser : field 8 8 stream = field 8 7 stream + 256 ^ 7 * field 15 1 stream :=
    field_add 8 7 1 stream (by omega)
  have hlength : field 4 4 stream = field 4 3 stream + 256 ^ 3 * field 7 1 stream :=
    field_add 4 3 1 stream (by omega)
  have htop : field 7 1 stream = 1 := by omega
  omega

theorem StoredRecord.field_image (r : StoredRecord) (rest : List UInt8) :
    field 0 8 (r.image ++ rest) = r.timestampUs.toNat ∧ field 15 1 (r.image ++ rest) = 1 := by
  have hlen : 17 ≤ (r.image ++ rest).length := by
    rw [List.length_append, r.length_image]
    unfold BinaryRecordHeader.size
    omega
  have hread : readHeader (r.image ++ rest) = r.header := by
    rw [image, List.append_assoc]
    exact readHeader_bytes r.header _
  have htimestamp : (UInt64.ofNat (field 0 8 (r.image ++ rest))).toNat = r.timestampUs.toNat :=
    congrArg (fun header => header.timestampUs.toNat) hread
  have hversion : (UInt8.ofNat (field 15 1 (r.image ++ rest))).toNat = 1 :=
    congrArg (fun header => header.recordVersion.toNat) hread
  have hlt : field 0 8 (r.image ++ rest) < 2 ^ 64 := field_lt (by omega)
  have hlt' : field 15 1 (r.image ++ rest) < 2 ^ 8 := field_lt (by omega)
  rw [UInt64.toNat_ofNat', Nat.mod_eq_of_lt hlt] at htimestamp
  rw [UInt8.toNat_ofNat', Nat.mod_eq_of_lt hlt'] at hversion
  exact ⟨htimestamp, hversion⟩

theorem LogRecord.field_bytes (r : LogRecord) (rest : List UInt8) :
    field 4 4 (r.bytes ++ rest) = r.payload.length ∧
      field 8 8 (r.bytes ++ rest) = r.timestampUs.toNat := by
  have hlen : r.header.length = 24 := r.length_header
  have hpayload : (unpackHeader r.header).payloadLength = r.payload.length := by
    rw [r.unpackHeader_header]
  have htimestamp : (unpackHeader r.header).timestampUs = r.timestampUs.toNat := by
    rw [r.unpackHeader_header]
  rw [bytes, List.append_assoc, field_append_left (by omega), field_append_left (by omega)]
  exact ⟨hpayload, htimestamp⟩

theorem not_agrees_of_image {p : Platform} {call : BuilderCall p} {image rest rest' : List UInt8}
    (hcall : call.Encodes image) {r : LogRecord} (hstream : image ++ rest = r.bytes ++ rest')
    {v : RecordValues} (hv : call.values = some v) : ¬ r.dict.Agrees v := by
  rintro ⟨-, -, htimestamp, -, hfields⟩
  obtain ⟨-, stored, hr, rfl⟩ := BuilderCall.encodes_iff.mp hcall
  obtain ⟨hvalue, hdata⟩ := BuilderCall.values_of_record hr hv
  obtain ⟨hencoder, hversion⟩ := stored.field_image rest
  obtain ⟨hlength, hparser⟩ := r.field_bytes rest'
  rw [hstream] at hencoder hversion
  have hlen : 24 ≤ (r.bytes ++ rest').length := by
    rw [List.length_append, LogRecord.bytes, List.length_append, r.length_header]
    unfold headerStructSize
    omega
  have hsame : field 8 8 (r.bytes ++ rest') = field 0 8 (r.bytes ++ rest') := by
    rw [hparser, hencoder, ← hvalue]
    exact htimestamp
  have hlarge := payloadLength_ge hlen hsame hversion
  have hsmall := length_payload_le r.shape hfields hdata
  rw [hlength] at hlarge
  omega

/-! ## Whole logs -/

variable {p : Platform}

/-- **Round trip.** The parser takes the images of successful calls back to the calls only when
there are none. -/
theorem round_trips_iff {calls : List (BuilderCall p)} {images : List (List UInt8)}
    (h : List.Forall₂ BuilderCall.Encodes calls images) : RoundTrips calls images ↔ calls = [] := by
  constructor
  · rintro ⟨ds, hparse, hagree⟩
    obtain ⟨rs, hdata, rfl⟩ := parseBinaryLog_eq_ok_iff.mp hparse
    cases h with
    | nil => rfl
    | cons hcall _ =>
      cases rs with
      | nil => cases hagree
      | cons r rs =>
        obtain ⟨⟨v, hv, hr⟩, -⟩ := List.forall₂_cons.mp hagree
        exact absurd hr (not_agrees_of_image hcall hdata hv)
  · rintro rfl
    cases h
    exact ⟨[], parseBinaryLog_eq_ok_iff.mpr ⟨[], rfl, rfl⟩, .nil⟩

/-- The 18 bytes of a sync edge are no header for the parser. -/
theorem not_roundTrips_syncEdge :
    List.Forall₂ BuilderCall.Encodes [BuilderCall.syncEdge (p := .target) 6 5 false]
        [(syncEdgeRecord 6 5 false).image] ∧
      parseBinaryLog (syncEdgeRecord 6 5 false).image = .error (.truncatedHeader 0) ∧
      ¬ RoundTrips [BuilderCall.syncEdge (p := .target) 6 5 false]
        [(syncEdgeRecord 6 5 false).image] := by
  have hparse : parseBinaryLog (syncEdgeRecord 6 5 false).image = .error (.truncatedHeader 0) := by
    have hlen : (syncEdgeRecord 6 5 false).image.length = 18 := by
      rw [StoredRecord.length_image]
      rfl
    have hread : logRecords.read 0 ((syncEdgeRecord 6 5 false).image.drop 0) =
        .error (.truncatedHeader 0) := by
      rw [read_drop, if_pos (by rw [hlen]; decide)]
    unfold parseBinaryLog
    rw [parseLoop_step (by rw [hlen]; decide), hread]
  refine ⟨.cons (BuilderCall.encodes_iff.mpr ⟨by decide, _, rfl, rfl⟩) .nil, hparse, ?_⟩
  rintro ⟨ds, h, -⟩
  rw [List.flatten_cons, List.flatten_nil, List.append_nil, hparse] at h
  cases h

/-- One sync edge is one call too many. -/
theorem round_trips_iff_syncEdge :
    RoundTrips [BuilderCall.syncEdge (p := .target) 6 5 false] [(syncEdgeRecord 6 5 false).image] ↔
      [BuilderCall.syncEdge (p := .target) 6 5 false] = [] :=
  round_trips_iff (.cons (BuilderCall.encodes_iff.mpr ⟨by decide, _, rfl, rfl⟩) .nil)

end EmbeddedInsDaq
