import EmbeddedInsDaq.Lib.Framing
import EmbeddedInsDaq.Logging.BuilderCalls

/-!
# Reading stored records back

A reader of the packed layouts of `record_builder.h`, for statements about what the builders store:
`readHeader` and `decodeBody` take the fields at their offsets, `CrcMatches` recomputes the
checksum over the bytes that `build_record` covers, and `storedRecords` frames a stream by
`payload_length`.
-/

namespace EmbeddedInsDaq

open Bytes

/-! ## The header -/

/-- The packed header that a record starts with. -/
def readHeader (record : List UInt8) : BinaryRecordHeader where
  timestampUs := UInt64.ofNat (field 0 8 record)
  crc32 := UInt32.ofNat (field 8 4 record)
  payloadLength := UInt16.ofNat (field 12 2 record)
  recordType := UInt8.ofNat (field 14 1 record)
  recordVersion := UInt8.ofNat (field 15 1 record)
  sourceId := UInt8.ofNat (field 16 1 record)

theorem leBytes_one (b : UInt8) : leBytes 1 b.toNat = [b] := by
  rw [leBytes, UInt8.ofNat_toNat]
  rfl

theorem BinaryRecordHeader.bytes_eq (header : BinaryRecordHeader) :
    header.bytes =
      leBytes 8 header.timestampUs.toNat ++ (leBytes 4 header.crc32.toNat ++
        (leBytes 2 header.payloadLength.toNat ++ (leBytes 1 header.recordType.toNat ++
          (leBytes 1 header.recordVersion.toNat ++ leBytes 1 header.sourceId.toNat)))) := by
  rw [leBytes_one, leBytes_one, leBytes_one, BinaryRecordHeader.bytes, List.append_assoc,
    List.append_assoc]
  rfl

theorem readHeader_bytes (header : BinaryRecordHeader) (rest : List UInt8) :
    readHeader (header.bytes ++ rest) = header := by
  have htimestamp := header.timestampUs.toNat_lt
  have hcrc := header.crc32.toNat_lt
  have hlength := header.payloadLength.toNat_lt
  have htype := header.recordType.toNat_lt
  have hversion := header.recordVersion.toNat_lt
  have hsource := header.sourceId.toNat_lt
  rw [header.bytes_eq]
  simp [readHeader, field_append_right, field_leBytes_append, htimestamp, hcrc, hlength, htype,
    hversion, hsource]

/-! ## The checksum -/

/-- The checksum of `build_record` over a header and a payload in memory. -/
def recordCrc (header payload : List UInt8) : UInt32 :=
  let crc := crc32Bytes (slice 0 BinaryRecordHeader.crc32Offset header)
  if payload.length > 0 then ~~~ crc32Update (~~~ crc) payload else crc

theorem recordCrc_eq (header payload : List UInt8) :
    recordCrc header payload =
      crc32Bytes (slice 0 BinaryRecordHeader.crc32Offset header ++ payload) := by
  unfold recordCrc
  split_ifs with h
  · exact not_crc32Update_not_crc32Bytes _ _
  · rw [List.eq_nil_of_length_eq_zero (Nat.eq_zero_of_not_pos h), List.append_nil]

/-- The stored checksum of a record is the one that `build_record` computes over its header and
its `payload_length` payload bytes. -/
def CrcMatches (record : List UInt8) : Prop :=
  (readHeader record).crc32 =
    recordCrc (record.take BinaryRecordHeader.size)
      (slice BinaryRecordHeader.size (readHeader record).payloadLength.toNat record)

instance : DecidablePred CrcMatches := fun _ => inferInstanceAs (Decidable (_ = _))

/-- The check on a record in parts: timestamp, checksum, payload length, the three bytes behind it,
and the payload. -/
theorem crcMatches_iff {timestamp crc length rest payload : List UInt8}
    (htimestamp : timestamp.length = 8) (hcrc : crc.length = 4) (hlength : length.length = 2)
    (hrest : rest.length = 3) (hpayload : leNat length = payload.length) :
    CrcMatches (timestamp ++ (crc ++ (length ++ (rest ++ payload)))) ↔
      leNat crc = (crc32Bytes (timestamp ++ payload)).toNat := by
  have hheader : timestamp ++ (crc ++ (length ++ (rest ++ payload))) =
      (timestamp ++ (crc ++ (length ++ rest))) ++ payload := by
    simp only [List.append_assoc]
  have hsize : BinaryRecordHeader.size = (timestamp ++ (crc ++ (length ++ rest))).length := by
    simp [htimestamp, hcrc, hlength, hrest, BinaryRecordHeader.size]
  have hcrcField : field 8 4 (timestamp ++ (crc ++ (length ++ (rest ++ payload)))) = leNat crc := by
    rw [field_append_right htimestamp.le, htimestamp, Nat.sub_self, field,
      slice_zero_append hcrc.symm]
  have hlengthField : field 12 2 (timestamp ++ (crc ++ (length ++ (rest ++ payload)))) =
      payload.length := by
    rw [field_append_right (by omega), field_append_right (by omega), htimestamp, hcrc, field,
      slice_zero_append hlength.symm, hpayload]
  have hcrcLt : leNat crc < 2 ^ 32 := by
    have hlt := leNat_lt crc
    rwa [hcrc] at hlt
  have hlengthLt : payload.length < 2 ^ 16 := by
    have hlt := leNat_lt length
    rwa [hlength, hpayload] at hlt
  unfold CrcMatches readHeader
  dsimp only
  rw [hcrcField, hlengthField, recordCrc_eq, UInt16.toNat_ofNat', Nat.mod_eq_of_lt hlengthLt,
    hheader, hsize, List.take_left, slice_append_eq rfl, List.take_length,
    show BinaryRecordHeader.crc32Offset = 8 from rfl, slice_zero_append htimestamp.symm,
    ← UInt32.toNat_inj, UInt32.toNat_ofNat', Nat.mod_eq_of_lt hcrcLt]

namespace StoredRecord

variable (r : StoredRecord)

theorem image_eq : r.image =
    leBytes 8 r.timestampUs.toNat ++ (leBytes 4 (crc32Bytes r.covered).toNat ++
      (leBytes 2 r.payload.length ++
        ([r.recordType.toUInt8, recordFormatVersion, r.sourceId] ++ r.payload))) := by
  have hlength : (UInt16.ofNat r.payload.length).toNat = r.payload.length := by
    rw [UInt16.toNat_ofNat', Nat.mod_eq_of_lt r.length_payload_lt]
  show (leBytes 8 r.timestampUs.toNat ++ leBytes 4 _ ++
    leBytes 2 (UInt16.ofNat r.payload.length).toNat ++ _) ++ _ = _
  rw [hlength]
  simp only [List.append_assoc]
  rfl

theorem crcMatches_image : CrcMatches r.image := by
  rw [r.image_eq, crcMatches_iff (length_leBytes _ _) (length_leBytes _ _) (length_leBytes _ _) rfl
    (leNat_leBytes_of_lt r.length_payload_lt)]
  exact leNat_leBytes_of_lt (UInt32.toNat_lt _)

end StoredRecord

end EmbeddedInsDaq
