import EmbeddedInsDaq.Lib.Bytes
import EmbeddedInsDaq.Lib.Crc
import EmbeddedInsDaq.Lib.Framing

/-!
# The binary log parser

`tools/parse_binary_log.py`, on the bytes of the file. Integers are the unbounded ones of the
language, so offsets and lengths are natural numbers; a dict is a structure, with the keys that
depend on the record type in one inductive type. `parseLoop_eq` connects the loop over offsets to
the frame reader that its body is.
-/

namespace EmbeddedInsDaq

open Bytes

/-! ## Exceptions -/

/-- What the parser raises. -/
inductive ParseError
  | truncatedHeader (offset : ℕ)
  | truncatedPayload (offset : ℕ)
  | crcMismatch (offset expected got : ℕ)
  | uartLengthMismatch
  | structError (size : ℕ)
  deriving DecidableEq, Repr

/-- `struct.error` is an exception of its own; the others are `ValueError`s. -/
def ParseError.isValueError : ParseError → Bool
  | .structError _ => false
  | _ => true

/-- The text of the exception. -/
def ParseError.message : ParseError → String
  | .truncatedHeader offset => s!"truncated header at byte offset {offset}"
  | .truncatedPayload offset => s!"truncated payload at byte offset {offset}"
  | .crcMismatch offset expected got =>
    s!"crc mismatch at byte offset {offset}: expected {expected}, got {got}"
  | .uartLengthMismatch => "uart_data payload length does not match encoded prefix"
  | .structError size => s!"unpack requires a buffer of {size} bytes"

/-! ## Layouts -/

/-- `HEADER_STRUCT.size`, of `<HHIQII`. -/
def headerStructSize : ℕ := 24

/-- The tuple that `HEADER_STRUCT.unpack` returns. -/
structure LogHeader where
  recordType : ℕ
  version : ℕ
  payloadLength : ℕ
  timestampUs : ℕ
  sourceId : ℕ
  crc32 : ℕ
  deriving DecidableEq

/-- `HEADER_STRUCT.unpack`, on the 24 bytes the loop takes. -/
def unpackHeader (bytes : List UInt8) : LogHeader where
  recordType := field 0 2 bytes
  version := field 2 2 bytes
  payloadLength := field 4 4 bytes
  timestampUs := field 8 8 bytes
  sourceId := field 16 4 bytes
  crc32 := field 20 4 bytes

/-- The length check of `Struct.unpack`. -/
def checkStructSize (size : ℕ) (bytes : List UInt8) : Except ParseError Unit :=
  if bytes.length = size then .ok () else .error (.structError size)

/-- `SESSION_START_STRUCT.size` and `FAULT_EVENT_STRUCT.size`, of `<IIII`. -/
def fourWordsSize : ℕ := 16

/-- `UART_PREFIX_STRUCT.size`, of `<I`. -/
def uartPrefixStructSize : ℕ := 4

/-- `SYNC_EDGE_STRUCT.size`, of `<II`. -/
def syncEdgeStructSize : ℕ := 8

/-- `RECORD_TYPES`. -/
def recordTypes : List (ℕ × String) :=
  [(1, "session_start"), (2, "fault_event"), (3, "uart_data"), (4, "sync_edge")]

/-- The lookup in `RECORD_TYPES`, with the name made up for other types. -/
def recordTypeName (recordType : ℕ) : String :=
  (recordTypes.lookup recordType).getD s!"unknown_{recordType}"

/-- `bytes.hex()`. -/
def hex (bytes : List UInt8) : String :=
  String.ofList (bytes.flatMap fun b => [(b.toNat / 16).digitChar, (b.toNat % 16).digitChar])

/-! ## Records -/

/-- The keys that a record's type adds. -/
inductive RecordFields
  | sessionStart (sessionId configHash enabledPortMask enabledPortCount : ℕ)
  | faultEvent (faultCode faultSeverity healthStatus : ℕ)
  | uartData (dataLength : ℕ) (dataHex : String)
  | syncEdge (edgePolarity : ℕ)
  | unknown (payloadHex : String)
  deriving DecidableEq

/-- The dict of a record. -/
structure RecordDict where
  type : String
  version : ℕ
  payloadLength : ℕ
  timestampUs : ℕ
  sourceId : ℕ
  crc32 : ℕ
  fields : RecordFields
  deriving DecidableEq

/-- The keys that every record has, with the given others. -/
def LogHeader.dict (header : LogHeader) (fields : RecordFields) : RecordDict where
  type := recordTypeName header.recordType
  version := header.version
  payloadLength := header.payloadLength
  timestampUs := header.timestampUs
  sourceId := header.sourceId
  crc32 := header.crc32
  fields := fields

/-- The branches of `_decode_record` on the record type. -/
def decodeFields (recordType : ℕ) (payload : List UInt8) : Except ParseError RecordFields := do
  if recordType = 1 then
    checkStructSize fourWordsSize payload
    return .sessionStart (field 0 4 payload) (field 4 4 payload) (field 8 4 payload)
      (field 12 4 payload)
  else if recordType = 2 then
    checkStructSize fourWordsSize payload
    return .faultEvent (field 0 4 payload) (field 4 4 payload) (field 8 4 payload)
  else if recordType = 3 then
    let pre := payload.take uartPrefixStructSize
    checkStructSize uartPrefixStructSize pre
    let dataLength := field 0 4 pre
    let data := payload.drop uartPrefixStructSize
    if data.length ≠ dataLength then throw .uartLengthMismatch
    return .uartData dataLength (hex data)
  else if recordType = 4 then
    checkStructSize syncEdgeStructSize payload
    return .syncEdge (field 0 4 payload)
  else
    return .unknown (hex payload)

/-- `_decode_record`. -/
def decodeRecord (header : LogHeader) (payload : List UInt8) : Except ParseError RecordDict :=
  (decodeFields header.recordType payload).map header.dict

/-- `zlib.crc32(data, value)`: the CRC-32 of the standard, continued from `value`. -/
def zlibCrc32 (data : List UInt8) (value : BitVec 32) : BitVec 32 :=
  ~~~ Crc.update Crc.crc32Poly (~~~ value) data

/-- The checksum the loop expects of a record. -/
def expectedCrc (headerBytes payload : List UInt8) : ℕ :=
  let expected := zlibCrc32 (headerBytes.take (headerBytes.length - 4)) 0
  (zlibCrc32 payload expected &&& 0xffffffff).toNat

/-! ## The loop -/

/-- The loop of `parse_binary_log`, from `offset` and with the `records` as they stand. -/
def parseLoop (data : List UInt8) (offset : ℕ) (records : List RecordDict) :
    Except ParseError (List RecordDict) :=
  if offset < data.length then
    if offset + headerStructSize > data.length then .error (.truncatedHeader offset)
    else
      let headerBytes := slice offset headerStructSize data
      let header := unpackHeader headerBytes
      let payloadStart := offset + headerStructSize
      let payloadEnd := payloadStart + header.payloadLength
      if payloadEnd > data.length then .error (.truncatedPayload offset)
      else
        let payload := slice payloadStart (payloadEnd - payloadStart) data
        let expected := expectedCrc headerBytes payload
        if expected ≠ header.crc32 then .error (.crcMismatch offset expected header.crc32)
        else
          match decodeRecord header payload with
          | .error e => .error e
          | .ok record => parseLoop data payloadEnd (records ++ [record])
  else .ok records
termination_by data.length - offset
decreasing_by
  show data.length - (offset + 24 + _) < data.length - offset
  omega

/-- `parse_binary_log`, on the bytes it reads from the path. -/
def parseBinaryLog (data : List UInt8) : Except ParseError (List RecordDict) := parseLoop data 0 []

/-! ## The loop as a frame reader -/

/-- The checks of one record, once its bytes are there. -/
def decodeChecked (pos : ℕ) (headerBytes payload : List UInt8) : Except ParseError RecordDict :=
  let header := unpackHeader headerBytes
  let expected := expectedCrc headerBytes payload
  if expected ≠ header.crc32 then .error (.crcMismatch pos expected header.crc32)
  else decodeRecord header payload

/-- A header and a payload that decode to `record`. -/
def LogCarries (headerBytes payload : List UInt8) (record : RecordDict) : Prop :=
  expectedCrc headerBytes payload = (unpackHeader headerBytes).crc32 ∧
    decodeRecord (unpackHeader headerBytes) payload = .ok record

theorem decodeChecked_eq_ok_iff (pos : ℕ) (headerBytes payload : List UInt8)
    (record : RecordDict) :
    decodeChecked pos headerBytes payload = .ok record ↔ LogCarries headerBytes payload record := by
  unfold decodeChecked LogCarries
  by_cases hcrc : expectedCrc headerBytes payload = (unpackHeader headerBytes).crc32
  · rw [if_neg (not_not.mpr hcrc)]
    exact (and_iff_right hcrc).symm
  · rw [if_pos hcrc]
    exact iff_of_false nofun fun h => hcrc h.1

/-- The records of a log, framed by `payload_length`. -/
def logRecords : LengthPrefixed UInt8 ParseError RecordDict where
  headerSize := headerStructSize
  headerSize_pos := by decide
  payloadSize headerBytes := (unpackHeader headerBytes).payloadLength
  truncatedHeader := .truncatedHeader
  truncatedPayload := .truncatedPayload
  decode := decodeChecked
  Carries := LogCarries
  decode_eq_ok_iff := decodeChecked_eq_ok_iff

theorem drop_ne_nil {data : List UInt8} {offset : ℕ} (h : offset < data.length) :
    data.drop offset ≠ [] := by
  intro hnil
  exact absurd (List.drop_eq_nil_iff.mp hnil) (Nat.not_le_of_lt h)

theorem read_drop (data : List UInt8) (offset : ℕ) :
    logRecords.read offset (data.drop offset) =
      if data.length - offset < headerStructSize then .error (.truncatedHeader offset)
      else
        let headerBytes := slice offset headerStructSize data
        let payloadStart := offset + headerStructSize
        let payloadLength := (unpackHeader headerBytes).payloadLength
        if data.length - payloadStart < payloadLength then .error (.truncatedPayload offset)
        else (decodeChecked offset headerBytes (slice payloadStart payloadLength data)).map
          fun record => (record, data.drop (payloadStart + payloadLength)) := by
  unfold LengthPrefixed.read
  rw [List.length_drop, List.drop_drop]
  dsimp only
  rw [List.length_drop, List.drop_drop]
  rfl

theorem parseLoop_step {data : List UInt8} {offset : ℕ} (hlt : offset < data.length)
    (records : List RecordDict) :
    parseLoop data offset records =
      match logRecords.read offset (data.drop offset) with
      | .error e => .error e
      | .ok (record, rest) => parseLoop data (data.length - rest.length) (records ++ [record]) := by
  rw [parseLoop, if_pos hlt, read_drop]
  by_cases hheader : offset + headerStructSize > data.length
  · have hheader' : data.length - offset < headerStructSize := by omega
    rw [if_pos hheader, if_pos hheader']
  have hheader' : ¬ data.length - offset < headerStructSize := by omega
  rw [if_neg hheader, if_neg hheader']
  dsimp only
  by_cases hpayload : offset + headerStructSize +
      (unpackHeader (slice offset headerStructSize data)).payloadLength > data.length
  · have hpayload' : data.length - (offset + headerStructSize) <
        (unpackHeader (slice offset headerStructSize data)).payloadLength := by omega
    rw [if_pos hpayload, if_pos hpayload']
  have hpayload' : ¬ data.length - (offset + headerStructSize) <
      (unpackHeader (slice offset headerStructSize data)).payloadLength := by omega
  rw [if_neg hpayload, if_neg hpayload', Nat.add_sub_cancel_left]
  unfold decodeChecked
  dsimp only
  split_ifs with hcrc
  · rfl
  · cases decodeRecord (unpackHeader (slice offset headerStructSize data))
        (slice (offset + headerStructSize)
          (unpackHeader (slice offset headerStructSize data)).payloadLength data) with
    | error e => rfl
    | ok record =>
      show parseLoop data _ _ = parseLoop data (data.length - (data.drop _).length) _
      rw [List.length_drop, Nat.sub_sub_self (Nat.le_of_not_lt hpayload)]

/-- **Loop.** The loop reads frames, and appends them to the records it has. -/
theorem parseLoop_eq (data : List UInt8) (offset : ℕ) (records : List RecordDict) :
    parseLoop data offset records =
      (logRecords.toReader.readAll offset (data.drop offset)).map (records ++ ·) := by
  by_cases hlt : offset < data.length
  · rw [parseLoop_step hlt]
    cases hread : logRecords.read offset (data.drop offset) with
    | error e => rw [FrameReader.readAll_of_error (drop_ne_nil hlt) hread]; rfl
    | ok result =>
      obtain ⟨record, rest⟩ := result
      -- what is left is the data from the new offset on
      obtain ⟨f, hf, hframe⟩ := LengthPrefixed.exists_of_read_eq_ok hread
      have hpos := List.length_pos_of_ne_nil (logRecords.toReader.ne_nil hframe)
      have hlen : data.length - offset = f.length + rest.length := by
        rw [← List.length_drop, hf, List.length_append]
      have hoffset : data.length - rest.length = offset + f.length := by omega
      have hrest : data.drop (offset + f.length) = rest := by
        rw [← List.drop_drop, hf, List.drop_left]
      have hread' : logRecords.toReader.read offset (data.drop offset) = .ok (record, rest) := hread
      dsimp only
      rw [FrameReader.readAll_of_ok hread', hoffset, parseLoop_eq data, hrest, List.length_drop,
        hlen, Nat.add_sub_cancel]
      cases logRecords.toReader.readAll (offset + f.length) rest with
      | error e => rfl
      | ok bs =>
        show Except.ok (records ++ [record] ++ bs) = .ok (records ++ record :: bs)
        rw [List.append_assoc]
        rfl
  · rw [parseLoop, if_neg hlt, List.drop_of_length_le (Nat.le_of_not_lt hlt),
      FrameReader.readAll_nil]
    show _ = Except.ok (records ++ [])
    rw [List.append_nil]
termination_by data.length - offset

theorem parseBinaryLog_eq (data : List UInt8) :
    parseBinaryLog data = logRecords.toReader.readAll 0 data := by
  unfold parseBinaryLog
  rw [parseLoop_eq, List.drop_zero]
  cases logRecords.toReader.readAll 0 data <;> rfl

end EmbeddedInsDaq
