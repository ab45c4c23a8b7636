import EmbeddedInsDaq.Control.FaultManager
import EmbeddedInsDaq.Control.RuntimeConfig
import EmbeddedInsDaq.Lib.Bytes
import Mathlib.Data.Nat.Basic

/-!
# The record builder

`record_builder.h` and `record_builder.c` on a little-endian build. The buffer `*out` is the only
memory a builder writes; `NULL` is an absent buffer. Everything else it reads (locals, the caller's
structures and UART bytes) lies outside that buffer, as the comments in the source promise. A copy
that leaves its source or the buffer is undefined in C, and the model stops there.
-/

namespace EmbeddedInsDaq

open Bytes

/-! ## Layouts -/

/-- `RECORD_FORMAT_VERSION`. -/
def recordFormatVersion : UInt8 := 1

/-- `RECORD_BUFFER_CAPACITY_BYTES`. -/
def recordBufferCapacityBytes : ℕ := 512

/-- `record_type_t`. -/
inductive RecordType
  | sessionStart
  | faultEvent
  | uartData
  | syncEdge
  deriving DecidableEq, Repr

/-- The enumerator as `build_record` takes it. -/
def RecordType.toUInt8 : RecordType → UInt8
  | .sessionStart => 1
  | .faultEvent => 2
  | .uartData => 3
  | .syncEdge => 4

/-- `binary_record_header_t`. -/
structure BinaryRecordHeader where
  timestampUs : UInt64
  crc32 : UInt32
  payloadLength : UInt16
  recordType : UInt8
  recordVersion : UInt8
  sourceId : UInt8

/-- The packed header in memory. -/
def BinaryRecordHeader.bytes (header : BinaryRecordHeader) : List UInt8 :=
  leBytes 8 header.timestampUs.toNat ++ leBytes 4 header.crc32.toNat ++
    leBytes 2 header.payloadLength.toNat ++
    [header.recordType, header.recordVersion, header.sourceId]

/-- `sizeof(binary_record_header_t)`. -/
def BinaryRecordHeader.size : ℕ := 17

/-- `offsetof(binary_record_header_t, crc32)`. -/
def BinaryRecordHeader.crc32Offset : ℕ := 8

/-- `session_info_t`. -/
structure SessionInfo where
  sessionId : UInt32
  startTimestampUs : UInt64
  deriving DecidableEq

/-- `session_start_record_payload_t`. -/
structure SessionStartRecordPayload where
  sessionId : UInt32
  configHash : UInt32
  enabledPortMask : UInt32
  enabledPortCount : UInt8

def SessionStartRecordPayload.bytes (payload : SessionStartRecordPayload) : List UInt8 :=
  leBytes 4 payload.sessionId.toNat ++ leBytes 4 payload.configHash.toNat ++
    leBytes 4 payload.enabledPortMask.toNat ++ [payload.enabledPortCount]

/-- `sizeof(session_start_record_payload_t)`. -/
def SessionStartRecordPayload.size : ℕ := 13

/-- `fault_event_record_payload_t`. -/
structure FaultEventRecordPayload where
  faultCode : UInt8
  faultSeverity : UInt8
  healthStatus : UInt8

def FaultEventRecordPayload.bytes (payload : FaultEventRecordPayload) : List UInt8 :=
  [payload.faultCode, payload.faultSeverity, payload.healthStatus]

/-- `sizeof(fault_event_record_payload_t)`. -/
def FaultEventRecordPayload.size : ℕ := 3

/-- `uart_data_record_payload_prefix_t`. -/
structure UartDataRecordPayloadPrefix where
  dataLength : UInt16

def UartDataRecordPayloadPrefix.bytes (pre : UartDataRecordPayloadPrefix) : List UInt8 :=
  leBytes 2 pre.dataLength.toNat

/-- `sizeof(uart_data_record_payload_prefix_t)`. -/
def UartDataRecordPayloadPrefix.size : ℕ := 2

/-- `sync_edge_record_payload_t`. -/
structure SyncEdgeRecordPayload where
  edgePolarity : Bool

def SyncEdgeRecordPayload.bytes (payload : SyncEdgeRecordPayload) : List UInt8 :=
  [if payload.edgePolarity then 1 else 0]

/-- `sizeof(sync_edge_record_payload_t)`. -/
def SyncEdgeRecordPayload.size : ℕ := 1

@[simp] theorem BinaryRecordHeader.length_bytes (header : BinaryRecordHeader) :
    header.bytes.length = BinaryRecordHeader.size := by
  simp [BinaryRecordHeader.bytes, BinaryRecordHeader.size]

@[simp] theorem SessionStartRecordPayload.length_bytes (payload : SessionStartRecordPayload) :
    payload.bytes.length = SessionStartRecordPayload.size := by
  simp [SessionStartRecordPayload.bytes, SessionStartRecordPayload.size]

@[simp] theorem FaultEventRecordPayload.length_bytes (payload : FaultEventRecordPayload) :
    payload.bytes.length = FaultEventRecordPayload.size := rfl

@[simp] theorem UartDataRecordPayloadPrefix.length_bytes (pre : UartDataRecordPayloadPrefix) :
    pre.bytes.length = UartDataRecordPayloadPrefix.size :=
  length_leBytes _ _

@[simp] theorem SyncEdgeRecordPayload.length_bytes (payload : SyncEdgeRecordPayload) :
    payload.bytes.length = SyncEdgeRecordPayload.size := rfl

/-! ## Checksum and config hash -/

/-- `kCrc32NibbleTable`. -/
def kCrc32NibbleTable : Vector UInt32 16 :=
  #v[0x00000000, 0x1db71064, 0x3b6e20c8, 0x26d930ac,
    0x76dc4190, 0x6b6b51f4, 0x4db26158, 0x5005713c,
    0xedb88320, 0xf00f9344, 0xd6d6a3e8, 0xcb61b38c,
    0x9b64c2b0, 0x86d3d2d4, 0xa00ae278, 0xbdbdf21c]

/-- `value & 0x0fu` as an index of the table. -/
def nibble (value : UInt32) : Fin 16 :=
  ⟨(value &&& 0x0f).toNat, by
    rw [UInt32.toNat_and]
    exact Nat.lt_succ_of_le Nat.and_le_right⟩

/-- `(value >> 4) ^ kCrc32NibbleTable[value & 0x0fu]`. -/
def crc32Nibble (value : UInt32) : UInt32 := (value >>> 4) ^^^ kCrc32NibbleTable.get (nibble value)

/-- The loop body of `crc32_update`. -/
def crc32Byte (value : UInt32) (byte : UInt8) : UInt32 :=
  crc32Nibble (crc32Nibble (value ^^^ byte.toUInt32))

/-- `crc32_update`. -/
def crc32Update (crc : UInt32) (data : List UInt8) : UInt32 := data.foldl crc32Byte crc

/-- `crc32_bytes`. -/
def crc32Bytes (data : List UInt8) : UInt32 := ~~~ crc32Update 0xffffffff data

theorem crc32Update_append (crc : UInt32) (as bs : List UInt8) :
    crc32Update crc (as ++ bs) = crc32Update (crc32Update crc as) bs :=
  List.foldl_append

/-- The second call of `build_record` continues the first one. -/
theorem not_crc32Update_not_crc32Bytes (as bs : List UInt8) :
    ~~~ crc32Update (~~~ crc32Bytes as) bs = crc32Bytes (as ++ bs) := by
  unfold crc32Bytes
  rw [UInt32.not_not, crc32Update_append]

/-- `kFnvOffsetBasis`. -/
def kFnvOffsetBasis : UInt32 := 2166136261

/-- `kFnvPrime`. -/
def kFnvPrime : UInt32 := 16777619

/-- `fnv1a_mix`, which `record_builder_config_hash` writes out at every field. -/
def fnv1aMix (hash value : UInt32) : UInt32 := (hash ^^^ value) * kFnvPrime

/-- The loop body of `record_builder_config_hash`. -/
def configHashPort (hash : UInt32) (port : RuntimePortConfig) : UInt32 :=
  let hash := fnv1aMix hash (if port.enabled then 1 else 0)
  let hash := fnv1aMix hash port.baudRate.toUInt32
  let hash := fnv1aMix hash port.timingMode
  let hash := fnv1aMix hash port.syncEdgeMode
  let hash := fnv1aMix hash port.triggerPeriodUs
  fnv1aMix hash port.triggerPulseWidthUs

/-- `record_builder_config_hash`. -/
def recordBuilderConfigHash (config : Option RuntimeConfig) : UInt32 :=
  match config with
  | none => 0
  | some config =>
    config.ports.toList.foldl configHashPort
      (fnv1aMix kFnvOffsetBasis (UInt32.ofNat boardPortCount))

/-- The port loop of `record_builder_build_session_start` from index `i`, with the mask and the
count as they stand. -/
def enabledPorts (i : ℕ) (mask : UInt32) (count : UInt8) :
    List RuntimePortConfig → UInt32 × UInt8
  | [] => (mask, count)
  | port :: ports =>
    if i < 32 then
      if !port.enabled then enabledPorts (i + 1) mask count ports
      else enabledPorts (i + 1) (mask ||| 1 <<< UInt32.ofNat i) (count + 1) ports
    else (mask, count)

/-! ## The output buffer -/

/-- `record_buffer_t`. -/
structure RecordBuffer (p : Platform) where
  bytes : List UInt8
  length_bytes : bytes.length = recordBufferCapacityBytes
  length : SizeT p
  deriving DecidableEq

/-- The zero-initialized buffer. -/
def RecordBuffer.zero (p : Platform) : RecordBuffer p where
  bytes := List.replicate recordBufferCapacityBytes 0
  length_bytes := List.length_replicate
  length := 0

/-- The stored record, `bytes[0, length)`. -/
def RecordBuffer.image {p : Platform} (out : RecordBuffer p) : List UInt8 :=
  out.bytes.take out.length.toNat

/-- What a copy reads: an object outside the buffer, or the buffer from an offset. -/
inductive Source
  | object (bytes : List UInt8)
  | out (offset : ℕ)
  deriving DecidableEq

/-- The bytes that may be read from a source on. -/
def Source.size : Source → ℕ
  | .object bytes => bytes.length
  | .out offset => recordBufferCapacityBytes - offset

/-- The first `n` bytes of a source, with `bytes` in the buffer. -/
def Source.read (bytes : List UInt8) (n : ℕ) : Source → List UInt8
  | .object data => data.take n
  | .out offset => slice offset n bytes

/-- A call of `memcpy` into the buffer. -/
structure Memcpy where
  dst : ℕ
  src : Source
  length : ℕ
  deriving DecidableEq

/-- The copy stays inside its source and the buffer. -/
def Memcpy.InBounds (copy : Memcpy) : Prop :=
  copy.dst + copy.length ≤ recordBufferCapacityBytes ∧ copy.length ≤ copy.src.size

instance : DecidablePred Memcpy.InBounds := fun copy =>
  inferInstanceAs (Decidable (copy.dst + copy.length ≤ recordBufferCapacityBytes ∧
    copy.length ≤ copy.src.size))

theorem Source.length_read {bytes : List UInt8} {n : ℕ} {src : Source}
    (hbytes : bytes.length = recordBufferCapacityBytes) (h : n ≤ src.size) :
    (src.read bytes n).length = n := by
  cases src with
  | object data => exact List.length_take_of_le h
  | out offset =>
    have hn : n ≤ recordBufferCapacityBytes - offset := h
    show (slice offset n bytes).length = n
    rcases Nat.eq_zero_or_pos n with rfl | hpos
    · rfl
    · exact length_slice (by omega)

/-- The buffer after a copy. -/
def RecordBuffer.copy {p : Platform} (out : RecordBuffer p) (copy : Memcpy)
    (h : copy.InBounds) : RecordBuffer p where
  bytes := splice out.bytes copy.dst (copy.src.read out.bytes copy.length)
  length_bytes := by
    have hread := Source.length_read out.length_bytes h.2
    rw [length_splice, out.length_bytes]
    rw [hread, out.length_bytes]
    exact h.1
  length := out.length

/-- How a call can leave the defined behavior of C. -/
inductive Undefined
  | nullOut
  | outOfBounds (copy : Memcpy)
  deriving DecidableEq

/-- What a builder works on: `*out`, and the copies it has made so far. -/
structure BuildState (p : Platform) where
  out : Option (RecordBuffer p)
  copies : List Memcpy

/-- A computation on the output buffer. -/
abbrev Build (p : Platform) := StateT (BuildState p) (Except Undefined)

section Primitives

variable {p : Platform}

/-- `*out`. -/
def derefOut : Build p (RecordBuffer p) := fun s =>
  match s.out with
  | none => .error .nullOut
  | some out => .ok (out, s)

def memcpy (copy : Memcpy) : Build p Unit := do
  let out ← derefOut
  if h : copy.InBounds then
    modify fun s => ⟨some (out.copy copy h), s.copies ++ [copy]⟩
  else throw (.outOfBounds copy)

/-- `out->length = length`. -/
def setLength (length : SizeT p) : Build p Unit := do
  let out ← derefOut
  modify fun s => { s with out := some { out with length } }

end Primitives

/-! ## Builders -/

section Builders

variable {p : Platform}

/-- `build_record`. -/
def buildRecord (recordType : RecordType) (timestampUs : UInt64) (sourceId : UInt32)
    (payload : Source) (payloadLength : SizeT p) : Build p EspErr := do
  if sourceId.toNat > 255 ∨ payloadLength.toNat > 65535 then
    return .invalidArg
  else
    let header : BinaryRecordHeader :=
      { recordType := recordType.toUInt8
        recordVersion := recordFormatVersion
        payloadLength := UInt16.ofNat payloadLength.toNat
        timestampUs
        sourceId := sourceId.toUInt8
        crc32 := 0 }
    memcpy ⟨0, .object header.bytes, BinaryRecordHeader.size⟩
    if payloadLength.toNat > 0 then
      memcpy ⟨BinaryRecordHeader.size, payload, payloadLength.toNat⟩
    let out ← derefOut
    let crc := crc32Bytes (slice 0 BinaryRecordHeader.crc32Offset out.bytes)
    let crc :=
      if payloadLength.toNat > 0 then
        ~~~ crc32Update (~~~ crc) (slice BinaryRecordHeader.size payloadLength.toNat out.bytes)
      else crc
    let header := { header with crc32 := crc }
    memcpy ⟨0, .object header.bytes, BinaryRecordHeader.size⟩
    setLength (BitVec.ofNat _ BinaryRecordHeader.size + payloadLength)
    return .ok

/-- `record_builder_build_session_start`. -/
def recordBuilderBuildSessionStart (session : Option SessionInfo)
    (config : Option RuntimeConfig) : Build p EspErr := do
  match session, config, (← get).out with
  | some session, some config, some _ =>
    let (mask, count) := enabledPorts 0 0 0 config.ports.toList
    let payload : SessionStartRecordPayload :=
      { sessionId := session.sessionId
        configHash := recordBuilderConfigHash (some config)
        enabledPortMask := mask
        enabledPortCount := count }
    buildRecord .sessionStart session.startTimestampUs 0 (.object payload.bytes)
      (BitVec.ofNat _ SessionStartRecordPayload.size)
  | _, _, _ => return .invalidArg

/-- `record_builder_build_fault_event`; `health` is the word that holds the enumeration. -/
def recordBuilderBuildFaultEvent (timestampUs : UInt64) (sourceId : UInt32)
    (event : Option FaultEvent) (health : UInt32) : Build p EspErr := do
  match event, (← get).out with
  | some event, some _ =>
    let payload : FaultEventRecordPayload :=
      { faultCode := event.code.toUInt8
        faultSeverity := event.severity.toUInt8
        healthStatus := health.toUInt8 }
    buildRecord .faultEvent timestampUs sourceId (.object payload.bytes)
      (BitVec.ofNat _ FaultEventRecordPayload.size)
  | _, _ => return .invalidArg

/-- `record_builder_build_uart_data`, where `bytes` are the bytes that may be read at the
pointer. -/
def recordBuilderBuildUartData (sourceId : UInt32) (firstByteTimestampUs : UInt64)
    (bytes : Option (List UInt8)) (length : SizeT p) : Build p EspErr := do
  match bytes, (← get).out with
  | some bytes, some _ =>
    if length.toNat = 0 then
      return .invalidArg
    else if (BitVec.ofNat _ BinaryRecordHeader.size +
        BitVec.ofNat _ UartDataRecordPayloadPrefix.size + length).toNat >
        recordBufferCapacityBytes then
      return .noMem
    else
      let pre : UartDataRecordPayloadPrefix := { dataLength := UInt16.ofNat length.toNat }
      memcpy ⟨BinaryRecordHeader.size, .object pre.bytes, UartDataRecordPayloadPrefix.size⟩
      memcpy ⟨BinaryRecordHeader.size + UartDataRecordPayloadPrefix.size, .object bytes,
        length.toNat⟩
      buildRecord .uartData firstByteTimestampUs sourceId (.out BinaryRecordHeader.size)
        (BitVec.ofNat _ UartDataRecordPayloadPrefix.size + length)
  | _, _ => return .invalidArg

/-- `record_builder_build_sync_edge`. -/
def recordBuilderBuildSyncEdge (sourceId : UInt32) (timestampUs : UInt64) (levelHigh : Bool) :
    Build p EspErr := do
  match (← get).out with
  | some _ =>
    let payload : SyncEdgeRecordPayload := { edgePolarity := levelHigh }
    buildRecord .syncEdge timestampUs sourceId (.object payload.bytes)
      (BitVec.ofNat _ SyncEdgeRecordPayload.size)
  | none => return .invalidArg

/-- A call of one of the four builders, without `out`. -/
inductive BuilderCall (p : Platform)
  | sessionStart (session : Option SessionInfo) (config : Option RuntimeConfig)
  | faultEvent (timestampUs : UInt64) (sourceId : UInt32) (event : Option FaultEvent)
      (health : UInt32)
  | uartData (sourceId : UInt32) (firstByteTimestampUs : UInt64) (bytes : Option (List UInt8))
      (length : SizeT p)
  | syncEdge (sourceId : UInt32) (timestampUs : UInt64) (levelHigh : Bool)
  deriving DecidableEq

/-- The builder that is called. -/
def BuilderCall.build : BuilderCall p → Build p EspErr
  | .sessionStart session config => recordBuilderBuildSessionStart session config
  | .faultEvent timestampUs sourceId event health =>
    recordBuilderBuildFaultEvent timestampUs sourceId event health
  | .uartData sourceId firstByteTimestampUs bytes length =>
    recordBuilderBuildUartData sourceId firstByteTimestampUs bytes length
  | .syncEdge sourceId timestampUs levelHigh =>
    recordBuilderBuildSyncEdge sourceId timestampUs levelHigh

/-- The call over a buffer: what it returns, and `*out` afterwards. -/
def BuilderCall.run (call : BuilderCall p) (out : Option (RecordBuffer p)) :
    Except Undefined (EspErr × Option (RecordBuffer p)) :=
  (call.build.run ⟨out, []⟩).map fun (err, s) => (err, s.out)

end Builders

end EmbeddedInsDaq
