import EmbeddedInsDaq.Logging.RecordImage

/-!
# What a builder call stores

Every call of a builder comes down to a `StoredRecord`, if its arguments are there and its UART
bytes fit (`BuilderCall.record`). The results say what the call does with `*out`: it stores that
record, or refuses. Only the UART builder refuses after it has written, and then leaves its payload
behind (`BuilderCall.afterRejection`).
-/

namespace EmbeddedInsDaq

open Bytes

/-! ## What a call stores -/

/-- The record of a session start. -/
def sessionStartRecord (session : SessionInfo) (config : RuntimeConfig) : StoredRecord :=
  let payload : SessionStartRecordPayload :=
    { sessionId := session.sessionId
      configHash := recordBuilderConfigHash (some config)
      enabledPortMask := (enabledPorts 0 0 0 config.ports.toList).1
      enabledPortCount := (enabledPorts 0 0 0 config.ports.toList).2 }
  { recordType := .sessionStart
    timestampUs := session.startTimestampUs
    sourceId := 0
    payload := payload.bytes
    fits := by rw [payload.length_bytes]; decide }

/-- The record of a fault event. -/
def faultEventRecord (timestampUs : UInt64) (sourceId : UInt32) (event : FaultEvent)
    (health : UInt32) : StoredRecord :=
  let payload : FaultEventRecordPayload :=
    { faultCode := event.code.toUInt8
      faultSeverity := event.severity.toUInt8
      healthStatus := health.toUInt8 }
  { recordType := .faultEvent
    timestampUs
    sourceId := sourceId.toUInt8
    payload := payload.bytes
    fits := by rw [payload.length_bytes]; decide }

/-- A UART length that leaves room for the header and the prefix, of bytes that are there. -/
structure UartFits (bytes : List UInt8) (length : ℕ) : Prop where
  pos : 1 ≤ length
  le_capacity : length ≤ 493
  le_bytes : length ≤ bytes.length

instance (bytes : List UInt8) (length : ℕ) : Decidable (UartFits bytes length) :=
  decidable_of_iff (1 ≤ length ∧ length ≤ 493 ∧ length ≤ bytes.length)
    ⟨fun h => ⟨h.1, h.2.1, h.2.2⟩, fun h => ⟨h.1, h.2, h.3⟩⟩

/-- The payload of a UART record: the prefix and the data. -/
def uartPayload (bytes : List UInt8) (length : ℕ) : List UInt8 :=
  UartDataRecordPayloadPrefix.bytes ⟨UInt16.ofNat length⟩ ++ bytes.take length

theorem UartFits.length_payload {bytes : List UInt8} {length : ℕ} (h : UartFits bytes length) :
    (uartPayload bytes length).length = UartDataRecordPayloadPrefix.size + length := by
  rw [uartPayload, List.length_append, UartDataRecordPayloadPrefix.length_bytes,
    List.length_take_of_le h.le_bytes]

theorem uartPayload_eq {bytes : List UInt8} {length : ℕ} (h : UartFits bytes length) :
    uartPayload bytes length = leBytes 2 length ++ bytes.take length := by
  have hle := h.le_capacity
  have hlt : length < 2 ^ 16 := by omega
  show leBytes 2 (UInt16.ofNat length).toNat ++ _ = _
  rw [UInt16.toNat_ofNat', Nat.mod_eq_of_lt hlt]

theorem UartFits.payload_fits {bytes : List UInt8} {length : ℕ} (h : UartFits bytes length) :
    BinaryRecordHeader.size + (uartPayload bytes length).length ≤ recordBufferCapacityBytes := by
  have hle := h.le_capacity
  rw [h.length_payload]
  show 17 + (2 + length) ≤ 512
  omega

/-- The record of UART data. -/
def uartDataRecord (sourceId : UInt32) (firstByteTimestampUs : UInt64) {bytes : List UInt8}
    {length : ℕ} (h : UartFits bytes length) : StoredRecord where
  recordType := .uartData
  timestampUs := firstByteTimestampUs
  sourceId := sourceId.toUInt8
  payload := uartPayload bytes length
  fits := h.payload_fits

/-- The record of a sync edge. -/
def syncEdgeRecord (sourceId : UInt32) (timestampUs : UInt64) (levelHigh : Bool) : StoredRecord :=
  let payload : SyncEdgeRecordPayload := { edgePolarity := levelHigh }
  { recordType := .syncEdge
    timestampUs
    sourceId := sourceId.toUInt8
    payload := payload.bytes
    fits := by rw [payload.length_bytes]; decide }

namespace BuilderCall

variable {p : Platform}

/-- The source id of the call; a session start carries none. -/
def sourceId : BuilderCall p → UInt32
  | .sessionStart _ _ => 0
  | .faultEvent _ sourceId _ _ => sourceId
  | .uartData sourceId _ _ _ => sourceId
  | .syncEdge sourceId _ _ => sourceId

/-- The record of a call whose arguments are there and whose UART bytes fit. -/
def record : BuilderCall p → Option StoredRecord
  | .sessionStart (some session) (some config) => some (sessionStartRecord session config)
  | .faultEvent timestampUs sourceId (some event) health =>
    some (faultEventRecord timestampUs sourceId event health)
  | .uartData sourceId firstByteTimestampUs (some bytes) length =>
    if h : UartFits bytes length.toNat then some (uartDataRecord sourceId firstByteTimestampUs h)
    else none
  | .syncEdge sourceId timestampUs levelHigh => some (syncEdgeRecord sourceId timestampUs levelHigh)
  | _ => none

theorem record_uartData (sourceId : UInt32) (firstByteTimestampUs : UInt64) {bytes : List UInt8}
    {length : SizeT p} (h : UartFits bytes length.toNat) :
    (uartData sourceId firstByteTimestampUs (some bytes) length).record =
      some (uartDataRecord sourceId firstByteTimestampUs h) :=
  dif_pos h

/-- The calls with a record, kind by kind. -/
inductive Stores : BuilderCall p → StoredRecord → Prop
  | sessionStart (session : SessionInfo) (config : RuntimeConfig) :
    Stores (.sessionStart (some session) (some config)) (sessionStartRecord session config)
  | faultEvent (timestampUs : UInt64) (sourceId : UInt32) (event : FaultEvent) (health : UInt32) :
    Stores (.faultEvent timestampUs sourceId (some event) health)
      (faultEventRecord timestampUs sourceId event health)
  | uartData (sourceId : UInt32) (firstByteTimestampUs : UInt64) {bytes : List UInt8}
      {length : SizeT p} (h : UartFits bytes length.toNat) :
    Stores (.uartData sourceId firstByteTimestampUs (some bytes) length)
      (uartDataRecord sourceId firstByteTimestampUs h)
  | syncEdge (sourceId : UInt32) (timestampUs : UInt64) (levelHigh : Bool) :
    Stores (.syncEdge sourceId timestampUs levelHigh)
      (syncEdgeRecord sourceId timestampUs levelHigh)

theorem stores_of_record {call : BuilderCall p} {r : StoredRecord} (h : call.record = some r) :
    call.Stores r := by
  cases call with
  | sessionStart session config =>
    rcases session with _ | session <;> rcases config with _ | config <;> cases h
    exact .sessionStart session config
  | faultEvent timestampUs sourceId event health =>
    rcases event with _ | event <;> cases h
    exact .faultEvent timestampUs sourceId event health
  | uartData sourceId firstByteTimestampUs bytes length =>
    rcases bytes with _ | bytes
    · cases h
    · by_cases hfits : UartFits bytes length.toNat
      · rw [record, dif_pos hfits] at h
        cases h
        exact .uartData sourceId firstByteTimestampUs hfits
      · rw [record, dif_neg hfits] at h
        cases h
  | syncEdge sourceId timestampUs levelHigh =>
    cases h
    exact .syncEdge sourceId timestampUs levelHigh

end BuilderCall

/-! ## Running a call -/

section Run

variable {p : Platform}

theorem buildRecord_object_run (r : StoredRecord) {sourceId : UInt32}
    (hsourceId : sourceId.toUInt8 = r.sourceId) {n : ℕ} (hn : r.payload.length = n) (hpos : 0 < n)
    (out : RecordBuffer p) :
    (buildRecord r.recordType r.timestampUs sourceId (.object r.payload) (BitVec.ofNat _ n)).run
        ⟨some out, []⟩ =
      .ok (if sourceId.toNat ≤ 255 then
        (.ok, ⟨some (out.store r), recordCopies r (.object r.payload)⟩)
      else (.invalidArg, ⟨some out, []⟩)) := by
  have hfits : n < 2 ^ 32 := by
    have hlt := r.length_payload_lt
    omega
  split_ifs with hsource
  · have hsize : r.payload.length ≤ (Source.object r.payload).size := le_refl _
    exact buildRecord_run r hsource hsourceId ((SizeT.toNat_ofNat hfits).trans hn.symm)
      (hn ▸ hpos) hsize trivial out List.take_length []
  · exact buildRecord_run_rejected _ _ (Nat.lt_of_not_le hsource) _ _ _

theorem sessionStart_build (session : SessionInfo) (config : RuntimeConfig)
    (out : RecordBuffer p) :
    (BuilderCall.sessionStart (some session) (some config)).build.run ⟨some out, []⟩ =
      .ok (.ok, ⟨some (out.store (sessionStartRecord session config)),
        recordCopies (sessionStartRecord session config)
          (.object (sessionStartRecord session config).payload)⟩) :=
  buildRecord_object_run (sessionStartRecord session config) rfl
    (SessionStartRecordPayload.length_bytes _) (by decide) out

theorem faultEvent_build (timestampUs : UInt64) (sourceId : UInt32) (event : FaultEvent)
    (health : UInt32) (out : RecordBuffer p) :
    (BuilderCall.faultEvent timestampUs sourceId (some event) health).build.run ⟨some out, []⟩ =
      .ok (if sourceId.toNat ≤ 255 then
        (.ok, ⟨some (out.store (faultEventRecord timestampUs sourceId event health)),
          recordCopies (faultEventRecord timestampUs sourceId event health)
            (.object (faultEventRecord timestampUs sourceId event health).payload)⟩)
      else (.invalidArg, ⟨some out, []⟩)) :=
  buildRecord_object_run (faultEventRecord timestampUs sourceId event health) rfl
    (FaultEventRecordPayload.length_bytes _) (by decide) out

theorem syncEdge_build (sourceId : UInt32) (timestampUs : UInt64) (levelHigh : Bool)
    (out : RecordBuffer p) :
    (BuilderCall.syncEdge sourceId timestampUs levelHigh).build.run ⟨some out, []⟩ =
      .ok (if sourceId.toNat ≤ 255 then
        (.ok, ⟨some (out.store (syncEdgeRecord sourceId timestampUs levelHigh)),
          recordCopies (syncEdgeRecord sourceId timestampUs levelHigh)
            (.object (syncEdgeRecord sourceId timestampUs levelHigh).payload)⟩)
      else (.invalidArg, ⟨some out, []⟩)) :=
  buildRecord_object_run (syncEdgeRecord sourceId timestampUs levelHigh) rfl
    (SyncEdgeRecordPayload.length_bytes _) (by decide) out

/-! ### UART data -/

/-- The buffer with `ys` written where the payload goes. -/
def RecordBuffer.writePayload (out : RecordBuffer p) (ys : List UInt8)
    (h : BinaryRecordHeader.size + ys.length ≤ recordBufferCapacityBytes) : RecordBuffer p where
  bytes := splice out.bytes BinaryRecordHeader.size ys
  length_bytes := by rw [length_splice (h.trans_eq out.length_bytes.symm), out.length_bytes]
  length := out.length

/-- The buffer with UART data staged. -/
def RecordBuffer.stage (out : RecordBuffer p) {bytes : List UInt8} {length : ℕ}
    (h : UartFits bytes length) : RecordBuffer p :=
  out.writePayload (uartPayload bytes length) h.payload_fits

theorem RecordBuffer.header_le (out : RecordBuffer p) :
    BinaryRecordHeader.size ≤ out.bytes.length := by
  rw [out.length_bytes]
  decide

theorem RecordBuffer.store_stage (out : RecordBuffer p) {bytes : List UInt8} {length : ℕ}
    (h : UartFits bytes length) (sourceId : UInt32) (firstByteTimestampUs : UInt64) :
    (out.stage h).store (uartDataRecord sourceId firstByteTimestampUs h) =
      out.store (uartDataRecord sourceId firstByteTimestampUs h) := by
  ext : 1
  · have hlength := (uartDataRecord sourceId firstByteTimestampUs h).length_image
    exact congrArg (_ ++ ·) (drop_splice out.header_le hlength.ge)
  · rfl

/-- The guard of the UART builder, whose sum is modulo the width of `size_t`. -/
def uartGuard (length : SizeT p) : SizeT p :=
  BitVec.ofNat _ BinaryRecordHeader.size + BitVec.ofNat _ UartDataRecordPayloadPrefix.size + length

theorem toNat_uartGuard (length : SizeT p) :
    (uartGuard length).toNat = (19 + length.toNat) % 2 ^ p.sizeBits := by
  have h19 : BitVec.ofNat p.sizeBits BinaryRecordHeader.size +
      BitVec.ofNat p.sizeBits UartDataRecordPayloadPrefix.size = BitVec.ofNat p.sizeBits 19 :=
    BitVec.ofNat_add_ofNat _ _
  unfold uartGuard
  rw [h19, BitVec.toNat_add, SizeT.toNat_ofNat (by omega)]

theorem toNat_uartGuard_of_lt {length : SizeT p} (h : 19 + length.toNat < 2 ^ p.sizeBits) :
    (uartGuard length).toNat = 19 + length.toNat := by
  rw [toNat_uartGuard, Nat.mod_eq_of_lt h]

theorem uartData_build_run (sourceId : UInt32) (firstByteTimestampUs : UInt64)
    (bytes : List UInt8) (length : SizeT p) (out : RecordBuffer p) :
    (BuilderCall.uartData sourceId firstByteTimestampUs (some bytes) length).build.run
        ⟨some out, []⟩ =
      (if length.toNat = 0 then pure .invalidArg
        else if (uartGuard length).toNat > recordBufferCapacityBytes then pure .noMem
        else do
          memcpy ⟨BinaryRecordHeader.size,
            .object (UartDataRecordPayloadPrefix.bytes ⟨UInt16.ofNat length.toNat⟩),
            UartDataRecordPayloadPrefix.size⟩
          memcpy ⟨BinaryRecordHeader.size + UartDataRecordPayloadPrefix.size, .object bytes,
            length.toNat⟩
          buildRecord .uartData firstByteTimestampUs sourceId (.out BinaryRecordHeader.size)
            (BitVec.ofNat _ UartDataRecordPayloadPrefix.size + length) : Build p EspErr).run
        ⟨some out, []⟩ := rfl

theorem uartPrefix_fits (length : ℕ) : BinaryRecordHeader.size +
    (UartDataRecordPayloadPrefix.bytes ⟨UInt16.ofNat length⟩).length ≤
      recordBufferCapacityBytes := by
  rw [UartDataRecordPayloadPrefix.length_bytes]
  decide

/-- The first copy puts the prefix where the payload goes. -/
theorem memcpy_uartPrefix_run (out : RecordBuffer p) (length : ℕ) (copies : List Memcpy) :
    (memcpy ⟨BinaryRecordHeader.size,
        .object (UartDataRecordPayloadPrefix.bytes ⟨UInt16.ofNat length⟩),
        UartDataRecordPayloadPrefix.size⟩).run ⟨some out, copies⟩ =
      .ok ((), ⟨some (out.writePayload _ (uartPrefix_fits length)), copies ++
        [⟨BinaryRecordHeader.size,
          .object (UartDataRecordPayloadPrefix.bytes ⟨UInt16.ofNat length⟩),
          UartDataRecordPayloadPrefix.size⟩]⟩) := by
  apply memcpy_run _ _ _ ⟨uartPrefix_fits length, le_refl _⟩
  · rfl
  · rfl

/-- The second copy puts the data behind it. -/
theorem memcpy_uartData_run (out : RecordBuffer p) {bytes : List UInt8} {length : ℕ}
    (h : UartFits bytes length) (copies : List Memcpy) :
    (memcpy ⟨BinaryRecordHeader.size + UartDataRecordPayloadPrefix.size, .object bytes,
        length⟩).run ⟨some (out.writePayload _ (uartPrefix_fits length)), copies⟩ =
      .ok ((), ⟨some (out.stage h), copies ++
        [⟨BinaryRecordHeader.size + UartDataRecordPayloadPrefix.size, .object bytes,
          length⟩]⟩) := by
  have hle := h.le_capacity
  have hfits : BinaryRecordHeader.size + UartDataRecordPayloadPrefix.size + length ≤
      recordBufferCapacityBytes := by
    show 17 + 2 + length ≤ 512
    omega
  apply memcpy_run _ _ _ ⟨hfits, h.le_bytes⟩
  · exact splice_splice_behind out.header_le
  · rfl

theorem UartFits.toNat_payloadLength {bytes : List UInt8} {length : SizeT p}
    (h : UartFits bytes length.toNat) :
    (BitVec.ofNat _ UartDataRecordPayloadPrefix.size + length).toNat =
      (uartPayload bytes length.toNat).length := by
  have hle := h.le_capacity
  have hlt : UartDataRecordPayloadPrefix.size + length.toNat < 2 ^ 32 := by
    unfold UartDataRecordPayloadPrefix.size
    omega
  rw [SizeT.toNat_ofNat_add hlt, h.length_payload]

/-- The copies that stage UART data. -/
def stagingCopies (bytes : List UInt8) (length : ℕ) : List Memcpy :=
  [⟨BinaryRecordHeader.size, .object (UartDataRecordPayloadPrefix.bytes ⟨UInt16.ofNat length⟩),
      UartDataRecordPayloadPrefix.size⟩,
    ⟨BinaryRecordHeader.size + UartDataRecordPayloadPrefix.size, .object bytes, length⟩]

theorem UartFits.guard_le {bytes : List UInt8} {length : SizeT p}
    (h : UartFits bytes length.toNat) : ¬ (uartGuard length).toNat > recordBufferCapacityBytes := by
  have hle := h.le_capacity
  have hwidth := p.two_pow_le
  rw [toNat_uartGuard_of_lt (by omega)]
  show ¬ 19 + length.toNat > 512
  omega

theorem uartData_build_of_fits (sourceId : UInt32) (firstByteTimestampUs : UInt64)
    {bytes : List UInt8} {length : SizeT p} (h : UartFits bytes length.toNat)
    (out : RecordBuffer p) :
    (BuilderCall.uartData sourceId firstByteTimestampUs (some bytes) length).build.run
        ⟨some out, []⟩ =
      .ok (if sourceId.toNat ≤ 255 then
        (.ok, ⟨some (out.store (uartDataRecord sourceId firstByteTimestampUs h)),
          stagingCopies bytes length.toNat ++
            recordCopies (uartDataRecord sourceId firstByteTimestampUs h)
              (.out BinaryRecordHeader.size)⟩)
      else (.invalidArg, ⟨some (out.stage h), stagingCopies bytes length.toNat⟩)) := by
  have hpos := h.pos
  have hpayload : 0 < (uartDataRecord sourceId firstByteTimestampUs h).payload.length := by
    show 0 < (uartPayload bytes length.toNat).length
    rw [h.length_payload]
    omega
  have hsize : (uartDataRecord sourceId firstByteTimestampUs h).payload.length ≤
      (Source.out BinaryRecordHeader.size).size :=
    Nat.le_sub_of_add_le' (uartDataRecord sourceId firstByteTimestampUs h).fits
  rw [uartData_build_run, if_neg (by omega), if_neg h.guard_le]
  simp only [StateT.run_bind]
  rw [memcpy_uartPrefix_run, ok_bind, memcpy_uartData_run out h, ok_bind]
  split_ifs with hsource
  · -- `build_record` reads the payload from where it was staged
    have hrun := buildRecord_run (uartDataRecord sourceId firstByteTimestampUs h) hsource rfl
      h.toNat_payloadLength hpayload hsize (le_refl BinaryRecordHeader.size) (out.stage h)
      (slice_splice out.header_le)
    exact (hrun _).trans (by rw [out.store_stage h]; rfl)
  · exact buildRecord_run_rejected _ _ (Nat.lt_of_not_le hsource) _ _ _

/-- Where the arguments do not fit, the builder returns before it writes, or its copy of the data
is out of bounds. -/
theorem uartData_build_of_not_fits (sourceId : UInt32) (firstByteTimestampUs : UInt64)
    {bytes : List UInt8} {length : SizeT p} (h : ¬ UartFits bytes length.toNat)
    (out : RecordBuffer p) :
    (BuilderCall.uartData sourceId firstByteTimestampUs (some bytes) length).build.run
        ⟨some out, []⟩ =
      if length.toNat = 0 then .ok (.invalidArg, ⟨some out, []⟩)
      else if (uartGuard length).toNat > recordBufferCapacityBytes then
        .ok (.noMem, ⟨some out, []⟩)
      else .error (.outOfBounds ⟨BinaryRecordHeader.size + UartDataRecordPayloadPrefix.size,
        .object bytes, length.toNat⟩) := by
  rw [uartData_build_run]
  split_ifs with hzero hguard
  · rfl
  · rfl
  · -- the prefix is written, the data is not
    have hdata : ¬ (⟨BinaryRecordHeader.size + UartDataRecordPayloadPrefix.size, .object bytes,
        length.toNat⟩ : Memcpy).InBounds := by
      rintro ⟨hfits, hbytes⟩
      have hle : 17 + 2 + length.toNat ≤ 512 := hfits
      exact h ⟨by omega, by omega, hbytes⟩
    simp only [StateT.run_bind]
    rw [memcpy_uartPrefix_run, ok_bind, memcpy_run_of_not_inBounds _ _ hdata]
    rfl

theorem uartData_run_of_not_fits (sourceId : UInt32) (firstByteTimestampUs : UInt64)
    {bytes : List UInt8} {length : SizeT p} (h : ¬ UartFits bytes length.toNat)
    {out : RecordBuffer p} {err : EspErr} {out' : Option (RecordBuffer p)}
    (hrun : (BuilderCall.uartData sourceId firstByteTimestampUs (some bytes) length).run
      (some out) = .ok (err, out')) : err ≠ .ok ∧ out' = some out := by
  unfold BuilderCall.run at hrun
  rw [uartData_build_of_not_fits sourceId firstByteTimestampUs h] at hrun
  split_ifs at hrun
  · cases hrun
    exact ⟨nofun, rfl⟩
  · cases hrun
    exact ⟨nofun, rfl⟩
  · cases hrun

end Run

/-! ## Every call -/

namespace BuilderCall

variable {p : Platform}

/-- The buffer after a call whose source id `build_record` refuses. -/
def afterRejection (out : RecordBuffer p) : BuilderCall p → RecordBuffer p
  | .uartData _ _ (some bytes) length =>
    if h : UartFits bytes length.toNat then out.stage h else out
  | _ => out

theorem build_none (call : BuilderCall p) :
    call.build.run ⟨none, []⟩ = .ok (.invalidArg, ⟨none, []⟩) := by
  cases call with
  | sessionStart session config => cases session <;> cases config <;> rfl
  | faultEvent timestampUs sourceId event health => cases event <;> rfl
  | uartData sourceId firstByteTimestampUs bytes length => cases bytes <;> rfl
  | syncEdge sourceId timestampUs levelHigh => rfl

theorem run_none (call : BuilderCall p) : call.run none = .ok (.invalidArg, none) := by
  unfold run
  rw [build_none]
  rfl

/-- The copies of a call before it comes to `build_record`. -/
def earlyCopies : BuilderCall p → List Memcpy
  | .uartData _ _ (some bytes) length => stagingCopies bytes length.toNat
  | _ => []

/-- Where `build_record` takes the payload from. -/
def payloadSource (r : StoredRecord) : BuilderCall p → Source
  | .uartData _ _ _ _ => .out BinaryRecordHeader.size
  | _ => .object r.payload

theorem build_of_record {call : BuilderCall p} {r : StoredRecord} (h : call.record = some r)
    (out : RecordBuffer p) :
    call.build.run ⟨some out, []⟩ =
      .ok (if call.sourceId.toNat ≤ 255 then
        (.ok, ⟨some (out.store r),
          call.earlyCopies ++ recordCopies r (call.payloadSource r)⟩)
      else (.invalidArg, ⟨some (call.afterRejection out), call.earlyCopies⟩)) := by
  cases stores_of_record h with
  | sessionStart session config => exact sessionStart_build session config out
  | faultEvent timestampUs sourceId event health =>
    exact faultEvent_build timestampUs sourceId event health out
  | uartData sourceId firstByteTimestampUs hfits =>
    rw [afterRejection, dif_pos hfits]
    exact uartData_build_of_fits sourceId firstByteTimestampUs hfits out
  | syncEdge sourceId timestampUs levelHigh =>
    exact syncEdge_build sourceId timestampUs levelHigh out

theorem run_of_record {call : BuilderCall p} {r : StoredRecord} (h : call.record = some r)
    (out : RecordBuffer p) :
    call.run (some out) =
      .ok (if call.sourceId.toNat ≤ 255 then (.ok, some (out.store r))
        else (.invalidArg, some (call.afterRejection out))) := by
  unfold run
  rw [build_of_record h]
  split_ifs <;> rfl

theorem run_of_record_none {call : BuilderCall p} (h : call.record = none) {out : RecordBuffer p}
    {err : EspErr} {out' : Option (RecordBuffer p)} (hrun : call.run (some out) = .ok (err, out')) :
    err ≠ .ok ∧ out' = some out := by
  cases call with
  | sessionStart session config =>
    rcases session with _ | session <;> rcases config with _ | config <;> cases h <;> cases hrun <;>
      exact ⟨nofun, rfl⟩
  | faultEvent timestampUs sourceId event health =>
    rcases event with _ | event <;> cases h
    cases hrun
    exact ⟨nofun, rfl⟩
  | uartData sourceId firstByteTimestampUs bytes length =>
    rcases bytes with _ | bytes
    · cases hrun
      exact ⟨nofun, rfl⟩
    · by_cases hfits : UartFits bytes length.toNat
      · rw [record, dif_pos hfits] at h
        cases h
      · exact uartData_run_of_not_fits _ _ hfits hrun
  | syncEdge sourceId timestampUs levelHigh => cases h

/-- **Success.** A call returns `ESP_OK` exactly when it has a record, a source id of one byte and
a buffer, and then that record is in the buffer. -/
theorem run_eq_ok_iff {call : BuilderCall p} {out out' : Option (RecordBuffer p)} :
    call.run out = .ok (.ok, out') ↔ call.sourceId.toNat ≤ 255 ∧
      ∃ r o, call.record = some r ∧ out = some o ∧ out' = some (o.store r) := by
  constructor
  · intro hrun
    cases out with
    | none =>
      rw [run_none] at hrun
      cases hrun
    | some o =>
      cases hr : call.record with
      | none => exact absurd rfl (run_of_record_none hr hrun).1
      | some r =>
        rw [run_of_record hr] at hrun
        by_cases hsource : call.sourceId.toNat ≤ 255
        · rw [if_pos hsource] at hrun
          cases hrun
          exact ⟨hsource, r, o, rfl, rfl, rfl⟩
        · rw [if_neg hsource] at hrun
          cases hrun
  · rintro ⟨hsource, r, o, hr, rfl, rfl⟩
    rw [run_of_record hr, if_pos hsource]

/-- The call returns `ESP_OK` and leaves `image` in its buffer. -/
def Encodes (call : BuilderCall p) (image : List UInt8) : Prop :=
  ∃ out out', call.run out = .ok (.ok, some out') ∧ out'.image = image

theorem encodes_iff {call : BuilderCall p} {image : List UInt8} :
    call.Encodes image ↔
      call.sourceId.toNat ≤ 255 ∧ ∃ r, call.record = some r ∧ r.image = image := by
  constructor
  · rintro ⟨out, out', hrun, rfl⟩
    obtain ⟨hsource, r, o, hr, -, hout⟩ := run_eq_ok_iff.mp hrun
    cases hout
    exact ⟨hsource, r, hr, (o.image_store r).symm⟩
  · rintro ⟨hsource, r, hr, rfl⟩
    have hrun := run_eq_ok_iff.mpr ⟨hsource, r, RecordBuffer.zero p, hr, rfl, rfl⟩
    exact ⟨_, _, hrun, RecordBuffer.image_store _ r⟩

end BuilderCall

end EmbeddedInsDaq
