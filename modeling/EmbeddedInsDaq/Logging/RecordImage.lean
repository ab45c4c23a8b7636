import EmbeddedInsDaq.Logging.RecordBuilder

/-!
# What `build_record` stores

A `StoredRecord` is a record with a payload that fits into the buffer; its `image` is the bytes a
reader finds. `buildRecord_run` says that `build_record` puts one image at the front of `*out` and
leaves the rest.
-/

namespace EmbeddedInsDaq

open Bytes

/-! ## Stored records -/

/-- A record as the buffer holds it, with the checksum left out. -/
structure StoredRecord where
  recordType : RecordType
  timestampUs : UInt64
  sourceId : UInt8
  payload : List UInt8
  fits : BinaryRecordHeader.size + payload.length ≤ recordBufferCapacityBytes

namespace StoredRecord

variable (r : StoredRecord)

/-- The bytes under the checksum: the header up to `crc32`, and the payload. -/
def covered : List UInt8 := leBytes 8 r.timestampUs.toNat ++ r.payload

/-- The header with a given checksum. -/
def headerWith (crc32 : UInt32) : BinaryRecordHeader where
  timestampUs := r.timestampUs
  crc32 := crc32
  payloadLength := UInt16.ofNat r.payload.length
  recordType := r.recordType.toUInt8
  recordVersion := recordFormatVersion
  sourceId := r.sourceId

/-- The header of the finished record. -/
def header : BinaryRecordHeader := r.headerWith (crc32Bytes r.covered)

/-- The whole record. -/
def image : List UInt8 := r.header.bytes ++ r.payload

theorem length_image : r.image.length = BinaryRecordHeader.size + r.payload.length := by
  rw [image, List.length_append, BinaryRecordHeader.length_bytes]

theorem length_image_le : r.image.length ≤ recordBufferCapacityBytes :=
  r.length_image.trans_le r.fits

theorem length_payload_lt : r.payload.length < 2 ^ 16 := by
  have hfits := r.fits
  unfold recordBufferCapacityBytes at hfits
  omega

theorem length_headerWith (crc32 : UInt32) :
    (r.headerWith crc32).bytes.length = BinaryRecordHeader.size :=
  (r.headerWith crc32).length_bytes

theorem length_headerWith_le (crc32 : UInt32) :
    (r.headerWith crc32).bytes.length ≤ recordBufferCapacityBytes := by
  rw [length_headerWith]
  exact Nat.le_of_add_right_le r.fits

theorem length_headerWith_append_le (crc32 : UInt32) :
    ((r.headerWith crc32).bytes ++ r.payload).length ≤ recordBufferCapacityBytes := by
  rw [List.length_append, length_headerWith]
  exact r.fits

end StoredRecord

section Front

variable {p : Platform}

/-- The buffer with the bytes `front` written over its start. -/
def RecordBuffer.withFront (out : RecordBuffer p) (front : List UInt8)
    (h : front.length ≤ recordBufferCapacityBytes) : RecordBuffer p where
  bytes := front ++ out.bytes.drop front.length
  length_bytes := by
    rw [List.length_append, List.length_drop, out.length_bytes]
    exact Nat.add_sub_cancel' h
  length := out.length

/-- The buffer with the record `r` in it. -/
def RecordBuffer.store (out : RecordBuffer p) (r : StoredRecord) : RecordBuffer p :=
  { out.withFront r.image r.length_image_le with length := BitVec.ofNat _ r.image.length }

theorem RecordBuffer.toNat_length_store (out : RecordBuffer p) (r : StoredRecord) :
    (out.store r).length.toNat = r.image.length :=
  SizeT.toNat_ofNat (r.length_image_le.trans_lt (by decide))

theorem RecordBuffer.image_store (out : RecordBuffer p) (r : StoredRecord) :
    (out.store r).image = r.image := by
  unfold RecordBuffer.image
  rw [RecordBuffer.toNat_length_store]
  exact List.take_left

@[ext]
theorem RecordBuffer.eq_of_bytes {a b : RecordBuffer p} (hbytes : a.bytes = b.bytes)
    (hlength : a.length = b.length) : a = b := by
  cases a
  cases b
  cases hbytes
  cases hlength
  rfl

/-! ## Running `build_record` -/

theorem ok_bind {ε α β : Type} (a : α) (f : α → Except ε β) : (.ok a : Except ε α) >>= f = f a :=
  rfl

theorem derefOut_run (out : RecordBuffer p) (copies : List Memcpy) :
    derefOut.run ⟨some out, copies⟩ = .ok (out, ⟨some out, copies⟩) := rfl

theorem setLength_run (out : RecordBuffer p) (copies : List Memcpy) (length : SizeT p) :
    (setLength length).run ⟨some out, copies⟩ =
      .ok ((), ⟨some { out with length := length }, copies⟩) := rfl

theorem memcpy_run (out out' : RecordBuffer p) (copy : Memcpy) (h : copy.InBounds)
    (hbytes : splice out.bytes copy.dst (copy.src.read out.bytes copy.length) = out'.bytes)
    (hlength : out.length = out'.length) (copies : List Memcpy) :
    (memcpy copy).run ⟨some out, copies⟩ = .ok ((), ⟨some out', copies ++ [copy]⟩) := by
  have hcopy : out.copy copy h = out' := RecordBuffer.eq_of_bytes hbytes hlength
  show (if h : copy.InBounds then _ else _ : Build p Unit).run _ = _
  rw [dif_pos h, ← hcopy]
  rfl

theorem memcpy_run_front (out : RecordBuffer p) {front : List UInt8}
    (h : front.length ≤ recordBufferCapacityBytes) (copies : List Memcpy) :
    (memcpy ⟨0, .object front, front.length⟩).run ⟨some out, copies⟩ =
      .ok ((), ⟨some (out.withFront front h), copies ++ [⟨0, .object front, front.length⟩]⟩) := by
  apply memcpy_run _ _ _ ⟨(Nat.zero_add _).trans_le h, le_refl front.length⟩
  · show splice out.bytes 0 (front.take front.length) = _
    rw [List.take_length, splice_zero]
    rfl
  · rfl

theorem memcpy_run_behind (out : RecordBuffer p) {front data : List UInt8} {src : Source}
    (h : front.length ≤ recordBufferCapacityBytes)
    (h' : (front ++ data).length ≤ recordBufferCapacityBytes) (hsize : data.length ≤ src.size)
    (hread : src.read (out.withFront front h).bytes data.length = data) (copies : List Memcpy) :
    (memcpy ⟨front.length, src, data.length⟩).run ⟨some (out.withFront front h), copies⟩ =
      .ok ((), ⟨some (out.withFront (front ++ data) h'),
        copies ++ [⟨front.length, src, data.length⟩]⟩) := by
  apply memcpy_run _ _ _ ⟨List.length_append.symm.trans_le h', hsize⟩
  · show splice _ front.length (src.read _ data.length) = _
    rw [hread]
    show splice (front ++ out.bytes.drop front.length) front.length data =
      (front ++ data) ++ out.bytes.drop (front ++ data).length
    rw [splice_append rfl, List.drop_drop, List.length_append]
  · rfl

theorem memcpy_run_over (out : RecordBuffer p) {front front' data : List UInt8}
    (h : (front ++ data).length ≤ recordBufferCapacityBytes)
    (h' : (front' ++ data).length ≤ recordBufferCapacityBytes)
    (hlength : front'.length = front.length) (copies : List Memcpy) :
    (memcpy ⟨0, .object front', front'.length⟩).run
        ⟨some (out.withFront (front ++ data) h), copies⟩ =
      .ok ((), ⟨some (out.withFront (front' ++ data) h'),
        copies ++ [⟨0, .object front', front'.length⟩]⟩) := by
  have hfit : front'.length ≤ recordBufferCapacityBytes := by
    rw [List.length_append] at h'
    omega
  apply memcpy_run _ _ _ ⟨(Nat.zero_add _).trans_le hfit, le_refl front'.length⟩
  · show splice ((front ++ data) ++ out.bytes.drop (front ++ data).length) 0
      (front'.take front'.length) = (front' ++ data) ++ out.bytes.drop (front' ++ data).length
    rw [List.take_length, List.append_assoc front, splice_zero_append hlength,
      List.length_append, List.length_append, hlength, List.append_assoc]
  · rfl

theorem memcpy_run_of_not_inBounds (out : RecordBuffer p) (copies : List Memcpy) {copy : Memcpy}
    (h : ¬ copy.InBounds) :
    (memcpy copy).run ⟨some out, copies⟩ = .error (.outOfBounds copy) := by
  show (if h : copy.InBounds then _ else _ : Build p Unit).run _ = _
  rw [dif_neg h]
  rfl

/-- A source that copies to the header leave alone. -/
def Source.BehindHeader : Source → Prop
  | .object _ => True
  | .out offset => BinaryRecordHeader.size ≤ offset

theorem Source.read_withFront {src : Source} (hsrc : src.BehindHeader) (out : RecordBuffer p)
    {front : List UInt8} (h : front.length ≤ recordBufferCapacityBytes)
    (hfront : front.length = BinaryRecordHeader.size) (n : ℕ) :
    src.read (out.withFront front h).bytes n = src.read out.bytes n := by
  cases src with
  | object data => rfl
  | out offset =>
    have ho : BinaryRecordHeader.size ≤ offset := hsrc
    show slice offset n (front ++ out.bytes.drop front.length) = slice offset n out.bytes
    rw [slice_append_right (hfront.trans_le ho), hfront]
    unfold slice
    rw [List.drop_drop, Nat.add_sub_cancel' ho]

/-- The checksum is taken over the buffer, once the header without it and the payload are there. -/
theorem crc_withFront (out : RecordBuffer p) (r : StoredRecord) (crc32 : UInt32) :
    ~~~ crc32Update (~~~ crc32Bytes (slice 0 BinaryRecordHeader.crc32Offset
        (out.withFront _ (r.length_headerWith_append_le crc32)).bytes))
      (slice BinaryRecordHeader.size r.payload.length
        (out.withFront _ (r.length_headerWith_append_le crc32)).bytes) = crc32Bytes r.covered := by
  have htimestamp : slice 0 BinaryRecordHeader.crc32Offset
      (out.withFront _ (r.length_headerWith_append_le crc32)).bytes =
        leBytes 8 r.timestampUs.toNat := by
    show slice 0 8 (leBytes 8 _ ++ _ ++ _ ++ _ ++ r.payload ++ _) = _
    simp only [List.append_assoc]
    exact slice_zero_append (length_leBytes _ _).symm
  have hpayload : slice BinaryRecordHeader.size r.payload.length
      (out.withFront _ (r.length_headerWith_append_le crc32)).bytes = r.payload := by
    show slice _ _ ((r.headerWith crc32).bytes ++ r.payload ++ _) = _
    rw [List.append_assoc, slice_append_eq (r.length_headerWith crc32).symm, List.take_left]
  rw [htimestamp, hpayload, not_crc32Update_not_crc32Bytes]
  rfl

/-- `build_record` refuses a source id that one byte does not hold, before it writes. -/
theorem buildRecord_run_rejected (recordType : RecordType) (timestampUs : UInt64)
    {sourceId : UInt32} (h : sourceId.toNat > 255) (payload : Source) (payloadLength : SizeT p)
    (s : BuildState p) :
    (buildRecord recordType timestampUs sourceId payload payloadLength).run s =
      .ok (.invalidArg, s) := by
  unfold buildRecord
  rw [if_pos (.inl h)]
  rfl

/-- The copies of `build_record`: the header without the checksum, the payload, and the header. -/
def recordCopies (r : StoredRecord) (payload : Source) : List Memcpy :=
  [⟨0, .object (r.headerWith 0).bytes, BinaryRecordHeader.size⟩,
    ⟨BinaryRecordHeader.size, payload, r.payload.length⟩,
    ⟨0, .object r.header.bytes, BinaryRecordHeader.size⟩]

/-- **`build_record`.** A record that fits is stored at the front of the buffer, with three
copies. -/
theorem buildRecord_run (r : StoredRecord) {sourceId : UInt32} (hsource : sourceId.toNat ≤ 255)
    (hsourceId : sourceId.toUInt8 = r.sourceId) {payload : Source} {payloadLength : SizeT p}
    (hlength : payloadLength.toNat = r.payload.length) (hpos : 0 < r.payload.length)
    (hsize : r.payload.length ≤ payload.size) (hbehind : payload.BehindHeader)
    (out : RecordBuffer p) (hread : payload.read out.bytes r.payload.length = r.payload)
    (copies : List Memcpy) :
    (buildRecord r.recordType r.timestampUs sourceId payload payloadLength).run
        ⟨some out, copies⟩ =
      .ok (.ok, ⟨some (out.store r), copies ++ recordCopies r payload⟩) := by
  have hfits16 := r.length_payload_lt
  have hfirst := memcpy_run_front out (r.length_headerWith_le 0) copies
  have hsecond := memcpy_run_behind out (r.length_headerWith_le 0)
    (r.length_headerWith_append_le 0) hsize
    ((Source.read_withFront hbehind out _ (r.length_headerWith 0) _).trans hread)
    (copies ++ [⟨0, .object (r.headerWith 0).bytes, BinaryRecordHeader.size⟩])
  have hthird := memcpy_run_over out (r.length_headerWith_append_le 0)
    (r.length_headerWith_append_le (crc32Bytes r.covered))
    ((r.length_headerWith _).trans (r.length_headerWith 0).symm)
    (copies ++ [⟨0, .object (r.headerWith 0).bytes, BinaryRecordHeader.size⟩] ++
      [⟨BinaryRecordHeader.size, payload, r.payload.length⟩])
  rw [r.length_headerWith] at hfirst hsecond hthird
  have hheader (c : UInt32) : BinaryRecordHeader.mk r.timestampUs c (UInt16.ofNat r.payload.length)
      r.recordType.toUInt8 recordFormatVersion r.sourceId = r.headerWith c := rfl
  have hstored : BitVec.ofNat p.sizeBits BinaryRecordHeader.size + payloadLength =
      BitVec.ofNat p.sizeBits r.image.length := by
    rw [r.length_image, BitVec.ofNat_add, ← hlength, BitVec.ofNat_toNat, BitVec.setWidth_eq]
  unfold buildRecord
  rw [if_neg (by omega), hlength, hsourceId]
  simp only [if_pos hpos, StateT.run_bind, hheader]
  rw [hfirst, ok_bind, hsecond, ok_bind, derefOut_run, ok_bind, crc_withFront, hthird, ok_bind,
    setLength_run, ok_bind, hstored]
  simp only [List.append_assoc]
  rfl

end Front

end EmbeddedInsDaq
