import EmbeddedInsDaq.Logging.RecordStream

/-!
# What gets into a record

A successful call leaves the same record in every buffer, and the buffer behind the record as it was
(`buffer_reuse`), so nothing in the record comes from the buffer. The fields of a record come from
the caller, those of one byte from 32-bit words: `build_record` refuses a source id that does not
fit, and nothing refuses a fault code, a severity or a health that does not (`narrowing_iff`).
-/

namespace EmbeddedInsDaq

open Bytes

namespace BuilderCall

variable {p : Platform}

/-! ## Buffer reuse -/

theorem getElem?_store (out : RecordBuffer p) (r : StoredRecord) {i : ℕ}
    (h : (out.store r).length.toNat ≤ i) : (out.store r).bytes[i]? = out.bytes[i]? := by
  rw [RecordBuffer.toNat_length_store] at h
  show (r.image ++ out.bytes.drop r.image.length)[i]? = _
  rw [List.getElem?_append_right h, List.getElem?_drop, Nat.add_sub_cancel' h]

/-- **Reuse.** A call that is successful with one buffer is with any other, leaves the same length
and the same image in both, and changes neither behind it. -/
theorem buffer_reuse {call : BuilderCall p} {out₁ out₁' : RecordBuffer p}
    (hrun : call.run (some out₁) = .ok (.ok, some out₁')) (out₂ : RecordBuffer p) :
    ∃ out₂', call.run (some out₂) = .ok (.ok, some out₂') ∧
      out₁'.length = out₂'.length ∧ out₁'.image = out₂'.image ∧
      ∀ i, out₁'.length.toNat ≤ i →
        out₁'.bytes[i]? = out₁.bytes[i]? ∧ out₂'.bytes[i]? = out₂.bytes[i]? := by
  obtain ⟨hsource, r, o, hr, hout, hout'⟩ := run_eq_ok_iff.mp hrun
  cases hout
  cases hout'
  refine ⟨out₂.store r, run_eq_ok_iff.mpr ⟨hsource, r, out₂, hr, rfl, rfl⟩, rfl, ?_, ?_⟩
  · rw [RecordBuffer.image_store, RecordBuffer.image_store]
  · intro i hi
    refine ⟨getElem?_store out₁ r hi, getElem?_store out₂ r ?_⟩
    rwa [RecordBuffer.toNat_length_store] at hi ⊢

/-- A sync edge over a buffer that held UART data, and over zeros. -/
theorem buffer_reuse_syncEdge :
    ∃ out', (syncEdge 6 5 true).run (some (RecordBuffer.zero .target)) = .ok (.ok, some out') ∧
      (((RecordBuffer.zero .target).store
        (uartDataRecord 2 9 (show UartFits [0xde, 0xad] 2 by decide))).store
          (syncEdgeRecord 6 5 true)).image = out'.image := by
  have hrecord : (syncEdge (p := .target) 6 5 true).record = some (syncEdgeRecord 6 5 true) := rfl
  obtain ⟨out', hrun', -, himage, -⟩ :=
    buffer_reuse (run_of_record hrecord _) (RecordBuffer.zero .target)
  exact ⟨out', hrun', himage⟩

/-! ## One-byte fields -/

/-- What `image` has in its one-byte fields is what the caller gave. -/
def FieldsKept (image : List UInt8) : BuilderCall p → Prop
  | .faultEvent _ sourceId (some event) health =>
    field 16 1 image = sourceId.toNat ∧ field 17 1 image = event.code.toNat ∧
      field 18 1 image = event.severity.toNat ∧ field 19 1 image = health.toNat
  | call => field 16 1 image = call.sourceId.toNat

/-- The call does not store a value other than the caller's. -/
def NeverNarrows (call : BuilderCall p) (out : Option (RecordBuffer p)) : Prop :=
  ∀ out', call.run out = .ok (.ok, some out') → call.FieldsKept out'.image

theorem field_sourceId_image (r : StoredRecord) : field 16 1 r.image = r.sourceId.toNat := by
  have hheader := congrArg BinaryRecordHeader.sourceId (readHeader_bytes r.header r.payload)
  have hbyte : UInt8.ofNat (field 16 1 r.image) = r.sourceId := hheader
  have hlt : field 16 1 r.image < 256 ^ 1 := field_lt (by
    have hlength := r.length_image
    unfold BinaryRecordHeader.size at hlength
    omega)
  rw [← hbyte, UInt8.toNat_ofNat']
  exact (Nat.mod_eq_of_lt hlt).symm

theorem field_payload_image (r : StoredRecord) (off n : ℕ) :
    field (BinaryRecordHeader.size + off) n r.image = field off n r.payload := by
  have hlength := r.header.length_bytes
  unfold StoredRecord.image
  rw [field_append_right (by omega), hlength, Nat.add_sub_cancel_left]

theorem toNat_toUInt8_eq_iff {x : UInt32} : x.toUInt8.toNat = x.toNat ↔ x.toNat < 256 := by
  rw [UInt32.toNat_toUInt8]
  exact Nat.mod_eq_iff_lt (by decide)

/-- The fields of a fault event are the low bytes of the words they were given as. -/
theorem fieldsKept_faultEvent_iff (timestampUs : UInt64) {sourceId : UInt32} (event : FaultEvent)
    (health : UInt32) (hsource : sourceId.toNat ≤ 255) :
    (faultEvent (p := p) timestampUs sourceId (some event) health).FieldsKept
        (faultEventRecord timestampUs sourceId event health).image ↔
      event.code.toNat < 256 ∧ event.severity.toNat < 256 ∧ health.toNat < 256 := by
  have hfield (off : ℕ) := field_payload_image (faultEventRecord timestampUs sourceId event health)
    off 1
  have hcode : field 17 1 (faultEventRecord timestampUs sourceId event health).image =
      event.code.toUInt8.toNat := hfield 0
  have hseverity : field 18 1 (faultEventRecord timestampUs sourceId event health).image =
      event.severity.toUInt8.toNat := hfield 1
  have hhealth : field 19 1 (faultEventRecord timestampUs sourceId event health).image =
      health.toUInt8.toNat := hfield 2
  have hsourceId :=
    (field_sourceId_image (faultEventRecord timestampUs sourceId event health)).trans
      (toNat_toUInt8_eq_iff.mpr (Nat.lt_succ_of_le hsource))
  rw [FieldsKept, hcode, hseverity, hhealth, toNat_toUInt8_eq_iff, toNat_toUInt8_eq_iff,
    toNat_toUInt8_eq_iff]
  exact and_iff_right hsourceId

theorem fieldsKept_iff {call : BuilderCall p} {r : StoredRecord} (hr : call.record = some r)
    (hsource : call.sourceId.toNat ≤ 255) : call.FieldsKept r.image ↔ call.EnumsFit := by
  have hsourceId := toNat_toUInt8_eq_iff.mpr (Nat.lt_succ_of_le hsource)
  cases stores_of_record hr with
  | sessionStart session config => exact iff_of_true (field_sourceId_image _) trivial
  | faultEvent timestampUs sourceId event health =>
    exact fieldsKept_faultEvent_iff timestampUs event health hsource
  | uartData sourceId firstByteTimestampUs hfits =>
    exact iff_of_true ((field_sourceId_image _).trans hsourceId) trivial
  | syncEdge sourceId timestampUs levelHigh =>
    exact iff_of_true ((field_sourceId_image _).trans hsourceId) trivial

theorem enumsFit_of_record_none {call : BuilderCall p} (hr : call.record = none) :
    call.EnumsFit := by
  cases call with
  | faultEvent timestampUs sourceId event health =>
    cases event with
    | none => trivial
    | some event => cases hr
  | _ => trivial

/-- **Narrowing.** A call keeps the caller's values unless it builds a fault event with a code, a
severity or a health that one byte does not hold. -/
theorem narrowing_iff (call : BuilderCall p) (out : Option (RecordBuffer p)) :
    call.NeverNarrows out ↔ call.EnumsFit ∨ 255 < call.sourceId.toNat ∨ out = none := by
  by_cases hbuilt : call.sourceId.toNat ≤ 255 ∧ ∃ r o, call.record = some r ∧ out = some o
  · obtain ⟨hsource, r, o, hr, rfl⟩ := hbuilt
    have hrun := run_eq_ok_iff.mpr ⟨hsource, r, o, hr, rfl, rfl⟩
    have himage : (o.store r).image = r.image := o.image_store r
    constructor
    · intro hkept
      have := hkept _ hrun
      rw [himage, fieldsKept_iff hr hsource] at this
      exact .inl this
    · rintro (hfit | hlarge | hnone) out' hrun'
      · rw [hrun] at hrun'
        cases hrun'
        rw [himage, fieldsKept_iff hr hsource]
        exact hfit
      · omega
      · cases hnone
  · refine iff_of_true ?_ ?_
    · intro out' hrun
      obtain ⟨hsource, r, o, hr, ho, -⟩ := run_eq_ok_iff.mp hrun
      exact absurd ⟨hsource, r, o, hr, ho⟩ hbuilt
    · by_cases hsource : call.sourceId.toNat ≤ 255
      · cases out with
        | none => exact .inr (.inr rfl)
        | some o =>
          cases hr : call.record with
          | none => exact .inl (enumsFit_of_record_none hr)
          | some r => exact absurd ⟨hsource, r, o, hr, rfl⟩ hbuilt
      · exact .inr (.inl (Nat.lt_of_not_le hsource))

/-- Code 256, a fault, is logged as code 0, `NONE`. -/
theorem not_neverNarrows_faultEvent :
    ¬ (faultEvent 3 4 (some ⟨256, .fatal⟩) 2).NeverNarrows (some (RecordBuffer.zero .target)) := by
  intro hkept
  have hrecord : (faultEvent (p := .target) 3 4 (some ⟨256, .fatal⟩) 2).record =
      some (faultEventRecord 3 4 ⟨256, .fatal⟩ 2) := rfl
  have hfields := hkept _ (run_of_record hrecord _)
  rw [RecordBuffer.image_store, fieldsKept_faultEvent_iff 3 _ 2 (by decide)] at hfields
  exact absurd hfields.1 (by decide)

end BuilderCall

end EmbeddedInsDaq
