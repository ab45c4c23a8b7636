import EmbeddedInsDaq.Logging.RecordChecksum
import EmbeddedInsDaq.Logging.RecordReader

/-!
# Which changes of a stored record its checksum shows

The first call of `crc32_bytes` in `build_record` ends at `offsetof(binary_record_header_t, crc32)`.
In the packed layout that is byte 8, so the type, version and source id behind `crc32` are not
covered. `change_detected_iff` says which single-byte changes the check finds, position by position.
-/

namespace EmbeddedInsDaq

open Bytes

/-! ## A record in parts -/

section Parts

variable {timestamp crc length rest payload : List UInt8} (htimestamp : timestamp.length = 8)
  (hcrc : crc.length = 4) (hlength : length.length = 2) (hrest : rest.length = 3)
  (hpayload : leNat length = payload.length)
  (hvalid : leNat crc = (crc32Bytes (timestamp ++ payload)).toNat) {i : ℕ} {b : UInt8}

include htimestamp hcrc hlength hrest hpayload hvalid

/-- A changed timestamp is a changed covered string. -/
theorem not_crcMatches_set_timestamp (hi : i < timestamp.length) (hb : timestamp[i]? ≠ some b) :
    ¬ CrcMatches (timestamp.set i b ++ (crc ++ (length ++ (rest ++ payload)))) := by
  have hi' : i < (timestamp ++ payload).length := by
    rw [List.length_append]
    omega
  rw [crcMatches_iff (List.length_set.trans htimestamp) hcrc hlength hrest hpayload, hvalid,
    UInt32.toNat_inj, ← List.set_append_left _ _ hi]
  rw [← List.getElem?_append_left hi] at hb
  exact (crc32Bytes_set_ne hi' hb).symm

theorem not_crcMatches_set_payload (hi : i < payload.length) (hb : payload[i]? ≠ some b) :
    ¬ CrcMatches (timestamp ++ (crc ++ (length ++ (rest ++ payload.set i b)))) := by
  have hi' : timestamp.length + i < (timestamp ++ payload).length := by
    rw [List.length_append]
    omega
  have hset : timestamp ++ payload.set i b =
      (timestamp ++ payload).set (timestamp.length + i) b := by
    rw [List.set_append_right _ _ (Nat.le_add_right _ _), Nat.add_sub_cancel_left]
  rw [crcMatches_iff htimestamp hcrc hlength hrest (hpayload.trans List.length_set.symm), hvalid,
    UInt32.toNat_inj, hset]
  refine (crc32Bytes_set_ne hi' ?_).symm
  rw [List.getElem?_append_right (Nat.le_add_right _ _), Nat.add_sub_cancel_left]
  exact hb

/-- A changed checksum is compared with the same recomputed one. -/
theorem not_crcMatches_set_crc (hi : i < crc.length) (hb : crc[i]? ≠ some b) :
    ¬ CrcMatches (timestamp ++ (crc.set i b ++ (length ++ (rest ++ payload)))) := by
  rw [crcMatches_iff htimestamp (List.length_set.trans hcrc) hlength hrest hpayload, ← hvalid]
  intro heq
  have hset := leNat_inj List.length_set heq
  refine hb ?_
  rw [← hset, List.getElem?_set_self hi]

theorem crcMatches_set_rest :
    CrcMatches (timestamp ++ (crc ++ (length ++ (rest.set i b ++ payload)))) :=
  (crcMatches_iff htimestamp hcrc hlength (List.length_set.trans hrest) hpayload).mpr hvalid

end Parts

/-! ## Stored records -/

theorem StoredRecord.crcMatches_set_iff (r : StoredRecord) {i : ℕ} (hi : i < r.image.length)
    (hlength : i ≠ 12 ∧ i ≠ 13) {b : UInt8} (hb : r.image[i]? ≠ some b) :
    CrcMatches (r.image.set i b) ↔ 14 ≤ i ∧ i ≤ 16 := by
  have htimestamp : (leBytes 8 r.timestampUs.toNat).length = 8 := length_leBytes _ _
  have hcrc : (leBytes 4 (crc32Bytes r.covered).toNat).length = 4 := length_leBytes _ _
  have hlen : (leBytes 2 r.payload.length).length = 2 := length_leBytes _ _
  have hpayload : leNat (leBytes 2 r.payload.length) = r.payload.length :=
    leNat_leBytes_of_lt r.length_payload_lt
  have hvalid : leNat (leBytes 4 (crc32Bytes r.covered).toNat) = (crc32Bytes r.covered).toNat :=
    leNat_leBytes_of_lt (UInt32.toNat_lt _)
  rw [r.length_image] at hi
  unfold BinaryRecordHeader.size at hi
  rw [r.image_eq] at hb ⊢
  by_cases h8 : i < 8
  · rw [← htimestamp] at h8
    rw [List.getElem?_append_left h8] at hb
    rw [List.set_append_left _ _ h8]
    exact iff_of_false (not_crcMatches_set_timestamp htimestamp hcrc hlen rfl hpayload hvalid h8 hb)
      (by omega)
  have h8' := htimestamp.trans_le (Nat.le_of_not_lt h8)
  rw [List.getElem?_append_right h8', htimestamp] at hb
  rw [List.set_append_right _ _ h8', htimestamp]
  by_cases h12 : i - 8 < 4
  · rw [← hcrc] at h12
    rw [List.getElem?_append_left h12] at hb
    rw [List.set_append_left _ _ h12]
    exact iff_of_false (not_crcMatches_set_crc htimestamp hcrc hlen rfl hpayload hvalid h12 hb)
      (by omega)
  have h12' := hcrc.trans_le (Nat.le_of_not_lt h12)
  have h14 : (leBytes 2 r.payload.length).length ≤ i - 8 - 4 := hlen.trans_le (by omega)
  rw [List.getElem?_append_right h12', hcrc, List.getElem?_append_right h14, hlen] at hb
  rw [List.set_append_right _ _ h12', hcrc, List.set_append_right _ _ h14, hlen]
  by_cases h17 : i - 8 - 4 - 2 < 3
  · rw [List.set_append_left _ _ h17]
    exact iff_of_true (crcMatches_set_rest htimestamp hcrc hlen rfl hpayload hvalid) (by omega)
  have h17' := Nat.le_of_not_lt h17
  rw [List.getElem?_append_right h17'] at hb
  rw [List.set_append_right _ _ h17']
  exact iff_of_false (not_crcMatches_set_payload htimestamp hcrc hlen rfl hpayload hvalid
    (by show i - 8 - 4 - 2 - 3 < _; omega) hb) (by omega)

namespace BuilderCall

variable {p : Platform}

/-- **Integrity.** The check finds a change of one byte of a stored record, its payload length
apart, exactly when the byte is not one of the three between the payload length and the payload. -/
theorem change_detected_iff {call : BuilderCall p} {image : List UInt8} (h : call.Encodes image)
    {i : ℕ} (hi : i < image.length) (hlength : i ≠ 12 ∧ i ≠ 13) {b : UInt8} (hb : b ≠ image[i]) :
    ¬ CrcMatches (image.set i b) ↔ ¬ (14 ≤ i ∧ i ≤ 16) := by
  obtain ⟨-, r, -, rfl⟩ := encodes_iff.mp h
  refine not_congr (r.crcMatches_set_iff hi hlength ?_)
  rw [List.getElem?_eq_getElem hi]
  exact fun heq => hb (Option.some.inj heq).symm

/-- The type of a stored sync edge can be changed to that of a fault event. -/
theorem syncEdge_change_undetected :
    (syncEdge 6 5 false : BuilderCall .target).Encodes (syncEdgeRecord 6 5 false).image ∧
      ¬ ∀ (i : ℕ) (hi : i < (syncEdgeRecord 6 5 false).image.length) (b : UInt8),
        i ≠ 12 ∧ i ≠ 13 → b ≠ (syncEdgeRecord 6 5 false).image[i] →
          ¬ CrcMatches ((syncEdgeRecord 6 5 false).image.set i b) := by
  have hlen : 14 < (syncEdgeRecord 6 5 false).image.length := by
    rw [StoredRecord.length_image]
    decide
  refine ⟨encodes_iff.mpr ⟨by decide, _, rfl, rfl⟩, fun h => ?_⟩
  refine h 14 hlen 2 (by decide) (show (2 : UInt8) ≠ 4 by decide) ?_
  exact (StoredRecord.crcMatches_set_iff _ hlen (by decide) (by decide)).mpr (by decide)

/-- The last byte of that record, its polarity, is covered. -/
theorem change_detected_syncEdge :
    ¬ CrcMatches ((syncEdgeRecord 6 5 false).image.set 17 1) ↔ ¬ (14 ≤ 17 ∧ 17 ≤ 16) :=
  @change_detected_iff .target (syncEdge 6 5 false) _ (encodes_iff.mpr ⟨by decide, _, rfl, rfl⟩)
    17 (by rw [StoredRecord.length_image]; decide) (by decide) 1 (show (1 : UInt8) ≠ 0 by decide)

end BuilderCall

end EmbeddedInsDaq
