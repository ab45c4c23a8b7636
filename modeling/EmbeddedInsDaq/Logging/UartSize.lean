import EmbeddedInsDaq.Logging.RecordReader

/-!
# The size check of the UART builder

`record_builder_build_uart_data` compares `sizeof(header) + sizeof(prefix) + length` with the
capacity of the buffer, in the arithmetic of `size_t`. `size_check_sound_iff` says for which lengths
that protects the buffer: all but the 19 greatest ones, for which the sum wraps.
-/

namespace EmbeddedInsDaq

open Bytes

namespace BuilderCall

variable {p : Platform}

/-- The copies of a call that came to its end, or the one that left its bounds; the model makes no
copy after that one, and those before it stayed inside. -/
def writes : Except Undefined (EspErr × BuildState p) → List Memcpy
  | .ok (_, s) => s.copies
  | .error (.outOfBounds copy) => [copy]
  | .error .nullOut => []

/-- What the size check is for, on the outcome of a call: a length without room is refused, every
copy stays inside of the buffer, and the lengths in a record that is built are exact. -/
structure SizeChecked (length : ℕ) (outcome : Except Undefined (EspErr × BuildState p)) : Prop where
  noMem : 17 + 2 + length > 512 → ∃ s, outcome = .ok (.noMem, s)
  inside : ∀ copy ∈ writes outcome, copy.dst + copy.length ≤ recordBufferCapacityBytes
  exact : ∀ s out, outcome = .ok (.ok, s) → s.out = some out →
    field 17 2 out.bytes = length ∧ field 12 2 out.bytes = length + 2

end BuilderCall

open BuilderCall

variable {p : Platform}

theorem lengths_store (out : RecordBuffer p) (sourceId : UInt32) (firstByteTimestampUs : UInt64)
    {bytes : List UInt8} {length : ℕ} (h : UartFits bytes length) :
    field 17 2 (out.store (uartDataRecord sourceId firstByteTimestampUs h)).bytes = length ∧
      field 12 2 (out.store (uartDataRecord sourceId firstByteTimestampUs h)).bytes =
        length + 2 := by
  have hle := h.le_capacity
  have hpayload : (uartDataRecord sourceId firstByteTimestampUs h).payload =
      leBytes 2 length ++ bytes.take length := uartPayload_eq h
  have hlength : (uartDataRecord sourceId firstByteTimestampUs h).payload.length = length + 2 :=
    h.length_payload.trans (Nat.add_comm _ _)
  show field 17 2 ((uartDataRecord sourceId firstByteTimestampUs h).image ++ _) = length ∧
    field 12 2 ((uartDataRecord sourceId firstByteTimestampUs h).image ++ _) = length + 2
  rw [StoredRecord.image_eq, hlength, hpayload]
  simp only [List.append_assoc]
  constructor
  · rw [field_append_right (by simp), field_append_right (by simp), field_append_right (by simp),
      field_append_right (by simp)]
    exact field_leBytes_append (by omega)
  · rw [field_append_right (by simp), field_append_right (by simp)]
    simp only [length_leBytes]
    exact field_leBytes_append (by omega)

theorem stagingCopies_inside {bytes : List UInt8} {length : ℕ} (h : UartFits bytes length) :
    ∀ copy ∈ stagingCopies bytes length, copy.dst + copy.length ≤ recordBufferCapacityBytes := by
  have hle := h.le_capacity
  have hlead : 17 + 2 ≤ 512 := by omega
  have hdata : 17 + 2 + length ≤ 512 := by omega
  exact List.forall_mem_cons.mpr ⟨hlead, List.forall_mem_singleton.mpr hdata⟩

theorem recordCopies_inside (r : StoredRecord) (payload : Source) :
    ∀ copy ∈ recordCopies r payload, copy.dst + copy.length ≤ recordBufferCapacityBytes := by
  have hheader : 0 + 17 ≤ 512 := by omega
  exact List.forall_mem_cons.mpr ⟨hheader,
    List.forall_mem_cons.mpr ⟨r.fits, List.forall_mem_singleton.mpr hheader⟩⟩

theorem sizeChecked_of_fits (sourceId : UInt32) (firstByteTimestampUs : UInt64)
    {bytes : List UInt8} {length : SizeT p} (h : UartFits bytes length.toNat)
    (out : RecordBuffer p) :
    SizeChecked length.toNat
      ((uartData sourceId firstByteTimestampUs (some bytes) length).build.run ⟨some out, []⟩) := by
  have hle := h.le_capacity
  rw [uartData_build_of_fits sourceId firstByteTimestampUs h]
  split_ifs
  · refine ⟨fun hlarge => absurd hlarge (by omega), ?_, ?_⟩
    · exact List.forall_mem_append.mpr ⟨stagingCopies_inside h, recordCopies_inside _ _⟩
    · intro s out' hok hout
      cases hok
      cases hout
      exact lengths_store out sourceId firstByteTimestampUs h
  · refine ⟨fun hlarge => absurd hlarge (by omega), stagingCopies_inside h, ?_⟩
    intro s out' hok
    cases hok

/-- The check on any other call, as long as the sum does not wrap. -/
theorem sizeChecked_of_not_fits (sourceId : UInt32) (firstByteTimestampUs : UInt64)
    {bytes : List UInt8} {length : SizeT p} (h : ¬ UartFits bytes length.toNat)
    (hwrap : 19 + length.toNat < 2 ^ p.sizeBits) (out : RecordBuffer p) :
    SizeChecked length.toNat
      ((uartData sourceId firstByteTimestampUs (some bytes) length).build.run ⟨some out, []⟩) := by
  rw [uartData_build_of_not_fits sourceId firstByteTimestampUs h, toNat_uartGuard_of_lt hwrap]
  split_ifs with hzero hguard
  · exact ⟨fun hlarge => absurd hlarge (by omega), List.forall_mem_nil _, nofun⟩
  · exact ⟨fun _ => ⟨_, rfl⟩, List.forall_mem_nil _, nofun⟩
  · have hroom : 17 + 2 + length.toNat ≤ 512 := Nat.le_of_not_lt hguard
    exact ⟨fun hlarge => absurd hlarge (by omega), List.forall_mem_singleton.mpr hroom, nofun⟩

/-- A sum that wraps passes the check, and the data is copied out of the buffer. -/
theorem uartData_build_of_wrap (sourceId : UInt32) (firstByteTimestampUs : UInt64)
    (bytes : List UInt8) {length : SizeT p} (hwrap : 2 ^ p.sizeBits ≤ 19 + length.toNat)
    (out : RecordBuffer p) :
    (uartData sourceId firstByteTimestampUs (some bytes) length).build.run ⟨some out, []⟩ =
      .error (.outOfBounds ⟨BinaryRecordHeader.size + UartDataRecordPayloadPrefix.size,
        .object bytes, length.toNat⟩) := by
  have hlt : length.toNat < 2 ^ p.sizeBits := length.isLt
  have hwidth := p.two_pow_le
  have hfits : ¬ UartFits bytes length.toNat := by
    intro h
    have hle := h.le_capacity
    omega
  have hguard : (uartGuard length).toNat = 19 + length.toNat - 2 ^ p.sizeBits := by
    rw [toNat_uartGuard, Nat.mod_eq_sub_mod hwrap, Nat.mod_eq_of_lt (by omega)]
  rw [uartData_build_of_not_fits sourceId firstByteTimestampUs hfits, hguard, if_neg (by omega),
    if_neg]
  show ¬ 19 + length.toNat - 2 ^ p.sizeBits > 512
  omega

/-- **Size check.** It does what it is for exactly when the sum does not wrap. -/
theorem size_check_sound_iff (sourceId : UInt32) (firstByteTimestampUs : UInt64)
    (bytes : List UInt8) (length : SizeT p) (out : RecordBuffer p) :
    SizeChecked length.toNat
        ((uartData sourceId firstByteTimestampUs (some bytes) length).build.run ⟨some out, []⟩) ↔
      19 + length.toNat < 2 ^ p.sizeBits := by
  constructor
  · intro hchecked
    by_contra hwrap
    have hge := Nat.le_of_not_lt hwrap
    have hwidth := p.two_pow_le
    obtain ⟨s, hs⟩ := hchecked.noMem (by omega)
    rw [uartData_build_of_wrap sourceId firstByteTimestampUs bytes hge] at hs
    cases hs
  · intro hwrap
    by_cases hfits : UartFits bytes length.toNat
    · exact sizeChecked_of_fits sourceId firstByteTimestampUs hfits out
    · exact sizeChecked_of_not_fits sourceId firstByteTimestampUs hfits hwrap out

/-- The greatest length there is on the target, with four bytes behind the pointer. -/
theorem not_sizeChecked_max :
    ¬ SizeChecked (0xffffffff : SizeT .target).toNat
      ((uartData 2 9 (some [0xde, 0xad, 0xbe, 0xef]) 0xffffffff).build.run
        ⟨some (RecordBuffer.zero .target), []⟩) := by
  intro hchecked
  obtain ⟨s, hs⟩ := hchecked.noMem (by decide)
  rw [uartData_build_of_wrap 2 9 _ (by decide)] at hs
  cases hs

end EmbeddedInsDaq
