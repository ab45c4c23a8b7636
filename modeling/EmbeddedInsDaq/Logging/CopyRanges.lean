import EmbeddedInsDaq.Logging.BuilderCalls
import Mathlib.Order.CompletePartialOrder
import Mathlib.Order.Interval.Set.Disjoint

/-!
# Copies that read and write apart

`memcpy` is defined only for a source and a destination that do not overlap, and the comments in
`record_builder.c` say that none does. `copies_apart_iff` says for which calls they are right: for
all but UART data that is built, whose payload lies in the buffer already when `build_record` copies
it there.
-/

namespace EmbeddedInsDaq

/-! ## Address ranges -/

/-- The addresses of `n` bytes from `addr` on. -/
def addressRange (addr n : ℕ) : Set ℕ := Set.Ico addr (addr + n)

theorem addressRange_mono {addr addr' n n' : ℕ} (h : addr' ≤ addr) (h' : addr + n ≤ addr' + n') :
    addressRange addr n ⊆ addressRange addr' n' :=
  Set.Ico_subset_Ico h h'

theorem disjoint_addressRange_iff {a b m n : ℕ} :
    Disjoint (addressRange a m) (addressRange b n) ↔ m = 0 ∨ n = 0 ∨ a + m ≤ b ∨ b + n ≤ a := by
  unfold addressRange
  rw [Set.Ico_disjoint_Ico]
  omega

/-- Where a source may lie when `out->bytes` lies at `outAddr`: an object anywhere apart from that,
and a place in the buffer nowhere else. -/
def Source.LiesAt (outAddr addr : ℕ) : Source → Prop
  | .object bytes =>
    Disjoint (addressRange addr bytes.length) (addressRange outAddr recordBufferCapacityBytes)
  | .out offset => addr = outAddr + offset

/-- The ranges of the copy are disjoint, wherever its source lies. -/
def Memcpy.Apart (outAddr : ℕ) (copy : Memcpy) : Prop :=
  ∀ addr, copy.src.LiesAt outAddr addr →
    Disjoint (addressRange (outAddr + copy.dst) copy.length) (addressRange addr copy.length)

theorem Memcpy.apart_object {outAddr dst n : ℕ} {bytes : List UInt8}
    (hdst : dst + n ≤ recordBufferCapacityBytes) (hsrc : n ≤ bytes.length) :
    Memcpy.Apart outAddr ⟨dst, .object bytes, n⟩ := by
  intro addr hapart
  have hwrite : addressRange (outAddr + dst) n ⊆ addressRange outAddr recordBufferCapacityBytes :=
    addressRange_mono (by omega) (by omega)
  have hread : addressRange addr n ⊆ addressRange addr bytes.length :=
    addressRange_mono le_rfl (by omega)
  exact hapart.symm.mono hwrite hread

theorem Memcpy.apart_out_iff {outAddr dst offset n : ℕ} :
    Memcpy.Apart outAddr ⟨dst, .out offset, n⟩ ↔ n = 0 ∨ dst + n ≤ offset ∨ offset + n ≤ dst := by
  have hranges : Memcpy.Apart outAddr ⟨dst, .out offset, n⟩ ↔
      Disjoint (addressRange (outAddr + dst) n) (addressRange (outAddr + offset) n) := forall_eq
  rw [hranges, disjoint_addressRange_iff]
  omega

theorem Memcpy.not_apart_self {outAddr dst n : ℕ} (h : 0 < n) :
    ¬ Memcpy.Apart outAddr ⟨dst, .out dst, n⟩ := by
  rw [Memcpy.apart_out_iff]
  omega

namespace BuilderCall

variable {p : Platform}

/-! ## The copies of a call -/

/-- The UART bytes that the caller passes are there, and lie apart from `out->bytes` at
`outAddr`. -/
def InputsApart (outAddr : ℕ) : BuilderCall p → Prop
  | .uartData _ _ (some bytes) length =>
    length.toNat ≤ bytes.length ∧ outAddr + recordBufferCapacityBytes ≤ 2 ^ p.sizeBits ∧
      ∃ addr, addr + bytes.length ≤ 2 ^ p.sizeBits ∧ (Source.object bytes).LiesAt outAddr addr
  | _ => True

/-- Two such objects leave no room for a length that wraps. -/
theorem length_lt_of_inputsApart {outAddr : ℕ} {sourceId : UInt32} {firstByteTimestampUs : UInt64}
    {bytes : List UInt8} {length : SizeT p}
    (h : (uartData sourceId firstByteTimestampUs (some bytes) length).InputsApart outAddr) :
    length.toNat ≤ bytes.length ∧ 19 + length.toNat < 2 ^ p.sizeBits := by
  obtain ⟨hbytes, hout, addr, haddr, hapart⟩ := h
  have hwidth := p.two_pow_le
  have hranges := disjoint_addressRange_iff.mp hapart
  unfold recordBufferCapacityBytes at hout hranges
  omega

theorem build_of_record_none {call : BuilderCall p} {outAddr : ℕ} (hr : call.record = none)
    (hinputs : call.InputsApart outAddr) (out : RecordBuffer p) :
    ∃ err, call.build.run ⟨some out, []⟩ = .ok (err, ⟨some out, []⟩) := by
  cases call with
  | sessionStart session config =>
    rcases session with _ | session <;> rcases config with _ | config <;> cases hr <;>
      exact ⟨_, rfl⟩
  | faultEvent timestampUs sourceId event health =>
    rcases event with _ | event <;> cases hr
    exact ⟨_, rfl⟩
  | uartData sourceId firstByteTimestampUs bytes length =>
    rcases bytes with _ | bytes
    · exact ⟨_, rfl⟩
    have hfits : ¬ UartFits bytes length.toNat := by
      intro hfits
      rw [record_uartData _ _ hfits] at hr
      cases hr
    obtain ⟨hbytes, hwrap⟩ := length_lt_of_inputsApart hinputs
    rw [uartData_build_of_not_fits _ _ hfits, toNat_uartGuard_of_lt hwrap]
    split_ifs with hzero hguard
    · exact ⟨_, rfl⟩
    · exact ⟨_, rfl⟩
    · have hroom : 19 + length.toNat ≤ 512 := Nat.le_of_not_lt hguard
      exact absurd ⟨by omega, by omega, hbytes⟩ hfits
  | syncEdge sourceId timestampUs levelHigh => cases hr

/-- UART data that gets through to the copies of `build_record`. -/
def PassesBuffer : BuilderCall p → Prop
  | .uartData sourceId _ (some bytes) length => UartFits bytes length.toNat ∧ sourceId.toNat ≤ 255
  | _ => False

theorem PassesBuffer.built {call : BuilderCall p} (h : call.PassesBuffer) :
    call.record ≠ none ∧ call.sourceId.toNat ≤ 255 := by
  cases call with
  | uartData sourceId firstByteTimestampUs bytes length =>
    rcases bytes with _ | bytes
    · exact h.elim
    · rw [record_uartData _ _ h.1]
      exact ⟨Option.some_ne_none _, h.2⟩
  | _ => exact h.elim

theorem stagingCopies_apart {bytes : List UInt8} {length : ℕ} (h : UartFits bytes length)
    (outAddr : ℕ) : ∀ copy ∈ stagingCopies bytes length, copy.Apart outAddr := by
  have hle := h.le_capacity
  have hroom : 17 + 2 + length ≤ 512 := by omega
  exact List.forall_mem_cons.mpr ⟨Memcpy.apart_object (uartPrefix_fits length) le_rfl,
    List.forall_mem_singleton.mpr (Memcpy.apart_object hroom h.le_bytes)⟩

theorem earlyCopies_apart {call : BuilderCall p} {r : StoredRecord} (hr : call.record = some r)
    (outAddr : ℕ) : ∀ copy ∈ call.earlyCopies, copy.Apart outAddr := by
  cases stores_of_record hr with
  | uartData sourceId firstByteTimestampUs hfits => exact stagingCopies_apart hfits outAddr
  | _ => exact List.forall_mem_nil _

/-- The copies of `build_record` are as its payload is. -/
theorem recordCopies_apart_iff (r : StoredRecord) (payload : Source) (outAddr : ℕ) :
    (∀ copy ∈ recordCopies r payload, copy.Apart outAddr) ↔
      Memcpy.Apart outAddr ⟨BinaryRecordHeader.size, payload, r.payload.length⟩ := by
  have hheader (crc32 : UInt32) : Memcpy.Apart outAddr
      ⟨0, .object (r.headerWith crc32).bytes, BinaryRecordHeader.size⟩ :=
    Memcpy.apart_object (by decide) (r.length_headerWith crc32).ge
  unfold recordCopies
  rw [List.forall_mem_cons, List.forall_mem_cons, List.forall_mem_singleton]
  exact ⟨fun h => h.2.1, fun h => ⟨hheader 0, h, hheader _⟩⟩

theorem payloadCopy_apart_iff {call : BuilderCall p} {r : StoredRecord}
    (hr : call.record = some r) (hsource : call.sourceId.toNat ≤ 255) (outAddr : ℕ) :
    Memcpy.Apart outAddr ⟨BinaryRecordHeader.size, call.payloadSource r, r.payload.length⟩ ↔
      ¬ call.PassesBuffer := by
  cases stores_of_record hr with
  | uartData sourceId firstByteTimestampUs hfits =>
    refine iff_of_false ?_ (not_not.mpr ⟨hfits, hsource⟩)
    have hlength : 0 < (uartPayload _ _).length := hfits.length_payload ▸ Nat.add_pos_left two_pos _
    exact Memcpy.not_apart_self hlength
  | _ => exact iff_of_true (Memcpy.apart_object (StoredRecord.fits _) le_rfl) not_false

/-- **Copies.** A call whose inputs lie apart from the buffer returns, and all copies that it made
were between disjoint ranges exactly if it did not build UART data. -/
theorem copies_apart_iff {call : BuilderCall p} {outAddr : ℕ} (hinputs : call.InputsApart outAddr)
    (out : Option (RecordBuffer p)) :
    ∃ err s, call.build.run ⟨out, []⟩ = .ok (err, s) ∧
      ((∀ copy ∈ s.copies, copy.Apart outAddr) ↔ out = none ∨ ¬ call.PassesBuffer) := by
  cases out with
  | none => exact ⟨_, _, build_none call, iff_of_true (List.forall_mem_nil _) (.inl rfl)⟩
  | some o =>
    simp only [reduceCtorEq, false_or]
    cases hr : call.record with
    | none =>
      obtain ⟨err, hbuild⟩ := build_of_record_none hr hinputs o
      refine ⟨err, _, hbuild, iff_of_true (List.forall_mem_nil _) ?_⟩
      exact fun hpasses => hpasses.built.1 hr
    | some r =>
      by_cases hsource : call.sourceId.toNat ≤ 255
      · refine ⟨_, _, (build_of_record hr o).trans (by rw [if_pos hsource]), ?_⟩
        rw [List.forall_mem_append, recordCopies_apart_iff, payloadCopy_apart_iff hr hsource]
        exact and_iff_right (earlyCopies_apart hr outAddr)
      · refine ⟨_, _, (build_of_record hr o).trans (by rw [if_neg hsource]), ?_⟩
        exact iff_of_true (earlyCopies_apart hr outAddr) fun hpasses => hsource hpasses.built.2

theorem inputsApart_uartData (sourceId : UInt32) :
    (uartData (p := .target) sourceId 9 (some [0xde, 0xad]) 2).InputsApart 0x1000 :=
  ⟨by decide, by decide, 0x2000, by decide, disjoint_addressRange_iff.mpr (by decide)⟩

/-- With a source id that is refused, they are copied, from where they lie to where they do not. -/
theorem copies_apart_iff_rejected :
    ∃ err s, (uartData (p := .target) 256 9 (some [0xde, 0xad]) 2).build.run
        ⟨some (RecordBuffer.zero .target), []⟩ = .ok (err, s) ∧
      ∀ copy ∈ s.copies, copy.Apart 0x1000 := by
  obtain ⟨err, s, hbuild, hiff⟩ :=
    copies_apart_iff (inputsApart_uartData 256) (some (RecordBuffer.zero .target))
  exact ⟨err, s, hbuild, hiff.mpr (.inr (by rintro ⟨-, h⟩; exact absurd h (by decide)))⟩

/-- With source id 2 they get into a record, and one of the copies is of the payload onto itself. -/
theorem not_copies_apart_uartData :
    (uartData (p := .target) 2 9 (some [0xde, 0xad]) 2).InputsApart 0x1000 ∧
      ∃ s, (uartData (p := .target) 2 9 (some [0xde, 0xad]) 2).build.run
          ⟨some (RecordBuffer.zero .target), []⟩ = .ok (.ok, s) ∧
        ¬ ∀ copy ∈ s.copies, copy.Apart 0x1000 := by
  have hfits : UartFits [0xde, 0xad] (2#32).toNat := by decide
  have hbuild := build_of_record (record_uartData 2 9 hfits) (RecordBuffer.zero .target)
  refine ⟨inputsApart_uartData 2, _, hbuild, fun hall => ?_⟩
  have hpayload := (recordCopies_apart_iff _ _ _).mp (List.forall_mem_append.mp hall).2
  have hlength : 0 < (uartPayload [0xde, 0xad] 2).length := by decide
  exact Memcpy.not_apart_self hlength hpayload

end BuilderCall

end EmbeddedInsDaq
