import EmbeddedInsDaq.Logging.BuilderCalls

/-!
# Failing builder calls

A builder that fails should leave the caller's buffer as it was, and every one of them checks
before it writes, except for one path: the UART builder stages its payload in the buffer and leaves
the check of the source id to `build_record`. `failure_atomic_iff` says that this path is the only
one, and when it shows.
-/

namespace EmbeddedInsDaq

open Bytes

namespace BuilderCall

variable {p : Platform}

/-- A call that fails leaves the buffer, its length included, as it was. -/
def FailureAtomic (call : BuilderCall p) (out : Option (RecordBuffer p)) : Prop :=
  ∀ err out', call.run out = .ok (err, out') → err ≠ .ok → out' = out

/-- UART data that fits, for a source id that one byte does not hold, where the buffer does not
hold the prefix and the data already. -/
def StagesRejected (out : RecordBuffer p) : BuilderCall p → Prop
  | .uartData sourceId _ (some bytes) length =>
    255 < sourceId.toNat ∧ UartFits bytes length.toNat ∧
      slice BinaryRecordHeader.size (UartDataRecordPayloadPrefix.size + length.toNat) out.bytes ≠
        leBytes 2 length.toNat ++ bytes.take length.toNat
  | _ => False

/-- Staging is visible unless the bytes are there already. -/
theorem stage_eq_self_iff (out : RecordBuffer p) {bytes : List UInt8} {length : ℕ}
    (h : UartFits bytes length) :
    out.stage h = out ↔
      slice BinaryRecordHeader.size (UartDataRecordPayloadPrefix.size + length) out.bytes =
        leBytes 2 length ++ bytes.take length := by
  rw [← h.length_payload, ← uartPayload_eq h, ← splice_eq_self_iff]
  constructor
  · intro heq
    exact congrArg RecordBuffer.bytes heq
  · intro heq
    exact RecordBuffer.eq_of_bytes heq rfl

theorem afterRejection_ne_iff {call : BuilderCall p} (out : RecordBuffer p)
    (hsource : 255 < call.sourceId.toNat) :
    call.afterRejection out ≠ out ↔ call.StagesRejected out := by
  cases call with
  | uartData sourceId firstByteTimestampUs bytes length =>
    rcases bytes with _ | bytes
    · exact iff_of_false (not_not.mpr rfl) not_false
    · by_cases hfits : UartFits bytes length.toNat
      · rw [afterRejection, dif_pos hfits, Ne, stage_eq_self_iff out hfits]
        constructor
        · intro hne
          exact ⟨hsource, hfits, hne⟩
        · intro h
          exact h.2.2
      · rw [afterRejection, dif_neg hfits]
        exact iff_of_false (not_not.mpr rfl) fun h => hfits h.2.1
  | sessionStart => exact iff_of_false (not_not.mpr rfl) not_false
  | faultEvent => exact iff_of_false (not_not.mpr rfl) not_false
  | syncEdge => exact iff_of_false (not_not.mpr rfl) not_false

theorem StagesRejected.rejected {call : BuilderCall p} {out : RecordBuffer p}
    (h : call.StagesRejected out) : 255 < call.sourceId.toNat ∧ call.record ≠ none := by
  cases call with
  | uartData sourceId firstByteTimestampUs bytes length =>
    rcases bytes with _ | bytes
    · exact h.elim
    · refine ⟨h.1, ?_⟩
      rw [record, dif_pos h.2.1]
      exact Option.some_ne_none _
  | sessionStart => exact h.elim
  | faultEvent => exact h.elim
  | syncEdge => exact h.elim

/-- **Failure.** A failing call leaves the buffer as it was, except for UART data that is staged
before its source id is refused. -/
theorem failure_atomic_iff (call : BuilderCall p) (out : Option (RecordBuffer p)) :
    call.FailureAtomic out ↔ ∀ o ∈ out, ¬ call.StagesRejected o := by
  cases out with
  | none =>
    refine iff_of_true ?_ nofun
    intro err out' hrun _
    rw [run_none] at hrun
    cases hrun
    rfl
  | some o =>
    simp only [Option.mem_some_iff, forall_eq']
    cases hr : call.record with
    | none =>
      refine iff_of_true ?_ fun h => h.rejected.2 hr
      intro err out' hrun _
      exact (run_of_record_none hr hrun).2
    | some r =>
      have hrun := run_of_record hr o
      by_cases hsource : call.sourceId.toNat ≤ 255
      · refine iff_of_true ?_ fun h => absurd h.rejected.1 (Nat.not_lt.mpr hsource)
        intro err out' hrun' herr
        rw [hrun, if_pos hsource] at hrun'
        cases hrun'
        exact absurd rfl herr
      · rw [if_neg hsource] at hrun
        rw [← afterRejection_ne_iff o (Nat.lt_of_not_le hsource), not_not]
        constructor
        · intro hatomic
          exact Option.some.inj (hatomic _ _ hrun nofun)
        · intro hsame err out' hrun' _
          rw [hrun, hsame] at hrun'
          cases hrun'
          rfl

/-- Four bytes for source id 256: refused, and left behind in a buffer that was zero. -/
theorem not_failureAtomic_uartData :
    ¬ (uartData 256 2 (some [0xde, 0xad, 0xbe, 0xef]) 4).FailureAtomic
      (some (RecordBuffer.zero .target)) := by
  intro hatomic
  have hfits : UartFits [0xde, 0xad, 0xbe, 0xef] (4#32).toNat := by decide
  have hrun := run_of_record (record_uartData 256 2 hfits) (RecordBuffer.zero .target)
  have hstage := Option.some.inj (hatomic _ _ hrun nofun)
  have hslice := (stage_eq_self_iff _ hfits).mp hstage
  exact absurd hslice (by decide)

end BuilderCall

end EmbeddedInsDaq
