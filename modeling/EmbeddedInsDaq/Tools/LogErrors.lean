import EmbeddedInsDaq.Tools.LogGrammar

/-!
# How the parser refuses a log

For a truncated record, a wrong checksum and a wrong UART length the parser raises `ValueError`. It
leaves the size of the other payloads to `struct`, which raises an exception of its own:
`value_error_iff` says for which logs that gets out.
-/

namespace EmbeddedInsDaq

open Bytes

/-! ## One payload -/

/-- The payloads that `_decode_record` hands to `struct` in the wrong size. -/
def SizeMismatch (recordType : ℕ) (payload : List UInt8) : Prop :=
  (recordType = 1 ∨ recordType = 2) ∧ payload.length ≠ fourWordsSize ∨
    recordType = 3 ∧ payload.length < uartPrefixStructSize ∨
    recordType = 4 ∧ payload.length ≠ syncEdgeStructSize

/-- The outcome is an exception that is not a `ValueError`. -/
def EscapesValueError {α : Type} (outcome : Except ParseError α) : Prop :=
  ∃ e, outcome = .error e ∧ e.isValueError = false

theorem escapes_checkStructSize_bind {α : Type} (size : ℕ) (bytes : List UInt8)
    (f : Unit → Except ParseError α) (hf : ¬ EscapesValueError (f ())) :
    EscapesValueError (checkStructSize size bytes >>= f) ↔ bytes.length ≠ size := by
  unfold checkStructSize
  by_cases h : bytes.length = size
  · rw [if_pos h]
    exact iff_of_false hf (not_not.mpr h)
  · rw [if_neg h]
    exact iff_of_true ⟨_, rfl, rfl⟩ h

theorem not_escapes_ok {α : Type} (a : α) : ¬ EscapesValueError (.ok a : Except ParseError α) := by
  rintro ⟨e, h, -⟩
  cases h

theorem escapes_decodeFields_uartData (payload : List UInt8) :
    EscapesValueError (decodeFields 3 payload) ↔ payload.length < uartPrefixStructSize := by
  show EscapesValueError (checkStructSize 4 (payload.take 4) >>= (fun _ =>
    if (payload.drop 4).length ≠ field 0 4 (payload.take 4) then .error .uartLengthMismatch
    else .ok (RecordFields.uartData (field 0 4 (payload.take 4)) (hex (payload.drop 4))))) ↔
      payload.length < 4
  rw [escapes_checkStructSize_bind, List.length_take]
  · exact ⟨fun h => by omega, fun h => by omega⟩
  · rintro ⟨e, herror, he⟩
    split_ifs at herror
    cases herror
    cases he

theorem escapes_unpack_iff {payload : List UInt8} {size : ℕ} {fields : RecordFields}
    {outcome : Except ParseError RecordFields}
    (h : outcome = (checkStructSize size payload >>= fun _ => .ok fields)) :
    EscapesValueError outcome ↔ payload.length ≠ size := by
  rw [h, escapes_checkStructSize_bind]
  exact not_escapes_ok fields

/-- The branches of `_decode_record` raise `struct.error` for a wrong size, and only then. -/
theorem escapes_decodeFields_iff (recordType : ℕ) (payload : List UInt8) :
    EscapesValueError (decodeFields recordType payload) ↔ SizeMismatch recordType payload := by
  by_cases h1 : recordType = 1
  · subst h1
    have hunpack : decodeFields 1 payload =
        (checkStructSize fourWordsSize payload >>= fun _ => .ok _) := rfl
    rw [escapes_unpack_iff hunpack]
    simp [SizeMismatch]
  by_cases h2 : recordType = 2
  · subst h2
    have hunpack : decodeFields 2 payload =
        (checkStructSize fourWordsSize payload >>= fun _ => .ok _) := rfl
    rw [escapes_unpack_iff hunpack]
    simp [SizeMismatch]
  by_cases h3 : recordType = 3
  · subst h3
    rw [escapes_decodeFields_uartData]
    simp [SizeMismatch]
  by_cases h4 : recordType = 4
  · subst h4
    have hunpack : decodeFields 4 payload =
        (checkStructSize syncEdgeStructSize payload >>= fun _ => .ok _) := rfl
    rw [escapes_unpack_iff hunpack]
    simp [SizeMismatch]
  · unfold decodeFields
    rw [if_neg h1, if_neg h2, if_neg h3, if_neg h4]
    exact iff_of_false (not_escapes_ok _) (by simp [SizeMismatch, h1, h2, h3, h4])

/-! ## One record -/

/-- A whole record with a matching checksum, and a payload that `struct` does not take. -/
structure Misfit (headerBytes payload : List UInt8) : Prop where
  length_header : headerBytes.length = headerStructSize
  length_payload : payload.length = (unpackHeader headerBytes).payloadLength
  crc : expectedCrc headerBytes payload = (unpackHeader headerBytes).crc32
  size : SizeMismatch (unpackHeader headerBytes).recordType payload

theorem escapes_map {α β : Type} (f : α → β) (outcome : Except ParseError α) :
    EscapesValueError (outcome.map f) ↔ EscapesValueError outcome := by
  unfold EscapesValueError
  cases outcome <;> simp [Except.map]

/-- The checksum is compared before the payload is unpacked. -/
theorem escapes_decodeChecked_iff (pos : ℕ) (headerBytes payload : List UInt8) :
    EscapesValueError (decodeChecked pos headerBytes payload) ↔
      expectedCrc headerBytes payload = (unpackHeader headerBytes).crc32 ∧
        SizeMismatch (unpackHeader headerBytes).recordType payload := by
  unfold decodeChecked decodeRecord
  by_cases hcrc : expectedCrc headerBytes payload = (unpackHeader headerBytes).crc32
  · rw [if_neg (not_not.mpr hcrc), escapes_map, escapes_decodeFields_iff]
    exact (and_iff_right hcrc).symm
  · rw [if_pos hcrc]
    refine iff_of_false ?_ fun h => hcrc h.1
    rintro ⟨e, herror, he⟩
    cases herror
    cases he

theorem escapes_read_iff (pos : ℕ) (xs : List UInt8) :
    EscapesValueError (logRecords.read pos xs) ↔
      ∃ headerBytes payload rest, xs = headerBytes ++ payload ++ rest ∧
        Misfit headerBytes payload := by
  constructor
  · rintro ⟨e, hread, he⟩
    rcases LengthPrefixed.cases_of_read_eq_error hread with rfl | rfl |
      ⟨headerBytes, payload, rest, rfl, hheader, hpayload, hdecode⟩
    · cases he
    · cases he
    · obtain ⟨hcrc, hsize⟩ := (escapes_decodeChecked_iff _ _ _).mp ⟨e, hdecode, he⟩
      exact ⟨headerBytes, payload, rest, rfl, hheader, hpayload, hcrc, hsize⟩
  · rintro ⟨headerBytes, payload, rest, rfl, h⟩
    rw [LengthPrefixed.read_append h.length_header h.length_payload, escapes_map]
    exact (escapes_decodeChecked_iff _ _ _).mpr ⟨h.crc, h.size⟩

/-! ## Logs -/

theorem escapes_parseBinaryLog_iff (data : List UInt8) :
    EscapesValueError (parseBinaryLog data) ↔
      ∃ (rs : List LogRecord) (headerBytes payload rest : List UInt8),
        data = logBytes rs ++ (headerBytes ++ payload ++ rest) ∧ Misfit headerBytes payload := by
  rw [parseBinaryLog_eq]
  constructor
  · rintro ⟨e, herror, he⟩
    obtain ⟨fs, bs, rest, rfl, hframes, -, hread⟩ := FrameReader.readAll_eq_error_iff.mp herror
    obtain ⟨rs, rfl, -⟩ := exists_of_areFrames hframes
    obtain ⟨headerBytes, payload, rest, rfl, hmisfit⟩ := (escapes_read_iff _ _).mp ⟨e, hread, he⟩
    exact ⟨rs, headerBytes, payload, rest, rfl, hmisfit⟩
  · rintro ⟨rs, headerBytes, payload, rest, rfl, hmisfit⟩
    obtain ⟨e, hread, he⟩ := (escapes_read_iff (0 + (logBytes rs).length) _).mpr
      ⟨headerBytes, payload, rest, rfl, hmisfit⟩
    have hne : headerBytes ++ payload ++ rest ≠ [] := by
      intro hnil
      have hheader := hmisfit.length_header
      simp only [List.append_eq_nil_iff] at hnil
      rw [hnil.1.1] at hheader
      exact absurd hheader (by decide)
    exact ⟨e, FrameReader.readAll_flatten_append_of_error (areFrames_map rs) 0 hne hread, he⟩

/-- **Exceptions.** The parser returns or raises `ValueError`, unless the data has behind some
records one with a matching checksum whose payload has not the size that its type asks for. -/
theorem value_error_iff (data : List UInt8) :
    (∀ e, parseBinaryLog data = .error e → e.isValueError = true) ↔
      ¬ ∃ (rs : List LogRecord) (headerBytes payload rest : List UInt8),
        data = logBytes rs ++ (headerBytes ++ payload ++ rest) ∧ Misfit headerBytes payload := by
  rw [← escapes_parseBinaryLog_iff]
  unfold EscapesValueError
  simp

/-- The header of a session start without a payload, with its checksum. -/
def emptySessionStart : List UInt8 :=
  [1, 0, 1, 0, 0, 0, 0, 0, 0, 0, 0, 0, 0, 0, 0, 0, 0, 0, 0, 0, 42, 22, 224, 133]

theorem misfit_emptySessionStart : Misfit emptySessionStart [] where
  length_header := by decide
  length_payload := by decide
  crc := by decide +kernel
  size := .inl ⟨.inl (by decide), by decide⟩

/-- A log of that header raises `struct.error`. -/
theorem not_valueError_emptySessionStart :
    ¬ ∀ e, parseBinaryLog emptySessionStart = .error e → e.isValueError = true := by
  intro hall
  obtain ⟨e, herror, he⟩ := (escapes_parseBinaryLog_iff emptySessionStart).mpr
    ⟨[], emptySessionStart, [], [], rfl, misfit_emptySessionStart⟩
  exact Bool.false_ne_true (he.symm.trans (hall e herror))

end EmbeddedInsDaq
