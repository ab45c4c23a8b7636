import EmbeddedInsDaq.Tools.LogGrammar

/-!
# Logs that are cut or joined

A log that was cut anywhere is never misread. `parse_binary_log_cut` says what the parser makes of
every prefix of a log it accepts: behind a record it returns the records so far, and inside of one
it reports the start of that record, as a truncated header or a truncated payload. Two accepted
logs behind one another are read as the records of both.
-/

namespace EmbeddedInsDaq

open Bytes

/-- The offset behind the first `m` records, where the next one begins. -/
def recordEnd (rs : List LogRecord) (m : ℕ) : ℕ := (logBytes (rs.take m)).length

/-- What is reported for a record that begins at `start` and of which `rest` bytes are left. -/
def cutError (start rest : ℕ) : ParseError :=
  if rest < headerStructSize then .truncatedHeader start else .truncatedPayload start

theorem parseBinaryLog_logBytes (rs : List LogRecord) :
    parseBinaryLog (logBytes rs) = .ok (rs.map LogRecord.dict) :=
  parseBinaryLog_eq_ok_iff.mpr ⟨rs, rfl, rfl⟩

theorem logBytes_append (rs rs' : List LogRecord) :
    logBytes (rs ++ rs') = logBytes rs ++ logBytes rs' := by
  unfold logBytes
  rw [List.map_append, List.flatten_append]

theorem logBytes_take (rs : List LogRecord) (m : ℕ) :
    logBytes (rs.take m) = ((rs.map LogRecord.bytes).take m).flatten := by
  unfold logBytes
  rw [List.map_take]

theorem take_recordEnd (rs : List LogRecord) (m : ℕ) :
    (logBytes rs).take (recordEnd rs m) = logBytes (rs.take m) := by
  have hsplit : logBytes rs = logBytes (rs.take m) ++ logBytes (rs.drop m) := by
    rw [← logBytes_append, List.take_append_drop]
  rw [hsplit]
  exact List.take_left

theorem logBytes_split {rs : List LogRecord} {m : ℕ} {r : LogRecord} (h : rs[m]? = some r) :
    logBytes rs = logBytes (rs.take m) ++ (r.bytes ++ logBytes (rs.drop (m + 1))) := by
  obtain ⟨hlt, hget⟩ := List.getElem?_eq_some_iff.mp h
  have hsplit : rs.take m ++ r :: rs.drop (m + 1) = rs := by
    rw [← hget, List.getElem_cons_drop, List.take_append_drop]
  conv_lhs => rw [← hsplit, logBytes_append]
  rfl

theorem recordEnd_succ {rs : List LogRecord} {m : ℕ} {r : LogRecord} (h : rs[m]? = some r) :
    recordEnd rs (m + 1) = recordEnd rs m + r.bytes.length := by
  unfold recordEnd
  rw [List.take_add_one, h, logBytes_append, List.length_append]
  congr 2
  exact List.append_nil _

theorem parseBinaryLog_append_take (rs : List LogRecord) (r : LogRecord) {k : ℕ} (hpos : 0 < k)
    (hk : k < r.bytes.length) :
    parseBinaryLog (logBytes rs ++ r.bytes.take k) = .error (cutError (logBytes rs).length k) := by
  have hne : r.bytes.take k ≠ [] := by
    intro hnil
    have hlength := congrArg List.length hnil
    rw [List.length_take, List.length_nil] at hlength
    omega
  have hread := LengthPrefixed.read_take r.isFrame (0 + (logBytes rs).length) hk
  rw [parseBinaryLog_eq]
  have herror := FrameReader.readAll_flatten_append_of_error (areFrames_map rs) 0 hne hread
  rw [Nat.zero_add] at herror
  exact herror

theorem parseBinaryLog_take {rs : List LogRecord} {k : ℕ} (hk : k ≤ (logBytes rs).length)
    (hcut : ∀ m ≤ rs.length, k ≠ recordEnd rs m) :
    ∃ m < rs.length, recordEnd rs m < k ∧ k < recordEnd rs (m + 1) ∧
      parseBinaryLog ((logBytes rs).take k) =
        .error (cutError (recordEnd rs m) (k - recordEnd rs m)) := by
  rcases List.take_flatten_cases (rs.map LogRecord.bytes) hk with ⟨m, hm, hkm⟩ |
    ⟨m, f, hf, hlo, hhi, htake⟩
  · rw [List.length_map] at hm
    rw [← logBytes_take] at hkm
    exact absurd hkm (hcut m hm)
  · rw [List.getElem?_map, Option.map_eq_some_iff] at hf
    obtain ⟨r, hr, rfl⟩ := hf
    rw [← logBytes_take] at hlo hhi htake
    refine ⟨m, (List.getElem?_eq_some_iff.mp hr).1, hlo, ?_, ?_⟩
    · rw [recordEnd_succ hr]
      exact hhi
    · have herror := parseBinaryLog_append_take (rs.take m) r (Nat.sub_pos_of_lt hlo)
        (Nat.sub_lt_left_of_lt_add hlo.le hhi)
      rw [← htake] at herror
      exact herror

theorem parseBinaryLog_append {data data' : List UInt8} {ds ds' : List RecordDict}
    (h : parseBinaryLog data = .ok ds) (h' : parseBinaryLog data' = .ok ds') :
    parseBinaryLog (data ++ data') = .ok (ds ++ ds') := by
  obtain ⟨rs, rfl, rfl⟩ := parseBinaryLog_eq_ok_iff.mp h
  obtain ⟨rs', rfl, rfl⟩ := parseBinaryLog_eq_ok_iff.mp h'
  rw [← logBytes_append, ← List.map_append]
  exact parseBinaryLog_logBytes _

/-- **Cuts.** An accepted log that is cut behind its first `m` records gives these records; cut
anywhere else it gives the error of the record that was cut. With another accepted log behind it,
it gives the records of both. -/
theorem parse_binary_log_cut {data : List UInt8} {ds : List RecordDict}
    (h : parseBinaryLog data = .ok ds) :
    ∃ rs : List LogRecord, data = logBytes rs ∧ ds = rs.map LogRecord.dict ∧
      (∀ m ≤ rs.length, parseBinaryLog (data.take (recordEnd rs m)) = .ok (ds.take m)) ∧
      (∀ k ≤ data.length, (∀ m ≤ rs.length, k ≠ recordEnd rs m) →
        ∃ m < rs.length, recordEnd rs m < k ∧ k < recordEnd rs (m + 1) ∧
          parseBinaryLog (data.take k) =
            .error (cutError (recordEnd rs m) (k - recordEnd rs m))) ∧
      ∀ data' ds', parseBinaryLog data' = .ok ds' →
        parseBinaryLog (data ++ data') = .ok (ds ++ ds') := by
  obtain ⟨rs, rfl, rfl⟩ := parseBinaryLog_eq_ok_iff.mp h
  refine ⟨rs, rfl, rfl, ?_, ?_, ?_⟩
  · intro m _
    rw [take_recordEnd, ← List.map_take]
    exact parseBinaryLog_logBytes _
  · intro k hk hcut
    exact parseBinaryLog_take hk hcut
  · intro data' ds' h'
    exact parseBinaryLog_append h h'

/-- A record of a type the parser does not know. -/
def unknownRecord : LogRecord where
  recordType := 5
  version := 1
  timestampUs := 7
  sourceId := 0
  payload := [0xab]
  payload_lt := by decide
  shape := trivial

/-- Two logs of one such record each: the second is behind the first, and is cut in its header. -/
theorem parse_binary_log_cut_unknown :
    parseBinaryLog (logBytes [unknownRecord] ++ logBytes [unknownRecord]) =
        .ok [unknownRecord.dict, unknownRecord.dict] ∧
      parseBinaryLog ((logBytes [unknownRecord, unknownRecord]).take 30) =
        .error (.truncatedHeader 25) := by
  have hone := parseBinaryLog_logBytes [unknownRecord]
  obtain ⟨-, -, -, -, -, happend⟩ := parse_binary_log_cut hone
  obtain ⟨rs, hbytes, -, -, hcuts, -⟩ :=
    parse_binary_log_cut (parseBinaryLog_logBytes [unknownRecord, unknownRecord])
  obtain rfl := logBytes_injective hbytes
  obtain ⟨m, hm, hlo, hhi, herror⟩ := hcuts 30 (by decide) (by decide)
  refine ⟨happend _ _ hone, ?_⟩
  match m, hm with
  | 0, _ => exact absurd hhi (by decide)
  | 1, _ => exact herror

end EmbeddedInsDaq
