import EmbeddedInsDaq.Lib.Json
import EmbeddedInsDaq.Tools.LogIntegrity

/-!
# What the parser prints

`main` prints the records of a log as JSON, with the keys of each in order. No string among them
needs an escape, so the text is read back in one way only: two logs that print the same are the
same, byte for byte (`printed_log_injective`).
-/

namespace EmbeddedInsDaq

/-! ## The text -/

/-- The entries that a record's type adds. -/
def RecordFields.items : RecordFields → List (String × Json)
  | .sessionStart sessionId configHash enabledPortMask enabledPortCount =>
    [("session_id", .int sessionId), ("config_hash", .int configHash),
      ("enabled_port_mask", .int enabledPortMask), ("enabled_port_count", .int enabledPortCount)]
  | .faultEvent faultCode faultSeverity healthStatus =>
    [("fault_code", .int faultCode), ("fault_severity", .int faultSeverity),
      ("health_status", .int healthStatus)]
  | .uartData dataLength dataHex =>
    [("data_length", .int dataLength), ("data_hex", .str dataHex.toList)]
  | .syncEdge edgePolarity => [("edge_polarity", .int edgePolarity)]
  | .unknown payloadHex => [("payload_hex", .str payloadHex.toList)]

/-- The entries that every record has. -/
def RecordDict.commonItems (d : RecordDict) : List (String × Json) :=
  [("type", .str d.type.toList), ("version", .int d.version),
    ("payload_length", .int d.payloadLength), ("timestamp_us", .int d.timestampUs),
    ("source_id", .int d.sourceId), ("crc32", .int d.crc32)]

/-- The entries of a dict, in the order in which they were made. -/
def RecordDict.items (d : RecordDict) : List (String × Json) := d.commonItems ++ d.fields.items

/-- `sort_keys`. -/
def sortKeys (items : List (String × Json)) : List (List Char × Json) :=
  (items.mergeSort fun a b => a.1 ≤ b.1).map fun (key, value) => (key.toList, value)

/-- The dict of a record as it is printed. -/
def RecordDict.json (d : RecordDict) : Json := .obj (sortKeys d.items)

/-- `json.dumps(records, indent=2, sort_keys=True)`. -/
def dumpRecords (records : List RecordDict) : List Char :=
  Json.dumps 0 (.arr (records.map RecordDict.json))

/-- `main`, on the arguments and the files: the exit code and the standard output. The usage goes
to the standard error. -/
def parseMain (argv : List String) (readBytes : String → List UInt8) :
    Except ParseError (ℤ × List Char) :=
  match argv with
  | [_, path] =>
    (parseBinaryLog (readBytes path)).map fun records => (0, dumpRecords records ++ ['\n'])
  | _ => .ok (2, [])

/-! ## No escapes -/

theorem plainEntries_iff {entries : List (List Char × Json)} : Json.PlainEntries entries ↔
    ∀ e ∈ entries, Json.PlainText e.1 ∧ Json.Plain e.2 := by
  induction entries with
  | nil => simp [Json.PlainEntries]
  | cons e entries ih =>
    obtain ⟨k, v⟩ := e
    rw [List.forall_mem_cons, ← ih, and_assoc]
    rfl

theorem plainValues_iff {values : List Json} :
    Json.PlainValues values ↔ ∀ v ∈ values, Json.Plain v := by
  induction values with
  | nil => simp [Json.PlainValues]
  | cons v values ih =>
    rw [List.forall_mem_cons, ← ih]
    rfl

theorem mem_sortKeys {items : List (String × Json)} {e : List Char × Json} :
    e ∈ sortKeys items ↔ ∃ item ∈ items, (item.1.toList, item.2) = e := by
  simp [sortKeys, List.mem_mergeSort]

theorem plainText_hex (bytes : List UInt8) : Json.PlainText (hex bytes).toList := by
  have hdigit : ∀ n : ℕ, n < 16 → Json.PlainChar n.digitChar := by decide
  intro c hc
  rw [hex, String.toList_ofList, List.mem_flatMap] at hc
  obtain ⟨b, -, hc⟩ := hc
  have hb := b.toNat_lt
  rcases List.mem_pair.mp hc with rfl | rfl
  · exact hdigit _ (by omega)
  · exact hdigit _ (by omega)

theorem plainText_recordTypeName (t : ℕ) : Json.PlainText (recordTypeName t).toList := by
  have hknown : ∀ p ∈ recordTypes, Json.PlainText p.2.toList := by decide
  have hunknown : Json.PlainText "unknown_".toList := by decide
  rcases recordTypeName_cases t with h | h
  · exact hknown (t, recordTypeName t) h
  · rw [h, String.toList_append]
    intro c hc
    rcases List.mem_append.mp hc with hc | hc
    · exact hunknown c hc
    · exact Json.plainChar_of_isDigit (Json.isDigit_of_mem_toString hc)

theorem RecordFields.plainText_key (fields : RecordFields) :
    ∀ key ∈ fields.items.map Prod.fst, Json.PlainText key.toList := by
  cases fields <;> simp only [items, List.map] <;> decide

theorem RecordDict.plainText_key (d : RecordDict) :
    ∀ key ∈ d.commonItems.map Prod.fst, Json.PlainText key.toList := by
  simp only [commonItems, List.map]
  decide

theorem plain_payloadFields (t : ℕ) (payload : List UInt8) :
    ∀ value ∈ (payloadFields t payload).items.map Prod.snd, Json.Plain value := by
  have hint : ∀ n, Json.Plain (.int n) := fun _ => trivial
  have hhex : ∀ bytes, Json.Plain (.str (hex bytes).toList) := plainText_hex
  unfold payloadFields
  split_ifs <;> simp [RecordFields.items, hint, hhex]

theorem plain_commonItems (r : LogRecord) :
    ∀ value ∈ r.dict.commonItems.map Prod.snd, Json.Plain value := by
  have hint : ∀ n, Json.Plain (.int n) := fun _ => trivial
  have hname : Json.Plain (.str r.dict.type.toList) := plainText_recordTypeName _
  simp [RecordDict.commonItems, hint, hname]

theorem plain_json (r : LogRecord) : Json.Plain r.dict.json := by
  apply plainEntries_iff.mpr
  intro e he
  obtain ⟨item, hitem, rfl⟩ := mem_sortKeys.mp he
  rcases List.mem_append.mp hitem with hitem | hitem
  · exact ⟨r.dict.plainText_key _ (List.mem_map_of_mem hitem),
      plain_commonItems r _ (List.mem_map_of_mem hitem)⟩
  · exact ⟨r.dict.fields.plainText_key _ (List.mem_map_of_mem hitem),
      plain_payloadFields _ _ _ (List.mem_map_of_mem hitem)⟩

/-! ## Nothing is lost -/

theorem perm_of_sortKeys {items items' : List (String × Json)}
    (h : sortKeys items = sortKeys items') : items.Perm items' := by
  have hinjective : Function.Injective fun e : String × Json => (e.1.toList, e.2) := by
    rintro ⟨k, v⟩ ⟨k', v'⟩ h
    obtain ⟨hk, hv⟩ := Prod.mk.inj h
    exact Prod.ext (String.toList_inj.mp hk) hv
  have hsorted := hinjective.list_map h
  exact (List.mergeSort_perm items _).symm.trans (hsorted ▸ List.mergeSort_perm items' _)

/-- No key that every dict has is added by its type. -/
theorem disjoint_items (d : RecordDict) (fields : RecordFields) :
    d.commonItems.Disjoint fields.items := by
  have hkeys : ∀ key ∈ d.commonItems.map Prod.fst, key ∉ fields.items.map Prod.fst := by
    cases fields <;> simp only [RecordFields.items, RecordDict.commonItems, List.map] <;> decide
  exact fun item hitem hfield =>
    hkeys item.1 (List.mem_map_of_mem hitem) (List.mem_map_of_mem hfield)

theorem RecordFields.eq_of_items {fields fields' : RecordFields}
    (h : fields.items ⊆ fields'.items) : fields = fields' := by
  cases fields <;> cases fields' <;> simp [RecordFields.items, String.toList_inj] at h ⊢ <;>
    exact h

theorem RecordDict.json_injective : Function.Injective RecordDict.json := by
  intro d d' h
  have hperm : d.items.Perm d'.items := perm_of_sortKeys (Json.obj.inj h)
  have hcommon : ∀ item ∈ d.commonItems, item ∈ d'.commonItems := fun item hitem =>
    (List.mem_append.mp (hperm.subset (List.mem_append_left _ hitem))).resolve_right
      (disjoint_items d d'.fields hitem)
  have hfields : d.fields = d'.fields := RecordFields.eq_of_items fun item hitem =>
    (List.mem_append.mp (hperm.subset (List.mem_append_right _ hitem))).resolve_left
      fun hmem => disjoint_items d' d.fields hmem hitem
  obtain ⟨type, version, payloadLength, timestampUs, sourceId, crc32, fields⟩ := d
  obtain ⟨type', version', payloadLength', timestampUs', sourceId', crc32', fields'⟩ := d'
  obtain rfl : fields = fields' := hfields
  simp only [RecordDict.commonItems, List.forall_mem_cons] at hcommon
  obtain ⟨htype, hversion, hlength, htimestamp, hsource, hcrc, -⟩ := hcommon
  simp [String.toList_inj] at htype hversion hlength htimestamp hsource hcrc
  rw [htype, hversion, hlength, htimestamp, hsource, hcrc]

theorem dumpRecords_injective {rs rs' : List LogRecord}
    (h : dumpRecords (rs.map LogRecord.dict) = dumpRecords (rs'.map LogRecord.dict)) : rs = rs' := by
  have hplain : ∀ rs : List LogRecord,
      Json.Plain (.arr ((rs.map LogRecord.dict).map RecordDict.json)) := by
    intro rs
    apply plainValues_iff.mpr
    simp only [List.mem_map]
    rintro _ ⟨_, ⟨r, -, rfl⟩, rfl⟩
    exact plain_json r
  have hvalues := Json.arr.inj (Json.dumps_injective (hplain rs) (hplain rs') h)
  exact LogRecord.dict_injective.list_map (RecordDict.json_injective.list_map hvalues)

theorem exists_of_parseMain {program path : String} {readBytes : String → List UInt8}
    {out : List Char} (h : parseMain [program, path] readBytes = .ok (0, out)) :
    ∃ rs : List LogRecord, readBytes path = logBytes rs ∧
      out = dumpRecords (rs.map LogRecord.dict) ++ ['\n'] := by
  dsimp only [parseMain] at h
  cases hparse : parseBinaryLog (readBytes path) with
  | error err => rw [hparse] at h; cases h
  | ok records =>
    rw [hparse] at h
    obtain ⟨rs, hdata, rfl⟩ := parseBinaryLog_eq_ok_iff.mp hparse
    cases h
    exact ⟨rs, hdata, rfl⟩

/-- **Injectivity.** Logs that are printed alike are the same, byte for byte. -/
theorem printed_log_injective {program program' path path' : String}
    {readBytes readBytes' : String → List UInt8} {out : List Char}
    (h : parseMain [program, path] readBytes = .ok (0, out))
    (h' : parseMain [program', path'] readBytes' = .ok (0, out)) :
    readBytes path = readBytes' path' := by
  obtain ⟨rs, hdata, rfl⟩ := exists_of_parseMain h
  obtain ⟨rs', hdata', hout⟩ := exists_of_parseMain h'
  rw [hdata, hdata', dumpRecords_injective (List.append_cancel_right hout)]

/-- Nothing else prints the unknown record. -/
theorem printed_log_injective_unknown : ∃ out,
    parseMain ["parse_binary_log.py", "log"] (fun _ => logBytes [unknownRecord]) = .ok (0, out) ∧
      ∀ data, parseMain ["parse_binary_log.py", "log"] (fun _ => data) = .ok (0, out) →
        data = logBytes [unknownRecord] := by
  have hprint : parseMain ["parse_binary_log.py", "log"] (fun _ => logBytes [unknownRecord]) =
      .ok (0, dumpRecords [unknownRecord.dict] ++ ['\n']) := by
    rw [parseMain, parseBinaryLog_logBytes]
    rfl
  exact ⟨_, hprint, fun data h => printed_log_injective h hprint⟩

end EmbeddedInsDaq
