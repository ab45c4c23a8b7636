import EmbeddedInsDaq.Lib.Folds
import EmbeddedInsDaq.Logging.BuilderCalls

/-!
# What the config hash sees

`record_builder_config_hash` folds the fields of a config, word by word, with a step that is
injective both in the hash so far and in the word. So an edit of one field always changes the hash,
and with it the `config_hash` of a session start (`record_builder_config_hash_edit`).
-/

namespace EmbeddedInsDaq

open Bytes Folds

/-! ## One step -/

/-- `kFnvPrime` is odd, so it can be divided by again. -/
theorem mul_kFnvPrime_injective : Function.Injective fun x : UInt32 => x * kFnvPrime := by
  have hinverse : kFnvPrime * 899433627 = 1 := by decide
  intro x y h
  have hdivide := congrArg (· * (899433627 : UInt32)) h
  simpa only [UInt32.mul_assoc, hinverse, UInt32.mul_one] using hdivide

theorem fnv1aMix_injective_left (value : UInt32) :
    Function.Injective fun hash => fnv1aMix hash value :=
  fun _ _ h => (UInt32.xor_left_inj _).mp (mul_kFnvPrime_injective h)

theorem fnv1aMix_injective_right (hash : UInt32) : Function.Injective (fnv1aMix hash) :=
  fun _ _ h => (UInt32.xor_right_inj _).mp (mul_kFnvPrime_injective h)

/-! ## The words of a config -/

/-- The words that the loop body mixes in, in its order. -/
def RuntimePortConfig.words (port : RuntimePortConfig) : List UInt32 :=
  [if port.enabled then 1 else 0, port.baudRate.toUInt32, port.timingMode, port.syncEdgeMode,
    port.triggerPeriodUs, port.triggerPulseWidthUs]

theorem recordBuilderConfigHash_eq (config : RuntimeConfig) :
    recordBuilderConfigHash (some config) =
      (config.ports.toList.flatMap RuntimePortConfig.words).foldl fnv1aMix
        (fnv1aMix kFnvOffsetBasis (UInt32.ofNat boardPortCount)) := by
  have hbody : configHashPort = fun hash port => port.words.foldl fnv1aMix hash := by
    funext hash port
    rfl
  rw [List.foldl_flatMap, ← hbody]
  rfl

/-! ## Edits -/

/-- Two settings of a port that differ in one field. -/
inductive RuntimePortConfig.DiffersInOneField (port : RuntimePortConfig) : RuntimePortConfig → Prop
  | enabled {v : Bool} (h : port.enabled ≠ v) : DiffersInOneField port { port with enabled := v }
  | baudRate {v : Int32} (h : port.baudRate ≠ v) :
    DiffersInOneField port { port with baudRate := v }
  | timingMode {v : PortTimingMode} (h : port.timingMode ≠ v) :
    DiffersInOneField port { port with timingMode := v }
  | syncEdgeMode {v : SyncEdgeMode} (h : port.syncEdgeMode ≠ v) :
    DiffersInOneField port { port with syncEdgeMode := v }
  | triggerPeriodUs {v : UInt32} (h : port.triggerPeriodUs ≠ v) :
    DiffersInOneField port { port with triggerPeriodUs := v }
  | triggerPulseWidthUs {v : UInt32} (h : port.triggerPulseWidthUs ≠ v) :
    DiffersInOneField port { port with triggerPulseWidthUs := v }

/-- Two configs that differ in one field of one port. -/
def RuntimeConfig.DiffersInOneField (config config' : RuntimeConfig) : Prop :=
  ∃ (i : Fin boardPortCount) (port' : RuntimePortConfig),
    (config.port i).DiffersInOneField port' ∧ config'.ports = config.ports.set i port' i.isLt

/-- Two lists that differ in one entry. -/
def DiffersInOneWord (ws ws' : List UInt32) : Prop :=
  ∃ front w w' back, w ≠ w' ∧ ws = front ++ w :: back ∧ ws' = front ++ w' :: back

theorem DiffersInOneWord.append {ws ws' : List UInt32} (h : DiffersInOneWord ws ws')
    (before behind : List UInt32) :
    DiffersInOneWord (before ++ (ws ++ behind)) (before ++ (ws' ++ behind)) := by
  obtain ⟨front, w, w', back, hne, rfl, rfl⟩ := h
  refine ⟨before ++ front, w, w', back ++ behind, hne, ?_, ?_⟩ <;> simp

theorem enabled_word_injective :
    Function.Injective fun v : Bool => if v then (1 : UInt32) else 0 := by
  intro v v' h
  cases v <;> cases v' <;> first | rfl | cases h

theorem toUInt32_injective : Function.Injective Int32.toUInt32 :=
  fun _ _ h => Int32.toBitVec_inj.mp (congrArg UInt32.toBitVec h)

theorem RuntimePortConfig.DiffersInOneField.words {port port' : RuntimePortConfig}
    (h : port.DiffersInOneField port') : DiffersInOneWord port.words port'.words := by
  cases h with
  | enabled h => exact ⟨[], _, _, _, enabled_word_injective.ne h, rfl, rfl⟩
  | baudRate h => exact ⟨[_], _, _, _, toUInt32_injective.ne h, rfl, rfl⟩
  | timingMode h => exact ⟨[_, _], _, _, _, h, rfl, rfl⟩
  | syncEdgeMode h => exact ⟨[_, _, _], _, _, _, h, rfl, rfl⟩
  | triggerPeriodUs h => exact ⟨[_, _, _, _], _, _, _, h, rfl, rfl⟩
  | triggerPulseWidthUs h => exact ⟨[_, _, _, _, _], _, _, _, h, rfl, rfl⟩

theorem RuntimeConfig.DiffersInOneField.words {config config' : RuntimeConfig}
    (h : config.DiffersInOneField config') :
    DiffersInOneWord (config.ports.toList.flatMap RuntimePortConfig.words)
      (config'.ports.toList.flatMap RuntimePortConfig.words) := by
  obtain ⟨i, port', hport, hports⟩ := h
  have hlt : i.val < config.ports.toList.length := by simp
  have hsplit' : config'.ports.toList =
      config.ports.toList.take i ++ port' :: config.ports.toList.drop (i + 1) := by
    rw [hports, Vector.toList_set, List.set_eq_take_append_cons_drop, if_pos hlt]
  rw [config.ports_split i, hsplit', List.flatMap_append, List.flatMap_append, List.flatMap_cons,
    List.flatMap_cons]
  exact hport.words.append _ _

/-- **Edits.** Configs that differ in one field have different hashes. -/
theorem recordBuilderConfigHash_ne {config config' : RuntimeConfig}
    (h : config.DiffersInOneField config') :
    recordBuilderConfigHash (some config) ≠ recordBuilderConfigHash (some config') := by
  obtain ⟨front, w, w', back, hne, hwords, hwords'⟩ := h.words
  rw [recordBuilderConfigHash_eq, recordBuilderConfigHash_eq, hwords, hwords']
  exact foldl_append_cons_ne fnv1aMix_injective_left fnv1aMix_injective_right hne _ _ _

/-! ## The stored hash -/

/-- The `config_hash` of a session start in memory: behind the header and the `session_id`. -/
def storedConfigHash (image : List UInt8) : ℕ := field (BinaryRecordHeader.size + 4) 4 image

theorem storedConfigHash_image (session : SessionInfo) (config : RuntimeConfig) :
    storedConfigHash (sessionStartRecord session config).image =
      (recordBuilderConfigHash (some config)).toNat := by
  have hhash := (recordBuilderConfigHash (some config)).toNat_lt
  have hheader := (sessionStartRecord session config).header.length_bytes
  unfold storedConfigHash StoredRecord.image
  rw [field_append_right (by omega), hheader, Nat.add_sub_cancel_left]
  unfold sessionStartRecord SessionStartRecordPayload.bytes
  simp [List.append_assoc, field_append_right, field_leBytes_append, hhash]

theorem storedConfigHash_of_encodes {p : Platform} {session : SessionInfo} {config : RuntimeConfig}
    {image : List UInt8}
    (h : (BuilderCall.sessionStart (some session) (some config) : BuilderCall p).Encodes image) :
    storedConfigHash image = (recordBuilderConfigHash (some config)).toNat := by
  obtain ⟨-, r, hr, rfl⟩ := BuilderCall.encodes_iff.mp h
  cases hr
  exact storedConfigHash_image session config

/-- **Config hash.** Configs that differ in one field of one port have different hashes, and so
have the session starts that are stored with them. -/
theorem record_builder_config_hash_edit {config config' : RuntimeConfig}
    (h : config.DiffersInOneField config') :
    recordBuilderConfigHash (some config) ≠ recordBuilderConfigHash (some config') ∧
      ∀ (p : Platform) (session session' : SessionInfo) (image image' : List UInt8),
        (BuilderCall.sessionStart (some session) (some config) : BuilderCall p).Encodes image →
        (BuilderCall.sessionStart (some session') (some config') : BuilderCall p).Encodes image' →
        storedConfigHash image ≠ storedConfigHash image' := by
  have hne := recordBuilderConfigHash_ne h
  refine ⟨hne, ?_⟩
  intro p session session' image image' himage himage'
  rw [storedConfigHash_of_encodes himage, storedConfigHash_of_encodes himage']
  exact mt UInt32.toNat_inj.mp hne

/-- The default config, with a pulse width for its last port, which is not enabled. -/
def defaultWithPulse : RuntimeConfig where
  ports := RuntimeConfig.default.ports.set 3
    { RuntimePortConfig.zero with triggerPulseWidthUs := 1 }

/-- The session starts of the default config and of this one. -/
theorem record_builder_config_hash_edit_pulse :
    storedConfigHash (sessionStartRecord ⟨1, 7⟩ RuntimeConfig.default).image ≠
      storedConfigHash (sessionStartRecord ⟨1, 7⟩ defaultWithPulse).image := by
  have hdiffer : RuntimeConfig.default.DiffersInOneField defaultWithPulse :=
    ⟨⟨3, by decide⟩, _, .triggerPulseWidthUs (by decide), rfl⟩
  have hencodes (config : RuntimeConfig) :
      (BuilderCall.sessionStart (some ⟨1, 7⟩) (some config) : BuilderCall .target).Encodes
        (sessionStartRecord ⟨1, 7⟩ config).image :=
    BuilderCall.encodes_iff.mpr ⟨Nat.zero_le 255, _, rfl, rfl⟩
  exact (record_builder_config_hash_edit hdiffer).2 .target _ _ _ _ (hencodes _) (hencodes _)

end EmbeddedInsDaq
