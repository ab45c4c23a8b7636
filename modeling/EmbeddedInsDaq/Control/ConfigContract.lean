import EmbeddedInsDaq.Control.RuntimeConfig
import Mathlib.Order.Fin.Basic
import Mathlib.Order.WellFounded

/-!
# The runtime session contract

What `runtime_config_validate` decides, said without its loop: which configs are accepted
(`RuntimeConfig.Accepted`), and which error is reported of the others, the first one of the first
port at fault (`RuntimeConfig.Defect`). `runtime_config_validate_exact` connects the two.
-/

namespace EmbeddedInsDaq

/-! ## One port -/

/-- A timing mode that `port_timing_mode_t` declares. -/
def PortTimingMode.Declared (mode : PortTimingMode) : Prop :=
  mode = .none ∨ mode = .sync ∨ mode = .trigger

instance : DecidablePred PortTimingMode.Declared := fun _ =>
  inferInstanceAs (Decidable (_ ∨ _ ∨ _))

/-- A sync edge mode that `sync_edge_mode_t` declares. -/
def SyncEdgeMode.Declared (mode : SyncEdgeMode) : Prop :=
  mode = .rising ∨ mode = .falling ∨ mode = .change

instance : DecidablePred SyncEdgeMode.Declared := fun _ =>
  inferInstanceAs (Decidable (_ ∨ _ ∨ _))

namespace RuntimePortConfig

variable (port : RuntimePortConfig)

/-- In trigger mode, the pulse is there and shorter than its period. -/
def TriggerFits : Prop :=
  port.timingMode = .trigger →
    0 < port.triggerPulseWidthUs ∧ port.triggerPulseWidthUs < port.triggerPeriodUs

instance : DecidablePred TriggerFits := fun _ => inferInstanceAs (Decidable (_ → _ ∧ _))

/-- What is asked of an enabled port. -/
structure WellFormed : Prop where
  baudRate : 0 < port.baudRate
  timingMode : PortTimingMode.Declared port.timingMode
  syncEdgeMode : SyncEdgeMode.Declared port.syncEdgeMode
  trigger : port.TriggerFits

/-- The first thing that is asked and not met. -/
inductive FirstDefect : RuntimeConfigError → Prop
  | baudRate (h : ¬ 0 < port.baudRate) : FirstDefect .baudRateInvalid
  | timingMode (hbaud : 0 < port.baudRate) (h : ¬ PortTimingMode.Declared port.timingMode) :
    FirstDefect .timingModeInvalid
  | syncEdgeMode (hbaud : 0 < port.baudRate) (htiming : PortTimingMode.Declared port.timingMode)
    (h : ¬ SyncEdgeMode.Declared port.syncEdgeMode) : FirstDefect .syncEdgeModeInvalid
  | trigger (hbaud : 0 < port.baudRate) (htiming : PortTimingMode.Declared port.timingMode)
    (hsync : SyncEdgeMode.Declared port.syncEdgeMode) (h : ¬ port.TriggerFits) :
    FirstDefect .triggerPulseWidthInvalid

theorem exists_firstDefect {port : RuntimePortConfig} (h : ¬ port.WellFormed) :
    ∃ e, port.FirstDefect e := by
  by_cases hbaud : 0 < port.baudRate
  · by_cases htiming : PortTimingMode.Declared port.timingMode
    · by_cases hsync : SyncEdgeMode.Declared port.syncEdgeMode
      · by_cases htrigger : port.TriggerFits
        · exact absurd ⟨hbaud, htiming, hsync, htrigger⟩ h
        · exact ⟨_, .trigger hbaud htiming hsync htrigger⟩
      · exact ⟨_, .syncEdgeMode hbaud htiming hsync⟩
    · exact ⟨_, .timingMode hbaud htiming⟩
  · exact ⟨_, .baudRate hbaud⟩

theorem FirstDefect.ne_none {port : RuntimePortConfig} {e : RuntimeConfigError}
    (h : port.FirstDefect e) : e ≠ .none := by
  cases h <;> exact nofun

end RuntimePortConfig

/-! ## A config -/

namespace RuntimeConfig

/-- Some port is enabled, and the enabled ones are as asked. -/
def Accepted (config : RuntimeConfig) : Prop :=
  (∃ i : Fin boardPortCount, (config.port i).enabled) ∧
    ∀ i : Fin boardPortCount, (config.port i).enabled → (config.port i).WellFormed

/-- The error of a config: the first defect of the first enabled port that has one, or that no port
is enabled. -/
inductive Defect (config : RuntimeConfig) : RuntimeConfigError → Prop
  | port {e : RuntimeConfigError} (i : Fin boardPortCount) (henabled : (config.port i).enabled)
    (hbefore : ∀ j < i, (config.port j).enabled → (config.port j).WellFormed)
    (h : (config.port i).FirstDefect e) : Defect config e
  | noEnabledPorts (h : ∀ i : Fin boardPortCount, ¬ (config.port i).enabled) :
    Defect config .noEnabledPorts

theorem Defect.ne_none {config : RuntimeConfig} {e : RuntimeConfigError} (h : config.Defect e) :
    e ≠ .none := by
  cases h with
  | port i _ _ hfirst => exact hfirst.ne_none
  | noEnabledPorts => exact nofun

theorem accepted_or_defect (config : RuntimeConfig) : config.Accepted ∨ ∃ e, config.Defect e := by
  by_cases hports : ∀ i : Fin boardPortCount, (config.port i).enabled → (config.port i).WellFormed
  · by_cases hany : ∃ i : Fin boardPortCount, (config.port i).enabled
    · exact .inl ⟨hany, hports⟩
    · exact .inr ⟨_, .noEnabledPorts (not_exists.mp hany)⟩
  · -- the lowest index among the ports at fault
    push Not at hports
    obtain ⟨i, ⟨henabled, hport⟩, hleast⟩ := WellFounded.has_min wellFounded_lt
      {i : Fin boardPortCount | (config.port i).enabled ∧ ¬ (config.port i).WellFormed} hports
    obtain ⟨e, he⟩ := RuntimePortConfig.exists_firstDefect hport
    refine .inr ⟨e, .port i henabled ?_ he⟩
    intro j hj hjenabled
    by_contra hjport
    exact hleast j ⟨hjenabled, hjport⟩ hj

/-- Two configs with the same enabled ports, and anything in the others. -/
def AgreesOnEnabled (config config' : RuntimeConfig) : Prop :=
  ∀ i : Fin boardPortCount, (config'.port i).enabled = (config.port i).enabled ∧
    ((config.port i).enabled → config'.port i = config.port i)

section Agrees

variable {config config' : RuntimeConfig} (h : config.AgreesOnEnabled config')

include h

theorem Accepted.of_agrees (haccepted : config.Accepted) : config'.Accepted := by
  obtain ⟨⟨i, hi⟩, hports⟩ := haccepted
  refine ⟨⟨i, (h i).1.trans hi⟩, ?_⟩
  intro j hj
  have hj' := (h j).1.symm.trans hj
  rw [(h j).2 hj']
  exact hports j hj'

theorem Defect.of_agrees {e : RuntimeConfigError} (hdefect : config.Defect e) :
    config'.Defect e := by
  cases hdefect with
  | port i henabled hbefore hfirst =>
    refine .port i ((h i).1.trans henabled) ?_ ?_
    · intro j hj hjenabled
      have hj' := (h j).1.symm.trans hjenabled
      rw [(h j).2 hj']
      exact hbefore j hj hj'
    · rw [(h i).2 henabled]
      exact hfirst
  | noEnabledPorts hnone =>
    refine .noEnabledPorts ?_
    intro i hi
    exact hnone i ((h i).1.symm.trans hi)

end Agrees

/-! ## The loop -/

theorem portTimingModeValid_iff {mode : PortTimingMode} :
    portTimingModeValid mode = true ↔ mode.Declared := by
  simp [portTimingModeValid, PortTimingMode.Declared, or_assoc]

theorem syncEdgeModeValid_iff {mode : SyncEdgeMode} :
    syncEdgeModeValid mode = true ↔ mode.Declared := by
  simp [syncEdgeModeValid, SyncEdgeMode.Declared, or_assoc]

/-- The last check of the loop body, the other way round. -/
theorem triggerFits_iff {port : RuntimePortConfig} :
    port.TriggerFits ↔
      ¬ (port.timingMode = .trigger ∧ (port.triggerPeriodUs = 0 ∨ port.triggerPulseWidthUs = 0 ∨
        port.triggerPulseWidthUs ≥ port.triggerPeriodUs)) := by
  unfold RuntimePortConfig.TriggerFits
  rw [not_and]
  refine imp_congr_right fun _ => ?_
  rw [not_or, not_or, ← UInt32.toNat_inj, ← UInt32.toNat_inj, ge_iff_le, UInt32.le_iff_toNat_le,
    UInt32.lt_iff_toNat_lt, UInt32.lt_iff_toNat_lt]
  show 0 < _ ∧ _ ↔ ¬ _ = 0 ∧ ¬ _ = 0 ∧ _
  omega

section Loop

variable (error : Option RuntimeConfigError) {port : RuntimePortConfig}
  (ports : List RuntimePortConfig) (anyEnabled : Bool)

theorem validateLoop_disabled (h : ¬ port.enabled) :
    validateLoop error (port :: ports) anyEnabled = validateLoop error ports anyEnabled := by
  rw [validateLoop, if_pos (by simpa using h)]

theorem validateLoop_enabled (h : port.enabled) :
    validateLoop error (port :: ports) anyEnabled =
      if ¬ 0 < port.baudRate then (.invalidArg, setError error .baudRateInvalid)
      else if ¬ port.timingMode.Declared then (.invalidArg, setError error .timingModeInvalid)
      else if ¬ port.syncEdgeMode.Declared then (.invalidArg, setError error .syncEdgeModeInvalid)
      else if ¬ port.TriggerFits then (.invalidArg, setError error .triggerPulseWidthInvalid)
      else validateLoop error ports true := by
  have henabled : ¬ (!port.enabled) = true := by simp [h]
  rw [validateLoop, if_neg henabled]
  simp only [Bool.not_eq_true', ← Bool.not_eq_true, portTimingModeValid_iff, syncEdgeModeValid_iff,
    triggerFits_iff, not_not, Int32.not_lt]

theorem validateLoop_wellFormed (henabled : port.enabled) (h : port.WellFormed) :
    validateLoop error (port :: ports) anyEnabled = validateLoop error ports true := by
  rw [validateLoop_enabled error ports anyEnabled henabled, if_neg (not_not.mpr h.baudRate),
    if_neg (not_not.mpr h.timingMode), if_neg (not_not.mpr h.syncEdgeMode),
    if_neg (not_not.mpr h.trigger)]

theorem validateLoop_firstDefect (henabled : port.enabled) {e : RuntimeConfigError}
    (h : port.FirstDefect e) :
    validateLoop error (port :: ports) anyEnabled = (.invalidArg, setError error e) := by
  rw [validateLoop_enabled error ports anyEnabled henabled]
  cases h with
  | baudRate h => rw [if_pos h]
  | timingMode hbaud h => rw [if_neg (not_not.mpr hbaud), if_pos h]
  | syncEdgeMode hbaud htiming h =>
    rw [if_neg (not_not.mpr hbaud), if_neg (not_not.mpr htiming), if_pos h]
  | trigger hbaud htiming hsync h =>
    rw [if_neg (not_not.mpr hbaud), if_neg (not_not.mpr htiming), if_neg (not_not.mpr hsync),
      if_pos h]

end Loop

/-- **Loop.** The loop goes past ports that are not at fault, and remembers whether one of them was
enabled. -/
theorem validateLoop_append (error : Option RuntimeConfigError) {front : List RuntimePortConfig}
    (h : ∀ port ∈ front, port.enabled → port.WellFormed) (back : List RuntimePortConfig)
    (anyEnabled : Bool) :
    validateLoop error (front ++ back) anyEnabled =
      validateLoop error back (anyEnabled || front.any (·.enabled)) := by
  induction front generalizing anyEnabled with
  | nil => rw [List.any_nil, Bool.or_false]; rfl
  | cons port front ih =>
    have hfront := ih fun q hq => h q (List.mem_cons_of_mem _ hq)
    rw [List.cons_append, List.any_cons]
    by_cases henabled : port.enabled
    · rw [validateLoop_wellFormed error _ _ henabled (h port List.mem_cons_self henabled), hfront]
      simp [henabled]
    · rw [validateLoop_disabled error _ _ henabled, hfront]
      simp [henabled]

/-! ## The whole config -/

section Validate

variable {config : RuntimeConfig}

theorem mem_take_ports_iff {n : ℕ} {port : RuntimePortConfig} :
    port ∈ config.ports.toList.take n ↔
      ∃ j : Fin boardPortCount, j.val < n ∧ config.port j = port := by
  rw [List.mem_take_iff_getElem]
  constructor
  · rintro ⟨j, hj, rfl⟩
    rw [Vector.length_toList] at hj
    obtain ⟨hn, hcount⟩ := Nat.lt_min.mp hj
    exact ⟨⟨j, hcount⟩, hn, rfl⟩
  · rintro ⟨j, hj, rfl⟩
    refine ⟨j, ?_, rfl⟩
    rw [Vector.length_toList]
    exact Nat.lt_min.mpr ⟨hj, j.isLt⟩

theorem mem_ports_iff {port : RuntimePortConfig} :
    port ∈ config.ports.toList ↔ ∃ j : Fin boardPortCount, config.port j = port := by
  have htake : config.ports.toList.take boardPortCount = config.ports.toList :=
    List.take_of_length_le Vector.length_toList.le
  rw [← htake, mem_take_ports_iff]
  exact exists_congr fun j => and_iff_right j.isLt

theorem validate_of_wellFormed
    (h : ∀ i : Fin boardPortCount, (config.port i).enabled → (config.port i).WellFormed)
    (error : Option RuntimeConfigError) :
    validate (some config) error =
      validateLoop error [] (config.ports.toList.any (·.enabled)) := by
  have hports : ∀ port ∈ config.ports.toList, port.enabled → port.WellFormed := by
    intro port hport
    obtain ⟨i, rfl⟩ := mem_ports_iff.mp hport
    exact h i
  have hloop := validateLoop_append error hports [] false
  rw [List.append_nil, Bool.false_or] at hloop
  exact hloop

theorem validate_of_accepted (h : config.Accepted) (error : Option RuntimeConfigError) :
    validate (some config) error = (.ok, setError error .none) := by
  obtain ⟨⟨i, hi⟩, hports⟩ := h
  have hany : config.ports.toList.any (·.enabled) = true :=
    List.any_eq_true.mpr ⟨_, mem_ports_iff.mpr ⟨i, rfl⟩, hi⟩
  rw [validate_of_wellFormed hports, hany]
  rfl

theorem validate_of_defect {e : RuntimeConfigError} (h : config.Defect e)
    (error : Option RuntimeConfigError) :
    validate (some config) error = (.invalidArg, setError error e) := by
  cases h with
  | port i henabled hbefore hfirst =>
    have hfront : ∀ port ∈ config.ports.toList.take i, port.enabled → port.WellFormed := by
      intro port hport
      obtain ⟨j, hj, rfl⟩ := mem_take_ports_iff.mp hport
      exact hbefore j hj
    show validateLoop error config.ports.toList false = _
    rw [config.ports_split i, validateLoop_append error hfront,
      validateLoop_firstDefect error _ _ henabled hfirst]
  | noEnabledPorts hnone =>
    have hany : config.ports.toList.any (·.enabled) = false := by
      rw [List.any_eq_false]
      intro port hport
      obtain ⟨i, rfl⟩ := mem_ports_iff.mp hport
      exact hnone i
    rw [validate_of_wellFormed fun i hi => absurd hi (hnone i), hany]
    rfl

end Validate

/-! ## What one validation returns and writes -/

/-- An outcome of validation: success that reports no error, or `ESP_ERR_INVALID_ARG` that
reports one. -/
def IsVerdict (error : Option RuntimeConfigError) (r : EspErr × Option RuntimeConfigError) : Prop :=
  r = (.ok, setError error .none) ∨ ∃ e, e ≠ .none ∧ r = (.invalidArg, setError error e)

theorem validate_isVerdict (config : Option RuntimeConfig) (error : Option RuntimeConfigError) :
    IsVerdict error (validate config error) := by
  cases config with
  | none => exact .inr ⟨.nullConfig, nofun, rfl⟩
  | some config =>
    rcases config.accepted_or_defect with haccepted | ⟨e, he⟩
    · exact .inl (validate_of_accepted haccepted error)
    · exact .inr ⟨e, he.ne_none, validate_of_defect he error⟩

theorem validate_fst (config : Option RuntimeConfig) (error : Option RuntimeConfigError) :
    (validate config error).1 = (validate config none).1 := by
  cases config with
  | none => rfl
  | some config =>
    rcases config.accepted_or_defect with haccepted | ⟨e, he⟩
    · rw [validate_of_accepted haccepted, validate_of_accepted haccepted]
    · rw [validate_of_defect he, validate_of_defect he]

theorem validate_of_valid {config : Option RuntimeConfig} (h : Valid config)
    (error : Option RuntimeConfigError) : validate config error = (.ok, setError error .none) := by
  rcases validate_isVerdict config error with hv | ⟨e, -, hv⟩
  · exact hv
  · have h' := validate_fst config error
    rw [h, hv] at h'
    exact nomatch h'

theorem validate_of_not_valid {config : Option RuntimeConfig} (h : ¬ Valid config)
    (error : Option RuntimeConfigError) :
    ∃ e, e ≠ .none ∧ validate config error = (.invalidArg, setError error e) := by
  rcases validate_isVerdict config error with hv | hv
  · exact absurd ((validate_fst config error).symm.trans (congrArg Prod.fst hv)) h
  · exact hv

/-- **Validation.** A config is accepted exactly when it is as asked; another one is refused with
its error. Neither the disabled ports nor a `NULL` output parameter make a difference. -/
theorem runtime_config_validate_exact (config : RuntimeConfig)
    (error : Option RuntimeConfigError) :
    (validate (some config) error = (.ok, setError error .none) ↔ config.Accepted) ∧
      (¬ config.Accepted →
        ∃ e, config.Defect e ∧ validate (some config) error = (.invalidArg, setError error e)) ∧
      (∀ e, config.Defect e → validate (some config) error = (.invalidArg, setError error e)) ∧
      (∀ config', config.AgreesOnEnabled config' →
        validate (some config') error = validate (some config) error) ∧
      ∀ error', (validate (some config) error').1 = (validate (some config) error).1 := by
  refine ⟨⟨?_, ?_⟩, ?_, ?_, ?_, ?_⟩
  · intro hok
    rcases config.accepted_or_defect with haccepted | ⟨e, he⟩
    · exact haccepted
    · rw [validate_of_defect he] at hok
      cases hok
  · intro haccepted
    exact validate_of_accepted haccepted error
  · intro hrefused
    obtain ⟨e, he⟩ := config.accepted_or_defect.resolve_left hrefused
    exact ⟨e, he, validate_of_defect he error⟩
  · intro e he
    exact validate_of_defect he error
  · intro config' hagrees
    rcases config.accepted_or_defect with haccepted | ⟨e, he⟩
    · rw [validate_of_accepted haccepted, validate_of_accepted (haccepted.of_agrees hagrees)]
    · rw [validate_of_defect he, validate_of_defect (he.of_agrees hagrees)]
  · intro error'
    rw [validate_fst, validate_fst (some config) error]

end RuntimeConfig

end EmbeddedInsDaq
