import EmbeddedInsDaq.Control.FaultHistory
import EmbeddedInsDaq.Control.SessionInvariants

/-!
# The reachable controllers

`Coherent` holds in every reachable state. Together with one more fact, that a healthy fault manager
has counted nothing, it is also enough: every controller that satisfies both is left by some run
(`reachable_iff`). So there is no further invariant to be found, and no field can be left out of
these two.
-/

namespace EmbeddedInsDaq

open RuntimeConfig

variable {p : Platform}

/-! ## Configs for every verdict -/

/-- A config that is rejected with a given error, or the default config. -/
def configFor : RuntimeConfigError → Option RuntimeConfig
  | .none => some default
  | .nullConfig => none
  | .noEnabledPorts => some ⟨#v[.zero, .zero, .zero, .zero]⟩
  | .baudRateInvalid => some ⟨#v[{ RuntimePortConfig.zero with enabled := true },
    .zero, .zero, .zero]⟩
  | .timingModeInvalid =>
    some ⟨#v[{ RuntimePortConfig.zero with enabled := true, baudRate := 1, timingMode := 3 },
      .zero, .zero, .zero]⟩
  | .syncEdgeModeInvalid =>
    some ⟨#v[{ RuntimePortConfig.zero with enabled := true, baudRate := 1, syncEdgeMode := 3 },
      .zero, .zero, .zero]⟩
  | .triggerPulseWidthInvalid =>
    some ⟨#v[{ RuntimePortConfig.zero with enabled := true, baudRate := 1, timingMode := .trigger },
      .zero, .zero, .zero]⟩

theorem validate_configFor (error previous : RuntimeConfigError) :
    validate (configFor error) (some previous) =
      (if error = .none then .ok else .invalidArg, some error) := by
  cases error <;> rfl

namespace FaultManager

/-! ## Fault histories -/

/-- A fault that can be tolerated. -/
def tolerable : Option FaultEvent := some ⟨.captureOverflow, .recoverable⟩

/-- A fault that cannot. -/
def fatal : Option FaultEvent := some ⟨.captureOverflow, .fatal⟩

theorem publishAll_replicate (mem : FaultManager p) {event : Option FaultEvent}
    (h : FaultEvent.Counted event) {n : ℕ} (hn : n ≠ 0) :
    (init mem).publishAll (List.replicate n event) =
      ⟨FaultEvent.health event, BitVec.ofNat _ n, decide (FaultEvent.Fatal event)⟩ := by
  have hexists : ∀ P : Option FaultEvent → Prop,
      (∃ e ∈ List.replicate n event, P e) ↔ P event := by
    intro P
    simp [List.mem_replicate, hn]
  rw [publishAll_eq, foldr_max_health, List.countP_replicate, List.any_replicate,
    if_pos (decide_eq_true h), if_neg hn]
  simp only [hexists, init, BitVec.ofNat_eq_ofNat, BitVec.zero_add, Bool.false_or]
  rw [max_eq_right]
  · unfold FaultEvent.health
    rfl
  · exact HealthStatus.ok_le _

/-- The counter comes back to where it was after a full turn. -/
theorem ofNat_toNat_add_two_pow (count : SizeT p) :
    BitVec.ofNat p.sizeBits (count.toNat + 2 ^ p.sizeBits) = count := by
  apply BitVec.eq_of_toNat_eq
  rw [BitVec.toNat_ofNat, Nat.add_mod_right, Nat.mod_eq_of_lt count.isLt]

/-- Events that lead from the initial manager to a given one. A full turn of the counter makes
sure that there is one, whatever the count. -/
def eventsFor (manager : FaultManager p) : List (Option FaultEvent) :=
  match manager.health with
  | .ok => []
  | .degraded => List.replicate (manager.eventCount.toNat + 2 ^ p.sizeBits) tolerable
  | .faulted => List.replicate (manager.eventCount.toNat + 2 ^ p.sizeBits) fatal

/-- The flag agrees with the health, and a healthy manager has counted nothing. -/
structure Consistent (manager : FaultManager p) : Prop where
  health_iff : manager.health = .faulted ↔ manager.hasFatalFault = true
  count : manager.health = .ok → manager.eventCount = 0

theorem consistent_publish {manager : FaultManager p} (h : Consistent manager)
    (event : Option FaultEvent) : Consistent (manager.publish event) := by
  refine ⟨?_, ?_⟩
  · rw [health_publish_eq_faulted_iff, hasFatalFault_publish, h.health_iff]
    simp
  · intro hok
    by_cases hc : FaultEvent.Counted event
    · -- a counted event leaves a degraded or faulted manager
      rw [publish_eq] at hok
      have hle : FaultEvent.health event ≤ .ok := hok ▸ le_max_right _ _
      unfold FaultEvent.health at hle
      split_ifs at hle <;> exact absurd hle (by decide)
    · rw [publish_of_not_counted hc] at hok ⊢
      exact h.count hok

theorem publishAll_eventsFor {manager : FaultManager p} (h : Consistent manager)
    (mem : FaultManager p) : mem.init.publishAll (eventsFor manager) = manager := by
  obtain ⟨health, eventCount, hasFatalFault⟩ := manager
  obtain ⟨hhealth, hcount⟩ := h
  have hturn : eventCount.toNat + 2 ^ p.sizeBits ≠ 0 := by
    have hpos : 0 < 2 ^ p.sizeBits := Nat.two_pow_pos _
    omega
  cases health with
  | ok =>
    obtain rfl : eventCount = 0 := hcount rfl
    obtain rfl : hasFatalFault = false := by simpa using hhealth
    rfl
  | degraded =>
    obtain rfl : hasFatalFault = false := by simpa using hhealth
    exact (publishAll_replicate mem (by decide) hturn).trans
      (congrArg (FaultManager.mk .degraded · false) (ofNat_toNat_add_two_pow eventCount))
  | faulted =>
    obtain rfl : hasFatalFault = true := by simpa using hhealth
    exact (publishAll_replicate mem (by decide) hturn).trans
      (congrArg (FaultManager.mk .faulted · true) (ofNat_toNat_add_two_pow eventCount))

end FaultManager

namespace SessionController

/-! ## Operations for every controller -/

/-- The marks of the boot sequence. -/
def marks (storageReady configLoaded : Bool) : List Op :=
  (if storageReady then [.markStorageReady] else []) ++
    if configLoaded then [.markConfigLoaded (some default)] else []

/-- What follows the marks, up to the faults. A fault hides the state it was published in, and of
the verdict only the error is left. -/
def advance : SessionState → RuntimeConfigError → List Op
  | .starting, _ => [.requestStart (some default)]
  | .recording, _ => [.requestStart (some default), .markRecording]
  | .configInvalid, error => [.requestStart (configFor error)]
  | .faulted, error => if error = .none then [] else [.requestStart (configFor error)]
  | _, _ => []

/-- Operations that lead from an initialization to a given controller. -/
def opsFor (c : SessionController p) : List Op :=
  marks c.storageReady c.configLoaded ++ advance c.state c.lastConfigError ++
    (FaultManager.eventsFor c.faultManager).map .publishFault

/-- The controller after the marks. -/
def afterMarks (mem : SessionController p) (storageReady configLoaded : Bool) :
    SessionController p where
  state := if storageReady = true ∧ configLoaded = true then .ready else .boot
  faultManager := mem.faultManager.init
  lastConfigError := .none
  storageReady := storageReady
  configLoaded := configLoaded

theorem runFrom_marks (mem : SessionController p) (storageReady configLoaded : Bool) :
    runFrom mem (marks storageReady configLoaded) = afterMarks mem storageReady configLoaded := by
  cases storageReady <;> cases configLoaded <;> rfl

theorem afterMarks_state (mem : SessionController p) (storageReady configLoaded : Bool) :
    ¬ ((afterMarks mem storageReady configLoaded).state ≠ .boot ∧
      (afterMarks mem storageReady configLoaded).state ≠ .ready) := by
  unfold afterMarks
  dsimp only
  split_ifs <;> decide

theorem requestStart_configFor {c : SessionController p}
    (h : ¬ (c.state ≠ .boot ∧ c.state ≠ .ready)) {error : RuntimeConfigError}
    (herror : error ≠ .none) : c.requestStart (configFor error) =
      (false, { c with state := .configInvalid, lastConfigError := error }) := by
  unfold requestStart validateInto
  rw [if_neg h, validate_configFor, if_neg herror]
  rfl

theorem run_publishFault {c : SessionController p}
    (h : c.faultManager.hasFatalFault = true → c.state = .faulted)
    (events : List (Option FaultEvent)) :
    Machine.run step c (events.map .publishFault) = { c with
      faultManager := c.faultManager.publishAll events
      state := if (c.faultManager.publishAll events).hasFatalFault then .faulted else c.state } := by
  induction events generalizing c with
  | nil =>
    obtain ⟨state, faultManager, lastConfigError, storageReady, configLoaded⟩ := c
    cases hf : faultManager.hasFatalFault with
    | false => simp [FaultManager.publishAll, hf]
    | true =>
      obtain rfl : state = .faulted := h hf
      simp [FaultManager.publishAll, hf]
  | cons event events ih =>
    have hstep : (step c (.publishFault event)).2 = c.publishFault event := rfl
    have hrun : c.faultManager.publishAll (event :: events) =
        (c.faultManager.publish event).publishAll events := rfl
    rw [List.map_cons, Machine.run_cons, hstep, hrun, ih]
    · rw [publishFault_eq]
      dsimp only
      by_cases hf : (c.faultManager.publish event).hasFatalFault = true
      · have hlatched : ((c.faultManager.publish event).publishAll events).hasFatalFault = true := by
          rw [FaultManager.publishAll_eq, hf, Bool.true_or]
        rw [if_pos hf, if_pos hlatched, if_pos hlatched]
      · rw [if_neg hf]
    · rw [publishFault_eq]
      intro hf
      exact if_pos hf

/-- The state before the faults are published. -/
def stateBefore (c : SessionController p) : SessionState :=
  if c.state ≠ .faulted then c.state
  else if c.lastConfigError ≠ .none then .configInvalid
  else if c.storageReady = true ∧ c.configLoaded = true then .ready else .boot

theorem run_advance {c : SessionController p} (h : Coherent c) (mem : SessionController p) :
    Machine.run step (afterMarks mem c.storageReady c.configLoaded)
        (advance c.state c.lastConfigError) =
      { c with faultManager := mem.faultManager.init, state := stateBefore c } := by
  obtain ⟨state, faultManager, lastConfigError, storageReady, configLoaded⟩ := c
  have hmarks := afterMarks_state mem storageReady configLoaded
  have hrejected : ∀ {error : RuntimeConfigError}, error ≠ .none →
      Machine.run step (afterMarks mem storageReady configLoaded)
          [.requestStart (configFor error)] =
        ⟨.configInvalid, mem.faultManager.init, error, storageReady, configLoaded⟩ :=
    fun herror => congrArg Prod.snd (requestStart_configFor hmarks herror)
  have hstarted : Machine.run step (afterMarks mem storageReady configLoaded)
      [.requestStart (some default)] =
        ⟨.starting, mem.faultManager.init, .none, storageReady, configLoaded⟩ :=
    congrArg Prod.snd (requestStart_of_valid hmarks valid_default)
  have herror := h.configInvalid_iff
  cases state with
  | boot =>
    obtain rfl : lastConfigError = .none := by simpa using herror
    exact congrArg (SessionController.mk · _ _ _ _) (if_neg (h.boot rfl))
  | ready =>
    obtain rfl : lastConfigError = .none := by simpa using herror
    exact congrArg (SessionController.mk · _ _ _ _) (if_pos (h.ready rfl))
  | starting =>
    obtain rfl : lastConfigError = .none := by simpa using herror
    exact hstarted
  | recording =>
    obtain rfl : lastConfigError = .none := by simpa using herror
    show (Machine.run step _ [.requestStart (some default)]).markRecording.2 = _
    rw [hstarted]
    rfl
  | stopping => exact absurd rfl h.not_stopping
  | configInvalid => exact hrejected (by simpa using herror)
  | faulted =>
    by_cases hnone : lastConfigError = .none
    · subst hnone
      rfl
    · simp only [advance, if_neg hnone]
      rw [hrejected hnone]
      simp [stateBefore, hnone]

/-- A controller that agrees with itself, and whose fault manager does. -/
structure WellFormed (c : SessionController p) : Prop where
  coherent : Coherent c
  consistent : FaultManager.Consistent c.faultManager

theorem Effect.wellFormed {c c' : SessionController p} {op : Op} {r : Ret}
    (he : Effect c op r c') (h : WellFormed c) : WellFormed c' := by
  refine ⟨he.coherent h.coherent, ?_⟩
  cases he with
  | fault event => exact FaultManager.consistent_publish h.consistent event
  | storageReady => rw [updateReadyState_eq]; exact h.consistent
  | configLoaded => rw [updateReadyState_eq]; exact h.consistent
  | _ => exact h.consistent

theorem wellFormed_runFrom (mem : SessionController p) (ops : List Op) :
    WellFormed (runFrom mem ops) := by
  apply Machine.run_invariant (I := WellFormed)
  · intro c op h
    exact (step_effect c op).wellFormed h
  · exact ⟨coherent_init mem, by constructor <;> simp [init, FaultManager.init]⟩

theorem runFrom_opsFor {c : SessionController p} (h : WellFormed c) (mem : SessionController p) :
    runFrom mem (opsFor c) = c := by
  have hfatal := h.coherent.faulted_iff
  have hclear : mem.faultManager.init.hasFatalFault = true → stateBefore c = .faulted :=
    fun hf => absurd hf Bool.false_ne_true
  have hmarks : Machine.run step (init mem) (marks c.storageReady c.configLoaded) =
      afterMarks mem c.storageReady c.configLoaded := runFrom_marks mem _ _
  unfold runFrom opsFor
  rw [Machine.run_append, Machine.run_append, hmarks, run_advance h.coherent,
    run_publishFault hclear]
  dsimp only
  rw [FaultManager.publishAll_eventsFor h.consistent]
  obtain ⟨state, faultManager, lastConfigError, storageReady, configLoaded⟩ := c
  by_cases hf : state = .faulted
  · rw [if_pos (hfatal.mp hf), hf]
  · rw [if_neg (mt hfatal.mpr hf), stateBefore, if_pos hf]

/-- **The reachable controllers.** From any memory, the runs from an initialization lead to exactly
the controllers that agree with themselves. -/
theorem reachable_iff (mem c : SessionController p) :
    (∃ ops, runFrom mem ops = c) ↔ WellFormed c := by
  constructor
  · rintro ⟨ops, rfl⟩
    exact wellFormed_runFrom mem ops
  · intro h
    exact ⟨opsFor c, runFrom_opsFor h mem⟩

end SessionController

end EmbeddedInsDaq
