import EmbeddedInsDaq.Control.SessionController

/-!
# Invariants of the session controller

`Coherent` ties the fields of a controller together; it holds after an initialization and every
operation keeps it (`coherent_step`), so it holds in every reachable state (`coherent_runFrom`).
The fatal latch and the readiness of the boot sequence are read off it.
-/

namespace EmbeddedInsDaq

namespace SessionController

open RuntimeConfig

variable {p : Platform}

/-- The invariant of a controller in use. -/
structure Coherent (c : SessionController p) : Prop where
  faulted_iff : c.state = .faulted ↔ c.faultManager.hasFatalFault = true
  health_iff : c.faultManager.health = .faulted ↔ c.faultManager.hasFatalFault = true
  ready : c.state = .ready → c.storageReady = true ∧ c.configLoaded = true
  boot : c.state = .boot → ¬ (c.storageReady = true ∧ c.configLoaded = true)
  configInvalid_iff :
    c.state ≠ .faulted → (c.state = .configInvalid ↔ c.lastConfigError ≠ .none)
  not_stopping : c.state ≠ .stopping

theorem coherent_init (mem : SessionController p) : Coherent (init mem) := by
  constructor <;> simp [init, FaultManager.init]

theorem Coherent.not_fatal {c : SessionController p} (h : Coherent c) {s : SessionState}
    (hs : c.state = s) (hne : s ≠ .faulted) : c.faultManager.hasFatalFault ≠ true := by
  rw [← hs] at hne
  exact fun hf => hne (h.faulted_iff.mpr hf)

theorem Coherent.not_fatal_of_boot_or_ready {c : SessionController p} (h : Coherent c)
    (hs : c.state = .boot ∨ c.state = .ready) : c.faultManager.hasFatalFault ≠ true := by
  rcases hs with hs | hs <;> exact h.not_fatal hs (by decide)

/-- A readiness update of a controller in `BOOT`, or of one that is `READY` with both marks. -/
theorem coherent_updateReadyState {c : SessionController p}
    (hs : c.state = .boot ∨ c.state = .ready)
    (hready : c.state = .ready → c.storageReady = true ∧ c.configLoaded = true)
    (hfatal : c.faultManager.hasFatalFault ≠ true)
    (hhealth : c.faultManager.health = .faulted ↔ c.faultManager.hasFatalFault = true)
    (herror : c.lastConfigError = .none) : Coherent (updateReadyState c) := by
  rw [updateReadyState_eq]
  rcases hs with hb | hr
  · by_cases hboth : c.storageReady = true ∧ c.configLoaded = true
    · rw [if_pos ⟨hb, hboth⟩]
      constructor <;> simp_all
    · rw [if_neg fun h => hboth h.2]
      constructor <;> simp_all
  · rw [if_neg fun h => by rw [hr] at h; exact nomatch h.1]
    constructor <;> simp_all

theorem Effect.coherent {c c' : SessionController p} {op : Op} {r : Ret} (he : Effect c op r c')
    (h : Coherent c) : Coherent c' := by
  cases he with
  | refused hr => exact h
  | storageReady hb =>
    have hn := h.not_fatal hb (by decide)
    have he : c.lastConfigError = .none := by
      by_contra hne
      exact absurd (((h.configInvalid_iff (by simp [hb])).mpr hne).symm.trans hb) (by decide)
    exact coherent_updateReadyState (.inl hb) (fun hr => by simp [hb] at hr) hn h.health_iff he
  | configLoaded hs hv =>
    have hn := h.not_fatal_of_boot_or_ready hs
    exact coherent_updateReadyState hs (fun hr => ⟨(h.ready hr).1, rfl⟩) hn h.health_iff rfl
  | configRejected hs hv he =>
    have hn := h.not_fatal_of_boot_or_ready hs
    have hh := h.health_iff
    constructor <;> simp_all
  | started hs hv =>
    have hn := h.not_fatal_of_boot_or_ready hs
    have hh := h.health_iff
    constructor <;> simp_all
  | startRejected hs hv he =>
    have hn := h.not_fatal_of_boot_or_ready hs
    have hh := h.health_iff
    constructor <;> simp_all
  | recording hs =>
    have hn := h.not_fatal hs (by decide)
    have hh := h.health_iff
    have he := h.configInvalid_iff
    constructor <;> simp_all
  | fault event =>
    have hh := h.health_iff
    have hp := FaultManager.health_publish_eq_faulted_iff c.faultManager event
    have hf := FaultManager.hasFatalFault_publish c.faultManager event
    obtain ⟨hfaulted, -, hready, hboot, hinvalid, hstop⟩ := h
    by_cases hl : (c.faultManager.publish event).hasFatalFault = true
    · constructor <;> simp_all
    · constructor <;> simp_all

/-- **The invariant step.** -/
theorem coherent_step {c : SessionController p} (h : Coherent c) (op : Op) :
    Coherent (step c op).2 :=
  (step_effect c op).coherent h

theorem coherent_runFrom (mem : SessionController p) (ops : List Op) :
    Coherent (runFrom mem ops) := by
  unfold runFrom
  apply Machine.run_invariant (I := Coherent)
  · intro c op h
    exact coherent_step h op
  · exact coherent_init mem

/-! ## The fatal latch -/

/-- An operation that publishes a fatal fault. -/
def Op.latches : Op → Bool
  | .publishFault event => decide (FaultEvent.Fatal event)
  | _ => false

theorem Op.latches_iff {op : Op} :
    op.latches = true ↔ ∃ event : FaultEvent,
      op = .publishFault (some event) ∧ event.code ≠ .none ∧ event.severity = .fatal := by
  cases op with
  | publishFault event =>
    simp only [Op.latches, decide_eq_true_eq, Op.publishFault.injEq]
    exact Iff.rfl
  | _ => simp [Op.latches]

theorem hasFatalFault_step (c : SessionController p) (op : Op) :
    (step c op).2.faultManager.hasFatalFault =
      (c.faultManager.hasFatalFault || op.latches) := by
  have he := step_effect c op
  generalize (step c op).1 = r, (step c op).2 = c' at he
  cases he with
  | refused hr => cases op <;> first | exact hr.elim | simp [Op.latches]
  | storageReady => simp [updateReadyState_eq, Op.latches]
  | configLoaded => simp [updateReadyState_eq, Op.latches]
  | configRejected => simp [Op.latches]
  | started => simp [Op.latches]
  | startRejected => simp [Op.latches]
  | recording => simp [Op.latches]
  | fault event => exact FaultManager.hasFatalFault_publish _ _

theorem hasFatalFault_run (c : SessionController p) (ops : List Op) :
    (Machine.run step c ops).faultManager.hasFatalFault =
      (c.faultManager.hasFatalFault || ops.any Op.latches) := by
  induction ops generalizing c with
  | nil => simp
  | cons op ops ih =>
    rw [Machine.run_cons, ih, hasFatalFault_step, List.any_cons, Bool.or_assoc]

theorem hasFatalFault_runFrom_iff (mem : SessionController p) (ops : List Op) :
    (runFrom mem ops).faultManager.hasFatalFault = true ↔ ∃ event : FaultEvent,
      Op.publishFault (some event) ∈ ops ∧ event.code ≠ .none ∧ event.severity = .fatal := by
  unfold runFrom
  rw [hasFatalFault_run]
  simp only [init, FaultManager.init, Bool.false_or, List.any_eq_true, Op.latches_iff]
  constructor
  · rintro ⟨op, hmem, event, rfl, h⟩
    exact ⟨event, hmem, h⟩
  · rintro ⟨event, hmem, h⟩
    exact ⟨_, hmem, event, rfl, h⟩

theorem refusedByState_of_faulted {c : SessionController p} (h : c.state = .faulted) {op : Op}
    (hop : ∀ event, op ≠ .publishFault event) : RefusedByState c op := by
  cases op with
  | publishFault event => exact absurd rfl (hop event)
  | _ => simp [RefusedByState, h]

/-- **Fatal-fault latch.** After any run from an initialization the three marks of a fatal fault
agree, they are set exactly when the run has published one, and then every operation other than a
publication is refused and changes nothing. -/
theorem fatal_fault_latch (mem : SessionController p) (ops : List Op) :
    ((runFrom mem ops).state = .faulted ↔
      (runFrom mem ops).faultManager.hasFatalFault = true) ∧
    ((runFrom mem ops).faultManager.hasFatalFault = true ↔
      (runFrom mem ops).faultManager.health = .faulted) ∧
    ((runFrom mem ops).faultManager.health = .faulted ↔ ∃ event : FaultEvent,
      Op.publishFault (some event) ∈ ops ∧ event.code ≠ .none ∧ event.severity = .fatal) ∧
    ((runFrom mem ops).state = .faulted → ∀ op, (∀ event, op ≠ .publishFault event) →
      (step (runFrom mem ops) op).1.Refused ∧ (step (runFrom mem ops) op).2 = runFrom mem ops) := by
  have hc := coherent_runFrom mem ops
  refine ⟨hc.faulted_iff, hc.health_iff.symm, ?_, ?_⟩
  · rw [hc.health_iff]
    exact hasFatalFault_runFrom_iff mem ops
  · intro hs op hop
    have hr := refusedByState_of_faulted hs hop
    rw [step_of_refusedByState hr]
    exact ⟨Op.stateRet_refused hr, rfl⟩

/-! ## Readiness -/

/-- The operations of a boot that goes well: any but a start, a recording mark, an invalid config
or a fatal fault. -/
def Op.Boot : Op → Prop
  | .markStorageReady => True
  | .markConfigLoaded config => Valid config
  | .publishFault event => ¬ FaultEvent.Fatal event
  | .requestStart _ => False
  | .markRecording => False

/-- Where a boot that goes well stands after the operations of `hist`. -/
structure Booting (c : SessionController p) (hist : List (Op × Ret)) : Prop where
  coherent : Coherent c
  state : c.state = .boot ∨ c.state = .ready
  storage : Op.markStorageReady ∈ hist.map Prod.fst → c.storageReady = true
  config : (∃ config, Op.markConfigLoaded config ∈ hist.map Prod.fst) → c.configLoaded = true

theorem updateReadyState_state {c : SessionController p} (h : c.state = .boot ∨ c.state = .ready) :
    (updateReadyState c).state = .boot ∨ (updateReadyState c).state = .ready := by
  rw [updateReadyState_eq]
  by_cases hb : c.state = .boot ∧ c.storageReady ∧ c.configLoaded
  · rw [if_pos hb]; exact .inr rfl
  · rw [if_neg hb]; exact h

theorem Effect.booting {c c' : SessionController p} {op : Op} {r : Ret} (he : Effect c op r c')
    {hist : List (Op × Ret)} (h : Booting c hist) (hop : op.Boot) :
    Booting c' (hist ++ [(op, r)]) := by
  obtain ⟨hc, hs, hst, hcf⟩ := h
  suffices h' : (c'.state = .boot ∨ c'.state = .ready) ∧
      ((Op.markStorageReady ∈ hist.map Prod.fst ∨ Op.markStorageReady = op) →
        c'.storageReady = true) ∧
      ((∃ config, Op.markConfigLoaded config ∈ hist.map Prod.fst ∨
        Op.markConfigLoaded config = op) → c'.configLoaded = true) by
    refine ⟨he.coherent hc, h'.1, ?_, ?_⟩
    · simpa only [List.map_append, List.map_cons, List.map_nil, List.mem_append,
        List.mem_singleton] using h'.2.1
    · simpa only [List.map_append, List.map_cons, List.map_nil, List.mem_append,
        List.mem_singleton] using h'.2.2
  cases he with
  | refused hr =>
    -- a refused boot operation is a storage mark in `READY`, where both marks are set already
    cases op with
    | markStorageReady =>
      have hready : c.state = .ready := hs.resolve_left hr
      exact ⟨hs, fun _ => (hc.ready hready).1, fun _ => (hc.ready hready).2⟩
    | markConfigLoaded config => exact absurd hs (by rintro (h | h); exacts [hr.1 h, hr.2 h])
    | requestStart config => exact hop.elim
    | markRecording => exact hop.elim
    | publishFault event => exact hr.elim
  | storageReady hb =>
    refine ⟨updateReadyState_state hs, fun _ => by rw [updateReadyState_eq], ?_⟩
    rintro ⟨config, hm | hm⟩
    · rw [updateReadyState_eq]; exact hcf ⟨config, hm⟩
    · exact nomatch hm
  | configLoaded _ hv =>
    refine ⟨updateReadyState_state hs, ?_, fun _ => by rw [updateReadyState_eq]⟩
    rintro (hm | hm)
    · rw [updateReadyState_eq]; exact hst hm
    · exact nomatch hm
  | configRejected _ hv => exact absurd hop hv
  | started => exact hop.elim
  | startRejected => exact hop.elim
  | recording => exact hop.elim
  | fault event =>
    have hn : (c.faultManager.publish event).hasFatalFault ≠ true := by
      rw [FaultManager.hasFatalFault_publish]
      have := hc.not_fatal_of_boot_or_ready hs
      simp_all [Op.Boot]
    rw [if_neg hn]
    refine ⟨hs, fun hm => hst (hm.resolve_right nofun), ?_⟩
    rintro ⟨config, hm | hm⟩
    · exact hcf ⟨config, hm⟩
    · exact nomatch hm

theorem booting_runFrom (mem : SessionController p) (ops : List Op) (h : ∀ op ∈ ops, op.Boot) :
    Booting (runFrom mem ops) (traceFrom mem ops) := by
  have key : (∀ op ∈ (traceFrom mem ops).map Prod.fst, op.Boot) →
      Booting (runFrom mem ops) (traceFrom mem ops) := by
    apply Machine.run_trace_induction
      (P := fun c hist => (∀ op ∈ hist.map Prod.fst, op.Boot) → Booting c hist)
    · intro _
      exact ⟨coherent_init mem, .inl rfl, nofun, nofun⟩
    · intro c hist op ih hb
      simp only [List.map_append, List.map_cons, List.map_nil, List.mem_append,
        List.mem_singleton] at hb
      exact (step_effect c op).booting (ih fun o ho => hb o (.inl ho)) (hb op (.inr rfl))
  apply key
  unfold traceFrom
  rw [Machine.map_fst_trace]
  exact h

/-- **Readiness and boot order.** In every reachable state `READY` means that both marks are set,
`BOOT` that they are not both set, and outside `FAULTED` the state is `CONFIG_INVALID` exactly
when an error is recorded; and a boot made, in any order and with any repeats, of storage marks,
valid config loads and faults that are not fatal ends `READY` once both marks have been made. -/
theorem readiness_coherent (mem : SessionController p) (ops : List Op) :
    ((runFrom mem ops).state = .ready →
      (runFrom mem ops).storageReady = true ∧ (runFrom mem ops).configLoaded = true) ∧
    ((runFrom mem ops).state = .boot →
      ¬ ((runFrom mem ops).storageReady = true ∧ (runFrom mem ops).configLoaded = true)) ∧
    ((runFrom mem ops).state ≠ .faulted →
      ((runFrom mem ops).state = .configInvalid ↔ (runFrom mem ops).lastConfigError ≠ .none)) ∧
    ((∀ op ∈ ops, op.Boot) → Op.markStorageReady ∈ ops →
      (∃ config, Op.markConfigLoaded config ∈ ops) → (runFrom mem ops).state = .ready) := by
  have hc := coherent_runFrom mem ops
  refine ⟨hc.ready, hc.boot, hc.configInvalid_iff, fun hboot hst hcf => ?_⟩
  have hb := booting_runFrom mem ops hboot
  have hops : (traceFrom mem ops).map Prod.fst = ops := Machine.map_fst_trace step _ ops
  have hs := hb.storage (by rw [hops]; exact hst)
  have hl := hb.config (by rw [hops]; exact hcf)
  exact hb.state.resolve_left fun h => hc.boot h ⟨hs, hl⟩

end SessionController

end EmbeddedInsDaq
