import EmbeddedInsDaq.Control.ConfigContract
import EmbeddedInsDaq.Control.FaultManager
import EmbeddedInsDaq.Lib.Runs

/-!
# The session controller

`session_controller.c`. The operations are given on a controller that is there; `callThrough` adds
the `NULL` test they all start with.

`step_effect` says once what an operation can do: it is refused because of the state and changes
nothing, or it has one of seven effects. Every invariant of the controller is a case analysis
over `Effect`.
-/

namespace EmbeddedInsDaq

/-- `session_controller_t`. -/
structure SessionController (p : Platform) where
  state : SessionState
  faultManager : FaultManager p
  lastConfigError : RuntimeConfigError
  storageReady : Bool
  configLoaded : Bool
  deriving DecidableEq

namespace SessionController

open RuntimeConfig

variable {p : Platform}

/-! ## The operations -/

/-- `session_controller_init`, over whatever the memory held. -/
def init (controller : SessionController p) : SessionController p where
  state := .boot
  lastConfigError := .none
  storageReady := false
  configLoaded := false
  faultManager := controller.faultManager.init

/-- `update_ready_state`. -/
def updateReadyState (controller : SessionController p) : SessionController p :=
  if controller.state = .boot ∧ controller.storageReady ∧ controller.configLoaded then
    { controller with state := .ready }
  else controller

/-- `session_controller_mark_storage_ready`. -/
def markStorageReady (controller : SessionController p) : EspErr × SessionController p :=
  if controller.state ≠ .boot then (.invalidState, controller)
  else (.ok, updateReadyState { controller with storageReady := true })

/-- `runtime_config_validate(config, &controller->last_config_error)`. -/
def validateInto (controller : SessionController p) (config : Option RuntimeConfig) :
    EspErr × SessionController p :=
  let (err, error) := validate config (some controller.lastConfigError)
  (err, { controller with lastConfigError := error.getD controller.lastConfigError })

/-- `session_controller_mark_config_loaded`. -/
def markConfigLoaded (controller : SessionController p) (config : Option RuntimeConfig) :
    EspErr × SessionController p :=
  if controller.state ≠ .boot ∧ controller.state ≠ .ready then (.invalidState, controller)
  else
    let (err, controller) := controller.validateInto config
    if err ≠ .ok then
      (.invalidArg, { controller with state := .configInvalid, configLoaded := false })
    else (.ok, updateReadyState { controller with configLoaded := true })

/-- `session_controller_request_start`. -/
def requestStart (controller : SessionController p) (config : Option RuntimeConfig) :
    Bool × SessionController p :=
  if controller.state ≠ .boot ∧ controller.state ≠ .ready then (false, controller)
  else
    let (err, controller) := controller.validateInto config
    if err ≠ .ok then (false, { controller with state := .configInvalid })
    else (true, { controller with state := .starting })

/-- `session_controller_mark_recording`. -/
def markRecording (controller : SessionController p) : EspErr × SessionController p :=
  if controller.state ≠ .starting then (.invalidState, controller)
  else (.ok, { controller with state := .recording })

/-- `session_controller_publish_fault`. -/
def publishFault (controller : SessionController p) (event : Option FaultEvent) :
    SessionController p :=
  let controller := { controller with faultManager := controller.faultManager.publish event }
  if controller.faultManager.hasFatalFault then { controller with state := .faulted }
  else controller

/-! ## The controller as a machine -/

/-- The operations, with their arguments. -/
inductive Op
  | markStorageReady
  | markConfigLoaded (config : Option RuntimeConfig)
  | requestStart (config : Option RuntimeConfig)
  | markRecording
  | publishFault (event : Option FaultEvent)
  deriving DecidableEq

/-- What an operation returns. -/
inductive Ret
  | err (e : EspErr)
  | bool (b : Bool)
  | void
  deriving DecidableEq

/-- A return value by which an operation says no. -/
def Ret.Refused : Ret → Prop
  | .err e => e ≠ .ok
  | .bool b => b = false
  | .void => False

/-- One operation on the controller. -/
def step (controller : SessionController p) : Op → Ret × SessionController p
  | .markStorageReady => controller.markStorageReady.map .err id
  | .markConfigLoaded config => (controller.markConfigLoaded config).map .err id
  | .requestStart config => (controller.requestStart config).map .bool id
  | .markRecording => controller.markRecording.map .err id
  | .publishFault event => (.void, controller.publishFault event)

/-- What an operation returns for a `NULL` controller. -/
def Op.nullRet : Op → Ret
  | .requestStart _ => .bool false
  | .publishFault _ => .void
  | _ => .err .invalidArg

/-- An operation through a controller pointer. -/
def callThrough (controller : Option (SessionController p)) (op : Op) :
    Ret × Option (SessionController p) :=
  match controller with
  | none => (op.nullRet, none)
  | some controller => (step controller op).map id some

theorem run_callThrough (controller : Option (SessionController p)) (ops : List Op) :
    Machine.run callThrough controller ops = controller.map (Machine.run step · ops) := by
  induction ops generalizing controller with
  | nil => cases controller <;> rfl
  | cons op ops ih => cases controller <;> exact ih _

/-- Through `NULL` every operation returns the same, however often it is called. -/
theorem trace_callThrough (controller : Option (SessionController p)) (ops : List Op) :
    Machine.trace callThrough controller ops =
      controller.elim (ops.map fun op => (op, op.nullRet)) (Machine.trace step · ops) := by
  induction ops generalizing controller with
  | nil => cases controller <;> rfl
  | cons op ops ih => cases controller <;> exact congrArg (_ :: ·) (ih _)

/-- The state after the operations `ops`, the first of them right after an initialization over
the memory `mem`. -/
def runFrom (mem : SessionController p) (ops : List Op) : SessionController p :=
  Machine.run step (init mem) ops

/-- The history of `runFrom`. -/
def traceFrom (mem : SessionController p) (ops : List Op) : List (Op × Ret) :=
  Machine.trace step (init mem) ops

/-! ## What one operation does -/

/-- The states in which an operation is refused. -/
def RefusedByState (c : SessionController p) : Op → Prop
  | .markStorageReady => c.state ≠ .boot
  | .markConfigLoaded _ => c.state ≠ .boot ∧ c.state ≠ .ready
  | .requestStart _ => c.state ≠ .boot ∧ c.state ≠ .ready
  | .markRecording => c.state ≠ .starting
  | .publishFault _ => False

/-- The return value of an operation refused because of the state. -/
def Op.stateRet : Op → Ret
  | .requestStart _ => .bool false
  | .publishFault _ => .void
  | _ => .err .invalidState

theorem Op.stateRet_refused {c : SessionController p} {op : Op} (h : RefusedByState c op) :
    op.stateRet.Refused := by
  cases op <;> first | exact h.elim | rfl | (intro hok; cases hok)

/-- The effects of the operations: what each returns and leaves, and when. -/
inductive Effect (c : SessionController p) : Op → Ret → SessionController p → Prop
  | refused {op : Op} (h : RefusedByState c op) : Effect c op op.stateRet c
  | storageReady (h : c.state = .boot) :
      Effect c .markStorageReady (.err .ok) (updateReadyState { c with storageReady := true })
  | configLoaded {config : Option RuntimeConfig} (h : c.state = .boot ∨ c.state = .ready)
      (hv : Valid config) :
      Effect c (.markConfigLoaded config) (.err .ok)
        (updateReadyState { c with lastConfigError := .none, configLoaded := true })
  | configRejected {config : Option RuntimeConfig} (h : c.state = .boot ∨ c.state = .ready)
      (hv : ¬ Valid config) {e : RuntimeConfigError} (he : e ≠ .none) :
      Effect c (.markConfigLoaded config) (.err .invalidArg)
        { c with state := .configInvalid, lastConfigError := e, configLoaded := false }
  | started {config : Option RuntimeConfig} (h : c.state = .boot ∨ c.state = .ready)
      (hv : Valid config) :
      Effect c (.requestStart config) (.bool true)
        { c with state := .starting, lastConfigError := .none }
  | startRejected {config : Option RuntimeConfig} (h : c.state = .boot ∨ c.state = .ready)
      (hv : ¬ Valid config) {e : RuntimeConfigError} (he : e ≠ .none) :
      Effect c (.requestStart config) (.bool false)
        { c with state := .configInvalid, lastConfigError := e }
  | recording (h : c.state = .starting) :
      Effect c .markRecording (.err .ok) { c with state := .recording }
  | fault (event : Option FaultEvent) :
      Effect c (.publishFault event) .void
        { c with
          faultManager := c.faultManager.publish event
          state := if (c.faultManager.publish event).hasFatalFault then .faulted else c.state }

theorem validateInto_of_valid {config : Option RuntimeConfig} (h : Valid config)
    (c : SessionController p) :
    c.validateInto config = (.ok, { c with lastConfigError := .none }) := by
  unfold validateInto
  rw [validate_of_valid h]
  rfl

theorem validateInto_of_not_valid {config : Option RuntimeConfig} (h : ¬ Valid config)
    (c : SessionController p) :
    ∃ e, e ≠ .none ∧ c.validateInto config = (.invalidArg, { c with lastConfigError := e }) := by
  obtain ⟨e, he, hv⟩ := validate_of_not_valid h (some c.lastConfigError)
  refine ⟨e, he, ?_⟩
  unfold validateInto
  rw [hv]
  rfl

theorem markStorageReady_of_boot {c : SessionController p} (h : c.state = .boot) :
    c.markStorageReady = (.ok, updateReadyState { c with storageReady := true }) := by
  unfold markStorageReady
  rw [if_neg (not_not.mpr h)]

theorem markConfigLoaded_of_valid {c : SessionController p} {config : Option RuntimeConfig}
    (h : ¬ (c.state ≠ .boot ∧ c.state ≠ .ready)) (hv : Valid config) :
    c.markConfigLoaded config =
      (.ok, updateReadyState { c with lastConfigError := .none, configLoaded := true }) := by
  unfold markConfigLoaded
  rw [if_neg h, validateInto_of_valid hv]
  rfl

theorem markConfigLoaded_of_not_valid {c : SessionController p} {config : Option RuntimeConfig}
    (h : ¬ (c.state ≠ .boot ∧ c.state ≠ .ready)) (hv : ¬ Valid config) :
    ∃ e, e ≠ .none ∧ c.markConfigLoaded config = (.invalidArg,
      { c with state := .configInvalid, lastConfigError := e, configLoaded := false }) := by
  obtain ⟨e, he, heq⟩ := validateInto_of_not_valid hv c
  refine ⟨e, he, ?_⟩
  unfold markConfigLoaded
  rw [if_neg h, heq]
  rfl

theorem requestStart_of_valid {c : SessionController p} {config : Option RuntimeConfig}
    (h : ¬ (c.state ≠ .boot ∧ c.state ≠ .ready)) (hv : Valid config) :
    c.requestStart config = (true, { c with state := .starting, lastConfigError := .none }) := by
  unfold requestStart
  rw [if_neg h, validateInto_of_valid hv]
  rfl

theorem requestStart_of_not_valid {c : SessionController p} {config : Option RuntimeConfig}
    (h : ¬ (c.state ≠ .boot ∧ c.state ≠ .ready)) (hv : ¬ Valid config) :
    ∃ e, e ≠ .none ∧ c.requestStart config =
      (false, { c with state := .configInvalid, lastConfigError := e }) := by
  obtain ⟨e, he, heq⟩ := validateInto_of_not_valid hv c
  refine ⟨e, he, ?_⟩
  unfold requestStart
  rw [if_neg h, heq]
  rfl

theorem markRecording_of_starting {c : SessionController p} (h : c.state = .starting) :
    c.markRecording = (.ok, { c with state := .recording }) := by
  unfold markRecording
  rw [if_neg (not_not.mpr h)]

theorem publishFault_eq (c : SessionController p) (event : Option FaultEvent) :
    c.publishFault event = { c with
      faultManager := c.faultManager.publish event
      state := if (c.faultManager.publish event).hasFatalFault then .faulted else c.state } := by
  unfold publishFault
  cases h : (c.faultManager.publish event).hasFatalFault <;> simp [h]

theorem step_of_refusedByState {c : SessionController p} {op : Op} (h : RefusedByState c op) :
    step c op = (op.stateRet, c) := by
  cases op with
  | markStorageReady =>
    show c.markStorageReady.map Ret.err id = _
    rw [show c.markStorageReady = (.invalidState, c) from if_pos h]; rfl
  | markConfigLoaded config =>
    show (c.markConfigLoaded config).map Ret.err id = _
    rw [show c.markConfigLoaded config = (.invalidState, c) from if_pos h]; rfl
  | requestStart config =>
    show (c.requestStart config).map Ret.bool id = _
    rw [show c.requestStart config = (false, c) from if_pos h]; rfl
  | markRecording =>
    show c.markRecording.map Ret.err id = _
    rw [show c.markRecording = (.invalidState, c) from if_pos h]; rfl
  | publishFault event => exact h.elim

theorem boot_or_ready_of_not {s : SessionState} (h : ¬ (s ≠ .boot ∧ s ≠ .ready)) :
    s = .boot ∨ s = .ready := by
  cases s <;> simp_all

/-- **The step.** Every operation has one of the effects. -/
theorem step_effect (c : SessionController p) (op : Op) :
    Effect c op (step c op).1 (step c op).2 := by
  by_cases hr : RefusedByState c op
  · rw [step_of_refusedByState hr]
    exact .refused hr
  cases op with
  | markStorageReady =>
    have hb : c.state = .boot := not_not.mp hr
    show Effect c _ (.err c.markStorageReady.1) c.markStorageReady.2
    rw [markStorageReady_of_boot hb]
    exact .storageReady hb
  | markConfigLoaded config =>
    show Effect c _ (.err (c.markConfigLoaded config).1) (c.markConfigLoaded config).2
    by_cases hv : Valid config
    · rw [markConfigLoaded_of_valid hr hv]
      exact .configLoaded (boot_or_ready_of_not hr) hv
    · obtain ⟨e, he, heq⟩ := markConfigLoaded_of_not_valid hr hv
      rw [heq]
      exact .configRejected (boot_or_ready_of_not hr) hv he
  | requestStart config =>
    show Effect c _ (.bool (c.requestStart config).1) (c.requestStart config).2
    by_cases hv : Valid config
    · rw [requestStart_of_valid hr hv]
      exact .started (boot_or_ready_of_not hr) hv
    · obtain ⟨e, he, heq⟩ := requestStart_of_not_valid hr hv
      rw [heq]
      exact .startRejected (boot_or_ready_of_not hr) hv he
  | markRecording =>
    have hs : c.state = .starting := not_not.mp hr
    show Effect c _ (.err c.markRecording.1) c.markRecording.2
    rw [markRecording_of_starting hs]
    exact .recording hs
  | publishFault event =>
    show Effect c _ .void (c.publishFault event)
    rw [publishFault_eq]
    exact .fault event

/-- A readiness update only ever moves `BOOT` to `READY`. -/
theorem updateReadyState_eq (c : SessionController p) :
    updateReadyState c = { c with
      state := if c.state = .boot ∧ c.storageReady ∧ c.configLoaded then .ready else c.state } := by
  unfold updateReadyState
  split_ifs <;> rfl

end SessionController

end EmbeddedInsDaq
