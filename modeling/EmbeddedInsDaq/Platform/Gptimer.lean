import Mathlib.Data.List.FinRange
import Mathlib.Logic.Function.Basic

/-!
# The general purpose timer driver

What `clock_smoke.c` sees of the `gptimer` calls. The driver is not part of the repository: it is a
`GptimerDriver`, and `GptimerDriver.Lawful` is what the caller relies on. Four hardware timers whose
calls fail as a script says are such a driver.
-/

namespace EmbeddedInsDaq

open Function

/-- `esp_err_t`, where the driver chooses the error. -/
abbrev EspErrT := Int32

namespace EspErrT
def ok : EspErrT := 0
def invalidArg : EspErrT := 0x102
def invalidState : EspErrT := 0x103
def notFound : EspErrT := 0x105
end EspErrT

/-- `gptimer_clock_source_t`, as far as it is named. -/
inductive GptimerClockSource
  | default
  deriving DecidableEq

/-- `gptimer_count_direction_t`, as far as it is named. -/
inductive GptimerCountDirection
  | up
  deriving DecidableEq

/-- `gptimer_config_t`. -/
structure GptimerConfig where
  clkSrc : GptimerClockSource
  direction : GptimerCountDirection
  resolutionHz : UInt32
  intrPriority : Int32
  intrShared : Bool
  allowPd : Bool
  deriving DecidableEq

/-- `gptimer_alarm_config_t`. -/
structure GptimerAlarmConfig where
  alarmCount : UInt64
  reloadCount : UInt64
  autoReloadOnAlarm : Bool
  deriving DecidableEq

/-- The states of a driver timer. -/
inductive GptimerFsm
  | init
  | enabled
  | running
  deriving DecidableEq

/-- The driver calls, on a driver state. `NULL` is an absent handle; `newTimer` takes what
`*ret_timer` holds and returns what it holds then. -/
structure GptimerDriver (δ Handle Callbacks Ptr : Type*) where
  newTimer : GptimerConfig → Option Handle → δ → EspErrT × Option Handle × δ
  registerEventCallbacks : Option Handle → Callbacks → Option Ptr → δ → EspErrT × δ
  setAlarmAction : Option Handle → GptimerAlarmConfig → δ → EspErrT × δ
  enable : Option Handle → δ → EspErrT × δ
  start : Option Handle → δ → EspErrT × δ
  disable : Option Handle → δ → EspErrT × δ
  delTimer : Option Handle → δ → EspErrT × δ

section Lawful

variable {δ Handle Callbacks Ptr : Type*} [DecidableEq Handle]

/-- What the calls do to the timers that the driver has: a new timer is in `init`, and a call that
fails changes no timer. -/
structure GptimerDriver.Lawful (driver : GptimerDriver δ Handle Callbacks Ptr)
    (fsm : δ → Handle → Option GptimerFsm) : Prop where
  newTimer_ok (config : GptimerConfig) (out : Option Handle) (d : δ) :
    (driver.newTimer config out d).1 = .ok → ∃ h, (driver.newTimer config out d).2.1 = some h ∧
      fsm d h = none ∧ fsm (driver.newTimer config out d).2.2 = update (fsm d) h (some .init)
  newTimer_error (config : GptimerConfig) (out : Option Handle) (d : δ) :
    (driver.newTimer config out d).1 ≠ .ok → (driver.newTimer config out d).2.1 = out ∧
      fsm (driver.newTimer config out d).2.2 = fsm d
  registerEventCallbacks (h : Handle) (callbacks : Callbacks) (userData : Option Ptr) (d : δ) :
    fsm (driver.registerEventCallbacks (some h) callbacks userData d).2 = fsm d
  setAlarmAction (h : Handle) (config : GptimerAlarmConfig) (d : δ) :
    fsm (driver.setAlarmAction (some h) config d).2 = fsm d
  enable (h : Handle) (d : δ) : fsm d h = some .init →
    fsm (driver.enable (some h) d).2 =
      if (driver.enable (some h) d).1 = .ok then update (fsm d) h (some .enabled) else fsm d
  start (h : Handle) (d : δ) : fsm d h = some .enabled →
    fsm (driver.start (some h) d).2 =
      if (driver.start (some h) d).1 = .ok then update (fsm d) h (some .running) else fsm d
  disable (h : Handle) (d : δ) : fsm d h = some .init ∨ fsm d h = some .enabled →
    fsm (driver.disable (some h) d).2 = update (fsm d) h (some .init)
  delTimer (h : Handle) (d : δ) : ((driver.delTimer (some h) d).1 = .ok ↔ fsm d h = some .init) ∧
    fsm (driver.delTimer (some h) d).2 =
      if (driver.delTimer (some h) d).1 = .ok then update (fsm d) h none else fsm d

end Lawful

/-! ## A driver with four timers -/

/-- Four hardware timers, and the errors that the next driver calls meet. -/
structure ScriptedGptimers where
  fsm : Fin 4 → Option GptimerFsm
  outcomes : List EspErrT

namespace ScriptedGptimers

/-- What the next call meets, which is nothing behind the end of the script. -/
def outcome (d : ScriptedGptimers) : EspErrT := d.outcomes.headD .ok

def next (d : ScriptedGptimers) : ScriptedGptimers := { d with outcomes := d.outcomes.tail }

/-- A call that fails when the script says so. -/
def scripted (call : ScriptedGptimers → EspErrT × ScriptedGptimers) (d : ScriptedGptimers) :
    EspErrT × ScriptedGptimers :=
  if d.outcome = .ok then call d.next else (d.outcome, d.next)

/-- A call that needs a handle only. -/
def onHandle (timer : Option (Fin 4)) (d : ScriptedGptimers) : EspErrT × ScriptedGptimers :=
  (if timer.isSome then .ok else .invalidArg, d)

/-- A call that takes a timer from one state to another. -/
def move (source : GptimerFsm) (target : Option GptimerFsm) (timer : Option (Fin 4))
    (d : ScriptedGptimers) : EspErrT × ScriptedGptimers :=
  match timer with
  | none => (.invalidArg, d)
  | some h =>
    if d.fsm h = some source then (.ok, { d with fsm := update d.fsm h target })
    else (.invalidState, d)

/-- The first timer that is not in use. -/
def newTimer (out : Option (Fin 4)) (d : ScriptedGptimers) :
    EspErrT × Option (Fin 4) × ScriptedGptimers :=
  if d.outcome = .ok then
    match (List.finRange 4).find? fun h => d.fsm h = none with
    | none => (.notFound, out, d.next)
    | some h => (.ok, some h, { d.next with fsm := update d.fsm h (some .init) })
  else (d.outcome, out, d.next)

/-- Starts of timers fail as the script says, and `disable` and `del_timer` only in the wrong
state. -/
def driver (Callbacks Ptr : Type*) :
    GptimerDriver ScriptedGptimers (Fin 4) Callbacks Ptr where
  newTimer _ := newTimer
  registerEventCallbacks timer _ _ := scripted (onHandle timer)
  setAlarmAction timer _ := scripted (onHandle timer)
  enable timer := scripted (move .init (some .enabled) timer)
  start timer := scripted (move .enabled (some .running) timer)
  disable := move .enabled (some .init)
  delTimer := move .init none

theorem fsm_onHandle (timer : Option (Fin 4)) (d : ScriptedGptimers) :
    (scripted (onHandle timer) d).2.fsm = d.fsm := by
  unfold scripted
  split_ifs <;> rfl

theorem move_of_source {source : GptimerFsm} (target : Option GptimerFsm) {h : Fin 4}
    {d : ScriptedGptimers} (hsource : d.fsm h = some source) :
    move source target (some h) d = (.ok, { d with fsm := update d.fsm h target }) := if_pos hsource

theorem move_of_ne {source : GptimerFsm} (target : Option GptimerFsm) {h : Fin 4}
    {d : ScriptedGptimers} (hsource : d.fsm h ≠ some source) :
    move source target (some h) d = (.invalidState, d) := if_neg hsource

theorem fsm_scripted_move {source : GptimerFsm} (target : Option GptimerFsm) {h : Fin 4}
    {d : ScriptedGptimers} (hsource : d.fsm h = some source) :
    (scripted (move source target (some h)) d).2.fsm =
      if (scripted (move source target (some h)) d).1 = .ok then update d.fsm h target
      else d.fsm := by
  have hmove : move source target (some h) d.next =
      (.ok, { d.next with fsm := update d.fsm h target }) := move_of_source target hsource
  by_cases hok : d.outcome = .ok
  · simp [scripted, hok, hmove]
  · simp [scripted, hok, next]

theorem newTimer_error {out : Option (Fin 4)} {d : ScriptedGptimers}
    (herr : (newTimer out d).1 ≠ .ok) :
    (newTimer out d).2.1 = out ∧ (newTimer out d).2.2.fsm = d.fsm := by
  unfold newTimer at herr ⊢
  split_ifs at herr ⊢
  · split at herr
    · exact ⟨rfl, rfl⟩
    · exact absurd rfl herr
  · exact ⟨rfl, rfl⟩

theorem newTimer_ok {out : Option (Fin 4)} {d : ScriptedGptimers}
    (hok : (newTimer out d).1 = .ok) :
    ∃ h, (newTimer out d).2.1 = some h ∧ d.fsm h = none ∧
      (newTimer out d).2.2.fsm = update d.fsm h (some .init) := by
  unfold newTimer at hok ⊢
  split_ifs at hok ⊢ with houtcome
  · cases hfind : (List.finRange 4).find? fun h => d.fsm h = none with
    | none =>
      rw [hfind] at hok
      exact absurd hok (show EspErrT.notFound ≠ .ok by decide)
    | some h => exact ⟨h, rfl, by simpa using List.find?_some hfind, rfl⟩
  · exact absurd hok houtcome

theorem driver_lawful (Callbacks Ptr : Type*) :
    (driver Callbacks Ptr).Lawful ScriptedGptimers.fsm where
  newTimer_ok _ _ _ := newTimer_ok
  newTimer_error _ _ _ := newTimer_error
  registerEventCallbacks h _ _ d := fsm_onHandle (some h) d
  setAlarmAction h _ d := fsm_onHandle (some h) d
  enable _ _ hinit := fsm_scripted_move (some .enabled) hinit
  start _ _ henabled := fsm_scripted_move (some .running) henabled
  disable h d hd := by
    show (move .enabled (some .init) (some h) d).2.fsm = _
    rcases hd with hinit | henabled
    · rw [move_of_ne _ (by simp [hinit]), ← hinit, update_eq_self]
    · rw [move_of_source _ henabled]
  delTimer h d := by
    show ((move .init none (some h) d).1 = .ok ↔ _) ∧ (move .init none (some h) d).2.fsm =
      if (move .init none (some h) d).1 = .ok then _ else _
    by_cases hinit : d.fsm h = some .init
    · rw [move_of_source _ hinit]
      exact ⟨iff_of_true rfl hinit, (if_pos rfl).symm⟩
    · have herr : EspErrT.invalidState ≠ .ok := by decide
      rw [move_of_ne _ hinit]
      exact ⟨iff_of_false herr hinit, (if_neg herr).symm⟩

end ScriptedGptimers

/-! ## What a driver keeps of the callbacks -/

section Registers

variable {δ Handle Callbacks Ptr : Type*}

/-- A registration is kept, with its context, by the calls that follow it in a start. -/
structure GptimerDriver.Registers (driver : GptimerDriver δ Handle Callbacks Ptr)
    (registered : δ → Handle → Option (Callbacks × Option Ptr)) : Prop where
  registerEventCallbacks (h : Handle) (callbacks : Callbacks) (userData : Option Ptr) (d : δ) :
    (driver.registerEventCallbacks (some h) callbacks userData d).1 = .ok →
      registered (driver.registerEventCallbacks (some h) callbacks userData d).2 h =
        some (callbacks, userData)
  setAlarmAction (h : Handle) (config : GptimerAlarmConfig) (d : δ) :
    registered (driver.setAlarmAction (some h) config d).2 h = registered d h
  enable (h : Handle) (d : δ) : registered (driver.enable (some h) d).2 h = registered d h
  start (h : Handle) (d : δ) : registered (driver.start (some h) d).2 h = registered d h

variable [DecidableEq Handle]

/-- A driver that writes down what is registered. -/
def GptimerDriver.recording (driver : GptimerDriver δ Handle Callbacks Ptr) :
    GptimerDriver (δ × (Handle → Option (Callbacks × Option Ptr))) Handle Callbacks Ptr where
  newTimer config out d :=
    let (err, timer, d') := driver.newTimer config out d.1
    (err, timer, d', d.2)
  registerEventCallbacks timer callbacks userData d :=
    let (err, d') := driver.registerEventCallbacks timer callbacks userData d.1
    match timer with
    | some h => (err, d', if err = .ok then update d.2 h (some (callbacks, userData)) else d.2)
    | none => (err, d', d.2)
  setAlarmAction timer config d := (driver.setAlarmAction timer config d.1).map id (·, d.2)
  enable timer d := (driver.enable timer d.1).map id (·, d.2)
  start timer d := (driver.start timer d.1).map id (·, d.2)
  disable timer d := (driver.disable timer d.1).map id (·, d.2)
  delTimer timer d := (driver.delTimer timer d.1).map id (·, d.2)

theorem GptimerDriver.Lawful.recording {driver : GptimerDriver δ Handle Callbacks Ptr}
    {fsm : δ → Handle → Option GptimerFsm} (hd : driver.Lawful fsm) :
    driver.recording.Lawful fun d => fsm d.1 where
  newTimer_ok config out d := hd.newTimer_ok config out d.1
  newTimer_error config out d := hd.newTimer_error config out d.1
  registerEventCallbacks h callbacks userData d :=
    hd.registerEventCallbacks h callbacks userData d.1
  setAlarmAction h config d := hd.setAlarmAction h config d.1
  enable h d := hd.enable h d.1
  start h d := hd.start h d.1
  disable h d := hd.disable h d.1
  delTimer h d := hd.delTimer h d.1

theorem GptimerDriver.registers_recording (driver : GptimerDriver δ Handle Callbacks Ptr) :
    driver.recording.Registers Prod.snd where
  registerEventCallbacks h callbacks userData d hok := by
    have herr : (driver.registerEventCallbacks (some h) callbacks userData d.1).1 = .ok := hok
    simp [GptimerDriver.recording, herr]
  setAlarmAction _ _ _ := rfl
  enable _ _ := rfl
  start _ _ := rfl

end Registers

end EmbeddedInsDaq
