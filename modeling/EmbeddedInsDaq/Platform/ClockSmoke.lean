import EmbeddedInsDaq.Lib.Attempts
import EmbeddedInsDaq.Lib.Runs
import EmbeddedInsDaq.Platform.Gptimer
import Mathlib.Logic.ExistsUnique

/-!
# The ISR smoke timer

`clock_smoke.c`: a start that creates a driver timer and takes it through four more driver calls,
each of which may fail, with one cleanup path behind them all. Whatever fails, and in whatever order
starts follow each other, there is either one running timer that `s_isr_smoke_timer` holds, or none
(`start_isr_all_or_nothing`).
-/

namespace EmbeddedInsDaq

open Attempts Function

/-- `clock_smoke_isr_state_t`. -/
structure ClockSmokeIsrState where
  isrSampleCount : UInt32
  lastIsrTimestampUs : UInt64
  deriving DecidableEq

/-- No samples yet. -/
def ClockSmokeIsrState.cleared : ClockSmokeIsrState where
  isrSampleCount := 0
  lastIsrTimestampUs := 0

/-- `gptimer_event_callbacks_t`. The callback takes what `clock_now_isr` returns, its user context
and the memory; it returns whether a task was woken, and the memory. -/
structure GptimerEventCallbacks (Ptr : Type*) where
  onAlarm : UInt64 → Option Ptr → (Ptr → ClockSmokeIsrState) → Bool × (Ptr → ClockSmokeIsrState)

/-- The static variables of `clock_smoke.c`, the objects that state pointers point to, and the
driver. -/
structure ClockSmoke (δ Handle Ptr : Type*) where
  isrSmokeTimer : Option Handle
  isrSmokeState : Option Ptr
  memory : Ptr → ClockSmokeIsrState
  driver : δ

namespace ClockSmoke

variable {δ Handle Ptr : Type*} {fsm : δ → Handle → Option GptimerFsm}

/-! ## The start -/

/-- `kClockIsrSmokePeriodUs`. -/
def kClockIsrSmokePeriodUs : UInt32 := 100000

/-- `timer_config`. -/
def timerConfig : GptimerConfig where
  clkSrc := .default
  direction := .up
  resolutionHz := 1000000
  intrPriority := 0
  intrShared := false
  allowPd := false

/-- `alarm_config`. -/
def alarmConfig : GptimerAlarmConfig where
  alarmCount := kClockIsrSmokePeriodUs.toUInt64
  reloadCount := 0
  autoReloadOnAlarm := true

section Code

variable [DecidableEq Ptr]

/-- `clock_smoke_alarm_cb`. -/
def alarmCb (nowUs : UInt64) (userCtx : Option Ptr) (memory : Ptr → ClockSmokeIsrState) :
    Bool × (Ptr → ClockSmokeIsrState) :=
  match userCtx with
  | none => (false, memory)
  | some state =>
    (false, update memory state
      { lastIsrTimestampUs := nowUs, isrSampleCount := (memory state).isrSampleCount + 1 })

/-- `callbacks`. -/
def callbacks : GptimerEventCallbacks Ptr where
  onAlarm := alarmCb

variable (driver : GptimerDriver δ Handle (GptimerEventCallbacks Ptr) Ptr)

/-- The driver calls of a start behind the one that creates the timer. -/
def driverCalls (timer : Option Handle) (state : Option Ptr) : List (δ → EspErrT × δ) :=
  [driver.registerEventCallbacks timer callbacks state, driver.setAlarmAction timer alarmConfig,
    driver.enable timer, driver.start timer]

/-- What stands behind `fail:`. -/
def cleanup (clock : ClockSmoke δ Handle Ptr) : ClockSmoke δ Handle Ptr :=
  match clock.isrSmokeTimer with
  | none => clock
  | some h =>
    let d := (driver.disable (some h) clock.driver).2
    { clock with driver := (driver.delTimer (some h) d).2, isrSmokeTimer := none }

/-- `clock_smoke_start_isr`. -/
def startIsr (state : Option Ptr) (clock : ClockSmoke δ Handle Ptr) :
    EspErrT × ClockSmoke δ Handle Ptr :=
  match state with
  | none => (.invalidArg, clock)
  | some p =>
    if clock.isrSmokeTimer.isSome then (.invalidState, clock)
    else
      let clock := { clock with
        memory := update clock.memory p .cleared
        isrSmokeState := some p }
      let (err, timer, d) := driver.newTimer timerConfig clock.isrSmokeTimer clock.driver
      let clock := { clock with isrSmokeTimer := timer, driver := d }
      if err ≠ .ok then (err, clock) -- `ESP_RETURN_ON_ERROR`, past the cleanup
      else
        let (err, d) := untilError .ok (driverCalls driver clock.isrSmokeTimer clock.isrSmokeState)
          clock.driver
        let clock := { clock with driver := d }
        if err ≠ .ok then (err, cleanup driver clock) else (.ok, clock)

/-- The five driver calls of a start succeed, one after the other. -/
def DriverSucceeds (p : Ptr) (d : δ) : Prop :=
  (driver.newTimer timerConfig none d).1 = .ok ∧
    AllOk .ok (driverCalls driver (driver.newTimer timerConfig none d).2.1 (some p))
      (driver.newTimer timerConfig none d).2.2

variable {driver} (p : Ptr) {clock : ClockSmoke δ Handle Ptr}

theorem startIsr_of_busy (hbusy : clock.isrSmokeTimer ≠ none) :
    startIsr driver (some p) clock = (.invalidState, clock) :=
  if_pos (Option.isSome_iff_ne_none.mpr hbusy)

theorem startIsr_eq_ok_iff (hfree : clock.isrSmokeTimer = none) :
    (startIsr driver (some p) clock).1 = .ok ↔ DriverSucceeds driver p clock.driver := by
  unfold DriverSucceeds
  rw [← untilError_eq_ok_iff]
  rcases hnew : driver.newTimer timerConfig none clock.driver with ⟨err, timer, d⟩
  by_cases herr : err = .ok
  · by_cases hcalls : (untilError .ok (driverCalls driver timer (some p)) d).1 = .ok
    · simp [startIsr, hfree, hnew, herr, hcalls]
    · simp [startIsr, hfree, hnew, herr, hcalls]
  · simp [startIsr, hfree, hnew, herr]

end Code

/-! ## The timers -/

section Timers

variable [DecidableEq Handle] {others : Handle → Option GptimerFsm}

/-- The driver has the timers in `others`, and one more. -/
def HasTimer (fsm : δ → Handle → Option GptimerFsm) (others : Handle → Option GptimerFsm)
    (h : Handle) (state : GptimerFsm) (d : δ) : Prop :=
  fsm d = update others h (some state)

theorem HasTimer.fsm_self {h : Handle} {state : GptimerFsm} {d : δ}
    (hd : HasTimer fsm others h state d) : fsm d h = some state := by
  rw [HasTimer] at hd
  rw [hd, update_self]

theorem HasTimer.update {h : Handle} {state : GptimerFsm} {d : δ}
    (hd : HasTimer fsm others h state d) (entry : Option GptimerFsm) :
    Function.update (fsm d) h entry = Function.update others h entry := by
  rw [HasTimer] at hd
  rw [hd, update_idem]

theorem HasTimer.moved {h : Handle} {state state' : GptimerFsm} {d d' : δ} {err : EspErrT}
    (hd : HasTimer fsm others h state d)
    (hmove : fsm d' = if err = .ok then Function.update (fsm d) h (some state') else fsm d)
    (hok : err = .ok) : HasTimer fsm others h state' d' := by
  rw [if_pos hok, hd.update] at hmove
  exact hmove

theorem HasTimer.kept {h : Handle} {state state' : GptimerFsm} {d d' : δ} {err : EspErrT}
    (hd : HasTimer fsm others h state d)
    (hmove : fsm d' = if err = .ok then Function.update (fsm d) h (some state') else fsm d)
    (herr : err ≠ .ok) : HasTimer fsm others h state d' := by
  rw [if_neg herr] at hmove
  exact hmove.trans hd

/-- The driver has the timers in `others`, and the one that is held is running. -/
def AllOrNothing (fsm : δ → Handle → Option GptimerFsm) (others : Handle → Option GptimerFsm)
    (clock : ClockSmoke δ Handle Ptr) : Prop :=
  match clock.isrSmokeTimer with
  | none => fsm clock.driver = others
  | some h => others h = none ∧ HasTimer fsm others h .running clock.driver

theorem allOrNothing_iff_of_free {clock : ClockSmoke δ Handle Ptr}
    (hfree : clock.isrSmokeTimer = none) :
    AllOrNothing fsm others clock ↔ fsm clock.driver = others := by
  simp only [AllOrNothing, hfree]

theorem allOrNothing_iff_of_held {clock : ClockSmoke δ Handle Ptr} {h : Handle}
    (hheld : clock.isrSmokeTimer = some h) :
    AllOrNothing fsm others clock ↔
      others h = none ∧ HasTimer fsm others h .running clock.driver := by
  simp only [AllOrNothing, hheld]

section Alone

variable {clock : ClockSmoke δ Handle Ptr} (h : AllOrNothing fsm (fun _ => none) clock)
include h

theorem AllOrNothing.running_of_ne {timer : Handle} (htimer : fsm clock.driver timer ≠ none) :
    clock.isrSmokeTimer = some timer ∧ fsm clock.driver timer = some .running := by
  cases hheld : clock.isrSmokeTimer with
  | none =>
    rw [allOrNothing_iff_of_free hheld] at h
    exact absurd (congrFun h timer) htimer
  | some held =>
    rw [allOrNothing_iff_of_held hheld] at h
    by_cases heq : timer = held
    · subst heq
      exact ⟨rfl, h.2.fsm_self⟩
    · have hfsm := congrFun h.2 timer
      rw [update_of_ne heq] at hfsm
      exact absurd hfsm htimer

theorem AllOrNothing.held_iff :
    clock.isrSmokeTimer ≠ none ↔ ∃! timer, fsm clock.driver timer ≠ none := by
  constructor
  · intro hheld
    obtain ⟨held, hheld⟩ := Option.ne_none_iff_exists'.mp hheld
    have hrunning := ((allOrNothing_iff_of_held hheld).mp h).2
    refine ⟨held, by simp [hrunning.fsm_self], fun timer htimer => ?_⟩
    have := (h.running_of_ne htimer).1
    rw [hheld] at this
    exact (Option.some.inj this).symm
  · rintro ⟨timer, htimer, -⟩
    simp [(h.running_of_ne htimer).1]

end Alone

end Timers

/-! ## What a start does -/

variable [DecidableEq Handle] {driver : GptimerDriver δ Handle (GptimerEventCallbacks Ptr) Ptr}
  {others : Handle → Option GptimerFsm} {h : Handle}

/-- The timer is new, or was taken as far as the driver calls get that do not all succeed. -/
def Unfinished (fsm : δ → Handle → Option GptimerFsm) (others : Handle → Option GptimerFsm)
    (h : Handle) (d : δ) : Prop :=
  HasTimer fsm others h .init d ∨ HasTimer fsm others h .enabled d

/-- The cleanup undoes what the calls did before one failed. -/
theorem fsm_cleanup (hd : driver.Lawful fsm) {clock : ClockSmoke δ Handle Ptr}
    (htimer : clock.isrSmokeTimer = some h) (hfresh : others h = none)
    (hbroken : Unfinished fsm others h clock.driver) :
    fsm (cleanup driver clock).driver = others := by
  have hinit : HasTimer fsm others h .init (driver.disable (some h) clock.driver).2 := by
    rcases hbroken with hinit | henabled
    · exact (hd.disable h _ (.inl hinit.fsm_self)).trans (hinit.update _)
    · exact (hd.disable h _ (.inr henabled.fsm_self)).trans (henabled.update _)
  obtain ⟨hok, hdel⟩ := hd.delTimer h (driver.disable (some h) clock.driver).2
  rw [if_pos (hok.mpr hinit.fsm_self), hinit.update, ← hfresh, update_eq_self] at hdel
  simp only [cleanup, htimer]
  exact hdel

variable [DecidableEq Ptr]

/-- The driver calls take a new timer to `running`, and leave it on the way when one fails. -/
theorem driverCalls_stages (hd : driver.Lawful fsm) (state : Option Ptr) :
    Stages .ok (Unfinished fsm others h) (HasTimer fsm others h .init)
      (driverCalls driver (some h) state) (HasTimer fsm others h .running) := by
  have hregister : ∀ d, HasTimer fsm others h .init d →
      HasTimer fsm others h .init (driver.registerEventCallbacks (some h) callbacks state d).2 :=
    fun d hinit => (hd.registerEventCallbacks h callbacks state d).trans hinit
  have halarm : ∀ d, HasTimer fsm others h .init d →
      HasTimer fsm others h .init (driver.setAlarmAction (some h) alarmConfig d).2 :=
    fun d hinit => (hd.setAlarmAction h alarmConfig d).trans hinit
  have henable (d : δ) (hinit : HasTimer fsm others h .init d) := hd.enable h d hinit.fsm_self
  have hstart (d : δ) (henabled : HasTimer fsm others h .enabled d) :=
    hd.start h d henabled.fsm_self
  refine .cons (fun d hinit _ => hregister d hinit) (fun d hinit _ => .inl (hregister d hinit)) ?_
  refine .cons (fun d hinit _ => halarm d hinit) (fun d hinit _ => .inl (halarm d hinit)) ?_
  refine .cons (fun d hinit hok => hinit.moved (henable d hinit) hok)
    (fun d hinit herr => .inl (hinit.kept (henable d hinit) herr)) ?_
  exact .cons (fun d henabled hok => henabled.moved (hstart d henabled) hok)
    (fun d henabled herr => .inr (henabled.kept (hstart d henabled) herr)) .nil

/-- The start has cleared the object that it was given, and no other. -/
structure Cleared (clock : ClockSmoke δ Handle Ptr) (p : Ptr) (clock' : ClockSmoke δ Handle Ptr) :
    Prop where
  state : clock'.isrSmokeState = some p
  memory : clock'.memory = update clock.memory p .cleared

/-- What a start returns and leaves. -/
inductive StartEffect (fsm : δ → Handle → Option GptimerFsm) (clock : ClockSmoke δ Handle Ptr) :
    Option Ptr → EspErrT → ClockSmoke δ Handle Ptr → Prop
  | nullArg : StartEffect fsm clock none .invalidArg clock
  | busy {p : Ptr} (hbusy : clock.isrSmokeTimer ≠ none) :
      StartEffect fsm clock (some p) .invalidState clock
  | failed {p : Ptr} {err : EspErrT} {clock' : ClockSmoke δ Handle Ptr}
      (hfree : clock.isrSmokeTimer = none) (herr : err ≠ .ok) (hcleared : Cleared clock p clock')
      (htimer : clock'.isrSmokeTimer = none) (hfsm : fsm clock'.driver = fsm clock.driver) :
      StartEffect fsm clock (some p) err clock'
  | started {p : Ptr} {h : Handle} {clock' : ClockSmoke δ Handle Ptr}
      (hfree : clock.isrSmokeTimer = none) (hfresh : fsm clock.driver h = none)
      (hcleared : Cleared clock p clock') (htimer : clock'.isrSmokeTimer = some h)
      (hfsm : HasTimer fsm (fsm clock.driver) h .running clock'.driver) :
      StartEffect fsm clock (some p) .ok clock'

theorem startIsr_effect_of_free (hd : driver.Lawful fsm) (p : Ptr)
    {clock : ClockSmoke δ Handle Ptr} (hfree : clock.isrSmokeTimer = none) :
    StartEffect fsm clock (some p) (startIsr driver (some p) clock).1
      (startIsr driver (some p) clock).2 := by
  have hok := hd.newTimer_ok timerConfig none clock.driver
  have herror := hd.newTimer_error timerConfig none clock.driver
  rcases hnew : driver.newTimer timerConfig none clock.driver with ⟨err, timer, d⟩
  rw [hnew] at hok herror
  by_cases herr : err = .ok
  · obtain ⟨h, rfl, hfresh, hinit⟩ := hok herr
    have hcalls := (driverCalls_stages hd (some p)).untilError hinit
    dsimp only at hcalls
    rcases hrun : untilError .ok (driverCalls driver (some h) (some p)) d with ⟨err', d'⟩
    rw [hrun] at hcalls
    rcases hcalls with ⟨herr', hrunning⟩ | ⟨herr', hbroken⟩
    · have hstart : startIsr driver (some p) clock = (.ok,
          { isrSmokeTimer := some h, isrSmokeState := some p, driver := d'
            memory := update clock.memory p .cleared }) := by
        simp [startIsr, hfree, hnew, herr, hrun, herr']
      rw [hstart]
      exact .started hfree hfresh ⟨rfl, rfl⟩ rfl hrunning
    · have hstart : startIsr driver (some p) clock = (err', cleanup driver
          { isrSmokeTimer := some h, isrSmokeState := some p, driver := d'
            memory := update clock.memory p .cleared }) := by
        simp [startIsr, hfree, hnew, herr, hrun, herr']
      rw [hstart]
      exact .failed hfree herr' ⟨rfl, rfl⟩ rfl (fsm_cleanup hd rfl hfresh hbroken)
  · obtain ⟨rfl, hfsm⟩ := herror herr
    have hstart : startIsr driver (some p) clock = (err,
        { isrSmokeTimer := none, isrSmokeState := some p, driver := d
          memory := update clock.memory p .cleared }) := by
      simp [startIsr, hfree, hnew, herr]
    rw [hstart]
    exact .failed hfree herr ⟨rfl, rfl⟩ rfl hfsm

theorem StartEffect.of_error {clock clock' : ClockSmoke δ Handle Ptr} {state : Option Ptr}
    {err : EspErrT} (he : StartEffect fsm clock state err clock')
    (hfree : clock.isrSmokeTimer = none) (herr : err ≠ .ok) :
    clock'.isrSmokeTimer = none ∧ fsm clock'.driver = fsm clock.driver := by
  cases he with
  | nullArg => exact ⟨hfree, rfl⟩
  | busy hbusy => exact absurd hfree hbusy
  | failed _ _ _ htimer hfsm => exact ⟨htimer, hfsm⟩
  | started => exact absurd rfl herr

theorem StartEffect.of_ok {clock clock' : ClockSmoke δ Handle Ptr} {state : Option Ptr}
    {err : EspErrT} (he : StartEffect fsm clock state err clock') (hok : err = .ok) :
    ∃ h, clock'.isrSmokeTimer = some h ∧ fsm clock'.driver h = some .running := by
  cases he with
  | nullArg => exact absurd hok (by decide)
  | busy => exact absurd hok (by decide)
  | failed _ herr => exact absurd hok herr
  | started _ _ _ htimer hfsm => exact ⟨_, htimer, hfsm.fsm_self⟩

/-- **One start.** It refuses, fails and leaves the timers as they were, or adds a running one. -/
theorem startIsr_effect (hd : driver.Lawful fsm) (state : Option Ptr)
    (clock : ClockSmoke δ Handle Ptr) :
    StartEffect fsm clock state (startIsr driver state clock).1
      (startIsr driver state clock).2 := by
  cases state with
  | none => exact .nullArg
  | some p =>
    by_cases hfree : clock.isrSmokeTimer = none
    · exact startIsr_effect_of_free hd p hfree
    · rw [startIsr_of_busy p hfree]
      exact .busy hfree

/-! ## Runs -/

/-- A start, or an alarm: the driver runs the callback on some context at some time. -/
inductive Op (Ptr : Type*)
  | startIsr (state : Option Ptr)
  | alarm (userCtx : Option Ptr) (nowUs : UInt64)

/-- What an operation returns. -/
inductive Ret
  | err (e : EspErrT)
  | bool (b : Bool)

variable (driver) in
/-- One operation. -/
def step (clock : ClockSmoke δ Handle Ptr) : Op Ptr → Ret × ClockSmoke δ Handle Ptr
  | .startIsr state =>
    let (err, clock) := startIsr driver state clock
    (.err err, clock)
  | .alarm userCtx nowUs =>
    let (woken, memory) := callbacks.onAlarm nowUs userCtx clock.memory
    (.bool woken, { clock with memory := memory })

/-- The static variables before the first call. -/
def boot (memory : Ptr → ClockSmokeIsrState) (d : δ) : ClockSmoke δ Handle Ptr where
  isrSmokeTimer := none
  isrSmokeState := none
  memory := memory
  driver := d

variable (driver) in
/-- The state after a sequence of operations, from boot. -/
def runFrom (memory : Ptr → ClockSmokeIsrState) (d : δ) (ops : List (Op Ptr)) :
    ClockSmoke δ Handle Ptr :=
  Machine.run (step driver) (boot memory d) ops

theorem StartEffect.allOrNothing {clock clock' : ClockSmoke δ Handle Ptr} {state : Option Ptr}
    {err : EspErrT} (he : StartEffect fsm clock state err clock')
    (h : AllOrNothing fsm others clock) : AllOrNothing fsm others clock' := by
  cases he with
  | nullArg => exact h
  | busy => exact h
  | failed hfree _ _ htimer hfsm =>
    rw [allOrNothing_iff_of_free hfree] at h
    exact (allOrNothing_iff_of_free htimer).mpr (hfsm.trans h)
  | started hfree hfresh _ htimer hfsm =>
    rw [allOrNothing_iff_of_free hfree] at h
    rw [h] at hfresh hfsm
    exact (allOrNothing_iff_of_held htimer).mpr ⟨hfresh, hfsm⟩

theorem allOrNothing_step (hd : driver.Lawful fsm) (clock : ClockSmoke δ Handle Ptr) (op : Op Ptr)
    (h : AllOrNothing fsm others clock) : AllOrNothing fsm others (step driver clock op).2 := by
  cases op with
  | startIsr state => exact (startIsr_effect hd state clock).allOrNothing h
  | alarm userCtx nowUs => exact h

theorem allOrNothing_runFrom (hd : driver.Lawful fsm) (memory : Ptr → ClockSmokeIsrState) (d : δ)
    (ops : List (Op Ptr)) : AllOrNothing fsm (fsm d) (runFrom driver memory d ops) := by
  have hboot : AllOrNothing fsm (fsm d) (boot memory d : ClockSmoke δ Handle Ptr) := rfl
  exact Machine.run_invariant (allOrNothing_step hd) hboot ops

/-- **All or nothing.** Whichever driver calls fail, in any sequence of starts with any alarms
between them: a timer is held exactly if the driver has one, and that one is running; a start that
succeeds leaves a running one, and one that finds none and fails leaves none; one that finds none
succeeds exactly if the driver calls do; and one that is made while the timer runs is refused and
changes nothing. -/
theorem start_isr_all_or_nothing (hd : driver.Lawful fsm) {d : δ} (hnone : ∀ h, fsm d h = none)
    (memory : Ptr → ClockSmokeIsrState) (ops : List (Op Ptr)) :
    let clock := runFrom driver memory d ops
    (clock.isrSmokeTimer ≠ none ↔ ∃! h, fsm clock.driver h ≠ none) ∧
    (∀ h, fsm clock.driver h ≠ none →
      clock.isrSmokeTimer = some h ∧ fsm clock.driver h = some .running) ∧
    (∀ state, (startIsr driver state clock).1 = .ok →
      ∃ h, (startIsr driver state clock).2.isrSmokeTimer = some h ∧
        fsm (startIsr driver state clock).2.driver h = some .running) ∧
    (clock.isrSmokeTimer = none → ∀ state, (startIsr driver state clock).1 ≠ .ok →
      (startIsr driver state clock).2.isrSmokeTimer = none ∧
        ∀ h, fsm (startIsr driver state clock).2.driver h = none) ∧
    (clock.isrSmokeTimer = none → ∀ p,
      ((startIsr driver (some p) clock).1 = .ok ↔ DriverSucceeds driver p clock.driver)) ∧
    ((∃ h, fsm clock.driver h = some .running) → ∀ p,
      startIsr driver (some p) clock = (.invalidState, clock)) := by
  intro clock
  have h : AllOrNothing fsm (fun _ => none) clock := by
    have := allOrNothing_runFrom hd memory d ops
    rwa [funext hnone] at this
  refine ⟨h.held_iff, fun _ => h.running_of_ne,
    fun state hok => (startIsr_effect hd state clock).of_ok hok, ?_,
    fun hfree p => startIsr_eq_ok_iff p hfree, ?_⟩
  · intro hfree state herr
    obtain ⟨htimer, hfsm⟩ := (startIsr_effect hd state clock).of_error hfree herr
    refine ⟨htimer, fun timer => ?_⟩
    rw [hfsm]
    exact congrFun ((allOrNothing_iff_of_free hfree).mp h) timer
  · rintro ⟨timer, hrunning⟩ p
    have htimer : fsm clock.driver timer ≠ none := by simp [hrunning]
    exact startIsr_of_busy p (by simp [(h.running_of_ne htimer).1])

/-- The last driver call of the first start fails, and the second start succeeds. -/
theorem start_isr_all_or_nothing_retry :
    let clock := runFrom (ScriptedGptimers.driver _ ℕ) (fun _ => .cleared)
      ⟨fun _ => none, [.ok, .ok, .ok, .ok, .invalidState]⟩ [.startIsr (some 1), .startIsr (some 2)]
    clock.isrSmokeTimer = some 0 ∧ ∃! h, clock.driver.fsm h ≠ none := by
  intro clock
  have hheld : clock.isrSmokeTimer = some 0 := by decide
  have hnone : ∀ h, (ScriptedGptimers.fsm ⟨fun _ => none, [.ok, .ok, .ok, .ok, .invalidState]⟩) h =
      none := fun _ => rfl
  have hall := start_isr_all_or_nothing (ScriptedGptimers.driver_lawful _ ℕ) hnone
    (fun _ => .cleared) [.startIsr (some 1), .startIsr (some 2)]
  have hne : clock.isrSmokeTimer ≠ none := by simp [hheld]
  exact ⟨hheld, hall.1.mp hne⟩

end ClockSmoke

end EmbeddedInsDaq
