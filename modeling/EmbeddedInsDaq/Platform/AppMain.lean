import EmbeddedInsDaq.Control.RuntimeConfig
import EmbeddedInsDaq.Platform.ClockProbe
import EmbeddedInsDaq.Platform.IsrSampling

/-!
# The boot of the firmware

`app_main`: the checks that abort, the clock smoke test with the alarms of its timer coming in
between, and the lines that it logs. A `READY` line for the platform says no more than that nothing
aborted; the one for the clock says that the clock has not stepped back and that the interrupt has
sampled often enough by some attempt (`app_main_ready`), which is three alarms by the last one
(`app_main_ready_clock`).
-/

namespace EmbeddedInsDaq

open Function RuntimeConfig

/-! ## The log -/

/-- `esp_log_level_t`, as far as it is used. -/
inductive EspLogLevel
  | error
  | info
  deriving DecidableEq

/-- The lines that a boot logs. -/
inductive LogLine
  | configInvalid (error : RuntimeConfigError)
  | backendReady
  | board
  | console
  | freeHeap (bytes : ℕ)
  | probeFailed
  | probePassed (lastSampleUs : UInt64)
  | isrPassed (isrSamples : UInt32) (lastIsrUs : UInt64)
  | isrTimedOut (isrSamples : UInt32)
  | smokeFailed
  | ready (caseName : String)
  deriving DecidableEq

/-- `runtime_config_error_message`. -/
def runtimeConfigErrorMessage : RuntimeConfigError → String
  | .none => "runtime config is valid"
  | .nullConfig => "runtime config pointer is null"
  | .noEnabledPorts => "runtime config must enable at least one port"
  | .baudRateInvalid => "runtime config baud rate must be positive"
  | .timingModeInvalid => "runtime config timing mode is invalid"
  | .syncEdgeModeInvalid => "runtime config sync edge mode is invalid"
  | .triggerPulseWidthInvalid =>
    "runtime trigger pulse width must be non-zero and less than its period"

/-- `clock_backend_name`. -/
def clockBackendName : String := "esp_timer_systimer_us"

/-- `board_name`. -/
def boardName : String := "LogDAQ"

/-- `board_console_path_name`. -/
def boardConsolePathName : String := "usb-uart"

/-- The level, the tag and the text of a line. -/
def LogLine.render : LogLine → EspLogLevel × String × String
  | .configInvalid error => (.error, "embedded_ins_daq",
    "Default runtime config invalid: " ++ runtimeConfigErrorMessage error)
  | .backendReady => (.info, "clock_service", "Clock backend ready: " ++ clockBackendName)
  | .board => (.info, "runtime_banner", "Board: " ++ boardName)
  | .console => (.info, "runtime_banner", "Console: " ++ boardConsolePathName)
  | .freeHeap bytes => (.info, "runtime_banner", "Free heap: " ++ toString bytes ++ " bytes")
  | .probeFailed => (.error, "embedded_ins_daq", "Clock monotonicity probe failed in task context")
  | .probePassed lastSampleUs => (.info, "embedded_ins_daq",
    "Clock monotonicity probe passed: last_sample_us=" ++ toString lastSampleUs)
  | .isrPassed isrSamples lastIsrUs => (.info, "embedded_ins_daq",
    "Clock ISR smoke passed: isr_samples=" ++ toString isrSamples ++ " last_isr_us=" ++
      toString lastIsrUs)
  | .isrTimedOut isrSamples => (.error, "embedded_ins_daq",
    "Clock ISR smoke timed out: isr_samples=" ++ toString isrSamples)
  | .smokeFailed => (.error, "embedded_ins_daq", "Clock monotonicity smoke failed")
  | .ready caseName => (.info, "runtime_banner", "READY: " ++ caseName)

/-! ## What a boot meets -/

/-- Where alarms may come in: before the sample count is read in an attempt, between that read and
the one of the timestamp, and before the samples are logged. -/
inductive BootPoint
  | count (attempt : ℕ)
  | timestamp (attempt : ℕ)
  | message

/-- The readings of `esp_timer_get_time` by the task, one after the other, the alarms of the
driver's timers, and the free heap. -/
structure BootEnv (Handle : Type*) where
  espTimer : ℕ → Int64
  alarms : BootPoint → List (Handle × UInt64)
  freeHeap : ℕ

/-- What `ESP_ERROR_CHECK` aborts with: the status of the config, `ESP_FAIL` of the clock, or the
error of the smoke timer. -/
inductive BootAbort
  | config (err : EspErr)
  | clock
  | timer (err : EspErrT)
  deriving DecidableEq

/-- What is left of a boot. -/
structure BootRun (δ Handle Ptr : Type*) where
  log : List LogLine
  aborted : Option BootAbort
  clock : ClockSmoke δ Handle Ptr

namespace AppMain

variable {δ Handle Ptr : Type*} [DecidableEq Ptr]

/-- `kClockSmokeMaxAttempts`. -/
def kClockSmokeMaxAttempts : ℕ := 20

/-- The samples that `run_clock_monotonicity_smoke` asks for. -/
def monotonicSamples : SizeT .target := 64

/-- The samples that the interrupt has to take. -/
def minimumIsrSamples : UInt32 := 3

/-- `clock_init`: whether it fails, and what it logs. -/
def clockInit (nowUs : Int64) : Bool × List LogLine :=
  if nowUs < 0 then (true, []) else (false, [.backendReady])

/-- `runtime_banner_log_startup`. -/
def logStartup (freeHeap : ℕ) : List LogLine := [.board, .console, .freeHeap freeHeap]

/-- `app_clock_probe_read`, on the number of readings so far. -/
def clockProbeRead (env : BootEnv Handle) (readings : ℕ) : UInt64 × ℕ :=
  ((env.espTimer readings).toUInt64, readings + 1)

section Code

variable (driver : GptimerDriver δ Handle (GptimerEventCallbacks Ptr) Ptr)
  (fsm : δ → Handle → Option GptimerFsm)
  (registered : δ → Handle → Option (GptimerEventCallbacks Ptr × Option Ptr))
  (env : BootEnv Handle) (p : Ptr)

/-- The alarms that come in at a point. -/
def alarmsAt (point : BootPoint) : List (ClockSmoke.SmokeOp Handle Ptr) :=
  (env.alarms point).map fun (timer, nowUs) => .alarm timer nowUs

/-- The boot is interrupted by alarms. -/
def interrupted (point : BootPoint) (clock : ClockSmoke δ Handle Ptr) : ClockSmoke δ Handle Ptr :=
  Machine.run (ClockSmoke.smokeStep driver fsm registered) clock (alarmsAt env point)

/-- The attempts of `run_clock_monotonicity_smoke`. -/
def attemptLoop : ℕ → ℕ → ClockSmoke δ Handle Ptr → Bool × ClockSmoke δ Handle Ptr
  | 0, _, clock => (false, clock)
  | remaining + 1, attempt, clock =>
    let first := interrupted driver fsm registered env (.count attempt) clock
    let second := interrupted driver fsm registered env (.timestamp attempt) first
    if ClockSmoke.isrReady (some p) minimumIsrSamples first.memory second.memory then (true, second)
    else attemptLoop remaining (attempt + 1) second

/-- `run_clock_monotonicity_smoke`. The first reading of the timer was that of `clock_init`. -/
def runClockMonotonicitySmoke (clock : ClockSmoke δ Handle Ptr) :
    Bool × List LogLine × ClockSmoke δ Handle Ptr :=
  let (monotonic, lastSample, _) :=
    ClockProbe.monotonic (some (clockProbeRead env)) 1 monotonicSamples (some 0)
  if !monotonic then (false, [.probeFailed], clock)
  else
    let probePassed := .probePassed (lastSample.getD 0)
    let (passed, clock) := attemptLoop driver fsm registered env p kClockSmokeMaxAttempts 0 clock
    let clock := interrupted driver fsm registered env .message clock
    let state := clock.memory p
    if passed then
      (true, [probePassed, .isrPassed state.isrSampleCount state.lastIsrTimestampUs], clock)
    else (false, [probePassed, .isrTimedOut state.isrSampleCount], clock)

/-- `app_main`, up to where it has started the health task and logged its last line. -/
def appMain (clock : ClockSmoke δ Handle Ptr) : BootRun δ Handle Ptr :=
  let (configStatus, configError) := validate (some default) (some .none)
  if configStatus ≠ .ok then
    { log := [.configInvalid (configError.getD .none)]
      aborted := some (.config configStatus)
      clock := clock }
  else
    let (clockFails, log) := clockInit (env.espTimer 0)
    if clockFails then { log := log, aborted := some .clock, clock := clock }
    else
      let log := log ++ logStartup env.freeHeap
      let (err, clock) := ClockSmoke.startIsr driver (some p) clock
      if err ≠ .ok then { log := log, aborted := some (.timer err), clock := clock }
      else
        let (passed, lines, clock) := runClockMonotonicitySmoke driver fsm registered env p clock
        let log := log ++ lines ++
          [if passed then .ready "clock_monotonicity" else .smokeFailed] ++
          [.ready "platform_smoke"]
        { log := log, aborted := none, clock := clock }

end Code

/-! ## The clock probe -/

theorem monotonic_iff {σ : Type*} {platform : Platform} (readFn : σ → UInt64 × σ) (ctx : σ)
    {sampleCount : SizeT platform} (hcount : 0 < sampleCount) (lastSampleOut : Option UInt64) :
    (ClockProbe.monotonic (some readFn) ctx sampleCount lastSampleOut).1 = true ↔
      ∀ i j, i ≤ j → j < sampleCount.toNat →
        ClockProbe.sample readFn ctx i ≤ ClockProbe.sample readFn ctx j := by
  have hpos : 0 < sampleCount.toNat := BitVec.lt_def.mp hcount
  rw [ClockProbe.monotonic_eq readFn ctx hcount, ClockProbe.sample_le_sample_iff]
  rcases ClockProbe.monotonicLoop_spec readFn ctx (sampleCount.toNat - 1) 0 with
    ⟨hall, heq⟩ | ⟨k, -, hk, -, hdescent, heq⟩
  · rw [heq]
    exact iff_of_true rfl fun j hj => hall j j.zero_le (by omega)
  · rw [heq]
    exact iff_of_false nofun fun h => absurd hdescent (UInt64.not_lt.mpr (h k (by omega)))

theorem clockProbe_iff (env : BootEnv Handle) :
    (ClockProbe.monotonic (some (clockProbeRead env)) 1 monotonicSamples (some 0)).1 = true ↔
      ∀ i j, i ≤ j → j < 64 →
        (env.espTimer (i + 1)).toUInt64 ≤ (env.espTimer (j + 1)).toUInt64 := by
  have hcontext : ∀ k, ClockProbe.contextAfter (clockProbeRead env) 1 k = k + 1 := by
    intro k
    induction k with
    | zero => rfl
    | succ k ih =>
      rw [ClockProbe.contextAfter, iterate_succ_apply']
      exact congrArg (· + 1) ih
  have hsample : ∀ k, ClockProbe.sample (clockProbeRead env) 1 k =
      (env.espTimer (k + 1)).toUInt64 := fun k => by rw [ClockProbe.sample, hcontext]; rfl
  rw [monotonic_iff (clockProbeRead env) 1 (by decide)]
  simp only [hsample]
  rfl

/-! ## The attempts -/

section Times

variable [DecidableEq Handle] (env : BootEnv Handle) (h : Handle)

/-- The times of the timer's alarms at a point. -/
def timesAt (point : BootPoint) : List UInt64 :=
  (env.alarms point).filterMap fun (timer, nowUs) => if timer = h then some nowUs else none

/-- The times of the timer's alarms before an attempt. -/
def timesBefore : ℕ → List UInt64
  | 0 => []
  | attempt + 1 =>
    timesBefore attempt ++ timesAt env h (.count attempt) ++ timesAt env h (.timestamp attempt)

/-- The attempt finds the interrupt ready: there are enough samples by the read of their count, up
to the width of the counter, and by the next read there is a timestamp. -/
def ReadyAt (attempt : ℕ) : Prop :=
  minimumIsrSamples ≤
      UInt32.ofNat (timesBefore env h attempt ++ timesAt env h (.count attempt)).length ∧
    0 < (timesBefore env h (attempt + 1)).getLastD 0

end Times

variable [DecidableEq Handle] {driver : GptimerDriver δ Handle (GptimerEventCallbacks Ptr) Ptr}
  {fsm : δ → Handle → Option GptimerFsm}
  {registered : δ → Handle → Option (GptimerEventCallbacks Ptr × Option Ptr)}
  {env : BootEnv Handle} {p : Ptr} {h : Handle}

/-- The timer samples into the object, which holds the samples of the given times. -/
structure Sampled (fsm : δ → Handle → Option GptimerFsm)
    (registered : δ → Handle → Option (GptimerEventCallbacks Ptr × Option Ptr)) (h : Handle)
    (p : Ptr) (times : List UInt64) (clock : ClockSmoke δ Handle Ptr) : Prop where
  sampling : ClockSmoke.Sampling fsm registered clock h p
  memory : clock.memory p = ClockSmoke.sampledAt times

theorem Sampled.fire {times : List UInt64} {clock : ClockSmoke δ Handle Ptr}
    (hs : Sampled fsm registered h p times clock) (timer : Handle) (nowUs : UInt64) :
    Sampled fsm registered h p (times ++ if timer = h then [nowUs] else [])
      (ClockSmoke.fire fsm registered timer nowUs clock).2 := by
  by_cases htimer : timer = h
  · subst htimer
    rw [if_pos rfl, hs.sampling.fire_self]
    refine ⟨⟨hs.sampling.timer, hs.sampling.state, hs.sampling.running, hs.sampling.samples⟩, ?_⟩
    rw [ClockSmoke.sampledAt_concat, ← hs.memory]
    exact update_self p _ _
  · rw [if_neg htimer, hs.sampling.fire_other htimer, List.append_nil]
    exact hs

variable (driver env) in
theorem Sampled.interrupted {times : List UInt64} {clock : ClockSmoke δ Handle Ptr}
    (hs : Sampled fsm registered h p times clock) (point : BootPoint) :
    Sampled fsm registered h p (times ++ timesAt env h point)
      (interrupted driver fsm registered env point clock) := by
  unfold AppMain.interrupted timesAt alarmsAt
  generalize env.alarms point = alarms
  induction alarms generalizing times clock with
  | nil => simpa using hs
  | cons alarm alarms ih =>
    obtain ⟨timer, nowUs⟩ := alarm
    have hstep := ih (hs.fire timer nowUs)
    have htimes : times ++ ((timer, nowUs) :: alarms).filterMap
          (fun (timer, nowUs) => if timer = h then some nowUs else none) =
        (times ++ if timer = h then [nowUs] else []) ++ alarms.filterMap
          (fun (timer, nowUs) => if timer = h then some nowUs else none) := by
      by_cases htimer : timer = h <;> simp [htimer]
    rw [htimes]
    exact hstep

theorem isrReady_iff {first second : ClockSmoke δ Handle Ptr} {times times' : List UInt64}
    (hfirst : Sampled fsm registered h p times first)
    (hsecond : Sampled fsm registered h p times' second) :
    ClockSmoke.isrReady (some p) minimumIsrSamples first.memory second.memory = true ↔
      minimumIsrSamples ≤ UInt32.ofNat times.length ∧ 0 < times'.getLastD 0 := by
  unfold ClockSmoke.isrReady
  dsimp only
  rw [hfirst.memory, hsecond.memory, Bool.and_eq_true, decide_eq_true_eq, decide_eq_true_eq]
  rfl

variable (driver env) in
/-- The attempts succeed with the first that finds the interrupt ready. -/
theorem attemptLoop_spec (remaining attempt : ℕ) {clock : ClockSmoke δ Handle Ptr}
    (hs : Sampled fsm registered h p (timesBefore env h attempt) clock) :
    (∃ times, Sampled fsm registered h p times
      (attemptLoop driver fsm registered env p remaining attempt clock).2) ∧
    ((attemptLoop driver fsm registered env p remaining attempt clock).1 = true ↔
      ∃ i, attempt ≤ i ∧ i < attempt + remaining ∧ ReadyAt env h i) := by
  induction remaining generalizing attempt clock with
  | zero => exact ⟨⟨_, hs⟩, iff_of_false nofun fun ⟨i, hle, hlt, _⟩ => by omega⟩
  | succ remaining ih =>
    have hfirst := hs.interrupted driver env (.count attempt)
    have hsecond := hfirst.interrupted driver env (.timestamp attempt)
    have hready := isrReady_iff hfirst hsecond
    rw [attemptLoop]
    by_cases hattempt : ReadyAt env h attempt
    · rw [if_pos (hready.mpr hattempt)]
      exact ⟨⟨_, hsecond⟩, iff_of_true rfl ⟨attempt, le_rfl, by omega, hattempt⟩⟩
    · rw [if_neg (mt hready.mp hattempt)]
      obtain ⟨hheld, hloop⟩ := ih (attempt + 1) hsecond
      refine ⟨hheld, hloop.trans ⟨?_, ?_⟩⟩
      · rintro ⟨i, hle, hlt, hi⟩
        exact ⟨i, by omega, by omega, hi⟩
      · rintro ⟨i, hle, hlt, hi⟩
        have hne : i ≠ attempt := fun heq => hattempt (heq ▸ hi)
        exact ⟨i, by omega, by omega, hi⟩

variable (driver env) in
theorem runClockMonotonicitySmoke_spec {clock : ClockSmoke δ Handle Ptr}
    (hs : Sampled fsm registered h p [] clock) :
    (runClockMonotonicitySmoke driver fsm registered env p clock).2.2.isrSmokeTimer = some h ∧
    (∀ caseName,
      .ready caseName ∉ (runClockMonotonicitySmoke driver fsm registered env p clock).2.1) ∧
    ((runClockMonotonicitySmoke driver fsm registered env p clock).1 = true ↔
      (∀ i j, i ≤ j → j < 64 →
        (env.espTimer (i + 1)).toUInt64 ≤ (env.espTimer (j + 1)).toUInt64) ∧
      ∃ attempt < kClockSmokeMaxAttempts, ReadyAt env h attempt) := by
  have hprobe := clockProbe_iff env
  obtain ⟨⟨times, hheld⟩, hloop⟩ :=
    attemptLoop_spec driver env kClockSmokeMaxAttempts 0 hs
  have hmessage := hheld.interrupted driver env .message
  rw [Nat.zero_add] at hloop
  simp only [Nat.zero_le, true_and] at hloop
  unfold runClockMonotonicitySmoke
  rcases hmonotonic : ClockProbe.monotonic (some (clockProbeRead env)) 1 monotonicSamples (some 0)
    with ⟨monotonic, lastSample, readings⟩
  rw [hmonotonic] at hprobe
  rcases hattempts : attemptLoop driver fsm registered env p kClockSmokeMaxAttempts 0 clock with
    ⟨passed, clock'⟩
  rw [hattempts] at hloop hmessage
  cases monotonic with
  | false =>
    refine ⟨hs.sampling.timer, fun caseName => by simp, ?_⟩
    exact iff_of_false nofun fun hpassed => Bool.false_ne_true (hprobe.mpr hpassed.1)
  | true =>
    cases passed with
    | false =>
      refine ⟨hmessage.sampling.timer, fun caseName => by simp, ?_⟩
      exact iff_of_false nofun fun hpassed => Bool.false_ne_true (hloop.mpr hpassed.2)
    | true =>
      refine ⟨hmessage.sampling.timer, fun caseName => by simp, ?_⟩
      exact iff_of_true rfl ⟨hprobe.mp rfl, hloop.mp rfl⟩

/-! ## The boot -/

theorem readyLines_iff {log lines : List LogLine} {passed : Bool}
    (hlog : ∀ caseName, .ready caseName ∉ log) (hlines : ∀ caseName, .ready caseName ∉ lines) :
    (.ready "clock_monotonicity" ∈ log ++ lines ++
      [if passed then .ready "clock_monotonicity" else .smokeFailed] ++ [.ready "platform_smoke"] ↔
        passed = true) := by
  have hlog := hlog "clock_monotonicity"
  have hlines := hlines "clock_monotonicity"
  cases passed <;> simp [hlog, hlines]

/-- The cases that the boot is ready for. -/
def bootCases : List String := ["clock_monotonicity", "platform_smoke"]

theorem mem_bootCases_of_ready {log lines : List LogLine} {passed : Bool}
    (hlog : ∀ caseName, .ready caseName ∉ log) (hlines : ∀ caseName, .ready caseName ∉ lines)
    {caseName : String} (h : .ready caseName ∈ log ++ lines ++
      [if passed then .ready "clock_monotonicity" else .smokeFailed] ++
        [.ready "platform_smoke"]) : caseName ∈ bootCases := by
  have hlog := hlog caseName
  have hlines := hlines caseName
  cases passed <;> simp_all [bootCases]

section Cases

variable (driver fsm registered env p) {clock : ClockSmoke δ Handle Ptr}

/-- The lines before the smoke timer is started. -/
def startLines (env : BootEnv Handle) : List LogLine := .backendReady :: logStartup env.freeHeap

omit [DecidableEq Handle]

theorem validate_default : validate (some default) (some .none) = (.ok, some .none) := by decide

theorem appMain_of_negative (htime : env.espTimer 0 < 0) :
    appMain driver fsm registered env p clock =
      { log := [], aborted := some .clock, clock := clock } := by
  simp [appMain, validate_default, clockInit, htime]

theorem appMain_of_error (htime : ¬env.espTimer 0 < 0)
    (herr : (ClockSmoke.startIsr driver (some p) clock).1 ≠ .ok) :
    appMain driver fsm registered env p clock =
      { log := startLines env
        aborted := some (.timer (ClockSmoke.startIsr driver (some p) clock).1)
        clock := (ClockSmoke.startIsr driver (some p) clock).2 } := by
  simp [appMain, validate_default, clockInit, htime, herr, startLines]

theorem appMain_of_ok (htime : ¬env.espTimer 0 < 0)
    (hok : (ClockSmoke.startIsr driver (some p) clock).1 = .ok) :
    appMain driver fsm registered env p clock =
      let smoke := runClockMonotonicitySmoke driver fsm registered env p
        (ClockSmoke.startIsr driver (some p) clock).2
      { log := startLines env ++ smoke.2.1 ++
          [if smoke.1 then .ready "clock_monotonicity" else .smokeFailed] ++
          [.ready "platform_smoke"]
        aborted := none
        clock := smoke.2.2 } := by
  simp [appMain, validate_default, clockInit, htime, hok, startLines]

end Cases

/-- The clock has not stepped back in the probe. -/
def ClockHolds (env : BootEnv Handle) : Prop :=
  ∀ i j, i ≤ j → j < 64 → (env.espTimer (i + 1)).toUInt64 ≤ (env.espTimer (j + 1)).toUInt64

/-- A boot that is aborted holds no timer and says nothing of being ready. -/
structure Aborted (driver : GptimerDriver δ Handle (GptimerEventCallbacks Ptr) Ptr)
    (env : BootEnv Handle) (p : Ptr) (d : δ) (run : BootRun δ Handle Ptr) : Prop where
  aborted : run.aborted ≠ none
  reason : ¬(¬env.espTimer 0 < 0 ∧ ClockSmoke.DriverSucceeds driver p d)
  timer : run.clock.isrSmokeTimer = none
  log : ∀ caseName, .ready caseName ∉ run.log

/-- A boot that runs through holds its timer, and has logged what the smoke test says. -/
structure Booted (driver : GptimerDriver δ Handle (GptimerEventCallbacks Ptr) Ptr)
    (env : BootEnv Handle) (p : Ptr) (d : δ) (h : Handle) (run : BootRun δ Handle Ptr) : Prop where
  aborted : run.aborted = none
  time : ¬env.espTimer 0 < 0
  driver : ClockSmoke.DriverSucceeds driver p d
  timer : run.clock.isrSmokeTimer = some h
  platform : .ready "platform_smoke" ∈ run.log
  clock : .ready "clock_monotonicity" ∈ run.log ↔
    ClockHolds env ∧ ∃ attempt < kClockSmokeMaxAttempts, ReadyAt env h attempt
  cases : ∀ caseName, .ready caseName ∈ run.log → caseName ∈ bootCases

section Boot

variable (hd : driver.Lawful fsm) (hr : driver.Registers registered) {d : δ}
  (hnone : ∀ h, fsm d h = none) (memory : Ptr → ClockSmokeIsrState) (env : BootEnv Handle) (p : Ptr)
include hd hr hnone

theorem exists_sampled_startIsr
    (hok : (ClockSmoke.startIsr driver (some p) (ClockSmoke.boot memory d)).1 = .ok) :
    ∃ h, Sampled fsm registered h p []
      (ClockSmoke.startIsr driver (some p) (ClockSmoke.boot memory d)).2 := by
  have heffect := ClockSmoke.startIsr_effect hd (some p) (ClockSmoke.boot memory d)
  rw [hok] at heffect
  cases heffect with
  | failed _ herr => exact absurd rfl herr
  | @started _ h _ hfree _ hcleared htimer hfsm =>
    have hsamples := ClockSmoke.samplesInto_of_startIsr hd hr hfree hok htimer
    have hnothing : fsm (ClockSmoke.boot memory d : ClockSmoke δ Handle Ptr).driver =
      fun _ => none := funext hnone
    rw [hnothing] at hfsm
    refine ⟨h, ⟨htimer, hcleared.state, hfsm, hsamples⟩, ?_⟩
    rw [hcleared.memory]
    exact update_self p _ _

theorem aborted_or_booted :
    Aborted driver env p d (appMain driver fsm registered env p (ClockSmoke.boot memory d)) ∨
      ∃ h, Booted driver env p d h
        (appMain driver fsm registered env p (ClockSmoke.boot memory d)) := by
  have hfree : (ClockSmoke.boot memory d : ClockSmoke δ Handle Ptr).isrSmokeTimer = none := rfl
  have hok : (ClockSmoke.startIsr driver (some p) (ClockSmoke.boot memory d)).1 = .ok ↔
      ClockSmoke.DriverSucceeds driver p d :=
    ClockSmoke.startIsr_eq_ok_iff p hfree
  have hstart : ∀ caseName, .ready caseName ∉ startLines env := by
    simp [startLines, logStartup]
  by_cases htime : env.espTimer 0 < 0
  · rw [appMain_of_negative driver fsm registered env p htime]
    exact .inl ⟨nofun, fun h => h.1 htime, hfree, fun _ => List.not_mem_nil⟩
  by_cases herr : (ClockSmoke.startIsr driver (some p) (ClockSmoke.boot memory d)).1 = .ok
  · obtain ⟨h, hs⟩ := exists_sampled_startIsr hd hr hnone memory p herr
    obtain ⟨hheld, hlines, hpassed⟩ :=
      runClockMonotonicitySmoke_spec driver env hs
    rw [appMain_of_ok driver fsm registered env p htime herr]
    exact .inr ⟨h, rfl, htime, hok.mp herr, hheld, by simp,
      (readyLines_iff hstart hlines).trans hpassed,
      fun _ => mem_bootCases_of_ready hstart hlines⟩
  · have hreason : ¬(¬env.espTimer 0 < 0 ∧ ClockSmoke.DriverSucceeds driver p d) :=
      fun h => herr (hok.mpr h.2)
    have htimer := ((ClockSmoke.startIsr_effect hd (some p) _).of_error hfree herr).1
    rw [appMain_of_error driver fsm registered env p htime herr]
    exact .inl ⟨nofun, hreason, htimer, hstart⟩

theorem ready_cases (caseName : String)
    (hready : .ready caseName ∈
      (appMain driver fsm registered env p (ClockSmoke.boot memory d)).log) :
    caseName ∈ bootCases ∧
      (appMain driver fsm registered env p (ClockSmoke.boot memory d)).aborted = none := by
  rcases aborted_or_booted hd hr hnone memory env p with habort | ⟨h, hboot⟩
  · exact absurd hready (habort.log caseName)
  · exact ⟨hboot.cases caseName hready, hboot.aborted⟩

theorem ready_platform_iff :
    .ready "platform_smoke" ∈ (appMain driver fsm registered env p (ClockSmoke.boot memory d)).log ↔
      ¬env.espTimer 0 < 0 ∧ ClockSmoke.DriverSucceeds driver p d := by
  rcases aborted_or_booted hd hr hnone memory env p with habort | ⟨h, hboot⟩
  · exact iff_of_false (habort.log _) habort.reason
  · exact iff_of_true hboot.platform ⟨hboot.time, hboot.driver⟩

theorem ready_clock_iff : .ready "clock_monotonicity" ∈
      (appMain driver fsm registered env p (ClockSmoke.boot memory d)).log ↔
    ∃ h, (appMain driver fsm registered env p
      (ClockSmoke.boot memory d)).clock.isrSmokeTimer = some h ∧ ClockHolds env ∧
        ∃ attempt < kClockSmokeMaxAttempts, ReadyAt env h attempt := by
  rcases aborted_or_booted hd hr hnone memory env p with habort | ⟨h, hboot⟩
  · apply iff_of_false (habort.log _)
    rintro ⟨h, hheld, -⟩
    exact absurd (habort.timer.symm.trans hheld) (by simp)
  · refine hboot.clock.trans ⟨fun hready => ⟨h, hboot.timer, hready⟩, ?_⟩
    rintro ⟨h', hheld, hready⟩
    obtain rfl := Option.some.inj (hboot.timer.symm.trans hheld)
    exact hready

/-- **Boot.** Whatever the driver, the timer and the alarms do: the boot runs through exactly if the
clock does not start negative and the smoke timer starts; it then, and only then, says that the
platform is ready; and it says so of the clock exactly if the clock has not stepped back and one of
the attempts finds the interrupt of the timer ready. -/
theorem app_main_ready :
    let run := appMain driver fsm registered env p (ClockSmoke.boot memory d)
    (run.aborted = none ↔ ¬env.espTimer 0 < 0 ∧ ClockSmoke.DriverSucceeds driver p d) ∧
    (.ready "platform_smoke" ∈ run.log ↔ run.aborted = none) ∧
    (.ready "clock_monotonicity" ∈ run.log ↔ ∃ h, run.clock.isrSmokeTimer = some h ∧
      ClockHolds env ∧ ∃ attempt < kClockSmokeMaxAttempts, ReadyAt env h attempt) := by
  intro run
  have hplatform := ready_platform_iff hd hr hnone memory env p
  have haborted : run.aborted = none ↔
      ¬env.espTimer 0 < 0 ∧ ClockSmoke.DriverSucceeds driver p d := by
    rcases aborted_or_booted hd hr hnone memory env p with habort | ⟨h, hboot⟩
    · exact iff_of_false habort.aborted habort.reason
    · exact iff_of_true hboot.aborted ⟨hboot.time, hboot.driver⟩
  exact ⟨haborted, hplatform.trans haborted.symm, ready_clock_iff hd hr hnone memory env p⟩

end Boot

/-- The platform is ready although the clock steps back. -/
theorem app_main_ready_backwards :
    let run := appMain (ScriptedGptimers.driver _ ℕ).recording (fun d => d.1.fsm) Prod.snd
      ⟨fun reading => 100 - Int64.ofNat reading, fun _ => [], 0⟩ 1
      (ClockSmoke.boot (fun _ => .cleared) (⟨fun _ => none, []⟩, fun _ => none))
    .ready "platform_smoke" ∈ run.log ∧ .ready "clock_monotonicity" ∉ run.log := by
  intro run
  have hready := app_main_ready (ScriptedGptimers.driver_lawful _ ℕ).recording
    (GptimerDriver.registers_recording _) (d := (⟨fun _ => none, []⟩, fun _ => none))
    (fun _ => rfl) (fun _ => .cleared) ⟨fun reading => 100 - Int64.ofNat reading, fun _ => [], 0⟩ 1
  have hnone : run.aborted = none := hready.1.mpr ⟨by decide, rfl, rfl, rfl, rfl, rfl, trivial⟩
  refine ⟨hready.2.1.mpr hnone, fun hclock => ?_⟩
  obtain ⟨h, -, hholds, -⟩ := hready.2.2.mp hclock
  exact absurd (hholds 0 1 (by decide) (by decide)) (by decide)

/-! ## A timer that behaves -/

omit [DecidableEq Handle] in
theorem clockHolds_of_monotone {env : BootEnv Handle} (hstart : ¬env.espTimer 0 < 0)
    (hmono : ∀ i j, i ≤ j → env.espTimer i ≤ env.espTimer j) : ClockHolds env := by
  intro i j hij _
  have hpositive : 0 ≤ env.espTimer (i + 1) :=
    Int64.le_trans (Int64.not_lt.mp hstart) (hmono 0 (i + 1) (Nat.zero_le _))
  exact Int64.toUInt64_le hpositive (hmono (i + 1) (j + 1) (by omega))

section Times

variable (env h)

theorem timesBefore_prefix_of_le {i j : ℕ} (hij : i ≤ j) :
    timesBefore env h i <+: timesBefore env h j := by
  induction j, hij using Nat.le_induction with
  | base => exact List.prefix_refl _
  | succ j _ ih =>
    rw [timesBefore, List.append_assoc]
    exact ih.trans (List.prefix_append _ _)

theorem countTimes_prefix_timesBefore (i : ℕ) :
    timesBefore env h i ++ timesAt env h (.count i) <+: timesBefore env h (i + 1) :=
  List.prefix_append _ _

theorem countTimes_length_le {i j : ℕ} (hij : i ≤ j) :
    (timesBefore env h i ++ timesAt env h (.count i)).length ≤
      (timesBefore env h j ++ timesAt env h (.count j)).length := by
  rcases hij.eq_or_lt with rfl | hlt
  · exact le_rfl
  · have hnext := (countTimes_prefix_timesBefore env h i).trans (timesBefore_prefix_of_le env h hlt)
    exact (hnext.trans (List.prefix_append _ _)).length_le

variable {env h}

theorem pos_of_mem_timesBefore (halarms : ∀ point, ∀ alarm ∈ env.alarms point, 0 < alarm.2) {i : ℕ}
    {t : UInt64} (ht : t ∈ timesBefore env h i) : 0 < t := by
  have hpoint : ∀ point, ∀ t ∈ timesAt env h point, 0 < t := by
    intro point t ht
    obtain ⟨⟨timer, nowUs⟩, halarm, hnow⟩ := List.mem_filterMap.mp ht
    obtain ⟨-, hnow⟩ := Option.ite_none_right_eq_some.mp hnow
    exact Option.some.inj hnow ▸ halarms point _ halarm
  induction i with
  | zero => cases ht
  | succ i ih =>
    rw [timesBefore, List.mem_append, List.mem_append] at ht
    rcases ht with (ht | ht) | ht
    · exact ih ht
    · exact hpoint _ t ht
    · exact hpoint _ t ht

/-- When no time is zero and the counter does not wrap, three alarms are enough. -/
theorem readyAt_iff (halarms : ∀ point, ∀ alarm ∈ env.alarms point, 0 < alarm.2) {attempt : ℕ}
    (hcount : (timesBefore env h (attempt + 1)).length < 2 ^ 32) :
    ReadyAt env h attempt ↔
      3 ≤ (timesBefore env h attempt ++ timesAt env h (.count attempt)).length := by
  have hle := (countTimes_prefix_timesBefore env h attempt).length_le
  generalize hn : (timesBefore env h attempt ++ timesAt env h (.count attempt)).length = n at hle ⊢
  have hsamples : minimumIsrSamples ≤ UInt32.ofNat n ↔ 3 ≤ n := by
    rw [UInt32.le_iff_toNat_le, UInt32.toNat_ofNat', Nat.mod_eq_of_lt (by omega)]
    rfl
  unfold ReadyAt
  rw [hn, hsamples]
  refine ⟨And.left, fun hthree => ⟨hthree, ?_⟩⟩
  have hne : timesBefore env h (attempt + 1) ≠ [] := by
    intro hnil
    rw [hnil, List.length_nil] at hle
    omega
  rw [List.getLastD_eq_getLast?, List.getLast?_eq_some_getLast hne]
  exact pos_of_mem_timesBefore halarms (List.getLast_mem hne)

end Times

/-- **Three alarms.** When the timer is monotone, no alarm has the time zero, and the counter of the
smoke timer does not wrap, the clock is ready exactly if three of its alarms have come in by the
last attempt. -/
theorem app_main_ready_clock (hd : driver.Lawful fsm) (hr : driver.Registers registered) {d : δ}
    (hnone : ∀ h, fsm d h = none) (memory : Ptr → ClockSmokeIsrState) (env : BootEnv Handle)
    (p : Ptr)
    (hmono : ∀ i j, i ≤ j → env.espTimer i ≤ env.espTimer j)
    (halarms : ∀ point, ∀ alarm ∈ env.alarms point, 0 < alarm.2)
    (hcount : ∀ h, (appMain driver fsm registered env p
      (ClockSmoke.boot memory d)).clock.isrSmokeTimer = some h →
        (timesBefore env h kClockSmokeMaxAttempts).length < 2 ^ 32) :
    let run := appMain driver fsm registered env p (ClockSmoke.boot memory d)
    .ready "clock_monotonicity" ∈ run.log ↔ ∃ h, run.clock.isrSmokeTimer = some h ∧
      3 ≤ (timesBefore env h 19 ++ timesAt env h (.count 19)).length := by
  intro run
  rcases aborted_or_booted hd hr hnone memory env p with habort | ⟨h, hboot⟩
  · apply iff_of_false (habort.log _)
    rintro ⟨h, hheld, -⟩
    exact absurd (habort.timer.symm.trans hheld) (by simp)
  · have hready : ∀ attempt < kClockSmokeMaxAttempts, ReadyAt env h attempt ↔
        3 ≤ (timesBefore env h attempt ++ timesAt env h (.count attempt)).length :=
      fun attempt hattempt => readyAt_iff halarms
        ((timesBefore_prefix_of_le env h hattempt).length_le.trans_lt (hcount h hboot.timer))
    rw [hboot.clock, and_iff_right (clockHolds_of_monotone hboot.time hmono)]
    constructor
    · rintro ⟨attempt, hattempt, hsamples⟩
      have hlast : attempt ≤ 19 := Nat.le_of_lt_succ hattempt
      exact ⟨h, hboot.timer, ((hready attempt hattempt).mp hsamples).trans
        (countTimes_length_le env h hlast)⟩
    · rintro ⟨h', hheld, hsamples⟩
      obtain rfl := Option.some.inj (hboot.timer.symm.trans hheld)
      exact ⟨19, by decide, (hready 19 (by decide)).mpr hsamples⟩

/-- Three alarms before the last attempt, and one of another timer. -/
def lateEnv : BootEnv (Fin 4) where
  espTimer _ := 7
  alarms
    | .count attempt => if attempt = 19 then [(0, 8), (0, 9), (3, 9), (0, 10)] else []
    | _ => []
  freeHeap := 0

theorem app_main_ready_clock_late :
    .ready "clock_monotonicity" ∈ (appMain (ScriptedGptimers.driver _ ℕ).recording
      (fun d => d.1.fsm) Prod.snd lateEnv 1
      (ClockSmoke.boot (fun _ => .cleared) (⟨fun _ => none, []⟩, fun _ => none))).log := by
  have halarms : ∀ point, ∀ alarm ∈ lateEnv.alarms point, 0 < alarm.2 := by
    rintro (attempt | attempt | _) alarm halarm
    · simp only [lateEnv] at halarm
      split_ifs at halarm
      · revert alarm
        simp
      · cases halarm
    · cases halarm
    · cases halarm
  have hcount : ∀ h, (timesBefore lateEnv h kClockSmokeMaxAttempts).length < 2 ^ 32 := by decide
  have hready := app_main_ready_clock (ScriptedGptimers.driver_lawful _ ℕ).recording
    (GptimerDriver.registers_recording _) (d := (⟨fun _ => none, []⟩, fun _ => none))
    (fun _ => rfl) (fun _ => .cleared) lateEnv 1 (fun _ _ _ => Int64.le_refl 7) halarms
    (fun h _ => hcount h)
  exact hready.mpr ⟨0, by decide +kernel, by decide⟩

end AppMain

end EmbeddedInsDaq
