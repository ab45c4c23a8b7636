import EmbeddedInsDaq.Platform.ClockSmoke

/-!
# Sampling from the alarm interrupt

The smoke timer after its start: the driver runs the callback of a running timer with the context
that was registered, and the callback counts in the object behind it. Over starts and alarms in any
order, an alarm never touches an object other than the one of the start that succeeded, and that
object holds the number of alarms since and the time of the last one (`isr_sampling`).
-/

namespace EmbeddedInsDaq

open Attempts Function

namespace ClockSmoke

variable {δ Handle Ptr : Type*} [DecidableEq Ptr]
  (driver : GptimerDriver δ Handle (GptimerEventCallbacks Ptr) Ptr)
  (fsm : δ → Handle → Option GptimerFsm)
  (registered : δ → Handle → Option (GptimerEventCallbacks Ptr × Option Ptr))

/-! ## Alarms -/

/-- An alarm of a timer: the driver runs the callback if the timer is running and has one. -/
def fire (timer : Handle) (nowUs : UInt64) (clock : ClockSmoke δ Handle Ptr) :
    Bool × ClockSmoke δ Handle Ptr :=
  match fsm clock.driver timer, registered clock.driver timer with
  | some .running, some (callbacks, userCtx) =>
    let (woken, memory) := callbacks.onAlarm nowUs userCtx clock.memory
    (woken, { clock with memory := memory })
  | _, _ => (false, clock)

/-- A start, or an alarm of a timer of the driver. -/
inductive SmokeOp (Handle Ptr : Type*)
  | startIsr (state : Option Ptr)
  | alarm (timer : Handle) (nowUs : UInt64)
  deriving DecidableEq

/-- One operation. -/
def smokeStep (clock : ClockSmoke δ Handle Ptr) : SmokeOp Handle Ptr → Ret × ClockSmoke δ Handle Ptr
  | .startIsr state =>
    let (err, clock) := startIsr driver state clock
    (.err err, clock)
  | .alarm timer nowUs =>
    let (woken, clock) := fire fsm registered timer nowUs clock
    (.bool woken, clock)

/-- `clock_smoke_isr_ready`. An alarm may come between the reads of the two fields. -/
def isrReady (state : Option Ptr) (minimumSamples : UInt32)
    (first second : Ptr → ClockSmokeIsrState) : Bool :=
  match state with
  | none => false
  | some state => (first state).isrSampleCount ≥ minimumSamples &&
      (second state).lastIsrTimestampUs > 0

/-! ## The timer that a start leaves -/

variable {driver fsm registered}

/-- The callback of the timer is registered with the object. -/
def SamplesInto (registered : δ → Handle → Option (GptimerEventCallbacks Ptr × Option Ptr))
    (h : Handle) (p : Ptr) (d : δ) : Prop := registered d h = some (callbacks, some p)

theorem driverCalls_samplesInto (hr : driver.Registers registered) (h : Handle) (p : Ptr) :
    Stages .ok (fun _ => True) (fun _ => True) (driverCalls driver (some h) (some p))
      (SamplesInto registered h p) := by
  have hregister : ∀ d, (driver.registerEventCallbacks (some h) callbacks (some p) d).1 = .ok →
      SamplesInto registered h p (driver.registerEventCallbacks (some h) callbacks (some p) d).2 :=
    hr.registerEventCallbacks h callbacks (some p)
  have halarm : ∀ d, SamplesInto registered h p d →
      SamplesInto registered h p (driver.setAlarmAction (some h) alarmConfig d).2 :=
    fun d hd => (hr.setAlarmAction h alarmConfig d).trans hd
  have henable : ∀ d, SamplesInto registered h p d →
      SamplesInto registered h p (driver.enable (some h) d).2 :=
    fun d hd => (hr.enable h d).trans hd
  have hstart : ∀ d, SamplesInto registered h p d →
      SamplesInto registered h p (driver.start (some h) d).2 :=
    fun d hd => (hr.start h d).trans hd
  refine .cons (fun d _ hok => hregister d hok) (fun _ _ _ => trivial) ?_
  refine .cons (fun d hd _ => halarm d hd) (fun _ _ _ => trivial) ?_
  refine .cons (fun d hd _ => henable d hd) (fun _ _ _ => trivial) ?_
  exact .cons (fun d hd _ => hstart d hd) (fun _ _ _ => trivial) .nil

variable [DecidableEq Handle]

theorem samplesInto_of_startIsr (hd : driver.Lawful fsm) (hr : driver.Registers registered)
    {p : Ptr} {clock : ClockSmoke δ Handle Ptr} (hfree : clock.isrSmokeTimer = none)
    (hok : (startIsr driver (some p) clock).1 = .ok) {h : Handle}
    (hheld : (startIsr driver (some p) clock).2.isrSmokeTimer = some h) :
    SamplesInto registered h p (startIsr driver (some p) clock).2.driver := by
  rcases hnew : driver.newTimer timerConfig none clock.driver with ⟨err, timer, d⟩
  by_cases herr : err = .ok
  · subst herr
    obtain ⟨h', rfl, -, -⟩ : ∃ h', timer = some h' ∧ _ := by
      have := hd.newTimer_ok timerConfig none clock.driver
      rw [hnew] at this
      exact this rfl
    have hcalls := (driverCalls_samplesInto hr h' p).untilError (s := d) trivial
    rcases hrun : untilError .ok (driverCalls driver (some h') (some p)) d with ⟨err', d'⟩
    rw [hrun] at hcalls
    by_cases herr' : err' = .ok
    · subst herr'
      have hstart : startIsr driver (some p) clock = (.ok,
          { isrSmokeTimer := some h', isrSmokeState := some p, driver := d'
            memory := update clock.memory p .cleared }) := by
        simp [startIsr, hfree, hnew, hrun]
      rw [hstart] at hheld ⊢
      obtain rfl := Option.some.inj hheld
      exact hcalls.resolve_right (fun hbroken => hbroken.1 rfl) |>.2
    · have hstart : (startIsr driver (some p) clock).1 = err' := by
        simp [startIsr, hfree, hnew, hrun, herr']
      exact absurd (hstart.symm.trans hok) herr'
  · have hstart : (startIsr driver (some p) clock).1 = err := by
      simp [startIsr, hfree, hnew, herr]
    exact absurd (hstart.symm.trans hok) herr

/-- The timer is running and samples into the object. -/
structure Sampling (fsm : δ → Handle → Option GptimerFsm)
    (registered : δ → Handle → Option (GptimerEventCallbacks Ptr × Option Ptr))
    (clock : ClockSmoke δ Handle Ptr) (h : Handle) (p : Ptr) : Prop where
  timer : clock.isrSmokeTimer = some h
  state : clock.isrSmokeState = some p
  running : HasTimer fsm (fun _ => none) h .running clock.driver
  samples : SamplesInto registered h p clock.driver

/-- What the callback makes of the object. -/
def sampled (state : ClockSmokeIsrState) (nowUs : UInt64) : ClockSmokeIsrState :=
  { lastIsrTimestampUs := nowUs, isrSampleCount := state.isrSampleCount + 1 }

section Sampling

variable {clock : ClockSmoke δ Handle Ptr} {h : Handle} {p : Ptr}
  (hs : Sampling fsm registered clock h p)
include hs

theorem Sampling.fire_self (nowUs : UInt64) : fire fsm registered h nowUs clock =
    (false,
      { clock with memory := update clock.memory p (sampled (clock.memory p) nowUs) }) := by
  have hregistered : registered clock.driver h = some (callbacks, some p) := hs.samples
  unfold fire
  rw [hs.running.fsm_self, hregistered]
  rfl

theorem Sampling.fire_other {timer : Handle} (htimer : timer ≠ h) (nowUs : UInt64) :
    fire fsm registered timer nowUs clock = (false, clock) := by
  have hnone : fsm clock.driver timer = none := by
    rw [hs.running, update_of_ne htimer]
  unfold fire
  rw [hnone]

theorem Sampling.startIsr (state : Option Ptr) : (startIsr driver state clock).2 = clock := by
  cases state with
  | none => rfl
  | some q => rw [startIsr_of_busy q (by simp [hs.timer])]

end Sampling

/-! ## Runs -/

/-- The times of the alarms of a timer. -/
def alarmTimes (h : Handle) (ops : List (SmokeOp Handle Ptr)) : List UInt64 :=
  ops.filterMap fun
    | .alarm timer nowUs => if timer = h then some nowUs else none
    | .startIsr _ => none

/-- An object that holds the samples of the given times. -/
def sampledAt (times : List UInt64) : ClockSmokeIsrState where
  isrSampleCount := UInt32.ofNat times.length
  lastIsrTimestampUs := times.getLastD 0

/-- The objects when no more than starts has touched them. -/
def clearedBy (ops : List (SmokeOp Handle Ptr)) (memory : Ptr → ClockSmokeIsrState) (q : Ptr) :
    ClockSmokeIsrState :=
  if .startIsr (some q) ∈ ops then .cleared else memory q

/-- The state after the operations, from boot. -/
def smokeRun (driver : GptimerDriver δ Handle (GptimerEventCallbacks Ptr) Ptr)
    (fsm : δ → Handle → Option GptimerFsm)
    (registered : δ → Handle → Option (GptimerEventCallbacks Ptr × Option Ptr))
    (memory : Ptr → ClockSmokeIsrState) (d : δ) (ops : List (SmokeOp Handle Ptr)) :
    ClockSmoke δ Handle Ptr :=
  Machine.run (smokeStep driver fsm registered) (boot memory d) ops

theorem sampledAt_concat (times : List UInt64) (nowUs : UInt64) :
    sampledAt (times ++ [nowUs]) = sampled (sampledAt times) nowUs := by
  unfold sampledAt sampled
  simp [UInt32.ofNat_add]

theorem clearedBy_concat_start (ops : List (SmokeOp Handle Ptr))
    (memory : Ptr → ClockSmokeIsrState) (p : Ptr) :
    clearedBy (ops ++ [.startIsr (some p)]) memory = update (clearedBy ops memory) p .cleared := by
  funext q
  by_cases hq : q = p
  · subst hq
    simp [clearedBy]
  · simp [clearedBy, hq]

/-- No start has succeeded yet. -/
structure Idle (fsm : δ → Handle → Option GptimerFsm) (memory : Ptr → ClockSmokeIsrState)
    (ops : List (SmokeOp Handle Ptr)) (clock : ClockSmoke δ Handle Ptr) : Prop where
  timer : clock.isrSmokeTimer = none
  fsm : fsm clock.driver = fun _ => none
  memory : clock.memory = clearedBy ops memory

/-- A start has succeeded behind the operations `pre`. -/
structure Active (fsm : δ → Handle → Option GptimerFsm)
    (registered : δ → Handle → Option (GptimerEventCallbacks Ptr × Option Ptr))
    (memory : Ptr → ClockSmokeIsrState) (pre post : List (SmokeOp Handle Ptr)) (h : Handle) (p : Ptr)
    (clock : ClockSmoke δ Handle Ptr) : Prop where
  sampling : Sampling fsm registered clock h p
  memory : clock.memory = update (clearedBy pre memory) p (sampledAt (alarmTimes h post))

section Step

variable {clock : ClockSmoke δ Handle Ptr} {memory : Ptr → ClockSmokeIsrState}

/-- Before a start succeeds, an operation is a start that fails or succeeds, or does nothing. -/
theorem Idle.step (hd : driver.Lawful fsm) (hr : driver.Registers registered)
    {ops : List (SmokeOp Handle Ptr)} (h : Idle fsm memory ops clock) (op : SmokeOp Handle Ptr) :
    Idle fsm memory (ops ++ [op]) (smokeStep driver fsm registered clock op).2 ∨
      ∃ p timer, op = .startIsr (some p) ∧
        Active fsm registered memory ops [] timer p
          (smokeStep driver fsm registered clock op).2 := by
  cases op with
  | alarm timer nowUs =>
    have hfire : fire fsm registered timer nowUs clock = (false, clock) := by
      unfold fire
      rw [h.fsm]
    left
    show Idle fsm memory (ops ++ [.alarm timer nowUs]) (fire fsm registered timer nowUs clock).2
    rw [hfire]
    refine ⟨h.timer, h.fsm, h.memory.trans ?_⟩
    funext q
    simp [clearedBy]
  | startIsr state =>
    show Idle fsm memory _ (startIsr driver state clock).2 ∨
      ∃ p timer, _ ∧ Active fsm registered memory ops [] timer p (startIsr driver state clock).2
    have heffect := startIsr_effect hd state clock
    cases state with
    | none =>
      left
      refine ⟨h.timer, h.fsm, h.memory.trans ?_⟩
      funext q
      simp [clearedBy]
    | some p =>
      have hregistered := samplesInto_of_startIsr hd hr (p := p) h.timer
      generalize (startIsr driver (some p) clock).1 = err,
        (startIsr driver (some p) clock).2 = clock' at heffect hregistered
      cases heffect with
      | busy hbusy => exact absurd h.timer hbusy
      | failed hfree herr hcleared htimer hfsm =>
        refine .inl ⟨htimer, hfsm.trans h.fsm, ?_⟩
        rw [hcleared.memory, h.memory, clearedBy_concat_start]
      | @started _ timer _ hfree hfresh hcleared htimer hfsm =>
        rw [h.fsm] at hfsm
        refine .inr ⟨p, timer, rfl, ⟨htimer, hcleared.state, hfsm, hregistered rfl htimer⟩, ?_⟩
        rw [hcleared.memory, h.memory]
        rfl

/-- Behind a start that has succeeded, an operation is a sample, or does nothing. -/
theorem Active.step {pre post : List (SmokeOp Handle Ptr)} {timer : Handle} {p : Ptr}
    (h : Active fsm registered memory pre post timer p clock) (op : SmokeOp Handle Ptr) :
    Active fsm registered memory pre (post ++ [op]) timer p
      (smokeStep driver fsm registered clock op).2 := by
  cases op with
  | startIsr state =>
    have hpost : alarmTimes timer (post ++ [.startIsr state]) = alarmTimes timer post := by
      simp [alarmTimes]
    show Active fsm registered memory pre _ timer p (startIsr driver state clock).2
    rw [h.sampling.startIsr]
    exact ⟨h.sampling, by rw [hpost, h.memory]⟩
  | alarm timer' nowUs =>
    show Active fsm registered memory pre _ timer p (fire fsm registered timer' nowUs clock).2
    by_cases htimer : timer' = timer
    · subst htimer
      have hpost : alarmTimes timer' (post ++ [.alarm timer' nowUs]) =
          alarmTimes timer' post ++ [nowUs] := by
        simp [alarmTimes]
      rw [h.sampling.fire_self]
      refine ⟨⟨h.sampling.timer, h.sampling.state, h.sampling.running, h.sampling.samples⟩, ?_⟩
      simp only [h.memory, update_self, update_idem, hpost, sampledAt_concat]
    · have hpost : alarmTimes timer (post ++ [.alarm timer' nowUs]) = alarmTimes timer post := by
        simp [alarmTimes, htimer]
      rw [h.sampling.fire_other htimer]
      exact ⟨h.sampling, by rw [hpost, h.memory]⟩

end Step

theorem idle_boot {d : δ} (hnone : ∀ h, fsm d h = none) (memory : Ptr → ClockSmokeIsrState) :
    Idle fsm memory ([] : List (SmokeOp Handle Ptr)) (boot memory d) := by
  refine ⟨rfl, funext hnone, ?_⟩
  funext q
  simp [clearedBy, boot]

theorem idle_or_active_smokeRun (hd : driver.Lawful fsm) (hr : driver.Registers registered) {d : δ}
    (hnone : ∀ h, fsm d h = none) (memory : Ptr → ClockSmokeIsrState)
    (ops : List (SmokeOp Handle Ptr)) :
    Idle fsm memory ops (smokeRun driver fsm registered memory d ops) ∨
      ∃ pre p post h, ops = pre ++ .startIsr (some p) :: post ∧
        Idle fsm memory pre (smokeRun driver fsm registered memory d pre) ∧
        Active fsm registered memory pre post h p
          (smokeRun driver fsm registered memory d ops) := by
  induction ops using List.reverseRecOn with
  | nil => exact .inl (idle_boot hnone memory)
  | append_singleton ops op ih =>
    have hrun : smokeRun driver fsm registered memory d (ops ++ [op]) =
        (smokeStep driver fsm registered (smokeRun driver fsm registered memory d ops) op).2 :=
      Machine.run_concat _ _ _ _
    rw [hrun]
    rcases ih with hidle | ⟨pre, p, post, h, rfl, hpre, hactive⟩
    · rcases hidle.step hd hr op with hidle' | ⟨p, h, rfl, hactive⟩
      · exact .inl hidle'
      · exact .inr ⟨ops, p, [], h, rfl, hidle, hactive⟩
    · exact .inr ⟨pre, p, post ++ [op], h, by simp, hpre, hactive.step op⟩

/-- **Sampling.** Over starts and alarms in any order, whichever driver calls fail: as long as no
timer is held, starts have cleared their objects and no alarm has done anything. A timer that is
held is the one of a start that found none; that start's object holds the number of the timer's
alarms since, up to the width of the counter, and the time of the last one; and no object but this
one has changed since. -/
theorem isr_sampling (hd : driver.Lawful fsm) (hr : driver.Registers registered) {d : δ}
    (hnone : ∀ h, fsm d h = none) (memory : Ptr → ClockSmokeIsrState)
    (ops : List (SmokeOp Handle Ptr)) :
    let clock := smokeRun driver fsm registered memory d ops
    (clock.isrSmokeTimer = none → clock.memory = clearedBy ops memory) ∧
    ∀ h, clock.isrSmokeTimer = some h → ∃ pre p post, ops = pre ++ .startIsr (some p) :: post ∧
      (smokeRun driver fsm registered memory d pre).isrSmokeTimer = none ∧
      clock.isrSmokeState = some p ∧
      clock.memory = update (clearedBy pre memory) p (sampledAt (alarmTimes h post)) := by
  intro clock
  rcases idle_or_active_smokeRun hd hr hnone memory ops with
    hidle | ⟨pre, p, post, h, hops, hpre, hactive⟩
  · refine ⟨fun _ => hidle.memory, fun h hh => ?_⟩
    exact absurd (hidle.timer.symm.trans hh) (by simp)
  · have htimer : clock.isrSmokeTimer = some h := hactive.sampling.timer
    refine ⟨fun hfree => absurd (htimer.symm.trans hfree) (by simp), fun h' hh' => ?_⟩
    obtain rfl := Option.some.inj (htimer.symm.trans hh')
    exact ⟨pre, p, post, hops, hpre.timer, hactive.sampling.state, hactive.memory⟩

/-- The first start fails at its last driver call; the second succeeds, and two of the alarms behind
it are of its timer. -/
theorem isr_sampling_retry :
    let ops : List (SmokeOp (Fin 4) ℕ) :=
      [.startIsr (some 1), .startIsr (some 2), .alarm 0 100, .alarm 3 150, .alarm 0 200]
    ∃ pre p post, ops = pre ++ .startIsr (some p) :: post ∧
      (smokeRun (ScriptedGptimers.driver _ ℕ).recording (fun d => d.1.fsm) Prod.snd
        (fun _ => .cleared) (⟨fun _ => none, [.ok, .ok, .ok, .ok, .invalidState]⟩, fun _ => none)
        pre).isrSmokeTimer = none ∧
      (smokeRun (ScriptedGptimers.driver _ ℕ).recording (fun d => d.1.fsm) Prod.snd
        (fun _ => .cleared) (⟨fun _ => none, [.ok, .ok, .ok, .ok, .invalidState]⟩, fun _ => none)
        ops).isrSmokeState = some p ∧
      (smokeRun (ScriptedGptimers.driver _ ℕ).recording (fun d => d.1.fsm) Prod.snd
        (fun _ => .cleared) (⟨fun _ => none, [.ok, .ok, .ok, .ok, .invalidState]⟩, fun _ => none)
        ops).memory = update (clearedBy pre fun _ => .cleared) p (sampledAt (alarmTimes 0 post)) :=
  (isr_sampling (ScriptedGptimers.driver_lawful _ ℕ).recording
    (GptimerDriver.registers_recording _) (fun _ => rfl) (fun _ => .cleared)
    [.startIsr (some 1), .startIsr (some 2), .alarm 0 100, .alarm 3 150, .alarm 0 200]).2 0
    (by decide)

end ClockSmoke

end EmbeddedInsDaq
