import EmbeddedInsDaq.Control.SessionInvariants

/-!
# Recoverable faults do not disturb a session

The simulation between a run and the run without its recoverable or ignored fault publications.
The two controllers differ in the fault manager only (`withFaults`); the operations other than
publications neither read nor write it (`step_withFaults`), and the fatal flag, which a
publication re-examines on every call, is the same on both sides.
-/

namespace EmbeddedInsDaq

namespace SessionController

open RuntimeConfig

variable {p : Platform}

/-- The controller with another fault manager. -/
def withFaults (c : SessionController p) (m : FaultManager p) : SessionController p :=
  { c with faultManager := m }

@[simp] theorem withFaults_state (c : SessionController p) (m : FaultManager p) :
    (c.withFaults m).state = c.state := rfl

/-- The operations that stay: all but the publications of a fault that is not fatal. -/
def Op.kept : Op → Bool
  | .publishFault event => decide (FaultEvent.Fatal event)
  | _ => true

/-- How the health of the full run may differ from that of the run with operations erased. -/
def HealthWithin (full erased : HealthStatus) : Prop :=
  full = erased ∨ (full = .degraded ∧ erased = .ok)

theorem healthWithin_publish {m m' : FaultManager p} (h : HealthWithin m.health m'.health)
    {event : Option FaultEvent} (hf : ¬ FaultEvent.Fatal event) :
    HealthWithin (m.publish event).health m'.health := by
  by_cases hc : FaultEvent.Counted event
  · rw [FaultManager.publish_of_recoverable hc hf]
    show HealthWithin (FaultManager.degrade m.health) m'.health
    rcases h with h | ⟨h, h'⟩
    · rw [h]
      cases m'.health
      · exact .inr ⟨rfl, rfl⟩
      · exact .inl rfl
      · exact .inl rfl
    · rw [h, h']; exact .inr ⟨rfl, rfl⟩
  · rwa [FaultManager.publish_of_not_counted hc]

theorem updateReadyState_withFaults (c : SessionController p) (m : FaultManager p) :
    updateReadyState (c.withFaults m) = (updateReadyState c).withFaults m := by
  rw [updateReadyState_eq, updateReadyState_eq]
  rfl

theorem markStorageReady_withFaults (c : SessionController p) (m : FaultManager p) :
    (c.withFaults m).markStorageReady =
      (c.markStorageReady.1, c.markStorageReady.2.withFaults m) := by
  unfold markStorageReady
  rw [withFaults_state]
  by_cases hr : c.state ≠ .boot
  · rw [if_pos hr, if_pos hr]
  · rw [if_neg hr, if_neg hr]
    exact congrArg (Prod.mk _) (updateReadyState_withFaults { c with storageReady := true } m)

theorem markRecording_withFaults (c : SessionController p) (m : FaultManager p) :
    (c.withFaults m).markRecording = (c.markRecording.1, c.markRecording.2.withFaults m) := by
  unfold markRecording
  rw [withFaults_state]
  by_cases hr : c.state ≠ .starting
  · rw [if_pos hr, if_pos hr]
  · rw [if_neg hr, if_neg hr]; rfl

theorem validateInto_withFaults (c : SessionController p) (m : FaultManager p)
    (config : Option RuntimeConfig) : (c.withFaults m).validateInto config =
      ((c.validateInto config).1, (c.validateInto config).2.withFaults m) := rfl

theorem markConfigLoaded_withFaults (c : SessionController p) (m : FaultManager p)
    (config : Option RuntimeConfig) : (c.withFaults m).markConfigLoaded config =
      ((c.markConfigLoaded config).1, (c.markConfigLoaded config).2.withFaults m) := by
  unfold markConfigLoaded
  rw [validateInto_withFaults, withFaults_state]
  by_cases hr : c.state ≠ .boot ∧ c.state ≠ .ready
  · rw [if_pos hr, if_pos hr]
  rw [if_neg hr, if_neg hr]
  rcases c.validateInto config with ⟨err, c'⟩
  by_cases herr : err ≠ .ok
  · simp only [if_pos herr]; rfl
  · simp only [if_neg herr]
    exact congrArg (Prod.mk _) (updateReadyState_withFaults { c' with configLoaded := true } m)

theorem requestStart_withFaults (c : SessionController p) (m : FaultManager p)
    (config : Option RuntimeConfig) : (c.withFaults m).requestStart config =
      ((c.requestStart config).1, (c.requestStart config).2.withFaults m) := by
  unfold requestStart
  rw [validateInto_withFaults, withFaults_state]
  by_cases hr : c.state ≠ .boot ∧ c.state ≠ .ready
  · rw [if_pos hr, if_pos hr]
  rw [if_neg hr, if_neg hr]
  rcases c.validateInto config with ⟨err, c'⟩
  by_cases herr : err ≠ .ok
  · simp only [if_pos herr]; rfl
  · simp only [if_neg herr]; rfl

/-- **Frame.** An operation other than a publication does the same under another fault manager,
and leaves it alone. -/
theorem step_withFaults (c : SessionController p) (m : FaultManager p) {op : Op}
    (hop : ∀ event, op ≠ .publishFault event) :
    step (c.withFaults m) op = ((step c op).1, (step c op).2.withFaults m) := by
  cases op with
  | markStorageReady => simp only [step, markStorageReady_withFaults]; rfl
  | markConfigLoaded config => simp only [step, markConfigLoaded_withFaults]; rfl
  | requestStart config => simp only [step, requestStart_withFaults]; rfl
  | markRecording => simp only [step, markRecording_withFaults]; rfl
  | publishFault event => exact absurd rfl (hop event)

/-- The simulation: the full run's controller is coherent, and the other one differs from it in
the fault manager only, where the fatal flags agree. -/
def Undisturbed (full erased : SessionController p) : Prop :=
  Coherent full ∧ ∃ m, erased = full.withFaults m ∧
    m.hasFatalFault = full.faultManager.hasFatalFault ∧
    HealthWithin full.faultManager.health m.health

theorem step_withFaults_faultManager (c : SessionController p) {op : Op}
    (hop : ∀ event, op ≠ .publishFault event) :
    (step c op).2.faultManager = c.faultManager :=
  congrArg (fun r => r.2.faultManager) (step_withFaults c c.faultManager hop)

theorem publishFault_of_not_fatal {c : SessionController p} (h : Coherent c)
    {event : Option FaultEvent} (hf : ¬ FaultEvent.Fatal event) :
    c.publishFault event = c.withFaults (c.faultManager.publish event) := by
  have hflag : (c.faultManager.publish event).hasFatalFault = c.faultManager.hasFatalFault := by
    simp [FaultManager.hasFatalFault_publish, hf]
  rw [publishFault_eq, hflag]
  by_cases hl : c.faultManager.hasFatalFault = true
  · rw [if_pos hl, ← h.faulted_iff.mpr hl]; rfl
  · rw [if_neg hl]; rfl

/-- The simulation step of an operation that both runs make. -/
theorem Undisturbed.step_kept {full erased : SessionController p} {op : Op}
    (hk : op.kept = true) (h : Undisturbed full erased) :
    (step full op).1 = (step erased op).1 ∧ Undisturbed (step full op).2 (step erased op).2 := by
  obtain ⟨hc, m, rfl, hflag, hhealth⟩ := h
  by_cases hop : ∀ event, op ≠ .publishFault event
  · have hm := step_withFaults_faultManager full hop
    rw [step_withFaults full m hop]
    exact ⟨rfl, coherent_step hc op, m, rfl, by rw [hm]; exact hflag, by rw [hm]; exact hhealth⟩
  · obtain ⟨event, rfl⟩ := not_forall_not.mp hop
    have hf : FaultEvent.Fatal event := of_decide_eq_true hk
    refine ⟨rfl, coherent_step hc _, m.publish event, ?_, ?_, ?_⟩
    · show (full.withFaults m).publishFault event = (full.publishFault event).withFaults _
      simp [publishFault_eq, FaultManager.publish_of_fatal hf, withFaults]
    · show _ = (full.publishFault event).faultManager.hasFatalFault
      simp [publishFault_eq, FaultManager.publish_of_fatal hf]
    · show HealthWithin (full.publishFault event).faultManager.health _
      simp [publishFault_eq, FaultManager.publish_of_fatal hf, HealthWithin]

/-- The simulation step of a publication that only the full run makes. -/
theorem Undisturbed.step_erased {full erased : SessionController p} {op : Op}
    (hk : op.kept = false) (h : Undisturbed full erased) :
    Undisturbed (step full op).2 erased := by
  obtain ⟨hc, m, rfl, hflag, hhealth⟩ := h
  cases op with
  | publishFault event =>
    have hf : ¬ FaultEvent.Fatal event := of_decide_eq_false hk
    refine ⟨coherent_step hc _, m, ?_⟩
    show _ = (full.publishFault event).withFaults m ∧ _ =
      (full.publishFault event).faultManager.hasFatalFault ∧
      HealthWithin (full.publishFault event).faultManager.health _
    rw [publishFault_of_not_fatal hc hf]
    refine ⟨rfl, ?_, healthWithin_publish hhealth hf⟩
    show _ = (full.faultManager.publish event).hasFatalFault
    simp [FaultManager.hasFatalFault_publish, hf, hflag]
  | _ => exact nomatch hk

theorem undisturbed_init (mem : SessionController p) : Undisturbed (init mem) (init mem) :=
  ⟨coherent_init mem, _, rfl, rfl, .inl rfl⟩

/-- **Recoverable faults never disturb the session.** Deleting from a run every publication of a
`NULL` event, of the code `NONE` or of a severity other than `FATAL` changes no return value of
the operations that stay and no field of the controller but the fault manager's event count and,
between `OK` and `DEGRADED`, its health. -/
theorem recoverable_faults_erased (mem : SessionController p) (ops : List Op) :
    (traceFrom mem ops).filter (fun e => e.1.kept) = traceFrom mem (ops.filter Op.kept) ∧
    (runFrom mem ops).state = (runFrom mem (ops.filter Op.kept)).state ∧
    (runFrom mem ops).storageReady = (runFrom mem (ops.filter Op.kept)).storageReady ∧
    (runFrom mem ops).configLoaded = (runFrom mem (ops.filter Op.kept)).configLoaded ∧
    (runFrom mem ops).lastConfigError = (runFrom mem (ops.filter Op.kept)).lastConfigError ∧
    (runFrom mem ops).faultManager.hasFatalFault =
      (runFrom mem (ops.filter Op.kept)).faultManager.hasFatalFault ∧
    HealthWithin (runFrom mem ops).faultManager.health
      (runFrom mem (ops.filter Op.kept)).faultManager.health := by
  have hkeep : ∀ (s t : SessionController p) (op : Op), op.kept = true → Undisturbed s t →
      (step s op).1 = (step t op).1 ∧ Undisturbed (step s op).2 (step t op).2 :=
    fun _ _ _ hk h => h.step_kept hk
  have hdrop : ∀ (s t : SessionController p) (op : Op), op.kept = false → Undisturbed s t →
      Undisturbed (step s op).2 t := fun _ _ _ hk h => h.step_erased hk
  obtain ⟨⟨-, m, hm, hflag, hhealth⟩, htrace⟩ :=
    Machine.run_erase Op.kept hkeep hdrop ops (undisturbed_init mem)
  refine ⟨htrace, ?_⟩
  unfold runFrom
  rw [hm]
  exact ⟨rfl, rfl, rfl, rfl, hflag.symm, hhealth⟩

end SessionController

end EmbeddedInsDaq
