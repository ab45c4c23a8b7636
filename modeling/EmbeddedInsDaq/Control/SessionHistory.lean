import EmbeddedInsDaq.Control.SessionInvariants
import Mathlib.Data.Nat.Basic

/-!
# Histories of a session

What a run of the controller has done can be read off the state it ends in. The phases only move
forward (`phase_step`), so an accepted start and an accepted recording mark happen at most once;
before a start no invalid config has been presented; and a session that is starting or recording
goes back to one accepted start (`exists_accepted_start`).
-/

namespace EmbeddedInsDaq

namespace SessionController

open RuntimeConfig

variable {p : Platform}

theorem runFrom_concat (mem : SessionController p) (ops : List Op) (op : Op) :
    runFrom mem (ops ++ [op]) = (step (runFrom mem ops) op).2 :=
  Machine.run_concat step _ ops op

/-! ## Phases -/

/-- The order in which a session passes through the states. -/
def phase : SessionState → ℕ
  | .boot => 0
  | .ready => 1
  | .starting => 2
  | .recording => 3
  | .stopping => 4
  | .configInvalid => 5
  | .faulted => 6

theorem phase_injective {s t : SessionState} (h : phase s = phase t) : s = t := by
  cases s <;> cases t <;> first | rfl | exact nomatch h

theorem phase_le_faulted (s : SessionState) : phase s ≤ phase .faulted := by
  cases s <;> decide

theorem phase_le_one_iff {s : SessionState} : phase s ≤ 1 ↔ s = .boot ∨ s = .ready := by
  cases s <;> decide

theorem phase_updateReadyState (c : SessionController p) :
    phase c.state ≤ phase (updateReadyState c).state := by
  rw [updateReadyState_eq]
  by_cases h : c.state = .boot ∧ c.storageReady ∧ c.configLoaded
  · rw [if_pos h, h.1]
    exact Nat.zero_le _
  · rw [if_neg h]

theorem Effect.phase_le {c c' : SessionController p} {op : Op} {r : Ret}
    (he : Effect c op r c') : phase c.state ≤ phase c'.state := by
  cases he with
  | refused => exact Nat.le_refl _
  | storageReady => exact phase_updateReadyState { c with storageReady := true }
  | configLoaded =>
    exact phase_updateReadyState { c with lastConfigError := .none, configLoaded := true }
  | configRejected hs =>
    have hle := phase_le_one_iff.mpr hs
    show phase c.state ≤ 5
    omega
  | started hs =>
    have hle := phase_le_one_iff.mpr hs
    show phase c.state ≤ 2
    omega
  | startRejected hs =>
    have hle := phase_le_one_iff.mpr hs
    show phase c.state ≤ 5
    omega
  | recording hs => simp [hs, phase]
  | fault event =>
    show phase c.state ≤ phase (if (c.faultManager.publish event).hasFatalFault then _ else _)
    split_ifs
    · exact phase_le_faulted _
    · exact Nat.le_refl _

/-- **Phases only move forward.** -/
theorem phase_run (c : SessionController p) (ops : List Op) :
    phase c.state ≤ phase (Machine.run step c ops).state :=
  Machine.run_mono (fun c : SessionController p => phase c.state)
    (fun c op => (step_effect c op).phase_le) c ops

theorem not_reentered (mem : SessionController p) (ops₁ ops₂ ops₃ : List Op) {s : SessionState}
    (h₁ : (runFrom mem ops₁).state = s) (h₂ : (runFrom mem (ops₁ ++ ops₂)).state ≠ s) :
    (runFrom mem (ops₁ ++ ops₂ ++ ops₃)).state ≠ s := by
  intro h₃
  unfold runFrom at h₁ h₂ h₃
  have h₁₂ := phase_run (Machine.run step (init mem) ops₁) ops₂
  have h₂₃ := phase_run (Machine.run step (init mem) (ops₁ ++ ops₂)) ops₃
  rw [← Machine.run_append, h₁] at h₁₂
  rw [← Machine.run_append, h₃] at h₂₃
  exact h₂ (phase_injective (le_antisymm h₂₃ h₁₂))

/-! ## Accepted starts and recording marks -/

/-- A start request that returned `true`. -/
def granted : Op × Ret → Bool
  | (.requestStart _, .bool true) => true
  | _ => false

/-- A recording mark that returned `ESP_OK`. -/
def marked : Op × Ret → Bool
  | (.markRecording, .err .ok) => true
  | _ => false

theorem Effect.of_granted {c c' : SessionController p} {op : Op} {r : Ret}
    (he : Effect c op r c') (h : granted (op, r) = true) :
    phase c.state ≤ 1 ∧ c'.state = .starting := by
  cases he with
  | refused => cases op <;> exact nomatch h
  | started hs => exact ⟨phase_le_one_iff.mpr hs, rfl⟩
  | storageReady => exact nomatch h
  | configLoaded => exact nomatch h
  | configRejected => exact nomatch h
  | startRejected => exact nomatch h
  | recording => exact nomatch h
  | fault => exact nomatch h

theorem Effect.of_marked {c c' : SessionController p} {op : Op} {r : Ret}
    (he : Effect c op r c') (h : marked (op, r) = true) :
    c.state = .starting ∧ c'.state = .recording := by
  cases he with
  | refused => cases op <;> exact nomatch h
  | recording hs => exact ⟨hs, rfl⟩
  | storageReady => exact nomatch h
  | configLoaded => exact nomatch h
  | configRejected => exact nomatch h
  | started => exact nomatch h
  | startRejected => exact nomatch h
  | fault => exact nomatch h

/-- The starts still to be granted: one, up to `READY`. -/
def startTokens (c : SessionController p) : ℕ := if phase c.state ≤ 1 then 1 else 0

/-- The recording marks still to be accepted: one, up to `STARTING`. -/
def markTokens (c : SessionController p) : ℕ := if phase c.state ≤ 2 then 1 else 0

theorem startTokens_step (c : SessionController p) (op : Op) :
    (if granted (op, (step c op).1) then 1 else 0) + startTokens (step c op).2 ≤
      startTokens c := by
  have hle := (step_effect c op).phase_le
  unfold startTokens
  by_cases hg : granted (op, (step c op).1) = true
  · obtain ⟨h, h'⟩ := (step_effect c op).of_granted hg
    rw [if_pos hg, if_pos h, h', if_neg (by decide)]
  · rw [if_neg hg]
    split_ifs <;> omega

theorem markTokens_step (c : SessionController p) (op : Op) :
    (if marked (op, (step c op).1) then 1 else 0) + markTokens (step c op).2 ≤ markTokens c := by
  have hle := (step_effect c op).phase_le
  unfold markTokens
  by_cases hm : marked (op, (step c op).1) = true
  · obtain ⟨h, h'⟩ := (step_effect c op).of_marked hm
    rw [if_pos hm, h, h', if_neg (by decide), if_pos (by decide)]
  · rw [if_neg hm]
    split_ifs <;> omega

theorem countP_granted_le (c : SessionController p) (ops : List Op) :
    (Machine.trace step c ops).countP granted ≤ startTokens c :=
  (Nat.le_add_right _ _).trans
    (Machine.countP_trace_add_le granted startTokens startTokens_step c ops)

theorem countP_marked_le (c : SessionController p) (ops : List Op) :
    (Machine.trace step c ops).countP marked ≤ markTokens c :=
  (Nat.le_add_right _ _).trans
    (Machine.countP_trace_add_le marked markTokens markTokens_step c ops)

/-! ## The start of a session -/

/-- The operations that hand a config to the validator. -/
def Op.Presents (op : Op) (config : Option RuntimeConfig) : Prop :=
  op = .markConfigLoaded config ∨ op = .requestStart config

/-- A history in which no start was granted and every config presented was valid. -/
def Unstarted (hist : List (Op × Ret)) : Prop :=
  ∀ e ∈ hist, granted e = false ∧ ∀ config, e.1.Presents config → Valid config

/-- An operation that ends up to `READY` was no granted start and presented no invalid config. -/
theorem Effect.unstarted {c c' : SessionController p} {op : Op} {r : Ret}
    (he : Effect c op r c') (h : phase c'.state ≤ 1) :
    granted (op, r) = false ∧ ∀ config, op.Presents config → Valid config := by
  cases he with
  | refused hr =>
    have hs := phase_le_one_iff.mp h
    cases op with
    | markConfigLoaded config => exact absurd hs (by rintro (h | h); exacts [hr.1 h, hr.2 h])
    | requestStart config => exact absurd hs (by rintro (h | h); exacts [hr.1 h, hr.2 h])
    | _ => exact ⟨rfl, by rintro config (h | h) <;> exact nomatch h⟩
  | configLoaded hs hv => exact ⟨rfl, by rintro config (h | h) <;> cases h; exact hv⟩
  | configRejected => simp [phase] at h
  | started => simp [phase] at h
  | startRejected => simp [phase] at h
  | storageReady => exact ⟨rfl, by rintro config (h | h) <;> exact nomatch h⟩
  | recording => simp [phase] at h
  | fault => exact ⟨rfl, by rintro config (h | h) <;> exact nomatch h⟩

/-- **Before a start.** While the controller is in `BOOT` or `READY` no start has been granted and
no invalid config has been presented. -/
theorem unstarted_traceFrom (mem : SessionController p) (ops : List Op)
    (h : phase (runFrom mem ops).state ≤ 1) : Unstarted (traceFrom mem ops) := by
  refine Machine.run_trace_induction
    (P := fun c hist => phase c.state ≤ 1 → Unstarted hist) (s := init mem) ?_ ?_ ops h
  · intro _ e he
    exact nomatch he
  · intro c hist op ih h e he
    have heff := step_effect c op
    rcases List.mem_append.mp he with he | he
    · exact ih (heff.phase_le.trans h) e he
    · rw [List.mem_singleton.mp he]
      exact heff.unstarted h

/-- What a run that is starting or recording goes back to: the operations before the accepted
start, the config it was made with, and the operations after it. -/
structure AcceptedStart (mem : SessionController p) (ops : List Op) where
  before : List Op
  config : Option RuntimeConfig
  after : List Op
  ops_eq : ops = before ++ .requestStart config :: after
  ready : (runFrom mem before).state = .boot ∨ (runFrom mem before).state = .ready
  valid : Valid config
  storageReady : (runFrom mem ops).storageReady = (runFrom mem before).storageReady
  configLoaded : (runFrom mem ops).configLoaded = (runFrom mem before).configLoaded

/-- An accepted start stays one when an operation that keeps the two marks is added. -/
def AcceptedStart.concat {mem : SessionController p} {ops : List Op} (a : AcceptedStart mem ops)
    {op : Op} (hs : (step (runFrom mem ops) op).2.storageReady = (runFrom mem ops).storageReady)
    (hc : (step (runFrom mem ops) op).2.configLoaded = (runFrom mem ops).configLoaded) :
    AcceptedStart mem (ops ++ [op]) where
  before := a.before
  config := a.config
  after := a.after ++ [op]
  ops_eq := (congrArg (· ++ [op]) a.ops_eq).trans (by rw [List.append_assoc, List.cons_append])
  ready := a.ready
  valid := a.valid
  storageReady := by rw [runFrom_concat, hs, a.storageReady]
  configLoaded := by rw [runFrom_concat, hc, a.configLoaded]

theorem updateReadyState_not_running {c : SessionController p}
    (h : c.state = .boot ∨ c.state = .ready) :
    ¬ ((updateReadyState c).state = .starting ∨ (updateReadyState c).state = .recording) := by
  rcases updateReadyState_state h with h | h <;> rw [h] <;> decide

/-- One step back from a controller that is starting or recording: the operation was an accepted
start, or the controller was starting or recording before and has kept its marks. -/
theorem Effect.running {c c' : SessionController p} {op : Op} {r : Ret} (he : Effect c op r c')
    (h : c'.state = .starting ∨ c'.state = .recording) :
    (∃ config, op = .requestStart config ∧ (c.state = .boot ∨ c.state = .ready) ∧ Valid config ∧
      c'.storageReady = c.storageReady ∧ c'.configLoaded = c.configLoaded) ∨
    ((c.state = .starting ∨ c.state = .recording) ∧
      c'.storageReady = c.storageReady ∧ c'.configLoaded = c.configLoaded) := by
  cases he with
  | refused => exact .inr ⟨h, rfl, rfl⟩
  | storageReady hb => exact absurd h (updateReadyState_not_running (.inl hb))
  | configLoaded hs => exact absurd h (updateReadyState_not_running hs)
  | configRejected => exact h.elim nofun nofun
  | started hs hv => exact .inl ⟨_, rfl, hs, hv, rfl, rfl⟩
  | startRejected => exact h.elim nofun nofun
  | recording hs => exact .inr ⟨.inl hs, rfl, rfl⟩
  | fault event =>
    by_cases hf : (c.faultManager.publish event).hasFatalFault = true
    · rw [if_pos hf] at h
      exact h.elim nofun nofun
    · rw [if_neg hf] at h
      exact .inr ⟨h, rfl, rfl⟩

/-- **The start of a session.** A run that is starting or recording has an accepted start. -/
theorem exists_accepted_start (mem : SessionController p) (ops : List Op)
    (h : (runFrom mem ops).state = .starting ∨ (runFrom mem ops).state = .recording) :
    Nonempty (AcceptedStart mem ops) := by
  induction ops using List.reverseRecOn with
  | nil => exact h.elim nofun nofun
  | append_singleton ops op ih =>
    rw [runFrom_concat] at h
    rcases (step_effect (runFrom mem ops) op).running h with
      ⟨config, rfl, hs, hv, hst, hcf⟩ | ⟨hrun, hst, hcf⟩
    · exact ⟨⟨ops, config, [], rfl, hs, hv, by rw [runFrom_concat, hst],
        by rw [runFrom_concat, hcf]⟩⟩
    · obtain ⟨a⟩ := ih hrun
      exact ⟨a.concat hst hcf⟩

namespace AcceptedStart

variable {mem : SessionController p} {ops : List Op} (a : AcceptedStart mem ops)

theorem step_eq : step (runFrom mem a.before) (.requestStart a.config) =
    (.bool true, { runFrom mem a.before with state := .starting, lastConfigError := .none }) := by
  have hr : ¬ ((runFrom mem a.before).state ≠ .boot ∧ (runFrom mem a.before).state ≠ .ready) :=
    fun h => a.ready.elim h.1 h.2
  show (requestStart _ _).map Ret.bool id = _
  rw [requestStart_of_valid hr a.valid]
  rfl

/-- The state after the start request. -/
def started : SessionController p :=
  { runFrom mem a.before with state := .starting, lastConfigError := .none }

theorem trace_eq : traceFrom mem ops = traceFrom mem a.before ++
    (.requestStart a.config, .bool true) :: Machine.trace step a.started a.after := by
  calc traceFrom mem ops
      = Machine.trace step (init mem) (a.before ++ .requestStart a.config :: a.after) :=
        congrArg (Machine.trace step (init mem)) a.ops_eq
    _ = traceFrom mem a.before ++ Machine.trace step (runFrom mem a.before)
          (.requestStart a.config :: a.after) := Machine.trace_append step _ _ _
    _ = _ := by rw [Machine.trace_cons, a.step_eq]; rfl

/-- Before the start request nothing was granted and no invalid config was presented. -/
theorem unstarted_before : Unstarted (traceFrom mem a.before) :=
  unstarted_traceFrom mem a.before (phase_le_one_iff.mpr a.ready)

theorem countP_granted_before : (traceFrom mem a.before).countP granted = 0 :=
  List.countP_eq_zero.mpr fun e he => by rw [(a.unstarted_before e he).1]; exact nofun

theorem countP_granted_after : (Machine.trace step a.started a.after).countP granted = 0 :=
  Nat.le_zero.mp (countP_granted_le a.started a.after)

include a in
theorem countP_granted : (traceFrom mem ops).countP granted = 1 := by
  rw [a.trace_eq, List.countP_append, List.countP_cons, a.countP_granted_before,
    a.countP_granted_after]
  rfl

end AcceptedStart

/-- **Starts and phases.** In every run from an initialization at most one start is granted and at
most one recording mark accepted, the mark only once a start has been granted; a session that is
starting or recording has exactly one granted start, made with a valid config and preceded by no
invalid one; `STOPPING` is never visited and no state is entered again; and a call refused because
of the state changes nothing. -/
theorem start_history (mem : SessionController p) (ops : List Op) :
    (traceFrom mem ops).countP granted ≤ 1 ∧
    (traceFrom mem ops).countP marked ≤ 1 ∧
    ((step (runFrom mem ops) .markRecording).1 = .err .ok →
      (traceFrom mem ops).countP granted = 1) ∧
    ((runFrom mem ops).state = .starting ∨ (runFrom mem ops).state = .recording →
      ∃ before config after,
        traceFrom mem ops = before ++ (.requestStart config, .bool true) :: after ∧
        before.countP granted = 0 ∧ after.countP granted = 0 ∧ Valid config ∧
        ∀ e ∈ before, ∀ presented, e.1.Presents presented → Valid presented) ∧
    (runFrom mem ops).state ≠ .stopping ∧
    (∀ (s : SessionState) (ops₁ ops₂ : List Op), (runFrom mem ops).state = s →
      (runFrom mem (ops ++ ops₁)).state ≠ s → (runFrom mem (ops ++ ops₁ ++ ops₂)).state ≠ s) ∧
    (∀ op, (step (runFrom mem ops) op).1 = .err .invalidState →
      (step (runFrom mem ops) op).2 = runFrom mem ops) ∧
    (∀ config, (runFrom mem ops).state ≠ .boot ∧ (runFrom mem ops).state ≠ .ready →
      step (runFrom mem ops) (.requestStart config) = (.bool false, runFrom mem ops)) := by
  refine ⟨countP_granted_le _ _, countP_marked_le _ _, ?_, ?_,
    (coherent_runFrom mem ops).not_stopping, fun s ops₁ ops₂ => not_reentered mem ops ops₁ ops₂, ?_,
    fun config h => step_of_refusedByState h⟩
  · intro hok
    have hs := ((step_effect (runFrom mem ops) .markRecording).of_marked (by rw [hok]; rfl)).1
    obtain ⟨a⟩ := exists_accepted_start mem ops (.inl hs)
    exact a.countP_granted
  · intro hs
    obtain ⟨a⟩ := exists_accepted_start mem ops hs
    exact ⟨_, _, _, a.trace_eq, a.countP_granted_before, a.countP_granted_after, a.valid,
      fun e he => (a.unstarted_before e he).2⟩
  · intro op hret
    have he := step_effect (runFrom mem ops) op
    rw [hret] at he
    generalize (step (runFrom mem ops) op).2 = c' at he ⊢
    generalize hr : Ret.err .invalidState = r at he
    cases he <;> first | rfl | exact nomatch hr

/-! ## What a start takes from the boot -/

/-- The all-zero controller memory. -/
def zeroed (p : Platform) : SessionController p where
  state := .boot
  faultManager := ⟨.ok, 0, false⟩
  lastConfigError := .none
  storageReady := false
  configLoaded := false

/-- **Storage and config at a start.** A run that is starting or recording goes back to an
accepted start request with a valid config, made from `BOOT` or `READY`. The two boot marks are
still what they were then, and both are set exactly when the request was made from `READY`. -/
theorem start_marks (mem : SessionController p) (ops : List Op)
    (h : (runFrom mem ops).state = .starting ∨ (runFrom mem ops).state = .recording) :
    ∃ before config after, ops = before ++ .requestStart config :: after ∧ Valid config ∧
      (step (runFrom mem before) (.requestStart config)).1 = .bool true ∧
      ((runFrom mem before).state = .boot ∨ (runFrom mem before).state = .ready) ∧
      (runFrom mem ops).storageReady = (runFrom mem before).storageReady ∧
      (runFrom mem ops).configLoaded = (runFrom mem before).configLoaded ∧
      ((runFrom mem ops).storageReady = true ∧ (runFrom mem ops).configLoaded = true ↔
        (runFrom mem before).state = .ready) := by
  obtain ⟨a⟩ := exists_accepted_start mem ops h
  have hc := coherent_runFrom mem a.before
  refine ⟨a.before, a.config, a.after, a.ops_eq, a.valid, by rw [a.step_eq], a.ready,
    a.storageReady, a.configLoaded, ?_⟩
  rw [a.storageReady, a.configLoaded]
  constructor
  · exact fun hboth => a.ready.resolve_left fun hb => hc.boot hb hboth
  · exact hc.ready

/-- A start after the whole boot was made in `READY`. -/
theorem start_marks_ready :
    ∃ before config after,
      [.markStorageReady, .markConfigLoaded (some default), .requestStart (some default)] =
        before ++ Op.requestStart config :: after ∧
      (runFrom (zeroed .target) before).state = .ready := by
  obtain ⟨before, config, after, hops, -, -, -, -, -, hiff⟩ := start_marks (zeroed .target)
    [.markStorageReady, .markConfigLoaded (some default), .requestStart (some default)]
    (.inl (by decide))
  exact ⟨before, config, after, hops, hiff.mp (by decide)⟩

/-- A start accepted in `BOOT`: the session runs with no storage and no loaded config. -/
theorem start_from_boot :
    (runFrom (zeroed .target) [.requestStart (some default)]).state = .starting ∧
      ¬ ((runFrom (zeroed .target) [.requestStart (some default)]).storageReady = true ∧
        (runFrom (zeroed .target) [.requestStart (some default)]).configLoaded = true) := by
  decide

end SessionController

end EmbeddedInsDaq
