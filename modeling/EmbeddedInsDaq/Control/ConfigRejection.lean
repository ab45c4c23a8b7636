import EmbeddedInsDaq.Control.SessionHistory

/-!
# Rejected configs and the config mark

An invalid config is rejected in two places. `mark_config_loaded` clears `config_loaded` then, and
`request_start` leaves it as it is. `config_rejection_iff` says in which runs that can be seen.
-/

namespace EmbeddedInsDaq

namespace SessionController

open RuntimeConfig

variable {p : Platform}

/-- A controller that has rejected its config does not say that one is loaded. -/
def RejectionClears (c : SessionController p) : Prop :=
  c.state = .configInvalid → c.configLoaded = false

/-- A start request that is rejected for its config after a config was loaded. -/
def RejectsLoaded (c : SessionController p) : Op → Prop
  | .requestStart config =>
    (c.state = .boot ∨ c.state = .ready) ∧ ¬ Valid config ∧ c.configLoaded = true
  | _ => False

theorem rejectionClears_of_state {c : SessionController p} (h : c.state ≠ .configInvalid) :
    RejectionClears c := fun hs => absurd hs h

theorem updateReadyState_ne_configInvalid {c : SessionController p} (h : c.state ≠ .configInvalid) :
    (updateReadyState c).state ≠ .configInvalid := by
  rw [updateReadyState_eq]
  show (if _ then _ else _) ≠ _
  split_ifs
  · decide
  · exact h

/-- The one effect that leaves the mark on a rejected config. -/
theorem Effect.rejectionClears_iff {c c' : SessionController p} {op : Op} {r : Ret}
    (he : Effect c op r c') (h : RejectionClears c) :
    RejectionClears c' ↔ ¬ RejectsLoaded c op := by
  cases he with
  | refused hr =>
    refine iff_of_true h ?_
    cases op with
    | requestStart config => exact fun hbad => hbad.1.elim hr.1 hr.2
    | _ => exact not_false
  | storageReady hb =>
    have hs : c.state ≠ .configInvalid := by simp [hb]
    exact iff_of_true (rejectionClears_of_state (updateReadyState_ne_configInvalid hs)) not_false
  | configLoaded hs hv =>
    have hs : c.state ≠ .configInvalid := by rcases hs with hs | hs <;> simp [hs]
    exact iff_of_true (rejectionClears_of_state (updateReadyState_ne_configInvalid hs)) not_false
  | configRejected => exact iff_of_true (fun _ => rfl) not_false
  | started hs hv => exact iff_of_true nofun fun hbad => hbad.2.1 hv
  | startRejected hs hv he =>
    constructor
    · intro hclears hbad
      exact Bool.false_ne_true ((hclears rfl).symm.trans hbad.2.2)
    · intro hgood _
      exact Bool.eq_false_of_not_eq_true fun hloaded => hgood ⟨hs, hv, hloaded⟩
  | recording => exact iff_of_true nofun not_false
  | fault event =>
    refine iff_of_true ?_ not_false
    unfold RejectionClears
    dsimp only
    split_ifs
    · exact nofun
    · exact h

/-- The two rejections differ in the mark. -/
theorem requestStart_eq_markConfigLoaded_iff {c : SessionController p}
    (hs : c.state = .boot ∨ c.state = .ready) {config : Option RuntimeConfig}
    (hv : ¬ Valid config) :
    (c.requestStart config).2 = (c.markConfigLoaded config).2 ↔ c.configLoaded = false := by
  have hopen : ¬ (c.state ≠ .boot ∧ c.state ≠ .ready) := fun h => hs.elim h.1 h.2
  obtain ⟨e, -, herror⟩ := validateInto_of_not_valid hv c
  have hstart : (c.requestStart config).2 =
      { c with state := .configInvalid, lastConfigError := e } := by
    unfold requestStart
    rw [if_neg hopen, herror]
    rfl
  have hmark : (c.markConfigLoaded config).2 =
      { c with state := .configInvalid, lastConfigError := e, configLoaded := false } := by
    unfold markConfigLoaded
    rw [if_neg hopen, herror]
    rfl
  rw [hstart, hmark]
  simp

/-- **Rejections.** The states of a run that have rejected a config have cleared the mark exactly if
no step of the run is a start request that is rejected for its config after a config was loaded; and
from `BOOT` and from `READY` the two ways to reject a config come to the same exactly if none was
loaded. -/
theorem config_rejection_iff (mem : SessionController p) (ops : List Op) :
    ((∀ pre, pre <+: ops → RejectionClears (runFrom mem pre)) ↔
      ∀ pre op, pre ++ [op] <+: ops → ¬ RejectsLoaded (runFrom mem pre) op) ∧
    ((runFrom mem ops).state = .boot ∨ (runFrom mem ops).state = .ready →
      ∀ config, ¬ Valid config →
        (((runFrom mem ops).requestStart config).2 = ((runFrom mem ops).markConfigLoaded config).2 ↔
          (runFrom mem ops).configLoaded = false)) := by
  constructor
  · apply Machine.run_invariant_iff
    · intro c op h
      exact (step_effect c op).rejectionClears_iff h
    · exact rejectionClears_of_state nofun
  · intro hs config hv
    exact requestStart_eq_markConfigLoaded_iff hs hv

/-- A start with an all-zero config, after one that is in order was loaded. -/
theorem not_rejectionClears_start :
    ¬ RejectionClears (runFrom (zeroed .target)
      [.markConfigLoaded (some default), .requestStart (some ⟨.replicate _ .zero⟩)]) := by
  intro hclears
  exact absurd (hclears (by decide)) (by decide)

end SessionController

end EmbeddedInsDaq
