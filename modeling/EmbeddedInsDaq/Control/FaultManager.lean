import EmbeddedInsDaq.Platform.RuntimeTypes
import Mathlib.Logic.Basic

/-!
# The fault manager

`fault_manager.c` on a manager that is there. Every function of the file tests its manager pointer
for `NULL` first; the controller passes the address of its own field, so those branches are not
reached from it.
-/

namespace EmbeddedInsDaq

/-- `fault_event_t`. -/
structure FaultEvent where
  code : FaultCode
  severity : FaultSeverity
  deriving DecidableEq

/-- `fault_manager_t`: latched fault counters and aggregate health. -/
structure FaultManager (p : Platform) where
  health : HealthStatus
  eventCount : SizeT p
  hasFatalFault : Bool
  deriving DecidableEq

/-- An event that `fault_manager_publish` counts. -/
def FaultEvent.Counted (event : Option FaultEvent) : Prop :=
  ∃ e, event = some e ∧ e.code ≠ .none

/-- A counted event of fatal severity. -/
def FaultEvent.Fatal (event : Option FaultEvent) : Prop :=
  ∃ e, event = some e ∧ e.code ≠ .none ∧ e.severity = .fatal

instance : DecidablePred FaultEvent.Fatal := fun event =>
  match event with
  | none => isFalse (by rintro ⟨e, h, -⟩; cases h)
  | some e => decidable_of_iff (e.code ≠ .none ∧ e.severity = .fatal)
      ⟨fun h => ⟨e, rfl, h⟩, by rintro ⟨e, h, he⟩; cases h; exact he⟩

namespace FaultManager

variable {p : Platform}

/-- `fault_manager_init`, over whatever the memory held. -/
def init (_manager : FaultManager p) : FaultManager p where
  health := .ok
  eventCount := 0
  hasFatalFault := false

/-- `fault_manager_publish`. -/
def publish (manager : FaultManager p) (event : Option FaultEvent) : FaultManager p :=
  match event with
  | none => manager
  | some event =>
    if event.code = .none then manager
    else
      let manager := { manager with eventCount := manager.eventCount + 1 }
      if event.severity = .fatal then
        { manager with hasFatalFault := true, health := .faulted }
      else if manager.health = .ok then { manager with health := .degraded }
      else manager

/-- The health after a fault that can be tolerated. -/
def degrade : HealthStatus → HealthStatus
  | .ok => .degraded
  | health => health

/-! ## What one publication does -/

theorem publish_of_not_counted {event : Option FaultEvent} (h : ¬ FaultEvent.Counted event)
    (manager : FaultManager p) : manager.publish event = manager := by
  cases event with
  | none => rfl
  | some e =>
    have hc : e.code = .none := not_not.mp fun hc => h ⟨e, rfl, hc⟩
    exact if_pos hc

theorem publish_of_fatal {event : Option FaultEvent} (h : FaultEvent.Fatal event)
    (manager : FaultManager p) :
    manager.publish event = ⟨.faulted, manager.eventCount + 1, true⟩ := by
  obtain ⟨e, rfl, hc, hs⟩ := h
  simp only [publish, if_neg hc, if_pos hs]

theorem publish_of_recoverable {event : Option FaultEvent} (hc : FaultEvent.Counted event)
    (hf : ¬ FaultEvent.Fatal event) (manager : FaultManager p) :
    manager.publish event =
      ⟨degrade manager.health, manager.eventCount + 1, manager.hasFatalFault⟩ := by
  obtain ⟨e, rfl, hc⟩ := hc
  have hs : e.severity ≠ .fatal := fun hs => hf ⟨e, rfl, hc, hs⟩
  obtain ⟨health, eventCount, hasFatalFault⟩ := manager
  simp only [publish, if_neg hc, if_neg hs]
  cases health <;> rfl

theorem hasFatalFault_publish (manager : FaultManager p) (event : Option FaultEvent) :
    (manager.publish event).hasFatalFault =
      (manager.hasFatalFault || decide (FaultEvent.Fatal event)) := by
  by_cases hf : FaultEvent.Fatal event
  · simp [publish_of_fatal hf, hf]
  · by_cases hc : FaultEvent.Counted event
    · simp [publish_of_recoverable hc hf, hf]
    · simp [publish_of_not_counted hc, hf]

theorem degrade_eq_faulted_iff {health : HealthStatus} :
    degrade health = .faulted ↔ health = .faulted := by
  cases health <;> decide

theorem health_publish_eq_faulted_iff (manager : FaultManager p) (event : Option FaultEvent) :
    (manager.publish event).health = .faulted ↔
      manager.health = .faulted ∨ FaultEvent.Fatal event := by
  by_cases hf : FaultEvent.Fatal event
  · simp [publish_of_fatal hf, hf]
  · by_cases hc : FaultEvent.Counted event
    · simp [publish_of_recoverable hc hf, hf, degrade_eq_faulted_iff]
    · simp [publish_of_not_counted hc, hf]

end FaultManager

end EmbeddedInsDaq
