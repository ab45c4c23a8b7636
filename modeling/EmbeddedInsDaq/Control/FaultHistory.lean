import EmbeddedInsDaq.Control.FaultManager
import Mathlib.Data.List.Perm.Basic
import Mathlib.Order.Lattice

/-!
# What a fault manager remembers

A manager is a summary of the events that were published to it: the worst of them, whether one was
fatal, and how many were counted. `publish_eq` says what one event adds to each of the three, so
that the order of the events does not matter (`fault_history`).
-/

namespace EmbeddedInsDaq

/-! ## Health as an order -/

theorem HealthStatus.toNat_toUInt32_injective :
    Function.Injective fun health : HealthStatus => health.toUInt32.toNat := by
  intro a b h
  cases a <;> cases b <;> first | rfl | cases h

/-- Health is ordered as its enumerators are, the better first. -/
instance : LinearOrder HealthStatus :=
  LinearOrder.lift' (fun health => health.toUInt32.toNat) HealthStatus.toNat_toUInt32_injective

theorem HealthStatus.ok_le (health : HealthStatus) : .ok ≤ health := by
  cases health <;> decide

theorem HealthStatus.le_faulted (health : HealthStatus) : health ≤ .faulted := by
  cases health <;> decide

theorem FaultEvent.Fatal.counted {event : Option FaultEvent} (h : FaultEvent.Fatal event) :
    FaultEvent.Counted event := by
  obtain ⟨e, he, hcode, -⟩ := h
  exact ⟨e, he, hcode⟩

instance : DecidablePred FaultEvent.Counted := fun event =>
  match event with
  | none => isFalse (by rintro ⟨e, h, -⟩; cases h)
  | some e => decidable_of_iff (e.code ≠ .none)
      ⟨fun h => ⟨e, rfl, h⟩, by rintro ⟨e, h, he⟩; cases h; exact he⟩

/-- The health that an event by itself leads to. -/
def FaultEvent.health (event : Option FaultEvent) : HealthStatus :=
  if Fatal event then .faulted else if Counted event then .degraded else .ok

namespace FaultManager

variable {p : Platform}

/-! ## One event -/

theorem degrade_eq (health : HealthStatus) : degrade health = max health .degraded := by
  cases health <;> rfl

/-- **The step.** An event adds its health, its count and its fatality. -/
theorem publish_eq (manager : FaultManager p) (event : Option FaultEvent) :
    manager.publish event =
      ⟨max manager.health (FaultEvent.health event),
        manager.eventCount + (if FaultEvent.Counted event then 1 else 0),
        manager.hasFatalFault || decide (FaultEvent.Fatal event)⟩ := by
  unfold FaultEvent.health
  by_cases hf : FaultEvent.Fatal event
  · rw [publish_of_fatal hf, if_pos hf, if_pos hf.counted, decide_eq_true hf, Bool.or_true,
      max_eq_right manager.health.le_faulted]
  by_cases hc : FaultEvent.Counted event
  · rw [publish_of_recoverable hc hf, if_neg hf, if_pos hc, if_pos hc, decide_eq_false hf,
      Bool.or_false, degrade_eq]
  · rw [publish_of_not_counted hc, if_neg hf, if_neg hc, if_neg hc, decide_eq_false hf,
      Bool.or_false, max_eq_left manager.health.ok_le]
    simp

theorem publish_comm (manager : FaultManager p) (a b : Option FaultEvent) :
    (manager.publish a).publish b = (manager.publish b).publish a := by
  rw [publish_eq, publish_eq, publish_eq manager b, publish_eq]
  dsimp only
  congr 1
  · ac_rfl
  · ac_rfl
  · exact Bool.or_right_comm _ _ _

/-! ## A run of events -/

/-- The manager after a list of events. -/
def publishAll (manager : FaultManager p) (events : List (Option FaultEvent)) : FaultManager p :=
  events.foldl publish manager

theorem publishAll_append (manager : FaultManager p) (as bs : List (Option FaultEvent)) :
    manager.publishAll (as ++ bs) = (manager.publishAll as).publishAll bs :=
  List.foldl_append

/-- **The run.** A run adds up what its events add. -/
theorem publishAll_eq (manager : FaultManager p) (events : List (Option FaultEvent)) :
    manager.publishAll events =
      ⟨max manager.health ((events.map FaultEvent.health).foldr max .ok),
        manager.eventCount + BitVec.ofNat _ (events.countP fun e => decide (FaultEvent.Counted e)),
        manager.hasFatalFault || events.any fun e => decide (FaultEvent.Fatal e)⟩ := by
  induction events generalizing manager with
  | nil => simp [publishAll, max_eq_left manager.health.ok_le]
  | cons event events ih =>
    have hrun : manager.publishAll (event :: events) = (manager.publish event).publishAll events :=
      rfl
    rw [hrun, ih, publish_eq, List.map_cons, List.foldr_cons, List.countP_cons, List.any_cons]
    dsimp only
    congr 1
    · exact max_assoc _ _ _
    · by_cases hc : FaultEvent.Counted event
      · simp only [hc, decide_true, if_true, BitVec.ofNat_add, BitVec.ofNat_eq_ofNat]
        ac_rfl
      · simp [hc]
    · exact Bool.or_assoc _ _ _

theorem publishAll_perm (manager : FaultManager p) {events events' : List (Option FaultEvent)}
    (h : events.Perm events') : manager.publishAll events = manager.publishAll events' :=
  h.foldl_eq' (fun a _ b _ m => publish_comm m a b) manager

theorem le_health_publishAll (manager : FaultManager p) (events : List (Option FaultEvent)) :
    manager.health ≤ (manager.publishAll events).health := by
  rw [publishAll_eq]
  exact le_max_left _ _

/-! ## From the initial manager -/

theorem foldr_max_health (events : List (Option FaultEvent)) :
    (events.map FaultEvent.health).foldr max .ok =
      if ∃ e ∈ events, FaultEvent.Fatal e then .faulted
      else if ∃ e ∈ events, FaultEvent.Counted e then .degraded else .ok := by
  induction events with
  | nil => rfl
  | cons event events ih =>
    simp only [List.map_cons, List.foldr_cons, ih, List.exists_mem_cons_iff, FaultEvent.health]
    by_cases hf : FaultEvent.Fatal event
    · simp only [hf, true_or, if_true]
      exact max_eq_left (HealthStatus.le_faulted _)
    by_cases hf' : ∃ e ∈ events, FaultEvent.Fatal e
    · simp only [hf', or_true, if_true]
      exact max_eq_right (HealthStatus.le_faulted _)
    by_cases hc : FaultEvent.Counted event
    · simp only [hf, hf', hc, or_self, true_or, if_true, if_false]
      exact max_eq_left (by split_ifs <;> decide)
    · simp only [hf, hf', hc, or_self, false_or, if_false]
      exact max_eq_right (HealthStatus.ok_le _)

/-- **The summary.** From the initial manager, the fatal flag, the health and the count are those of
the events published, taken as a multiset, and no later event makes the health better. -/
theorem fault_history (mem : FaultManager p) (events : List (Option FaultEvent)) :
    (((init mem).publishAll events).hasFatalFault = true ↔ ∃ e ∈ events, FaultEvent.Fatal e) ∧
    ((init mem).publishAll events).health =
      (if ∃ e ∈ events, FaultEvent.Fatal e then .faulted
      else if ∃ e ∈ events, FaultEvent.Counted e then .degraded else .ok) ∧
    ((init mem).publishAll events).eventCount.toNat =
      events.countP (fun e => decide (FaultEvent.Counted e)) % 2 ^ p.sizeBits ∧
    (∀ events', events.Perm events' →
      (init mem).publishAll events = (init mem).publishAll events') ∧
    ∀ more, ((init mem).publishAll events).health ≤
      ((init mem).publishAll (events ++ more)).health := by
  refine ⟨?_, ?_, ?_, fun events' h => publishAll_perm _ h, fun more => ?_⟩
  · rw [publishAll_eq]
    simp [init]
  · rw [publishAll_eq, ← foldr_max_health]
    exact max_eq_right (HealthStatus.ok_le _)
  · rw [publishAll_eq]
    simp [init]
  · rw [publishAll_append]
    exact le_health_publishAll _ more

end FaultManager

end EmbeddedInsDaq
