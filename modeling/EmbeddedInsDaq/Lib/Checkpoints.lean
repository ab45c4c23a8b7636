import Mathlib.Algebra.BigOperators.Group.List.Basic
import Mathlib.Algebra.GroupWithZero.Nat
import Mathlib.Order.Nat

/-!
# A sequence looked at in steps

A sequence of positions `0, 1, 2, …` may decide at some of them: `decision b` is the decision at
`b`, or `none` where it is quiet. An observer walks from `0` to `n` in steps of at most `limit` and
takes the first decision it meets at the end of a step; how it steps is not in its hands.

A position is `Exposed` when no `limit` consecutive positions before it all decide: exactly these
may be the first place where some observer stops (`exists_exposed_of_walk`,
`exists_walk_of_exposed`). So all observers agree exactly when all exposed stops do
(`walks_agree_iff`).
-/

namespace Checkpoints

variable {γ : Type*} (decision : ℕ → Option γ) (limit n : ℕ)

/-- The first decision at the end of one of the `steps`, from `pos` on. -/
def walk : ℕ → List ℕ → Option γ
  | _, [] => none
  | pos, step :: steps => (decision (pos + step)).or (walk (pos + step) steps)

/-- Steps that an observer may make. -/
def Steps (steps : List ℕ) : Prop := ∀ step ∈ steps, 0 < step ∧ step ≤ limit

/-- Among any `limit` consecutive positions before `b` one is quiet. -/
def Exposed (b : ℕ) : Prop :=
  ∀ g, g + limit < b → ∃ i, g < i ∧ i ≤ g + limit ∧ decision i = none

/-- An observer that comes to `b` goes no further. -/
def Stop (b : ℕ) : Prop := decision b ≠ none ∨ b = n

variable {decision limit n}

theorem walk_cons_of_quiet {pos step : ℕ} (h : decision (pos + step) = none) (steps : List ℕ) :
    walk decision pos (step :: steps) = walk decision (pos + step) steps := by
  rw [walk, h, Option.none_or]

theorem walk_cons_of_decides {pos step : ℕ} (h : decision (pos + step) ≠ none) (steps : List ℕ) :
    walk decision pos (step :: steps) = decision (pos + step) := by
  obtain ⟨c, hc⟩ := Option.ne_none_iff_exists'.mp h
  rw [walk, hc, Option.some_or]

theorem walk_append {pos : ℕ} {steps : List ℕ} (h : walk decision pos steps = none)
    (steps' : List ℕ) :
    walk decision pos (steps ++ steps') = walk decision (pos + steps.sum) steps' := by
  induction steps generalizing pos with
  | nil => rfl
  | cons step steps ih =>
    rw [walk, Option.or_eq_none_iff] at h
    rw [List.cons_append, walk_cons_of_quiet h.1, ih h.2, List.sum_cons, Nat.add_assoc]

theorem Exposed.mono {a b : ℕ} (h : Exposed decision limit b) (hab : a ≤ b) :
    Exposed decision limit a := by
  intro g hg
  exact h g (Nat.lt_of_lt_of_le hg hab)

/-- A step from a quiet exposed position ends at an exposed one. -/
theorem Exposed.step {b step : ℕ} (h : Exposed decision limit b) (hquiet : decision b = none)
    (hstep : step ≤ limit) : Exposed decision limit (b + step) := by
  intro g hg
  by_cases hgb : g + limit < b
  · exact h g hgb
  · exact ⟨b, by omega, by omega, hquiet⟩

/-- An exposed position is one step away from a quiet exposed one. -/
theorem Exposed.exists_before {b : ℕ} (h : Exposed decision limit b) (h0 : decision 0 = none)
    (hb : 0 < b) : ∃ a < b, b ≤ a + limit ∧ decision a = none := by
  by_cases hlimit : b ≤ limit
  · exact ⟨0, hb, by omega, h0⟩
  · obtain ⟨a, hlo, hhi, hquiet⟩ := h (b - 1 - limit) (by omega)
    exact ⟨a, by omega, by omega, hquiet⟩

/-- **Where an observer stops.** A walk from a quiet exposed position to `n` returns the decision
of an exposed stop. -/
theorem exists_exposed_of_walk {pos : ℕ} (hpos : Exposed decision limit pos)
    (hquiet : decision pos = none) {steps : List ℕ} (hsteps : Steps limit steps)
    (hsum : pos + steps.sum = n) :
    ∃ b ≤ n, Exposed decision limit b ∧ Stop decision n b ∧
      walk decision pos steps = decision b := by
  induction steps generalizing pos with
  | nil => exact ⟨pos, hsum.le, hpos, .inr hsum, hquiet.symm⟩
  | cons step steps ih =>
    obtain ⟨⟨-, hle⟩, hsteps⟩ := List.forall_mem_cons.mp hsteps
    rw [List.sum_cons, ← Nat.add_assoc] at hsum
    have hnext := hpos.step hquiet hle
    by_cases hdec : decision (pos + step) = none
    · rw [walk_cons_of_quiet hdec]
      exact ih hnext hdec hsteps hsum
    · exact ⟨pos + step, Nat.le.intro hsum, hnext, .inl hdec, walk_cons_of_decides hdec _⟩

theorem exists_quiet_walk (h0 : decision 0 = none) (b : ℕ) (h : Exposed decision limit b)
    (hquiet : decision b = none) :
    ∃ steps, Steps limit steps ∧ steps.sum = b ∧ walk decision 0 steps = none := by
  induction b using Nat.strongRecOn with
  | _ b ih =>
    rcases Nat.eq_zero_or_pos b with rfl | hb
    · exact ⟨[], List.forall_mem_nil _, rfl, rfl⟩
    · obtain ⟨a, hab, hle, ha⟩ := h.exists_before h0 hb
      obtain ⟨steps, hsteps, hsum, hwalk⟩ := ih a hab (h.mono hab.le) ha
      refine ⟨steps ++ [b - a], ?_, ?_, ?_⟩
      · refine List.forall_mem_append.mpr ⟨hsteps, List.forall_mem_singleton.mpr ?_⟩
        omega
      · rw [List.sum_append, hsum, List.sum_singleton, Nat.add_sub_cancel' hab.le]
      · have hend : decision (0 + steps.sum + (b - a)) = none := by
          rw [Nat.zero_add, hsum, Nat.add_sub_cancel' hab.le, hquiet]
        rw [walk_append hwalk, walk_cons_of_quiet hend]
        rfl

theorem steps_replicate_one (hlimit : 0 < limit) (m : ℕ) : Steps limit (List.replicate m 1) := by
  intro step hstep
  rw [List.eq_of_mem_replicate hstep]
  exact ⟨Nat.one_pos, hlimit⟩

/-- **Every exposed stop is met.** Some observer stops there. -/
theorem exists_walk_of_exposed (hlimit : 0 < limit) (h0 : decision 0 = none) {b : ℕ} (hb : b ≤ n)
    (h : Exposed decision limit b) (hstop : Stop decision n b) :
    ∃ steps, Steps limit steps ∧ steps.sum = n ∧ walk decision 0 steps = decision b := by
  by_cases hdec : decision b = none
  · have hbn : b = n := hstop.resolve_left (not_not.mpr hdec)
    obtain ⟨steps, hsteps, hsum, hwalk⟩ := exists_quiet_walk h0 b h hdec
    exact ⟨steps, hsteps, hsum.trans hbn, hwalk.trans hdec.symm⟩
  · have hpos : 0 < b := Nat.pos_of_ne_zero fun hzero => hdec (hzero ▸ h0)
    obtain ⟨a, hab, hle, ha⟩ := h.exists_before h0 hpos
    obtain ⟨steps, hsteps, hsum, hwalk⟩ := exists_quiet_walk h0 a (h.mono hab.le) ha
    -- the rest of the way does not matter
    refine ⟨steps ++ (b - a) :: List.replicate (n - b) 1, ?_, ?_, ?_⟩
    · refine List.forall_mem_append.mpr ⟨hsteps, List.forall_mem_cons.mpr ⟨?_, ?_⟩⟩
      · omega
      · exact steps_replicate_one hlimit _
    · rw [List.sum_append, hsum, List.sum_cons, List.sum_replicate_nat, Nat.mul_one]
      omega
    · have hend : 0 + steps.sum + (b - a) = b := by omega
      rw [walk_append hwalk, walk_cons_of_decides (by rw [hend]; exact hdec), hend]

/-- **Agreement.** All observers that walk from `0` to `n` take the same decision exactly when all
exposed stops have the same one. -/
theorem walks_agree_iff (hlimit : 0 < limit) (h0 : decision 0 = none) :
    (∀ steps steps', Steps limit steps → steps.sum = n → Steps limit steps' → steps'.sum = n →
      walk decision 0 steps = walk decision 0 steps') ↔
    ∀ b ≤ n, ∀ b' ≤ n, Exposed decision limit b → Exposed decision limit b' →
      Stop decision n b → Stop decision n b' → decision b = decision b' := by
  constructor
  · intro hagree b hb b' hb' he he' hs hs'
    obtain ⟨steps, hsteps, hsum, hwalk⟩ := exists_walk_of_exposed hlimit h0 hb he hs
    obtain ⟨steps', hsteps', hsum', hwalk'⟩ := exists_walk_of_exposed hlimit h0 hb' he' hs'
    rw [← hwalk, ← hwalk']
    exact hagree steps steps' hsteps hsum hsteps' hsum'
  · intro hstops steps steps' hsteps hsum hsteps' hsum'
    have hstart : Exposed decision limit 0 := fun g hg => absurd hg (Nat.not_lt_zero _)
    obtain ⟨b, hb, he, hs, hwalk⟩ := exists_exposed_of_walk hstart h0 hsteps
      ((Nat.zero_add _).trans hsum)
    obtain ⟨b', hb', he', hs', hwalk'⟩ := exists_exposed_of_walk hstart h0 hsteps'
      ((Nat.zero_add _).trans hsum')
    rw [hwalk, hwalk']
    exact hstops b hb b' hb' he he' hs hs'

end Checkpoints
