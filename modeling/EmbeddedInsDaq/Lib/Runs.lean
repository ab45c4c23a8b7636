import Mathlib.Data.List.Induction
import Mathlib.Order.Basic

/-!
# Runs of a machine with return values

A machine is a function `step : σ → α → ρ × σ`: an operation `a` in the state `s` returns
`(step s a).1` and leaves `(step s a).2`. `run` is the state after a list of operations and
`trace` pairs each operation with what it returned.

`run_trace_induction` is the induction over runs with their history; the other rules are its
instances for the shapes that occur: an invariant, a quantity that only grows, an event that
spends a potential, and a simulation between a run and the same run with some operations erased.
-/

namespace Machine

variable {σ α ρ : Type*} (step : σ → α → ρ × σ)

/-- The state after the operations `as`, from `s`. -/
def run : σ → List α → σ
  | s, [] => s
  | s, a :: as => run (step s a).2 as

/-- The operations of a run, each with what it returned. -/
def trace : σ → List α → List (α × ρ)
  | _, [] => []
  | s, a :: as => (a, (step s a).1) :: trace (step s a).2 as

@[simp] theorem run_nil (s : σ) : run step s [] = s := rfl

@[simp] theorem run_cons (s : σ) (a : α) (as : List α) :
    run step s (a :: as) = run step (step s a).2 as := rfl

@[simp] theorem trace_nil (s : σ) : trace step s [] = [] := rfl

@[simp] theorem trace_cons (s : σ) (a : α) (as : List α) :
    trace step s (a :: as) = (a, (step s a).1) :: trace step (step s a).2 as := rfl

theorem run_append (s : σ) (as bs : List α) :
    run step s (as ++ bs) = run step (run step s as) bs := by
  induction as generalizing s with
  | nil => rfl
  | cons a as ih => exact ih _

theorem run_concat (s : σ) (as : List α) (a : α) :
    run step s (as ++ [a]) = (step (run step s as) a).2 := by
  rw [run_append]; rfl

theorem trace_append (s : σ) (as bs : List α) :
    trace step s (as ++ bs) = trace step s as ++ trace step (run step s as) bs := by
  induction as generalizing s with
  | nil => rfl
  | cons a as ih => simp only [List.cons_append, trace_cons, run_cons, ih]

theorem trace_concat (s : σ) (as : List α) (a : α) :
    trace step s (as ++ [a]) = trace step s as ++ [(a, (step (run step s as) a).1)] := by
  rw [trace_append]; rfl

theorem map_fst_trace (s : σ) (as : List α) : (trace step s as).map Prod.fst = as := by
  induction as generalizing s with
  | nil => rfl
  | cons a as ih => rw [trace_cons, List.map_cons, ih]

variable {step}

/-- **Induction over a run and its history.** What holds of the start with no history, and is
kept by one more operation, holds of every run. -/
theorem run_trace_induction {P : σ → List (α × ρ) → Prop} {s : σ} (h0 : P s [])
    (hstep : ∀ t hist a, P t hist → P (step t a).2 (hist ++ [(a, (step t a).1)])) (as : List α) :
    P (run step s as) (trace step s as) := by
  induction as using List.reverseRecOn with
  | nil => exact h0
  | append_singleton as a ih =>
    rw [run_concat, trace_concat]
    exact hstep _ _ a ih

theorem run_invariant {I : σ → Prop} (hstep : ∀ t a, I t → I (step t a).2) {s : σ} (h0 : I s)
    (as : List α) : I (run step s as) :=
  run_trace_induction (P := fun t _ => I t) h0 (fun t _ a => hstep t a) as

/-- **Broken invariants.** When the `Bad` operations are the ones that break an invariant, it holds
in all states of a run exactly if no operation of the run is bad. -/
theorem run_invariant_iff {I : σ → Prop} {Bad : σ → α → Prop}
    (hstep : ∀ t a, I t → (I (step t a).2 ↔ ¬ Bad t a)) {s : σ} (h0 : I s) (as : List α) :
    (∀ pre, pre <+: as → I (run step s pre)) ↔
      ∀ pre a, pre ++ [a] <+: as → ¬ Bad (run step s pre) a := by
  constructor
  · intro h pre a hpre
    have hnext := h _ hpre
    rw [run_concat] at hnext
    exact (hstep _ a (h pre ((List.prefix_append pre [a]).trans hpre))).mp hnext
  · intro h pre hpre
    induction pre using List.reverseRecOn with
    | nil => exact h0
    | append_singleton pre a ih =>
      rw [run_concat]
      exact (hstep _ a (ih ((List.prefix_append pre [a]).trans hpre))).mpr (h pre a hpre)

theorem run_mono {β : Type*} [Preorder β] (m : σ → β) (hstep : ∀ t a, m t ≤ m (step t a).2)
    (s : σ) (as : List α) : m s ≤ m (run step s as) :=
  run_invariant (I := fun t => m s ≤ m t) (fun t a h => h.trans (hstep t a)) le_rfl as

/-- **Potentials.** When every event `E` is paid for by the potential `tok` and no operation
raises it, the events of a run and the potential left over are bounded by the potential at the
start. -/
theorem countP_trace_add_le (E : α × ρ → Bool) (tok : σ → ℕ)
    (hstep : ∀ t a, (if E (a, (step t a).1) then 1 else 0) + tok (step t a).2 ≤ tok t)
    (s : σ) (as : List α) : (trace step s as).countP E + tok (run step s as) ≤ tok s := by
  refine run_trace_induction (P := fun t hist => hist.countP E + tok t ≤ tok s) (by simp) ?_ as
  intro t hist a ih
  have h := hstep t a
  rw [List.countP_append, List.countP_singleton]
  omega

/-- **Erasing operations.** When `R` is kept by the operations of `keep` made on both sides, which
then return the same, and by every other operation made on the left alone, a run is related to the
run without the other operations, and what the kept operations return is the same in both. -/
theorem run_erase (keep : α → Bool) {R : σ → σ → Prop}
    (hkeep : ∀ s t a, keep a = true → R s t →
      (step s a).1 = (step t a).1 ∧ R (step s a).2 (step t a).2)
    (hdrop : ∀ s t a, keep a = false → R s t → R (step s a).2 t)
    (as : List α) {s t : σ} (h : R s t) :
    R (run step s as) (run step t (as.filter keep)) ∧
      (trace step s as).filter (fun e => keep e.1) = trace step t (as.filter keep) := by
  induction as generalizing s t with
  | nil => exact ⟨h, rfl⟩
  | cons a as ih =>
    cases hk : keep a with
    | true =>
      obtain ⟨hr, hR⟩ := hkeep s t a hk h
      obtain ⟨ih₁, ih₂⟩ := ih hR
      simp only [List.filter_cons, hk, if_true, run_cons, trace_cons]
      exact ⟨ih₁, by rw [ih₂, hr]⟩
    | false =>
      obtain ⟨ih₁, ih₂⟩ := ih (hdrop s t a hk h)
      simp only [List.filter_cons, hk, run_cons, trace_cons]
      exact ⟨ih₁, ih₂⟩

end Machine
