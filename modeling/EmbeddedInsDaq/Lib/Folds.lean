import Mathlib.Data.List.Chain
import Mathlib.Logic.Function.Basic

/-!
# Folds

A fold with a step that loses nothing of its state loses nothing of the state it starts from
(`foldl_injective`), and one that takes each input in without loss tells two runs apart that differ
in one input (`foldl_append_cons_ne`). `scanl_eq_of_isChain` is about a fold whose step knows the
next state from an observation of it.
-/

namespace Folds

variable {α β : Type*} {step : β → α → β}

section Injective

variable (hstate : ∀ a, Function.Injective fun b => step b a)

include hstate

theorem foldl_injective (as : List α) : Function.Injective fun b => as.foldl step b := by
  induction as with
  | nil => exact fun _ _ h => h
  | cons a as ih => exact fun _ _ h => hstate a (ih h)

/-- **Edits.** Another input at one place of a run makes for another state at its end. -/
theorem foldl_append_cons_ne (hinput : ∀ b, Function.Injective (step b)) {a a' : α} (hne : a ≠ a')
    (b : β) (front back : List α) :
    (front ++ a :: back).foldl step b ≠ (front ++ a' :: back).foldl step b := by
  intro heq
  rw [List.foldl_append, List.foldl_append, List.foldl_cons, List.foldl_cons] at heq
  exact hne (hinput _ (foldl_injective hstate back heq))

end Injective

/-- **Tracking.** A step that tells the next state from what is observed of it, whenever the two are
related, recovers every run of related states. -/
theorem scanl_eq_of_isChain {observe : β → α} {R : β → β → Prop}
    (hstep : ∀ b c, R b c → step b (observe c) = c) {b : β} {bs : List β}
    (h : (b :: bs).IsChain R) : (bs.map observe).scanl step b = b :: bs := by
  induction bs generalizing b with
  | nil => rfl
  | cons c bs ih =>
    obtain ⟨hbc, hrest⟩ := List.isChain_cons_cons.mp h
    rw [List.map_cons, List.scanl_cons, hstep b c hbc, ih hrest]

end Folds
