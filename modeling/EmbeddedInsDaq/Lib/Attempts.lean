import Mathlib.Logic.Basic

/-!
# Calls up to the first failure

A sequence of calls on a state, each of which returns a status, stops at the first status other than
`ok` (`untilError`). `Stages` is the rule for such a sequence: it says what holds before each call,
and what holds when a call has failed, whichever one it was.
-/

namespace Attempts

variable {ε σ : Type*} [DecidableEq ε] (ok : ε)

/-- The calls one after the other, up to the first that fails. -/
def untilError : List (σ → ε × σ) → σ → ε × σ
  | [], s => (ok, s)
  | call :: calls, s =>
    let (err, s) := call s
    if err = ok then untilError calls s else (err, s)

/-- Each of the calls succeeds behind the ones before it. -/
def AllOk : List (σ → ε × σ) → σ → Prop
  | [], _ => True
  | call :: calls, s => (call s).1 = ok ∧ AllOk calls (call s).2

/-- The calls take `P` to `Q` when they succeed, and a failure leaves `Broken`. -/
inductive Stages (Broken : σ → Prop) : (σ → Prop) → List (σ → ε × σ) → (σ → Prop) → Prop
  | nil {P : σ → Prop} : Stages Broken P [] P
  | cons {P P' Q : σ → Prop} {call : σ → ε × σ} {calls : List (σ → ε × σ)}
      (hok : ∀ s, P s → (call s).1 = ok → P' (call s).2)
      (herr : ∀ s, P s → (call s).1 ≠ ok → Broken (call s).2)
      (h : Stages Broken P' calls Q) : Stages Broken P (call :: calls) Q

variable {ok} {call : σ → ε × σ} {calls : List (σ → ε × σ)} {s : σ}

theorem untilError_cons_of_ok (h : (call s).1 = ok) :
    untilError ok (call :: calls) s = untilError ok calls (call s).2 := if_pos h

theorem untilError_cons_of_ne (h : (call s).1 ≠ ok) :
    untilError ok (call :: calls) s = call s := if_neg h

theorem untilError_eq_ok_iff : (untilError ok calls s).1 = ok ↔ AllOk ok calls s := by
  induction calls generalizing s with
  | nil => exact iff_of_true rfl trivial
  | cons call calls ih =>
    rw [AllOk]
    by_cases h : (call s).1 = ok
    · rw [untilError_cons_of_ok h, ih]
      exact (and_iff_right h).symm
    · rw [untilError_cons_of_ne h]
      exact iff_of_false h fun hall => h hall.1

/-- **Rule.** The calls either all succeed, and `Q` holds, or one fails, and `Broken` holds. -/
theorem Stages.untilError {Broken P Q : σ → Prop} (h : Stages ok Broken P calls Q) (hs : P s) :
    (untilError ok calls s).1 = ok ∧ Q (untilError ok calls s).2 ∨
      (untilError ok calls s).1 ≠ ok ∧ Broken (untilError ok calls s).2 := by
  induction h generalizing s with
  | nil => exact .inl ⟨rfl, hs⟩
  | @cons _ _ _ call calls hok herr _ ih =>
    by_cases hcall : (call s).1 = ok
    · rw [untilError_cons_of_ok hcall]
      exact ih (hok s hs hcall)
    · rw [untilError_cons_of_ne hcall]
      exact .inr ⟨hcall, herr s hs hcall⟩

end Attempts
