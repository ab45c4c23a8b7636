import Mathlib.Data.Nat.ModEq
import Mathlib.Tactic.SplitIfs

/-!
# Counters seen modulo their period

A reader that sees a counter modulo `m` only, but looks often enough, can tell its value:
`unwrap m previous low` is the first number from `previous` on that shows as `low`
(`unwrap_eq_iff`). `mod_div_eq_iff` is about a quotient taken from what a product shows as, and
`and_mask_shiftLeft` about the part of a word that does not show.
-/

namespace Wrapping

/-- The first number from `previous` on that is `low` modulo `m`. -/
def unwrap (m previous low : ℕ) : ℕ := previous + (low + (m - previous % m)) % m

section Unwrap

variable {m previous low t u : ℕ}

theorem le_unwrap : previous ≤ unwrap m previous low := Nat.le_add_right _ _

theorem unwrap_lt (hm : 0 < m) : unwrap m previous low < previous + m :=
  Nat.add_lt_add_left (Nat.mod_lt _ hm) _

theorem unwrap_mod (hlow : low < m) : unwrap m previous low % m = low := by
  have hrest := Nat.mod_lt previous (Nat.zero_lt_of_lt hlow)
  have hsplit := Nat.mod_add_div previous m
  have hmultiple : previous + (low + (m - previous % m)) = low + m * (previous / m + 1) := by
    rw [Nat.mul_add, Nat.mul_one]
    omega
  unfold unwrap
  rw [Nat.add_mod_mod, hmultiple, Nat.add_mul_mod_self_left, Nat.mod_eq_of_lt hlow]

/-- Within one period from `previous` on, a number is known by its residue. -/
theorem eq_of_mod_eq (ht : previous ≤ t) (htm : t < previous + m) (hu : previous ≤ u)
    (hum : u < previous + m) (h : t % m = u % m) : t = u := by
  obtain ⟨a, rfl⟩ := Nat.exists_eq_add_of_le ht
  obtain ⟨b, rfl⟩ := Nat.exists_eq_add_of_le hu
  have hmod : a ≡ b [MOD m] := Nat.ModEq.add_left_cancel' previous h
  rw [hmod.eq_of_lt_of_lt (Nat.lt_of_add_lt_add_left htm) (Nat.lt_of_add_lt_add_left hum)]

theorem unwrap_eq_iff (hlow : low < m) :
    unwrap m previous low = t ↔ previous ≤ t ∧ t < previous + m ∧ t % m = low := by
  have hlt : unwrap m previous low < previous + m := unwrap_lt (Nat.zero_lt_of_lt hlow)
  constructor
  · rintro rfl
    exact ⟨le_unwrap, hlt, unwrap_mod hlow⟩
  · rintro ⟨hle, htm, hmod⟩
    exact eq_of_mod_eq le_unwrap hlt hle htm ((unwrap_mod hlow).trans hmod.symm)

/-- The quotient is kept, or goes up by one where the residue has gone down. -/
theorem unwrap_eq_ite (hlow : low < m) :
    unwrap m previous low =
      (previous / m + if low < previous % m then 1 else 0) * m + low := by
  have hrest := Nat.mod_lt previous (Nat.zero_lt_of_lt hlow)
  have hsplit : previous / m * m + previous % m = previous := Nat.div_add_mod' previous m
  rw [unwrap_eq_iff hlow]
  refine ⟨?_, ?_, ?_⟩
  · split_ifs
    · rw [Nat.succ_mul]
      omega
    · rw [Nat.add_zero]
      omega
  · split_ifs
    · rw [Nat.succ_mul]
      omega
    · rw [Nat.add_zero]
      omega
  · rw [Nat.add_comm, Nat.add_mul_mod_self_right, Nat.mod_eq_of_lt hlow]

end Unwrap

/-- A quotient survives a wrap of its dividend only if there was none. -/
theorem mod_div_eq_iff {n m d : ℕ} (hd : 0 < d) (hdm : d ≤ m) : n % m / d = n / d ↔ n < m := by
  constructor
  · intro heq
    by_contra hge
    have hle : m ≤ n := Nat.le_of_not_lt hge
    have hmod : n % m + d ≤ n := by
      rw [Nat.mod_eq_sub_mod hle]
      have := Nat.mod_le (n - m) m
      omega
    have hdiv : n % m / d + 1 ≤ n / d := by
      rw [← Nat.add_div_right _ hd]
      exact Nat.div_le_div_right hmod
    omega
  · intro hlt
    rw [Nat.mod_eq_of_lt hlt]

theorem and_mask_shiftLeft {x k n : ℕ} (h : x < 2 ^ (k + n)) :
    x &&& (2 ^ n - 1) <<< k = (x >>> k) <<< k := by
  apply Nat.eq_of_testBit_eq
  intro i
  rw [Nat.testBit_and, Nat.testBit_shiftLeft, Nat.testBit_shiftLeft, Nat.testBit_shiftRight,
    Nat.testBit_two_pow_sub_one]
  by_cases hk : i ≥ k
  · rw [Nat.add_sub_cancel' hk]
    by_cases hn : i - k < n
    · simp [hk, hn]
    · have hbit : x.testBit i = false := by
        apply Nat.testBit_lt_two_pow
        exact Nat.lt_of_lt_of_le h (Nat.pow_le_pow_right (by decide) (by omega))
      simp [hbit]
  · simp [hk]

end Wrapping
