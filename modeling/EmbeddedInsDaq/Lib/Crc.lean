import EmbeddedInsDaq.Lib.Folds
import Mathlib.Data.Nat.Notation
import Mathlib.Logic.Function.Iterate
import Mathlib.Tactic.SplitIfs

/-!
# Reflected cyclic redundancy checks

The bit-at-a-time register of a reflected CRC over `BitVec w`. A step is linear in exclusive or
(`bitStep_xor`) and, when the top bit of the polynomial is set, injective (`bitStep_injective`).
From the first follows that a lookup table may take several bits at once (`bitSteps_eq_low_xor`) and
that bytes enter as one word (`update_eq_word`), from both that a change within `w` consecutive bits
always shows (`update_burst_ne`).
-/

namespace Crc

variable {w : ℕ} (poly : BitVec w)

/-- One bit: shift right, and subtract the polynomial when a one falls out. -/
def bitStep (x : BitVec w) : BitVec w :=
  if x.getLsbD 0 then (x >>> 1) ^^^ poly else x >>> 1

/-- `n` bits. -/
def bitSteps (n : ℕ) (x : BitVec w) : BitVec w := (bitStep poly)^[n] x

/-- One byte. -/
def byteStep (x : BitVec w) (b : UInt8) : BitVec w := bitSteps poly 8 (x ^^^ b.toBitVec.setWidth w)

/-- A byte string. -/
def update (x : BitVec w) (bs : List UInt8) : BitVec w := bs.foldl (byteStep poly) x

/-- The checksum: the register starts with ones and is complemented at the end. -/
def checksum (bs : List UInt8) : BitVec w := ~~~ update poly (BitVec.allOnes w) bs

theorem update_append (x : BitVec w) (as bs : List UInt8) :
    update poly x (as ++ bs) = update poly (update poly x as) bs :=
  List.foldl_append

/-- Chaining through the complement, as checksum functions with a start value do. -/
theorem not_update_not_checksum (as bs : List UInt8) :
    ~~~ update poly (~~~ checksum poly as) bs = checksum poly (as ++ bs) := by
  unfold checksum
  rw [BitVec.not_not, update_append]

/-! ## Linearity -/

theorem xor_xor_cancel (a b c : BitVec w) : (a ^^^ c) ^^^ (b ^^^ c) = a ^^^ b := by
  rw [BitVec.xor_comm b c, BitVec.xor_assoc, ← BitVec.xor_assoc c c b, BitVec.xor_self,
    BitVec.zero_xor]

theorem bitStep_xor (x y : BitVec w) :
    bitStep poly (x ^^^ y) = bitStep poly x ^^^ bitStep poly y := by
  unfold bitStep
  rw [BitVec.getLsbD_xor, BitVec.ushiftRight_xor_distrib]
  cases x.getLsbD 0 <;> cases y.getLsbD 0
  · rfl
  · exact BitVec.xor_assoc _ _ _
  · show (x >>> 1 ^^^ y >>> 1) ^^^ poly = (x >>> 1 ^^^ poly) ^^^ y >>> 1
    rw [BitVec.xor_assoc, BitVec.xor_comm (y >>> 1), ← BitVec.xor_assoc]
  · exact (xor_xor_cancel _ _ _).symm

theorem bitSteps_succ (n : ℕ) (x : BitVec w) :
    bitSteps poly (n + 1) x = bitStep poly (bitSteps poly n x) :=
  Function.iterate_succ_apply' _ _ _

theorem bitSteps_add (m n : ℕ) (x : BitVec w) :
    bitSteps poly (m + n) x = bitSteps poly m (bitSteps poly n x) :=
  Function.iterate_add_apply _ _ _ _

theorem bitSteps_xor (n : ℕ) (x y : BitVec w) :
    bitSteps poly n (x ^^^ y) = bitSteps poly n x ^^^ bitSteps poly n y := by
  induction n with
  | zero => rfl
  | succ n ih => rw [bitSteps_succ, bitSteps_succ, bitSteps_succ, ih, bitStep_xor]

theorem bitSteps_of_low_clear {n : ℕ} {x : BitVec w} (h : ∀ i < n, x.getLsbD i = false) :
    bitSteps poly n x = x >>> n := by
  induction n with
  | zero => exact (BitVec.ushiftRight_zero x).symm
  | succ n ih =>
    have hlow : (x >>> n).getLsbD 0 = false := by
      rw [BitVec.getLsbD_ushiftRight]
      exact h n (Nat.lt_succ_self n)
    rw [bitSteps_succ, ih fun i hi => h i (Nat.lt_succ_of_lt hi), bitStep, hlow,
      BitVec.shiftRight_add]
    rfl

/-- The low `n` bits. -/
def low (n : ℕ) (x : BitVec w) : BitVec w := (x.setWidth n).setWidth w

theorem getLsbD_low (n : ℕ) (x : BitVec w) (i : ℕ) :
    (low n x).getLsbD i = (decide (i < n) && x.getLsbD i) := by
  unfold low
  rw [BitVec.getLsbD_setWidth, BitVec.getLsbD_setWidth]
  by_cases hi : i < w
  · simp [hi]
  · simp [BitVec.getLsbD_of_ge x i (Nat.le_of_not_lt hi), hi]

/-- **Tables.** `n` bits at once: those of the low part, and the rest moved down. -/
theorem bitSteps_eq_low_xor (n : ℕ) (x : BitVec w) :
    bitSteps poly n x = (x >>> n) ^^^ bitSteps poly n (low n x) := by
  have hclear : ∀ i < n, (x ^^^ low n x).getLsbD i = false := by
    intro i hi
    rw [BitVec.getLsbD_xor, getLsbD_low]
    simp [hi]
  have hshift : (x ^^^ low n x) >>> n = x >>> n := by
    apply BitVec.eq_of_getLsbD_eq
    intro i _
    have hge : decide (n + i < n) = false := decide_eq_false (by omega)
    rw [BitVec.getLsbD_ushiftRight, BitVec.getLsbD_ushiftRight, BitVec.getLsbD_xor, getLsbD_low,
      hge, Bool.false_and, Bool.xor_false]
  have hsplit : (x ^^^ low n x) ^^^ low n x = x := by
    rw [BitVec.xor_assoc, BitVec.xor_self, BitVec.xor_zero]
  calc bitSteps poly n x
      = bitSteps poly n ((x ^^^ low n x) ^^^ low n x) := by rw [hsplit]
    _ = bitSteps poly n (x ^^^ low n x) ^^^ bitSteps poly n (low n x) := bitSteps_xor _ _ _ _
    _ = (x >>> n) ^^^ bitSteps poly n (low n x) := by
      rw [bitSteps_of_low_clear poly hclear, hshift]

/-! ## Words -/

/-- Bytes as one word, the first one at the bottom. -/
def word : List UInt8 → BitVec w
  | [] => 0
  | b :: bs => b.toBitVec.setWidth w ^^^ word bs <<< 8

theorem getLsbD_word_cons (b : UInt8) (bs : List UInt8) {i : ℕ} (hi : i < w) :
    (word (b :: bs) : BitVec w).getLsbD i =
      if i < 8 then b.toBitVec.getLsbD i else (word bs : BitVec w).getLsbD (i - 8) := by
  rw [word, BitVec.getLsbD_xor, BitVec.getLsbD_setWidth, BitVec.getLsbD_shiftLeft]
  split_ifs with h8
  · simp [hi, h8]
  · simp [hi, h8, BitVec.getLsbD_of_ge b.toBitVec i (Nat.le_of_not_lt h8)]

theorem getLsbD_word_of_ge {bs : List UInt8} {i : ℕ} (h : 8 * bs.length ≤ i) :
    (word bs : BitVec w).getLsbD i = false := by
  induction bs generalizing i with
  | nil => exact BitVec.getLsbD_zero
  | cons b bs ih =>
    rw [List.length_cons] at h
    by_cases hi : i < w
    · rw [getLsbD_word_cons b bs hi, if_neg (by omega)]
      exact ih (by omega)
    · exact BitVec.getLsbD_of_ge _ i (Nat.le_of_not_lt hi)

theorem word_inj {as bs : List UInt8} (hlength : as.length = bs.length) (hw : 8 * as.length ≤ w)
    (h : (word as : BitVec w) = word bs) : as = bs := by
  induction as generalizing bs with
  | nil => exact (List.eq_nil_of_length_eq_zero hlength.symm).symm
  | cons a as ih =>
    cases bs with
    | nil => exact nomatch hlength
    | cons b bs =>
      rw [List.length_cons] at hw
      have hbit (i : ℕ) := congrArg (fun x => BitVec.getLsbD x i) h
      have hhead : a = b := by
        apply UInt8.toBitVec_inj.mp
        apply BitVec.eq_of_getLsbD_eq
        intro i hi
        have := hbit i
        rwa [getLsbD_word_cons a as (by omega), getLsbD_word_cons b bs (by omega), if_pos hi,
          if_pos hi] at this
      have htail : (word as : BitVec w) = word bs := by
        apply BitVec.eq_of_getLsbD_eq
        intro i hi
        by_cases hhigh : 8 * as.length ≤ i
        · rw [getLsbD_word_of_ge hhigh, getLsbD_word_of_ge (Nat.succ.inj hlength ▸ hhigh)]
        · have := hbit (i + 8)
          rwa [getLsbD_word_cons a as (by omega), getLsbD_word_cons b bs (by omega),
            if_neg (by omega), if_neg (by omega), Nat.add_sub_cancel] at this
      rw [hhead, ih (Nat.succ.inj hlength) (by omega) htail]

theorem shiftLeft_word_ushiftRight {bs : List UInt8} (h : 8 * bs.length + 8 ≤ w) :
    ((word bs : BitVec w) <<< 8) >>> 8 = word bs := by
  apply BitVec.eq_of_getLsbD_eq
  intro i hi
  rw [BitVec.getLsbD_ushiftRight, BitVec.getLsbD_shiftLeft]
  by_cases hhigh : 8 * bs.length ≤ i
  · rw [getLsbD_word_of_ge (by omega), getLsbD_word_of_ge hhigh, Bool.and_false]
  · simp [show 8 + i < w by omega]

/-- **Words.** Up to `w` bits of bytes enter the register as one word. -/
theorem update_eq_word {bs : List UInt8} (h : 8 * bs.length ≤ w) (x : BitVec w) :
    update poly x bs = bitSteps poly (8 * bs.length) (x ^^^ word bs) := by
  induction bs generalizing x with
  | nil => exact (BitVec.xor_zero).symm
  | cons b bs ih =>
    rw [List.length_cons] at h
    have hclear : ∀ i < 8, ((word bs : BitVec w) <<< 8).getLsbD i = false := by
      intro i hi
      rw [BitVec.getLsbD_shiftLeft]
      simp [hi]
    calc update poly x (b :: bs)
        = bitSteps poly (8 * bs.length)
            (bitSteps poly 8 (x ^^^ b.toBitVec.setWidth w) ^^^ word bs) := ih (by omega) _
      _ = bitSteps poly (8 * bs.length)
            (bitSteps poly 8 ((x ^^^ b.toBitVec.setWidth w) ^^^ word bs <<< 8)) := by
        rw [bitSteps_xor poly 8 (x ^^^ _), bitSteps_of_low_clear poly hclear,
          shiftLeft_word_ushiftRight (by omega)]
      _ = bitSteps poly (8 * (b :: bs).length) (x ^^^ word (b :: bs)) := by
        rw [← bitSteps_add, word, BitVec.xor_assoc]
        rfl

/-! ## Injectivity -/

section Injective

variable {poly} (hp : poly.getLsbD (w - 1) = true)

include hp

theorem width_pos : 0 < w := by
  by_contra h
  rw [BitVec.getLsbD_of_ge poly _ (by omega)] at hp
  exact nomatch hp

theorem getLsbD_top_bitStep (x : BitVec w) :
    (bitStep poly x).getLsbD (w - 1) = x.getLsbD 0 := by
  have hw := width_pos hp
  have htop : (x >>> 1).getLsbD (w - 1) = false := by
    rw [BitVec.getLsbD_ushiftRight]
    exact BitVec.getLsbD_of_ge x _ (by omega)
  unfold bitStep
  cases x.getLsbD 0
  · exact htop
  · show ((x >>> 1) ^^^ poly).getLsbD (w - 1) = true
    rw [BitVec.getLsbD_xor, htop, hp]
    rfl

theorem bitStep_injective : Function.Injective (bitStep poly) := by
  intro x y h
  have h0 : x.getLsbD 0 = y.getLsbD 0 := by
    rw [← getLsbD_top_bitStep hp x, ← getLsbD_top_bitStep hp y, h]
  have hshift : x >>> 1 = y >>> 1 := by
    unfold bitStep at h
    rw [h0] at h
    cases hy : y.getLsbD 0 <;> rw [hy] at h
    · exact h
    · have := congrArg (· ^^^ poly) h
      simpa [BitVec.xor_assoc] using this
  apply BitVec.eq_of_getLsbD_eq
  intro i _
  cases i with
  | zero => exact h0
  | succ i =>
    have := congrArg (fun z => BitVec.getLsbD z i) hshift
    simpa [BitVec.getLsbD_ushiftRight, Nat.add_comm] using this

theorem bitSteps_injective (n : ℕ) : Function.Injective (bitSteps poly n) :=
  (bitStep_injective hp).iterate n

theorem byteStep_injective_left (b : UInt8) :
    Function.Injective fun x => byteStep poly x b := by
  intro x y h
  have := bitSteps_injective hp 8 h
  exact (BitVec.xor_left_inj _).mp this

theorem update_injective (bs : List UInt8) : Function.Injective fun x => update poly x bs :=
  Folds.foldl_injective (byteStep_injective_left hp) bs

theorem update_injective_short {as bs : List UInt8} (hlength : as.length = bs.length)
    (hw : 8 * as.length ≤ w) {x : BitVec w} (h : update poly x as = update poly x bs) :
    as = bs := by
  rw [update_eq_word poly hw, update_eq_word poly (hlength ▸ hw), hlength] at h
  exact word_inj hlength hw ((BitVec.xor_right_inj _).mp (bitSteps_injective hp _ h))

/-- **Bursts.** A change within `w` consecutive bits changes the register at the end. -/
theorem update_burst_ne {as bs : List UInt8} (hlength : as.length = bs.length)
    (hw : 8 * as.length ≤ w) (hne : as ≠ bs) (x : BitVec w) (front back : List UInt8) :
    update poly x (front ++ (as ++ back)) ≠ update poly x (front ++ (bs ++ back)) := by
  intro heq
  rw [update_append, update_append, update_append, update_append] at heq
  exact hne (update_injective_short hp hlength hw (update_injective hp back heq))

theorem checksum_burst_ne {as bs : List UInt8} (hlength : as.length = bs.length)
    (hw : 8 * as.length ≤ w) (hne : as ≠ bs) (front back : List UInt8) :
    checksum poly (front ++ (as ++ back)) ≠ checksum poly (front ++ (bs ++ back)) := by
  intro heq
  exact update_burst_ne hp hlength hw hne _ front back (BitVec.not_inj.mp heq)

theorem checksum_set_ne (hw : 8 ≤ w) {bs : List UInt8} {i : ℕ} (hi : i < bs.length) {b : UInt8}
    (hb : b ≠ bs[i]) : checksum poly (bs.set i b) ≠ checksum poly bs := by
  have hset : bs.set i b = bs.take i ++ ([b] ++ bs.drop (i + 1)) := by
    rw [List.set_eq_take_append_cons_drop, if_pos hi]
    rfl
  have hsplit : bs.take i ++ ([bs[i]] ++ bs.drop (i + 1)) = bs := by
    rw [List.singleton_append, List.getElem_cons_drop, List.take_append_drop]
  have hne : [b] ≠ [bs[i]] := fun h => hb (List.singleton_inj.mp h)
  have hlength : [b].length = [bs[i]].length := rfl
  have hburst := checksum_burst_ne hp hlength hw hne (bs.take i) (bs.drop (i + 1))
  rwa [← hset, hsplit] at hburst

end Injective

/-! ## CRC-32 -/

/-- The reflected polynomial of CRC-32. -/
def crc32Poly : BitVec 32 := 0xedb88320

theorem crc32Poly_top : crc32Poly.getLsbD (32 - 1) = true := by decide

end Crc
