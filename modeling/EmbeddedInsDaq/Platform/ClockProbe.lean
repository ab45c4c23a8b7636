import EmbeddedInsDaq.Lib.Folds
import EmbeddedInsDaq.Lib.Wrapping
import EmbeddedInsDaq.Platform.RuntimeTypes

/-!
# The clock probe helpers

`clock_probe.c`: the check that a clock never steps back, which stops at the first sample that does
(`clock_probe_monotonic_exact`), the extension of a wrapping 32-bit timer word to a 64-bit counter,
which tracks the real counter as long as no two readings are a whole wrap apart
(`clock_probe_extend_tracks`), and the conversion of ticks to microseconds, which is exact as long
as its 64-bit product is (`clock_probe_ticks_to_us_exact_iff`).
-/

namespace EmbeddedInsDaq

open Folds Function Wrapping

namespace ClockProbe

variable {p : Platform} {σ : Type*}

/-- The loop of `clock_probe_monotonic` at the index `i`, with `remaining` samples to read: what it
returns, the sample it reports and the context it leaves. -/
def monotonicLoop (readFn : σ → UInt64 × σ) : ℕ → ℕ → UInt64 → σ → Bool × UInt64 × σ
  | 0, _, previous, ctx => (true, previous, ctx)
  | remaining + 1, i, previous, ctx =>
    let (current, ctx) := readFn ctx
    if 0 < i ∧ current < previous then (false, current, ctx)
    else monotonicLoop readFn remaining (i + 1) current ctx

/-- `clock_probe_monotonic`. The reader takes the memory behind `ctx` to a sample and the memory it
leaves; `lastSampleOut` is what is behind that pointer, or `none` for `NULL`. -/
def monotonic (readFn : Option (σ → UInt64 × σ)) (ctx : σ) (sampleCount : SizeT p)
    (lastSampleOut : Option UInt64) : Bool × Option UInt64 × σ :=
  match readFn with
  | none => (false, lastSampleOut.map fun _ => 0, ctx)
  | some readFn =>
    if sampleCount = 0 then (false, lastSampleOut.map fun _ => 0, ctx)
    else
      let (result, sample, ctx) := monotonicLoop readFn sampleCount.toNat 0 0 ctx
      (result, lastSampleOut.map fun _ => sample, ctx)

/-- `clock_probe_extend_low_word`. -/
def extendLowWord (previousExtended : UInt64) (nextLowWord : UInt32) : UInt64 :=
  -- Preserve the previous high word unless the low word wrapped.
  let highWord := previousExtended &&& 0xffffffff00000000
  let previousLowWord := (previousExtended &&& 0xffffffff).toUInt32
  let highWord := if nextLowWord < previousLowWord then highWord + 0x100000000 else highWord
  highWord ||| nextLowWord.toUInt64

/-- `clock_probe_ticks_to_us`. -/
def ticksToUs (ticks : UInt64) (resolutionHz : UInt32) : UInt64 :=
  if resolutionHz = 0 then 0 else ticks * 1000000 / resolutionHz.toUInt64

/-! ## Monotonicity -/

section Monotonic

variable (readFn : σ → UInt64 × σ) (ctx : σ)

/-- The context after `k` reads. -/
def contextAfter (k : ℕ) : σ := (fun ctx => (readFn ctx).2)^[k] ctx

/-- The sample of the `k`-th read, counted from 0. -/
def sample (k : ℕ) : UInt64 := (readFn (contextAfter readFn ctx k)).1

theorem readFn_contextAfter (k : ℕ) :
    readFn (contextAfter readFn ctx k) =
      (sample readFn ctx k, contextAfter readFn ctx (k + 1)) := by
  rw [contextAfter, contextAfter, iterate_succ_apply']
  rfl

/-- The loop from its second read on ends at the last sample, or at the first that is smaller than
the one before. -/
theorem monotonicLoop_spec (remaining i : ℕ) :
    ((∀ j, i ≤ j → j < i + remaining → sample readFn ctx j ≤ sample readFn ctx (j + 1)) ∧
      monotonicLoop readFn remaining (i + 1) (sample readFn ctx i) (contextAfter readFn ctx (i + 1))
        = (true, sample readFn ctx (i + remaining), contextAfter readFn ctx (i + remaining + 1))) ∨
    ∃ k, i ≤ k ∧ k < i + remaining ∧
      (∀ j, i ≤ j → j < k → sample readFn ctx j ≤ sample readFn ctx (j + 1)) ∧
      sample readFn ctx (k + 1) < sample readFn ctx k ∧
      monotonicLoop readFn remaining (i + 1) (sample readFn ctx i) (contextAfter readFn ctx (i + 1))
        = (false, sample readFn ctx (k + 1), contextAfter readFn ctx (k + 2)) := by
  induction remaining generalizing i with
  | zero => exact .inl ⟨fun j _ _ => by omega, rfl⟩
  | succ remaining ih =>
    have hloop : monotonicLoop readFn (remaining + 1) (i + 1) (sample readFn ctx i)
        (contextAfter readFn ctx (i + 1)) =
        if 0 < i + 1 ∧ sample readFn ctx (i + 1) < sample readFn ctx i then
          (false, sample readFn ctx (i + 1), contextAfter readFn ctx (i + 2))
        else monotonicLoop readFn remaining (i + 2) (sample readFn ctx (i + 1))
          (contextAfter readFn ctx (i + 2)) := by
      rw [monotonicLoop, readFn_contextAfter readFn ctx]
    rw [hloop]
    by_cases hlt : sample readFn ctx (i + 1) < sample readFn ctx i
    · rw [if_pos ⟨i.succ_pos, hlt⟩]
      exact .inr ⟨i, le_rfl, by omega, fun j _ _ => by omega, hlt, rfl⟩
    rw [if_neg fun h => hlt h.2]
    have hle : ∀ j, i ≤ j → (i + 1 ≤ j → sample readFn ctx j ≤ sample readFn ctx (j + 1)) →
        sample readFn ctx j ≤ sample readFn ctx (j + 1) := by
      intro j hij h
      rcases hij.eq_or_lt with rfl | hij
      · exact UInt64.not_lt.mp hlt
      · exact h hij
    rcases ih (i + 1) with ⟨hall, heq⟩ | ⟨k, hik, hk, hall, hdescent, heq⟩
    · refine .inl ⟨fun j hij hj => hle j hij fun h => hall j h (by omega), ?_⟩
      rw [heq, show i + 1 + remaining = i + (remaining + 1) by omega]
    · exact .inr ⟨k, by omega, by omega, fun j hij hj => hle j hij fun h => hall j h hj, hdescent,
        heq⟩

/-- No sample among the first `n` is smaller than one before it, when none is smaller than the one
just before. -/
theorem sample_le_sample_iff (n : ℕ) :
    (∀ i j, i ≤ j → j < n → sample readFn ctx i ≤ sample readFn ctx j) ↔
      ∀ j, j + 1 < n → sample readFn ctx j ≤ sample readFn ctx (j + 1) := by
  constructor
  · intro h j hj
    exact h j (j + 1) j.le_succ hj
  · intro h i j hij
    induction j, hij using Nat.le_induction with
    | base => exact fun _ => UInt64.le_refl _
    | succ j hij ih => exact fun hj => UInt64.le_trans (ih (by omega)) (h j hj)

theorem monotonic_eq {sampleCount : SizeT p} (hcount : 0 < sampleCount)
    (lastSampleOut : Option UInt64) :
    monotonic (some readFn) ctx sampleCount lastSampleOut =
      match monotonicLoop readFn (sampleCount.toNat - 1) 1 (sample readFn ctx 0)
        (contextAfter readFn ctx 1) with
      | (result, sample, ctx) => (result, lastSampleOut.map fun _ => sample, ctx) := by
  have hpos : 0 < sampleCount.toNat := BitVec.lt_def.mp hcount
  have hne : sampleCount ≠ 0 := fun h => by simp [h] at hpos
  have hfirst : monotonicLoop readFn sampleCount.toNat 0 0 ctx =
      monotonicLoop readFn (sampleCount.toNat - 1) 1 (sample readFn ctx 0)
        (contextAfter readFn ctx 1) := by
    obtain ⟨n, hn⟩ : ∃ n, sampleCount.toNat = n + 1 := ⟨_, (Nat.sub_add_cancel hpos).symm⟩
    rw [hn, monotonicLoop, Nat.add_sub_cancel]
    exact if_neg fun h => absurd h.1 (lt_irrefl 0)
  rw [← hfirst]
  exact if_neg hne

/-- **The probe is exact.** It answers whether the samples that it was to read are non-decreasing.
If they are, it has read them all and reports the last; if not, it has stopped behind the first
that is smaller than the one before, and reports that one. Where it reports to does not matter. -/
theorem clock_probe_monotonic_exact {sampleCount : SizeT p} (hcount : 0 < sampleCount)
    (lastSampleOut : Option UInt64) :
    ((monotonic (some readFn) ctx sampleCount lastSampleOut).1 = true ↔
      ∀ i j, i ≤ j → j < sampleCount.toNat → sample readFn ctx i ≤ sample readFn ctx j) ∧
    ((monotonic (some readFn) ctx sampleCount lastSampleOut).1 = true →
      (monotonic (some readFn) ctx sampleCount lastSampleOut).2 =
        (lastSampleOut.map fun _ => sample readFn ctx (sampleCount.toNat - 1),
          contextAfter readFn ctx sampleCount.toNat)) ∧
    ((monotonic (some readFn) ctx sampleCount lastSampleOut).1 = false →
      ∃ k, k + 1 < sampleCount.toNat ∧
        (∀ i j, i ≤ j → j ≤ k → sample readFn ctx i ≤ sample readFn ctx j) ∧
        sample readFn ctx (k + 1) < sample readFn ctx k ∧
        (monotonic (some readFn) ctx sampleCount lastSampleOut).2 =
          (lastSampleOut.map fun _ => sample readFn ctx (k + 1),
            contextAfter readFn ctx (k + 2))) ∧
    (monotonic (some readFn) ctx sampleCount lastSampleOut).1 =
      (monotonic (some readFn) ctx sampleCount none).1 := by
  have hpos : 0 < sampleCount.toNat := BitVec.lt_def.mp hcount
  rw [monotonic_eq readFn ctx hcount, monotonic_eq readFn ctx hcount, sample_le_sample_iff]
  rcases monotonicLoop_spec readFn ctx (sampleCount.toNat - 1) 0 with
    ⟨hall, heq⟩ | ⟨k, -, hk, hall, hdescent, heq⟩
  · have hlast : 0 + (sampleCount.toNat - 1) + 1 = sampleCount.toNat := by omega
    rw [hlast] at heq
    simp only [Nat.zero_add] at heq hall
    rw [heq]
    exact ⟨⟨fun _ j hj => hall j j.zero_le (by omega), fun _ => rfl⟩, fun _ => rfl, nofun, rfl⟩
  · rw [heq]
    refine ⟨⟨nofun, fun h => ?_⟩, nofun, fun _ => ⟨k, by omega, ?_, hdescent, rfl⟩, rfl⟩
    · exact absurd hdescent (UInt64.not_lt.mpr (h k (by omega)))
    · have hfirst := (sample_le_sample_iff readFn ctx (k + 1)).mpr
        fun j hj => hall j j.zero_le (by omega)
      exact fun i j hij hj => hfirst i j hij (by omega)

end Monotonic

/-- A clock that stands still passes, after as many reads as were asked for: the context of this
reader counts them. -/
theorem clock_probe_monotonic_exact_still :
    (@monotonic .target ℕ (some fun reads => (7, reads + 1)) 0 5 (some 0)).2 = (some 7, 5) :=
  have hspec := @clock_probe_monotonic_exact .target ℕ (fun reads => (7, reads + 1)) 0 5 (by decide)
    (some 0)
  hspec.2.1 (hspec.1.mpr fun _ _ _ _ => UInt64.le_refl 7)

/-! ## Timer extension -/

theorem toNat_highWord (x : UInt64) :
    (x &&& 0xffffffff00000000).toNat = (x.toNat / 2 ^ 32) * 2 ^ 32 := by
  have hmask : (0xffffffff00000000 : UInt64).toNat = (2 ^ 32 - 1) <<< 32 := rfl
  rw [UInt64.toNat_and, hmask, and_mask_shiftLeft x.toNat_lt, Nat.shiftRight_eq_div_pow,
    Nat.shiftLeft_eq]

theorem toNat_lowWord (x : UInt64) :
    (x &&& 0xffffffff).toUInt32.toNat = x.toNat % 2 ^ 32 := by
  have hmask : (0xffffffff : UInt64).toNat = 2 ^ 32 - 1 := rfl
  rw [UInt64.toNat_toUInt32, UInt64.toNat_and, hmask, Nat.and_two_pow_sub_one_eq_mod, Nat.mod_mod]

theorem toNat_or_lowWord {x : UInt64} {q : ℕ} (hx : x.toNat = q * 2 ^ 32) (low : UInt32) :
    (x ||| low.toUInt64).toNat = q * 2 ^ 32 + low.toNat := by
  rw [UInt64.toNat_or, UInt32.toNat_toUInt64, hx, ← Nat.shiftLeft_eq]
  exact (Nat.shiftLeft_add_eq_or_of_lt low.toNat_lt q).symm

/-- **Refinement.** Up to 64 bits, the extension is the first number from the previous one on that
has the given low word. -/
theorem toNat_extendLowWord (previousExtended : UInt64) (nextLowWord : UInt32) :
    (extendLowWord previousExtended nextLowWord).toNat =
      unwrap (2 ^ 32) previousExtended.toNat nextLowWord.toNat % 2 ^ 64 := by
  have hlow := nextLowWord.toNat_lt
  have hhigh := toNat_highWord previousExtended
  have hwraps : nextLowWord < (previousExtended &&& 0xffffffff).toUInt32 ↔
      nextLowWord.toNat < previousExtended.toNat % 2 ^ 32 := by
    rw [UInt32.lt_iff_toNat_lt, toNat_lowWord]
  rw [unwrap_eq_ite hlow]
  unfold extendLowWord
  dsimp only
  by_cases hwrap : nextLowWord < (previousExtended &&& 0xffffffff).toUInt32
  · -- the carry may leave the 64 bits, which then start over
    have hcarry : ((previousExtended &&& 0xffffffff00000000) + 0x100000000).toNat =
        (previousExtended.toNat / 2 ^ 32 + 1) % 2 ^ 32 * 2 ^ 32 := by
      have hperiod : (0x100000000 : UInt64).toNat = 2 ^ 32 := rfl
      rw [UInt64.toNat_add, hhigh, hperiod]
      omega
    rw [if_pos hwrap, if_pos (hwraps.mp hwrap), toNat_or_lowWord hcarry]
    omega
  · have hprevious := previousExtended.toNat_lt
    rw [if_neg hwrap, if_neg (mt hwraps.mpr hwrap), toNat_or_lowWord hhigh]
    omega

/-- Two readings of a counter that are less than a wrap apart. -/
def Follows (t u : UInt64) : Prop := t ≤ u ∧ u.toNat - t.toNat < 2 ^ 32

instance (t u : UInt64) : Decidable (Follows t u) := inferInstanceAs (Decidable (_ ∧ _))

theorem extendLowWord_of_follows {t u : UInt64} (h : Follows t u) :
    extendLowWord t u.toUInt32 = u := by
  obtain ⟨hle, hgap⟩ := h
  rw [UInt64.le_iff_toNat_le] at hle
  have hunwrap : unwrap (2 ^ 32) t.toNat u.toUInt32.toNat = u.toNat := by
    rw [unwrap_eq_iff u.toUInt32.toNat_lt, UInt64.toNat_toUInt32]
    omega
  apply UInt64.toNat_inj.mp
  rw [toNat_extendLowWord, hunwrap, Nat.mod_eq_of_lt u.toNat_lt]

/-- **Tracking.** The extension of the low words of a run of readings, each result fed back, is the
run itself, and so never steps back. -/
theorem clock_probe_extend_tracks {t : UInt64} {ts : List UInt64}
    (h : (t :: ts).IsChain Follows) :
    (ts.map UInt64.toUInt32).scanl extendLowWord t = t :: ts ∧
      ((ts.map UInt64.toUInt32).scanl extendLowWord t).Pairwise (· ≤ ·) := by
  have hscan := scanl_eq_of_isChain (fun _ _ => extendLowWord_of_follows) h
  rw [hscan]
  have hchain : (t :: ts).IsChain (· ≤ ·) := h.imp fun _ _ hfollows => hfollows.1
  exact ⟨rfl, hchain.pairwise⟩

/-- A run over one wrap, with a reading repeated and two readings just short of a wrap apart. -/
theorem clock_probe_extend_tracks_wrap :
    [0x2, 0x2, 0x1].scanl extendLowWord 0xfffffffe =
      [0xfffffffe, 0x100000002, 0x100000002, 0x200000001] :=
  (@clock_probe_extend_tracks 0xfffffffe [0x100000002, 0x100000002, 0x200000001] (by decide)).1

/-! ## Tick conversion -/

theorem toNat_ticksToUs (ticks : UInt64) (resolutionHz : UInt32) :
    (ticksToUs ticks resolutionHz).toNat =
      ticks.toNat * 1000000 % 2 ^ 64 / resolutionHz.toNat := by
  unfold ticksToUs
  by_cases hzero : resolutionHz = 0
  · rw [if_pos hzero, hzero]
    exact (Nat.div_zero _).symm
  · rw [if_neg hzero, UInt64.toNat_div, UInt64.toNat_mul, UInt32.toNat_toUInt64]
    rfl

/-- **Exactness.** The conversion is exact if and only if already the product fits in 64 bits, and
up to there it never steps back. -/
theorem clock_probe_ticks_to_us_exact_iff {ticks : UInt64} {resolutionHz : UInt32}
    (hresolution : 0 < resolutionHz) :
    ((ticksToUs ticks resolutionHz).toNat = ticks.toNat * 1000000 / resolutionHz.toNat ↔
      ticks.toNat * 1000000 < 2 ^ 64) ∧
    (ticks.toNat * 1000000 < 2 ^ 64 →
      ∀ t ≤ ticks, ticksToUs t resolutionHz ≤ ticksToUs ticks resolutionHz) := by
  have hpos : 0 < resolutionHz.toNat := UInt32.lt_iff_toNat_lt.mp hresolution
  have hle : resolutionHz.toNat ≤ 2 ^ 64 := by
    have := resolutionHz.toNat_lt
    omega
  constructor
  · rw [toNat_ticksToUs]
    exact mod_div_eq_iff hpos hle
  · intro hproduct t ht
    rw [UInt64.le_iff_toNat_le] at ht ⊢
    have hproducts := Nat.mul_le_mul_right 1000000 ht
    rw [toNat_ticksToUs, toNat_ticksToUs, Nat.mod_eq_of_lt hproduct,
      Nat.mod_eq_of_lt (hproducts.trans_lt hproduct)]
    exact Nat.div_le_div_right hproducts

/-- The last tick count of a 1 MHz counter that is converted exactly. -/
theorem clock_probe_ticks_to_us_exact_iff_last :
    (ticksToUs 18446744073709 1000000).toNat = 18446744073709 :=
  (@clock_probe_ticks_to_us_exact_iff 18446744073709 1000000 (by decide)).1.mpr (by decide)

/-- The tick behind it is converted to 0, although its value fits, and so the clock steps back. -/
theorem not_ticksToUs_exact :
    ticksToUs 18446744073709 1000000 = 18446744073709 ∧ ticksToUs 18446744073710 1000000 = 0 ∧
      ¬ ∀ (ticks : UInt64) (resolutionHz : UInt32), 0 < resolutionHz →
        ticks.toNat * 1000000 / resolutionHz.toNat < 2 ^ 64 →
          (ticksToUs ticks resolutionHz).toNat = ticks.toNat * 1000000 / resolutionHz.toNat := by
  refine ⟨by decide, by decide, fun hall => ?_⟩
  have hexact := hall 18446744073710 1000000 (by decide) (by decide)
  exact absurd hexact (by decide)

end ClockProbe

end EmbeddedInsDaq
