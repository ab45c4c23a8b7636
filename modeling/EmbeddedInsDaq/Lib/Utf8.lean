import EmbeddedInsDaq.Lib.Decoding
import Mathlib.Algebra.Group.Nat.Defs
import Mathlib.Data.List.Forall2
import Mathlib.Tactic.Common

/-!
# UTF-8 with replacement

Decoding UTF-8 so that it never fails: where the input is no UTF-8, the longest part that could have
started a character becomes one U+FFFD, and decoding goes on behind it. The incremental decoder
waits for the rest of a character, and for the third byte of a surrogate, which no character is.
It decodes what the encoder made (`next_encode`).
-/

namespace Utf8

/-! ## One character -/

/-- The bounds of the byte behind a leading byte. -/
def secondBounds (b : ℕ) : ℕ × ℕ :=
  (if b = 0xe0 then 0xa0 else if b = 0xf0 then 0x90 else 0x80,
    if b = 0xed then 0x9f else if b = 0xf4 then 0x8f else 0xbf)

/-- The bounds of the bytes behind a leading byte, if the byte leads a character. -/
def tailBounds (b : ℕ) : Option (List (ℕ × ℕ)) :=
  if b < 0x80 then some []
  else if b < 0xc2 then none
  else if b < 0xe0 then some [secondBounds b]
  else if b < 0xf0 then some [secondBounds b, (0x80, 0xbf)]
  else if b < 0xf5 then some [secondBounds b, (0x80, 0xbf), (0x80, 0xbf)]
  else none

/-- How many bytes stay within their bounds, from the first one on. -/
def fits : List (ℕ × ℕ) → List UInt8 → ℕ
  | (lo, hi) :: bounds, b :: bytes =>
    if lo ≤ b.toNat ∧ b.toNat ≤ hi then fits bounds bytes + 1 else 0
  | _, _ => 0

/-- The bits of a leading byte and of the bytes behind it. -/
def codePoint (b : UInt8) (tail : List UInt8) : ℕ :=
  tail.foldl (fun v t => v * 64 + t.toNat % 64)
    (if tail.isEmpty then b.toNat else b.toNat % 2 ^ (6 - tail.length))

/-- What stands at the front of the input: a character of `n` bytes, `n` bytes that start none, or
the start of one. -/
inductive Front
  | char (c : Char) (n : ℕ)
  | invalid (n : ℕ)
  | incomplete

/-- The front of the input. -/
def front : List UInt8 → Front
  | [] => .incomplete
  | b :: bytes =>
    match tailBounds b.toNat with
    | none => .invalid 1
    | some bounds =>
      let n := fits bounds bytes
      if n = bounds.length then .char (Char.ofNat (codePoint b (bytes.take n))) (n + 1)
      else if n = bytes.length then .incomplete
      else .invalid (n + 1)

/-- The first two bytes of a surrogate, with nothing behind them. -/
def truncatedSurrogate : List UInt8 → Bool
  | [lead, b] => lead = 0xed && 0xa0 ≤ b && b ≤ 0xbf
  | _ => false

/-- What the incremental decoder takes. -/
def next (xs : List UInt8) : Option (Char × List UInt8) :=
  match front xs with
  | .char c n => some (c, xs.drop n)
  | .invalid n => if truncatedSurrogate xs then none else some ('\ufffd', xs.drop n)
  | .incomplete => none

/-- What the decoder takes when nothing follows. -/
def last (xs : List UInt8) : Option (Char × List UInt8) :=
  match front xs with
  | .char c n => some (c, xs.drop n)
  | .invalid n => some ('\ufffd', xs.drop n)
  | .incomplete => if xs = [] then none else some ('\ufffd', [])

/-! ## The laws -/

theorem fits_le_length (bounds : List (ℕ × ℕ)) (xs : List UInt8) : fits bounds xs ≤ xs.length := by
  induction bounds, xs using fits.induct with
  | case1 lo hi bounds b bytes hb ih => simp [fits, hb, ih]
  | case2 lo hi bounds b bytes hb => simp [fits, hb]
  | case3 bounds xs hne => simp [fits]

theorem fits_le_bounds (bounds : List (ℕ × ℕ)) (xs : List UInt8) :
    fits bounds xs ≤ bounds.length := by
  induction bounds, xs using fits.induct with
  | case1 lo hi bounds b bytes hb ih => simp [fits, hb, ih]
  | case2 lo hi bounds b bytes hb => simp [fits, hb]
  | case3 bounds xs hne => simp [fits]

theorem fits_append {bounds : List (ℕ × ℕ)} {xs : List UInt8}
    (h : fits bounds xs = bounds.length ∨ fits bounds xs ≠ xs.length) (ys : List UInt8) :
    fits bounds (xs ++ ys) = fits bounds xs := by
  induction bounds, xs using fits.induct with
  | case1 lo hi bounds b bytes hb ih =>
    simp only [fits, hb, and_self, if_true, List.length_cons, List.cons_append] at h ⊢
    rw [ih (by omega)]
  | case2 lo hi bounds b bytes hb => simp [fits, hb]
  | case3 bounds xs hne =>
    cases bounds with
    | nil => simp [fits]
    | cons bound bounds =>
      cases xs with
      | nil => simp [fits] at h
      | cons b bytes => exact absurd rfl (hne _ _ _ _ _ rfl)

theorem front_append {xs : List UInt8} (h : front xs ≠ .incomplete) (ys : List UInt8) :
    front (xs ++ ys) = front xs := by
  cases xs with
  | nil => exact absurd rfl h
  | cons b bytes =>
    simp only [front, List.cons_append] at h ⊢
    cases hbounds : tailBounds b.toNat with
    | none => rfl
    | some bounds =>
      simp only [hbounds] at h
      by_cases hall : fits bounds bytes = bounds.length
      · have hle := fits_le_length bounds bytes
        have hfits := fits_append (.inl hall) ys
        simp [hall, hfits, List.take_append_of_le_length (hall ▸ hle)]
      · by_cases hshort : fits bounds bytes = bytes.length
        · simp [hshort] at h
          omega
        · have hfits := fits_append (.inr hshort) ys
          have hle := fits_le_length bounds bytes
          have hlong : fits bounds bytes ≠ (bytes ++ ys).length := by
            rw [List.length_append]
            omega
          simp only [hfits, hall, hshort, hlong, if_false]

theorem front_length (xs : List UInt8) :
    match front xs with
    | .char _ n => 0 < n ∧ n ≤ xs.length
    | .invalid n => 0 < n ∧ n ≤ xs.length
    | .incomplete => True := by
  cases xs with
  | nil => trivial
  | cons b bytes =>
    rw [front]
    cases hbounds : tailBounds b.toNat with
    | none => simp
    | some bounds =>
      have hle := fits_le_length bounds bytes
      dsimp only
      split_ifs <;> simp [hle]

theorem truncatedSurrogate_append {xs ys : List UInt8} (h : truncatedSurrogate (xs ++ ys) = true)
    (hxs : front xs ≠ .incomplete) : ys = [] := by
  match xs, ys with
  | [], _ => exact absurd rfl hxs
  | _, [] => rfl
  | [lead], b :: ys =>
    cases ys with
    | nil =>
      obtain rfl : lead = 0xed := by simp_all [truncatedSurrogate]
      exact absurd rfl hxs
    | cons => simp [truncatedSurrogate] at h
  | [_, _], _ :: _ => simp [truncatedSurrogate] at h
  | _ :: _ :: _ :: _, _ :: _ => simp [truncatedSurrogate] at h

theorem next_append {xs rest : List UInt8} {c : Char} (h : next xs = some (c, rest))
    (ys : List UInt8) : next (xs ++ ys) = some (c, rest ++ ys) := by
  have hlength := front_length xs
  unfold next at h ⊢
  cases hfront : front xs with
  | char c n =>
    rw [hfront] at h hlength
    rw [front_append (by simp [hfront]), hfront]
    simp only [Option.some.injEq, Prod.mk.injEq] at h
    obtain ⟨rfl, rfl⟩ := h
    simp [List.drop_append_of_le_length hlength.2]
  | invalid n =>
    rw [hfront] at h hlength
    have hne : front xs ≠ .incomplete := by simp [hfront]
    rw [front_append hne, hfront]
    by_cases hcut : truncatedSurrogate xs = true
    · simp [hcut] at h
    · have hcut' : ¬truncatedSurrogate (xs ++ ys) = true := by
        intro hcut'
        obtain rfl := truncatedSurrogate_append hcut' hne
        exact hcut (by rwa [List.append_nil] at hcut')
      simp only [hcut, Bool.false_eq_true, if_false, Option.some.injEq, Prod.mk.injEq] at h
      obtain ⟨rfl, rfl⟩ := h
      simp [hcut', List.drop_append_of_le_length hlength.2]
  | incomplete => simp [hfront] at h

theorem last_of_next {xs rest : List UInt8} {c : Char} (h : next xs = some (c, rest)) :
    last xs = some (c, rest) := by
  unfold next at h
  unfold last
  cases hfront : front xs with
  | char c n => simpa [hfront] using h
  | invalid n =>
    rw [hfront] at h
    by_cases hcut : truncatedSurrogate xs = true
    · simp [hcut] at h
    · simpa [hcut] using h
  | incomplete => simp [hfront] at h

theorem length_lt_of_last {xs rest : List UInt8} {c : Char} (h : last xs = some (c, rest)) :
    rest.length < xs.length := by
  have hlength := front_length xs
  unfold last at h
  cases hfront : front xs with
  | char c n =>
    rw [hfront] at h hlength
    simp only [Option.some.injEq, Prod.mk.injEq] at h
    obtain ⟨-, rfl⟩ := h
    rw [List.length_drop]
    omega
  | invalid n =>
    rw [hfront] at h hlength
    simp only [Option.some.injEq, Prod.mk.injEq] at h
    obtain ⟨-, rfl⟩ := h
    rw [List.length_drop]
    omega
  | incomplete =>
    rw [hfront] at h
    by_cases hxs : xs = []
    · simp [hxs] at h
    · simp only [hxs, if_false, Option.some.injEq, Prod.mk.injEq] at h
      obtain ⟨-, rfl⟩ := h
      exact List.length_pos_iff.mpr hxs

/-- UTF-8 with replacement. -/
def decoder : Decoder UInt8 Char where
  next := next
  last := last
  next_append := next_append
  last_of_next := last_of_next
  length_lt := length_lt_of_last

theorem length_tailBounds {b : ℕ} {bounds : List (ℕ × ℕ)} (h : tailBounds b = some bounds) :
    bounds.length ≤ 3 := by
  unfold tailBounds at h
  split_ifs at h <;> cases h <;> simp

/-- At most three bytes are left undecided. -/
theorem length_le_of_next {xs : List UInt8} (h : next xs = none) : xs.length ≤ 3 := by
  unfold next at h
  cases hfront : front xs with
  | char c n => simp [hfront] at h
  | invalid n =>
    have hcut : truncatedSurrogate xs = true := by simpa [hfront] using h
    match xs with
    | [] => simp
    | [_] => simp
    | [_, _] => simp
    | _ :: _ :: _ :: _ => simp [truncatedSurrogate] at hcut
  | incomplete =>
    cases xs with
    | nil => simp
    | cons b bytes =>
      rw [front] at hfront
      cases hbounds : tailBounds b.toNat with
      | none => simp [hbounds] at hfront
      | some bounds =>
        have hthree := length_tailBounds hbounds
        have hfits : fits bounds bytes ≤ bounds.length := fits_le_bounds bounds bytes
        simp only [hbounds] at hfront
        split_ifs at hfront with hall hshort
        rw [List.length_cons]
        omega

/-! ## Encoded characters -/

/-- The byte is within its bounds. -/
def Within (b : UInt8) (bound : ℕ × ℕ) : Prop := bound.1 ≤ b.toNat ∧ b.toNat ≤ bound.2

/-- A leading byte and the bytes behind it make a character. -/
inductive IsGroup (b : UInt8) : List UInt8 → Prop
  | one (hb : b.toNat < 0x80) : IsGroup b []
  | two {t : UInt8} (hlo : 0xc2 ≤ b.toNat) (hhi : b.toNat < 0xe0)
      (ht : Within t (secondBounds b.toNat)) : IsGroup b [t]
  | three {t u : UInt8} (hlo : 0xe0 ≤ b.toNat) (hhi : b.toNat < 0xf0)
      (ht : Within t (secondBounds b.toNat)) (hu : Within u (0x80, 0xbf)) : IsGroup b [t, u]
  | four {t u v : UInt8} (hlo : 0xf0 ≤ b.toNat) (hhi : b.toNat < 0xf5)
      (ht : Within t (secondBounds b.toNat)) (hu : Within u (0x80, 0xbf))
      (hv : Within v (0x80, 0xbf)) : IsGroup b [t, u, v]

theorem within_secondBounds {b : ℕ} {t : UInt8} : Within t (secondBounds b) ↔
    0x80 ≤ t.toNat ∧ t.toNat ≤ 0xbf ∧ (b = 0xe0 → 0xa0 ≤ t.toNat) ∧ (b = 0xf0 → 0x90 ≤ t.toNat) ∧
      (b = 0xed → t.toNat ≤ 0x9f) ∧ (b = 0xf4 → t.toNat ≤ 0x8f) := by
  unfold Within secondBounds
  dsimp only
  split_ifs <;> omega

theorem within_tail {t : UInt8} : Within t (0x80, 0xbf) ↔ 0x80 ≤ t.toNat ∧ t.toNat ≤ 0xbf := Iff.rfl

theorem fits_of_within {bounds : List (ℕ × ℕ)} {tail : List UInt8}
    (h : List.Forall₂ Within tail bounds) (ys : List UInt8) :
    fits bounds (tail ++ ys) = bounds.length := by
  induction h with
  | nil => cases ys <;> rfl
  | cons hb _ ih =>
    rw [List.cons_append, fits, ih]
    exact if_pos hb

theorem within_of_fits {bounds : List (ℕ × ℕ)} {xs : List UInt8}
    (h : fits bounds xs = bounds.length) :
    List.Forall₂ Within (xs.take bounds.length) bounds := by
  induction bounds, xs using fits.induct with
  | case1 lo hi bounds b bytes hb ih =>
    rw [fits, if_pos hb, List.length_cons, Nat.add_right_cancel_iff] at h
    exact .cons hb (ih h)
  | case2 lo hi bounds b bytes hb =>
    rw [fits, if_neg hb] at h
    cases h
  | case3 bounds xs hne =>
    cases bounds with
    | nil => exact .nil
    | cons bound bounds =>
      cases xs with
      | nil => cases h
      | cons b bytes => exact absurd rfl (hne _ _ _ _ _ rfl)

theorem isGroup_iff {b : UInt8} {tail : List UInt8} : IsGroup b tail ↔
    ∃ bounds, tailBounds b.toNat = some bounds ∧ List.Forall₂ Within tail bounds := by
  constructor
  · intro h
    unfold tailBounds
    cases h with
    | one hb => exact ⟨_, if_pos hb, .nil⟩
    | two hlo hhi ht =>
      rw [if_neg (by omega), if_neg (by omega), if_pos hhi]
      exact ⟨_, rfl, .cons ht .nil⟩
    | three hlo hhi ht hu =>
      rw [if_neg (by omega), if_neg (by omega), if_neg (by omega), if_pos hhi]
      exact ⟨_, rfl, .cons ht (.cons hu .nil)⟩
    | four hlo hhi ht hu hv =>
      rw [if_neg (by omega), if_neg (by omega), if_neg (by omega), if_neg (by omega), if_pos hhi]
      exact ⟨_, rfl, .cons ht (.cons hu (.cons hv .nil))⟩
  · rintro ⟨bounds, hbounds, htail⟩
    unfold tailBounds at hbounds
    split_ifs at hbounds with h1 h2 h3 h4 h5 <;> cases hbounds
    · cases htail
      exact .one h1
    · obtain _ | ⟨ht, ⟨⟩⟩ := htail
      exact .two (by omega) h3 ht
    · obtain _ | ⟨ht, _ | ⟨hu, ⟨⟩⟩⟩ := htail
      exact .three (by omega) h4 ht hu
    · obtain _ | ⟨ht, _ | ⟨hu, _ | ⟨hv, ⟨⟩⟩⟩⟩ := htail
      exact .four (by omega) h5 ht hu hv

theorem front_of_isGroup {b : UInt8} {tail : List UInt8} (h : IsGroup b tail) (ys : List UInt8) :
    front (b :: tail ++ ys) = .char (Char.ofNat (codePoint b tail)) (b :: tail).length := by
  obtain ⟨bounds, hbounds, htail⟩ := isGroup_iff.mp h
  have hlength := htail.length_eq
  simp only [front, List.cons_append, hbounds, fits_of_within htail, if_true, ← hlength,
    List.take_left, List.length_cons]

theorem isGroup_of_front {xs : List UInt8} {c : Char} {n : ℕ} (h : front xs = .char c n) :
    ∃ b tail rest, xs = b :: tail ++ rest ∧ IsGroup b tail ∧ c = Char.ofNat (codePoint b tail) ∧
      n = (b :: tail).length := by
  cases xs with
  | nil => cases h
  | cons b bytes =>
    rw [front] at h
    cases hbounds : tailBounds b.toNat with
    | none => simp [hbounds] at h
    | some bounds =>
      simp only [hbounds] at h
      split_ifs at h with hall
      have hle := fits_le_length bounds bytes
      rw [hall] at h hle
      obtain ⟨rfl, rfl⟩ := Front.char.inj h
      exact ⟨b, bytes.take bounds.length, bytes.drop bounds.length, by simp,
        isGroup_iff.mpr ⟨bounds, hbounds, within_of_fits hall⟩, rfl, by simp [hle]⟩

theorem ofNat_eq (b : UInt8) {n : ℕ} (h : n = b.toNat) : UInt8.ofNat n = b := by
  rw [h, UInt8.ofNat_toNat]

theorem toNat_ofNat_of_lt {n : ℕ} (h : n < 256) : (UInt8.ofNat n).toNat = n := by
  rw [UInt8.toNat_ofNat']
  exact Nat.mod_eq_of_lt h

theorem toNat_charOfNat {n : ℕ} (h : n < 0xd800 ∨ 0xdfff < n ∧ n < 0x110000) :
    (Char.ofNat n).val.toNat = n := by
  have hvalid : n.isValidChar := h
  rw [Char.ofNat, dif_pos hvalid]
  rfl

theorem encode_of_isGroup {b : UInt8} {tail : List UInt8} (h : IsGroup b tail) :
    String.utf8EncodeChar (Char.ofNat (codePoint b tail)) = b :: tail := by
  unfold String.utf8EncodeChar
  cases h with
  | one hb =>
    have hpoint : codePoint b [] = b.toNat := rfl
    rw [hpoint, toNat_charOfNat (by omega)]
    rw [if_pos (by omega), UInt8.ofNat_toNat]
  | @two t hlo hhi ht =>
    rw [within_secondBounds] at ht
    have hpoint : codePoint b [t] = b.toNat % 32 * 64 + t.toNat % 64 := rfl
    rw [hpoint, toNat_charOfNat (by omega)]
    rw [if_neg (by omega), if_pos (by omega), ofNat_eq b (by omega), ofNat_eq t (by omega)]
  | @three t u hlo hhi ht hu =>
    rw [within_secondBounds] at ht
    rw [within_tail] at hu
    have hpoint : codePoint b [t, u] =
      (b.toNat % 16 * 64 + t.toNat % 64) * 64 + u.toNat % 64 := rfl
    rw [hpoint, toNat_charOfNat (by omega)]
    rw [if_neg (by omega), if_neg (by omega), if_pos (by omega), ofNat_eq b (by omega),
      ofNat_eq t (by omega), ofNat_eq u (by omega)]
  | @four t u v hlo hhi ht hu hv =>
    rw [within_secondBounds] at ht
    rw [within_tail] at hu hv
    have hpoint : codePoint b [t, u, v] =
      ((b.toNat % 8 * 64 + t.toNat % 64) * 64 + u.toNat % 64) * 64 + v.toNat % 64 := rfl
    rw [hpoint, toNat_charOfNat (by omega)]
    rw [if_neg (by omega), if_neg (by omega), if_neg (by omega), ofNat_eq b (by omega),
      ofNat_eq t (by omega), ofNat_eq u (by omega), ofNat_eq v (by omega)]

theorem exists_isGroup (c : Char) :
    ∃ b tail, String.utf8EncodeChar c = b :: tail ∧ IsGroup b tail ∧ codePoint b tail = c.toNat := by
  have hvalid : c.toNat < 0xd800 ∨ 0xdfff < c.toNat ∧ c.toNat < 0x110000 := c.valid
  have hval : c.val.toNat = c.toNat := rfl
  unfold String.utf8EncodeChar
  simp only [hval]
  split_ifs with h1 h2 h3
  · have hb := toNat_ofNat_of_lt (show c.toNat < 256 by omega)
    exact ⟨_, _, rfl, .one (by omega), hb⟩
  · have hb := toNat_ofNat_of_lt (show c.toNat / 64 % 32 + 0xc0 < 256 by omega)
    have ht := toNat_ofNat_of_lt (show c.toNat % 64 + 0x80 < 256 by omega)
    refine ⟨_, _, rfl, .two ?_ ?_ (within_secondBounds.mpr ?_), ?_⟩
    · omega
    · omega
    · omega
    · show _ % 32 * 64 + _ % 64 = _
      omega
  · have hb := toNat_ofNat_of_lt (show c.toNat / 4096 % 16 + 0xe0 < 256 by omega)
    have ht := toNat_ofNat_of_lt (show c.toNat / 64 % 64 + 0x80 < 256 by omega)
    have hu := toNat_ofNat_of_lt (show c.toNat % 64 + 0x80 < 256 by omega)
    refine ⟨_, _, rfl, .three ?_ ?_ (within_secondBounds.mpr ?_) (within_tail.mpr ?_), ?_⟩
    · omega
    · omega
    · omega
    · omega
    · show (_ % 16 * 64 + _ % 64) * 64 + _ % 64 = _
      omega
  · have hb := toNat_ofNat_of_lt (show c.toNat / 262144 % 8 + 0xf0 < 256 by omega)
    have ht := toNat_ofNat_of_lt (show c.toNat / 4096 % 64 + 0x80 < 256 by omega)
    have hu := toNat_ofNat_of_lt (show c.toNat / 64 % 64 + 0x80 < 256 by omega)
    have hv := toNat_ofNat_of_lt (show c.toNat % 64 + 0x80 < 256 by omega)
    refine ⟨_, _, rfl, .four ?_ ?_ (within_secondBounds.mpr ?_) (within_tail.mpr ?_)
      (within_tail.mpr ?_), ?_⟩
    · omega
    · omega
    · omega
    · omega
    · omega
    · show ((_ % 8 * 64 + _ % 64) * 64 + _ % 64) * 64 + _ % 64 = _
      omega

/-! ## Encoding and decoding -/

/-- The bytes of a text. -/
def encode (text : List Char) : List UInt8 := text.flatMap String.utf8EncodeChar

/-- The text of an input that has ended. -/
def decode (xs : List UInt8) : List Char := decoder.decode xs

/-- A character that is taken, and is no replacement, was encoded. -/
theorem eq_of_last {xs rest : List UInt8} {c : Char} (h : last xs = some (c, rest))
    (hc : c ≠ '\ufffd') : xs = String.utf8EncodeChar c ++ rest := by
  unfold last at h
  cases hfront : front xs with
  | char c' n =>
    rw [hfront] at h
    obtain ⟨rfl, rfl⟩ := Prod.mk.inj (Option.some.inj h)
    obtain ⟨b, tail, rest, rfl, hgroup, rfl, rfl⟩ := isGroup_of_front hfront
    rw [encode_of_isGroup hgroup, List.drop_left]
  | invalid n =>
    rw [hfront] at h
    exact absurd (Prod.mk.inj (Option.some.inj h)).1.symm hc
  | incomplete =>
    simp only [hfront] at h
    split_ifs at h
    exact absurd (Prod.mk.inj (Option.some.inj h)).1.symm hc

theorem eq_nil_of_last {xs : List UInt8} (h : last xs = none) : xs = [] := by
  unfold last at h
  cases hfront : front xs with
  | char c n => simp [hfront] at h
  | invalid n => simp [hfront] at h
  | incomplete => simpa [hfront] using h

theorem next_encode (c : Char) (ys : List UInt8) :
    next (String.utf8EncodeChar c ++ ys) = some (c, ys) := by
  obtain ⟨b, tail, hencode, hgroup, hpoint⟩ := exists_isGroup c
  rw [hencode, next, front_of_isGroup hgroup, hpoint, Char.ofNat_toNat]
  simp only [List.drop_left]

/-- **Round trip.** -/
theorem decode_encode (text : List Char) : decode (encode text) = text :=
  Decoder.decode_flatMap (d := decoder) next_encode text

/-! ## Searching -/

/-- No byte behind a leading byte is this one. -/
def Leads (b : UInt8) : Prop := b.toNat < 0x80 ∨ 0xbf < b.toNat

theorem not_within_of_leads {b : UInt8} (hb : Leads b) {lead : ℕ} {bounds : List (ℕ × ℕ)}
    (h : tailBounds lead = some bounds) : ∀ bound ∈ bounds, ¬Within b bound := by
  have hsecond : ¬Within b (secondBounds lead) := by
    rw [within_secondBounds]
    unfold Leads at hb
    omega
  have htail : ¬Within b (0x80, 0xbf) := by
    rw [within_tail]
    unfold Leads at hb
    omega
  unfold tailBounds at h
  split_ifs at h <;> cases h <;> simp [hsecond, htail]

theorem fits_append_of_leads {b : UInt8} {bounds : List (ℕ × ℕ)}
    (hb : ∀ bound ∈ bounds, ¬Within b bound) (xs ys : List UInt8) :
    fits bounds (xs ++ b :: ys) = fits bounds xs := by
  induction bounds, xs using fits.induct with
  | case1 lo hi bounds t bytes ht ih =>
    rw [List.cons_append, fits, fits, if_pos ht, if_pos ht]
    rw [ih fun bound hbound => hb bound (List.mem_cons_of_mem _ hbound)]
  | case2 lo hi bounds t bytes ht => rw [List.cons_append, fits, fits, if_neg ht, if_neg ht]
  | case3 bounds xs hne =>
    cases bounds with
    | nil => cases xs <;> rfl
    | cons bound bounds =>
      cases xs with
      | nil => exact if_neg (hb bound List.mem_cons_self)
      | cons t bytes => exact absurd rfl (hne _ _ _ _ _ rfl)

theorem not_truncatedSurrogate {b : UInt8} (hb : Leads b) {xs : List UInt8} (hxs : xs ≠ [])
    (ys : List UInt8) : truncatedSurrogate (xs ++ b :: ys) = false := by
  match xs, ys with
  | [], _ => exact absurd rfl hxs
  | [lead], [] =>
    simp only [List.cons_append, List.nil_append, truncatedSurrogate, Bool.and_eq_false_iff,
      decide_eq_false_iff_not, UInt8.le_iff_toNat_le, UInt8.reduceToNat]
    unfold Leads at hb
    omega
  | [_], _ :: _ => rfl
  | _ :: _ :: xs, ys => cases xs <;> rfl

theorem next_append_of_leads {b : UInt8} (hb : Leads b) {xs rest : List UInt8} {c : Char}
    (h : last xs = some (c, rest)) (ys : List UInt8) :
    next (xs ++ b :: ys) = some (c, rest ++ b :: ys) := by
  have hxs : xs ≠ [] := by
    rintro rfl
    exact absurd h (by simp [last, front])
  have hcut := not_truncatedSurrogate hb hxs ys
  cases hfront : front xs with
  | char c' n =>
    have hnext : next xs = some (c, rest) := by simpa [next, last, hfront] using h
    exact next_append hnext _
  | invalid n =>
    have hne : front xs ≠ .incomplete := by simp [hfront]
    have hlength := front_length xs
    simp only [last, hfront, Option.some.injEq, Prod.mk.injEq] at h hlength
    obtain ⟨rfl, rfl⟩ := h
    simp [next, front_append hne, hfront, hcut, List.drop_append_of_le_length hlength.2]
  | incomplete =>
    obtain ⟨rfl, rfl⟩ : '\ufffd' = c ∧ [] = rest := by simpa [last, hfront, hxs] using h
    have hinvalid : front (xs ++ b :: ys) = .invalid xs.length := by
      obtain ⟨t, bytes, rfl⟩ := List.exists_cons_of_ne_nil hxs
      rw [front] at hfront
      cases hbounds : tailBounds t.toNat with
      | none => simp [hbounds] at hfront
      | some bounds =>
        simp only [hbounds] at hfront
        split_ifs at hfront with hall hshort
        have hfits := fits_append_of_leads (not_within_of_leads hb hbounds) bytes ys
        rw [hshort] at hfits hall
        simp [front, hbounds, hfits, hall]
    simp only [next, hinvalid, hcut, Bool.false_eq_true, if_false, List.drop_left,
      List.nil_append]

/-- **Boundaries.** What stands in front of a leading byte is decoded as if it ended there. -/
theorem drain_append_of_leads {b : UInt8} (hb : Leads b) (xs ys : List UInt8) :
    decoder.drain (xs ++ b :: ys) =
      (decode xs ++ (decoder.drain (b :: ys)).1, (decoder.drain (b :: ys)).2) := by
  unfold decode
  induction xs using Decoder.decode.induct decoder with
  | case1 xs hnone =>
    rw [Decoder.decode_of_none hnone, eq_nil_of_last hnone]
    rfl
  | case2 xs c rest hsome _ ih =>
    have hnext : decoder.next (xs ++ b :: ys) = some (c, rest ++ b :: ys) :=
      next_append_of_leads hb hsome ys
    rw [Decoder.decode_of_some hsome, Decoder.drain_of_some hnext, ih]
    rfl

theorem leads_of_isGroup {b : UInt8} {tail : List UInt8} (h : IsGroup b tail) : Leads b := by
  unfold Leads
  cases h with
  | one hb => exact .inl hb
  | two hlo => omega
  | three hlo => omega
  | four hlo => omega

theorem suffix_of_last {xs rest : List UInt8} {c : Char} (h : last xs = some (c, rest)) :
    rest <:+ xs := by
  unfold last at h
  cases hfront : front xs with
  | char c' n =>
    rw [hfront] at h
    rw [← (Prod.mk.inj (Option.some.inj h)).2]
    exact List.drop_suffix n xs
  | invalid n =>
    rw [hfront] at h
    rw [← (Prod.mk.inj (Option.some.inj h)).2]
    exact List.drop_suffix n xs
  | incomplete =>
    simp only [hfront] at h
    split_ifs at h
    rw [← (Prod.mk.inj (Option.some.inj h)).2]
    exact List.nil_suffix

theorem exists_of_drain_eq_cons {xs : List UInt8} {c : Char} {text : List Char}
    (h : (decoder.drain xs).1 = c :: text) :
    ∃ rest, last xs = some (c, rest) ∧ (decoder.drain rest).1 = text := by
  cases hnext : decoder.next xs with
  | none =>
    rw [Decoder.drain_of_none hnext] at h
    cases h
  | some r =>
    rw [Decoder.drain_of_some hnext] at h
    obtain ⟨rfl, rfl⟩ := List.cons.inj h
    exact ⟨r.2, decoder.last_of_next hnext, rfl⟩

theorem exists_of_drain_eq_append {xs : List UInt8} {front back : List Char}
    (h : (decoder.drain xs).1 = front ++ back) :
    ∃ rest, rest <:+ xs ∧ (decoder.drain rest).1 = back := by
  induction front generalizing xs with
  | nil => exact ⟨xs, List.suffix_rfl, h⟩
  | cons c front ih =>
    obtain ⟨rest, hlast, hrest⟩ := exists_of_drain_eq_cons h
    obtain ⟨rest', hsuffix, hback⟩ := ih hrest
    exact ⟨rest', hsuffix.trans (suffix_of_last hlast), hback⟩

theorem encode_prefix_of_drain {xs : List UInt8} {text back : List Char}
    (h : (decoder.drain xs).1 = text ++ back) (hvalid : '\ufffd' ∉ text) : encode text <+: xs := by
  induction text generalizing xs with
  | nil => exact List.nil_prefix
  | cons c text ih =>
    obtain ⟨hc, htext⟩ := not_or.mp (mt List.mem_cons.mpr hvalid)
    obtain ⟨rest, hlast, hrest⟩ := exists_of_drain_eq_cons h
    rw [eq_of_last hlast (Ne.symm hc)]
    exact (List.prefix_append_right_inj _).mpr (ih hrest htext)

/-- **Searching.** A text occurs in what is decoded so far if and only if its bytes occur in the
input. -/
theorem infix_drain_iff {text : List Char} (htext : text ≠ []) (hvalid : '\ufffd' ∉ text)
    (xs : List UInt8) : text <:+: (decoder.drain xs).1 ↔ encode text <:+: xs := by
  constructor
  · rintro ⟨front, back, h⟩
    rw [List.append_assoc] at h
    obtain ⟨rest, hsuffix, hrest⟩ := exists_of_drain_eq_append h.symm
    exact (encode_prefix_of_drain hrest hvalid).isInfix.trans hsuffix.isInfix
  · rintro ⟨pre, post, rfl⟩
    obtain ⟨c, text, rfl⟩ := List.exists_cons_of_ne_nil htext
    obtain ⟨b, tail, hencode, hgroup, -⟩ := exists_isGroup c
    have hcons : encode (c :: text) = b :: (tail ++ encode text) := by
      rw [encode, List.flatMap_cons, hencode]
      rfl
    have hdrain := Decoder.drain_flatMap_append (d := decoder) next_encode (c :: text) post
    change decoder.drain (encode (c :: text) ++ post) = _ at hdrain
    rw [hcons, List.cons_append] at hdrain
    rw [hcons, List.append_assoc, List.cons_append,
      drain_append_of_leads (leads_of_isGroup hgroup), hdrain]
    exact ⟨decode pre, (decoder.drain post).1, by rw [List.append_assoc]⟩

theorem drain_encode (text : List Char) : decoder.drain (encode text) = (text, []) := by
  have h := Decoder.drain_flatMap_append (d := decoder) next_encode text []
  rwa [List.append_nil, Decoder.drain_nil, List.append_nil] at h

theorem infix_encode_iff {text text' : List Char} (hne : text ≠ []) (hvalid : '\ufffd' ∉ text) :
    encode text <:+: encode text' ↔ text <:+: text' := by
  rw [← infix_drain_iff hne hvalid, drain_encode]

theorem drain_prefix_text {bytes : List UInt8} {text : List Char} (h : bytes <+: encode text) :
    (decoder.drain bytes).1 <+: text := by
  obtain ⟨rest, hrest⟩ := h
  have hdrain := Decoder.drain_append (d := decoder) bytes rest
  rw [hrest, drain_encode] at hdrain
  exact ⟨_, (congrArg Prod.fst hdrain).symm⟩

theorem infix_decode {text : List Char} (htext : text ≠ []) (hvalid : '\ufffd' ∉ text)
    {bytes : List UInt8} (h : encode text <:+: bytes) : text <:+: decode bytes := by
  have hdrain := (infix_drain_iff htext hvalid bytes).mpr h
  rw [decode, Decoder.decode_eq]
  exact hdrain.trans (List.prefix_append _ _).isInfix

end Utf8
