import Mathlib.Data.Nat.Digits.Defs

/-!
# Byte strings: little-endian words, slices and copies

* `leBytes n v` is the `n` little-endian bytes of `v` and `leNat` the number that bytes spell:
  `leNat_leBytes`, `leBytes_leNat`.
* `slice off n bs` is the `n` bytes of `bs` from `off`, and `field off n bs` the number they spell.
* `splice bs off ys` is `bs` after a copy of `ys` to `off`, as a writer leaves a buffer. The
  lemmas say what a later slice reads.
-/

namespace Bytes

/-! ## Little-endian words -/

/-- The `n` little-endian bytes of `v`; what does not fit is dropped. -/
def leBytes : ℕ → ℕ → List UInt8
  | 0, _ => []
  | n + 1, v => UInt8.ofNat v :: leBytes n (v / 256)

/-- The number the bytes spell, least significant first. -/
def leNat (bs : List UInt8) : ℕ := Nat.ofDigits 256 (bs.map UInt8.toNat)

@[simp] theorem length_leBytes (n v : ℕ) : (leBytes n v).length = n := by
  induction n generalizing v with
  | zero => rfl
  | succ n ih => rw [leBytes, List.length_cons, ih]

@[simp] theorem leNat_nil : leNat [] = 0 := rfl

theorem leNat_cons (b : UInt8) (bs : List UInt8) : leNat (b :: bs) = b.toNat + 256 * leNat bs := by
  unfold leNat
  rw [List.map_cons, Nat.ofDigits_cons]

theorem leNat_append (as bs : List UInt8) :
    leNat (as ++ bs) = leNat as + 256 ^ as.length * leNat bs := by
  unfold leNat
  rw [List.map_append, Nat.ofDigits_append, List.length_map]

theorem leNat_lt (bs : List UInt8) : leNat bs < 256 ^ bs.length := by
  have h := Nat.ofDigits_lt_base_pow_length (l := bs.map UInt8.toNat) (by decide : 1 < 256) (by
    intro x hx
    obtain ⟨b, -, rfl⟩ := List.mem_map.mp hx
    exact b.toNat_lt)
  rwa [List.length_map] at h

theorem leNat_leBytes (n v : ℕ) : leNat (leBytes n v) = v % 256 ^ n := by
  induction n generalizing v with
  | zero => rw [leBytes, leNat_nil, pow_zero, Nat.mod_one]
  | succ n ih =>
    rw [leBytes, leNat_cons, ih, pow_succ', Nat.mod_mul, UInt8.toNat_ofNat']

theorem leNat_leBytes_of_lt {n v : ℕ} (h : v < 256 ^ n) : leNat (leBytes n v) = v := by
  rw [leNat_leBytes, Nat.mod_eq_of_lt h]

theorem leNat_inj {as bs : List UInt8} (hlen : as.length = bs.length) (h : leNat as = leNat bs) :
    as = bs := by
  induction as generalizing bs with
  | nil => rw [List.eq_nil_of_length_eq_zero hlen.symm]
  | cons a as ih =>
    cases bs with
    | nil => exact nomatch hlen
    | cons b bs =>
      rw [leNat_cons, leNat_cons] at h
      have ha := a.toNat_lt
      have hb := b.toNat_lt
      have hhead : a = b := UInt8.toNat_inj.mp (by omega)
      rw [hhead, ih (Nat.succ.inj hlen) (by omega)]

theorem leBytes_leNat (bs : List UInt8) : leBytes bs.length (leNat bs) = bs :=
  leNat_inj (length_leBytes _ _) (leNat_leBytes_of_lt (leNat_lt bs))

/-! ## Slices -/

/-- The `n` bytes of `bs` from `off`. -/
def slice {α : Type*} (off n : ℕ) (bs : List α) : List α := (bs.drop off).take n

section Slice

variable {α : Type*} {off n : ℕ} {as bs : List α}

theorem length_slice (h : off + n ≤ bs.length) : (slice off n bs).length = n := by
  simp only [slice, List.length_take, List.length_drop]
  omega

theorem slice_append_eq (ho : off = as.length) :
    slice off n (as ++ bs) = bs.take n := by
  unfold slice
  rw [ho, List.drop_left]

theorem slice_append_right (h : as.length ≤ off) :
    slice off n (as ++ bs) = slice (off - as.length) n bs := by
  unfold slice
  rw [List.drop_append, List.drop_of_length_le h, List.nil_append]

theorem slice_append_left (h : off + n ≤ as.length) : slice off n (as ++ bs) = slice off n as := by
  unfold slice
  rw [List.drop_append, List.take_append_of_le_length]
  rw [List.length_drop]
  omega

theorem slice_zero_append (h : n = as.length) : slice 0 n (as ++ bs) = as := by
  unfold slice
  rw [List.drop_zero, h, List.take_left]

theorem slice_zero_self (h : n = as.length) : slice 0 n as = as := by
  unfold slice
  rw [List.drop_zero, h, List.take_length]

theorem slice_append_slice (bs : List α) (off m n : ℕ) :
    slice off m bs ++ slice (off + m) n bs = slice off (m + n) bs := by
  unfold slice
  rw [← List.drop_drop, List.take_add]

theorem take_append_slice_append_drop (bs : List α) (off n : ℕ) :
    bs.take off ++ (slice off n bs ++ bs.drop (off + n)) = bs := by
  unfold slice
  rw [← List.drop_drop, List.take_append_drop, List.take_append_drop]

end Slice

/-! ## Fields -/

/-- The unsigned little-endian field of `n` bytes at `off`. -/
def field (off n : ℕ) (bs : List UInt8) : ℕ := leNat (slice off n bs)

section Field

variable {off n v : ℕ} {as bs : List UInt8}

theorem field_append_right (h : as.length ≤ off) :
    field off n (as ++ bs) = field (off - as.length) n bs :=
  congrArg leNat (slice_append_right h)

theorem field_append_left (h : off + n ≤ as.length) : field off n (as ++ bs) = field off n as :=
  congrArg leNat (slice_append_left h)

theorem field_leBytes_append (h : v < 256 ^ n) : field 0 n (leBytes n v ++ bs) = v := by
  unfold field
  rw [slice_zero_append (length_leBytes n v).symm, leNat_leBytes_of_lt h]

theorem field_leBytes (h : v < 256 ^ n) : field 0 n (leBytes n v) = v := by
  unfold field
  rw [slice_zero_self (length_leBytes n v).symm, leNat_leBytes_of_lt h]

theorem field_lt (h : off + n ≤ bs.length) : field off n bs < 256 ^ n := by
  have hlt := leNat_lt (slice off n bs)
  rwa [length_slice h] at hlt

/-- A field in two parts, the low one first. -/
theorem field_add (off m n : ℕ) (bs : List UInt8) (h : off + m ≤ bs.length) :
    field off (m + n) bs = field off m bs + 256 ^ m * field (off + m) n bs := by
  unfold field
  rw [← slice_append_slice, leNat_append, length_slice h]

/-- A field that is read is written back. -/
theorem leBytes_field (h : off + n ≤ bs.length) : leBytes n (field off n bs) = slice off n bs := by
  have hbytes := leBytes_leNat (slice off n bs)
  rwa [length_slice h] at hbytes

theorem take_eq_of_field (h : off + n ≤ as.length) (h' : off + n ≤ bs.length)
    (htake : as.take off = bs.take off) (hfield : field off n as = field off n bs) :
    as.take (off + n) = bs.take (off + n) := by
  have hlength := (length_slice h).trans (length_slice h').symm
  rw [List.take_add, List.take_add, htake]
  exact congrArg _ (leNat_inj hlength hfield)

end Field

/-! ## Copies -/

/-- `bs` after the bytes `ys` are copied to `off`. -/
def splice {α : Type*} (bs : List α) (off : ℕ) (ys : List α) : List α :=
  bs.take off ++ ys ++ bs.drop (off + ys.length)

section Splice

variable {α : Type*} {bs ys zs : List α} {off : ℕ}

theorem length_splice (h : off + ys.length ≤ bs.length) :
    (splice bs off ys).length = bs.length := by
  simp only [splice, List.length_append, List.length_take, List.length_drop]
  omega

theorem splice_zero : splice bs 0 ys = ys ++ bs.drop ys.length := by
  unfold splice
  rw [List.take_zero, List.nil_append, Nat.zero_add]

theorem splice_append {as : List α} (h : off = as.length) :
    splice (as ++ bs) off ys = as ++ ys ++ bs.drop ys.length := by
  unfold splice
  rw [h, List.take_left, List.drop_append, List.drop_of_length_le (Nat.le_add_right _ _),
    List.nil_append, Nat.add_sub_cancel_left]

/-- A second copy to the start, of the same length, replaces the first one. -/
theorem splice_zero_append {as : List α} (h : zs.length = as.length) :
    splice (as ++ bs) 0 zs = zs ++ bs := by
  rw [splice_zero, h, List.drop_left]

theorem splice_splice_behind (h : off ≤ bs.length) :
    splice (splice bs off ys) (off + ys.length) zs = splice bs off (ys ++ zs) := by
  have hlen : (bs.take off ++ ys).length = off + ys.length := by
    rw [List.length_append, List.length_take, Nat.min_eq_left h]
  calc splice (splice bs off ys) (off + ys.length) zs
      = (bs.take off ++ ys) ++ zs ++ (bs.drop (off + ys.length)).drop zs.length :=
        splice_append hlen.symm
    _ = splice bs off (ys ++ zs) := by
      unfold splice
      rw [List.drop_drop, List.length_append, List.append_assoc, List.append_assoc,
        List.append_assoc, List.append_assoc, Nat.add_assoc]

theorem slice_splice (h : off ≤ bs.length) : slice off ys.length (splice bs off ys) = ys := by
  have hlen : off = (bs.take off).length := by rw [List.length_take, Nat.min_eq_left h]
  unfold splice
  rw [List.append_assoc, slice_append_eq hlen, List.take_left]

theorem drop_splice {n : ℕ} (h : off ≤ bs.length) (hn : off + ys.length ≤ n) :
    (splice bs off ys).drop n = bs.drop n := by
  have hlen : (bs.take off ++ ys).length = off + ys.length := by
    rw [List.length_append, List.length_take, Nat.min_eq_left h]
  unfold splice
  rw [List.drop_append, List.drop_of_length_le (hlen.trans_le hn), List.nil_append, hlen,
    List.drop_drop, Nat.add_sub_cancel' hn]

theorem slice_splice_before {m n : ℕ} (h : off + ys.length ≤ bs.length) (hm : m + n ≤ off) :
    slice m n (splice bs off ys) = slice m n bs := by
  have hlen : (bs.take off).length = off := List.length_take_of_le (by omega)
  calc slice m n (splice bs off ys)
      = slice m n (bs.take off) := by
        unfold splice
        rw [List.append_assoc, slice_append_left (by omega)]
    _ = slice m n (bs.take off ++ bs.drop off) := (slice_append_left (by omega)).symm
    _ = slice m n bs := by rw [List.take_append_drop]

theorem slice_splice_behind {m n : ℕ} (h : off ≤ bs.length) (hm : off + ys.length ≤ m) :
    slice m n (splice bs off ys) = slice m n bs := by
  unfold slice
  rw [drop_splice h hm]

theorem splice_append_left (h : off + ys.length ≤ bs.length) :
    splice (bs ++ zs) off ys = splice bs off ys ++ zs := by
  unfold splice
  rw [List.take_append_of_le_length (by omega), List.drop_append_of_le_length h,
    List.append_assoc, List.append_assoc, List.append_assoc]

theorem splice_append_right (h : bs.length ≤ off) :
    splice (bs ++ zs) off ys = bs ++ splice zs (off - bs.length) ys := by
  have hoff : off = bs.length + (off - bs.length) := by omega
  have hend : off + ys.length = bs.length + (off - bs.length + ys.length) := by omega
  have htake : (bs ++ zs).take off = bs ++ zs.take (off - bs.length) := by
    conv_lhs => rw [hoff, List.take_length_add_append]
  have hdrop : (bs ++ zs).drop (off + ys.length) = zs.drop (off - bs.length + ys.length) := by
    rw [hend, List.drop_length_add_append]
  unfold splice
  rw [htake, hdrop, List.append_assoc, List.append_assoc, List.append_assoc]

theorem splice_eq_self_iff :
    splice bs off ys = bs ↔ slice off ys.length bs = ys := by
  have hsplit : bs.take off ++ slice off ys.length bs ++ bs.drop (off + ys.length) = bs := by
    rw [List.append_assoc, take_append_slice_append_drop]
  constructor
  · intro heq
    have := hsplit.trans heq.symm
    unfold splice at this
    exact List.append_cancel_left (List.append_cancel_right this)
  · intro heq
    rw [heq] at hsplit
    exact hsplit

end Splice

end Bytes
