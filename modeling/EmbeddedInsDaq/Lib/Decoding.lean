import Mathlib.Data.Nat.Notation
import Mathlib.Tactic.Basic

/-!
# Decoding in chunks

A `Decoder` takes one item at a time off the front of its input. `next` waits when what has not
arrived yet could change the item; `last` never waits, because nothing follows. Two laws connect
them: what `next` takes does not depend on what follows, and `last` takes the same. So a stream that
arrives in chunks, with the undecided end of each kept for the next one, is drained like the whole
(`drain_append`).
-/

/-- A decoder of the items `α` from the input `β`. -/
structure Decoder (β α : Type*) where
  next : List β → Option (α × List β)
  last : List β → Option (α × List β)
  next_append : ∀ {xs rest : List β} {a : α}, next xs = some (a, rest) →
    ∀ ys, next (xs ++ ys) = some (a, rest ++ ys)
  last_of_next : ∀ {xs rest : List β} {a : α}, next xs = some (a, rest) → last xs = some (a, rest)
  length_lt : ∀ {xs rest : List β} {a : α}, last xs = some (a, rest) → rest.length < xs.length

namespace Decoder

variable {α β : Type*} (d : Decoder β α)

/-- The items that are decided, and the input that is not. -/
def drain (xs : List β) : List α × List β :=
  match h : d.next xs with
  | none => ([], xs)
  | some (a, rest) =>
    have := d.length_lt (d.last_of_next h)
    let r := drain rest
    (a :: r.1, r.2)
termination_by xs.length

/-- All items of an input that has ended. -/
def decode (xs : List β) : List α :=
  match h : d.last xs with
  | none => []
  | some (a, rest) =>
    have := d.length_lt h
    a :: decode rest
termination_by xs.length

variable {d}

theorem drain_of_none {xs : List β} (h : d.next xs = none) : d.drain xs = ([], xs) := by
  rw [drain]
  split
  · rfl
  · simp_all

theorem drain_of_some {xs rest : List β} {a : α} (h : d.next xs = some (a, rest)) :
    d.drain xs = (a :: (d.drain rest).1, (d.drain rest).2) := by
  rw [drain]
  split
  · simp_all
  · next a' rest' h' =>
    obtain ⟨rfl, rfl⟩ := Prod.mk.inj (Option.some.inj (h'.symm.trans h))
    rfl

theorem decode_of_none {xs : List β} (h : d.last xs = none) : d.decode xs = [] := by
  rw [decode]
  split
  · rfl
  · simp_all

theorem decode_of_some {xs rest : List β} {a : α} (h : d.last xs = some (a, rest)) :
    d.decode xs = a :: d.decode rest := by
  rw [decode]
  split
  · simp_all
  · next a' rest' h' =>
    obtain ⟨rfl, rfl⟩ := Prod.mk.inj (Option.some.inj (h'.symm.trans h))
    rfl

theorem next_nil : d.next [] = none := by
  cases h : d.next [] with
  | none => rfl
  | some r => exact absurd (d.length_lt (d.last_of_next h)) (Nat.not_lt_zero _)

@[simp] theorem drain_nil : d.drain [] = ([], []) := drain_of_none next_nil

theorem next_drain (xs : List β) : d.next (d.drain xs).2 = none := by
  induction xs using drain.induct d with
  | case1 xs h => rwa [drain_of_none h]
  | case2 xs a rest h _ ih => rwa [drain_of_some h]

/-- The decided items do not depend on what follows. -/
theorem drain_append (xs ys : List β) : d.drain (xs ++ ys) =
    ((d.drain xs).1 ++ (d.drain ((d.drain xs).2 ++ ys)).1,
      (d.drain ((d.drain xs).2 ++ ys)).2) := by
  induction xs using drain.induct d with
  | case1 xs h => simp [drain_of_none h]
  | case2 xs a rest h _ ih =>
    rw [drain_of_some (d.next_append h ys), drain_of_some h, ih]
    rfl

theorem decode_eq (xs : List β) : d.decode xs = (d.drain xs).1 ++ d.decode (d.drain xs).2 := by
  induction xs using drain.induct d with
  | case1 xs h => simp [drain_of_none h]
  | case2 xs a rest h _ ih =>
    rw [drain_of_some h, decode_of_some (d.last_of_next h), ih]
    rfl

theorem length_drain (xs : List β) : (d.drain xs).1.length + (d.drain xs).2.length ≤ xs.length := by
  induction xs using drain.induct d with
  | case1 xs h => simp [drain_of_none h]
  | case2 xs a rest h _ ih =>
    have := d.length_lt (d.last_of_next h)
    rw [drain_of_some h]
    simp only [List.length_cons]
    omega

/-! ## Encoders -/

section Encoder

variable {encode : α → List β} (hencode : ∀ a ys, d.next (encode a ++ ys) = some (a, ys))
include hencode

theorem drain_flatMap_append (as : List α) (ys : List β) :
    d.drain (as.flatMap encode ++ ys) = (as ++ (d.drain ys).1, (d.drain ys).2) := by
  induction as with
  | nil => rfl
  | cons a as ih =>
    have h := hencode a (as.flatMap encode ++ ys)
    rw [← List.append_assoc, ← List.flatMap_cons] at h
    rw [drain_of_some h, ih]
    rfl

/-- **Round trip.** Encoded items are decoded. -/
theorem decode_flatMap (as : List α) : d.decode (as.flatMap encode) = as := by
  have h := drain_flatMap_append hencode as []
  rw [List.append_nil, drain_nil] at h
  have hnil : d.decode [] = [] := by
    apply decode_of_none
    cases hlast : d.last [] with
    | none => rfl
    | some r => exact absurd (d.length_lt hlast) (Nat.not_lt_zero _)
  rw [decode_eq, h, hnil]
  simp

end Encoder

end Decoder
