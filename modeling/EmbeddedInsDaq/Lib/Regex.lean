import Mathlib.Data.List.Infix

/-!
# Backtracking regular expressions

Patterns as a backtracking engine runs them: `rests` lists what is left of the text behind each way
to match, in the order in which the engine tries them, so that its first entry is the match that is
taken. Repetition is greedy and drops rounds that consume nothing; the anchor `start` holds at the
front of the text only.

`Matches` is what a pattern means, and `mem_rests_iff` that the engine finds all of it and nothing
else: `search_iff`.
-/

inductive Regex (α : Type*)
  | empty
  | start
  | set (p : α → Bool)
  | seq (r s : Regex α)
  | alt (r s : Regex α)
  | star (r : Regex α)

namespace Regex

variable {α : Type*}

/-- The characters `xs`, one by one. -/
def literal [BEq α] (xs : List α) : Regex α := xs.foldr (fun x r => .seq (.set (· == x)) r) .empty

/-- Up to `fuel` rounds of `round`, the longer ways first. -/
def repeated (round : List α → List (List α)) : ℕ → List α → List (List α)
  | 0, xs => [xs]
  | fuel + 1, xs =>
    ((round xs).filter fun ys => ys.length < xs.length).flatMap (repeated round fuel) ++ [xs]

/-- What is left of `xs` behind each match of the pattern at its front, where `xs` is the end of a
text of the given length. -/
def rests (length : ℕ) : Regex α → List α → List (List α)
  | empty, xs => [xs]
  | start, xs => if xs.length = length then [xs] else []
  | set _, [] => []
  | set p, x :: xs => if p x then [xs] else []
  | seq r s, xs => (r.rests length xs).flatMap (s.rests length)
  | alt r s, xs => r.rests length xs ++ s.rests length xs
  | star r, xs => repeated (r.rests length) xs.length xs

/-- The pattern matches somewhere in the text. -/
def search (r : Regex α) (text : List α) : Bool :=
  text.tails.any fun xs => !(r.rests text.length xs).isEmpty

/-- The text without the matches of the pattern, for up to `fuel` characters or matches: the first
match at the front is skipped, and a character with no match in front of it is kept. A match that
consumes nothing removes nothing. -/
def removeFrom (length : ℕ) (r : Regex α) : ℕ → List α → List α
  | _, [] => []
  | 0, xs => xs
  | fuel + 1, x :: xs =>
    match (r.rests length (x :: xs)).head? with
    | some rest =>
      if rest.length ≤ xs.length then removeFrom length r fuel rest
      else x :: removeFrom length r fuel xs
    | none => x :: removeFrom length r fuel xs

/-- The text without the matches of the pattern, from the front on. -/
def remove (r : Regex α) (text : List α) : List α := removeFrom text.length r text.length text

/-! ## What a pattern matches -/

/-- The pattern matches `w` behind the text `front`. -/
inductive Matches : Regex α → List α → List α → Prop
  | empty {front : List α} : Matches empty front []
  | start : Matches start [] []
  | set {p : α → Bool} {front : List α} {x : α} (h : p x = true) : Matches (set p) front [x]
  | seq {r s : Regex α} {front u v : List α} (hr : Matches r front u)
      (hs : Matches s (front ++ u) v) : Matches (seq r s) front (u ++ v)
  | altLeft {r s : Regex α} {front w : List α} (h : Matches r front w) : Matches (alt r s) front w
  | altRight {r s : Regex α} {front w : List α} (h : Matches s front w) : Matches (alt r s) front w
  | starNil {r : Regex α} {front : List α} : Matches (star r) front []
  | starCons {r : Regex α} {front u v : List α} (hr : Matches r front u) (hu : u ≠ [])
      (hs : Matches (star r) (front ++ u) v) : Matches (star r) front (u ++ v)

section Inversion

variable {r s : Regex α} {p : α → Bool} {front w : List α}

@[simp] theorem matches_empty_iff : Matches empty front w ↔ w = [] :=
  ⟨fun h => by cases h; rfl, fun h => h ▸ .empty⟩

@[simp] theorem matches_start_iff : Matches start front w ↔ front = [] ∧ w = [] :=
  ⟨fun h => by cases h; exact ⟨rfl, rfl⟩, by rintro ⟨rfl, rfl⟩; exact .start⟩

@[simp] theorem matches_set_iff : Matches (set p) front w ↔ ∃ x, p x = true ∧ w = [x] :=
  ⟨fun h => by cases h with | set h => exact ⟨_, h, rfl⟩, by rintro ⟨x, h, rfl⟩; exact .set h⟩

theorem matches_seq_iff : Matches (seq r s) front w ↔
    ∃ u v, w = u ++ v ∧ Matches r front u ∧ Matches s (front ++ u) v :=
  ⟨fun h => by cases h with | seq hr hs => exact ⟨_, _, rfl, hr, hs⟩,
    by rintro ⟨u, v, rfl, hr, hs⟩; exact .seq hr hs⟩

@[simp] theorem matches_alt_iff :
    Matches (alt r s) front w ↔ Matches r front w ∨ Matches s front w :=
  ⟨fun h => by cases h with | altLeft h => exact .inl h | altRight h => exact .inr h,
    fun h => h.elim .altLeft .altRight⟩

theorem matches_star_set_iff : Matches (star (set p)) front w ↔ ∀ x ∈ w, p x = true := by
  constructor
  · intro h
    generalize hr : star (set p) = r at h
    induction h with
    | starNil => exact List.forall_mem_nil _
    | starCons hset _ _ _ ih =>
      cases hr
      obtain ⟨x, hx, rfl⟩ := matches_set_iff.mp hset
      exact List.forall_mem_cons.mpr ⟨hx, ih rfl⟩
    | _ => cases hr
  · intro h
    induction w generalizing front with
    | nil => exact .starNil
    | cons x w ih =>
      obtain ⟨hx, hw⟩ := List.forall_mem_cons.mp h
      exact .starCons (.set hx) (List.cons_ne_nil x []) (ih hw)

@[simp] theorem matches_literal_iff [BEq α] [LawfulBEq α] {xs : List α} :
    Matches (literal xs) front w ↔ w = xs := by
  induction xs generalizing front w with
  | nil => exact matches_empty_iff
  | cons x xs ih =>
    show Matches (seq (set (· == x)) (literal xs)) front w ↔ _
    rw [matches_seq_iff]
    constructor
    · rintro ⟨u, v, rfl, hx, hxs⟩
      obtain ⟨y, hy, rfl⟩ := matches_set_iff.mp hx
      rw [ih.mp hxs, eq_of_beq hy]
      rfl
    · rintro rfl
      exact ⟨[x], xs, rfl, .set (beq_self_eq_true x), ih.mpr rfl⟩

end Inversion

/-- The pattern has no anchor. -/
def AnchorFree : Regex α → Prop
  | empty => True
  | start => False
  | set _ => True
  | seq r s => r.AnchorFree ∧ s.AnchorFree
  | alt r s => r.AnchorFree ∧ s.AnchorFree
  | star r => r.AnchorFree

/-- Without an anchor it does not matter what stands in front. -/
theorem Matches.of_anchorFree {r : Regex α} {front w : List α} (h : Matches r front w)
    (hfree : r.AnchorFree) (front' : List α) : Matches r front' w := by
  induction h generalizing front' with
  | empty => exact .empty
  | start => exact hfree.elim
  | set h => exact .set h
  | seq _ _ ihr ihs => exact .seq (ihr hfree.1 _) (ihs hfree.2 _)
  | altLeft _ ih => exact .altLeft (ih hfree.1 _)
  | altRight _ ih => exact .altRight (ih hfree.2 _)
  | starNil => exact .starNil
  | starCons _ hne _ ihr ihs => exact .starCons (ihr hfree _) hne (ihs hfree _)

theorem anchorFree_literal [BEq α] (xs : List α) : (literal xs).AnchorFree := by
  induction xs with
  | nil => trivial
  | cons x xs ih => exact ⟨trivial, ih⟩

/-- Every set of the pattern is within `p`. -/
def Over (p : α → Prop) : Regex α → Prop
  | empty => True
  | start => True
  | set q => ∀ x, q x = true → p x
  | seq r s => r.Over p ∧ s.Over p
  | alt r s => r.Over p ∧ s.Over p
  | star r => r.Over p

theorem Matches.forall_mem {r : Regex α} {front w : List α} (h : Matches r front w)
    {p : α → Prop} (hover : r.Over p) : ∀ x ∈ w, p x := by
  induction h with
  | empty => exact List.forall_mem_nil _
  | start => exact List.forall_mem_nil _
  | set h => exact List.forall_mem_singleton.mpr (hover _ h)
  | seq _ _ ihr ihs => exact List.forall_mem_append.mpr ⟨ihr hover.1, ihs hover.2⟩
  | altLeft _ ih => exact ih hover.1
  | altRight _ ih => exact ih hover.2
  | starNil => exact List.forall_mem_nil _
  | starCons _ _ _ ihr ihs => exact List.forall_mem_append.mpr ⟨ihr hover, ihs hover⟩

/-! ## The engine -/

theorem mem_repeated_iff {r : Regex α} {length fuel : ℕ} {front xs ys : List α}
    (hround : ∀ {front xs ys : List α}, length = front.length + xs.length →
      (ys ∈ r.rests length xs ↔ ∃ w, xs = w ++ ys ∧ Matches r front w))
    (hlength : length = front.length + xs.length) (hfuel : xs.length ≤ fuel) :
    ys ∈ repeated (r.rests length) fuel xs ↔ ∃ w, xs = w ++ ys ∧ Matches (star r) front w := by
  induction fuel generalizing front xs with
  | zero =>
    have hnil : xs = [] := List.eq_nil_of_length_eq_zero (Nat.le_zero.mp hfuel)
    rw [hnil, repeated, List.mem_singleton]
    constructor
    · rintro rfl
      exact ⟨[], rfl, .starNil⟩
    · rintro ⟨w, h, -⟩
      exact (List.append_eq_nil_iff.mp h.symm).2
  | succ fuel ih =>
    rw [repeated, List.mem_append, List.mem_flatMap, List.mem_singleton]
    constructor
    · rintro (⟨zs, hzs, hys⟩ | rfl)
      · obtain ⟨hmem, hshort⟩ := List.mem_filter.mp hzs
        obtain ⟨u, rfl, hu⟩ := (hround hlength).mp hmem
        have hlt : zs.length < (u ++ zs).length := of_decide_eq_true hshort
        rw [List.length_append] at hlength hfuel hlt
        have hrest : length = (front ++ u).length + zs.length := by
          rw [List.length_append]
          omega
        obtain ⟨v, rfl, hv⟩ := (ih hrest (by omega)).mp hys
        have hne : u ≠ [] := List.ne_nil_of_length_pos (by omega)
        exact ⟨u ++ v, (List.append_assoc u v ys).symm, .starCons hu hne hv⟩
      · exact ⟨[], rfl, .starNil⟩
    · rintro ⟨w, rfl, hw⟩
      cases hw with
      | starNil => exact .inr rfl
      | @starCons _ _ u v hu hne hv =>
        have hpos := List.length_pos_of_ne_nil hne
        rw [List.append_assoc] at hlength hfuel ⊢
        have hmem := (hround hlength).mpr ⟨u, rfl, hu⟩
        have hsplit : (u ++ (v ++ ys)).length = u.length + (v ++ ys).length := List.length_append
        have hrest : length = (front ++ u).length + (v ++ ys).length := by
          rw [List.length_append]
          omega
        have hshort : (v ++ ys).length < (u ++ (v ++ ys)).length := by omega
        exact .inl ⟨v ++ ys, List.mem_filter.mpr ⟨hmem, decide_eq_true hshort⟩,
          (ih hrest (by omega)).mpr ⟨v, rfl, hv⟩⟩

/-- **Matches.** What is left behind the ways to match is left behind the matches. -/
theorem mem_rests_iff {r : Regex α} {length : ℕ} {front xs ys : List α}
    (hlength : length = front.length + xs.length) :
    ys ∈ r.rests length xs ↔ ∃ w, xs = w ++ ys ∧ Matches r front w := by
  induction r generalizing front xs ys with
  | empty => simp [rests, eq_comm]
  | start =>
    have hfront : xs.length = length ↔ front = [] := by
      rw [← List.length_eq_zero_iff]
      omega
    simp only [rests, hfront, matches_start_iff]
    by_cases h : front = [] <;> simp [h, eq_comm]
  | set p =>
    cases xs with
    | nil => simp [rests]
    | cons x xs =>
      rw [rests]
      constructor
      · intro hmem
        split_ifs at hmem with hx
        · rw [List.mem_singleton.mp hmem]
          exact ⟨[x], rfl, .set hx⟩
        · cases hmem
      · rintro ⟨w, hw, hset⟩
        obtain ⟨y, hy, rfl⟩ := matches_set_iff.mp hset
        cases hw
        rw [if_pos hy]
        exact List.mem_singleton.mpr rfl
  | seq r s ihr ihs =>
    simp only [rests, List.mem_flatMap, matches_seq_iff]
    constructor
    · rintro ⟨zs, hzs, hys⟩
      obtain ⟨u, rfl, hu⟩ := (ihr hlength).mp hzs
      have hrest : length = (front ++ u).length + zs.length := by
        rw [hlength, List.length_append, List.length_append, Nat.add_assoc]
      obtain ⟨v, rfl, hv⟩ := (ihs hrest).mp hys
      exact ⟨u ++ v, (List.append_assoc u v ys).symm, u, v, rfl, hu, hv⟩
    · rintro ⟨w, rfl, u, v, rfl, hu, hv⟩
      rw [List.append_assoc] at hlength ⊢
      have hrest : length = (front ++ u).length + (v ++ ys).length := by
        rw [hlength, List.length_append, @List.length_append _ front, Nat.add_assoc]
      exact ⟨v ++ ys, (ihr hlength).mpr ⟨u, rfl, hu⟩, (ihs hrest).mpr ⟨v, rfl, hv⟩⟩
  | alt r s ihr ihs =>
    simp only [rests, List.mem_append, ihr hlength, ihs hlength, matches_alt_iff]
    rw [← exists_or]
    exact exists_congr fun w => and_or_left.symm
  | star r ih => exact mem_repeated_iff ih hlength le_rfl

theorem search_iff {r : Regex α} {text : List α} :
    r.search text = true ↔ ∃ front w back, text = front ++ (w ++ back) ∧ Matches r front w := by
  unfold search
  rw [List.any_eq_true]
  constructor
  · rintro ⟨xs, hxs, hrests⟩
    obtain ⟨front, rfl⟩ := (List.mem_tails _ _).mp hxs
    obtain ⟨back, hback⟩ := List.exists_mem_of_ne_nil _ (by simpa using hrests)
    obtain ⟨w, rfl, hw⟩ := (mem_rests_iff rfl).mp hback
    exact ⟨front, w, back, rfl, hw⟩
  · rintro ⟨front, w, back, rfl, hw⟩
    have hmem : back ∈ r.rests (front ++ (w ++ back)).length (w ++ back) :=
      (mem_rests_iff List.length_append).mpr ⟨w, rfl, hw⟩
    refine ⟨w ++ back, (List.mem_tails _ _).mpr ⟨front, rfl⟩, ?_⟩
    simpa using List.ne_nil_of_mem hmem

theorem search_alt (r s : Regex α) (text : List α) :
    (alt r s).search text = true ↔ r.search text = true ∨ s.search text = true := by
  simp only [search_iff, matches_alt_iff, and_or_left, exists_or]

theorem search_literal [BEq α] [LawfulBEq α] {xs text : List α} :
    (literal xs).search text = true ↔ xs <:+: text := by
  simp only [search_iff, matches_literal_iff]
  constructor
  · rintro ⟨front, w, back, rfl, rfl⟩
    exact ⟨front, back, List.append_assoc front w back⟩
  · rintro ⟨front, back, rfl⟩
    exact ⟨front, xs, back, List.append_assoc front xs back, rfl⟩

end Regex
