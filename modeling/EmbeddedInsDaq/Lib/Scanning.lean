import EmbeddedInsDaq.Lib.Regex

/-!
# Scanning for words

A text is read from the front: a word is reported and skipped, any other character is skipped
(`Scanned`). What is reported are words of the text; of the others, each is hidden behind a
reported word that starts before it and reaches into it (`Scanned.exists_of_word`).

`unseen` keeps the first one of several equal elements.
-/

/-- `ws` are the words that a scan of `xs` reports. -/
inductive Scanned {α : Type*} (Word : List α → Prop) : List α → List (List α) → Prop
  | nil : Scanned Word [] []
  | word {w xs : List α} {ws : List (List α)} (hw : Word w) (h : Scanned Word xs ws) :
    Scanned Word (w ++ xs) (w :: ws)
  | skip {x : α} {xs : List α} {ws : List (List α)} (hno : ∀ w, Word w → ¬w <+: x :: xs)
    (h : Scanned Word xs ws) : Scanned Word (x :: xs) ws

namespace Scanned

variable {α : Type*} {Word : List α → Prop} {xs ys : List α} {ws ws' : List (List α)}

theorem word_of_mem (h : Scanned Word xs ws) {w : List α} (hw : w ∈ ws) :
    Word w ∧ w <:+: xs := by
  induction h with
  | nil => cases hw
  | @word u xs ws hu _ ih =>
    rcases List.mem_cons.mp hw with rfl | hw
    · exact ⟨hu, (List.prefix_append w xs).isInfix⟩
    · exact ⟨(ih hw).1, (ih hw).2.trans (List.suffix_append u xs).isInfix⟩
  | @skip x xs ws _ _ ih => exact ⟨(ih hw).1, (ih hw).2.trans (List.suffix_cons x xs).isInfix⟩

/-- A reported word that starts before `v` does and reaches into it. -/
def Hides (u pre v : List α) : Prop :=
  ∃ a b, u = a ++ b ∧ a ≠ [] ∧ b ≠ [] ∧ a <:+ pre ∧ (b <+: v ∨ v <+: b)

/-- **Completeness.** A word of the text is reported, or a reported word hides it. -/
theorem exists_of_word (h : Scanned Word xs ws) (hne : ∀ w, Word w → w ≠ [])
    (hfree : ∀ w w', Word w → Word w' → w <+: w' → w = w') {pre v post : List α} (hv : Word v)
    (hxs : xs = pre ++ (v ++ post)) : v ∈ ws ∨ ∃ u ∈ ws, Hides u pre v := by
  induction h generalizing pre with
  | nil =>
    have hnil := List.append_eq_nil_iff.mp hxs.symm
    exact absurd (List.append_eq_nil_iff.mp hnil.2).1 (hne v hv)
  | @word u xs ws hu _ ih =>
    rcases List.append_eq_append_iff.mp hxs with ⟨mid, rfl, hmid⟩ | ⟨mid, rfl, hmid⟩
    · -- the word `u` ends before `v` starts
      rcases ih hmid with hmem | ⟨w, hw, a, b, rfl, ha, hb, hsuffix, hinto⟩
      · exact .inl (List.mem_cons_of_mem u hmem)
      · exact .inr ⟨a ++ b, List.mem_cons_of_mem u hw, a, b, rfl, ha, hb,
          hsuffix.trans (List.suffix_append u mid), hinto⟩
    · cases pre with
      | nil =>
        -- both words are at the front
        have heq : mid = v := by
          rcases List.append_eq_append_iff.mp hmid with ⟨rest, rfl, -⟩ | ⟨rest, rfl, -⟩
          · exact (hfree v (v ++ rest) hv hu (List.prefix_append v rest)).symm
          · exact hfree mid (mid ++ rest) hu hv (List.prefix_append mid rest)
        exact .inl (List.mem_cons.mpr (.inl heq.symm))
      | cons p pre =>
        cases mid with
        | nil =>
          have hfront : xs = [] ++ (v ++ post) := hmid.symm
          rcases ih hfront with hmem | ⟨w, hw, a, b, -, ha, -, hsuffix, -⟩
          · exact .inl (List.mem_cons_of_mem _ hmem)
          · exact absurd (List.suffix_nil.mp hsuffix) ha
        | cons m mid =>
          refine .inr ⟨_, List.mem_cons_self, p :: pre, m :: mid, rfl, List.cons_ne_nil p pre,
            List.cons_ne_nil m mid, List.suffix_refl _, ?_⟩
          rcases List.append_eq_append_iff.mp hmid with ⟨rest, hrest, -⟩ | ⟨rest, rfl, -⟩
          · exact .inr ⟨rest, hrest.symm⟩
          · exact .inl (List.prefix_append (m :: mid) rest)
  | @skip x xs ws hno _ ih =>
    cases pre with
    | nil => exact absurd ⟨post, hxs.symm⟩ (hno v hv)
    | cons p pre =>
      obtain ⟨rfl, rfl⟩ := List.cons.inj hxs
      rcases ih rfl with hmem | ⟨w, hw, a, b, hab, ha, hb, hsuffix, hinto⟩
      · exact .inl hmem
      · exact .inr ⟨w, hw, a, b, hab, ha, hb, hsuffix.trans (List.suffix_cons x pre), hinto⟩

/-! ## Line by line -/

section Break

variable {b : α} (hbreak : ∀ w, Word w → b ∉ w)
include hbreak

theorem prefix_of_prefix_append_cons {w : List α} (hw : Word w) (h : w <+: xs ++ b :: ys) :
    w <+: xs := by
  rcases List.prefix_or_prefix_of_prefix h (List.prefix_append xs (b :: ys)) with h' | h'
  · exact h'
  · obtain ⟨rest, rfl⟩ := h'
    cases rest with
    | nil => simp
    | cons c rest =>
      rw [List.prefix_append_right_inj, List.cons_prefix_cons] at h
      obtain ⟨rfl, -⟩ := h
      exact absurd (List.mem_append_right xs List.mem_cons_self) (hbreak _ hw)

/-- No word reaches over a break, so that a text can be scanned piece by piece. -/
theorem append_cons (hne : ∀ w, Word w → w ≠ []) (h : Scanned Word xs ws)
    (h' : Scanned Word ys ws') : Scanned Word (xs ++ b :: ys) (ws ++ ws') := by
  induction h with
  | nil =>
    refine .skip ?_ h'
    intro w hw hprefix
    exact hne w hw (List.prefix_nil.mp (prefix_of_prefix_append_cons hbreak hw hprefix))
  | word hw _ ih =>
    rw [List.append_assoc, List.cons_append]
    exact .word hw ih
  | skip hno _ ih =>
    refine .skip ?_ ih
    intro w hw hprefix
    exact hno w hw (prefix_of_prefix_append_cons hbreak hw hprefix)

theorem intercalate (hne : ∀ w, Word w → w ≠ []) {scan : List α → List (List α)}
    (hscan : ∀ xs, Scanned Word xs (scan xs)) {lines : List (List α)} (hlines : lines ≠ []) :
    Scanned Word (List.intercalate [b] lines) (lines.flatMap scan) := by
  induction lines with
  | nil => exact absurd rfl hlines
  | cons line lines ih =>
    cases lines with
    | nil => simpa using hscan line
    | cons next lines =>
      rw [List.intercalate_cons_cons, List.flatMap_cons]
      simpa using append_cons hbreak hne (hscan line) (ih (List.cons_ne_nil next lines))

end Break

end Scanned

namespace Regex

variable {α : Type*}

/-! ## Scanning for a pattern -/

/-- The matches of the pattern, for up to `fuel` characters or matches: the first match at the front
is reported and skipped, and a character with no match in front of it is skipped. A match that
consumes nothing is not reported. -/
def findFrom (length : ℕ) (r : Regex α) : ℕ → List α → List (List α)
  | _, [] => []
  | 0, _ => []
  | fuel + 1, x :: xs =>
    match (r.rests length (x :: xs)).head? with
    | some rest =>
      if rest.length ≤ xs.length then
        (x :: xs).take (xs.length + 1 - rest.length) :: findFrom length r fuel rest
      else findFrom length r fuel xs
    | none => findFrom length r fuel xs

/-- The matches of the pattern, from the front on. -/
def find (r : Regex α) (text : List α) : List (List α) :=
  findFrom text.length r text.length text

variable {r : Regex α} {Word : List α → Prop} (hr : ∀ front w, r.Matches front w ↔ Word w)
  (hne : ∀ w, Word w → w ≠ [])
include hr hne

theorem scanned_findFrom {length fuel : ℕ} {front xs : List α}
    (hlength : length = front.length + xs.length) (hfuel : xs.length ≤ fuel) :
    Scanned Word xs (findFrom length r fuel xs) := by
  induction fuel generalizing front xs with
  | zero =>
    obtain rfl := List.eq_nil_of_length_eq_zero (Nat.le_zero.mp hfuel)
    exact .nil
  | succ fuel ih =>
    cases xs with
    | nil => exact .nil
    | cons x xs =>
      unfold findFrom
      cases hrests : (r.rests length (x :: xs)).head? with
      | none =>
        have hrest : length = (front ++ [x]).length + xs.length := by
          simp only [List.length_append, List.length_cons, List.length_nil] at hlength ⊢
          omega
        refine .skip ?_ (ih hrest (Nat.le_of_succ_le_succ hfuel))
        rintro w hw ⟨rest, hrest⟩
        have hmem := (mem_rests_iff hlength).mpr ⟨w, hrest.symm, (hr front w).mpr hw⟩
        rw [List.head?_eq_none_iff.mp hrests] at hmem
        cases hmem
      | some rest =>
        obtain ⟨w, htext, hw⟩ := (mem_rests_iff hlength).mp (List.mem_of_head? hrests)
        have hword := (hr front w).mp hw
        have hpos := List.length_pos_of_ne_nil (hne w hword)
        have hsplit := congrArg List.length htext
        simp only [List.length_append, List.length_cons] at hlength hfuel hsplit
        have hrest : length = (front ++ w).length + rest.length := by
          rw [List.length_append]
          omega
        have hlast : xs.length + 1 - rest.length = w.length := by omega
        dsimp only
        rw [if_pos (by omega), hlast, htext, List.take_left]
        exact .word hword (ih hrest (by omega))

/-- **Scanning.** The matches that are found are the words that a scan reports. -/
theorem scanned_find (text : List α) : Scanned Word text (r.find text) :=
  have hlength : text.length = ([] : List α).length + text.length := (Nat.zero_add _).symm
  scanned_findFrom hr hne hlength le_rfl

end Regex

/-! ## The first of each -/

section Unseen

variable {α : Type*} [DecidableEq α]

/-- The elements that are not in `seen` and not further to the front. -/
def unseen : List α → List α → List α
  | _, [] => []
  | seen, x :: xs => if x ∈ seen then unseen seen xs else x :: unseen (x :: seen) xs

theorem mem_unseen {a : α} {seen xs : List α} :
    a ∈ unseen seen xs ↔ a ∈ xs ∧ a ∉ seen := by
  induction xs generalizing seen with
  | nil => simp [unseen]
  | cons x xs ih =>
    rw [unseen]
    by_cases hx : x ∈ seen
    · rw [if_pos hx, ih, List.mem_cons]
      refine and_congr_left fun ha => (or_iff_right ?_).symm
      rintro rfl
      exact ha hx
    · rw [if_neg hx, List.mem_cons, ih, List.mem_cons, List.mem_cons]
      by_cases hax : a = x
      · subst hax
        simp [hx]
      · simp [hax]

theorem nodup_unseen (seen xs : List α) : (unseen seen xs).Nodup := by
  induction xs generalizing seen with
  | nil => exact List.nodup_nil
  | cons x xs ih =>
    rw [unseen]
    split_ifs with hx
    · exact ih seen
    · refine List.nodup_cons.mpr ⟨?_, ih _⟩
      rw [mem_unseen]
      exact fun h => h.2 List.mem_cons_self

theorem unseen_congr {seen seen' : List α} (h : ∀ a, a ∈ seen ↔ a ∈ seen') (xs : List α) :
    unseen seen xs = unseen seen' xs := by
  induction xs generalizing seen seen' with
  | nil => rfl
  | cons x xs ih =>
    have hcons : ∀ a, a ∈ x :: seen ↔ a ∈ x :: seen' := fun a => by
      rw [List.mem_cons, List.mem_cons, h a]
    rw [unseen, unseen, ih h, ih hcons]
    simp only [h x]

theorem unseen_append_left (seen seen' xs : List α) :
    unseen (seen ++ seen') xs = (unseen seen' xs).filter (· ∉ seen) := by
  induction xs generalizing seen' with
  | nil => rfl
  | cons x xs ih =>
    have hmiddle : ∀ a, a ∈ x :: (seen ++ seen') ↔ a ∈ seen ++ (x :: seen') := fun a => by
      simp [or_left_comm]
    rw [unseen, unseen]
    by_cases hx' : x ∈ seen'
    · rw [if_pos (List.mem_append_right seen hx'), if_pos hx', ih]
    rw [if_neg hx']
    by_cases hx : x ∈ seen
    · have hagain : ∀ a, a ∈ seen ++ seen' ↔ a ∈ seen ++ (x :: seen') := fun a => by
        rw [← hmiddle, List.mem_cons]
        refine (or_iff_right_of_imp ?_).symm
        rintro rfl
        exact List.mem_append_left seen' hx
      rw [if_pos (List.mem_append_left seen' hx), List.filter_cons_of_neg (by simpa using hx),
        ← ih, unseen_congr hagain]
    · rw [if_neg (by simp [hx, hx']), List.filter_cons_of_pos (by simpa using hx), ← ih,
        unseen_congr hmiddle]

theorem unseen_append_right (seen xs ys : List α) :
    unseen seen (xs ++ ys) = unseen seen xs ++ unseen (xs ++ seen) ys := by
  induction xs generalizing seen with
  | nil => rfl
  | cons x xs ih =>
    rw [List.cons_append, unseen, unseen]
    by_cases hx : x ∈ seen
    · have hagain : ∀ a, a ∈ xs ++ seen ↔ a ∈ x :: (xs ++ seen) := fun a => by
        rw [List.mem_cons]
        refine (or_iff_right_of_imp ?_).symm
        rintro rfl
        exact List.mem_append_right xs hx
      rw [if_pos hx, if_pos hx, ih, unseen_congr hagain, List.cons_append]
    · have hmiddle : ∀ a, a ∈ xs ++ x :: seen ↔ a ∈ x :: (xs ++ seen) := fun a => by
        simp [or_left_comm]
      rw [if_neg hx, if_neg hx, ih, unseen_congr hmiddle, List.cons_append, List.cons_append]

theorem unseen_append (xs ys : List α) :
    unseen [] (xs ++ ys) = unseen [] xs ++ (unseen [] ys).filter (· ∉ xs) := by
  rw [unseen_append_right, unseen_append_left]

end Unseen
