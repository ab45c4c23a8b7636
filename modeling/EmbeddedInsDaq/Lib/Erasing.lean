import EmbeddedInsDaq.Lib.Regex

/-!
# Erasing the words of a vocabulary

A text is read from the front: a word is erased, and any other character is kept or dropped
(`Erased`). No word starts inside another one, so every word of the text goes. What is left may
hold a word all the same, since what stood between its characters is gone. `Interrupted` says which
texts become a word in this way, and `Erased.infix_iff` that there is no other way.
-/

/-- A text that lacks `b` does not reach over a `b`. -/
theorem infix_append_cons_iff {α : Type*} {b : α} {text xs ys : List α} (hb : b ∉ text) :
    text <:+: xs ++ b :: ys ↔ text <:+: xs ∨ text <:+: ys := by
  constructor
  · rintro ⟨front, back, h⟩
    rw [List.append_assoc] at h
    rcases List.append_eq_append_iff.mp h with ⟨mid, rfl, hmid⟩ | ⟨mid, rfl, hmid⟩
    · rcases List.append_eq_append_iff.mp hmid with ⟨mid', rfl, -⟩ | ⟨mid', rfl, hmid'⟩
      · exact .inl ⟨front, mid', List.append_assoc front text mid'⟩
      · cases mid' with
        | nil => exact .inl ⟨front, [], by simp⟩
        | cons y mid' =>
          cases hmid'
          exact absurd (List.mem_append_right mid List.mem_cons_self) hb
    · cases mid with
      | nil =>
        cases text with
        | nil => exact .inl List.nil_infix
        | cons y text =>
          cases hmid
          exact absurd List.mem_cons_self hb
      | cons y mid =>
        cases hmid
        exact .inr ⟨mid, back, List.append_assoc mid text back⟩
  · rintro (h | h)
    · exact h.trans (List.prefix_append xs (b :: ys)).isInfix
    · exact h.trans ((List.suffix_cons b ys).trans (List.suffix_append xs (b :: ys))).isInfix

/-- Words that start with a character that no word has further on, none of them the front of
another. -/
structure Vocabulary (α : Type*) where
  Word : List α → Prop
  Opens : α → Prop
  exists_cons {w : List α} : Word w → ∃ x tail, w = x :: tail ∧ Opens x ∧ ∀ y ∈ tail, ¬Opens y
  eq_of_isPrefix {w w' : List α} : Word w → Word w' → w <+: w' → w = w'

namespace Vocabulary

variable {α : Type*} {V : Vocabulary α} {keep : α → Bool} {w w' xs ys : List α} {x : α}

theorem Word.ne_nil (hw : V.Word w) : w ≠ [] := by
  obtain ⟨x, tail, rfl, -, -⟩ := V.exists_cons hw
  exact List.cons_ne_nil x tail

theorem Word.opens_head (hw : V.Word (x :: xs)) : V.Opens x := by
  obtain ⟨y, tail, h, hy, -⟩ := V.exists_cons hw
  cases h
  exact hy

theorem Word.not_opens_tail (hw : V.Word (x :: xs)) : ∀ y ∈ xs, ¬V.Opens y := by
  obtain ⟨y, tail, h, -, htail⟩ := V.exists_cons hw
  cases h
  exact htail

/-- At most one word is at the front of a text. -/
theorem Word.eq_of_append (hw : V.Word w) (hw' : V.Word w') (h : w ++ xs = w' ++ ys) :
    w = w' ∧ xs = ys := by
  have heq : w = w' := by
    rcases Nat.le_total w.length w'.length with hle | hle
    · exact V.eq_of_isPrefix hw hw'
        (List.prefix_of_prefix_length_le ⟨xs, h⟩ (List.prefix_append w' ys) hle)
    · exact (V.eq_of_isPrefix hw' hw
        (List.prefix_of_prefix_length_le ⟨ys, h.symm⟩ (List.prefix_append w xs) hle)).symm
  subst heq
  exact ⟨rfl, List.append_cancel_left h⟩

/-- Texts with a fixed front, then characters of which none ends a word, then one that does. -/
theorem eq_of_isPrefix_of_last {ends : α → Prop} {front u v : List α} {c d : α}
    (hc : ends c) (hd : ends d) (hu : ∀ y ∈ u, ¬ends y) (hv : ∀ y ∈ v, ¬ends y)
    (h : front ++ (u ++ [c]) <+: front ++ (v ++ [d])) :
    front ++ (u ++ [c]) = front ++ (v ++ [d]) := by
  rw [List.prefix_append_right_inj] at h
  rw [List.append_right_inj]
  induction u generalizing v with
  | nil =>
    cases v with
    | nil => simpa using h
    | cons y v =>
      rw [List.nil_append, List.cons_append, List.cons_prefix_cons] at h
      exact absurd (h.1 ▸ hc) (hv y List.mem_cons_self)
  | cons y u ih =>
    cases v with
    | nil =>
      rw [List.nil_append, List.cons_append, List.cons_prefix_cons] at h
      exact absurd (h.1 ▸ hd) (hu y List.mem_cons_self)
    | cons z v =>
      rw [List.cons_append, List.cons_append, List.cons_prefix_cons] at h
      obtain ⟨rfl, h⟩ := h
      have := ih (fun y hy => hu y (List.mem_cons_of_mem _ hy))
        (fun y hy => hv y (List.mem_cons_of_mem _ hy)) h
      rw [List.cons_append, List.cons_append, this]

/-- Words with a fixed front, then characters that end no word, then one that does. -/
def ofEnds (Word : List α → Prop) {opener : α} {front : List α} {inside ends : α → Prop}
    (hfront : opener ∉ front) (hinside : ¬inside opener) (hends : ¬ends opener)
    (hdisjoint : ∀ x, inside x → ¬ends x)
    (hword : ∀ w, Word w → ∃ body last, w = (opener :: front) ++ (body ++ [last]) ∧ ends last ∧
      ∀ x ∈ body, inside x) : Vocabulary α where
  Word := Word
  Opens x := x = opener
  exists_cons hw := by
    obtain ⟨body, last, rfl, hlast, hbody⟩ := hword _ hw
    refine ⟨opener, front ++ (body ++ [last]), rfl, rfl, ?_⟩
    rintro x hx rfl
    rw [List.mem_append, List.mem_append, List.mem_singleton] at hx
    rcases hx with hx | hx | rfl
    · exact hfront hx
    · exact hinside (hbody x hx)
    · exact hends hlast
  eq_of_isPrefix hw hw' := by
    obtain ⟨body, last, rfl, hlast, hbody⟩ := hword _ hw
    obtain ⟨body', last', rfl, hlast', hbody'⟩ := hword _ hw'
    exact eq_of_isPrefix_of_last hlast hlast' (fun x hx => hdisjoint x (hbody x hx))
      fun x hx => hdisjoint x (hbody' x hx)

/-! ## Erasing -/

/-- No word is at the front of the text. -/
def NoWordAt (V : Vocabulary α) (xs : List α) : Prop := ∀ w, V.Word w → ¬w <+: xs

/-- `ys` is what is left of `xs` without its words and without the characters that are not kept. -/
inductive Erased (V : Vocabulary α) (keep : α → Bool) : List α → List α → Prop
  | nil : Erased V keep [] []
  | word {w xs ys : List α} (hw : V.Word w) (h : Erased V keep xs ys) :
      Erased V keep (w ++ xs) ys
  | drop {x : α} {xs ys : List α} (hx : keep x = false) (hno : V.NoWordAt (x :: xs))
      (h : Erased V keep xs ys) : Erased V keep (x :: xs) ys
  | keep {x : α} {xs ys : List α} (hx : keep x = true) (hno : V.NoWordAt (x :: xs))
      (h : Erased V keep xs ys) : Erased V keep (x :: xs) (x :: ys)

theorem noWordAt_cons_of_not_opens (hx : ¬V.Opens x) : V.NoWordAt (x :: xs) := by
  rintro w hw ⟨rest, h⟩
  obtain ⟨y, tail, rfl, hy, -⟩ := V.exists_cons hw
  cases h
  exact hx hy

theorem Erased.of_word (h : Erased V keep (w ++ xs) ys) (hw : V.Word w) : Erased V keep xs ys := by
  generalize htext : w ++ xs = text at h
  cases h with
  | nil => exact absurd (List.append_eq_nil_iff.mp htext).1 hw.ne_nil
  | word hw' h =>
    obtain ⟨rfl, rfl⟩ := hw.eq_of_append hw' htext
    exact h
  | drop _ hno _ => exact absurd ⟨xs, htext⟩ (hno w hw)
  | keep _ hno _ => exact absurd ⟨xs, htext⟩ (hno w hw)

theorem Erased.of_noWordAt (h : Erased V keep (x :: xs) ys) (hno : V.NoWordAt (x :: xs)) :
    keep x = false ∧ Erased V keep xs ys ∨
      keep x = true ∧ ∃ zs, ys = x :: zs ∧ Erased V keep xs zs := by
  generalize htext : x :: xs = text at h hno
  cases h with
  | nil => cases htext
  | word hw _ => exact absurd (List.prefix_append _ _) (hno _ hw)
  | drop hx _ h =>
    cases htext
    exact .inl ⟨hx, h⟩
  | keep hx _ h =>
    cases htext
    exact .inr ⟨hx, _, rfl, h⟩

theorem Erased.filter (h : Erased V (fun _ => true) xs ys) (keep : α → Bool) :
    Erased V keep xs (ys.filter keep) := by
  induction h with
  | nil => exact .nil
  | word hw _ ih => exact .word hw ih
  | drop hx => cases hx
  | @keep x xs ys _ hno _ ih =>
    cases hx : keep x with
    | false =>
      rw [List.filter_cons_of_neg (by simp [hx])]
      exact .drop hx hno ih
    | true =>
      rw [List.filter_cons_of_pos hx]
      exact .keep hx hno ih

theorem Erased.eq_self (h : Erased V (fun _ => true) xs ys) (hno : ∀ w, V.Word w → ¬w <:+: xs) :
    ys = xs := by
  induction h with
  | nil => rfl
  | word hw => exact absurd (List.prefix_append _ _).isInfix (hno _ hw)
  | drop hx => cases hx
  | @keep x xs ys _ _ _ ih =>
    rw [ih fun w hw hoccurs => hno w hw (hoccurs.trans (List.suffix_cons x xs).isInfix)]

theorem Erased.unique (h : Erased V keep xs ys) {zs : List α} (h' : Erased V keep xs zs) :
    ys = zs := by
  induction h generalizing zs with
  | nil =>
    generalize htext : [] = text at h'
    cases h' with
    | nil => rfl
    | word hw _ => exact absurd (List.append_eq_nil_iff.mp htext.symm).1 hw.ne_nil
    | drop _ _ _ => cases htext
    | keep _ _ _ => cases htext
  | word hw _ ih => exact ih (h'.of_word hw)
  | drop hx hno _ ih =>
    rcases h'.of_noWordAt hno with ⟨-, h'⟩ | ⟨hx', -⟩
    · exact ih h'
    · rw [hx] at hx'
      cases hx'
  | keep hx hno _ ih =>
    rcases h'.of_noWordAt hno with ⟨hx', -⟩ | ⟨-, rest, rfl, hrest⟩
    · rw [hx] at hx'
      cases hx'
    · rw [ih hrest]

theorem Erased.sublist (h : Erased V keep xs ys) : ys.Sublist xs := by
  induction h with
  | nil => exact .slnil
  | word _ _ ih => exact ih.trans (List.sublist_append_right _ _)
  | drop _ _ _ ih => exact ih.cons _
  | keep _ _ _ ih => exact ih.cons_cons _

theorem Erased.of_opens {as bs : List α} (h : Erased V keep (as ++ x :: bs) ys) (hx : V.Opens x) :
    ∃ front back, ys = front ++ back ∧ Erased V keep (x :: bs) back := by
  generalize htext : as ++ x :: bs = text at h
  induction h generalizing as with
  | nil => cases as <;> cases htext
  | @word w xs ys hw h ih =>
    cases as with
    | nil =>
      have hword : V.Erased keep (w ++ xs) ys := .word hw h
      rw [← htext] at hword
      exact ⟨[], ys, rfl, hword⟩
    | cons a as =>
      obtain ⟨b, tail, rfl, -, htail⟩ := V.exists_cons hw
      have hcons : as ++ x :: bs = tail ++ xs := (List.cons.inj htext).2
      rcases List.append_eq_append_iff.mp hcons with ⟨mid, rfl, hmid⟩ | ⟨mid, rfl, hmid⟩
      · cases mid with
        | nil => exact @ih [] hmid
        | cons y mid =>
          -- `x` would be inside the word
          cases hmid
          exact absurd hx (htail x (List.mem_append_right as List.mem_cons_self))
      · exact ih hmid.symm
  | @drop y xs ys hy hno h ih =>
    cases as with
    | nil =>
      cases htext
      exact ⟨[], ys, rfl, .drop hy hno h⟩
    | cons a as => exact ih (List.cons.inj htext).2
  | @keep y xs ys hy hno h ih =>
    cases as with
    | nil =>
      cases htext
      exact ⟨[], x :: ys, rfl, .keep hy hno h⟩
    | cons a as =>
      obtain ⟨front, back, rfl, hback⟩ := ih (List.cons.inj htext).2
      exact ⟨_ :: front, back, rfl, hback⟩

theorem Erased.prefix_of_plain {u : List α} (hu : ∀ y ∈ u, ¬V.Opens y ∧ keep y = true)
    (h : Erased V keep (u ++ xs) ys) : u <+: ys := by
  induction u generalizing ys with
  | nil => exact List.nil_prefix
  | cons y u ih =>
    obtain ⟨⟨hy, hkept⟩, hu⟩ := List.forall_mem_cons.mp hu
    rcases h.of_noWordAt (noWordAt_cons_of_not_opens hy) with ⟨hdrop, -⟩ | ⟨-, zs, rfl, hzs⟩
    · rw [hkept] at hdrop
      cases hdrop
    · exact List.cons_prefix_cons.mpr ⟨rfl, ih hu hzs⟩

/-- A text that no word starts in or reaches into is left as it is. -/
theorem Erased.infix_of_apart {u : List α} (hu : ∀ y ∈ u, ¬V.Opens y ∧ keep y = true)
    (hapart : ∀ s t, V.Word (s ++ t) → t ≠ [] → ¬(t <+: u ∨ u <+: t)) (h : Erased V keep xs ys)
    (hoccurs : u <:+: xs) : u <:+: ys := by
  obtain ⟨pre, post, rfl⟩ := hoccurs
  generalize htext : pre ++ u ++ post = text at h
  rw [List.append_assoc] at htext
  induction h generalizing pre with
  | nil =>
    obtain rfl := (List.append_eq_nil_iff.mp (List.append_eq_nil_iff.mp htext).2).1
    exact List.nil_infix
  | @word w xs ys hw h ih =>
    rcases List.append_eq_append_iff.mp htext with ⟨mid, rfl, hmid⟩ | ⟨mid, rfl, hmid⟩
    · cases mid with
      | nil => exact ih [] hmid
      | cons m mid =>
        -- the end of the word would reach into `u`
        refine absurd ?_ (hapart pre (m :: mid) hw (List.cons_ne_nil m mid))
        exact (List.prefix_or_prefix_of_prefix ⟨post, rfl⟩ ⟨xs, hmid.symm⟩).symm
    · exact ih mid hmid.symm
  | @drop x xs ys hx hno h ih =>
    cases pre with
    | nil =>
      have hword : Erased V keep (u ++ post) ys := htext ▸ .drop hx hno h
      exact (hword.prefix_of_plain hu).isInfix
    | cons p pre => exact ih pre (List.cons.inj htext).2
  | @keep x xs ys hx hno h ih =>
    cases pre with
    | nil =>
      have hword : Erased V keep (u ++ post) (x :: ys) := htext ▸ .keep hx hno h
      exact (hword.prefix_of_plain hu).isInfix
    | cons p pre => exact (ih pre (List.cons.inj htext).2).trans (List.suffix_cons x ys).isInfix

/-! ## Interrupted words -/

/-- Words and characters that are not kept. -/
inductive Gap (V : Vocabulary α) (keep : α → Bool) : List α → Prop
  | nil : Gap V keep []
  | word {w xs : List α} (hw : V.Word w) (h : Gap V keep xs) : Gap V keep (w ++ xs)
  | drop {x : α} {xs : List α} (hx : keep x = false) (h : Gap V keep xs) : Gap V keep (x :: xs)

/-- The second text is the first one with gaps in front of its characters. -/
inductive Spread (V : Vocabulary α) (keep : α → Bool) : List α → List α → Prop
  | nil : Spread V keep [] []
  | cons {gap w xs : List α} {x : α} (hgap : Gap V keep gap) (h : Spread V keep w xs) :
      Spread V keep (x :: w) (gap ++ x :: xs)

/-- The text is a word with gaps between its characters, and not that word. -/
def Interrupted (V : Vocabulary α) (keep : α → Bool) (text : List α) : Prop :=
  ∃ x tail xs, V.Word (x :: tail) ∧ Spread V keep tail xs ∧ xs ≠ tail ∧ text = x :: xs

theorem Gap.head {gap : List α} (h : Gap V keep (x :: gap)) : V.Opens x ∨ keep x = false := by
  generalize htext : x :: gap = text at h
  cases h with
  | nil => cases htext
  | word hw _ =>
    obtain ⟨y, tail, rfl, hy, -⟩ := V.exists_cons hw
    cases htext
    exact .inl hy
  | drop hx _ =>
    cases htext
    exact .inr hx

theorem Erased.exists_gap (h : Erased V keep xs (x :: ys)) :
    ∃ gap rest, xs = gap ++ x :: rest ∧ Gap V keep gap ∧ V.NoWordAt (x :: rest) ∧
      Erased V keep rest ys := by
  generalize hleft : x :: ys = left at h
  induction h with
  | nil => cases hleft
  | @word w xs _ hw _ ih =>
    obtain ⟨gap, rest, rfl, hgap, hno, hrest⟩ := ih hleft
    exact ⟨w ++ gap, rest, (List.append_assoc w gap _).symm, .word hw hgap, hno, hrest⟩
  | @drop y xs _ hy _ _ ih =>
    obtain ⟨gap, rest, rfl, hgap, hno, hrest⟩ := ih hleft
    exact ⟨y :: gap, rest, rfl, .drop hy hgap, hno, hrest⟩
  | @keep y xs _ _ hno h =>
    cases hleft
    exact ⟨[], xs, rfl, .nil, hno, h⟩

theorem Erased.exists_spread (h : Erased V keep xs (w ++ ys)) :
    ∃ spread rest, xs = spread ++ rest ∧ Spread V keep w spread ∧ Erased V keep rest ys := by
  induction w generalizing xs with
  | nil => exact ⟨[], xs, rfl, .nil, h⟩
  | cons x w ih =>
    obtain ⟨gap, rest, rfl, hgap, -, hrest⟩ := h.exists_gap
    obtain ⟨spread, back, rfl, hspread, hback⟩ := ih hrest
    exact ⟨gap ++ x :: spread, back, by simp, .cons hgap hspread, hback⟩

/-- What can be read off the front of a word with gaps, inside a word, ends before its first gap. -/
theorem Spread.eq_or_exists {tail spread u : List α} (hspread : Spread V keep tail spread)
    (hu : ∀ y ∈ u, ¬V.Opens y ∧ keep y = true) (h : u <+: spread ++ xs) :
    spread = tail ∨ ∃ y rest, tail = u ++ y :: rest := by
  induction hspread generalizing u with
  | nil => exact .inl rfl
  | @cons gap w zs x hgap _ ih =>
    cases u with
    | nil => exact .inr ⟨x, w, rfl⟩
    | cons y u =>
      obtain ⟨hy, hu⟩ := List.forall_mem_cons.mp hu
      cases gap with
      | nil =>
        obtain ⟨rfl, hzs⟩ := List.cons_prefix_cons.mp h
        rcases ih hu hzs with rfl | ⟨z, rest, rfl⟩
        · exact .inl rfl
        · exact .inr ⟨z, rest, rfl⟩
      | cons z gap =>
        obtain ⟨rfl, -⟩ := List.cons_prefix_cons.mp h
        rcases hgap.head with hopens | hdrop
        · exact absurd hopens hy.1
        · rw [hy.2] at hdrop
          cases hdrop

section Break

variable {b : α} (hbreak : ∀ w, V.Word w → b ∉ w)
include hbreak

theorem NoWordAt.append_cons (h : V.NoWordAt xs) : V.NoWordAt (xs ++ b :: ys) := by
  rintro w hw ⟨rest, hrest⟩
  rcases List.append_eq_append_iff.mp hrest with ⟨mid, rfl, -⟩ | ⟨mid, rfl, hmid⟩
  · exact h w hw (List.prefix_append w mid)
  · cases mid with
    | nil => exact h _ hw (by rw [List.append_nil])
    | cons y mid =>
      cases hmid
      exact hbreak _ hw (List.mem_append_right xs List.mem_cons_self)

theorem Erased.append_cons (hb : keep b = true) {xs' ys' : List α} (h : Erased V keep xs ys)
    (h' : Erased V keep xs' ys') : Erased V keep (xs ++ b :: xs') (ys ++ b :: ys') := by
  induction h with
  | nil =>
    have hno : V.NoWordAt ([] ++ b :: xs') :=
      NoWordAt.append_cons hbreak fun w hw hnil => hw.ne_nil (List.prefix_nil.mp hnil)
    exact .keep hb hno h'
  | word hw _ ih =>
    rw [List.append_assoc]
    exact .word hw ih
  | drop hx hno _ ih => exact .drop hx (NoWordAt.append_cons hbreak hno) ih
  | keep hx hno _ ih => exact .keep hx (NoWordAt.append_cons hbreak hno) ih

theorem Gap.not_mem (hb : keep b = true) {gap : List α} (h : Gap V keep gap) : b ∉ gap := by
  induction h with
  | nil => exact List.not_mem_nil
  | word hw _ ih => exact fun hmem => (List.mem_append.mp hmem).elim (hbreak _ hw) ih
  | drop hx _ ih =>
    rintro (_ | ⟨_, hmem⟩)
    · rw [hb] at hx
      cases hx
    · exact ih hmem

theorem Interrupted.not_mem (hb : keep b = true) {text : List α}
    (h : Interrupted V keep text) : b ∉ text := by
  obtain ⟨x, tail, spread, hw, hspread, -, rfl⟩ := h
  have hword := hbreak _ hw
  rw [List.mem_cons, not_or] at hword ⊢
  obtain ⟨hx, htail⟩ := hword
  refine ⟨hx, ?_⟩
  clear hw
  induction hspread with
  | nil => exact htail
  | @cons gap w zs y hgap _ ih =>
    rw [List.mem_cons, not_or] at htail
    simp [Gap.not_mem hbreak hb hgap, htail.1, ih htail.2]

end Break

section Kept

variable (hkeep : ∀ w, V.Word w → ∀ x ∈ w, keep x = true)
include hkeep

theorem noWordAt_cons_of_not_keep (hx : keep x = false) : V.NoWordAt (x :: xs) := by
  rintro w hw ⟨rest, h⟩
  obtain ⟨y, tail, rfl, -, -⟩ := V.exists_cons hw
  cases h
  have := hkeep _ hw x List.mem_cons_self
  rw [hx] at this
  cases this

theorem Erased.of_gap {gap : List α} (hgap : Gap V keep gap)
    (h : Erased V keep (gap ++ xs) ys) : Erased V keep xs ys := by
  induction hgap with
  | nil => exact h
  | word hw _ ih =>
    rw [List.append_assoc] at h
    exact ih (h.of_word hw)
  | drop hx _ ih =>
    rcases h.of_noWordAt (noWordAt_cons_of_not_keep hkeep hx) with ⟨-, h⟩ | ⟨hx', -⟩
    · exact ih h
    · rw [hx] at hx'
      cases hx'

theorem Erased.of_spread {tail spread : List α} (hspread : Spread V keep tail spread)
    (hopens : ∀ y ∈ tail, ¬V.Opens y) (htail : ∀ y ∈ tail, keep y = true)
    (h : Erased V keep (spread ++ xs) ys) : ∃ back, ys = tail ++ back := by
  induction hspread generalizing ys with
  | nil => exact ⟨ys, rfl⟩
  | @cons gap w zs x hgap _ ih =>
    rw [List.append_assoc] at h
    have hx : V.NoWordAt (x :: (zs ++ xs)) :=
      noWordAt_cons_of_not_opens (hopens x List.mem_cons_self)
    rcases (Erased.of_gap hkeep hgap h).of_noWordAt hx with ⟨hdrop, -⟩ | ⟨-, rest, rfl, hrest⟩
    · rw [htail x List.mem_cons_self] at hdrop
      cases hdrop
    · obtain ⟨back, rfl⟩ := ih (fun y hy => hopens y (List.mem_cons_of_mem _ hy))
        (fun y hy => htail y (List.mem_cons_of_mem _ hy)) hrest
      exact ⟨back, rfl⟩

/-- An interrupted word hides the word that it starts with. -/
theorem noWordAt_of_spread {tail spread : List α} (hw : V.Word (x :: tail))
    (hspread : Spread V keep tail spread) (hne : spread ≠ tail) :
    V.NoWordAt (x :: (spread ++ xs)) := by
  intro w hword hfront
  obtain ⟨y, u, rfl, -, hu⟩ := V.exists_cons hword
  obtain ⟨rfl, htail⟩ := List.cons_prefix_cons.mp hfront
  have hinside : ∀ z ∈ u, ¬V.Opens z ∧ keep z = true := fun z hz =>
    ⟨hu z hz, hkeep _ hword z (List.mem_cons_of_mem y hz)⟩
  rcases hspread.eq_or_exists hinside htail with heq | ⟨z, rest, rfl⟩
  · exact hne heq
  · have := V.eq_of_isPrefix hword hw (List.prefix_append (y :: u) (z :: rest))
    simp at this

/-- **Interrupted words.** What is left holds a word if and only if the text holds an interrupted
one. -/
theorem Erased.infix_iff (h : Erased V keep xs ys) :
    (∃ w, V.Word w ∧ w <:+: ys) ↔ ∃ text, Interrupted V keep text ∧ text <:+: xs := by
  constructor
  · rintro ⟨w, hw, as, bs, rfl⟩
    obtain ⟨x, tail, rfl, -, -⟩ := V.exists_cons hw
    rw [List.append_assoc] at h
    obtain ⟨front, rest, rfl, -, hrest⟩ := h.exists_spread
    obtain ⟨gap, rest, rfl, -, hno, hrest⟩ := hrest.exists_gap
    obtain ⟨spread, back, rfl, hspread, -⟩ := hrest.exists_spread
    have hne : spread ≠ tail := by
      rintro rfl
      exact hno _ hw (List.prefix_append (x :: spread) back)
    exact ⟨x :: spread, ⟨x, tail, spread, hw, hspread, hne, rfl⟩, front ++ gap, back, by simp⟩
  · rintro ⟨text, ⟨x, tail, spread, hw, hspread, hne, rfl⟩, as, bs, rfl⟩
    rw [List.append_assoc] at h
    obtain ⟨front, back, rfl, hback⟩ := h.of_opens hw.opens_head
    have hno : V.NoWordAt (x :: (spread ++ bs)) := noWordAt_of_spread hkeep hw hspread hne
    rcases hback.of_noWordAt hno with ⟨hx, -⟩ | ⟨-, zs, rfl, hzs⟩
    · rw [hkeep _ hw x List.mem_cons_self] at hx
      cases hx
    · obtain ⟨rest, rfl⟩ := Erased.of_spread hkeep hspread hw.not_opens_tail
        (fun y hy => hkeep _ hw y (List.mem_cons_of_mem x hy)) hzs
      exact ⟨x :: tail, hw, front, rest, by simp⟩

end Kept

/-! ## Patterns that match the words -/

section Matching

variable {r : Regex α} (hr : ∀ front w, r.Matches front w ↔ V.Word w)
include hr

theorem search_iff_exists_word {text : List α} :
    r.search text = true ↔ ∃ w, V.Word w ∧ w <:+: text := by
  simp only [Regex.search_iff, hr]
  constructor
  · rintro ⟨front, w, back, rfl, hw⟩
    exact ⟨w, hw, front, back, List.append_assoc front w back⟩
  · rintro ⟨w, hw, front, back, rfl⟩
    exact ⟨front, w, back, List.append_assoc front w back, hw⟩

theorem noWordAt_of_no_rests {length : ℕ} {front : List α}
    (hlength : length = front.length + xs.length) (h : (r.rests length xs).head? = none) :
    V.NoWordAt xs := by
  rintro w hw ⟨rest, hrest⟩
  have hmem := (Regex.mem_rests_iff hlength).mpr ⟨w, hrest.symm, (hr front w).mpr hw⟩
  rw [List.head?_eq_none_iff.mp h] at hmem
  cases hmem

theorem exists_word_of_rest {length : ℕ} {front rest : List α}
    (hlength : length = front.length + xs.length) (h : (r.rests length xs).head? = some rest) :
    ∃ w, xs = w ++ rest ∧ V.Word w := by
  obtain ⟨w, htext, hw⟩ := (Regex.mem_rests_iff hlength).mp (List.mem_of_head? h)
  exact ⟨w, htext, (hr front w).mp hw⟩

/-- A pattern that matches the words of a vocabulary removes them. -/
theorem erased_removeFrom {length fuel : ℕ} {front : List α}
    (hlength : length = front.length + xs.length) (hfuel : xs.length ≤ fuel) :
    Erased V (fun _ => true) xs (Regex.removeFrom length r fuel xs) := by
  induction fuel generalizing front xs with
  | zero =>
    obtain rfl := List.eq_nil_of_length_eq_zero (Nat.le_zero.mp hfuel)
    exact .nil
  | succ fuel ih =>
    cases xs with
    | nil => exact .nil
    | cons x xs =>
      unfold Regex.removeFrom
      cases hrests : (r.rests length (x :: xs)).head? with
      | none =>
        have hno := noWordAt_of_no_rests hr hlength hrests
        have hrest : length = (front ++ [x]).length + xs.length := by
          simp only [List.length_append, List.length_cons, List.length_nil] at hlength ⊢
          omega
        exact .keep rfl hno (ih hrest (Nat.le_of_succ_le_succ hfuel))
      | some rest =>
        obtain ⟨w, htext, hw⟩ := exists_word_of_rest hr hlength hrests
        have hpos := List.length_pos_of_ne_nil hw.ne_nil
        have hsplit := congrArg List.length htext
        simp only [List.length_append, List.length_cons] at hlength hfuel hsplit
        have hrest : length = (front ++ w).length + rest.length := by
          rw [List.length_append]
          omega
        dsimp only
        rw [if_pos (by omega), htext]
        exact .word hw (ih hrest (by omega))

theorem erased_remove (text : List α) : Erased V (fun _ => true) text (r.remove text) :=
  have hlength : text.length = ([] : List α).length + text.length := (Nat.zero_add _).symm
  erased_removeFrom hr hlength le_rfl

end Matching

end Vocabulary
