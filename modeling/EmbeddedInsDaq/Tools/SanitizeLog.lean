import EmbeddedInsDaq.Lib.Erasing
import EmbeddedInsDaq.Tools.Monitor
import Mathlib.Data.Char

/-!
# Cleaning a captured log

`sanitize_for_log` turns line ends into newlines, removes the terminal's escape sequences, then the
escape sequences that lost their first character, and last the characters that a text file should
not have. Each pass runs once, and what it removes lets the rest of the text move together: a
fragment that was interrupted by what the later passes remove is put together again, and stays
(`sanitizeForLog_complete_iff`).
-/

namespace EmbeddedInsDaq

open Regex Vocabulary

/-! ## Patterns -/

/-- `[@-~]`. -/
def escapeFinal (c : Char) : Bool := '@' ≤ c && c ≤ '~'

/-- `ANSI_ESCAPE_PATTERN`. -/
def ansiEscapePattern : Regex Char :=
  .seq (.literal "\x1b[".toList) (.seq (.star (.set fun c => '0' ≤ c && c ≤ '?'))
    (.seq (.star (.set fun c => ' ' ≤ c && c ≤ '/')) (.set escapeFinal)))

/-- Where the runs of ten decimal digits start, in Unicode 15, the version of Python 3.12. -/
def decimalZeros : List ℕ :=
  [0x30, 0x660, 0x6f0, 0x7c0, 0x966, 0x9e6, 0xa66, 0xae6, 0xb66, 0xbe6, 0xc66, 0xce6, 0xd66, 0xde6,
    0xe50, 0xed0, 0xf20, 0x1040, 0x1090, 0x17e0, 0x1810, 0x1946, 0x19d0, 0x1a80, 0x1a90, 0x1b50,
    0x1bb0, 0x1c40, 0x1c50, 0xa620, 0xa8d0, 0xa900, 0xa9d0, 0xa9f0, 0xaa50, 0xabf0, 0xff10, 0x104a0,
    0x10d30, 0x11066, 0x110f0, 0x11136, 0x111d0, 0x112f0, 0x11450, 0x114d0, 0x11650, 0x116c0,
    0x11730, 0x118e0, 0x11950, 0x11c50, 0x11d50, 0x11da0, 0x11f50, 0x16a60, 0x16ac0, 0x16b50,
    0x1d7ce, 0x1d7d8, 0x1d7e2, 0x1d7ec, 0x1d7f6, 0x1e140, 0x1e2f0, 0x1e4f0, 0x1e950, 0x1fbf0]

/-- `\d`: a decimal digit of any script. -/
def decimal (c : Char) : Bool :=
  decimalZeros.any fun first => first ≤ c.toNat && c.toNat ≤ first + 9

/-- `\d{1,3}`. -/
def fragmentNumber : Regex Char :=
  .seq (.set decimal) (.alt (.seq (.set decimal) (.alt (.set decimal) .empty)) .empty)

/-- `\d{1,3}(?:;\d{1,3})*`. -/
def fragmentNumbers : Regex Char :=
  .seq fragmentNumber (.star (.seq (.literal ";".toList) fragmentNumber))

/-- `[A-Za-z]`. -/
def letter (c : Char) : Bool := ('A' ≤ c && c ≤ 'Z') || ('a' ≤ c && c ≤ 'z')

/-- `ANSI_FRAGMENT_PATTERN`. -/
def ansiFragmentPattern : Regex Char :=
  .seq (.literal "[".toList) (.seq (.alt fragmentNumbers .empty) (.set letter))

/-! ## The passes -/

/-- `text.replace("\r\n", "\n")`. -/
def replaceCrlf : Text → Text
  | [] => []
  | '\r' :: '\n' :: text => '\n' :: replaceCrlf text
  | c :: text => c :: replaceCrlf text

/-- `text.replace("\r", "\n")`. -/
def replaceCr (text : Text) : Text := text.map fun c => if c = '\r' then '\n' else c

/-- The last pass keeps the character. -/
def keptInLog (c : Char) : Bool :=
  if c = '\ufffd' then false else c = '\n' || c = '\t' || 32 ≤ c.toNat

/-- `sanitize_for_log`. -/
def sanitizeForLog (text : Text) : Text :=
  let text := replaceCr (replaceCrlf text)
  let text := ansiEscapePattern.remove text
  let text := ansiFragmentPattern.remove text
  text.filter keptInLog

/-! ## What the patterns match -/

theorem char_le_iff (c d : Char) : c ≤ d ↔ c.toNat ≤ d.toNat := Iff.rfl

theorem toNat_of_decimal {c : Char} (h : decimal c = true) :
    48 ≤ c.toNat ∧ (c.toNat ≤ 57 ∨ 0x660 ≤ c.toNat) ∧ c.toNat ≠ 0xfffd := by
  obtain ⟨first, hmem, hc⟩ := List.any_eq_true.mp h
  have hfirst : ∀ first ∈ decimalZeros,
      (first = 48 ∨ 0x660 ≤ first) ∧ (first + 9 < 0xfffd ∨ 0xfffd < first) := by decide
  have := hfirst first hmem
  rw [Bool.and_eq_true, decide_eq_true_eq, decide_eq_true_eq] at hc
  omega

theorem toNat_of_letter {c : Char} (h : letter c = true) :
    65 ≤ c.toNat ∧ c.toNat ≤ 122 ∧ c.toNat ≠ 91 := by
  simp only [letter, Bool.or_eq_true, Bool.and_eq_true, decide_eq_true_eq, char_le_iff] at h
  simp at h
  omega

theorem not_final_of_parameter (c : Char) (hc : ' ' ≤ c ∧ c ≤ '?') : ¬escapeFinal c = true := by
  intro hfinal
  simp only [escapeFinal, Bool.and_eq_true, decide_eq_true_eq] at hfinal
  exact absurd (hfinal.1.trans hc.2) (by decide)

theorem not_letter_of_number (c : Char) (hc : decimal c = true ∨ c = ';') : ¬letter c = true := by
  intro hletter
  rcases hc with hc | rfl
  · have := toNat_of_decimal hc
    have := toNat_of_letter hletter
    omega
  · exact absurd hletter (by decide)

theorem exists_of_matches_escape {front w : Text} (h : ansiEscapePattern.Matches front w) :
    ∃ body last, w = ['\x1b', '['] ++ (body ++ [last]) ∧ escapeFinal last = true ∧
      ∀ c ∈ body, ' ' ≤ c ∧ c ≤ '?' := by
  simp only [ansiEscapePattern, matches_seq_iff, matches_literal_iff, matches_star_set_iff,
    matches_set_iff] at h
  obtain ⟨_, _, rfl, rfl, params, _, rfl, hparams, between, _, rfl, hbetween, last, hlast, rfl⟩ := h
  refine ⟨params ++ between, last, by simp, hlast, ?_⟩
  intro c hc
  rcases List.mem_append.mp hc with hc | hc
  · have := hparams c hc
    rw [Bool.and_eq_true, decide_eq_true_eq, decide_eq_true_eq] at this
    exact ⟨le_trans (by decide) this.1, this.2⟩
  · have := hbetween c hc
    rw [Bool.and_eq_true, decide_eq_true_eq, decide_eq_true_eq] at this
    exact ⟨this.1, le_trans this.2 (by decide)⟩

theorem exists_of_matches_fragment {front w : Text} (h : ansiFragmentPattern.Matches front w) :
    ∃ body last, w = ['['] ++ (body ++ [last]) ∧ letter last = true ∧
      ∀ c ∈ body, decimal c = true ∨ c = ';' := by
  obtain ⟨_, _, rfl, hbracket, h⟩ := matches_seq_iff.mp h
  obtain ⟨body, _, rfl, hbody, hlast⟩ := matches_seq_iff.mp h
  obtain ⟨last, hletter, rfl⟩ := matches_set_iff.mp hlast
  rw [matches_literal_iff] at hbracket
  subst hbracket
  have hover : (alt fragmentNumbers empty).Over fun c => decimal c = true ∨ c = ';' := by
    simp +contextual [fragmentNumbers, fragmentNumber, Over, literal]
  exact ⟨body, last, rfl, hletter, hbody.forall_mem hover⟩

/-- The escape sequences. -/
def escapes : Vocabulary Char :=
  .ofEnds (fun w => ansiEscapePattern.Matches [] w) (by decide) (by decide) (by decide)
    not_final_of_parameter fun _ => exists_of_matches_escape

/-- The fragments. -/
def fragments : Vocabulary Char :=
  .ofEnds (fun w => ansiFragmentPattern.Matches [] w) List.not_mem_nil (by decide) (by decide)
    not_letter_of_number fun _ => exists_of_matches_fragment

theorem matches_escape_iff (front w : Text) :
    ansiEscapePattern.Matches front w ↔ escapes.Word w := by
  have hfree : ansiEscapePattern.AnchorFree := ⟨anchorFree_literal _, trivial, trivial, trivial⟩
  exact ⟨fun h => h.of_anchorFree hfree [], fun h => h.of_anchorFree hfree front⟩

theorem matches_fragment_iff (front w : Text) :
    ansiFragmentPattern.Matches front w ↔ fragments.Word w := by
  have hnumber : fragmentNumber.AnchorFree := ⟨trivial, ⟨trivial, trivial, trivial⟩, trivial⟩
  have hfree : ansiFragmentPattern.AnchorFree :=
    ⟨anchorFree_literal _, ⟨⟨hnumber, anchorFree_literal _, hnumber⟩, trivial⟩, trivial⟩
  exact ⟨fun h => h.of_anchorFree hfree [], fun h => h.of_anchorFree hfree front⟩

/-! ## Line ends -/

theorem lineEnd_not_mem {c : Char} (hc : c = '\n' ∨ c = '\r') {w : Text}
    (hw : ∀ d ∈ w, 26 < d.toNat) : c ∉ w := by
  intro hmem
  have := hw c hmem
  rcases hc with rfl | rfl
  · exact absurd this (by decide)
  · exact absurd this (by decide)

theorem toNat_of_mem_escape {w : Text} (hw : escapes.Word w) {c : Char} (hc : c ∈ w) :
    26 < c.toNat := by
  obtain ⟨body, last, rfl, hlast, hbody⟩ := exists_of_matches_escape hw
  simp only [List.mem_append, List.mem_cons, List.not_mem_nil, or_false] at hc
  rcases hc with (rfl | rfl) | hc | rfl
  · decide
  · decide
  · have hspace : ' '.toNat ≤ c.toNat := (hbody c hc).1
    have : ' '.toNat = 32 := rfl
    omega
  · rw [escapeFinal, Bool.and_eq_true, decide_eq_true_eq] at hlast
    have hat : '@'.toNat ≤ c.toNat := hlast.1
    have : '@'.toNat = 64 := rfl
    omega

theorem keptInLog_of_fragment {w : Text} (hw : fragments.Word w) {c : Char} (hc : c ∈ w) :
    keptInLog c = true ∧ 26 < c.toNat := by
  obtain ⟨body, last, rfl, hlast, hbody⟩ := exists_of_matches_fragment hw
  have hplain : ∀ d : Char, 32 < d.toNat → d.toNat ≠ 0xfffd → keptInLog d = true := by
    intro d hcontrol hreplacement
    have hne : d ≠ '\ufffd' := by
      rintro rfl
      exact hreplacement rfl
    simp [keptInLog, hne, hcontrol.le]
  simp only [List.mem_append, List.mem_singleton] at hc
  rcases hc with rfl | hc | rfl
  · decide
  · rcases hbody c hc with hdecimal | rfl
    · have := toNat_of_decimal hdecimal
      exact ⟨hplain c (by omega) (by omega), by omega⟩
    · decide
  · have := toNat_of_letter hlast
    exact ⟨hplain c (by omega) (by omega), by omega⟩

/-! ## Interrupted fragments -/

/-- The character outlives the last pass, which no carriage return reaches. -/
def stays (c : Char) : Bool := keptInLog c || c = '\r'

/-- Without its escape sequences the text holds characters that make a fragment, with others between
them that a later pass removes: fragments, and characters that do not stay. -/
def HoldsInterruptedFragment (text : Text) : Prop :=
  ∃ plain, escapes.Erased (fun _ => true) text plain ∧
    ∃ fragment, fragments.Interrupted stays fragment ∧ fragment <:+: plain

theorem erased_escapes (text : Text) :
    escapes.Erased (fun _ => true) text (ansiEscapePattern.remove text) :=
  erased_remove matches_escape_iff text

theorem holdsInterruptedFragment_iff {text : Text} :
    HoldsInterruptedFragment text ↔ ∃ fragment, fragments.Interrupted stays fragment ∧
      fragment <:+: ansiEscapePattern.remove text := by
  constructor
  · rintro ⟨plain, hplain, hfragment⟩
    rwa [hplain.unique (erased_escapes text)] at hfragment
  · exact fun hfragment => ⟨_, erased_escapes text, hfragment⟩

theorem holdsInterruptedFragment_append_cons {c : Char} (hc : c = '\n' ∨ c = '\r')
    (front back : Text) : HoldsInterruptedFragment (front ++ c :: back) ↔
      HoldsInterruptedFragment front ∨ HoldsInterruptedFragment back := by
  have hsplit : ansiEscapePattern.remove (front ++ c :: back) =
      ansiEscapePattern.remove front ++ c :: ansiEscapePattern.remove back :=
    (erased_escapes _).unique (Erased.append_cons
      (fun _ hw => lineEnd_not_mem hc fun _ => toNat_of_mem_escape hw) rfl
      (erased_escapes front) (erased_escapes back))
  have hstays : stays c = true := by
    rcases hc with rfl | rfl <;> decide
  simp only [holdsInterruptedFragment_iff, hsplit]
  rw [← exists_or]
  refine exists_congr fun fragment => ?_
  rw [← and_or_left]
  refine and_congr_right fun hfragment => infix_append_cons_iff ?_
  exact hfragment.not_mem
    (fun _ hw => lineEnd_not_mem hc fun _ hd => (keptInLog_of_fragment hw hd).2) hstays

/-- Which characters end a line does not matter. -/
theorem holdsInterruptedFragment_replace (front text : Text) :
    HoldsInterruptedFragment (front ++ replaceCr (replaceCrlf text)) ↔
      HoldsInterruptedFragment (front ++ text) := by
  induction text using replaceCrlf.induct generalizing front with
  | case1 => rfl
  | case2 text ih =>
    have hnil : ¬HoldsInterruptedFragment [] := by
      simp [holdsInterruptedFragment_iff, Regex.remove, Regex.removeFrom, Interrupted]
    show HoldsInterruptedFragment (front ++ '\n' :: replaceCr (replaceCrlf text)) ↔ _
    have hlines := holdsInterruptedFragment_append_cons (.inl rfl) [] text
    have hih := ih []
    simp only [List.nil_append, hnil, false_or] at hlines hih
    rw [holdsInterruptedFragment_append_cons (.inl rfl),
      holdsInterruptedFragment_append_cons (.inr rfl), hlines, hih]
  | case3 c text hcrlf ih =>
    have hreplace : replaceCrlf (c :: text) = c :: replaceCrlf text := by
      rw [replaceCrlf]
      exact hcrlf
    rw [hreplace]
    by_cases hc : c = '\r'
    · subst hc
      show HoldsInterruptedFragment (front ++ '\n' :: replaceCr (replaceCrlf text)) ↔ _
      rw [holdsInterruptedFragment_append_cons (.inl rfl),
        holdsInterruptedFragment_append_cons (.inr rfl)]
      exact or_congr_right (ih [])
    · have hcons : replaceCr (c :: replaceCrlf text) = c :: replaceCr (replaceCrlf text) := by
        simp [replaceCr, hc]
      have := ih (front ++ [c])
      simp only [List.append_assoc, List.singleton_append] at this
      rw [hcons, this]

/-! ## The whole function -/

/-- A text that is fit for the log: no control character but newlines and tabs, no replacement
character, and nothing that the patterns match. -/
structure Sanitized (text : Text) : Prop where
  controls : ∀ c ∈ text, c.toNat < 32 → c = '\n' ∨ c = '\t'
  replacement : '\ufffd' ∉ text
  escapes : ansiEscapePattern.search text = false
  fragments : ansiFragmentPattern.search text = false

theorem carriageReturn_not_mem_replaceCr (text : Text) : '\r' ∉ replaceCr text := by
  unfold replaceCr
  rw [List.mem_map]
  rintro ⟨c, -, hc⟩
  split_ifs at hc with h
  · exact absurd hc (by decide)
  · exact h hc

theorem replace_eq_self {text : Text} (h : '\r' ∉ text) : replaceCr (replaceCrlf text) = text := by
  induction text using replaceCrlf.induct with
  | case1 => rfl
  | case2 text => exact absurd List.mem_cons_self h
  | case3 c text hcrlf ih =>
    rw [List.mem_cons, not_or] at h
    have hreplace : replaceCrlf (c :: text) = c :: replaceCrlf text := by
      rw [replaceCrlf]
      exact hcrlf
    rw [hreplace, replaceCr, List.map_cons, if_neg fun hc => h.1 hc.symm]
    exact congrArg (c :: ·) (ih h.2)

theorem keptInLog_iff {c : Char} :
    keptInLog c = true ↔ c ≠ '\ufffd' ∧ (c = '\n' ∨ c = '\t' ∨ 32 ≤ c.toNat) := by
  by_cases h : c = '\ufffd' <;> simp [keptInLog, h, or_assoc]

theorem sanitizeForLog_eq_self {text : Text} (h : Sanitized text) : sanitizeForLog text = text := by
  have hkept : ∀ c ∈ text, keptInLog c = true := by
    intro c hc
    refine keptInLog_iff.mpr ⟨fun heq => h.replacement (heq ▸ hc), ?_⟩
    by_cases hlt : c.toNat < 32
    · exact (h.controls c hc hlt).imp_right .inl
    · exact .inr (.inr (by omega))
  have hreturn : '\r' ∉ text := fun hmem => absurd (hkept _ hmem) (by decide)
  have hescapes : ansiEscapePattern.remove text = text := by
    refine (erased_escapes text).eq_self fun w hw hoccurs => ?_
    have := (search_iff_exists_word matches_escape_iff).mpr ⟨w, hw, hoccurs⟩
    rw [h.escapes] at this
    cases this
  have hfragments : ansiFragmentPattern.remove text = text := by
    refine (erased_remove matches_fragment_iff text).eq_self fun w hw hoccurs => ?_
    have := (search_iff_exists_word matches_fragment_iff).mpr ⟨w, hw, hoccurs⟩
    rw [h.fragments] at this
    cases this
  simp only [sanitizeForLog, replace_eq_self hreturn, hescapes, hfragments]
  exact List.filter_eq_self.mpr hkept

/-- The last two passes in one. -/
theorem erased_sanitizeForLog (text : Text) : fragments.Erased stays
    (ansiEscapePattern.remove (replaceCr (replaceCrlf text))) (sanitizeForLog text) := by
  have hplain : '\r' ∉ ansiEscapePattern.remove (replaceCr (replaceCrlf text)) := fun hmem =>
    carriageReturn_not_mem_replaceCr _ ((erased_escapes _).sublist.subset hmem)
  dsimp only [sanitizeForLog]
  generalize ansiEscapePattern.remove (replaceCr (replaceCrlf text)) = plain at hplain ⊢
  have herased := erased_remove matches_fragment_iff plain
  have hfilter : (ansiFragmentPattern.remove plain).filter keptInLog =
      (ansiFragmentPattern.remove plain).filter stays := by
    refine List.filter_congr fun c hc => ?_
    have hne : c ≠ '\r' := by
      rintro rfl
      exact hplain (herased.sublist.subset hc)
    simp [stays, hne]
  rw [hfilter]
  exact herased.filter stays

theorem search_sanitizeForLog_iff (text : Text) :
    ansiFragmentPattern.search (sanitizeForLog text) = true ↔ HoldsInterruptedFragment text := by
  have hkeep : ∀ w, fragments.Word w → ∀ c ∈ w, stays c = true := fun w hw c hc => by
    simp [stays, (keptInLog_of_fragment hw hc).1]
  have hlines := holdsInterruptedFragment_replace [] text
  rw [List.nil_append, List.nil_append] at hlines
  rw [search_iff_exists_word matches_fragment_iff, (erased_sanitizeForLog text).infix_iff hkeep,
    ← hlines, holdsInterruptedFragment_iff]

/-- **Completeness.** Cleaning makes a text fit for the log, and cleaning it again changes nothing,
if and only if the text holds no interrupted fragment. -/
theorem sanitizeForLog_complete_iff (text : Text) :
    (Sanitized (sanitizeForLog text) ∧
        sanitizeForLog (sanitizeForLog text) = sanitizeForLog text) ↔
      ¬HoldsInterruptedFragment text := by
  rw [← search_sanitizeForLog_iff, Bool.not_eq_true]
  constructor
  · exact fun h => h.1.fragments
  · intro hfragments
    have hkept : ∀ c ∈ sanitizeForLog text,
        c ≠ '\ufffd' ∧ (c = '\n' ∨ c = '\t' ∨ 32 ≤ c.toNat) := fun c hc =>
      keptInLog_iff.mp (List.mem_filter.mp hc).2
    have hescapes : ansiEscapePattern.search (sanitizeForLog text) = false := by
      rw [← Bool.not_eq_true, search_iff_exists_word matches_escape_iff]
      rintro ⟨w, hw, hoccurs⟩
      obtain ⟨c, tail, rfl, rfl, -⟩ := escapes.exists_cons hw
      exact absurd (hkept _ (hoccurs.subset List.mem_cons_self)) (by decide)
    have hsanitized : Sanitized (sanitizeForLog text) :=
      { controls := fun c hc hlt => by
          rcases (hkept c hc).2 with h | h | h
          · exact .inl h
          · exact .inr h
          · omega
        replacement := fun hmem => (hkept _ hmem).1 rfl
        escapes := hescapes
        fragments := hfragments }
    exact ⟨hsanitized, sanitizeForLog_eq_self hsanitized⟩

/-- The bell hides the fragment from the pass that would remove it. -/
theorem not_sanitized_belledFragment :
    ¬∀ text, Sanitized (sanitizeForLog text) ∧
      sanitizeForLog (sanitizeForLog text) = sanitizeForLog text := by
  intro h
  have hfragment : ansiFragmentPattern.search (sanitizeForLog "[\x07m".toList) = true := by decide
  rw [(h "[\x07m".toList).1.fragments] at hfragment
  cases hfragment

end EmbeddedInsDaq
