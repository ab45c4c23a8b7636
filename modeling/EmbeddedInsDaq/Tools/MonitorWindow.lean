import EmbeddedInsDaq.Tools.MonitorVerdict

/-!
# What the search buffer shows of the stream

`update_state` looks for its patterns in the last 16384 characters only. Folded over the chunks of a
stream it finds every banner and every panic of the stream, as long as no chunk pushes the start of
one out of the buffer (`window_misses_nothing`). A GDB stub it may find where there is none: the
anchor of its pattern holds at the start of the buffer, which is not the start of the stream any
more once the buffer was cut (`gdbstub_no_false_alarm_iff`).
-/

namespace EmbeddedInsDaq

open Regex

/-! ## Folding updates -/

/-- `update_state` on one chunk after the other, from an empty buffer and a fresh result. -/
def feed (readyBanner : Option Text) (chunks : List Text) : Text × MonitorResult :=
  chunks.foldl (fun (searchBuffer, result) text => updateState searchBuffer text readyBanner result)
    ([], {})

/-- A test that is run on the search buffer at every chunk end. -/
def seenIn (test : Text → Bool) (chunks : List Text) : Bool :=
  chunks.inits.any fun pre => test (searchWindow pre.flatten)

theorem seenIn_concat (test : Text → Bool) (chunks : List Text) (chunk : Text) :
    seenIn test (chunks ++ [chunk]) =
      (seenIn test chunks || test (searchWindow (chunks ++ [chunk]).flatten)) := by
  unfold seenIn
  rw [List.inits_append, List.any_append]
  simp

theorem seenIn_iff {test : Text → Bool} {chunks : List Text} :
    seenIn test chunks = true ↔ ∃ pre, pre <+: chunks ∧ test (searchWindow pre.flatten) = true := by
  simp [seenIn]

/-- **The fold.** The buffer is the end of the stream, and each flag says what was seen in it. -/
theorem feed_eq (readyBanner : Option Text) (chunks : List Text) :
    feed readyBanner chunks = (searchWindow chunks.flatten,
      { readySeen := seenIn (bannerIn readyBanner) chunks
        panicSeen := seenIn panicPattern.search chunks
        gdbstubSeen := seenIn gdbstubPattern.search chunks }) := by
  induction chunks using List.reverseRecOn with
  | nil =>
    have hready : bannerIn readyBanner [] = false := by
      cases readyBanner <;> simp [bannerIn]
    have hpanic : panicPattern.search [] = false := by decide
    have hgdbstub : gdbstubPattern.search [] = false := by decide
    simp [feed, seenIn, searchWindow_nil, hready, hpanic, hgdbstub]
  | append_singleton chunks chunk ih =>
    have hstep : feed readyBanner (chunks ++ [chunk]) =
        updateState (feed readyBanner chunks).1 chunk readyBanner (feed readyBanner chunks).2 := by
      unfold feed
      rw [List.foldl_append]
      rfl
    have hflatten : (chunks ++ [chunk]).flatten = chunks.flatten ++ chunk := by simp
    rw [hstep, ih, updateState_eq]
    dsimp only
    rw [lastN_searchWindow, seenIn_concat, seenIn_concat, seenIn_concat, hflatten]

theorem gdbstubSeen_feed (readyBanner : Option Text) (chunks : List Text) :
    (feed readyBanner chunks).2.gdbstubSeen = seenIn gdbstubPattern.search chunks := by
  rw [feed_eq]

/-! ## What the buffer misses -/

theorem lastN_suffix {α : Type*} (n : ℕ) (xs : List α) : lastN n xs <:+ xs := List.drop_suffix _ _

theorem suffix_lastN {α : Type*} {n : ℕ} {xs ys : List α} (h : ys <:+ xs) (hn : ys.length ≤ n) :
    ys <:+ lastN n xs := by
  apply List.suffix_of_suffix_length_le h (lastN_suffix n xs)
  have := h.length_le
  unfold lastN
  rw [List.length_drop]
  omega

theorem infix_append_iff {α : Type*} {n : ℕ} {needle past chunk : List α}
    (h : chunk.length + needle.length ≤ n + 1) :
    needle <:+: past ++ chunk ↔ needle <:+: past ∨ needle <:+: lastN n (past ++ chunk) := by
  constructor
  · rintro ⟨s, t, hst⟩
    by_cases ht : chunk.length ≤ t.length
    · -- the occurrence ends in `past`
      have hlength := congrArg List.length hst
      simp only [List.length_append] at hlength
      have hpast : s ++ needle <+: past := List.prefix_of_prefix_length_le ⟨t, hst⟩
        (List.prefix_append past chunk) (by rw [List.length_append]; omega)
      exact .inl ((List.suffix_append s needle).isInfix.trans hpast.isInfix)
    · right
      have hsuffix : needle ++ t <:+ past ++ chunk := ⟨s, by rw [← hst, List.append_assoc]⟩
      have hshort : (needle ++ t).length ≤ n := by
        rw [List.length_append]
        omega
      exact (List.prefix_append needle t).isInfix.trans (suffix_lastN hsuffix hshort).isInfix
  · rintro (hpast | hwindow)
    · exact hpast.trans (List.prefix_append past chunk).isInfix
    · exact hwindow.trans (lastN_suffix n _).isInfix

theorem searchWindow_suffix (text : Text) : searchWindow text <:+ text :=
  lastN_suffix searchBufferLength text

theorem searchWindow_infix_flatten {pre chunks : List Text} (h : pre <+: chunks) :
    searchWindow pre.flatten <:+: chunks.flatten := by
  obtain ⟨back, rfl⟩ := h
  rw [List.flatten_append]
  exact (searchWindow_suffix pre.flatten).isInfix.trans (List.prefix_append _ _).isInfix

/-- A needle of the stream is in the buffer at some chunk end. -/
theorem infix_flatten_iff {needle : Text} (hneedle : needle ≠ []) {chunks : List Text}
    (h : ∀ chunk ∈ chunks, chunk.length + needle.length ≤ searchBufferLength + 1) :
    needle <:+: chunks.flatten ↔
      ∃ pre, pre <+: chunks ∧ needle <:+: searchWindow pre.flatten := by
  constructor
  · intro hoccurs
    induction chunks using List.reverseRecOn with
    | nil => exact absurd (List.eq_nil_of_infix_nil hoccurs) hneedle
    | append_singleton chunks chunk ih =>
      have hflatten : (chunks ++ [chunk]).flatten = chunks.flatten ++ chunk := by simp
      obtain ⟨hchunks, hchunk⟩ := List.forall_mem_append.mp h
      rw [hflatten, infix_append_iff (hchunk chunk List.mem_cons_self)] at hoccurs
      rcases hoccurs with hpast | hwindow
      · obtain ⟨pre, hpre, hseen⟩ := ih hchunks hpast
        exact ⟨pre, hpre.trans (List.prefix_append chunks [chunk]), hseen⟩
      · exact ⟨_, List.prefix_refl _, hflatten ▸ hwindow⟩
  · rintro ⟨pre, hpre, hseen⟩
    exact hseen.trans (searchWindow_infix_flatten hpre)

/-- The texts that `PANIC_PATTERN` looks for. -/
def panicLiterals : List Text :=
  ["Guru Meditation Error".toList, "Backtrace:".toList, "abort() was called".toList]

theorem search_panicPattern {text : Text} :
    panicPattern.search text = true ↔ ∃ needle ∈ panicLiterals, needle <:+: text := by
  unfold panicPattern panicLiterals
  simp only [search_alt, search_literal, List.exists_mem_cons_iff, List.not_mem_nil, false_and,
    exists_false, or_false]

/-- **Nothing is missed.** The flags for the banner and for a panic say whether one is in the
stream, if the chunks are short enough for the buffer. -/
theorem window_misses_nothing {banner : Text} (hbanner : banner ≠ []) (chunks : List Text) :
    ((∀ chunk ∈ chunks, chunk.length + banner.length ≤ 16385) →
      ((feed (some banner) chunks).2.readySeen = true ↔ banner <:+: chunks.flatten)) ∧
    ((∀ chunk ∈ chunks, chunk.length ≤ 16364) →
      ((feed (some banner) chunks).2.panicSeen = true ↔
        "Guru Meditation Error".toList <:+: chunks.flatten ∨
          "Backtrace:".toList <:+: chunks.flatten ∨
          "abort() was called".toList <:+: chunks.flatten)) := by
  rw [feed_eq]
  constructor
  · intro hlength
    rw [infix_flatten_iff hbanner hlength, seenIn_iff]
    simp only [bannerIn_some hbanner, decide_eq_true_eq]
  · intro hlength
    have hliterals : ∀ needle ∈ panicLiterals, needle ≠ [] ∧ needle.length ≤ 21 := by decide
    have hstream : (∃ needle ∈ panicLiterals, needle <:+: chunks.flatten) ↔
        ∃ pre, pre <+: chunks ∧ ∃ needle ∈ panicLiterals, needle <:+: searchWindow pre.flatten := by
      constructor
      · rintro ⟨needle, hneedle, hoccurs⟩
        obtain ⟨hne, hshort⟩ := hliterals needle hneedle
        have hfits : ∀ chunk ∈ chunks, chunk.length + needle.length ≤ searchBufferLength + 1 := by
          intro chunk hchunk
          have := hlength chunk hchunk
          show chunk.length + needle.length ≤ 16384 + 1
          omega
        obtain ⟨pre, hpre, hseen⟩ := (infix_flatten_iff hne hfits).mp hoccurs
        exact ⟨pre, hpre, needle, hneedle, hseen⟩
      · rintro ⟨pre, hpre, needle, hneedle, hseen⟩
        exact ⟨needle, hneedle, hseen.trans (searchWindow_infix_flatten hpre)⟩
    simp only [seenIn_iff, search_panicPattern, ← hstream]
    simp [panicLiterals]

/-- A banner in two chunks, and a panic. -/
theorem window_misses_nothing_split :
    (feed (some "READY".toList) ["REA".toList, "DY".toList]).2.readySeen = true ∧
      (feed (some "READY".toList) ["Backt".toList, "race:".toList]).2.panicSeen = true := by
  have hbanner := (@window_misses_nothing "READY".toList (by decide)
    ["REA".toList, "DY".toList]).1 (by decide)
  have hpanic := (@window_misses_nothing "READY".toList (by decide)
    ["Backt".toList, "race:".toList]).2 (by decide)
  exact ⟨hbanner.mpr (by decide), hpanic.mpr (by decide)⟩

/-! ## The GDB stub -/

/-- A packet of the stub at the front, where the anchor of the pattern holds. -/
def PacketAtFront (text : Text) : Prop :=
  ∃ packet back, text = packet ++ back ∧ gdbstubPacket.Matches [] packet

/-- What the pattern matches anywhere else. -/
def StubOutput (text : Text) : Prop :=
  text = "Entering gdb stub now.".toList ∨
    ∃ packet, gdbstubPacket.Matches [] packet ∧ (text = '\n' :: packet ∨ text = '+' :: packet)

theorem anchorFree_gdbstubPacket : gdbstubPacket.AnchorFree :=
  ⟨anchorFree_literal _, trivial, trivial, trivial, anchorFree_literal _, trivial, trivial⟩

theorem matches_gdbstubPattern_iff {front w : Text} :
    gdbstubPattern.Matches front w ↔
      (front = [] ∧ gdbstubPacket.Matches [] w) ∨ StubOutput w := by
  unfold gdbstubPattern StubOutput
  rw [matches_alt_iff, matches_literal_iff, matches_seq_iff]
  simp only [matches_alt_iff, matches_start_iff, matches_literal_iff]
  constructor
  · rintro (rfl | ⟨u, v, rfl, hu, hv⟩)
    · exact .inr (.inl rfl)
    have hpacket := hv.of_anchorFree anchorFree_gdbstubPacket []
    rcases hu with ⟨rfl, rfl⟩ | rfl | rfl
    · exact .inl ⟨rfl, hpacket⟩
    · exact .inr (.inr ⟨v, hpacket, .inl rfl⟩)
    · exact .inr (.inr ⟨v, hpacket, .inr rfl⟩)
  · rintro (⟨rfl, hpacket⟩ | rfl | ⟨v, hpacket, rfl | rfl⟩)
    · exact .inr ⟨[], w, rfl, .inl ⟨rfl, rfl⟩, hpacket⟩
    · exact .inl rfl
    · exact .inr ⟨['\n'], v, rfl, .inr (.inl rfl),
        hpacket.of_anchorFree anchorFree_gdbstubPacket _⟩
    · exact .inr ⟨['+'], v, rfl, .inr (.inr rfl),
        hpacket.of_anchorFree anchorFree_gdbstubPacket _⟩

theorem search_gdbstubPattern {text : Text} :
    gdbstubPattern.search text = true ↔
      PacketAtFront text ∨ ∃ output, StubOutput output ∧ output <:+: text := by
  rw [search_iff]
  simp only [matches_gdbstubPattern_iff]
  constructor
  · rintro ⟨front, w, back, rfl, ⟨rfl, hpacket⟩ | houtput⟩
    · exact .inl ⟨w, back, rfl, hpacket⟩
    · exact .inr ⟨w, houtput, front, back, List.append_assoc front w back⟩
  · rintro (⟨packet, back, rfl, hpacket⟩ | ⟨output, houtput, front, back, rfl⟩)
    · exact ⟨[], packet, back, rfl, .inl ⟨rfl, hpacket⟩⟩
    · exact ⟨front, output, back, List.append_assoc front output back, .inr houtput⟩

theorem PacketAtFront.of_isPrefix {text text' : Text} (h : PacketAtFront text)
    (hpre : text <+: text') : PacketAtFront text' := by
  obtain ⟨packet, back, rfl, hpacket⟩ := h
  obtain ⟨rest, rfl⟩ := hpre
  exact ⟨packet, back ++ rest, List.append_assoc packet back rest, hpacket⟩

theorem search_gdbstubPattern_of_isPrefix {text text' : Text} (hpre : text <+: text')
    (h : gdbstubPattern.search text = true) : gdbstubPattern.search text' = true := by
  rw [search_gdbstubPattern] at h ⊢
  exact h.imp (·.of_isPrefix hpre) fun ⟨output, houtput, hoccurs⟩ =>
    ⟨output, houtput, hoccurs.trans hpre.isInfix⟩

/-- What is found in the buffer is in the stream, or the buffer was cut and starts with a packet. -/
theorem search_searchWindow {text : Text} :
    gdbstubPattern.search (searchWindow text) = true →
      gdbstubPattern.search text = true ∨
        searchBufferLength < text.length ∧ PacketAtFront (searchWindow text) := by
  intro h
  by_cases hcut : searchBufferLength < text.length
  · rcases search_gdbstubPattern.mp h with hfront | ⟨output, houtput, hoccurs⟩
    · exact .inr ⟨hcut, hfront⟩
    · exact .inl (search_gdbstubPattern.mpr
        (.inr ⟨output, houtput, hoccurs.trans (searchWindow_suffix text).isInfix⟩))
  · have hwhole : searchWindow text = text := by
      unfold searchWindow lastN
      rw [Nat.sub_eq_zero_of_le (Nat.le_of_not_lt hcut), List.drop_zero]
    rw [hwhole] at h
    exact .inl h

/-- The flag says that the pattern matches in what was read so far. -/
def NoFalseAlarm (readyBanner : Option Text) (chunks : List Text) : Prop :=
  (feed readyBanner chunks).2.gdbstubSeen = true →
    ∃ text, text <+: chunks.flatten ∧ gdbstubPattern.search text = true

/-- **False alarms.** There is none in a stream where the pattern matches. In any other there is one
exactly if behind some chunk the buffer was cut and starts with a packet. -/
theorem gdbstub_no_false_alarm_iff (readyBanner : Option Text) (chunks : List Text) :
    NoFalseAlarm readyBanner chunks ↔
      gdbstubPattern.search chunks.flatten = true ∨
        ∀ pre, pre <+: chunks → searchBufferLength < pre.flatten.length →
          ¬ PacketAtFront (searchWindow pre.flatten) := by
  unfold NoFalseAlarm
  rw [gdbstubSeen_feed, seenIn_iff]
  constructor
  · intro h
    by_cases hstream : gdbstubPattern.search chunks.flatten = true
    · exact .inl hstream
    · refine .inr fun pre hpre _ hfront => hstream ?_
      obtain ⟨text, htext, hsearch⟩ := h ⟨pre, hpre, search_gdbstubPattern.mpr (.inl hfront)⟩
      exact search_gdbstubPattern_of_isPrefix htext hsearch
  · rintro (hstream | hquiet) ⟨pre, hpre, hseen⟩
    · exact ⟨_, List.prefix_refl _, hstream⟩
    · rcases search_searchWindow hseen with hsearch | ⟨hcut, hfront⟩
      · obtain ⟨back, rfl⟩ := hpre
        refine ⟨pre.flatten, ?_, hsearch⟩
        rw [List.flatten_append]
        exact List.prefix_append _ _
      · exact absurd hfront (hquiet pre hpre hcut)

/-- A packet behind the first character, and one character more than the buffer holds in all. -/
def packetChunks : List Text :=
  ["x$T00#00".toList ++ List.replicate 4088 'a', List.replicate 4096 'a', List.replicate 4096 'a',
    List.replicate 4096 'a', ['a']]

theorem flatten_packetChunks :
    packetChunks.flatten = 'x' :: ("$T00#00".toList ++ List.replicate 16377 'a') := by
  have hlast : List.replicate 1 'a' = ['a'] := rfl
  simp only [packetChunks, List.flatten_cons, List.flatten_nil, List.append_nil, List.append_assoc,
    ← hlast, List.replicate_append_replicate]
  rfl

theorem searchWindow_packetChunks :
    searchWindow packetChunks.flatten = "$T00#00".toList ++ List.replicate 16377 'a' := by
  have hlength : ("$T00#00".toList ++ List.replicate 16377 'a').length = 16384 := by
    rw [List.length_append, List.length_replicate]
    rfl
  rw [flatten_packetChunks, searchWindow, lastN, List.length_cons, hlength]
  rfl

theorem packetAtFront_packetChunks : PacketAtFront (searchWindow packetChunks.flatten) := by
  have hrests : [] ∈ gdbstubPacket.rests 7 "$T00#00".toList := by decide
  obtain ⟨w, hw, hpacket⟩ := (@mem_rests_iff _ gdbstubPacket 7 [] _ [] rfl).mp hrests
  rw [List.append_nil] at hw
  rw [searchWindow_packetChunks, hw]
  exact ⟨w, _, rfl, hpacket⟩

theorem PacketAtFront.head {c : Char} {text : Text} (h : PacketAtFront (c :: text)) : c = '$' := by
  obtain ⟨packet, back, heq, hpacket⟩ := h
  obtain ⟨u, v, rfl, hu, -⟩ := matches_seq_iff.mp hpacket
  rw [matches_literal_iff.mp hu] at heq
  exact (List.cons.inj heq).1

theorem StubOutput.exists_mem {text : Text} (h : StubOutput text) :
    ∃ c ∈ ['E', '\n', '+'], c ∈ text := by
  rcases h with rfl | ⟨packet, -, rfl | rfl⟩
  · exact ⟨'E', by decide, by decide⟩
  · exact ⟨'\n', by decide, List.mem_cons_self⟩
  · exact ⟨'+', by decide, List.mem_cons_self⟩

theorem not_search_packetChunks : ¬ gdbstubPattern.search packetChunks.flatten = true := by
  intro hsearch
  rcases search_gdbstubPattern.mp hsearch with hfront | ⟨output, houtput, hoccurs⟩
  · rw [flatten_packetChunks] at hfront
    exact absurd hfront.head (by decide)
  · obtain ⟨c, hc, hmem⟩ := houtput.exists_mem
    have hstream := hoccurs.subset hmem
    rw [flatten_packetChunks, ← List.cons_append, List.mem_append, List.mem_replicate] at hstream
    have hfree : ∀ c ∈ ['E', '\n', '+'], c ∉ 'x' :: "$T00#00".toList := by simp
    rcases hstream with hmem | ⟨-, rfl⟩
    · exact hfree c hc hmem
    · exact absurd hc (by decide)

/-- The packet does not start a line, and is reported once it is at the start of the buffer. -/
theorem not_noFalseAlarm_packetChunks : ¬ NoFalseAlarm none packetChunks := by
  intro hall
  have hseen : seenIn gdbstubPattern.search packetChunks = true := seenIn_iff.mpr
    ⟨_, List.prefix_refl _, search_gdbstubPattern.mpr (.inl packetAtFront_packetChunks)⟩
  rw [← gdbstubSeen_feed none] at hseen
  obtain ⟨text, htext, hsearch⟩ := hall hseen
  exact not_search_packetChunks (search_gdbstubPattern_of_isPrefix htext hsearch)

end EmbeddedInsDaq
