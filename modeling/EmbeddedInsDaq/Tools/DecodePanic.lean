import EmbeddedInsDaq.Lib.Scanning
import EmbeddedInsDaq.Tools.SanitizeLog

/-!
# The addresses of a panic

`decode_panic.sh` takes the addresses out of a panic log with `grep`, keeps the first of each with
`awk`, and hands them to `addr2line`. Every address of the log is among them, unless the last digit
of another one is its first (`addresses_exact`). The log it is given was cleaned before: an address
that the device wrote behind a space outlives the cleaning (`infix_sanitizeForLog`).
-/

namespace EmbeddedInsDaq

open Regex

/-! ## The script -/

/-- `[0-9a-fA-F]{n}`. -/
def hexDigits : ℕ → Regex Char
  | 0 => .empty
  | n + 1 => .seq hexDigit (hexDigits n)

/-- `0x4[0-9a-fA-F]{7}`. -/
def addressPattern : Regex Char := .seq (.literal "0x4".toList) (hexDigits 7)

/-- `grep -Eo`: the matches, line by line, and nothing of a binary file, which has a NUL in it. -/
def grepOnly (pattern : Regex Char) (text : Text) : List Text :=
  if '\x00' ∈ text then [] else (text.splitOn '\n').flatMap pattern.find

/-- `ADDRESSES`: what `awk '!seen[$0]++'` lets through of the matches. -/
def addresses (panicLog : Text) : List Text := unseen [] (grepOnly addressPattern panicLog)

/-- What the script meets: whether the ELF file is there, the panic log, whether the tool is there,
and the exit status and the output of the tool. -/
structure DecodePanicEnv where
  elf : Bool
  panicLog : Option Text
  tool : Bool
  addr2line : List Text → ℕ × Text

/-- The head of the report. -/
def reportHead (elfPath panicLogPath : Text) : Text :=
  "ELF: ".toList ++ elfPath ++ "\nPanic log: ".toList ++ panicLogPath ++ "\n\n".toList

/-- What the report says of the addresses, and the exit status. -/
def decodeAddresses (addr2line : List Text → ℕ × Text) : List Text → ℕ × Text
  | [] => (0, "No backtrace-style addresses were found in the panic log.\n".toList)
  | address :: rest =>
    let (status, output) := addr2line (address :: rest)
    (status, "Decoded addresses:\n".toList ++ output)

/-- The script behind its options: the exit status, and the report if it was opened. -/
def decodePanic (elfPath panicLogPath : Text) (env : DecodePanicEnv) : ℕ × Option Text :=
  match env.elf, env.panicLog, env.tool with
  | true, some panicLog, true =>
    let (status, decoded) := decodeAddresses env.addr2line (addresses panicLog)
    (status, some (reportHead elfPath panicLogPath ++ decoded))
  | _, _, _ => (1, none)

/-! ## Addresses -/

/-- A character that `hexDigit` takes. -/
def IsHexDigit (c : Char) : Prop :=
  ('0' ≤ c ∧ c ≤ '9') ∨ ('a' ≤ c ∧ c ≤ 'f') ∨ ('A' ≤ c ∧ c ≤ 'F')

/-- `0x4` and seven hex digits. -/
def Address (text : Text) : Prop :=
  ∃ digits, text = ['0', 'x', '4'] ++ digits ∧ digits.length = 7 ∧ ∀ c ∈ digits, IsHexDigit c

theorem matches_hexDigits_iff {n : ℕ} {front w : Text} :
    (hexDigits n).Matches front w ↔ w.length = n ∧ ∀ c ∈ w, IsHexDigit c := by
  induction n generalizing front w with
  | zero =>
    simp only [hexDigits, matches_empty_iff, List.length_eq_zero_iff]
    refine ⟨?_, And.left⟩
    rintro rfl
    exact ⟨rfl, by simp⟩
  | succ n ih =>
    simp only [hexDigits, matches_seq_iff, ih, hexDigit, matches_set_iff, Bool.or_eq_true,
      Bool.and_eq_true, decide_eq_true_eq]
    constructor
    · rintro ⟨_, v, rfl, ⟨c, hc, rfl⟩, hlength, hv⟩
      refine ⟨by simp [hlength], ?_⟩
      rw [List.singleton_append, List.forall_mem_cons]
      exact ⟨by rwa [or_assoc] at hc, hv⟩
    · rintro ⟨hlength, hw⟩
      cases w with
      | nil => cases hlength
      | cons c w =>
        rw [List.forall_mem_cons] at hw
        exact ⟨[c], w, rfl, ⟨c, by rw [or_assoc]; exact hw.1, rfl⟩, Nat.succ.inj hlength, hw.2⟩

theorem matches_address_iff (front w : Text) : addressPattern.Matches front w ↔ Address w := by
  simp only [addressPattern, matches_seq_iff, matches_literal_iff, matches_hexDigits_iff]
  constructor
  · rintro ⟨_, digits, rfl, rfl, hdigits⟩
    exact ⟨digits, rfl, hdigits⟩
  · rintro ⟨digits, rfl, hdigits⟩
    exact ⟨_, digits, rfl, rfl, hdigits⟩

theorem Address.length {a : Text} (h : Address a) : a.length = 10 := by
  obtain ⟨digits, rfl, hlength, -⟩ := h
  simp [hlength]

theorem Address.ne_nil {a : Text} (h : Address a) : a ≠ [] := by
  rintro rfl
  exact absurd h.length (by decide)

theorem Address.eq_of_prefix {a b : Text} (ha : Address a) (hb : Address b) (h : a <+: b) :
    a = b :=
  h.eq_of_length (by rw [ha.length, hb.length])

theorem toNat_of_isHexDigit {c : Char} (h : IsHexDigit c) :
    48 ≤ c.toNat ∧ c.toNat ≤ 102 ∧ c.toNat ≠ 91 := by
  have hchars : '0'.toNat = 48 ∧ '9'.toNat = 57 ∧ 'a'.toNat = 97 ∧ 'f'.toNat = 102 ∧
      'A'.toNat = 65 ∧ 'F'.toNat = 70 := by decide
  simp only [IsHexDigit, char_le_iff] at h
  omega

theorem Address.toNat_of_mem {a : Text} (ha : Address a) {c : Char} (hc : c ∈ a) :
    48 ≤ c.toNat ∧ c.toNat ≤ 120 ∧ c.toNat ≠ 91 := by
  obtain ⟨digits, rfl, -, hdigits⟩ := ha
  have hfront : ∀ c ∈ ['0', 'x', '4'], 48 ≤ c.toNat ∧ c.toNat ≤ 120 ∧ c.toNat ≠ 91 := by simp
  rcases List.mem_append.mp hc with hc | hc
  · exact hfront c hc
  · have := toNat_of_isHexDigit (hdigits c hc)
    omega

theorem Address.not_mem {a : Text} (ha : Address a) {c : Char}
    (hc : c.toNat < 48 ∨ 120 < c.toNat ∨ c.toNat = 91) : c ∉ a := fun hmem => by
  have := ha.toNat_of_mem hmem
  omega

/-- Two addresses overlap at most in one character. -/
theorem Address.hides {u v pre : Text} (hu : Address u) (hv : Address v)
    (h : Scanned.Hides u pre v) : ∃ front, u = front ++ ['0'] ∧ front <:+ pre := by
  obtain ⟨a, b, rfl, ha, hb, hsuffix, hinto⟩ := h
  have hlength := hu.length
  rw [List.length_append] at hlength
  have hpos := List.length_pos_of_ne_nil ha
  have hprefix : b <+: v := by
    apply hinto.resolve_right
    intro hle
    have := hle.length_le
    have := hv.length
    omega
  obtain ⟨digits, hu, -, hdigits⟩ := hu
  obtain ⟨digits', rfl, -, -⟩ := hv
  obtain ⟨c, a, rfl⟩ := List.exists_cons_of_ne_nil ha
  obtain ⟨d, b, rfl⟩ := List.exists_cons_of_ne_nil hb
  obtain ⟨rfl, -⟩ := List.cons_prefix_cons.mp hprefix
  cases b with
  | nil => exact ⟨c :: a, rfl, hsuffix⟩
  | cons d b =>
    -- the second character of `v` would be among the digits of `u`
    obtain ⟨rfl, -⟩ := List.cons_prefix_cons.mp (List.cons_prefix_cons.mp hprefix).2
    have htail : a ++ '0' :: 'x' :: b = 'x' :: '4' :: digits := (List.cons.inj hu).2
    have hmem : 'x' ∈ '4' :: digits := by
      cases a with
      | nil => exact absurd (List.cons.inj htail).1 (by decide)
      | cons e a => exact (List.cons.inj htail).2 ▸ by simp
    rcases List.mem_cons.mp hmem with heq | hmem
    · exact absurd heq (by decide)
    · have := (toNat_of_isHexDigit (hdigits 'x' hmem)).2.1
      exact absurd this (by decide)

/-! ## The addresses of a log -/

theorem scanned_grepOnly {panicLog : Text} (hlog : '\x00' ∉ panicLog) :
    Scanned Address panicLog (grepOnly addressPattern panicLog) := by
  rw [grepOnly, if_neg hlog]
  have hscanned := Scanned.intercalate (b := '\n') (fun _ h => h.not_mem (.inl (by decide)))
    (fun _ h => h.ne_nil) (Regex.scanned_find matches_address_iff fun _ h => h.ne_nil)
    (List.splitOn_ne_nil '\n' panicLog)
  rwa [List.intercalate_splitOn] at hscanned

theorem mem_addresses {panicLog a : Text} :
    a ∈ addresses panicLog ↔ a ∈ grepOnly addressPattern panicLog := by
  simp [addresses, mem_unseen]

theorem mem_addresses_or {panicLog pre a post : Text} (hlog : '\x00' ∉ panicLog) (ha : Address a)
    (hsplit : panicLog = pre ++ (a ++ post)) : a ∈ addresses panicLog ∨
      ∃ front, front ++ ['0'] ∈ addresses panicLog ∧ front <:+ pre := by
  have hscanned := scanned_grepOnly hlog
  rcases hscanned.exists_of_word (fun _ h => h.ne_nil) (fun _ _ => Address.eq_of_prefix) ha hsplit
    with hmem | ⟨u, hu, hhides⟩
  · exact .inl (mem_addresses.mpr hmem)
  · obtain ⟨front, rfl, hfront⟩ := (hscanned.word_of_mem hu).1.hides ha hhides
    exact .inr ⟨front, mem_addresses.mpr hu, hfront⟩

theorem addresses_append_cons {panicLog more : Text} (hlog : '\x00' ∉ panicLog)
    (hmore : '\x00' ∉ more) : addresses (panicLog ++ '\n' :: more) =
      addresses panicLog ++ (addresses more).filter (· ∉ addresses panicLog) := by
  have hboth : '\x00' ∉ panicLog ++ '\n' :: more := by simp [hlog, hmore]
  have hlines : grepOnly addressPattern (panicLog ++ '\n' :: more) =
      grepOnly addressPattern panicLog ++ grepOnly addressPattern more := by
    simp only [grepOnly, if_neg hboth, if_neg hlog, if_neg hmore]
    rw [List.splitOn_append_cons_self, List.flatMap_append]
  rw [addresses, hlines, unseen_append]
  apply congrArg
  apply List.filter_congr
  intro a _
  rw [decide_eq_decide, mem_addresses]

theorem mem_addresses_of_space {panicLog a : Text} (hlog : '\x00' ∉ panicLog) (ha : Address a)
    (h : ' ' :: a <:+: panicLog) : a ∈ addresses panicLog := by
  obtain ⟨pre, post, rfl⟩ := h
  have hsplit : pre ++ ' ' :: a ++ post = (pre ++ [' ']) ++ (a ++ post) := by simp
  rcases mem_addresses_or hlog ha hsplit with hmem | ⟨front, hmem, hfront⟩
  · exact hmem
  · -- the address that is found would have the space in it
    have hword := ((scanned_grepOnly hlog).word_of_mem (mem_addresses.mp hmem)).1
    have hlength := hword.length
    rw [List.length_append, List.length_singleton] at hlength
    obtain ⟨rest, hrest⟩ := hfront
    have hlast := congrArg List.getLast? hrest
    rw [List.getLast?_append_of_ne_nil _ (by rintro rfl; cases hlength), List.getLast?_concat]
      at hlast
    exact absurd (List.mem_append_left ['0'] (List.mem_of_getLast? hlast))
      (hword.not_mem (.inl (by decide)))

/-- **The addresses.** In a log that `grep` takes for text, the script finds nothing but addresses
of the log, each once. An address of the log that it does not find starts with the last digit of one
that it does. And a longer log adds the addresses that were not there before, behind the others. -/
theorem addresses_exact {panicLog : Text} (hlog : '\x00' ∉ panicLog) :
    (addresses panicLog).Nodup ∧
    (∀ a ∈ addresses panicLog, Address a ∧ a <:+: panicLog) ∧
    (∀ pre a post, Address a → panicLog = pre ++ (a ++ post) → a ∈ addresses panicLog ∨
      ∃ front, front ++ ['0'] ∈ addresses panicLog ∧ front <:+ pre) ∧
    ∀ more, '\x00' ∉ more → addresses (panicLog ++ '\n' :: more) =
      addresses panicLog ++ (addresses more).filter (· ∉ addresses panicLog) :=
  ⟨nodup_unseen _ _, fun _ ha => (scanned_grepOnly hlog).word_of_mem (mem_addresses.mp ha),
    fun _ _ _ ha hsplit => mem_addresses_or hlog ha hsplit,
    fun _ hmore => addresses_append_cons hlog hmore⟩

/-- A second line repeats an address. -/
theorem addresses_exact_panic :
    addresses ("MEPC: 0x4200abcd".toList ++ '\n' :: "RA: 0x4200abcd 0x42001234".toList) =
      ["0x4200abcd".toList, "0x42001234".toList] := by
  obtain ⟨-, -, -, happend⟩ := @addresses_exact "MEPC: 0x4200abcd".toList (by decide)
  rw [happend _ (by decide)]
  decide

/-- The second address is hidden behind the first. -/
example : addresses "0x40000000x40000001 0x40000002".toList =
    ["0x40000000".toList, "0x40000002".toList] := by decide

/-! ## What cleaning leaves -/

theorem replaceCrlf_append {text : Text} (htext : ∀ c ∈ text, c ≠ '\r' ∧ c ≠ '\n') (post : Text) :
    replaceCrlf (text ++ post) = text ++ replaceCrlf post := by
  induction text with
  | nil => rfl
  | cons c text ih =>
    obtain ⟨⟨hreturn, -⟩, htext⟩ := List.forall_mem_cons.mp htext
    rw [List.cons_append, replaceCrlf, ih htext, List.cons_append]
    exact fun _ hc _ => hreturn hc

theorem infix_replace {text u : Text} (hne : u ≠ []) (hu : ∀ c ∈ u, c ≠ '\r' ∧ c ≠ '\n')
    (h : u <:+: text) : u <:+: replaceCr (replaceCrlf text) := by
  obtain ⟨pre, post, rfl⟩ := h
  rw [List.append_assoc]
  have hcrlf : ∃ front, replaceCrlf (pre ++ (u ++ post)) = front ++ (u ++ replaceCrlf post) := by
    induction pre using replaceCrlf.induct with
    | case1 => exact ⟨[], replaceCrlf_append hu post⟩
    | case2 pre ih =>
      obtain ⟨front, hfront⟩ := ih
      exact ⟨'\n' :: front, congrArg ('\n' :: ·) hfront⟩
    | case3 c pre hpre ih =>
      obtain ⟨front, hfront⟩ := ih
      refine ⟨c :: front, ?_⟩
      rw [List.cons_append, replaceCrlf, hfront, List.cons_append]
      intro rest hc hrest
      cases pre with
      | nil =>
        obtain ⟨d, u, rfl⟩ := List.exists_cons_of_ne_nil hne
        exact (hu d List.mem_cons_self).2 (List.cons.inj hrest).1
      | cons d pre => exact hpre pre hc (congrArg (· :: pre) (List.cons.inj hrest).1)
  obtain ⟨front, hfront⟩ := hcrlf
  have hself : u.map (fun c => if c = '\r' then '\n' else c) = u :=
    (List.map_congr_left fun c hc => if_neg (hu c hc).1).trans (List.map_id' u)
  rw [hfront, replaceCr, List.map_append, List.map_append, hself]
  exact ⟨_, _, List.append_assoc _ _ _⟩

/-- Behind a space, an escape sequence goes on, and not with a zero. -/
theorem of_escape_space {s t : Text} (h : escapes.Word (s ++ ' ' :: t)) : t ≠ [] ∧ '0' ∉ t := by
  have hmatches : ansiEscapePattern.Matches [] (s ++ ' ' :: t) := h
  simp only [ansiEscapePattern, matches_seq_iff, matches_literal_iff, matches_star_set_iff,
    matches_set_iff, Bool.and_eq_true, decide_eq_true_eq] at hmatches
  obtain ⟨_, _, hw, rfl, params, _, rfl, hparams, between, _, rfl, hbetween, last, hlast, rfl⟩ :=
    hmatches
  have hfront : ' ' ∉ ['\x1b', '['] ++ params := by
    rw [List.mem_append, not_or]
    exact ⟨by decide, fun hmem => absurd (hparams _ hmem).1 (by decide)⟩
  have hback : '0' ∉ between ++ [last] := by
    rw [List.mem_append, List.mem_singleton, not_or]
    refine ⟨fun hmem => absurd (hbetween _ hmem).2 (by decide), ?_⟩
    rintro rfl
    exact absurd hlast (by decide)
  have hw : s ++ ' ' :: t = (['\x1b', '['] ++ params) ++ (between ++ [last]) := by
    rw [hw, List.append_assoc]
    rfl
  obtain ⟨mid, hmid⟩ : ∃ mid, between ++ [last] = mid ++ ' ' :: t := by
    rcases List.append_eq_append_iff.mp hw with ⟨mid, hmid, htail⟩ | ⟨mid, -, htail⟩
    · cases mid with
      | nil => exact ⟨[], htail.symm⟩
      | cons c mid =>
        obtain ⟨rfl, -⟩ := List.cons.inj htail
        exact absurd (hmid ▸ List.mem_append_right s List.mem_cons_self) hfront
    · exact ⟨mid, htail⟩
  constructor
  · rintro rfl
    obtain rfl : last = ' ' := by simpa using congrArg List.getLast? hmid
    exact absurd hlast (by decide)
  · intro hmem
    rw [hmid] at hback
    exact hback (List.mem_append_right mid (List.mem_cons_of_mem _ hmem))

theorem space_not_mem_of_fragment {w : Text} (hw : fragments.Word w) : ' ' ∉ w := by
  obtain ⟨body, last, rfl, hlast, hbody⟩ := exists_of_matches_fragment hw
  simp only [List.mem_append, List.mem_singleton, not_or]
  refine ⟨by decide, fun hmem => ?_, ?_⟩
  · exact absurd (hbody _ hmem) (by decide)
  · rintro rfl
    exact absurd hlast (by decide)

/-- What reaches into an address behind a space starts with the space, and goes on with a zero. -/
theorem Address.reached {a t : Text} (ha : Address a) (ht : t ≠ [])
    (h : t <+: ' ' :: a ∨ ' ' :: a <+: t) : ∃ t', t = ' ' :: t' ∧ (t' = [] ∨ '0' ∈ t') := by
  obtain ⟨digits, rfl, -, -⟩ := ha
  obtain ⟨c, t, rfl⟩ := List.exists_cons_of_ne_nil ht
  rcases h with h | h
  · obtain ⟨rfl, htail⟩ := List.cons_prefix_cons.mp h
    refine ⟨t, rfl, ?_⟩
    cases t with
    | nil => exact .inl rfl
    | cons d t =>
      obtain ⟨rfl, -⟩ := List.cons_prefix_cons.mp htail
      exact .inr List.mem_cons_self
  · obtain ⟨rfl, htail⟩ := List.cons_prefix_cons.mp h
    exact ⟨t, rfl, .inr (htail.subset List.mem_cons_self)⟩

/-- `grep` takes a cleaned log for text. -/
theorem nul_not_mem_sanitizeForLog (text : Text) : '\x00' ∉ sanitizeForLog text := fun hmem =>
  absurd (List.mem_filter.mp hmem).2 (by decide)

/-- **Cleaning.** An address behind a space stays in the log. -/
theorem infix_sanitizeForLog {text a : Text} (ha : Address a) (h : ' ' :: a <:+: text) :
    ' ' :: a <:+: sanitizeForLog text := by
  have hchar : ∀ c ∈ ' ' :: a, 32 ≤ c.toNat ∧ c.toNat ≤ 120 ∧ c.toNat ≠ 91 := by
    intro c hc
    rcases List.mem_cons.mp hc with rfl | hc
    · decide
    · have := ha.toNat_of_mem hc
      omega
  have hne : ∀ d : Char, d.toNat < 32 ∨ 120 < d.toNat ∨ d.toNat = 91 → ∀ c ∈ ' ' :: a, c ≠ d := by
    rintro d hd c hc rfl
    have := hchar c hc
    omega
  have hlines := infix_replace (List.cons_ne_nil ' ' a)
    (fun c hc => ⟨hne '\r' (.inl (by decide)) c hc, hne '\n' (.inl (by decide)) c hc⟩) h
  have hescapes : ' ' :: a <:+: ansiEscapePattern.remove (replaceCr (replaceCrlf text)) := by
    refine (erased_escapes _).infix_of_apart ?_ ?_ hlines
    · exact fun c hc => ⟨hne '\x1b' (.inl (by decide)) c hc, rfl⟩
    · -- an escape sequence would end with the space, or have a zero behind it
      intro s t hword ht hreach
      obtain ⟨t, rfl, hend⟩ := ha.reached ht hreach
      exact hend.elim (of_escape_space hword).1 (of_escape_space hword).2
  refine (erased_sanitizeForLog text).infix_of_apart ?_ ?_ hescapes
  · intro c hc
    have hkept : keptInLog c = true :=
      keptInLog_iff.mpr ⟨hne '\ufffd' (.inr (.inl (by decide))) c hc, .inr (.inr (hchar c hc).1)⟩
    exact ⟨hne '[' (.inr (.inr rfl)) c hc, by simp [stays, hkept]⟩
  · -- a fragment would have the space in it
    intro s t hword ht hreach
    obtain ⟨t, rfl, -⟩ := ha.reached ht hreach
    exact space_not_mem_of_fragment hword (List.mem_append_right s List.mem_cons_self)

end EmbeddedInsDaq
