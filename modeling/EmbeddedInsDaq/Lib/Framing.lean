import Mathlib.Data.List.Forall2
import Mathlib.Data.Nat.Notation
import Mathlib.Tactic.SplitIfs

/-!
# Streams of self-delimiting frames

A `FrameReader` takes one frame off the front of the input, at a position that only its errors
mention. What makes a loop around it a decoder is one law, `read_eq_ok_iff`: it succeeds exactly
where the input starts with a frame, and then leaves what follows. From it:

* frames are prefix free (`frame_unique`), so a stream splits in one way (`split_unique`);
* the loop accepts exactly the concatenations of frames (`readAll_eq_ok_iff`), and fails where a
  read behind some frames does (`readAll_eq_error_iff`).

`LengthPrefixed` is the common way to get one: a header of fixed size that says how long the rest
of the frame is.
-/

variable {α ε β : Type*}

/-- A reader of one frame, with the frames `f` that carry `b` as a relation. -/
structure FrameReader (α ε β : Type*) where
  read : ℕ → List α → Except ε (β × List α)
  IsFrame : List α → β → Prop
  read_eq_ok_iff : ∀ pos xs b rest,
    read pos xs = .ok (b, rest) ↔ ∃ f, xs = f ++ rest ∧ IsFrame f b
  ne_nil : ∀ {f b}, IsFrame f b → f ≠ []

namespace FrameReader

variable {r : FrameReader α ε β}

/-! ## One frame -/

theorem read_append {f : List α} {b : β} (h : r.IsFrame f b) (pos : ℕ) (rest : List α) :
    r.read pos (f ++ rest) = .ok (b, rest) :=
  (r.read_eq_ok_iff _ _ _ _).mpr ⟨f, rfl, h⟩

/-- **Prefix freeness.** Two frames at the front of the same input are the same frame. -/
theorem frame_unique {f g xs ys : List α} {b c : β} (hf : r.IsFrame f b) (hg : r.IsFrame g c)
    (h : f ++ xs = g ++ ys) : f = g ∧ b = c ∧ xs = ys := by
  have hread := read_append hf 0 xs
  rw [h, read_append hg 0 ys] at hread
  obtain ⟨hb, hxs⟩ := Prod.mk.inj (Except.ok.inj hread)
  subst hxs
  exact ⟨List.append_cancel_right h, hb.symm, rfl⟩

theorem length_lt_of_read {pos : ℕ} {xs rest : List α} {b : β}
    (h : r.read pos xs = .ok (b, rest)) : rest.length < xs.length := by
  obtain ⟨f, rfl, hf⟩ := (r.read_eq_ok_iff _ _ _ _).mp h
  rw [List.length_append]
  exact Nat.lt_add_of_pos_left (List.length_pos_of_ne_nil (r.ne_nil hf))

/-! ## Whole streams -/

/-- The frames `fs` carry `bs`, one for one. -/
abbrev AreFrames (r : FrameReader α ε β) (fs : List (List α)) (bs : List β) : Prop :=
  List.Forall₂ r.IsFrame fs bs

/-- **Unique decodability.** A stream splits into frames in one way. -/
theorem split_unique {fs gs : List (List α)} {bs cs : List β} (hf : r.AreFrames fs bs)
    (hg : r.AreFrames gs cs) (h : fs.flatten = gs.flatten) : fs = gs ∧ bs = cs := by
  induction hf generalizing gs cs with
  | nil =>
    cases hg with
    | nil => exact ⟨rfl, rfl⟩
    | cons hd _ => exact absurd (List.append_eq_nil_iff.mp h.symm).1 (r.ne_nil hd)
  | cons hd _ ih =>
    cases hg with
    | nil => exact absurd (List.append_eq_nil_iff.mp h).1 (r.ne_nil hd)
    | cons hd' htl' =>
      rw [List.flatten_cons, List.flatten_cons] at h
      obtain ⟨rfl, rfl, hrest⟩ := frame_unique hd hd' h
      obtain ⟨rfl, rfl⟩ := ih htl' hrest
      exact ⟨rfl, rfl⟩

variable (r)

/-- Read frames until the input is used up. -/
def readAll (pos : ℕ) (xs : List α) : Except ε (List β) :=
  if xs = [] then .ok []
  else
    match h : r.read pos xs with
    | .error e => .error e
    | .ok (b, rest) =>
      have := length_lt_of_read h
      (readAll (pos + (xs.length - rest.length)) rest).map (b :: ·)
termination_by xs.length

theorem readAll_nil (pos : ℕ) : r.readAll pos [] = .ok [] := by
  unfold readAll
  exact if_pos rfl

variable {r}

theorem readAll_of_error {pos : ℕ} {xs : List α} {e : ε} (hne : xs ≠ [])
    (h : r.read pos xs = .error e) : r.readAll pos xs = .error e := by
  unfold readAll
  rw [if_neg hne]
  split
  · next h' => rw [h] at h'; cases h'; rfl
  · next h' => rw [h] at h'; cases h'

theorem readAll_of_ok {pos : ℕ} {xs rest : List α} {b : β} (h : r.read pos xs = .ok (b, rest)) :
    r.readAll pos xs = (r.readAll (pos + (xs.length - rest.length)) rest).map (b :: ·) := by
  have hne : xs ≠ [] := by
    rintro rfl
    exact absurd (length_lt_of_read h) (Nat.not_lt_zero _)
  rw [readAll, if_neg hne]
  split
  · next h' => rw [h] at h'; cases h'
  · next h' => rw [h] at h'; cases h'; rfl

theorem readAll_append {f : List α} {b : β} (h : r.IsFrame f b) (pos : ℕ) (xs : List α) :
    r.readAll pos (f ++ xs) = (r.readAll (pos + f.length) xs).map (b :: ·) := by
  rw [readAll_of_ok (read_append h pos xs), List.length_append, Nat.add_sub_cancel]

theorem readAll_flatten_append {fs : List (List α)} {bs : List β} (h : r.AreFrames fs bs) (pos : ℕ)
    (xs : List α) : r.readAll pos (fs.flatten ++ xs) =
      (r.readAll (pos + fs.flatten.length) xs).map (bs ++ ·) := by
  induction h generalizing pos with
  | nil =>
    show r.readAll pos xs = (r.readAll pos xs).map id
    cases r.readAll pos xs <;> rfl
  | @cons f b fs bs hd _ ih =>
    rw [List.flatten_cons, List.append_assoc, readAll_append hd, ih, List.length_append,
      Nat.add_assoc]
    cases r.readAll (pos + (f.length + fs.flatten.length)) xs <;> rfl

theorem readAll_flatten {fs : List (List α)} {bs : List β} (h : r.AreFrames fs bs) (pos : ℕ) :
    r.readAll pos fs.flatten = .ok bs := by
  have happend := readAll_flatten_append h pos []
  rw [List.append_nil, readAll_nil] at happend
  rw [happend]
  show Except.ok (bs ++ []) = _
  rw [List.append_nil]

theorem readAll_flatten_append_of_error {fs : List (List α)} {bs : List β} (h : r.AreFrames fs bs)
    (pos : ℕ) {xs : List α} (hne : xs ≠ []) {e : ε}
    (herror : r.read (pos + fs.flatten.length) xs = .error e) :
    r.readAll pos (fs.flatten ++ xs) = .error e := by
  rw [readAll_flatten_append h, readAll_of_error hne herror]
  rfl

theorem frames_of_readAll {pos : ℕ} {xs : List α} {bs : List β} (h : r.readAll pos xs = .ok bs) :
    ∃ fs, xs = fs.flatten ∧ r.AreFrames fs bs := by
  induction pos, xs using readAll.induct (r := r) generalizing bs with
  | case1 pos =>
    rw [readAll_nil] at h
    cases h
    exact ⟨[], rfl, .nil⟩
  | case2 pos xs hne e hread =>
    rw [readAll_of_error hne hread] at h
    cases h
  | case3 pos xs hne b rest hread _ ih =>
    rw [readAll_of_ok hread] at h
    obtain ⟨f, hxs, hf⟩ := (r.read_eq_ok_iff _ _ _ _).mp hread
    cases hrest : r.readAll (pos + (xs.length - rest.length)) rest with
    | error e => rw [hrest] at h; cases h
    | ok cs =>
      rw [hrest] at h
      cases h
      obtain ⟨fs, hfs, hcs⟩ := ih hrest
      exact ⟨f :: fs, by rw [List.flatten_cons, ← hfs, hxs], .cons hf hcs⟩

/-- **Grammar.** The loop accepts exactly the concatenations of frames. -/
theorem readAll_eq_ok_iff {pos : ℕ} {xs : List α} {bs : List β} :
    r.readAll pos xs = .ok bs ↔ ∃ fs, xs = fs.flatten ∧ r.AreFrames fs bs := by
  constructor
  · exact frames_of_readAll
  · rintro ⟨fs, rfl, h⟩
    exact readAll_flatten h pos

theorem error_of_readAll {pos : ℕ} {xs : List α} {e : ε} (h : r.readAll pos xs = .error e) :
    ∃ fs bs rest, xs = fs.flatten ++ rest ∧ r.AreFrames fs bs ∧ rest ≠ [] ∧
      r.read (pos + fs.flatten.length) rest = .error e := by
  induction pos, xs using readAll.induct (r := r) with
  | case1 pos =>
    rw [readAll_nil] at h
    cases h
  | case2 pos xs hne e' hread =>
    rw [readAll_of_error hne hread] at h
    cases h
    exact ⟨[], [], xs, rfl, .nil, hne, hread⟩
  | case3 pos xs hne b rest hread _ ih =>
    rw [readAll_of_ok hread] at h
    obtain ⟨f, rfl, hf⟩ := (r.read_eq_ok_iff _ _ _ _).mp hread
    rw [List.length_append, Nat.add_sub_cancel] at h ih
    cases hrest : r.readAll (pos + f.length) rest with
    | ok cs => rw [hrest] at h; cases h
    | error e' =>
      rw [hrest] at h
      cases h
      obtain ⟨fs, bs, rest', rfl, hfs, hne', herror⟩ := ih hrest
      refine ⟨f :: fs, b :: bs, rest', ?_, .cons hf hfs, hne', ?_⟩
      · rw [List.flatten_cons, List.append_assoc]
      · rw [List.flatten_cons, List.length_append, ← Nat.add_assoc]
        exact herror

/-- **Errors.** The loop fails with the error of a read behind some frames. -/
theorem readAll_eq_error_iff {pos : ℕ} {xs : List α} {e : ε} :
    r.readAll pos xs = .error e ↔
      ∃ fs bs rest, xs = fs.flatten ++ rest ∧ r.AreFrames fs bs ∧ rest ≠ [] ∧
        r.read (pos + fs.flatten.length) rest = .error e := by
  constructor
  · exact error_of_readAll
  · rintro ⟨fs, bs, rest, rfl, hfs, hne, herror⟩
    exact readAll_flatten_append_of_error hfs pos hne herror

end FrameReader

/-! ## Cuts -/

/-- A cut of a stream falls between two frames, or inside of one. -/
theorem List.take_flatten_cases {α : Type*} (fs : List (List α)) {k : ℕ}
    (hk : k ≤ fs.flatten.length) :
    (∃ m ≤ fs.length, k = (fs.take m).flatten.length) ∨
      ∃ m f, fs[m]? = some f ∧ (fs.take m).flatten.length < k ∧
        k < (fs.take m).flatten.length + f.length ∧
        fs.flatten.take k = (fs.take m).flatten ++ f.take (k - (fs.take m).flatten.length) := by
  induction fs generalizing k with
  | nil => exact .inl ⟨0, Nat.le_refl 0, Nat.le_zero.mp hk⟩
  | cons f fs ih =>
    rw [List.flatten_cons, List.length_append] at hk
    by_cases hzero : k = 0
    · exact .inl ⟨0, Nat.zero_le _, hzero⟩
    by_cases hlt : k < f.length
    · refine .inr ⟨0, f, rfl, Nat.pos_of_ne_zero hzero, (Nat.zero_add _).symm ▸ hlt, ?_⟩
      exact List.take_append_of_le_length (Nat.le_of_lt hlt)
    -- the cut is behind the first frame
    have hge := Nat.le_of_not_lt hlt
    have hflatten (m : ℕ) : ((f :: fs).take (m + 1)).flatten = f ++ (fs.take m).flatten := rfl
    rcases ih (Nat.sub_le_iff_le_add'.mpr hk) with ⟨m, hm, hkm⟩ | ⟨m, g, hg, hlo, hhi, htake⟩
    · refine .inl ⟨m + 1, Nat.succ_le_succ hm, ?_⟩
      rw [hflatten, List.length_append, ← hkm, Nat.add_sub_cancel' hge]
    · refine .inr ⟨m + 1, g, hg, ?_, ?_, ?_⟩
      · rw [hflatten, List.length_append]
        omega
      · rw [hflatten, List.length_append]
        omega
      · rw [List.flatten_cons, List.take_append, List.take_of_length_le hge, htake, hflatten,
          List.length_append, List.append_assoc, Nat.sub_sub]

/-! ## Frames with a length in their header -/

/-- Frames of a header of fixed size, which says how long the payload is, and that payload. The
position is for errors only: `decode` succeeds on what `Carries` relates. -/
structure LengthPrefixed (α ε β : Type*) where
  headerSize : ℕ
  headerSize_pos : 0 < headerSize
  payloadSize : List α → ℕ
  truncatedHeader : ℕ → ε
  truncatedPayload : ℕ → ε
  decode : ℕ → List α → List α → Except ε β
  Carries : List α → List α → β → Prop
  decode_eq_ok_iff : ∀ pos header payload b,
    decode pos header payload = .ok b ↔ Carries header payload b

namespace LengthPrefixed

variable (c : LengthPrefixed α ε β)

/-- Read one frame. -/
def read (pos : ℕ) (xs : List α) : Except ε (β × List α) :=
  if xs.length < c.headerSize then .error (c.truncatedHeader pos)
  else
    let header := xs.take c.headerSize
    let rest := xs.drop c.headerSize
    if rest.length < c.payloadSize header then .error (c.truncatedPayload pos)
    else (c.decode pos header (rest.take (c.payloadSize header))).map
      fun b => (b, rest.drop (c.payloadSize header))

/-- A header of the right size, with a payload of the length it says. -/
def IsFrame (f : List α) (b : β) : Prop :=
  ∃ header payload, f = header ++ payload ∧ header.length = c.headerSize ∧
    payload.length = c.payloadSize header ∧ c.Carries header payload b

variable {c}

theorem read_append {header payload : List α} (hheader : header.length = c.headerSize)
    (hpayload : payload.length = c.payloadSize header) (pos : ℕ) (rest : List α) :
    c.read pos (header ++ payload ++ rest) =
      (c.decode pos header payload).map fun b => (b, rest) := by
  have htake : (header ++ (payload ++ rest)).take c.headerSize = header := by
    rw [← hheader, List.take_left]
  have hdrop : (header ++ (payload ++ rest)).drop c.headerSize = payload ++ rest := by
    rw [← hheader, List.drop_left]
  have hlong : ¬ (header ++ (payload ++ rest)).length < c.headerSize := by
    rw [List.length_append]
    omega
  have hrest : ¬ (payload ++ rest).length < payload.length := by
    rw [List.length_append]
    omega
  unfold read
  rw [List.append_assoc, if_neg hlong, htake, hdrop]
  dsimp only
  rw [← hpayload, if_neg hrest, List.take_left, List.drop_left]

theorem read_take {f : List α} {b : β} (h : c.IsFrame f b) (pos : ℕ) {k : ℕ} (hk : k < f.length) :
    c.read pos (f.take k) =
      .error (if k < c.headerSize then c.truncatedHeader pos else c.truncatedPayload pos) := by
  obtain ⟨header, payload, rfl, hheader, hpayload, -⟩ := h
  rw [List.length_append] at hk
  have hlength : ((header ++ payload).take k).length = k :=
    List.length_take_of_le (by rw [List.length_append]; exact Nat.le_of_lt hk)
  unfold read
  rw [hlength]
  by_cases hshort : k < c.headerSize
  · rw [if_pos hshort, if_pos hshort]
  · have hge := Nat.le_of_not_lt hshort
    have htake : ((header ++ payload).take k).take c.headerSize = header := by
      rw [List.take_take, Nat.min_eq_left hge, List.take_left' hheader]
    have hrest : ((header ++ payload).take k).drop c.headerSize =
        payload.take (k - header.length) := by
      rw [List.take_append, List.take_of_length_le (by rw [hheader]; exact hge),
        List.drop_left' hheader]
    have hless : (payload.take (k - header.length)).length < payload.length := by
      rw [List.length_take]
      omega
    rw [if_neg hshort, if_neg hshort]
    dsimp only
    rw [htake, hrest, ← hpayload, if_pos hless]

theorem exists_of_read_eq_ok {pos : ℕ} {xs rest : List α} {b : β}
    (h : c.read pos xs = .ok (b, rest)) : ∃ f, xs = f ++ rest ∧ c.IsFrame f b := by
  unfold read at h
  dsimp only at h
  split_ifs at h with hheader hpayload
  cases hdecode : c.decode pos (xs.take c.headerSize)
      ((xs.drop c.headerSize).take (c.payloadSize (xs.take c.headerSize))) with
  | error e =>
    rw [hdecode] at h
    cases h
  | ok b' =>
    rw [hdecode] at h
    cases h
    refine ⟨_, ?_, xs.take c.headerSize, _, rfl, List.length_take_of_le (Nat.le_of_not_lt hheader),
      List.length_take_of_le (Nat.le_of_not_lt hpayload), (c.decode_eq_ok_iff _ _ _ _).mp hdecode⟩
    rw [List.append_assoc, List.take_append_drop, List.take_append_drop]

/-- A read fails on a frame that is cut short, or in the decoder. -/
theorem cases_of_read_eq_error {pos : ℕ} {xs : List α} {e : ε} (h : c.read pos xs = .error e) :
    e = c.truncatedHeader pos ∨ e = c.truncatedPayload pos ∨
      ∃ header payload rest, xs = header ++ payload ++ rest ∧ header.length = c.headerSize ∧
        payload.length = c.payloadSize header ∧ c.decode pos header payload = .error e := by
  unfold read at h
  dsimp only at h
  split_ifs at h with hheader hpayload
  · cases h
    exact .inl rfl
  · cases h
    exact .inr (.inl rfl)
  cases hdecode : c.decode pos (xs.take c.headerSize)
      ((xs.drop c.headerSize).take (c.payloadSize (xs.take c.headerSize))) with
  | ok b =>
    rw [hdecode] at h
    cases h
  | error e' =>
    rw [hdecode] at h
    cases h
    refine .inr (.inr ⟨_, _, (xs.drop c.headerSize).drop (c.payloadSize (xs.take c.headerSize)), ?_,
      List.length_take_of_le (Nat.le_of_not_lt hheader),
      List.length_take_of_le (Nat.le_of_not_lt hpayload), hdecode⟩)
    rw [List.append_assoc, List.take_append_drop, List.take_append_drop]

variable (c)

/-- Reading by length is a frame reader. -/
def toReader : FrameReader α ε β where
  read := c.read
  IsFrame := c.IsFrame
  read_eq_ok_iff := by
    intro pos xs b rest
    constructor
    · exact exists_of_read_eq_ok
    · rintro ⟨f, rfl, header, payload, rfl, hheader, hpayload, hb⟩
      rw [read_append hheader hpayload, (c.decode_eq_ok_iff _ _ _ _).mpr hb]
      rfl
  ne_nil := by
    rintro f b ⟨header, payload, rfl, hheader, -⟩ hnil
    have hpos := c.headerSize_pos
    rw [(List.append_eq_nil_iff.mp hnil).1] at hheader
    exact absurd hheader (Nat.ne_of_lt hpos)

end LengthPrefixed
