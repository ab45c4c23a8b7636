import EmbeddedInsDaq.Lib.Checkpoints
import EmbeddedInsDaq.Tools.Monitor
import Mathlib.Data.List.SplitLengths

/-!
# The verdict of the monitor and the chunks of the stream

What the search buffer holds depends on the text so far only (`lastN_searchWindow`), not on the
chunks it came in. But the loop looks at it at the ends of chunks only, and stops at the first one
where anything is found, so the verdict is the first `detection` at a chunk end
(`chunksExitCode_eq`).
`chunk_independent_iff` says for which texts that leaves no choice.
-/

namespace EmbeddedInsDaq

open Checkpoints

/-! ## The search buffer -/

/-- What the search buffer holds after `text`. -/
def searchWindow (text : Text) : Text := lastN searchBufferLength text

theorem lastN_append_lastN {α : Type*} (n : ℕ) (xs ys : List α) :
    lastN n (lastN n xs ++ ys) = lastN n (xs ++ ys) := by
  unfold lastN
  rw [List.length_append, List.length_append, List.length_drop, List.drop_append, List.drop_append,
    List.drop_drop, List.length_drop]
  congr 2 <;> omega

theorem searchWindow_nil : searchWindow [] = [] := List.drop_nil

theorem lastN_searchWindow (past text : Text) :
    lastN searchBufferLength (searchWindow past ++ text) = searchWindow (past ++ text) := by
  unfold searchWindow
  rw [lastN_append_lastN]

/-! ## Detections -/

/-- What the loop stops for. -/
inductive Detection
  | ready
  | gdbstub
  | panic
  deriving DecidableEq

/-- What is found in a search buffer, in the order in which `monitor_exit_code` ranks it. -/
def detection (banner searchBuffer : Text) : Option Detection :=
  if banner <:+: searchBuffer then some .ready
  else if gdbstubPattern.search searchBuffer then some .gdbstub
  else if panicPattern.search searchBuffer then some .panic
  else none

/-- The exit code for what the loop stopped for, or for a stream that ended. -/
def Detection.exitCode : Option Detection → ℤ
  | some .ready => 0
  | some .gdbstub => gdbstubExitCode
  | some .panic => 2
  | none => 1

theorem Detection.exitCode_injective : Function.Injective Detection.exitCode := by
  rintro (_ | _ | _ | _) (_ | _ | _ | _) h <;> first | rfl | exact absurd h (by decide)

section Banner

variable {banner : Text} (hbanner : banner ≠ [])

include hbanner

theorem bannerIn_some (searchBuffer : Text) :
    bannerIn (some banner) searchBuffer = decide (banner <:+: searchBuffer) := by
  simp [bannerIn, hbanner]

theorem detection_nil : detection banner [] = none := by
  have hready : ¬ banner <:+: [] := fun h => hbanner (List.eq_nil_of_infix_nil h)
  rw [detection, if_neg hready]
  decide

theorem updateState_of_quiet {past text : Text}
    (h : detection banner (searchWindow (past ++ text)) = none) :
    updateState (searchWindow past) text (some banner) {} = (searchWindow (past ++ text), {}) := by
  unfold detection at h
  split_ifs at h with hready hgdbstub hpanic
  rw [updateState_eq, lastN_searchWindow, bannerIn_some hbanner, decide_eq_false hready,
    eq_false_of_ne_true hpanic, eq_false_of_ne_true hgdbstub]
  rfl

theorem updateState_of_detection {past text : Text} {d : Detection}
    (h : detection banner (searchWindow (past ++ text)) = some d) :
    (updateState (searchWindow past) text (some banner) {}).2.seen = true ∧
      monitorExitCode (updateState (searchWindow past) text (some banner) {}).2 (some banner) =
        Detection.exitCode (some d) := by
  unfold detection at h
  rw [updateState_eq, lastN_searchWindow, bannerIn_some hbanner]
  generalize searchWindow (past ++ text) = window at h
  by_cases hready : banner <:+: window
  · rw [if_pos hready] at h
    cases h
    simp [hready, MonitorResult.seen, monitorExitCode, Detection.exitCode]
  rw [if_neg hready] at h
  by_cases hgdbstub : gdbstubPattern.search window = true
  · rw [if_pos hgdbstub] at h
    cases h
    simp [hready, hgdbstub, MonitorResult.seen, monitorExitCode, Detection.exitCode]
  rw [if_neg hgdbstub] at h
  by_cases hpanic : panicPattern.search window = true
  · rw [if_pos hpanic] at h
    cases h
    simp [hready, hgdbstub, hpanic, MonitorResult.seen, monitorExitCode, Detection.exitCode]
  · rw [if_neg hpanic] at h
    cases h

/-! ## The loop over the chunks of a text -/

/-- What the loop would stop for at the end of the first `b` characters. -/
def decision (banner text : Text) (b : ℕ) : Option Detection :=
  detection banner (searchWindow (text.take b))

/-- The loop on chunks stops for the first decision at the end of one. -/
theorem monitorLoop_exitCode {text past : Text} {chunks : List Text}
    (h : past ++ chunks.flatten = text) :
    monitorExitCode (monitorLoop (some banner) (searchWindow past) {} (chunks.map .chunk))
        (some banner) =
      Detection.exitCode (walk (decision banner text) past.length (chunks.map List.length)) := by
  induction chunks generalizing past with
  | nil =>
    show monitorExitCode {} (some banner) = 1
    simp [monitorExitCode, hbanner]
  | cons chunk chunks ih =>
    rw [List.flatten_cons, ← List.append_assoc] at h
    have hpast : text.take (past.length + chunk.length) = past ++ chunk := by
      rw [← h, ← List.length_append, List.take_left]
    have hdecision : decision banner text (past.length + chunk.length) =
        detection banner (searchWindow (past ++ chunk)) := by
      rw [decision, hpast]
    rw [List.map_cons, List.map_cons, monitorLoop]
    dsimp only
    cases hdetection : detection banner (searchWindow (past ++ chunk)) with
    | none =>
      have hunseen : ¬ MonitorResult.seen {} = true := by decide
      rw [walk_cons_of_quiet (hdecision.trans hdetection), updateState_of_quiet hbanner hdetection,
        if_neg hunseen, ← List.length_append]
      dsimp only
      exact ih h
    | some d =>
      obtain ⟨hseen, hcode⟩ := updateState_of_detection hbanner hdetection
      have hdecides : decision banner text (past.length + chunk.length) ≠ none := by
        rw [hdecision, hdetection]
        exact Option.some_ne_none d
      rw [walk_cons_of_decides hdecides, hdecision, hdetection, if_pos hseen]
      exact hcode

end Banner

theorem monitorLoop_returncode (readyBanner : Option Text) (rounds : List MonitorRound)
    (searchBuffer : Text) (result : MonitorResult) :
    (monitorLoop readyBanner searchBuffer result rounds).returncode = result.returncode := by
  induction rounds generalizing searchBuffer result with
  | nil => rfl
  | cons round rounds ih =>
    cases round with
    | deadline => rfl
    | idle exited =>
      rw [monitorLoop]
      split_ifs
      · rfl
      · exact ih _ _
    | closed => rfl
    | chunk text =>
      have hkeep : (updateState searchBuffer text readyBanner result).2.returncode =
          result.returncode := by rw [updateState_eq]
      rw [monitorLoop]
      dsimp only
      split_ifs
      · exact hkeep
      · exact (ih _ _).trans hkeep

/-! ## Chunks -/

/-- A way to split a text into chunks that may be read. -/
def Chunks (text : Text) (chunks : List Text) : Prop :=
  chunks.flatten = text ∧ ∀ chunk ∈ chunks, chunk ≠ [] ∧ chunk.length ≤ monitorChunkBytes

/-- The exit code for a stream read in the given chunks, with no timeout, from a process that ends
with 0. -/
def chunksExitCode (banner : Text) (chunks : List Text) : ℤ :=
  monitorExitCode (streamMonitor (some banner) (chunks.map .chunk) (some 0)) (some banner)

/-- Every way to split the text gives the same exit code. -/
def ChunkIndependent (banner text : Text) : Prop :=
  ∀ chunks chunks', Chunks text chunks → Chunks text chunks' →
    chunksExitCode banner chunks = chunksExitCode banner chunks'

/-- Wherever the loop may stop it stops for the same: of the positions before which every 4096
consecutive ones include one where nothing is found, those where something is found, and the end of
the text, have the same detection. -/
def Unanimous (banner text : Text) : Prop :=
  ∀ b ≤ text.length, ∀ b' ≤ text.length,
    Exposed (decision banner text) monitorChunkBytes b →
    Exposed (decision banner text) monitorChunkBytes b' →
    Stop (decision banner text) text.length b → Stop (decision banner text) text.length b' →
    decision banner text b = decision banner text b'

theorem chunksExitCode_eq {banner : Text} (hbanner : banner ≠ []) (chunks : List Text) :
    chunksExitCode banner chunks =
      Detection.exitCode (walk (decision banner chunks.flatten) 0 (chunks.map List.length)) := by
  have hreturn : (monitorLoop (some banner) [] {} (chunks.map .chunk)).returncode = 0 :=
    monitorLoop_returncode _ _ _ _
  have hstream : streamMonitor (some banner) (chunks.map .chunk) (some 0) =
      monitorLoop (some banner) [] {} (chunks.map .chunk) := by
    unfold streamMonitor
    generalize monitorLoop (some banner) [] {} (chunks.map .chunk) = result at hreturn ⊢
    cases result
    cases hreturn
    rfl
  have hloop := monitorLoop_exitCode hbanner (List.nil_append chunks.flatten)
  rw [searchWindow_nil] at hloop
  unfold chunksExitCode
  rw [hstream]
  exact hloop

theorem Chunks.steps {text : Text} {chunks : List Text} (h : Chunks text chunks) :
    Steps monitorChunkBytes (chunks.map List.length) ∧
      (chunks.map List.length).sum = text.length := by
  constructor
  · intro step hstep
    obtain ⟨chunk, hchunk, rfl⟩ := List.mem_map.mp hstep
    exact ⟨List.length_pos_of_ne_nil (h.2 chunk hchunk).1, (h.2 chunk hchunk).2⟩
  · rw [← List.length_flatten, h.1]

theorem exists_chunks {text : Text} {steps : List ℕ} (hsteps : Steps monitorChunkBytes steps)
    (hsum : steps.sum = text.length) :
    ∃ chunks, Chunks text chunks ∧ chunks.map List.length = steps := by
  have hlengths : (steps.splitLengths text).map List.length = steps :=
    List.map_splitLengths_length _ _ hsum.le
  refine ⟨steps.splitLengths text, ⟨List.flatten_splitLengths _ _ hsum.ge, ?_⟩, hlengths⟩
  intro chunk hchunk
  have hmem : chunk.length ∈ steps := by
    rw [← hlengths]
    exact List.mem_map_of_mem hchunk
  obtain ⟨hpos, hle⟩ := hsteps _ hmem
  exact ⟨List.ne_nil_of_length_pos hpos, hle⟩

/-- **Chunks.** The exit code does not depend on the chunks of the stream exactly when the loop
stops for the same wherever it may stop. -/
theorem chunk_independent_iff {banner : Text} (hbanner : banner ≠ []) (text : Text) :
    ChunkIndependent banner text ↔ Unanimous banner text := by
  have h0 : decision banner text 0 = none := by
    rw [decision, List.take_zero, searchWindow_nil, detection_nil hbanner]
  have hagree := @walks_agree_iff _ (decision banner text) monitorChunkBytes text.length
    (by decide) h0
  refine Iff.trans ?_ hagree
  constructor
  · intro h steps steps' hsteps hsum hsteps' hsum'
    obtain ⟨chunks, hchunks, rfl⟩ := exists_chunks hsteps hsum
    obtain ⟨chunks', hchunks', rfl⟩ := exists_chunks hsteps' hsum'
    have hcode := h chunks chunks' hchunks hchunks'
    rw [chunksExitCode_eq hbanner, chunksExitCode_eq hbanner, hchunks.1, hchunks'.1] at hcode
    exact Detection.exitCode_injective hcode
  · intro h chunks chunks' hchunks hchunks'
    rw [chunksExitCode_eq hbanner, chunksExitCode_eq hbanner, hchunks.1, hchunks'.1]
    exact congrArg Detection.exitCode
      (h _ _ hchunks.steps.1 hchunks.steps.2 hchunks'.steps.1 hchunks'.steps.2)

/-- The start of a backtrace in front of the banner: read at once the banner wins, and read in two
chunks the panic is seen first. -/
theorem not_chunkIndependent_backtrace :
    chunksExitCode "READY".toList ["Backtrace:READY".toList] = 0 ∧
      chunksExitCode "READY".toList ["Backtrace:".toList, "READY".toList] = 2 ∧
      ¬ ChunkIndependent "READY".toList "Backtrace:READY".toList := by
  have hone : chunksExitCode "READY".toList ["Backtrace:READY".toList] = 0 := by decide
  have htwo : chunksExitCode "READY".toList ["Backtrace:".toList, "READY".toList] = 2 := by decide
  refine ⟨hone, htwo, fun h => ?_⟩
  have hcode := h ["Backtrace:READY".toList] ["Backtrace:".toList, "READY".toList]
    ⟨by decide, by decide⟩ ⟨by decide, by decide⟩
  rw [hone, htwo] at hcode
  exact absurd hcode (by decide)

/-- In front of the banner there is nothing to stop for. -/
theorem chunk_independent_iff_ready :
    ChunkIndependent "READY".toList "I (312) READY".toList := by
  have hready : ∀ b ≤ "I (312) READY".toList.length,
      Stop (decision "READY".toList "I (312) READY".toList) "I (312) READY".toList.length b →
        decision "READY".toList "I (312) READY".toList b = some .ready := by
    unfold Stop
    decide
  refine (chunk_independent_iff (by decide) _).mpr fun b hb b' hb' _ _ hstop hstop' => ?_
  rw [hready b hb hstop, hready b' hb' hstop']

end EmbeddedInsDaq
