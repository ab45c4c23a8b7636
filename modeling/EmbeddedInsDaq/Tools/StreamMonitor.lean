import EmbeddedInsDaq.Lib.Utf8
import EmbeddedInsDaq.Tools.MonitorWindow
import EmbeddedInsDaq.Tools.SanitizeLog

/-!
# The monitor over bytes

`stream_monitor` reads bytes and looks for its patterns in text: an incremental decoder keeps the
bytes of a character that a chunk cuts. Here the loop runs over the bytes, with the log file, the
copy on the standard output and the end of the process. It returns what the detection returns on the
decoded chunks (`stream_monitor_refines`); how the bytes were cut shows nowhere in the log
(`log_streamMonitorBytes`), and the exit code says whether the bytes of the banner were among them
(`monitor_exit_code_bytes`).
-/

namespace EmbeddedInsDaq

open Utf8

/-! ## The loop -/

/-- What one round of the loop meets, `MonitorRound` with the bytes of a chunk. A read may also fail
with an error that `read_monitor_chunk` raises again. -/
inductive MonitorInput
  | deadline
  | idle (exited : Bool)
  | closed
  | failed
  | chunk (bytes : List UInt8)

/-- The decoder's pending bytes and the other variables of the loop, the log file, and the bytes on
the standard output. -/
structure MonitorStream where
  pending : List UInt8 := []
  searchBuffer : Text := []
  result : MonitorResult := {}
  log : List UInt8 := []
  stdout : List UInt8 := []

/-- What the loop does with a chunk. -/
def takeChunk (readyBanner : Option Text) (bytes : List UInt8) (stream : MonitorStream) :
    MonitorStream :=
  let (text, pending) := decoder.drain (stream.pending ++ bytes)
  let (searchBuffer, result) := updateState stream.searchBuffer text readyBanner stream.result
  { pending := pending
    searchBuffer := searchBuffer
    result := result
    log := stream.log ++ encode text
    stdout := stream.stdout ++ bytes }

theorem takeChunk_eq {readyBanner : Option Text} {bytes pending : List UInt8}
    {stream : MonitorStream} {text searchBuffer : Text} {result : MonitorResult}
    (hdrain : decoder.drain (stream.pending ++ bytes) = (text, pending))
    (hupdate : updateState stream.searchBuffer text readyBanner stream.result =
      (searchBuffer, result)) :
    takeChunk readyBanner bytes stream =
      { pending := pending, searchBuffer := searchBuffer, result := result
        log := stream.log ++ encode text, stdout := stream.stdout ++ bytes } := by
  rw [takeChunk, hdrain]
  dsimp only
  rw [hupdate]

theorem stdout_takeChunk (readyBanner : Option Text) (bytes : List UInt8)
    (stream : MonitorStream) :
    (takeChunk readyBanner bytes stream).stdout = stream.stdout ++ bytes := rfl

/-- The loop of `stream_monitor`, and whether a read has raised. -/
def streamLoop (readyBanner : Option Text) :
    MonitorStream → List MonitorInput → Bool × MonitorStream
  | stream, [] => (false, stream)
  | stream, .deadline :: _ =>
    (false, { stream with result := { stream.result with timedOut := true } })
  | stream, .idle exited :: inputs =>
    if exited then (false, stream) else streamLoop readyBanner stream inputs
  | stream, .closed :: _ => (false, stream)
  | stream, .failed :: _ => (true, stream)
  | stream, .chunk bytes :: inputs =>
    let stream := takeChunk readyBanner bytes stream
    if stream.result.seen then (false, stream) else streamLoop readyBanner stream inputs

/-- **Invariants.** What a chunk and the passing of the deadline keep, the loop keeps. -/
theorem streamLoop_invariant {P : MonitorStream → Prop} {readyBanner : Option Text}
    {inputs : List MonitorInput}
    (hchunk : ∀ stream bytes, .chunk bytes ∈ inputs → P stream →
      P (takeChunk readyBanner bytes stream))
    (htimeout : ∀ stream, P stream →
      P { stream with result := { stream.result with timedOut := true } })
    (stream : MonitorStream) (h : P stream) : P (streamLoop readyBanner stream inputs).2 := by
  induction inputs generalizing stream with
  | nil => exact h
  | cons input inputs ih =>
    have htail := ih fun stream bytes hbytes =>
      hchunk stream bytes (List.mem_cons_of_mem _ hbytes)
    cases input with
    | deadline => exact htimeout stream h
    | idle exited =>
      cases exited with
      | true => exact h
      | false => exact htail stream h
    | closed => exact h
    | failed => exact h
    | chunk bytes =>
      have hnext := hchunk stream bytes List.mem_cons_self h
      rw [streamLoop]
      split_ifs
      · exact hnext
      · exact htail _ hnext

/-! ## The end of the process -/

/-- The signals of `terminate_process_group`. -/
inductive Signal
  | sigint
  | sigterm
  | sigkill
  deriving DecidableEq

/-- What a signal meets: no process group, a process that ends within the time that is waited, or
one that does not. -/
inductive SignalAnswer
  | gone
  | exits (returncode : ℤ)
  | stays

/-- The process: what `poll` returns at the end of the loop, and what the signals meet. -/
structure MonitorProcess where
  polled : Option ℤ
  answer : Signal → SignalAnswer

/-- What `stream_monitor` raises. -/
inductive MonitorError
  | osError
  | timeoutExpired

/-- The signals in `for sig in …`, and then the last one: the signals sent, and `returncode`. -/
def sendSignals (answer : Signal → SignalAnswer) :
    List Signal → List Signal × Except MonitorError (Option ℤ)
  | [] =>
    ([.sigkill], match answer .sigkill with
      | .gone => .ok none
      | .exits returncode => .ok (some returncode)
      | .stays => .error .timeoutExpired)
  | sig :: signals =>
    match answer sig with
    | .gone => ([sig], .ok none)
    | .exits returncode => ([sig], .ok (some returncode))
    | .stays =>
      let (sent, returncode) := sendSignals answer signals
      (sig :: sent, returncode)

/-- `terminate_process_group`. -/
def terminateProcessGroup (process : MonitorProcess) :
    List Signal × Except MonitorError (Option ℤ) :=
  match process.polled with
  | some returncode => ([], .ok (some returncode))
  | none => sendSignals process.answer [.sigint, .sigterm]

/-! ## The whole function -/

/-- `path.read_text(encoding="utf-8", errors="replace")`, which also translates line ends. -/
def readText (bytes : List UInt8) : Text := replaceCr (replaceCrlf (decode bytes))

/-- `normalize_log_file`, on the bytes of the file. -/
def normalizeLogFile (bytes : List UInt8) : List UInt8 := encode (sanitizeForLog (readText bytes))

/-- What is left of a run: a result or what was raised, the log file and the standard output. -/
structure MonitorRun where
  outcome : Except MonitorError MonitorResult
  log : List UInt8
  stdout : List UInt8

/-- `stream_monitor`. -/
def streamMonitorBytes (readyBanner : Option Text) (inputs : List MonitorInput)
    (process : MonitorProcess) : MonitorRun :=
  let (raised, stream) := streamLoop readyBanner {} inputs
  let log := stream.log ++ encode (decode stream.pending)
  match (terminateProcessGroup process).2 with
  | .error err => { outcome := .error err, log := log, stdout := stream.stdout }
  | .ok returncode =>
    if raised then { outcome := .error .osError, log := log, stdout := stream.stdout }
    else
      { outcome := .ok { stream.result with returncode := returncode.getD 0 }
        log := normalizeLogFile log
        stdout := stream.stdout }

theorem stdout_streamMonitorBytes (readyBanner : Option Text) (inputs : List MonitorInput)
    (process : MonitorProcess) : (streamMonitorBytes readyBanner inputs process).stdout =
      (streamLoop readyBanner {} inputs).2.stdout := by
  unfold streamMonitorBytes
  rcases streamLoop readyBanner {} inputs with ⟨raised, stream⟩
  dsimp only
  split
  · rfl
  · split_ifs <;> rfl

theorem exists_of_outcome_eq_ok {readyBanner : Option Text} {inputs : List MonitorInput}
    {process : MonitorProcess} {result : MonitorResult}
    (h : (streamMonitorBytes readyBanner inputs process).outcome = .ok result) :
    ∃ returncode, result = { (streamLoop readyBanner {} inputs).2.result with
      returncode := returncode } := by
  unfold streamMonitorBytes at h
  rcases hloop : streamLoop readyBanner {} inputs with ⟨raised, stream⟩
  rw [hloop] at h
  dsimp only at h
  split at h
  · cases h
  · split_ifs at h
    cases h
    exact ⟨_, rfl⟩

theorem outcome_streamMonitorBytes {readyBanner : Option Text} {inputs : List MonitorInput}
    {process : MonitorProcess} {returncode : Option ℤ}
    (hloop : (streamLoop readyBanner {} inputs).1 = false)
    (hprocess : (terminateProcessGroup process).2 = .ok returncode) :
    (streamMonitorBytes readyBanner inputs process).outcome =
      .ok { (streamLoop readyBanner {} inputs).2.result with
        returncode := returncode.getD 0 } := by
  unfold streamMonitorBytes
  rcases hstream : streamLoop readyBanner {} inputs with ⟨raised, stream⟩
  rw [hstream] at hloop
  obtain rfl : raised = false := hloop
  rw [hprocess]
  rfl

/-- `monitor`, behind its checks of the environment. -/
def monitor (readyBanner : Option Text) (inputs : List MonitorInput) (process : MonitorProcess) :
    Except MonitorError ℤ :=
  (streamMonitorBytes readyBanner inputs process).outcome.map (monitorExitCode · readyBanner)

/-! ## The log -/

/-- The bytes that were read are on the standard output; their text is in the log, and the decoder
keeps the rest. -/
structure Logged (stream : MonitorStream) : Prop where
  pending : stream.pending = (decoder.drain stream.stdout).2
  log : stream.log = encode (decoder.drain stream.stdout).1

theorem encode_append (text text' : Text) : encode (text ++ text') = encode text ++ encode text' :=
  List.flatMap_append

theorem Logged.takeChunk {stream : MonitorStream} (h : Logged stream) (readyBanner : Option Text)
    (bytes : List UInt8) : Logged (takeChunk readyBanner bytes stream) := by
  have hdrain := Decoder.drain_append (d := decoder) stream.stdout bytes
  rw [← h.pending] at hdrain
  refine ⟨?_, ?_⟩
  · show (decoder.drain (stream.pending ++ bytes)).2 = (decoder.drain (stream.stdout ++ bytes)).2
    rw [hdrain]
  · show stream.log ++ encode (decoder.drain (stream.pending ++ bytes)).1 =
      encode (decoder.drain (stream.stdout ++ bytes)).1
    rw [hdrain, encode_append, h.log]

theorem Logged.streamLoop {stream : MonitorStream} (h : Logged stream) (readyBanner : Option Text)
    (inputs : List MonitorInput) : Logged (streamLoop readyBanner stream inputs).2 := by
  apply streamLoop_invariant _ _ stream h
  · exact fun _ bytes _ h => h.takeChunk readyBanner bytes
  · exact fun _ h => ⟨h.pending, h.log⟩

theorem readText_encode (text : Text) : readText (encode text) = replaceCr (replaceCrlf text) := by
  rw [readText, decode_encode]

theorem sanitizeForLog_replace (text : Text) :
    sanitizeForLog (replaceCr (replaceCrlf text)) = sanitizeForLog text := by
  simp only [sanitizeForLog, replace_eq_self (carriageReturn_not_mem_replaceCr _)]

theorem log_streamLoop (readyBanner : Option Text) (inputs : List MonitorInput) :
    let stream := (streamLoop readyBanner {} inputs).2
    stream.log ++ encode (decode stream.pending) = encode (decode stream.stdout) := by
  intro stream
  have hempty : Logged {} := ⟨by simp, by simp [encode]⟩
  have hlogged : Logged stream := hempty.streamLoop readyBanner inputs
  rw [hlogged.log, hlogged.pending, ← encode_append]
  exact congrArg encode (Decoder.decode_eq stream.stdout).symm

theorem normalizeLogFile_encode (text : Text) :
    normalizeLogFile (encode text) = encode (sanitizeForLog text) := by
  rw [normalizeLogFile, readText_encode, sanitizeForLog_replace]

section Log

variable {readyBanner : Option Text} {inputs : List MonitorInput} {process : MonitorProcess}

theorem log_of_ok {result : MonitorResult}
    (h : (streamMonitorBytes readyBanner inputs process).outcome = .ok result) :
    (streamMonitorBytes readyBanner inputs process).log =
      encode (sanitizeForLog (decode (streamMonitorBytes readyBanner inputs process).stdout)) := by
  have hlog := log_streamLoop readyBanner inputs
  unfold streamMonitorBytes at h ⊢
  generalize streamLoop readyBanner {} inputs = loop at h hlog ⊢
  obtain ⟨raised, stream⟩ := loop
  dsimp only at h hlog ⊢
  rw [hlog] at h ⊢
  generalize (terminateProcessGroup process).2 = ended at h ⊢
  cases ended with
  | error err => cases h
  | ok returncode =>
    cases raised with
    | true => cases h
    | false => exact normalizeLogFile_encode _

theorem log_of_error {err : MonitorError}
    (h : (streamMonitorBytes readyBanner inputs process).outcome = .error err) :
    (streamMonitorBytes readyBanner inputs process).log =
      encode (decode (streamMonitorBytes readyBanner inputs process).stdout) := by
  have hlog := log_streamLoop readyBanner inputs
  unfold streamMonitorBytes at h ⊢
  generalize streamLoop readyBanner {} inputs = loop at h hlog ⊢
  obtain ⟨raised, stream⟩ := loop
  dsimp only at h hlog ⊢
  rw [hlog] at h ⊢
  generalize (terminateProcessGroup process).2 = ended at h ⊢
  cases ended with
  | error err => rfl
  | ok returncode =>
    cases raised with
    | true => rfl
    | false => cases h

end Log

/-- **The log.** However the bytes were cut into chunks, and wherever a chunk cut a character, the
log file is the text of the bytes that were copied to the standard output: cleaned if the function
returns, and as it is if it raises. -/
theorem log_streamMonitorBytes (readyBanner : Option Text) (inputs : List MonitorInput)
    (process : MonitorProcess) :
    let run := streamMonitorBytes readyBanner inputs process
    run.log = match run.outcome with
      | .ok _ => encode (sanitizeForLog (decode run.stdout))
      | .error _ => encode (decode run.stdout) := by
  intro run
  cases houtcome : run.outcome with
  | ok result => exact log_of_ok houtcome
  | error err => exact log_of_error houtcome

/-! ## The verdict -/

/-- The rounds as the detection sees them: the bytes of a chunk enter as the text that is decided
with them. -/
def decodeRounds : List UInt8 → List MonitorInput → List MonitorRound
  | _, [] => []
  | pending, .deadline :: inputs => .deadline :: decodeRounds pending inputs
  | pending, .idle exited :: inputs => .idle exited :: decodeRounds pending inputs
  | pending, .closed :: inputs => .closed :: decodeRounds pending inputs
  | _, .failed :: _ => []
  | pending, .chunk bytes :: inputs =>
    let (text, pending) := decoder.drain (pending ++ bytes)
    .chunk text :: decodeRounds pending inputs

/-- The loop over bytes decides what `monitorLoop` decides on the decoded rounds. -/
theorem result_streamLoop (readyBanner : Option Text) (stream : MonitorStream)
    (inputs : List MonitorInput) : (streamLoop readyBanner stream inputs).2.result =
      monitorLoop readyBanner stream.searchBuffer stream.result
        (decodeRounds stream.pending inputs) := by
  induction inputs generalizing stream with
  | nil => rfl
  | cons input inputs ih =>
    cases input with
    | deadline => rfl
    | idle exited =>
      cases exited with
      | true => rfl
      | false => exact ih stream
    | closed => rfl
    | failed => rfl
    | chunk bytes =>
      rcases hdrain : decoder.drain (stream.pending ++ bytes) with ⟨text, pending⟩
      rcases hupdate : updateState stream.searchBuffer text readyBanner stream.result with
        ⟨searchBuffer, result⟩
      have htake := takeChunk_eq hdrain hupdate
      rw [streamLoop, decodeRounds, hdrain, htake]
      dsimp only
      rw [monitorLoop, hupdate]
      dsimp only
      split_ifs
      · rfl
      · exact ih _

/-- **Refinement.** A run over bytes returns if and only if no read that it came to has failed and
the process has ended or is gone, and what it returns is what the detection returns on the decoded
rounds. -/
theorem stream_monitor_refines (readyBanner : Option Text) (inputs : List MonitorInput)
    (process : MonitorProcess) (result : MonitorResult) :
    (streamMonitorBytes readyBanner inputs process).outcome = .ok result ↔
      (streamLoop readyBanner {} inputs).1 = false ∧ ∃ returncode,
        (terminateProcessGroup process).2 = .ok returncode ∧
        streamMonitor readyBanner (decodeRounds [] inputs) returncode = result := by
  have hloop := result_streamLoop readyBanner {} inputs
  unfold streamMonitorBytes streamMonitor
  rcases hstream : streamLoop readyBanner {} inputs with ⟨raised, stream⟩
  rw [hstream] at hloop
  rw [← hloop]
  generalize (terminateProcessGroup process).2 = ended
  cases ended with
  | error err => simp
  | ok returncode =>
    cases raised with
    | true => simp
    | false => simp

/-- The detection was fed with the text on the standard output, in texts that are short enough. -/
def Fed (n : ℕ) (readyBanner : Option Text) (stream : MonitorStream) : Prop :=
  ∃ texts : List Text, texts.flatten = (decoder.drain stream.stdout).1 ∧
    (∀ text ∈ texts, text.length ≤ n + 3) ∧
    feed readyBanner texts = (stream.searchBuffer, { stream.result with timedOut := false })

theorem feed_concat (readyBanner : Option Text) (texts : List Text) (text : Text) :
    feed readyBanner (texts ++ [text]) =
      updateState (feed readyBanner texts).1 text readyBanner (feed readyBanner texts).2 := by
  unfold feed
  rw [List.foldl_append]
  rfl

theorem Fed.takeChunk {n : ℕ} {readyBanner : Option Text} {stream : MonitorStream}
    (h : Fed n readyBanner stream) (hlogged : Logged stream) {bytes : List UInt8}
    (hbytes : bytes.length ≤ n) : Fed n readyBanner (takeChunk readyBanner bytes stream) := by
  obtain ⟨texts, hflatten, hlength, hfeed⟩ := h
  have hdrain := Decoder.drain_append (d := decoder) stream.stdout bytes
  rw [← hlogged.pending] at hdrain
  have hpending : stream.pending.length ≤ 3 := by
    rw [hlogged.pending]
    exact length_le_of_next (Decoder.next_drain (d := decoder) stream.stdout)
  refine ⟨texts ++ [(decoder.drain (stream.pending ++ bytes)).1], ?_, ?_, ?_⟩
  · show _ = (decoder.drain (stream.stdout ++ bytes)).1
    rw [List.flatten_append, hflatten, hdrain]
    simp
  · rintro text htext
    rcases List.mem_append.mp htext with htext | htext
    · exact hlength text htext
    · rw [List.mem_singleton.mp htext]
      have := Decoder.length_drain (d := decoder) (stream.pending ++ bytes)
      rw [List.length_append] at this
      omega
  · rw [feed_concat, hfeed, updateState_eq]
    unfold EmbeddedInsDaq.takeChunk
    dsimp only
    rw [updateState_eq]

theorem Fed.streamLoop {n : ℕ} {readyBanner : Option Text} {stream : MonitorStream}
    (h : Fed n readyBanner stream) (hlogged : Logged stream) {inputs : List MonitorInput}
    (hinputs : ∀ bytes, .chunk bytes ∈ inputs → bytes.length ≤ n) :
    Fed n readyBanner (streamLoop readyBanner stream inputs).2 := by
  refine (streamLoop_invariant (P := fun stream => Fed n readyBanner stream ∧ Logged stream)
    ?_ ?_ stream ⟨h, hlogged⟩).1
  · rintro stream bytes hbytes ⟨hfed, hlogged⟩
    exact ⟨hfed.takeChunk hlogged (hinputs bytes hbytes), hlogged.takeChunk readyBanner bytes⟩
  · rintro stream ⟨hfed, hlogged⟩
    exact ⟨hfed, hlogged.pending, hlogged.log⟩

theorem seenIn_infix_iff {test : Text → Bool} {needles : List Text}
    (htest : ∀ window, test window = true ↔ ∃ needle ∈ needles, needle <:+: window)
    {chunks : List Text} (hneedles : ∀ needle ∈ needles, needle ≠ [] ∧
      ∀ chunk ∈ chunks, chunk.length + needle.length ≤ searchBufferLength + 1) :
    seenIn test chunks = true ↔ ∃ needle ∈ needles, needle <:+: chunks.flatten := by
  rw [seenIn_iff]
  simp only [htest]
  constructor
  · rintro ⟨pre, hpre, needle, hneedle, hseen⟩
    exact ⟨needle, hneedle, hseen.trans (searchWindow_infix_flatten hpre)⟩
  · rintro ⟨needle, hneedle, hoccurs⟩
    obtain ⟨hne, hfits⟩ := hneedles needle hneedle
    obtain ⟨pre, hpre, hseen⟩ := (infix_flatten_iff hne hfits).mp hoccurs
    exact ⟨pre, hpre, needle, hneedle, hseen⟩

section Verdict

variable {n : ℕ} {stream : MonitorStream}

theorem Fed.readySeen_iff {banner : Text} (h : Fed n (some banner) stream) (hbanner : banner ≠ [])
    (hvalid : '\ufffd' ∉ banner) (hlength : n + 3 + banner.length ≤ searchBufferLength + 1) :
    stream.result.readySeen = true ↔ encode banner <:+: stream.stdout := by
  obtain ⟨texts, hflatten, htexts, hfeed⟩ := h
  have hseen : stream.result.readySeen = seenIn (bannerIn (some banner)) texts := by
    rw [feed_eq] at hfeed
    exact (congrArg (fun r : Text × MonitorResult => r.2.readySeen) hfeed).symm
  have hneedles : ∀ needle ∈ [banner], needle ≠ [] ∧
      ∀ chunk ∈ texts, chunk.length + needle.length ≤ searchBufferLength + 1 := by
    intro needle hneedle
    rw [List.mem_singleton.mp hneedle]
    exact ⟨hbanner, fun chunk hchunk => by have := htexts chunk hchunk; omega⟩
  rw [hseen, seenIn_infix_iff (fun window => by simp [bannerIn_some hbanner]) hneedles, hflatten]
  simp [infix_drain_iff hbanner hvalid]

theorem Fed.panicSeen_iff {readyBanner : Option Text} (h : Fed n readyBanner stream)
    (hlength : n + 24 ≤ searchBufferLength + 1) :
    stream.result.panicSeen = true ↔
      ∃ needle ∈ panicLiterals, encode needle <:+: stream.stdout := by
  obtain ⟨texts, hflatten, htexts, hfeed⟩ := h
  have hseen : stream.result.panicSeen = seenIn panicPattern.search texts := by
    rw [feed_eq] at hfeed
    exact (congrArg (fun r : Text × MonitorResult => r.2.panicSeen) hfeed).symm
  have hliterals : ∀ needle ∈ panicLiterals,
      needle ≠ [] ∧ needle.length ≤ 21 ∧ '\ufffd' ∉ needle := by decide
  have hneedles : ∀ needle ∈ panicLiterals, needle ≠ [] ∧
      ∀ chunk ∈ texts, chunk.length + needle.length ≤ searchBufferLength + 1 := by
    intro needle hneedle
    obtain ⟨hne, hshort, -⟩ := hliterals needle hneedle
    exact ⟨hne, fun chunk hchunk => by have := htexts chunk hchunk; omega⟩
  rw [hseen, seenIn_infix_iff (fun _ => search_panicPattern) hneedles, hflatten]
  apply exists_congr
  intro needle
  apply and_congr_right
  intro hneedle
  obtain ⟨hne, -, hvalid⟩ := hliterals needle hneedle
  exact infix_drain_iff hne hvalid stream.stdout

end Verdict

theorem monitorExitCode_eq_zero_iff {banner : Text} (hbanner : banner ≠ [])
    (result : MonitorResult) :
    monitorExitCode result (some banner) = 0 ↔ result.readySeen = true := by
  unfold monitorExitCode gdbstubExitCode
  split_ifs <;> simp_all

section Chunks

variable {banner : Text} {inputs : List MonitorInput}
  (hinputs : ∀ bytes, .chunk bytes ∈ inputs → bytes.length ≤ monitorChunkBytes)
include hinputs

theorem fed_streamLoop : Fed monitorChunkBytes (some banner)
    (streamLoop (some banner) {} inputs).2 := by
  have hempty : Fed monitorChunkBytes (some banner) {} := ⟨[], by simp, by simp, rfl⟩
  exact hempty.streamLoop ⟨by simp, by simp [encode]⟩ hinputs

theorem readySeen_iff_bytes (hbanner : banner ≠ []) (hvalid : '\ufffd' ∉ banner)
    (hlength : banner.length ≤ 12286) (process : MonitorProcess) {result : MonitorResult}
    (hresult : (streamMonitorBytes (some banner) inputs process).outcome = .ok result) :
    result.readySeen = true ↔
      encode banner <:+: (streamMonitorBytes (some banner) inputs process).stdout := by
  have hfits : monitorChunkBytes + 3 + banner.length ≤ searchBufferLength + 1 := by
    show 4096 + 3 + banner.length ≤ 16384 + 1
    omega
  obtain ⟨returncode, rfl⟩ := exists_of_outcome_eq_ok hresult
  rw [stdout_streamMonitorBytes]
  exact (fed_streamLoop hinputs).readySeen_iff hbanner hvalid hfits

end Chunks

/-- **The verdict is about bytes.** For a banner of at most 12286 characters, none of them U+FFFD,
and chunks that `read_monitor_chunk` can return: a run that returns has seen the banner, or a panic,
exactly if its bytes are among those that were read, and it exits with 0 exactly if the banner's
are. -/
theorem monitor_exit_code_bytes {banner : Text} (hbanner : banner ≠ []) (hvalid : '\ufffd' ∉ banner)
    (hlength : banner.length ≤ 12286) {inputs : List MonitorInput}
    (hinputs : ∀ bytes, .chunk bytes ∈ inputs → bytes.length ≤ monitorChunkBytes)
    (process : MonitorProcess) {result : MonitorResult}
    (hresult : (streamMonitorBytes (some banner) inputs process).outcome = .ok result) :
    let stdout := (streamMonitorBytes (some banner) inputs process).stdout
    (result.readySeen = true ↔ encode banner <:+: stdout) ∧
    (result.panicSeen = true ↔ ∃ needle ∈ panicLiterals, encode needle <:+: stdout) ∧
    (monitorExitCode result (some banner) = 0 ↔ encode banner <:+: stdout) := by
  have hready := readySeen_iff_bytes hinputs hbanner hvalid hlength process hresult
  refine ⟨hready, ?_, (monitorExitCode_eq_zero_iff hbanner _).trans hready⟩
  obtain ⟨returncode, rfl⟩ := exists_of_outcome_eq_ok hresult
  rw [stdout_streamMonitorBytes]
  exact (fed_streamLoop hinputs).panicSeen_iff (by decide)

/-- A banner of one character, cut into its two bytes. -/
theorem monitor_exit_code_bytes_cut : ∃ result,
    (streamMonitorBytes (some ['\xe9']) [.chunk [0xc3], .chunk [0xa9]]
      ⟨none, fun _ => .exits (-2)⟩).outcome = .ok result ∧
    monitorExitCode result (some ['\xe9']) = 0 := by
  have hfirst : takeChunk (some ['\xe9']) [0xc3] {} = { pending := [0xc3], stdout := [0xc3] } :=
    takeChunk_eq (Decoder.drain_of_none rfl) (by decide)
  have hunseen : ¬MonitorResult.seen {} = true := by decide
  have hloop : (streamLoop (some ['\xe9']) {} [.chunk [0xc3], .chunk [0xa9]]).1 = false ∧
      (streamLoop (some ['\xe9']) {} [.chunk [0xc3], .chunk [0xa9]]).2.stdout = [0xc3, 0xa9] := by
    rw [streamLoop, hfirst]
    dsimp only
    rw [if_neg hunseen, streamLoop]
    split_ifs
    · exact ⟨rfl, rfl⟩
    · exact ⟨rfl, rfl⟩
  have houtcome : (streamMonitorBytes (some ['\xe9']) [.chunk [0xc3], .chunk [0xa9]]
      ⟨none, fun _ => .exits (-2)⟩).outcome = _ := outcome_streamMonitorBytes hloop.1 rfl
  refine ⟨_, houtcome, (monitor_exit_code_bytes (by decide) (by decide) (by decide)
    (by simp [monitorChunkBytes]) _ houtcome).2.2.mpr ?_⟩
  rw [stdout_streamMonitorBytes, hloop.2]
  decide

end EmbeddedInsDaq
