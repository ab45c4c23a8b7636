import EmbeddedInsDaq.Lib.Json
import EmbeddedInsDaq.Tools.RunCase

/-!
# A test case on the firmware

Both ends of the serial line: what `app_main` logs, and what `run_case` makes of the bytes that
arrive. `ESP_LOG` puts the level, the time and the tag in front of a text, and other lines come in
between. All the same the exit code of a case tells how the boot went (`run_case_boot`).
-/

namespace EmbeddedInsDaq

open Utf8

/-! ## The device -/

/-- A line on the serial line: one that the boot logs, with what `ESP_LOG` puts in front of the tag
and behind the text, or one of the bootloader, the health task or the panic handler. -/
inductive SerialLine
  | log (line : LogLine) (head tail : Text)
  | other (text : Text)

/-- The text of a line. -/
def SerialLine.text : SerialLine → Text
  | .log line head tail =>
    let (_, tag, text) := line.render
    head ++ (tag.toList ++ ": ".toList ++ text.toList) ++ tail
  | .other text => text

/-- The line that was logged, if it is one. -/
def SerialLine.logged : SerialLine → Option LogLine
  | .log line _ _ => some line
  | .other _ => none

/-- What the device writes. -/
def serialText (lines : List SerialLine) : Text := lines.flatMap fun line => line.text ++ ['\n']

/-- The lines are those of a log, in its order, and others that speak of no case. What `ESP_LOG`
adds, the color, the level and the time, has no `Y` in it. -/
structure Transcript (lines : List SerialLine) (log : List LogLine) : Prop where
  logged : lines.filterMap SerialLine.logged = log
  framed : ∀ line head tail, .log line head tail ∈ lines → 'Y' ∉ head ∧ 'Y' ∉ tail
  others : ∀ text, .other text ∈ lines → ¬"READY: ".toList <:+: text

/-! ## The banner -/

theorem infix_serialText_iff {text : Text} (hne : text ≠ []) (hline : '\n' ∉ text)
    {lines : List SerialLine} :
    text <:+: serialText lines ↔ ∃ line ∈ lines, text <:+: line.text := by
  induction lines with
  | nil => simp [serialText, hne]
  | cons line lines ih =>
    have hcons : serialText (line :: lines) = line.text ++ '\n' :: serialText lines := by
      simp [serialText]
    rw [hcons, infix_append_cons_iff hline, ih, List.exists_mem_cons_iff]

theorem not_mem_toString (n : ℕ) : 'Y' ∉ (toString n).toList := fun h =>
  absurd (Json.isDigit_of_mem_toString h) (by decide)

theorem not_mem_errorMessage (error : RuntimeConfigError) :
    'Y' ∉ (runtimeConfigErrorMessage error).toList := by
  cases error <;> simp [runtimeConfigErrorMessage]

/-- Only the lines about cases have a `Y` in them. -/
theorem not_mem_render {line : LogLine} (h : ∀ caseName, line ≠ .ready caseName) :
    'Y' ∉ line.render.2.1.toList ++ ": ".toList ++ line.render.2.2.toList := by
  cases line with
  | configInvalid error => simp [LogLine.render, not_mem_errorMessage]
  | ready caseName => exact absurd rfl (h caseName)
  | freeHeap bytes =>
    have hbytes := not_mem_toString bytes
    simpa [LogLine.render] using hbytes
  | probePassed lastSampleUs =>
    have hsample : 'Y' ∉ (toString lastSampleUs).toList := not_mem_toString lastSampleUs.toNat
    simpa [LogLine.render] using hsample
  | isrPassed isrSamples lastIsrUs =>
    have hsamples : 'Y' ∉ (toString isrSamples).toList := not_mem_toString isrSamples.toNat
    have htime : 'Y' ∉ (toString lastIsrUs).toList := not_mem_toString lastIsrUs.toNat
    simpa [LogLine.render] using And.intro hsamples htime
  | isrTimedOut isrSamples =>
    have hsamples : 'Y' ∉ (toString isrSamples).toList := not_mem_toString isrSamples.toNat
    simpa [LogLine.render] using hsamples
  | _ => simp [LogLine.render, clockBackendName, boardName, boardConsolePathName]

/-- The banner of a case. -/
abbrev caseBanner (caseName : String) : Text := (LogLine.ready caseName).render.2.2.toList

theorem caseBanner_eq (caseName : String) :
    caseBanner caseName = "READ".toList ++ 'Y' :: (": ".toList ++ caseName.toList) := by
  simp [caseBanner, LogLine.render]

theorem text_ready (caseName : String) (head tail : Text) :
    (SerialLine.log (.ready caseName) head tail).text =
      head ++ ("runtime_banner".toList ++ ": ".toList ++ caseBanner caseName) ++ tail := rfl

/-- A line about one case has the banner of no other one: its only `Y` would be that of the banner,
and the names start with different letters. -/
theorem eq_of_infix_ready {head tail : Text} (hhead : 'Y' ∉ head) (htail : 'Y' ∉ tail)
    {caseName other : String} (hcase : caseName ∈ AppMain.bootCases)
    (hother : other ∈ AppMain.bootCases)
    (h : caseBanner caseName <:+: (SerialLine.log (.ready other) head tail).text) :
    other = caseName := by
  have hnames : ∀ name ∈ AppMain.bootCases, 'Y' ∉ name.toList := by decide
  obtain ⟨pre, post, hsplit⟩ := h
  rw [text_ready, caseBanner_eq, caseBanner_eq] at hsplit
  have hanchor : (head ++ "runtime_banner: READ".toList) ++
        'Y' :: (": ".toList ++ other.toList ++ tail) =
      (pre ++ "READ".toList) ++ 'Y' :: (": ".toList ++ caseName.toList ++ post) := by
    simpa using hsplit.symm
  have hfront : 'Y' ∉ head ++ "runtime_banner: READ".toList := by simpa using hhead
  have hback : 'Y' ∉ ": ".toList ++ other.toList ++ tail := by
    simp [hnames other hother, htail]
  obtain ⟨-, -, hrest⟩ := (List.append_cons_inj_of_notMem hfront hback).mp hanchor
  simp only [AppMain.bootCases, List.mem_cons, List.not_mem_nil, or_false] at hcase hother
  rcases hcase with rfl | rfl <;> rcases hother with rfl | rfl
  · rfl
  · simp at hrest
  · simp at hrest
  · rfl

theorem infix_log_iff {line : LogLine} {head tail : Text} (hhead : 'Y' ∉ head) (htail : 'Y' ∉ tail)
    {caseName : String} (hcase : caseName ∈ AppMain.bootCases)
    (hcases : ∀ other, line = .ready other → other ∈ AppMain.bootCases) :
    caseBanner caseName <:+: (SerialLine.log line head tail).text ↔ line = .ready caseName := by
  constructor
  · intro h
    by_cases hready : ∃ other, line = .ready other
    · obtain ⟨other, rfl⟩ := hready
      rw [eq_of_infix_ready hhead htail hcase (hcases other rfl) h]
    · have hline := not_mem_render (not_exists.mp hready)
      have hmem : 'Y' ∈ (SerialLine.log line head tail).text :=
        h.subset (by simp [caseBanner_eq])
      exact absurd hmem (by simpa [SerialLine.text, hhead, htail] using hline)
  · rintro rfl
    rw [text_ready]
    exact ⟨head ++ ("runtime_banner".toList ++ ": ".toList), tail, by simp only [List.append_assoc]⟩

theorem Transcript.infix_iff {lines : List SerialLine} {log : List LogLine}
    (h : Transcript lines log) (hlog : ∀ other, .ready other ∈ log → other ∈ AppMain.bootCases)
    {caseName : String} (hcase : caseName ∈ AppMain.bootCases) :
    caseBanner caseName <:+: serialText lines ↔ .ready caseName ∈ log := by
  have hlines : ∀ name ∈ AppMain.bootCases, '\n' ∉ caseBanner name := by decide
  have hne : caseBanner caseName ≠ [] := by simp [caseBanner_eq]
  have hmem : ∀ {line}, line ∈ log ↔ ∃ head tail, .log line head tail ∈ lines := by
    intro line
    rw [← h.logged, List.mem_filterMap]
    constructor
    · rintro ⟨_ | _, hline, hlogged⟩
      · cases hlogged
        exact ⟨_, _, hline⟩
      · cases hlogged
    · rintro ⟨head, tail, hline⟩
      exact ⟨_, hline, rfl⟩
  rw [infix_serialText_iff hne (hlines caseName hcase)]
  constructor
  · rintro ⟨line, hline, hoccurs⟩
    cases line with
    | log line head tail =>
      obtain ⟨hhead, htail⟩ := h.framed line head tail hline
      have hlogged : line ∈ log := hmem.mpr ⟨head, tail, hline⟩
      rwa [← (infix_log_iff hhead htail hcase fun other hready => hlog other (hready ▸ hlogged)).mp
        hoccurs]
    | other text =>
      have hready : "READY: ".toList <:+: caseBanner caseName :=
        ⟨[], caseName.toList, by simp [caseBanner_eq]⟩
      exact absurd (hready.trans hoccurs) (h.others text hline)
  · intro hready
    obtain ⟨head, tail, hline⟩ := hmem.mp hready
    obtain ⟨hhead, htail⟩ := h.framed _ head tail hline
    exact ⟨_, hline, (infix_log_iff hhead htail hcase fun other hsame =>
      hlog other (hsame ▸ hready)).mpr rfl⟩

/-! ## The host -/

/-- The bytes that the loop reads if nothing that it sees ends it. -/
def received : List MonitorInput → List UInt8
  | .chunk bytes :: inputs => bytes ++ received inputs
  | .idle false :: inputs => received inputs
  | _ => []

/-- The loop reads all bytes, or it stops because it has seen something. -/
theorem stdout_streamLoop (readyBanner : Option Text) (stream : MonitorStream)
    (inputs : List MonitorInput) :
    let final := (streamLoop readyBanner stream inputs).2
    final.stdout <+: stream.stdout ++ received inputs ∧
      (final.result.seen = true ∨ final.stdout = stream.stdout ++ received inputs) := by
  induction inputs generalizing stream with
  | nil => simp [streamLoop, received]
  | cons input inputs ih =>
    cases input with
    | deadline => simp [streamLoop, received]
    | idle exited =>
      cases exited with
      | true => simp [streamLoop, received]
      | false => exact ih stream
    | closed => simp [streamLoop, received]
    | failed => simp [streamLoop, received]
    | chunk bytes =>
      have hnext := ih (takeChunk readyBanner bytes stream)
      rw [stdout_takeChunk, List.append_assoc] at hnext
      rw [streamLoop]
      split_ifs with hseen
      · refine ⟨?_, .inl hseen⟩
        rw [stdout_takeChunk, received, ← List.append_assoc]
        exact List.prefix_append _ _
      · exact hnext

theorem not_raised_of_not_mem {readyBanner : Option Text} {stream : MonitorStream}
    {inputs : List MonitorInput} (h : .failed ∉ inputs) :
    (streamLoop readyBanner stream inputs).1 = false := by
  induction inputs generalizing stream with
  | nil => rfl
  | cons input inputs ih =>
    obtain ⟨hinput, hinputs⟩ := not_or.mp (mt List.mem_cons.mpr h)
    cases input with
    | deadline => rfl
    | idle exited =>
      cases exited with
      | true => rfl
      | false => exact ih hinputs
    | closed => rfl
    | failed => exact absurd rfl hinput
    | chunk bytes =>
      rw [streamLoop]
      split_ifs
      · rfl
      · exact ih hinputs

/-- A text in which the monitor finds no panic and no stub: not its message, and no packet. -/
structure Quiet (text : Text) : Prop where
  panic : ∀ needle ∈ panicLiterals, ¬needle <:+: text
  packet : ∀ w, gdbstubPacket.Matches [] w → ¬w <:+: text
  stub : ¬"Entering gdb stub now.".toList <:+: text

theorem Quiet.search_gdbstubPattern {text window : Text} (h : Quiet text)
    (hwindow : window <:+: text) : gdbstubPattern.search window = false := by
  have hpacket : ∀ w, gdbstubPacket.Matches [] w → ¬w <:+: window := fun w hw hoccurs =>
    h.packet w hw (hoccurs.trans hwindow)
  rw [Bool.eq_false_iff]
  intro hsearch
  rcases EmbeddedInsDaq.search_gdbstubPattern.mp hsearch with
    ⟨packet, back, rfl, hmatches⟩ | ⟨output, houtput, hoccurs⟩
  · exact hpacket packet hmatches (List.prefix_append _ _).isInfix
  · rcases houtput with rfl | ⟨packet, hmatches, rfl | rfl⟩
    · exact h.stub (hoccurs.trans hwindow)
    · exact hpacket packet hmatches ((List.suffix_cons _ _).isInfix.trans hoccurs)
    · exact hpacket packet hmatches ((List.suffix_cons _ _).isInfix.trans hoccurs)

theorem Fed.gdbstubSeen_eq_false {n : ℕ} {readyBanner : Option Text} {stream : MonitorStream}
    (h : Fed n readyBanner stream) {text : Text} (hquiet : Quiet text)
    (hread : (decoder.drain stream.stdout).1 <+: text) : stream.result.gdbstubSeen = false := by
  obtain ⟨texts, hflatten, -, hfeed⟩ := h
  have hseen : stream.result.gdbstubSeen = seenIn gdbstubPattern.search texts := by
    rw [feed_eq] at hfeed
    exact (congrArg (fun r : Text × MonitorResult => r.2.gdbstubSeen) hfeed).symm
  rw [hseen, Bool.eq_false_iff]
  intro hfound
  obtain ⟨pre, hpre, hsearch⟩ := seenIn_iff.mp hfound
  have hwindow := (searchWindow_infix_flatten hpre).trans (hflatten ▸ hread.isInfix)
  exact Bool.false_ne_true ((hquiet.search_gdbstubPattern hwindow).symm.trans hsearch)

/-! ## Both ends -/

/-- The host does its part: the checks pass and the directories are made, flashing goes well, all
bytes are read in chunks that `read_monitor_chunk` can return, no read fails, the monitor process
ends, and the link is moved. -/
structure Attended (args : RunCaseArgs) (env : RunCaseEnv) (bytes : List UInt8) : Prop where
  checked : ∃ port, Checked args env port
  flashed : env.flashReturncode = 0
  received : received env.inputs = bytes
  chunks : ∀ chunk, .chunk chunk ∈ env.inputs → chunk.length ≤ monitorChunkBytes
  reads : .failed ∉ env.inputs
  ended : ∃ returncode, (terminateProcessGroup env.process).2 = .ok returncode
  linked : updateLatestLink env.latestPath = .ok ()

section Attended

variable {args : RunCaseArgs} {env : RunCaseEnv} {text : Text}

theorem Attended.stdout (h : Attended args env (encode text)) :
    (monitorRead args env).stdout <+: encode text := by
  have hread := (stdout_streamLoop (some args.banner) {} env.inputs).1
  rw [h.received] at hread
  rw [monitorRead, stdout_streamMonitorBytes]
  exact hread

theorem Attended.infix_stdout (h : Attended args env (encode text)) (hquiet : Quiet text)
    (hvalid : '\ufffd' ∉ args.banner) (hlength : args.banner.length ≤ 12286)
    (hbanner : args.banner <:+: text) : encode args.banner <:+: (monitorRead args env).stdout := by
  have hprefix := h.stdout
  have hfed : Fed monitorChunkBytes (some args.banner) _ := fed_streamLoop h.chunks
  rw [monitorRead, stdout_streamMonitorBytes] at hprefix ⊢
  rcases (stdout_streamLoop (some args.banner) {} env.inputs).2 with hseen | hall
  · have hpanic : (streamLoop (some args.banner) {} env.inputs).2.result.panicSeen = false := by
      rw [Bool.eq_false_iff]
      intro hpanic
      obtain ⟨needle, hneedle, hoccurs⟩ := (hfed.panicSeen_iff (by decide)).mp hpanic
      have hliterals : ∀ needle ∈ panicLiterals, needle ≠ [] ∧ '\ufffd' ∉ needle := by decide
      obtain ⟨hne, hneedleValid⟩ := hliterals needle hneedle
      exact hquiet.panic needle hneedle
        ((infix_encode_iff hne hneedleValid).mp (hoccurs.trans hprefix.isInfix))
    have hstub := hfed.gdbstubSeen_eq_false hquiet (drain_prefix_text hprefix)
    have hready : (streamLoop (some args.banner) {} env.inputs).2.result.readySeen = true := by
      rw [MonitorResult.seen, hpanic, hstub, Bool.or_false, Bool.or_false] at hseen
      exact hseen
    have hfits : monitorChunkBytes + 3 + args.banner.length ≤ searchBufferLength + 1 := by
      show 4096 + 3 + args.banner.length ≤ 16384 + 1
      omega
    exact (hfed.readySeen_iff args.banner_ne_nil hvalid hfits).mp hready
  · rw [hall, List.nil_append, h.received]
    exact (infix_encode_iff args.banner_ne_nil hvalid).mpr hbanner

theorem Attended.runCaseMain_eq_zero_iff (h : Attended args env (encode text))
    (hquiet : args.banner <:+: text → Quiet text) (hvalid : '\ufffd' ∉ args.banner)
    (hlength : args.banner.length ≤ 12286) :
    (runCaseMain args env).1 = 0 ↔ args.banner <:+: text := by
  rw [EmbeddedInsDaq.runCaseMain_eq_zero_iff hvalid hlength h.chunks]
  constructor
  · rintro ⟨-, -, -, hread, -⟩
    exact (infix_encode_iff args.banner_ne_nil hvalid).mp (hread.trans h.stdout.isInfix)
  · intro hbanner
    obtain ⟨returncode, hended⟩ := h.ended
    exact ⟨h.checked, h.flashed,
      ⟨_, outcome_streamMonitorBytes (not_raised_of_not_mem h.reads) hended⟩,
      h.infix_stdout (hquiet hbanner) hvalid hlength hbanner, h.linked⟩

end Attended

section Boot

open AppMain

variable {δ Handle Ptr : Type*} [DecidableEq Handle] [DecidableEq Ptr]
  {driver : GptimerDriver δ Handle (GptimerEventCallbacks Ptr) Ptr}
  {fsm : δ → Handle → Option GptimerFsm}
  {registered : δ → Handle → Option (GptimerEventCallbacks Ptr × Option Ptr)}

/-- **From the boot to the exit code.** The firmware boots, whatever the driver, the timer and the
alarms do, and the host reads what it writes, however the bytes are cut. Unless the boot is aborted
the device writes nothing that looks like a panic. Then the case `platform_smoke` exits with 0
exactly if the clock does not start negative and the smoke timer starts, and the case
`clock_monotonicity` exactly if, besides, the clock does not step back and one of the attempts finds
the interrupt ready. -/
theorem run_case_boot (hd : driver.Lawful fsm) (hr : driver.Registers registered) {d : δ}
    (hnone : ∀ h, fsm d h = none) (memory : Ptr → ClockSmokeIsrState) (env : BootEnv Handle)
    (p : Ptr) {lines : List SerialLine} {args : RunCaseArgs} {host : RunCaseEnv}
    (hlines : Transcript lines
      (appMain driver fsm registered env p (ClockSmoke.boot memory d)).log)
    (hquiet : (appMain driver fsm registered env p (ClockSmoke.boot memory d)).aborted = none →
      Quiet (serialText lines))
    (hhost : Attended args host (encode (serialText lines))) (hbanner : args.readyBanner = none) :
    let boot := appMain driver fsm registered env p (ClockSmoke.boot memory d)
    (args.case = "platform_smoke" → ((runCaseMain args host).1 = 0 ↔
      ¬env.espTimer 0 < 0 ∧ ClockSmoke.DriverSucceeds driver p d)) ∧
    (args.case = "clock_monotonicity" → ((runCaseMain args host).1 = 0 ↔
      ∃ h, boot.clock.isrSmokeTimer = some h ∧ ClockHolds env ∧
        ∃ attempt < kClockSmokeMaxAttempts, ReadyAt env h attempt)) := by
  intro boot
  have hcases := ready_cases hd hr hnone memory env p
  have hexit : args.case ∈ bootCases →
      ((runCaseMain args host).1 = 0 ↔ .ready args.case ∈ boot.log) := by
    intro hcase
    have hplain : ∀ name ∈ bootCases,
        '\ufffd' ∉ caseBanner name ∧ (caseBanner name).length ≤ 12286 := by decide
    have hname : args.banner = caseBanner args.case := RunCaseArgs.banner_eq_ready hbanner
    have hiff := hlines.infix_iff (fun other hready => (hcases other hready).1) hcase
    rw [← hname] at hiff
    obtain ⟨hvalid, hlength⟩ := hname ▸ hplain args.case hcase
    exact (hhost.runCaseMain_eq_zero_iff
      (fun hoccurs => hquiet (hcases _ (hiff.mp hoccurs)).2) hvalid hlength).trans hiff
  constructor
  · intro hcase
    rw [hexit (by simp [bootCases, hcase]), hcase]
    exact ready_platform_iff hd hr hnone memory env p
  · intro hcase
    rw [hexit (by simp [bootCases, hcase]), hcase]
    exact ready_clock_iff hd hr hnone memory env p

/-- A boot whose clock steps back. -/
abbrev backwardsBoot :
    BootRun (ScriptedGptimers × (Fin 4 → Option (GptimerEventCallbacks ℕ × Option ℕ))) (Fin 4) ℕ :=
  appMain (ScriptedGptimers.driver _ ℕ).recording (fun d => d.1.fsm) Prod.snd
    ⟨fun reading => 100 - Int64.ofNat reading, fun _ => [], 0⟩ 1
    (ClockSmoke.boot (fun _ => .cleared) (⟨fun _ => none, []⟩, fun _ => none))

/-- What it writes, behind a line of the bootloader. -/
def backwardsLines : List SerialLine :=
  .other "rst:0x1 (POWERON),boot:0x30f (SPI_FAST_FLASH_BOOT)".toList ::
    [.backendReady, .board, .console, .freeHeap 0, .probeFailed, .smokeFailed,
      .ready "platform_smoke"].map fun line => .log line "I (312) ".toList ['\r']

/-- The case passes although the clock steps back. -/
theorem run_case_boot_backwards :
    (runCaseMain smokeArgs (smokeEnv (encode (serialText backwardsLines)))).1 = 0 := by
  have hlines : Transcript backwardsLines backwardsBoot.log := by
    refine ⟨rfl, ?_, ?_⟩
    · intro line head tail hline
      simp only [backwardsLines, List.mem_cons, reduceCtorEq, List.mem_map, false_or,
        SerialLine.log.injEq] at hline
      obtain ⟨_, -, -, rfl, rfl⟩ := hline
      decide
    · intro text htext
      simp only [backwardsLines, List.mem_cons, SerialLine.other.injEq, List.mem_map, reduceCtorEq,
        and_false, exists_false, or_false] at htext
      rw [htext]
      decide +kernel
  have hneedles : ∀ needle ∈ "Entering gdb stub now.".toList :: panicLiterals,
      ¬needle <:+: serialText backwardsLines := by decide +kernel
  have hpacket : '$' ∉ serialText backwardsLines := by
    simp only [serialText, List.mem_flatMap, not_exists, not_and]
    simp [backwardsLines, SerialLine.text, LogLine.render, boardName, boardConsolePathName,
      clockBackendName]
  -- a packet starts with a dollar sign
  have hfree : ∀ w, gdbstubPacket.Matches [] w → ¬w <:+: serialText backwardsLines := by
    intro w hw hoccurs
    obtain ⟨_, _, rfl, hu, -⟩ := Regex.matches_seq_iff.mp hw
    rw [Regex.matches_literal_iff.mp hu] at hoccurs
    exact hpacket (hoccurs.subset List.mem_cons_self)
  have hquiet : Quiet (serialText backwardsLines) :=
    ⟨fun _ hneedle => hneedles _ (List.mem_cons_of_mem _ hneedle), hfree,
      hneedles _ List.mem_cons_self⟩
  have hhost : Attended smokeArgs (smokeEnv (encode (serialText backwardsLines)))
      (encode (serialText backwardsLines)) := by
    refine ⟨⟨_, checked_smokeEnv _⟩, rfl, by simp [smokeEnv, received], ?_, by simp [smokeEnv],
      ⟨_, rfl⟩, rfl⟩
    simp only [smokeEnv, List.mem_singleton, MonitorInput.chunk.injEq, forall_eq]
    decide +kernel
  exact ((run_case_boot (ScriptedGptimers.driver_lawful _ ℕ).recording
    (GptimerDriver.registers_recording _) (fun _ => rfl) (fun _ => .cleared) _ 1 hlines
    (fun _ => hquiet) hhost rfl).1 rfl).mpr ⟨by decide, rfl, rfl, rfl, rfl, rfl, trivial⟩

end Boot

end EmbeddedInsDaq
