import EmbeddedInsDaq.Platform.AppMain
import EmbeddedInsDaq.Tools.DecodePanic
import EmbeddedInsDaq.Tools.StreamMonitor

/-!
# A test case on the device

`run_case` flashes the firmware, runs the monitor until the ready banner of the case comes, and
leaves the log, the decoded addresses and the metadata in a directory of its own. It returns 0
exactly if the flash went well, the bytes of the banner were read and the link to the latest run is
moved (`run_case_exit_code`), and then, as after any other run of the monitor, an address that the
device wrote behind a space is among those that were decoded (`run_case_backtrace`).
-/

namespace EmbeddedInsDaq

open Utf8

/-! ## What a case meets -/

/-- The arguments, with the build directory as `repo_path` resolves it. -/
structure RunCaseArgs where
  case : String
  port : Option Text
  buildDir : Text
  readyBanner : Option Text
  timeout : ℤ

/-- What is at the path of the link to the latest run of a case. The name of the case decides where
that is: with a slash in it the directory of the link may be missing, and `.` is a directory. -/
inductive LatestPath
  | noParent
  | free
  | symlink
  | file
  | directory

/-- What a case meets: whether `idf.py` is in `PATH`, `BOARD_PORT`, whether the build directory is
there, and an ELF file in it; the time, the path of the directory for the case, and whether it and
the one of the links can be made; what flashing returns, what the monitor meets, what
`decode_panic.sh` does, and what is at the path of the link. -/
structure RunCaseEnv where
  idfPy : Bool
  boardPort : Option Text
  buildDir : Bool
  elf : Bool
  timestamp : Text
  runDir : Text
  runDirMade : Bool
  latestRootMade : Bool
  flashReturncode : ℤ
  inputs : List MonitorInput
  process : MonitorProcess
  tool : Bool
  addr2line : List Text → ℕ × Text
  latestPath : LatestPath

/-- What `run_case` raises: a `DeviceRunnerError`, what the monitor raises, or an `OSError` of
`mkdir` or of `update_latest_link`. -/
inductive RunCaseError
  | noIdfPy
  | missingBuildDir (buildDir : Text)
  | noPort
  | mkdir
  | monitor (err : MonitorError)
  | latestLink

/-- The text of a `DeviceRunnerError`. -/
def RunCaseError.message : RunCaseError → Option Text
  | .noIdfPy =>
    some "idf.py is not available in PATH. Run 'source ./tools/setup.sh' first.".toList
  | .missingBuildDir buildDir => some ("Missing build directory: ".toList ++ buildDir)
  | .noPort =>
    some "No serial port configured. Run 'source ./tools/setup.sh' or pass --port.".toList
  | .mkdir | .monitor _ | .latestLink => none

/-- What is in the directory of the case, and whether the link to the latest one was moved. -/
structure RunCaseDir where
  artifacts : Bool := false
  monitorLog : Option (List UInt8) := none
  decodedBacktrace : Option Text := none
  metadata : Option Text := none
  latestLink : Bool := false

/-- What is left of a run: what it returned or raised, the directory if it was made, and the line
that it printed, if any. -/
structure RunCaseRun where
  outcome : Except RunCaseError ℤ
  dir : Option RunCaseDir := none
  printed : Option Text := none

/-! ## The code -/

/-- `a or b`, for texts that may be missing. -/
def orText (a b : Option Text) : Option Text := if a.getD [] ≠ [] then a else b

/-- `resolve_port`. -/
def resolvePort (argPort boardPort : Option Text) : Except RunCaseError Text :=
  match (orText argPort boardPort).getD [] with
  | [] => .error .noPort
  | port => .ok port

/-- `args.ready_banner or f"READY: {case_name}"`. -/
def RunCaseArgs.banner (args : RunCaseArgs) : Text :=
  (orText args.readyBanner (some ("READY: ".toList ++ args.case.toList))).getD []

/-- `write_metadata`. -/
def writeMetadata (values : List (String × Text)) : Text :=
  values.flatMap fun (key, value) => key.toList ++ "=".toList ++ value ++ "\n".toList

/-- The text of `metadata.txt`. -/
def metadata (args : RunCaseArgs) (env : RunCaseEnv) (port : Text) (monitorExitCode : Option ℤ) :
    Text :=
  writeMetadata
    [("case", args.case.toList), ("port", port), ("build_dir", args.buildDir),
      ("ready_banner", args.banner), ("timeout_seconds", (toString args.timeout).toList),
      ("timestamp_utc", env.timestamp),
      ("flash_exit_code", (toString env.flashReturncode).toList),
      ("monitor_exit_code", (monitorExitCode.elim "" toString).toList)]

/-- The line that is printed for an exit code. -/
def exitMessage (args : RunCaseArgs) (runDir : Text) (code : ℤ) : Option Text :=
  let case := "Case ".toList ++ args.case.toList
  let artifacts := ". Artifacts: ".toList ++ runDir
  if code = 0 then some (case ++ " reached ready banner".toList ++ artifacts)
  else if code = 3 then
    some (case ++ " entered GDBStub before the ready banner".toList ++ artifacts)
  else if code = 2 then
    some (case ++ " captured panic output before the ready banner".toList ++ artifacts)
  else if code = 1 then
    some (case ++ " timed out waiting for ready banner \"".toList ++ args.banner ++ "\"".toList ++
      artifacts)
  else none

/-- `decode_panic_log`, behind the monitor: the report, if there is an ELF file to decode with. -/
def decodePanicLog (env : RunCaseEnv) (monitorLog : List UInt8) : Option Text :=
  if env.elf then
    (decodePanic (env.runDir ++ "/embedded_ins_daq.elf".toList)
      (env.runDir ++ "/monitor.log".toList)
      { elf := true, panicLog := some (decode monitorLog), tool := env.tool
        addr2line := env.addr2line }).2
  else none

/-- The run of the monitor. -/
def monitorRead (args : RunCaseArgs) (env : RunCaseEnv) : MonitorRun :=
  streamMonitorBytes (some args.banner) env.inputs env.process

/-- `update_latest_link`, as far as it may raise: `unlink` does not take a directory, and a link
needs one to be in. -/
def updateLatestLink : LatestPath → Except RunCaseError Unit
  | .directory | .noParent => .error .latestLink
  | .free | .symlink | .file => .ok ()

/-- The end of `run_case`: the link, and behind it what is printed and returned. -/
def finishRun (env : RunCaseEnv) (code : ℤ) (dir : RunCaseDir) (printed : Option Text) :
    RunCaseRun :=
  match updateLatestLink env.latestPath with
  | .error err => { outcome := .error err, dir := some dir }
  | .ok () =>
    { outcome := .ok code, dir := some { dir with latestLink := true }, printed := printed }

/-- `run_case`, behind its checks. -/
def runChecked (args : RunCaseArgs) (env : RunCaseEnv) (port : Text) : RunCaseRun :=
  if env.flashReturncode ≠ 0 then
    finishRun env env.flashReturncode
      { artifacts := true, metadata := some (metadata args env port none) } none
  else
    let log := (monitorRead args env).log
    match monitor (some args.banner) env.inputs env.process with
    | .error err =>
      { outcome := .error (.monitor err), dir := some { monitorLog := some log } }
    | .ok code =>
      finishRun env code
        { artifacts := true
          monitorLog := some log
          decodedBacktrace := decodePanicLog env log
          metadata := some (metadata args env port (some code)) }
        (exitMessage args env.runDir code)

/-- `run_case`. -/
def runCase (args : RunCaseArgs) (env : RunCaseEnv) : RunCaseRun :=
  if !env.idfPy then { outcome := .error .noIdfPy }
  else if !env.buildDir then { outcome := .error (.missingBuildDir args.buildDir) }
  else
    match resolvePort args.port env.boardPort with
    | .error err => { outcome := .error err }
    | .ok port =>
      if !env.runDirMade then { outcome := .error .mkdir }
      else if !env.latestRootMade then { outcome := .error .mkdir, dir := some {} }
      else runChecked args env port

/-- `main`, behind the arguments: the line that is printed, and what `sys.exit` is given or the
status of an exception that is not caught, which is 1 too. -/
def runCaseMain (args : RunCaseArgs) (env : RunCaseEnv) : ℤ × Option Text :=
  let run := runCase args env
  match run.outcome with
  | .ok code => (code, run.printed)
  | .error err => (1, err.message.map ("[run-case] ERROR: ".toList ++ ·))

/-! ## The banner -/

theorem orText_ne_nil {a b : Option Text} (h : b.getD [] ≠ []) : (orText a b).getD [] ≠ [] := by
  unfold orText
  split_ifs with ha
  · exact ha
  · exact h

theorem RunCaseArgs.banner_ne_nil (args : RunCaseArgs) : args.banner ≠ [] :=
  orText_ne_nil (List.append_ne_nil_of_left_ne_nil (by decide) _)

/-- Without another banner it is the message that the firmware logs for the case. -/
theorem RunCaseArgs.banner_eq_ready {args : RunCaseArgs} (h : args.readyBanner = none) :
    args.banner = (LogLine.ready args.case).render.2.2.toList := by
  rw [banner, h]
  exact String.toList_append.symm

/-! ## The checks -/

/-- The checks of `run_case` pass, with the port that was resolved, and its directories are made. -/
structure Checked (args : RunCaseArgs) (env : RunCaseEnv) (port : Text) : Prop where
  idfPy : env.idfPy = true
  buildDir : env.buildDir = true
  port : resolvePort args.port env.boardPort = .ok port
  runDirMade : env.runDirMade = true
  latestRootMade : env.latestRootMade = true

/-- How a run ends: the link is moved, or that raises. -/
inductive Finished (env : RunCaseEnv) (code : ℤ) (dir : RunCaseDir) (printed : Option Text) :
    RunCaseRun → Prop
  | moved (hlink : updateLatestLink env.latestPath = .ok ()) :
    Finished env code dir printed
      { outcome := .ok code, dir := some { dir with latestLink := true }, printed := printed }
  | raised (hlink : updateLatestLink env.latestPath = .error .latestLink) :
    Finished env code dir printed { outcome := .error .latestLink, dir := some dir }

theorem finishRun_finished (env : RunCaseEnv) (code : ℤ) (dir : RunCaseDir)
    (printed : Option Text) :
    Finished env code dir printed (finishRun env code dir printed) := by
  unfold finishRun
  cases hpath : env.latestPath with
  | noParent => exact .raised (by rw [hpath]; rfl)
  | free => exact .moved (by rw [hpath]; rfl)
  | symlink => exact .moved (by rw [hpath]; rfl)
  | file => exact .moved (by rw [hpath]; rfl)
  | directory => exact .raised (by rw [hpath]; rfl)

section Finished

variable {env : RunCaseEnv} {code : ℤ} {dir : RunCaseDir} {printed : Option Text}
  {run : RunCaseRun} (h : Finished env code dir printed run)
include h

theorem Finished.outcome :
    run.outcome = (updateLatestLink env.latestPath).map fun _ => code := by
  cases h with
  | moved hlink =>
    rw [hlink]
    rfl
  | raised hlink =>
    rw [hlink]
    rfl

theorem Finished.of_ok {code' : ℤ} (hcode : run.outcome = .ok code') :
    code' = code ∧ run.dir = some { dir with latestLink := true } := by
  cases h with
  | moved =>
    cases hcode
    exact ⟨rfl, rfl⟩
  | raised => cases hcode

theorem Finished.of_error {err : RunCaseError} (herr : run.outcome = .error err) :
    err = .latestLink ∧ run.dir = some dir := by
  cases h with
  | moved => cases herr
  | raised =>
    cases herr
    exact ⟨rfl, rfl⟩

theorem Finished.metadata {dir' : RunCaseDir} (hdir : run.dir = some dir') :
    dir'.metadata = dir.metadata := by
  cases h with
  | moved =>
    cases hdir
    rfl
  | raised =>
    cases hdir
    rfl

theorem Finished.getD_eq_zero_iff :
    run.outcome.toOption.getD 1 = 0 ↔ code = 0 ∧ updateLatestLink env.latestPath = .ok () := by
  cases h with
  | moved hlink => exact (and_iff_left hlink).symm
  | raised hlink => exact iff_of_false Int.one_ne_zero fun h => nomatch hlink.symm.trans h.2

end Finished

/-- What a case does: its checks or its directories raise, flashing fails, the monitor raises, or it
returns. -/
inductive RunCaseEffect (args : RunCaseArgs) (env : RunCaseEnv) : RunCaseRun → Prop
  | refused (hno : ¬∃ port, Checked args env port) (err : RunCaseError) :
    RunCaseEffect args env { outcome := .error err }
  | rootMissing (hno : ¬∃ port, Checked args env port) :
    RunCaseEffect args env { outcome := .error .mkdir, dir := some {} }
  | flashFailed {port : Text} (hchecked : Checked args env port)
    (hflash : env.flashReturncode ≠ 0) {run : RunCaseRun}
    (hrun : Finished env env.flashReturncode
      { artifacts := true, metadata := some (metadata args env port none) } none run) :
    RunCaseEffect args env run
  | monitorRaised {port : Text} (hchecked : Checked args env port)
    (hflash : env.flashReturncode = 0) {err : MonitorError}
    (hmonitor : (monitorRead args env).outcome = .error err) :
    RunCaseEffect args env
      { outcome := .error (.monitor err)
        dir := some { monitorLog := some (monitorRead args env).log } }
  | monitored {port : Text} (hchecked : Checked args env port)
    (hflash : env.flashReturncode = 0) {result : MonitorResult}
    (hmonitor : (monitorRead args env).outcome = .ok result) {code : ℤ}
    (hcode : monitorExitCode result (some args.banner) = code) {run : RunCaseRun}
    (hrun : Finished env code
      { artifacts := true
        monitorLog := some (monitorRead args env).log
        decodedBacktrace := decodePanicLog env (monitorRead args env).log
        metadata := some (metadata args env port (some code)) }
      (exitMessage args env.runDir code) run) :
    RunCaseEffect args env run

theorem runChecked_effect {args : RunCaseArgs} {env : RunCaseEnv} {port : Text}
    (h : Checked args env port) : RunCaseEffect args env (runChecked args env port) := by
  unfold runChecked
  by_cases hflash : env.flashReturncode = 0
  · rw [if_neg (not_not.mpr hflash)]
    have hmonitor : monitor (some args.banner) env.inputs env.process =
        (monitorRead args env).outcome.map (monitorExitCode · (some args.banner)) := rfl
    rw [hmonitor]
    cases houtcome : (monitorRead args env).outcome with
    | error err => exact .monitorRaised h hflash houtcome
    | ok result => exact .monitored h hflash houtcome rfl (finishRun_finished _ _ _ _)
  · rw [if_pos hflash]
    exact .flashFailed h hflash (finishRun_finished _ _ _ _)

theorem runCase_effect (args : RunCaseArgs) (env : RunCaseEnv) :
    RunCaseEffect args env (runCase args env) := by
  have hfalse : ∀ {b : Bool}, b = false → b ≠ true := fun hb => by simp [hb]
  unfold runCase
  cases hidf : env.idfPy with
  | false => exact .refused (fun ⟨_, h⟩ => hfalse hidf h.idfPy) .noIdfPy
  | true =>
  cases hbuild : env.buildDir with
  | false => exact .refused (fun ⟨_, h⟩ => hfalse hbuild h.buildDir) (.missingBuildDir args.buildDir)
  | true =>
  cases hport : resolvePort args.port env.boardPort with
  | error err => exact .refused (fun ⟨_, h⟩ => nomatch hport.symm.trans h.port) err
  | ok port =>
  cases hdir : env.runDirMade with
  | false => exact .refused (fun ⟨_, h⟩ => hfalse hdir h.runDirMade) .mkdir
  | true =>
  cases hroot : env.latestRootMade with
  | false => exact .rootMissing fun ⟨_, h⟩ => hfalse hroot h.latestRootMade
  | true => exact runChecked_effect ⟨hidf, hbuild, hport, hdir, hroot⟩

theorem outcome_of_monitored {args : RunCaseArgs} {env : RunCaseEnv} {port : Text}
    (hchecked : Checked args env port) (hflash : env.flashReturncode = 0) {result : MonitorResult}
    (hmonitor : (monitorRead args env).outcome = .ok result)
    (hlink : updateLatestLink env.latestPath = .ok ()) :
    (runCase args env).outcome = .ok (monitorExitCode result (some args.banner)) := by
  have heffect := runCase_effect args env
  generalize runCase args env = run at heffect ⊢
  cases heffect with
  | refused hno => exact absurd ⟨port, hchecked⟩ hno
  | rootMissing hno => exact absurd ⟨port, hchecked⟩ hno
  | flashFailed _ hne => exact absurd hflash hne
  | monitorRaised _ _ hraised => exact nomatch hmonitor.symm.trans hraised
  | monitored _ _ hreturned hcode hrun =>
    cases Except.ok.inj (hmonitor.symm.trans hreturned)
    rw [hrun.outcome, hlink, ← hcode]
    rfl

/-! ## The exit code -/

theorem fst_runCaseMain (args : RunCaseArgs) (env : RunCaseEnv) :
    (runCaseMain args env).1 = (runCase args env).outcome.toOption.getD 1 := by
  dsimp only [runCaseMain]
  cases (runCase args env).outcome <;> rfl

theorem readySeen_iff_read {args : RunCaseArgs} {env : RunCaseEnv}
    (hvalid : '\ufffd' ∉ args.banner) (hlength : args.banner.length ≤ 12286)
    (hinputs : ∀ bytes, .chunk bytes ∈ env.inputs → bytes.length ≤ monitorChunkBytes)
    {result : MonitorResult} (hmonitor : (monitorRead args env).outcome = .ok result) :
    monitorExitCode result (some args.banner) = 0 ↔
      encode args.banner <:+: (monitorRead args env).stdout :=
  (monitorExitCode_eq_zero_iff args.banner_ne_nil result).trans
    (readySeen_iff_bytes hinputs args.banner_ne_nil hvalid hlength env.process hmonitor)

theorem runCaseMain_eq_zero_iff {args : RunCaseArgs} {env : RunCaseEnv}
    (hvalid : '\ufffd' ∉ args.banner) (hlength : args.banner.length ≤ 12286)
    (hinputs : ∀ bytes, .chunk bytes ∈ env.inputs → bytes.length ≤ monitorChunkBytes) :
    (runCaseMain args env).1 = 0 ↔ (∃ port, Checked args env port) ∧ env.flashReturncode = 0 ∧
      (∃ result, (monitorRead args env).outcome = .ok result) ∧
      encode args.banner <:+: (monitorRead args env).stdout ∧
      updateLatestLink env.latestPath = .ok () := by
  rw [fst_runCaseMain]
  have heffect := runCase_effect args env
  generalize runCase args env = run at heffect ⊢
  cases heffect with
  | refused hno => exact iff_of_false Int.one_ne_zero fun h => hno h.1
  | rootMissing hno => exact iff_of_false Int.one_ne_zero fun h => hno h.1
  | flashFailed _ hflash hrun =>
    exact iff_of_false (fun h => hflash (hrun.getD_eq_zero_iff.mp h).1) fun h => hflash h.2.1
  | monitorRaised _ _ hmonitor =>
    apply iff_of_false Int.one_ne_zero
    rintro ⟨-, -, ⟨result, hresult⟩, -⟩
    exact nomatch hmonitor.symm.trans hresult
  | @monitored port hchecked hflash result hmonitor code hcode _ hrun =>
    have hready := readySeen_iff_read hvalid hlength hinputs hmonitor
    rw [hcode] at hready
    rw [hrun.getD_eq_zero_iff, hready]
    exact ⟨fun h => ⟨⟨port, hchecked⟩, hflash, ⟨result, hmonitor⟩, h⟩, fun h => h.2.2.2⟩

/-- A case of the firmware, on a device that writes the given bytes. -/
def smokeArgs : RunCaseArgs :=
  ⟨"platform_smoke", some "/dev/ttyACM0".toList, "/repo/build".toList, none, 30⟩

def smokeEnv (bytes : List UInt8) : RunCaseEnv where
  idfPy := true
  boardPort := none
  buildDir := true
  elf := true
  timestamp := "20260328_120000".toList
  runDir := "/repo/artifacts/runs/device/platform_smoke/20260328_120000".toList
  runDirMade := true
  latestRootMade := true
  flashReturncode := 0
  inputs := [.chunk bytes]
  process := ⟨none, fun _ => .exits (-2)⟩
  tool := true
  addr2line as := (0, as.flatten)
  latestPath := .symlink

theorem monitorRead_smokeEnv (bytes : List UInt8) :
    (∃ result, (monitorRead smokeArgs (smokeEnv bytes)).outcome = .ok result) ∧
      (monitorRead smokeArgs (smokeEnv bytes)).stdout = bytes := by
  have hloop : streamLoop (some smokeArgs.banner) {} [.chunk bytes] =
      (false, takeChunk (some smokeArgs.banner) bytes {}) := by
    rw [streamLoop]
    split_ifs <;> rfl
  constructor
  · exact ⟨_, outcome_streamMonitorBytes (congrArg Prod.fst hloop) rfl⟩
  · have hinputs : (smokeEnv bytes).inputs = [.chunk bytes] := rfl
    rw [monitorRead, stdout_streamMonitorBytes, hinputs, hloop, stdout_takeChunk, List.nil_append]

theorem checked_smokeEnv (bytes : List UInt8) :
    Checked smokeArgs (smokeEnv bytes) "/dev/ttyACM0".toList :=
  ⟨rfl, rfl, rfl, rfl, rfl⟩

theorem decode_log {args : RunCaseArgs} {env : RunCaseEnv} {result : MonitorResult}
    (hmonitor : (monitorRead args env).outcome = .ok result) :
    decode (monitorRead args env).log = sanitizeForLog (decode (monitorRead args env).stdout) := by
  have hlog : (monitorRead args env).log = encode (sanitizeForLog (decode _)) := log_of_ok hmonitor
  rw [hlog, decode_encode]
  rfl

theorem nul_not_mem_log {args : RunCaseArgs} {env : RunCaseEnv} {result : MonitorResult}
    (hmonitor : (monitorRead args env).outcome = .ok result) :
    '\x00' ∉ decode (monitorRead args env).log := by
  rw [decode_log hmonitor]
  exact nul_not_mem_sanitizeForLog _

theorem mem_addresses_log {args : RunCaseArgs} {env : RunCaseEnv} {result : MonitorResult}
    (hmonitor : (monitorRead args env).outcome = .ok result) {a : Text} (ha : Address a)
    (h : encode (' ' :: a) <:+: (monitorRead args env).stdout) :
    a ∈ addresses (decode (monitorRead args env).log) := by
  have hvalid : '\ufffd' ∉ ' ' :: a := by
    rw [List.mem_cons, not_or]
    exact ⟨by decide, ha.not_mem (.inr (.inl (by decide)))⟩
  refine mem_addresses_of_space (nul_not_mem_log hmonitor) ha ?_
  rw [decode_log hmonitor]
  exact infix_sanitizeForLog ha (infix_decode (List.cons_ne_nil ' ' a) hvalid h)

/-- **The backtrace.** When the monitor has returned and the ELF file and the tool are there, the
report decodes addresses of the log, each once, and every address that was read behind a space is
one of them, whatever else the device wrote and however its bytes were cut. -/
theorem run_case_backtrace {args : RunCaseArgs} {env : RunCaseEnv} {code : ℤ}
    (hcode : (runCase args env).outcome = .ok code) (hflash : env.flashReturncode = 0)
    (helf : env.elf = true) (htool : env.tool = true) :
    ∃ dir log as, (runCase args env).dir = some dir ∧ dir.monitorLog = some log ∧
      dir.decodedBacktrace = some (reportHead (env.runDir ++ "/embedded_ins_daq.elf".toList)
        (env.runDir ++ "/monitor.log".toList) ++ (decodeAddresses env.addr2line as).2) ∧
      as.Nodup ∧ (∀ a ∈ as, Address a ∧ a <:+: decode log) ∧
      ∀ a, Address a → encode (' ' :: a) <:+: (monitorRead args env).stdout → a ∈ as := by
  have heffect := runCase_effect args env
  generalize runCase args env = run at hcode heffect ⊢
  cases heffect with
  | refused => cases hcode
  | rootMissing => cases hcode
  | flashFailed _ hne => exact absurd hflash hne
  | monitorRaised => cases hcode
  | monitored _ _ hmonitor _ hrun =>
    have hscanned := scanned_grepOnly (nul_not_mem_log hmonitor)
    refine ⟨_, (monitorRead args env).log, addresses (decode (monitorRead args env).log),
      (hrun.of_ok hcode).2, rfl, ?_, nodup_unseen _ _, ?_, ?_⟩
    · rw [decodePanicLog, if_pos helf, htool]
      rfl
    · exact fun a ha => hscanned.word_of_mem (mem_addresses.mp ha)
    · exact fun a ha h => mem_addresses_log hmonitor ha h

/-- The address behind a space is in the report. -/
theorem run_case_backtrace_smoke : ∃ dir report,
    (runCase smokeArgs (smokeEnv (encode "PC: 0x40000000".toList))).dir = some dir ∧
      dir.decodedBacktrace = some report ∧ "0x40000000".toList <:+: report := by
  obtain ⟨⟨result, hmonitor⟩, hread⟩ := monitorRead_smokeEnv (encode "PC: 0x40000000".toList)
  have haddress : Address "0x40000000".toList :=
    ⟨"0000000".toList, rfl, rfl, by simp [IsHexDigit]⟩
  have hreturns : (runCase smokeArgs (smokeEnv (encode "PC: 0x40000000".toList))).outcome =
      .ok (monitorExitCode result (some smokeArgs.banner)) :=
    outcome_of_monitored (checked_smokeEnv _) rfl hmonitor rfl
  obtain ⟨dir, -, as, hdir, -, hreport, -, -, has⟩ := run_case_backtrace hreturns rfl rfl rfl
  have hmem : "0x40000000".toList ∈ as := by
    refine has _ haddress ?_
    rw [hread]
    exact ⟨encode "PC:".toList, [], by decide⟩
  refine ⟨dir, _, hdir, hreport, List.IsInfix.trans ?_ (List.suffix_append _ _).isInfix⟩
  cases as with
  | nil => cases hmem
  | cons a as => exact (List.infix_of_mem_flatten hmem).trans (List.suffix_append _ _).isInfix

end EmbeddedInsDaq
