import EmbeddedInsDaq.Lib.Regex
import Mathlib.Tactic.SplitIfs

/-!
# The serial monitor

The detection loop of `tools/monitor.py`. A text is the list of its code points. What the loop sees
of the outside in one round is a `MonitorRound`; the bytes of a chunk enter as the text that the
incremental decoder makes of them. Starting and ending the process, the copy to the terminal and
the log file are left out.
-/

namespace EmbeddedInsDaq

/-- A decoded text. -/
abbrev Text := List Char

/-! ## Patterns -/

/-- `PANIC_PATTERN`. -/
def panicPattern : Regex Char :=
  .alt (.literal "Guru Meditation Error".toList)
    (.alt (.literal "Backtrace:".toList) (.literal "abort() was called".toList))

/-- `[0-9a-fA-F]`. -/
def hexDigit : Regex Char :=
  .set fun c => ('0' ≤ c && c ≤ '9') || ('a' ≤ c && c ≤ 'f') || ('A' ≤ c && c ≤ 'F')

/-- `$T`, two hex digits, the rest of a line up to a `#`, and two hex digits. -/
def gdbstubPacket : Regex Char :=
  .seq (.literal "$T".toList) (.seq hexDigit (.seq hexDigit (.seq (.star (.set (· != '\n')))
    (.seq (.literal "#".toList) (.seq hexDigit hexDigit)))))

/-- `GDBSTUB_PATTERN`. -/
def gdbstubPattern : Regex Char :=
  .alt (.literal "Entering gdb stub now.".toList)
    (.seq (.alt .start (.alt (.literal "\n".toList) (.literal "+".toList))) gdbstubPacket)

/-- `GDBSTUB_EXIT_CODE`. -/
def gdbstubExitCode : ℤ := 3

/-! ## Detection -/

/-- `MonitorResult`. -/
structure MonitorResult where
  returncode : ℤ := 0
  readySeen : Bool := false
  panicSeen : Bool := false
  gdbstubSeen : Bool := false
  timedOut : Bool := false
  deriving DecidableEq

/-- The number of characters that `update_state` keeps. -/
def searchBufferLength : ℕ := 16384

/-- The last `n` of a list, `xs[-n:]` for a positive `n`. -/
def lastN {α : Type*} (n : ℕ) (xs : List α) : List α := xs.drop (xs.length - n)

/-- `ready_banner and ready_banner in search_buffer`. -/
def bannerIn (readyBanner : Option Text) (searchBuffer : Text) : Bool :=
  match readyBanner with
  | none => false
  | some banner => banner ≠ [] ∧ banner <:+: searchBuffer

/-- `update_state`: the new search buffer, and the result with what is seen in it. -/
def updateState (searchBuffer text : Text) (readyBanner : Option Text) (result : MonitorResult) :
    Text × MonitorResult :=
  let searchBuffer := lastN searchBufferLength (searchBuffer ++ text)
  let result :=
    if bannerIn readyBanner searchBuffer then { result with readySeen := true } else result
  let result :=
    if panicPattern.search searchBuffer then { result with panicSeen := true } else result
  let result :=
    if gdbstubPattern.search searchBuffer then { result with gdbstubSeen := true } else result
  (searchBuffer, result)

/-- An update adds what is found in the new search buffer to the flags. -/
theorem updateState_eq (searchBuffer text : Text) (readyBanner : Option Text)
    (result : MonitorResult) :
    updateState searchBuffer text readyBanner result =
      (lastN searchBufferLength (searchBuffer ++ text),
        { result with
          readySeen := result.readySeen ||
            bannerIn readyBanner (lastN searchBufferLength (searchBuffer ++ text))
          panicSeen := result.panicSeen ||
            panicPattern.search (lastN searchBufferLength (searchBuffer ++ text))
          gdbstubSeen := result.gdbstubSeen ||
            gdbstubPattern.search (lastN searchBufferLength (searchBuffer ++ text)) }) := by
  unfold updateState
  generalize lastN searchBufferLength (searchBuffer ++ text) = window
  dsimp only
  split_ifs with hready hpanic hgdbstub <;> simp [*]

/-! ## The loop -/

/-- The number of bytes that `read_monitor_chunk` reads at most. -/
def monitorChunkBytes : ℕ := 4096

/-- What one round of the loop of `stream_monitor` meets: the deadline has passed, nothing was
there to read and the process has `exited` or not, the terminal is closed, or a chunk was read. -/
inductive MonitorRound
  | deadline
  | idle (exited : Bool)
  | closed
  | chunk (text : Text)

/-- `result.ready_seen or result.panic_seen or result.gdbstub_seen`. -/
def MonitorResult.seen (result : MonitorResult) : Bool :=
  result.readySeen || result.panicSeen || result.gdbstubSeen

/-- The loop of `stream_monitor`. -/
def monitorLoop (readyBanner : Option Text) :
    Text → MonitorResult → List MonitorRound → MonitorResult
  | _, result, [] => result
  | _, result, .deadline :: _ => { result with timedOut := true }
  | searchBuffer, result, .idle exited :: rounds =>
    if exited then result else monitorLoop readyBanner searchBuffer result rounds
  | _, result, .closed :: _ => result
  | searchBuffer, result, .chunk text :: rounds =>
    let (searchBuffer, result) := updateState searchBuffer text readyBanner result
    if result.seen then result else monitorLoop readyBanner searchBuffer result rounds

/-- `stream_monitor`, for a process that ends with `returncode`. -/
def streamMonitor (readyBanner : Option Text) (rounds : List MonitorRound)
    (returncode : Option ℤ) : MonitorResult :=
  { monitorLoop readyBanner [] {} rounds with returncode := returncode.getD 0 }

/-- `monitor_exit_code`. -/
def monitorExitCode (result : MonitorResult) (readyBanner : Option Text) : ℤ :=
  if result.readySeen then 0
  else if result.gdbstubSeen then gdbstubExitCode
  else if result.panicSeen then 2
  else if result.timedOut then 1
  else if result.returncode ≠ 0 then result.returncode
  else if readyBanner.getD [] ≠ [] then 1
  else 0

end EmbeddedInsDaq
