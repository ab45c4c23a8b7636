import Mathlib.Algebra.Group.Nat.Defs

/-!
# Shared runtime types

The types of `runtime_types.h` and `esp_compat.h`. A C enumeration that only the firmware itself
writes is an inductive type. One that arrives from a caller is the 32-bit word that holds it, with
its enumerators as named values: nothing in the language keeps another value out, and the
validators test for exactly that.
-/

namespace EmbeddedInsDaq

/-- The builds the sources are compiled for: the 32-bit target and the 64-bit host tests. -/
inductive Platform
  | target
  | host
  deriving DecidableEq, Repr

/-- The width of `size_t`. -/
def Platform.sizeBits : Platform → ℕ
  | .target => 32
  | .host => 64

theorem Platform.le_sizeBits (p : Platform) : 32 ≤ p.sizeBits := by cases p <;> decide

theorem Platform.two_pow_le (p : Platform) : 2 ^ 32 ≤ 2 ^ p.sizeBits :=
  Nat.pow_le_pow_right (by decide) p.le_sizeBits

/-- `size_t`, with its arithmetic modulo `2 ^ sizeBits`. -/
abbrev SizeT (p : Platform) := BitVec p.sizeBits

theorem SizeT.toNat_ofNat {p : Platform} {n : ℕ} (h : n < 2 ^ 32) :
    (BitVec.ofNat p.sizeBits n).toNat = n := by
  rw [BitVec.toNat_ofNat]
  exact Nat.mod_eq_of_lt (Nat.lt_of_lt_of_le h p.two_pow_le)

theorem SizeT.toNat_ofNat_add {p : Platform} {n : ℕ} {x : SizeT p} (h : n + x.toNat < 2 ^ 32) :
    (BitVec.ofNat p.sizeBits n + x).toNat = n + x.toNat := by
  rw [BitVec.toNat_add, SizeT.toNat_ofNat (Nat.lt_of_add_right_lt h)]
  exact Nat.mod_eq_of_lt (Nat.lt_of_lt_of_le h p.two_pow_le)

/-- The values of `esp_err_t` that the modelled functions return. -/
inductive EspErr
  | ok
  | noMem
  | invalidArg
  | invalidState
  deriving DecidableEq, Repr

/-- `port_timing_mode_t`: whether a port takes part in sync or trigger timing. -/
abbrev PortTimingMode := UInt32

namespace PortTimingMode
def none : PortTimingMode := 0
def sync : PortTimingMode := 1
def trigger : PortTimingMode := 2
end PortTimingMode

/-- `sync_edge_mode_t`: which sync-input edges are captured. -/
abbrev SyncEdgeMode := UInt32

namespace SyncEdgeMode
def rising : SyncEdgeMode := 0
def falling : SyncEdgeMode := 1
def change : SyncEdgeMode := 2
end SyncEdgeMode

/-- `health_status_t`. -/
inductive HealthStatus
  | ok
  | degraded
  | faulted
  deriving DecidableEq, Repr

/-- The enumerator as the word that is passed to the record builder. -/
def HealthStatus.toUInt32 : HealthStatus → UInt32
  | .ok => 0
  | .degraded => 1
  | .faulted => 2

/-- `fault_severity_t`: whether a fault can be tolerated or must stop recording. -/
abbrev FaultSeverity := UInt32

namespace FaultSeverity
def recoverable : FaultSeverity := 0
def fatal : FaultSeverity := 1
end FaultSeverity

/-- `fault_code_t`: the coarse fault class. -/
abbrev FaultCode := UInt32

namespace FaultCode
def none : FaultCode := 0
def storageBackpressure : FaultCode := 1
def storageIo : FaultCode := 2
def captureOverflow : FaultCode := 3
end FaultCode

/-- `session_state_t`: progress through the session state machine. -/
inductive SessionState
  | boot
  | configInvalid
  | ready
  | starting
  | recording
  | stopping
  | faulted
  deriving DecidableEq, Repr

/-- `BOARD_PORT_COUNT`. -/
def boardPortCount : ℕ := 4

end EmbeddedInsDaq
