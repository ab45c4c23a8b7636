import EmbeddedInsDaq.Platform.RuntimeTypes

/-!
# The runtime session contract and its validation

`runtime_config.c`. A pointer argument that may be `NULL` is an `Option`: of the pointed-to value
for an input, and of the location's content for the output parameter `error`.
-/

namespace EmbeddedInsDaq

/-- `runtime_config_error_t`. -/
inductive RuntimeConfigError
  | none
  | nullConfig
  | noEnabledPorts
  | baudRateInvalid
  | timingModeInvalid
  | syncEdgeModeInvalid
  | triggerPulseWidthInvalid
  deriving DecidableEq, Repr

/-- `runtime_port_config_t`: the user-selected behavior of one data port. -/
structure RuntimePortConfig where
  enabled : Bool
  baudRate : Int32
  timingMode : PortTimingMode
  syncEdgeMode : SyncEdgeMode
  triggerPeriodUs : UInt32
  triggerPulseWidthUs : UInt32
  deriving DecidableEq

/-- `runtime_config_t`. -/
structure RuntimeConfig where
  ports : Vector RuntimePortConfig boardPortCount
  deriving DecidableEq

/-- The zero-initialized port. -/
def RuntimePortConfig.zero : RuntimePortConfig where
  enabled := false
  baudRate := 0
  timingMode := .none
  syncEdgeMode := .rising
  triggerPeriodUs := 0
  triggerPulseWidthUs := 0

namespace RuntimeConfig

/-- `set_error`: write through the output parameter unless it is `NULL`. -/
def setError (error : Option RuntimeConfigError) (value : RuntimeConfigError) :
    Option RuntimeConfigError :=
  error.map fun _ => value

/-- `port_timing_mode_valid`. -/
def portTimingModeValid (mode : PortTimingMode) : Bool :=
  mode = .none || mode = .sync || mode = .trigger

/-- `sync_edge_mode_valid`. -/
def syncEdgeModeValid (mode : SyncEdgeMode) : Bool :=
  mode = .rising || mode = .falling || mode = .change

/-- `runtime_config_default`: one plain 115200 baud port. -/
def default : RuntimeConfig where
  ports := #v[{ RuntimePortConfig.zero with enabled := true, baudRate := 115200 },
    .zero, .zero, .zero]

/-- The port loop of `runtime_config_validate`, with `any_enabled` as it stands. -/
def validateLoop (error : Option RuntimeConfigError) :
    List RuntimePortConfig → Bool → EspErr × Option RuntimeConfigError
  | [], anyEnabled =>
    if !anyEnabled then (.invalidArg, setError error .noEnabledPorts)
    else (.ok, setError error .none)
  | port :: ports, anyEnabled =>
    if !port.enabled then validateLoop error ports anyEnabled
    else if port.baudRate ≤ 0 then (.invalidArg, setError error .baudRateInvalid)
    else if !portTimingModeValid port.timingMode then
      (.invalidArg, setError error .timingModeInvalid)
    else if !syncEdgeModeValid port.syncEdgeMode then
      (.invalidArg, setError error .syncEdgeModeInvalid)
    else if port.timingMode = .trigger ∧ (port.triggerPeriodUs = 0 ∨ port.triggerPulseWidthUs = 0 ∨
        port.triggerPulseWidthUs ≥ port.triggerPeriodUs) then
      (.invalidArg, setError error .triggerPulseWidthInvalid)
    else validateLoop error ports true

/-- `runtime_config_validate`. -/
def validate (config : Option RuntimeConfig) (error : Option RuntimeConfigError) :
    EspErr × Option RuntimeConfigError :=
  match config with
  | none => (.invalidArg, setError error .nullConfig)
  | some config => validateLoop error config.ports.toList false

/-- The validator's verdict on `config`, whatever the output parameter is. -/
def Valid (config : Option RuntimeConfig) : Prop := (validate config none).1 = .ok

instance : DecidablePred Valid := fun config =>
  inferInstanceAs (Decidable ((validate config none).1 = .ok))

/-- `config->ports[i]`. -/
def port (config : RuntimeConfig) (i : Fin boardPortCount) : RuntimePortConfig := config.ports.get i

theorem ports_split (config : RuntimeConfig) (i : Fin boardPortCount) :
    config.ports.toList =
      config.ports.toList.take i ++ config.port i :: config.ports.toList.drop (i + 1) := by
  have hget : config.port i = config.ports.toList[i.val] := by
    rw [Vector.getElem_toList]
    rfl
  rw [hget, List.getElem_cons_drop, List.take_append_drop]

theorem valid_default : Valid (some default) := by decide

theorem not_valid_null : ¬Valid none := by decide

end RuntimeConfig

end EmbeddedInsDaq
