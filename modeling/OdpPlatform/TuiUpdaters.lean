import OdpPlatform.EcScript
import OdpPlatform.TuiSamples

/-! # test-tui: the updaters

Each updater owns one part of the shared state, which the user interface only reads. A state is
published when the lock on it is released. -/
namespace TuiUpdaters

open EcScript InteractionProgram TuiSamples

/-- `Cmd` is what comes over the updater's channel and `S` its part of the state. -/
inductive UpdaterCall (Cmd S α : Type) where
  | tryRecv
  | source (c : SourceCall α)
  | publish (state : S)
  | sleep

@[reducible] def UpdaterAnswer {Cmd S α : Type} : UpdaterCall Cmd S α → Type
  | .tryRecv => Option Cmd
  | .source c => SourceAnswer c
  | .publish _ | .sleep => Unit

abbrev Updater (Cmd S α : Type) := Program (@UpdaterAnswer Cmd S α)

section Loops

variable {Cmd S U α : Type}

def source (c : SourceCall α) : Updater Cmd S α (SourceAnswer c) :=
  Program.call (UpdaterCall.source c)

def publish (s : S) : Updater Cmd S α Unit := Program.call (UpdaterCall.publish s)

def tryRecv : Updater Cmd S α (Option Cmd) := Program.call UpdaterCall.tryRecv

def isOk {β : Type} : Except SourceError β → Bool
  | .ok _ => true
  | .error _ => false

/-- `process_commands`, for at most so many of them -/
def processCommands (execute : Cmd → Updater Cmd S α Bool) (record : S → Cmd → Bool → S) :
    ℕ → S → Updater Cmd S α S
  | 0, _ => .hang
  | n + 1, s => do
    match ← tryRecv with
    | none => pure s
    | some cmd =>
      let success ← execute cmd
      publish (record s cmd success)
      processCommands execute record n (record s cmd success)

def run (update : U → Updater Cmd S α U) : ℕ → U → Updater Cmd S α Unit
  | 0, _ => .hang
  | n + 1, u => do
    let u ← update u
    let _ ← Program.call UpdaterCall.sleep
    run update n u

end Loops

/-! ## BatteryUpdater -/

def batteryMaxSamples : ℕ := 60

structure BatteryState (F : Type) where
  bst : BstReturn
  bstSuccess : Bool
  bix : BixFixedStrings
  bixSuccess : Bool
  samples : SampleBuf UInt32 F batteryMaxSamples
  tMin : ℕ
  btp : UInt32
  btpSuccess : Bool

structure BatteryUpdater (F : Type) where
  state : BatteryState F
  bixCached : Bool

section Battery

variable {F : Type} [Field F] [LinearOrder F]

def BatteryState.initial (bst : BstReturn) (bix : BixFixedStrings) : BatteryState F where
  bst := bst
  bstSuccess := false
  bix := bix
  bixSuccess := false
  samples := .empty
  tMin := 0
  btp := 0
  btpSuccess := true

abbrev BatteryTask (F : Type) := Updater UInt32 (BatteryState F) F

def pollBst (s : BatteryState F) : BatteryTask F (BatteryState F) := do
  match ← source .getBst with
  | .ok bst => pure { s with bst, bstSuccess := true }
  | .error _ => pure { s with bstSuccess := false }

def pollBix (s : BatteryState F) : BatteryTask F (BatteryState F) := do
  match ← source .getBix with
  | .ok bix => pure { s with bix, bixSuccess := true }
  | .error _ => pure { s with bixSuccess := false }

def setBtp (v : UInt32) : BatteryTask F Bool := do
  let r ← source (.setBtp v)
  pure (isOk r)

def recordBtp (s : BatteryState F) (v : UInt32) (success : Bool) : BatteryState F :=
  { s with btp := v, btpSuccess := success }

variable [HostNumber F]

def ofU32 (n : UInt32) : F := HostNumber.ofInt n.toNat

def recordSample (s : BatteryState F) : BatteryState F :=
  if s.bstSuccess = true then
    { s with
      samples := s.samples.insert ofU32 s.bst.batteryRemainingCapacity
      tMin := s.tMin + 1 }
  else s

/-- `poll_bix`, until it has succeeded once -/
def cacheBix (u : BatteryUpdater F) : BatteryTask F (BatteryUpdater F) :=
  if u.bixCached = true then pure u
  else do
    let s ← pollBix u.state
    pure ⟨s, s.bixSuccess⟩

def batteryUpdate (commands : ℕ) (u : BatteryUpdater F) : BatteryTask F (BatteryUpdater F) := do
  let s ← processCommands setBtp recordBtp commands u.state
  let u ← cacheBix { u with state := s }
  let s ← pollBst u.state
  publish (recordSample s)
  pure { u with state := recordSample s }

def batteryRun (ticks commands : ℕ) (bst : BstReturn) (bix : BixFixedStrings) :
    BatteryTask F Unit := run (batteryUpdate commands) ticks ⟨.initial bst bix, false⟩

end Battery

/-! ## ThermalUpdater -/

def thermalMaxSamples : ℕ := 60

structure SensorThresholds (F : Type) where
  warnLow : F
  warnHigh : F
  prochot : F
  critical : F
  deriving DecidableEq, Repr

structure FanRpmBounds (F : Type) where
  min : F
  max : F
  deriving DecidableEq, Repr

structure FanStateLevels (F : Type) where
  on : F
  ramping : F
  max : F
  deriving DecidableEq, Repr

structure SensorData (F : Type) where
  skinTemp : F
  tempSuccess : Bool
  thresholds : SensorThresholds F
  thresholdsSuccess : Bool
  samples : SampleBuf F F thermalMaxSamples

structure FanData (F : Type) where
  rpm : F
  rpmSuccess : Bool
  rpmBounds : FanRpmBounds F
  boundsSuccess : Bool
  stateLevels : FanStateLevels F
  levelsSuccess : Bool
  samples : SampleBuf UInt32 F thermalMaxSamples

structure ThermalState (F : Type) where
  sensor : SensorData F
  fan : FanData F
  t : ℕ
  rpmLimit : F
  rpmSetSuccess : Bool

section Thermal

variable {F : Type} [Field F] [LinearOrder F]

def ThermalState.initial : ThermalState F where
  sensor := ⟨0, false, ⟨0, 0, 0, 0⟩, false, .empty⟩
  fan := ⟨0, false, ⟨0, 0⟩, false, ⟨0, 0, 0⟩, false, .empty⟩
  t := 0
  rpmLimit := 0
  rpmSetSuccess := false

abbrev ThermalTask (F : Type) := Updater F (ThermalState F) F

/-- The values are constants of the program. -/
def sensorThresholds : SensorThresholds F := ⟨13, 35, 40, 45⟩

def setRpm (rpm : F) : ThermalTask F Bool := do
  let r ← source (.setRpm rpm)
  pure (isOk r)

def recordRpm (s : ThermalState F) (rpm : F) (success : Bool) : ThermalState F :=
  { s with rpmLimit := rpm, rpmSetSuccess := success }

def recordTemp (s : SensorData F) (temp : Except SourceError F) : SensorData F :=
  match temp with
  | .ok t => { s with skinTemp := t, samples := s.samples.insert id t, tempSuccess := true }
  | .error _ => { s with tempSuccess := false }

def recordBounds (s : FanData F) (minRpm maxRpm : Except SourceError F) : FanData F :=
  match minRpm, maxRpm with
  | .ok min, .ok max => { s with rpmBounds := ⟨min, max⟩, boundsSuccess := true }
  | _, _ => { s with boundsSuccess := false }

def recordLevels (s : FanData F) (on ramping max : Except SourceError F) : FanData F :=
  match on, ramping, max with
  | .ok on, .ok ramping, .ok max =>
    { s with stateLevels := ⟨on, ramping, max⟩, levelsSuccess := true }
  | _, _, _ => { s with levelsSuccess := false }

variable [HostNumber F]

def recordFanRpm (s : FanData F) (rpm : Except SourceError F) : FanData F :=
  match rpm with
  | .ok r =>
    { s with
      rpm := r
      samples := s.samples.insert ofU32 (HostNumber.toU32 r)
      rpmSuccess := true }
  | .error _ => { s with rpmSuccess := false }

def thermalUpdate (commands : ℕ) (s : ThermalState F) : ThermalTask F (ThermalState F) := do
  let s ← processCommands setRpm recordRpm commands s
  let temp ← source .getTemperature
  let rpm ← source .getRpm
  let minRpm ← source .getMinRpm
  let maxRpm ← source .getMaxRpm
  let threshOn ← source (.getThreshold .on)
  let threshRamp ← source (.getThreshold .ramping)
  let threshMax ← source (.getThreshold .max)
  let sensor := recordTemp s.sensor temp
  let fan := recordLevels (recordBounds (recordFanRpm s.fan rpm) minRpm maxRpm)
    threshOn threshRamp threshMax
  let s :=
    { s with
      sensor := { sensor with thresholds := sensorThresholds, thresholdsSuccess := true }
      fan
      t := s.t + 1 }
  publish s
  pure s

def thermalRun (ticks commands : ℕ) : ThermalTask F Unit :=
  run (thermalUpdate commands) ticks .initial

end Thermal

/-! ## RtcUpdater -/

abbrev Fetched (β : Type) := Option (Except SourceError β)

structure TimerData where
  value : Fetched UInt32
  wakePolicy : Fetched UInt32
  timerStatus : Fetched TimerStatus

structure RtcState where
  capabilities : Fetched TimeAlarmDeviceCapabilities
  timestamp : Fetched AcpiTimestamp
  acTimer : TimerData
  dcTimer : TimerData

structure RtcUpdater where
  state : RtcState
  rtcCapsCached : Bool

section Rtc

variable {α : Type}

def RtcState.initial : RtcState := ⟨none, none, ⟨none, none, none⟩, ⟨none, none, none⟩⟩

abbrev RtcTask (α : Type) := Updater Empty RtcState α

def readTimer (id : AcpiTimerId) : RtcTask α TimerData := do
  let value ← source (.getTimerValue id)
  let policy ← source (.getExpiredTimerWakePolicy id)
  let status ← source (.getWakeStatus id)
  pure ⟨some value, some policy, some status⟩

def fetchCaps (u : RtcUpdater) : RtcTask α (Fetched TimeAlarmDeviceCapabilities) :=
  if u.rtcCapsCached = true then pure none
  else do
    let caps ← source .getCapabilities
    pure (some caps)

def rtcUpdate (u : RtcUpdater) : RtcTask α RtcUpdater := do
  let caps ← fetchCaps u
  let timestamp ← source .getRealTime
  let ac ← readTimer .acPower
  let dc ← readTimer .dcPower
  let s : RtcState :=
    { capabilities := caps.orElse fun _ => u.state.capabilities
      timestamp := some timestamp
      acTimer := ac
      dcTimer := dc }
  publish s
  pure ⟨s, u.rtcCapsCached || caps.any isOk⟩

def rtcRun (ticks : ℕ) : RtcTask α Unit := run rtcUpdate ticks ⟨.initial, false⟩

end Rtc

end TuiUpdaters
