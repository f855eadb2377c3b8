import OdpPlatform.AcpiOutputFormat
import OdpPlatform.AcpiValues
import OdpPlatform.EcScript

/-! # acpi.rs: the ACPI data source

Every method of the source evaluates one ACPI method. -/
namespace AcpiSource

open ByteBuffer AcpiMethodBuffers AcpiValues EcScript

/-! ## common.rs -/

class HostFloat (α : Type) extends HostNumber α, Add α, Sub α, Mul α, Div α, OfScientific α where
  round : α → α

instance : HostFloat Float where
  round := Float.round

def ofU32 {α : Type} [HostFloat α] (n : UInt32) : α := HostNumber.ofInt n.toNat

class LawfulHostFloat (α : Type) [HostFloat α] : Prop where
  toU32_ofU32 : ∀ n : UInt32, HostNumber.toU32 (ofU32 n : α) = n

section Conversions

variable {α : Type} [HostFloat α]

def dkToC (dk : UInt32) : α := (ofU32 dk / 10.0) - 273.15

def u32Max : UInt32 := UInt32.ofNat (2 ^ 32 - 1)

def cToDk (c : α) : UInt32 :=
  let dk : α := (c + 273.15) * 10.0
  if !HostNumber.isFinite dk || HostNumber.le dk 0.0 then 0
  else if HostNumber.le (ofU32 u32Max) dk then u32Max
  else HostNumber.toU32 (HostFloat.round dk)

end Conversions

/-- `to_bytes_le`, from the bytes in the order of the text -/
def toBytesLe (guid : UuidBytes) : UuidBytes where
  bytes := (guid.bytes.take 4).reverse ++ (window guid.bytes 4 2).reverse ++
    (window guid.bytes 6 2).reverse ++ guid.bytes.drop 8
  size := by
    have hsize := guid.size
    simp only [List.length_append, List.length_reverse, List.length_take, length_window,
      List.length_drop, hsize]
    rfl

def fanOnTemp : UuidBytes :=
  ⟨[0xba, 0x17, 0xb5, 0x67, 0xc3, 0x68, 0x48, 0xd5, 0xbc, 0x6f, 0xa3, 0x12, 0xa4, 0x15, 0x83, 0xc1],
    rfl⟩

def fanRampTemp : UuidBytes :=
  ⟨[0x3a, 0x62, 0x68, 0x8c, 0xd9, 0x5b, 0x4d, 0x2d, 0xba, 0xcc, 0x90, 0xd7, 0xa5, 0x81, 0x6b, 0xcd],
    rfl⟩

def fanMaxTemp : UuidBytes :=
  ⟨[0xdc, 0xb7, 0x58, 0xb1, 0xf0, 0xfd, 0x4e, 0xc7, 0xb2, 0xc0, 0xef, 0x1e, 0x2a, 0x54, 0x7b, 0x76],
    rfl⟩

def fanMinRpm : UuidBytes :=
  ⟨[0xdb, 0x26, 0x1c, 0x77, 0x93, 0x4b, 0x45, 0xe2, 0x97, 0x42, 0x25, 0x6c, 0x62, 0xba, 0xdb, 0x7a],
    rfl⟩

def fanMaxRpm : UuidBytes :=
  ⟨[0x5c, 0xf8, 0x39, 0xdf, 0x8b, 0xe7, 0x42, 0xb9, 0x9a, 0xc5, 0x34, 0x03, 0xca, 0x2c, 0x8a, 0x6a],
    rfl⟩

def fanCurrentRpm : UuidBytes :=
  ⟨[0xad, 0xf9, 0x54, 0x92, 0x07, 0x76, 0x4f, 0xfc, 0x84, 0xf3, 0xb6, 0xc8, 0xb5, 0x26, 0x96, 0x83],
    rfl⟩

inductive Error where
  | parse (e : AcpiParseError)
  | unexpectedResponse
  | unexpectedArgumentType (type_ : UInt16)
  | operationFailed
  | invalidData
  deriving DecidableEq, Repr

abbrev Query := ExceptT Error Option

/-- The driver gets the request and fails with a code or returns a response. -/
structure Acpi where
  fanInstance : UInt8
  driver : Bytes → Except ℤ Bytes

def ofExcept {ε β : Type} (r : Except ε β) : ExceptT ε Option β := ExceptT.mk (some r)

namespace Acpi

def evaluate (acpi : Acpi) (method : AcpiMethodInput) : Parse AcpiEvalOutputBufferV1 :=
  if (method.args.getD []).length > 7 then throw .insufficientLength
  else do
    let input ← ofExcept (AcpiEvalInputBufferComplexV1Ex.tryFrom method)
    match acpi.driver input.toBytes with
    | .error code => throw (.evaluationFailed code)
    | .ok response => AcpiEvalOutputBufferV1.tryFrom response

/-- `self.evaluate(name, args)?` where the error is the source's -/
def query (acpi : Acpi) (name : String) (args : Option (List AcpiMethodArgument)) :
    Query AcpiEvalOutputBufferV1 :=
  (acpi.evaluate ⟨name.toList, args⟩).adapt .parse

def eval (acpi : Acpi) (name : String) (args : List AcpiMethodArgument) : Query (List AcpiValue) := do
  let output ← acpi.query name (some args)
  pure (output.arguments.map fun arg => acpiValueFrom arg.type_ arg.data)

end Acpi

def arg (output : AcpiEvalOutputBufferV1) (index : ℕ) : Query AcpiMethodArgumentV1 :=
  match output.arguments[index]? with
  | some a => pure a
  | none => throw .unexpectedResponse

def singleU32 (output : AcpiEvalOutputBufferV1) : Query UInt32 := do
  if output.count ≠ 1 then throw .unexpectedResponse
  else
    let arg ← arg output 0
    if arg.type_ ≠ AcpiArgumentType.integer.toU16 then throw (.unexpectedArgumentType arg.type_)
    else if arg.dataLength = 4 then pure arg.data32
    else if arg.dataLength = 8 then
      if arg.data.length ≠ 8 then throw .unexpectedResponse
      else if leValue arg.data < 2 ^ 32 then pure (UInt32.ofNat (leValue arg.data))
      else throw .invalidData
    else throw .unexpectedResponse

namespace Acpi

def evaluateU32 (acpi : Acpi) (name : String) (args : Option (List AcpiMethodArgument)) :
    Query UInt32 := do
  singleU32 (← acpi.query name args)

/-! ## ThermalSource -/

section Thermal

variable {α : Type} [HostFloat α] (acpi : Acpi)

def acpiGetVar (guid : UuidBytes) : Query α := do
  let output ← acpi.query "\\_SB.ECT0.TGVR"
    (some [.int acpi.fanInstance.toUInt32, .guid (toBytesLe guid)])
  if output.count ≠ 2 then throw .unexpectedResponse
  else if (← arg output 0).data32 ≠ 0 then throw .operationFailed
  else pure (ofU32 (← arg output 1).data32)

def acpiSetVar (guid : UuidBytes) (value : α) : Query Unit := do
  let output ← acpi.query "\\_SB.ECT0.TSVR"
    (some [.int acpi.fanInstance.toUInt32, .guid (toBytesLe guid), .int (HostNumber.toU32 value)])
  if output.count ≠ 1 then throw .unexpectedResponse
  else if (← arg output 0).data32 ≠ 0 then throw .operationFailed
  else pure ()

def getTemperature : Query α := do
  let output ← acpi.query "\\_SB.ECT0.RTMP" none
  if output.count ≠ 1 then throw .unexpectedResponse
  else pure (dkToC (← arg output 0).data32)

def getRpm : Query α := acpi.acpiGetVar fanCurrentRpm

def getMinRpm : Query α := acpi.acpiGetVar fanMinRpm

def getMaxRpm : Query α := acpi.acpiGetVar fanMaxRpm

def thresholdGuid : Threshold → UuidBytes
  | .on => fanOnTemp
  | .ramping => fanRampTemp
  | .max => fanMaxTemp

def getThreshold (threshold : Threshold) : Query α := do
  let value : α ← acpi.acpiGetVar (thresholdGuid threshold)
  pure (dkToC (HostNumber.toU32 value))

def setThreshold (threshold : Threshold) (value : α) : Query Unit :=
  acpi.acpiSetVar (thresholdGuid threshold) (ofU32 (cToDk value) : α)

def setRpm (rpm : α) : Query Unit := acpi.acpiSetVar fanCurrentRpm rpm

end Thermal

end Acpi

/-! ## BatterySource -/

/-- `BatteryState` comes from another crate: its `from_bits` keeps known bits and refuses others. -/
structure BatteryStateFlags where
  known : UInt32
  fromBits : UInt32 → Option UInt32
  fromBits_eq : ∀ bits, fromBits bits = if bits &&& ~~~known = 0 then some bits else none

def Acpi.getBst (acpi : Acpi) (flags : BatteryStateFlags) : Query BstReturn := do
  let data ← acpi.query "\\_SB.ECT0.TBST" none
  if data.count ≠ 4 then throw .unexpectedResponse
  else
    match flags.fromBits (← arg data 0).data32 with
    | none => throw .invalidData
    | some batteryState =>
      pure ⟨batteryState, (← arg data 1).data32, (← arg data 2).data32, (← arg data 3).data32⟩

/-! ## RtcSource -/

structure TimeAlarmDeviceCapabilities where
  bits : UInt32

structure TimerStatus where
  bits : UInt32

structure AlarmExpiredWakePolicy where
  seconds : UInt32

structure AlarmTimerSeconds where
  seconds : UInt32

structure TimestampBytes where
  bytes : Bytes
  size : bytes.length = 16

def timerIdBits : AcpiTimerId → UInt32
  | .acPower => 0
  | .dcPower => 1

namespace Acpi

variable (acpi : Acpi)

def getCapabilities : Query TimeAlarmDeviceCapabilities := do
  pure ⟨← acpi.evaluateU32 "\\_SB.ECT0._GCP" none⟩

def getWakeStatus (timerId : AcpiTimerId) : Query TimerStatus := do
  pure ⟨← acpi.evaluateU32 "\\_SB.ECT0._GWS" (some [.int (timerIdBits timerId)])⟩

def getExpiredTimerWakePolicy (timerId : AcpiTimerId) : Query AlarmExpiredWakePolicy := do
  pure ⟨← acpi.evaluateU32 "\\_SB.ECT0._TIP" (some [.int (timerIdBits timerId)])⟩

def getTimerValue (timerId : AcpiTimerId) : Query AlarmTimerSeconds := do
  pure ⟨← acpi.evaluateU32 "\\_SB.ECT0._TIV" (some [.int (timerIdBits timerId)])⟩

/-- What the four setters share: evaluation and the check of the status. -/
def acknowledge (name : String) (args : List AcpiMethodArgument) : Query Unit := do
  let status ← acpi.evaluateU32 name (some args)
  if status ≠ 0 then throw .operationFailed else pure ()

def setRealTime (timestamp : TimestampBytes) : Query Unit :=
  acpi.acknowledge "\\_SB.ECT0._SRT" [.buffer timestamp.bytes]

def setTimerValue (timerId : AcpiTimerId) (value : AlarmTimerSeconds) : Query Unit :=
  acpi.acknowledge "\\_SB.ECT0._STV" [.int (timerIdBits timerId), .int value.seconds]

def setExpiredTimerWakePolicy (timerId : AcpiTimerId) (policy : AlarmExpiredWakePolicy) :
    Query Unit :=
  acpi.acknowledge "\\_SB.ECT0._STP" [.int (timerIdBits timerId), .int policy.seconds]

def clearWakeStatus (timerId : AcpiTimerId) : Query Unit :=
  acpi.acknowledge "\\_SB.ECT0._CWS" [.int (timerIdBits timerId)]

end Acpi

end AcpiSource
