import OdpPlatform.PatinaBootHelpers

/-! # Boot options: config.rs, boot_source_policy.rs, load options of helpers.rs -/
namespace PatinaBootOptions

open ByteBuffer DevicePathNodes InteractionProgram FirmwareServices PatinaBootHelpers

/-! ## BootConfig -/

/-- `failureHandler` tells whether a handler was configured. -/
structure BootConfig where
  devices : List DevicePath
  hotkey : Option UInt16 := none
  hotkeyDevices : List DevicePath := []
  failureHandler : Bool := false

def BootConfig.new (device : DevicePath) : BootConfig := { devices := [device] }

def BootConfig.withDevice (config : BootConfig) (device : DevicePath) : BootConfig :=
  { config with devices := config.devices ++ [device] }

def BootConfig.handleFailure (config : BootConfig) : Firmware Unit := do
  if config.failureHandler then ask .failureHandler

inductive TargetArch where
  | aarch64
  | x86_64
  deriving DecidableEq, Repr

def defaultBootFilePath : TargetArch → List Char
  | .aarch64 => "\\EFI\\Boot\\bootaa64.efi".toList
  | .x86_64 => "\\EFI\\Boot\\bootx64.efi".toList

def fallbackOsLoaderPaths (arch : TargetArch) : List (List Char) :=
  ["\\EFI\\Microsoft\\Boot\\bootmgfw.efi".toList, defaultBootFilePath arch]

section LoadOptions

variable [PatinaDevicePath]

open PatinaDevicePath

def loadOptionActive : UInt32 := 0x00000001

def u16FromLeBytes (a b : UInt8) : UInt16 := a.toUInt16 ||| (b.toUInt16 <<< 8)

/-- Fuel: every node is at least a header long. -/
def validateFrom (buffer : Bytes) : ℕ → ℕ → Bool
  | 0, _ => false
  | fuel + 1, pos =>
    let nodeLength := (u16FromLeBytes (buffer.getD (pos + 2) 0) (buffer.getD (pos + 3) 0)).toNat
    if pos + nodeHdrBytes > buffer.length then false
    else if nodeLength < nodeHdrBytes then false
    else if pos + nodeLength > buffer.length then false
    else if buffer.getD pos 0 = typeEnd ∧ buffer.getD (pos + 1) 0 = subtypeEntire then true
    else validateFrom buffer fuel (pos + nodeLength)

def validateDevicePathNodes (buffer : Bytes) : Bool := validateFrom buffer (buffer.length + 1) 0

def skipDescription : Bytes → Option Bytes
  | a :: b :: rest => if u16FromLeBytes a b = 0 then some rest else skipDescription rest
  | _ => none

def parseLoadOption (data : Bytes) : Option DevicePath :=
  if data.length < 6 then
    none
  else if leWord data &&& loadOptionActive = 0 then
    none
  else
    let filePathListLength := (u16FromLeBytes (data.getD 4 0) (data.getD 5 0)).toNat
    match skipDescription (data.drop 6) with
    | none => none
    | some rest =>
      if filePathListLength > rest.length then
        none
      else
        let filePathBytes := rest.take filePathListLength
        if validateDevicePathNodes filePathBytes = false then none
        else tryFromPtr (memoryOf filePathBytes)

def chunksU16 : Bytes → List UInt16
  | a :: b :: rest => u16FromLeBytes a b :: chunksU16 rest
  | _ => []

def addBootOption (paths : List DevicePath) (optionNumber : UInt16) :
    Firmware (List DevicePath) := do
  match ← ask (.getVariable (.bootOption optionNumber)) with
  | .error _ => pure paths
  | .ok bytes =>
    match parseLoadOption bytes with
    | none => pure paths
    | some path => pure (paths ++ [path])

def discoverBootOptions : FirmwareE BootConfig := do
  let bytes ← mapErr (ask (.getVariable .bootOrder))
  if bytes.length % 2 ≠ 0 ∨ bytes = [] then
    throw .notFound
  else
    let paths ← ((chunksU16 bytes).foldlM addBootOption [] : Firmware (List DevicePath))
    match paths with
    | [] => throw .notFound
    | first :: rest => pure (rest.foldl BootConfig.withDevice (BootConfig.new first))

/-! ## BootSourcePolicy -/

inductive SecureBootState where
  | enabled
  | disabled
  | setupMode
  deriving DecidableEq, Repr

structure BootSourcePolicy where
  approvedInternalDevices : List DevicePath := []
  allowRemovableMedia : Bool := false
  allowSecureBootDisabled : Bool := false
  allowSetupMode : Bool := false

def hardDriveNodes (path : DevicePath) : List HardDrive := path.filterMap hardDriveTryFromNode

def isUsbDevicePath (path : DevicePath) : Bool := path.any fun node => IsUsb node

def BootSourcePolicy.hasSources (policy : BootSourcePolicy) : Bool :=
  policy.allowRemovableMedia ||
    policy.approvedInternalDevices.any fun approved => !(hardDriveNodes approved).isEmpty

def BootSourcePolicy.allowsSecurityState (policy : BootSourcePolicy) : SecureBootState → Bool
  | .enabled => true
  | .disabled => policy.allowSecureBootDisabled
  | .setupMode => policy.allowSetupMode

def BootSourcePolicy.allowsDevice (policy : BootSourcePolicy) (candidate : DevicePath) : Bool :=
  if isUsbDevicePath candidate then
    policy.allowRemovableMedia
  else
    policy.approvedInternalDevices.any fun approved =>
      (hardDriveNodes approved).any fun approvedHd =>
        (hardDriveNodes candidate).any fun candidateHd => approvedHd == candidateHd

def readStateVariable (name : VariableName) : FirmwareE UInt8 := do
  match ← mapErr (ask (.getVariable name)) with
  | [state] => if state ≤ 1 then pure state else throw .securityViolation
  | _ => throw .securityViolation

def secureBootState : FirmwareE SecureBootState := do
  let secureBoot ← readStateVariable .secureBoot
  let setupMode ← readStateVariable .setupMode
  if secureBoot = 1 ∧ setupMode = 0 then pure .enabled
  else if secureBoot = 0 ∧ setupMode = 0 then pure .disabled
  else if secureBoot = 0 ∧ setupMode = 1 then pure .setupMode
  else throw .securityViolation

def addVolume (policy : BootSourcePolicy) (volumes : List DevicePath) (handle : Handle) :
    Firmware (List DevicePath) := do
  match ← ask (.handleProtocolDevicePath handle) with
  | .error _ => pure volumes
  | .ok memory =>
    match tryFromPtr memory with
    | none => pure volumes
    | some volumePath =>
      if policy.allowsDevice volumePath then pure (volumes ++ [volumePath]) else pure volumes

def fallbackCandidates (arch : TargetArch) (volumes : List DevicePath) : List DevicePath :=
  (fallbackOsLoaderPaths arch).flatMap fun loader =>
    volumes.map fun volume =>
      appendDevicePath volume (fromDevicePathNodeIter [filePathNode loader])

def fallbackBootOptions (arch : TargetArch) (policy : BootSourcePolicy) :
    FirmwareE (List DevicePath) := do
  if policy.hasSources = false then
    throw .notFound
  else
    let state ← secureBootState
    if policy.allowsSecurityState state = false then
      throw .securityViolation
    else
      let handles ← mapErr (ask (.locateHandleBuffer (.byProtocol .simpleFileSystem)))
      let volumes ← (handles.foldlM (addVolume policy) [] : Firmware (List DevicePath))
      if volumes = [] then
        throw .notFound
      else
        pure (fallbackCandidates arch volumes)

end LoadOptions

end PatinaBootOptions
