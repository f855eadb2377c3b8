import OdpPlatform.FirmwareServices

/-! # helpers.rs and proxy.rs: boot services, security transition, image dispatch

Loops without a bound of their own take fuel and hang without it. Log texts are left out; a
`Result` that the source only logs is run for its calls. -/
namespace PatinaBootHelpers

open ByteBuffer DevicePathNodes InteractionProgram FirmwareServices

def watchdogTimeoutSeconds : ℕ := 300

def logError {α : Type} (x : FirmwareE α) : Firmware Unit := do
  let _ ← x.run
  pure ()

def drainKeys (hotkeyScancode : UInt16) (protocol : Interface) : ℕ → Firmware Bool
  | 0 => .hang
  | fuel + 1 => do
    let (status, scanCode) ← ask (.readKeyStroke protocol)
    if status = .success then
      if scanCode = hotkeyScancode then
        pure true
      else
        drainKeys hotkeyScancode protocol fuel
    else
      pure false

def detectHotkeyFromHandles (fuel : ℕ) (hotkeyScancode : UInt16) : List Handle → Firmware Bool
  | [] => pure false
  | handle :: rest => do
    match ← ask (.handleProtocol handle .simpleTextInput) with
    | .error _ => detectHotkeyFromHandles fuel hotkeyScancode rest
    | .ok protocol =>
      if ← drainKeys hotkeyScancode protocol fuel then
        pure true
      else
        detectHotkeyFromHandles fuel hotkeyScancode rest

def detectHotkey (fuel : ℕ) (hotkeyScancode : UInt16) : Firmware Bool := do
  match ← ask (.locateHandleBuffer (.byProtocol .simpleTextInput)) with
  | .error _ => pure false
  | .ok handles => detectHotkeyFromHandles fuel hotkeyScancode handles

/-- Create, signal and close an event of the group; closed even when the signal failed. -/
def signalGroup (group : EventGroup) : FirmwareE Unit := do
  let event ← mapErr (ask (.createEventEx group))
  let signalResult ← ask (.signalEvent event)
  let closeResult ← ask (.closeEvent event)
  mapErr (pure signalResult)
  mapErr (pure closeResult)

def signalBdsPhaseEntry : FirmwareE Unit := signalGroup .endOfDxe

def signalReadyToBoot : FirmwareE Unit := signalGroup .readyToBoot

/-! ## PatinaBootMgrLibProxy -/

def proxyRevision : UInt32 := 0x00010002

structure Proxy where
  interface : Interface
  revision : UInt32

def locate : FirmwareE Proxy := do
  match ← mapErr (ask (.locateProtocolUnchecked .patinaBootMgrLibProxy)) with
  | none => throw .notFound
  | some interface =>
    let revision ← ask (.proxyRevision interface)
    if revision >>> 16 ≠ proxyRevision >>> 16 then
      throw .unsupported
    else
      pure ⟨interface, revision⟩

def check (status : Status) : FirmwareE Unit :=
  if status = .success then pure () else throw ⟨status⟩

def installDxeSmmReadyToLock : FirmwareE Unit := do
  let proxy ← locate
  let status ← ask (.proxyInstallDxeSmmReadyToLock proxy.interface)
  check status

def displayBootLogo : FirmwareE Unit := do
  let proxy ← locate
  if proxy.revision < 0x00010002 then
    throw .unsupported
  else do
    let status ← ask (.proxyDisplayBootLogo proxy.interface)
    check status

def pciClass (handle : Handle) : FirmwareE UInt32 := do
  let pci ← mapErr (ask (.handleProtocol handle .pciIo))
  let (status, value) ← ask (.pciConfigRead pci)
  if status ≠ .success then
    throw ⟨status⟩
  else
    pure ((((value >>> 24) &&& 0xff) <<< 8) ||| ((value >>> 16) &&& 0xff))

def isUsbHostController (handle : Handle) : Firmware Bool := do
  match ← (pciClass handle).run with
  | .ok value => pure (value == 0x0c03)
  | .error _ => pure false

/-- One handle of a pass: `connected` grows, `newly` counts the connects of this pass. -/
def connectHandle (skips : Handle → Firmware Bool) (recursive : Bool)
    (st : List Handle × ℕ) (handle : Handle) : Firmware (List Handle × ℕ) := do
  let (connected, newly) := st
  if handle ∈ connected then
    pure (connected, newly)
  else if ← skips handle then
    pure (handle :: connected, newly)
  else do
    let _ ← ask (.connectController handle recursive)
    pure (handle :: connected, newly + 1)

/-- Passes over all handles, at most `iterations` of them, until one connects nothing new. -/
def connectPasses (skips : Handle → Firmware Bool) (recursive : Bool) :
    ℕ → List Handle → FirmwareE Unit
  | 0, _ => pure ()
  | iterations + 1, connected => do
    let handles ← mapErr (ask (.locateHandleBuffer .allHandle))
    let (connected, newly) ←
      (handles.foldlM (connectHandle skips recursive) (connected, 0) : Firmware (List Handle × ℕ))
    if newly = 0 then
      pure ()
    else
      connectPasses skips recursive iterations connected

def connectAll : FirmwareE Unit := connectPasses (fun _ => pure false) true 10 []

def connectAllSkipUsb : FirmwareE Unit := connectPasses isUsbHostController false 20 []

section DevicePaths

variable [PatinaDevicePath]

open PatinaDevicePath

structure MultiInstance where
  result : Option DevicePath := none
  seenHandles : List Handle := []

def addInstance (st : MultiInstance) (handle : Handle) : Firmware MultiInstance := do
  if handle ∈ st.seenHandles then
    pure st
  else
    let st := { st with seenHandles := handle :: st.seenHandles }
    match ← ask (.handleProtocolDevicePath handle) with
    | .error _ => pure st
    | .ok memory =>
      match tryFromPtr memory, st.result with
      | none, _ => pure st
      | some path, some multi => pure { st with result := some (appendDevicePathInstances multi path) }
      | some path, none => pure { st with result := some path }

def addInstances (st : MultiInstance) (guid : Guid) : Firmware MultiInstance := do
  match ← ask (.locateHandleBuffer (.byProtocol guid)) with
  | .error _ => pure st
  | .ok handles => handles.foldlM addInstance st

def buildMultiInstanceDevicePath (guids : List Guid) : Firmware (Option DevicePath) := do
  let st ← guids.foldlM addInstances {}
  pure st.result

def consoleVars : List (VariableName × List Guid) :=
  [(.conIn, [.simpleTextInput]), (.conOut, [.simpleTextOutput, .graphicsOutput]),
    (.errOut, [.simpleTextOutput])]

def writeConsoleVar (_ : Unit) (var : VariableName × List Guid) : Firmware Unit := do
  match ← buildMultiInstanceDevicePath var.2 with
  | none => pure ()
  | some path => do
    let _ ← ask (.setVariable var.1 (asBytes path))

/-- Failures of single variables are logged only. -/
def discoverConsoleDevices : FirmwareE Unit :=
  liftM (consoleVars.foldlM writeConsoleVar ())

def isPartialDevicePath (path : DevicePath) : Bool :=
  match path with
  | [] => false
  | first :: _ =>
    if IsFw first then false
    else first.type != typeHardware && first.type != typeAcpi && first.type != typeEnd

/-- The nodes behind the first HardDrive node, End nodes left out. -/
def remainingNodes : Bool → List Node → List Node
  | _, [] => []
  | pastHd, node :: rest =>
    if pastHd = true ∧ node.type ≠ typeEnd then
      node :: remainingNodes pastHd rest
    else
      remainingNodes (pastHd || (hardDriveTryFromNode node).isSome) rest

/-- The nodes up to and including the first that matches the target, before any End node. -/
def prefixNodes (target : HardDrive) : List Node → Option (List Node)
  | [] => none
  | node :: rest =>
    if node.type = typeEnd then none
    else if hardDriveTryFromNode node = some target then some [node]
    else (prefixNodes target rest).map (node :: ·)

def matchHandle (target : HardDrive) (remaining : DevicePath) (matched : Option DevicePath)
    (handle : Handle) : FirmwareE (Option DevicePath) := do
  match ← ask (.handleProtocolDevicePath handle) with
  | .error _ => pure matched
  | .ok memory =>
    match (tryFromPtr memory).bind (prefixNodes target) with
    | none => pure matched
    | some nodes =>
      let result := appendDevicePath (fromDevicePathNodeIter nodes) remaining
      if matched.isSome then
        throw .securityViolation
      else
        pure (some result)

def hasRealNode : DevicePath → Bool
  | [] => false
  | node :: _ => node.type != typeEnd

def expandDevicePath (partialPath : DevicePath) : FirmwareE DevicePath := do
  if hasRealNode partialPath = false then
    throw .invalidParameter
  else if isPartialDevicePath partialPath = false then
    pure partialPath
  else
    match partialPath.findSome? hardDriveTryFromNode with
    | none => throw .invalidParameter
    | some target =>
      let remaining := fromDevicePathNodeIter (remainingNodes false partialPath)
      let handles ← mapErr (ask (.locateHandleBuffer (.byProtocol .devicePath)))
      let matched ← handles.foldlM (matchHandle target remaining) none
      match matched with
      | none => throw .notFound
      | some path => pure path

def bootFromDevicePath (parentHandle : Handle) (devicePath : DevicePath) : FirmwareE Unit := do
  let fullPath ←
    if isPartialDevicePath devicePath then expandDevicePath devicePath else pure devicePath
  let imageHandle ← mapErr (ask (.loadImage parentHandle fullPath))
  mapErr (ask (.setWatchdogTimer watchdogTimeoutSeconds))
  let result ← ask (.startImage imageHandle)
  let _ ← ask (.setWatchdogTimer 0)
  mapErr (pure result)

end DevicePaths

/-- The capability that `enterLockedBoot` gives out; dispatching an image takes one. -/
inductive LockedBoot where
  | enter

def enterLockedBoot : FirmwareE LockedBoot := do
  signalBdsPhaseEntry
  installDxeSmmReadyToLock
  pure .enter

def LockedBoot.bootFromDevicePath [PatinaDevicePath] (_ : LockedBoot) (parentHandle : Handle)
    (devicePath : DevicePath) : FirmwareE Unit :=
  PatinaBootHelpers.bootFromDevicePath parentHandle devicePath

end PatinaBootHelpers
