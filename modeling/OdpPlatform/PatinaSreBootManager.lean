import OdpPlatform.PatinaBpRecovery

/-! # sre_boot_manager.rs: SreBootManager

A note marks each place where a boot attempt is dispatched, and the outcome of the payload
probe; no firmware service sees it. -/
namespace PatinaSreBootManager

open ByteBuffer DevicePathNodes InteractionProgram FirmwareServices PatinaBootHelpers
open PatinaBootOptions PatinaBpLogPage PatinaBpRecovery

inductive SreHotkey where
  | volumeUp
  | volumeDown
  | none
  deriving DecidableEq, Repr

def probeSreHotkey : Firmware SreHotkey := do
  match ← ask (.locateProtocolUnchecked .msButtonServices) with
  | .ok (some protocol) => do
    let (_, volUp) ← ask (.preBootVolumeUpCheck protocol)
    let (_, volDown) ← ask (.preBootVolumeDownCheck protocol)
    let _ ← ask (.preBootClearVolumeState protocol)
    if volUp ≠ 0 then
      pure .volumeUp
    else if volDown ≠ 0 then
      pure .volumeDown
    else
      pure .none
  | _ => pure .none

/-- capsule.rs: `process` -/
def capsuleProcess : Firmware Unit := do
  if ← ask .isFlashUpdateBoot then
    logError displayBootLogo
  logError (signalGroup .muReadyToProcessCapsulesNotify)

def dispatchLoop : ℕ → Firmware Unit
  | 0 => .hang
  | fuel + 1 => do
    match ← ask .dispatch with
    | .ok true => dispatchLoop fuel
    | _ => pure ()

def runPreLockPhase (signalDfciStart : Bool) (preLockWork : Firmware Unit)
    (enterLockedBoot : FirmwareE LockedBoot) : FirmwareE LockedBoot := do
  logError (signalGroup .msStartOfBdsNotify)
  if signalDfciStart then
    logError (signalGroup .dfciStartOfBdsNotify)
  (preLockWork : Firmware Unit)
  enterLockedBoot

structure SreBootManager where
  mainOsPath : DevicePath
  sreAppPath : Option DevicePath := none
  frontpageAppPath : Option DevicePath := none
  bpSreFallback : Bool := false
  dfciBdsSignal : Bool := false
  capsuleProcessing : Bool := false
  bootSourcePolicy : BootSourcePolicy := {}

def SreBootManager.preLockWork (self : SreBootManager) (fuel : ℕ) : Firmware Unit := do
  dispatchLoop fuel
  logError connectAllSkipUsb
  if self.capsuleProcessing then
    capsuleProcess

def devicePathHasFwFileNode (path : DevicePath) : Bool := path.any fun node => IsFw node

def devicePathHasUsbNode (path : DevicePath) : Bool := path.any fun node => IsUsb node

section Execute

variable [PatinaDevicePath]

open PatinaDevicePath

def usbLoaderPath (arch : TargetArch) (dp : Memory) : Option DevicePath :=
  let baseTotal := devicePathSize dp
  if baseTotal < 4 then none
  else
    tryFromPtr (memoryOf
      (readMemory dp (baseTotal - 4) ++ buildFilePathNode (defaultBootFilePath arch)))

def firstUsbSfs (arch : TargetArch) : List Handle → Firmware (Option DevicePath)
  | [] => pure none
  | handle :: rest => do
    match ← ask (.handleProtocolUncheckedDevicePath handle) with
    | .ok (some dp) =>
      match tryFromPtr dp with
      | some path =>
        if devicePathHasUsbNode path then
          match usbLoaderPath arch dp with
          | some full => pure (some full)
          | none => firstUsbSfs arch rest
        else
          firstUsbSfs arch rest
      | none => firstUsbSfs arch rest
    | _ => firstUsbSfs arch rest

def findFirstUsbSfsDevicePath (arch : TargetArch) : Firmware (Option DevicePath) := do
  match ← ask (.locateHandleBuffer (.byProtocol .simpleFileSystem)) with
  | .error _ => pure none
  | .ok handles => firstUsbSfs arch handles

/-- Signal ReadyToBoot, then load and start; both outcomes are only logged. -/
def signalAndBoot (lockedBoot : LockedBoot) (imageHandle : Handle) (site : DispatchSite)
    (path : DevicePath) : Firmware Unit := do
  logError signalReadyToBoot
  ask (.note (.bootAttempt site (some path)))
  logError (lockedBoot.bootFromDevicePath imageHandle path)

def signalAndRecover (arch : TargetArch) (lockedBoot : LockedBoot) (imageHandle : Handle) :
    Firmware Unit := do
  logError signalReadyToBoot
  ask (.note (.bootAttempt .hotkeyRecovery none))
  logError (runSreFlow arch lockedBoot imageHandle)

def SreBootManager.dispatchHotkey (self : SreBootManager) (arch : TargetArch)
    (lockedBoot : LockedBoot) (imageHandle : Handle) : SreHotkey → Firmware Unit
  | .volumeUp =>
    match self.sreAppPath with
    | some path => signalAndBoot lockedBoot imageHandle .sreApp path
    | none => signalAndRecover arch lockedBoot imageHandle
  | .volumeDown => do
    match ← findFirstUsbSfsDevicePath arch with
    | some usbPath => signalAndBoot lockedBoot imageHandle .usbBoot usbPath
    | none =>
      match self.frontpageAppPath with
      | some path => signalAndBoot lockedBoot imageHandle .frontpageApp path
      | none => pure ()
  | .none => pure ()

/-- One Boot#### entry; the result says whether any entry has been tried so far. -/
def bootOption (lockedBoot : LockedBoot) (imageHandle : Handle) (bpHasSre : Bool)
    (triedAny : Bool) (devicePath : DevicePath) : Firmware Bool := do
  if bpHasSre ∧ devicePathHasUsbNode devicePath then
    pure triedAny
  else if bpHasSre ∧ devicePathHasFwFileNode devicePath then
    pure triedAny
  else do
    signalAndBoot lockedBoot imageHandle .bootOption devicePath
    pure true

/-- One filesystem fallback candidate: no ReadyToBoot is signalled here. -/
def bootCandidate (lockedBoot : LockedBoot) (imageHandle : Handle) (bpHasSre : Bool)
    (_ : Unit) (devicePath : DevicePath) : Firmware Unit := do
  if bpHasSre ∧ devicePathHasUsbNode devicePath then
    pure ()
  else do
    ask (.note (.bootAttempt .fallbackCandidate (some devicePath)))
    logError (lockedBoot.bootFromDevicePath imageHandle devicePath)

def SreBootManager.bootMainOs (self : SreBootManager) (arch : TargetArch)
    (lockedBoot : LockedBoot) (imageHandle : Handle) (bpHasSre : Bool) : Firmware Unit := do
  signalAndBoot lockedBoot imageHandle .mainOs self.mainOsPath
  match ← (fallbackBootOptions arch self.bootSourcePolicy).run with
  | .ok candidates => do
    ask (.note (.fallbackOptions candidates))
    candidates.foldlM (bootCandidate lockedBoot imageHandle bpHasSre) ()
  | .error _ => ask (.note (.fallbackOptions []))

def bootOptions (lockedBoot : LockedBoot) (imageHandle : Handle) (bpHasSre : Bool) :
    Firmware Bool := do
  match ← discoverBootOptions.run with
  | .ok bootConfig => bootConfig.devices.foldlM (bootOption lockedBoot imageHandle bpHasSre) false
  | .error _ => pure false

def SreBootManager.bootPass (self : SreBootManager) (arch : TargetArch)
    (lockedBoot : LockedBoot) (imageHandle : Handle) (bpHasSre : Bool) : Firmware Unit := do
  let triedAny ← bootOptions lockedBoot imageHandle bpHasSre
  if triedAny = false then
    self.bootMainOs arch lockedBoot imageHandle bpHasSre

def connectForHotkey (hotkey : SreHotkey) : Firmware Unit := do
  if hotkey ≠ .none then
    logError connectAll
    logError discoverConsoleDevices

def SreBootManager.probePayload (self : SreBootManager) : Firmware Bool :=
  if self.bpSreFallback then do
    let found ← bpHasSrePayload
    ask (.note (.bpHasSrePayload found))
    pure found
  else
    pure false

def lastResort (arch : TargetArch) (lockedBoot : LockedBoot) (imageHandle : Handle)
    (bpHasSre : Bool) : Firmware Unit := do
  if bpHasSre then
    ask (.note (.bootAttempt .lastResort none))
    logError (runSreFlow arch lockedBoot imageHandle)

def SreBootManager.hotkeyPhase (self : SreBootManager) (arch : TargetArch)
    (lockedBoot : LockedBoot) (imageHandle : Handle) : Firmware Unit := do
  let hotkey ← probeSreHotkey
  connectForHotkey hotkey
  self.dispatchHotkey arch lockedBoot imageHandle hotkey

def SreBootManager.normalBoot (self : SreBootManager) (arch : TargetArch)
    (lockedBoot : LockedBoot) (imageHandle : Handle) (bpHasSre : Bool) : Firmware Unit := do
  self.bootPass arch lockedBoot imageHandle bpHasSre
  logError connectAll
  ask (.note .fullConnect)
  self.bootPass arch lockedBoot imageHandle bpHasSre
  lastResort arch lockedBoot imageHandle bpHasSre

def SreBootManager.boot (self : SreBootManager) (arch : TargetArch) (lockedBoot : LockedBoot)
    (imageHandle : Handle) : Firmware Unit := do
  self.hotkeyPhase arch lockedBoot imageHandle
  let bpHasSre ← self.probePayload
  self.normalBoot arch lockedBoot imageHandle bpHasSre

def SreBootManager.execute (self : SreBootManager) (arch : TargetArch) (fuel : ℕ)
    (imageHandle : Handle) : FirmwareE Empty := do
  let lockedBoot ← runPreLockPhase self.dfciBdsSignal (self.preLockWork fuel) enterLockedBoot
  (self.boot arch lockedBoot imageHandle : Firmware Unit)
  throw .notFound

end Execute

end PatinaSreBootManager
