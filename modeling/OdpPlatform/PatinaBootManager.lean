import OdpPlatform.PatinaBootOptions

/-! # simple_boot_manager.rs: SimpleBootManager -/
namespace PatinaBootManager

open DevicePathNodes InteractionProgram FirmwareServices PatinaBootHelpers PatinaBootOptions

inductive ConnectController where
  | connectAllStrategy
  | platformStrategy

def ConnectController.connect : ConnectController → FirmwareE Unit
  | .connectAllStrategy => connectAll
  | .platformStrategy => mapErr (ask .strategyConnect)

def totalHandleCount : FirmwareE ℕ := do
  let handles ← mapErr (ask (.locateHandleBuffer .allHandle))
  pure handles.length

def interleaveLoop (connectFn : FirmwareE Unit) : ℕ → ℕ → FirmwareE Unit
  | 0, _ => ExceptT.mk .hang
  | fuel + 1, prevHandleCount => do
    connectFn
    let _ ← mapErr (ask .dispatch)
    let currHandleCount ← totalHandleCount
    if currHandleCount = prevHandleCount then
      pure ()
    else
      interleaveLoop connectFn fuel currHandleCount

def interleaveConnectAndDispatch (fuel : ℕ) (connectFn : FirmwareE Unit) : FirmwareE Unit := do
  let prevHandleCount ← totalHandleCount
  interleaveLoop connectFn fuel prevHandleCount

structure SimpleBootManager where
  config : BootConfig
  connectStrategy : ConnectController := .connectAllStrategy

section Execute

variable [PatinaDevicePath]

def bootDevice (lockedBoot : LockedBoot) (imageHandle : Handle) (devicePath : DevicePath) :
    Firmware Unit := do
  logError signalReadyToBoot
  ask (.note (.bootAttempt .bootDevice (some devicePath)))
  logError (lockedBoot.bootFromDevicePath imageHandle devicePath)

def bootDevices (lockedBoot : LockedBoot) (imageHandle : Handle) : List DevicePath → Firmware Unit
  | [] => pure ()
  | devicePath :: rest => do
    bootDevice lockedBoot imageHandle devicePath
    bootDevices lockedBoot imageHandle rest

def SimpleBootManager.boot (fuel : ℕ) (self : SimpleBootManager) (lockedBoot : LockedBoot)
    (imageHandle : Handle) : FirmwareE Empty := do
  logError discoverConsoleDevices
  let useHotkeyDevices ←
    match self.config.hotkey with
    | some hotkey => detectHotkey fuel hotkey
    | none => pure false
  bootDevices lockedBoot imageHandle
    (if useHotkeyDevices then self.config.hotkeyDevices else self.config.devices)
  self.config.handleFailure
  throw .notFound

def SimpleBootManager.executeWith (fuel : ℕ) (self : SimpleBootManager) (imageHandle : Handle)
    (enterLockedBoot : FirmwareE LockedBoot) : FirmwareE Empty := do
  logError (interleaveConnectAndDispatch fuel self.connectStrategy.connect)
  let lockedBoot ← enterLockedBoot
  self.boot fuel lockedBoot imageHandle

def SimpleBootManager.execute (fuel : ℕ) (self : SimpleBootManager) (imageHandle : Handle) :
    FirmwareE Empty :=
  self.executeWith fuel imageHandle enterLockedBoot

end Execute

end PatinaBootManager
