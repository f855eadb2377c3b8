import OdpPlatform.InteractionContract
import OdpPlatform.DevicePathNodes

/-! # The services the firmware code calls

One constructor of `Call` for each way the modelled code reaches outside itself: NVMe
pass-through commands, the edk2 services of SrePkg, the patina boot, runtime and dispatch
services, and protocol members. `Answer` gives what each may come back with. -/
namespace FirmwareServices

open ByteBuffer DevicePathNodes InteractionProgram InteractionContract

/-- EFI_STATUS by its three code ranges; the number is the code without its high bit. -/
inductive Status where
  | success
  | warning (code : ℕ)
  | error (code : ℕ)
  deriving DecidableEq, Repr

/-- The macro EFI_ERROR: warnings are not errors. -/
def Status.isError : Status → Bool
  | .error _ => true
  | _ => false

@[simp] theorem isError_success : Status.success.isError = false := rfl

abbrev efiInvalidParameter : Status := .error 2
abbrev efiUnsupported : Status := .error 3
abbrev efiBadBufferSize : Status := .error 4
abbrev efiBufferTooSmall : Status := .error 5
abbrev efiNotReady : Status := .error 6
abbrev efiDeviceError : Status := .error 7
abbrev efiOutOfResources : Status := .error 9
abbrev efiNotFound : Status := .error 14
abbrev efiAborted : Status := .error 21
abbrev efiProtocolError : Status := .error 24
abbrev efiSecurityViolation : Status := .error 26
abbrev efiEndOfMedia : Status := .error 28

structure EfiError where
  status : Status
  deriving DecidableEq, Repr

namespace EfiError

abbrev invalidParameter : EfiError := ⟨efiInvalidParameter⟩
abbrev unsupported : EfiError := ⟨efiUnsupported⟩
abbrev outOfResources : EfiError := ⟨efiOutOfResources⟩
abbrev notFound : EfiError := ⟨efiNotFound⟩
abbrev securityViolation : EfiError := ⟨efiSecurityViolation⟩

end EfiError

def nvmeAdminGetLogPageCmd : UInt8 := 0x02
def nvmeAdminIdentifyCmd : UInt8 := 0x06
def nvmeAdminSetFeaturesCmd : UInt8 := 0x09
def nvmeAdminFwCommitCmd : UInt8 := 0x10
def nvmeAdminFwImageDownloadCmd : UInt8 := 0x11

def cdw10Valid : UInt8 := 0x04
def cdw11Valid : UInt8 := 0x08
def cdw12Valid : UInt8 := 0x10
def cdw13Valid : UInt8 := 0x20

structure NvmeCommand where
  opcode : UInt8
  flags : UInt8
  cdw10 : UInt32 := 0
  cdw11 : UInt32 := 0
  cdw12 : UInt32 := 0
  cdw13 : UInt32 := 0
  deriving DecidableEq, Repr

/-- `buffer` is what the transfer buffer holds when the command is issued. -/
structure Packet where
  commandTimeout : ℕ
  command : NvmeCommand
  buffer : Bytes := []
  transferLength : ℕ := 0
  deriving DecidableEq, Repr

structure Completion where
  status : Status
  sct : UInt8
  sc : UInt8
  data : Bytes
  deriving DecidableEq, Repr

/-- The transfer buffer afterwards: the device writes at most `transferLength` bytes. -/
def received (p : Packet) (c : Completion) : Bytes :=
  splice p.buffer 0 (c.data.take p.transferLength)

def Completion.Accepted (c : Completion) : Prop :=
  c.status.isError = false ∧ c.sct = 0 ∧ c.sc = 0

instance (c : Completion) : Decidable c.Accepted := inferInstanceAs (Decidable (_ ∧ _ ∧ _))

structure CompletionEntry where
  status : Status
  dw0 : UInt32
  dw3 : UInt32
  data : Bytes
  deriving DecidableEq, Repr

namespace CompletionEntry

def statusField (c : CompletionEntry) : UInt32 := (c.dw3 >>> 17) &&& 0x7FFF
def sc (c : CompletionEntry) : UInt32 := c.statusField &&& 0xFF
def sct (c : CompletionEntry) : UInt32 := (c.statusField >>> 8) &&& 0x7

def received (c : CompletionEntry) (p : Packet) : Bytes :=
  splice p.buffer 0 (c.data.take p.transferLength)

end CompletionEntry

abbrev Handle := ℕ
abbrev Interface := ℕ
abbrev EventHandle := ℕ

inductive Guid where
  | devicePath | blockIo | simpleFileSystem | simpleTextInput | simpleTextOutput
  | graphicsOutput | pciIo | nvmExpressPassThru | patinaBootMgrLibProxy | msButtonServices
  deriving DecidableEq, Repr

inductive EventGroup where
  | endOfDxe | readyToBoot | msStartOfBdsNotify | dfciStartOfBdsNotify
  | muReadyToProcessCapsulesNotify
  deriving DecidableEq, Repr

inductive HandleSearch where
  | allHandle
  | byProtocol (g : Guid)
  deriving DecidableEq, Repr

inductive VariableName where
  | bootOrder
  | bootOption (n : UInt16)
  | secureBoot | setupMode
  | conIn | conOut | errOut
  | lastAttemptStatus
  | bootNext
  | nvmeBpResult
  deriving DecidableEq, Repr

inductive DispatchSite where
  | bootDevice
  | sreApp | hotkeyRecovery | usbBoot | frontpageApp
  | bootOption | mainOs | fallbackCandidate | lastResort
  deriving DecidableEq, Repr

/-- Program points of the source that the trace records and the firmware never sees. -/
inductive Note where
  | bootAttempt (site : DispatchSite) (path : Option DevicePath)
  | bpHasSrePayload (found : Bool)
  | fullConnect
  | fallbackOptions (candidates : List DevicePath)
  | nothingToDo
  deriving DecidableEq, Repr

inductive FilePath where
  | validationOsWim
  | forceReflashFlag
  deriving DecidableEq, Repr

structure AlignedBuffer (pages alignment : ℕ) where
  address : ℕ
  bytes : Bytes
  size : bytes.length = pages * 4096
  aligned : alignment ∣ address

inductive Call where
  | passThru (p : Packet)
  -- edk2 libraries and tables, as SrePkg uses them
  | allocateAlignedPages (pages alignment : ℕ)
  | freeAlignedPages (address pages : ℕ)
  | convertTextToDevicePath
  | freePool
  | gBSLocateDevicePath (path : DevicePath)
  | gBSConnectController (h : Handle)
  | gBSHandleProtocol (h : Handle) (g : Guid)
  | nvmeIoAlign
  | pciMemRead (offset count : ℕ)
  | gRTSetVariable (name : VariableName) (data : Bytes)
  | progress (percent : ℕ)
  -- edk2 services of the SrePkg applications, which may serve several controllers
  | passThruOn (i : Interface) (p : Packet)
  | gBSAllocatePages (pages : ℕ)
  | gBSFreePages (address pages : ℕ)
  | allocateZeroPool (size : ℕ)
  | gBSLocateHandleBuffer (s : HandleSearch)
  | gBSConnectControllerRecursive (h : Handle)
  | gBSHandleInterface (h : Handle) (g : Guid)
  | gBSLoadedImageDevice (h : Handle)
  | openVolume (fs : Interface)
  | fileOpen (dir : Interface) (path : FilePath)
  | fileGetInfo (file : Interface) (infoSize : ℕ)
  | fileRead (file : Interface) (size : ℕ)
  | fileClose (file : Interface)
  | gBSSetWatchdogTimer (timeout : ℕ)
  | gRTResetSystem
  -- patina boot services
  | createEventEx (group : EventGroup)
  | signalEvent (ev : EventHandle)
  | closeEvent (ev : EventHandle)
  | locateHandleBuffer (s : HandleSearch)
  | handleProtocol (h : Handle) (g : Guid)
  | handleProtocolDevicePath (h : Handle)
  | handleProtocolUncheckedDevicePath (h : Handle)
  | locateProtocolUnchecked (g : Guid)
  | connectController (h : Handle) (recursive : Bool)
  | disconnectController (h : Handle)
  | installProtocolInterface (h : Option Handle) (g : Guid) (i : Interface)
  | uninstallProtocolInterface (h : Handle) (g : Guid) (i : Interface)
  | locateDevicePath (m : Memory)
  | loadImage (parent : Handle) (path : DevicePath)
  | startImage (h : Handle)
  | setWatchdogTimer (seconds : ℕ)
  -- protocol members
  | readKeyStroke (i : Interface)
  | pciConfigRead (i : Interface)
  | proxyRevision (i : Interface)
  | proxyInstallDxeSmmReadyToLock (i : Interface)
  | proxyDisplayBootLogo (i : Interface)
  | preBootVolumeUpCheck (i : Interface)
  | preBootVolumeDownCheck (i : Interface)
  | preBootClearVolumeState (i : Interface)
  -- patina runtime services and dispatcher
  | getVariable (name : VariableName)
  | setVariable (name : VariableName) (data : Bytes)
  | dispatch
  -- platform code and allocator of the Rust side
  | strategyConnect
  | failureHandler
  | isFlashUpdateBoot
  | tryReserveExact (size : ℕ)
  | dropBuffer (address : ℕ)
  | newRamDiskBlockIo (bufferPtr bufferSize : ℕ)
  | dropRamDiskBlockIo (i : Interface)
  | leakDevicePath (bytes : Bytes)
  | note (n : Note)

@[reducible] def Answer : Call → Type
  | .passThru _ => Completion
  | .allocateAlignedPages pages alignment => Option (AlignedBuffer pages alignment)
  | .freeAlignedPages _ _ => Unit
  | .convertTextToDevicePath => Option DevicePath
  | .freePool => Unit
  | .gBSLocateDevicePath _ => Status × Handle × DevicePath
  | .gBSConnectController _ => Status
  | .gBSHandleProtocol _ _ => Status
  | .nvmeIoAlign => UInt32
  | .pciMemRead _ _ => Status × List UInt32
  | .gRTSetVariable _ _ => Status
  | .progress _ => Unit
  | .passThruOn _ _ => CompletionEntry
  | .gBSAllocatePages _ => Status × ℕ
  | .gBSFreePages _ _ => Unit
  | .allocateZeroPool _ => Bool
  | .gBSLocateHandleBuffer _ => Status × List Handle
  | .gBSConnectControllerRecursive _ => Unit
  | .gBSHandleInterface _ _ => Status × Interface
  | .gBSLoadedImageDevice _ => Status × Handle
  | .openVolume _ => Status × Interface
  | .fileOpen _ _ => Status × Interface
  | .fileGetInfo _ _ => Status × ℕ × ℕ
  | .fileRead _ _ => Status × Bytes
  | .fileClose _ => Unit
  | .gBSSetWatchdogTimer _ => Status
  | .gRTResetSystem => Unit
  | .createEventEx _ => Except Status EventHandle
  | .signalEvent _ => Except Status Unit
  | .closeEvent _ => Except Status Unit
  | .locateHandleBuffer _ => Except Status (List Handle)
  | .handleProtocol _ _ => Except Status Interface
  | .handleProtocolDevicePath _ => Except Status Memory
  | .handleProtocolUncheckedDevicePath _ => Except Status (Option Memory)
  | .locateProtocolUnchecked _ => Except Status (Option Interface)
  | .connectController _ _ => Except Status Unit
  | .disconnectController _ => Except Status Unit
  | .installProtocolInterface _ _ _ => Except Status Handle
  | .uninstallProtocolInterface _ _ _ => Except Status Unit
  | .locateDevicePath _ => Except Status Handle
  | .loadImage _ _ => Except Status Handle
  | .startImage _ => Except Status Unit
  | .setWatchdogTimer _ => Except Status Unit
  | .readKeyStroke _ => Status × UInt16
  | .pciConfigRead _ => Status × UInt32
  | .proxyRevision _ => UInt32
  | .proxyInstallDxeSmmReadyToLock _ => Status
  | .proxyDisplayBootLogo _ => Status
  | .preBootVolumeUpCheck _ => Status × UInt8
  | .preBootVolumeDownCheck _ => Status × UInt8
  | .preBootClearVolumeState _ => Status
  | .getVariable _ => Except Status Bytes
  | .setVariable _ _ => Except Status Unit
  | .dispatch => Except Status Bool
  | .strategyConnect => Except Status Unit
  | .failureHandler => Unit
  | .isFlashUpdateBoot => Bool
  | .tryReserveExact _ => Option ℕ
  | .dropBuffer _ => Unit
  | .newRamDiskBlockIo _ _ => Interface
  | .dropRamDiskBlockIo _ => Unit
  | .leakDevicePath _ => Interface
  | .note _ => Unit

abbrev Firmware := Program Answer
abbrev FirmwareTrace := Trace Answer
abbrev FirmwareEnv := Environment Answer

abbrev ask (c : Call) : Firmware (Answer c) := Program.call c

abbrev FirmwareE := ExceptT EfiError Firmware

def mapErr {α : Type} (p : Firmware (Except Status α)) : FirmwareE α :=
  ExceptT.mk do
    match ← p with
    | .ok a => pure (.ok a)
    | .error s => pure (.error ⟨s⟩)

@[simp] theorem run_mapErr_bind {α β : Type} (p : Firmware (Except Status α)) (f : α → FirmwareE β) :
    (mapErr p >>= f).run = p >>= fun r =>
      match r with
      | .ok a => (f a).run
      | .error s => .done (.error ⟨s⟩) := by
  rw [ExceptT.run_bind]
  refine (bind_assoc p _ _).trans (congrArg (p >>= ·) (funext fun r => ?_))
  cases r <;> rfl

def attempt {α : Type} (x : FirmwareE α) : FirmwareE (Except EfiError α) := ExceptT.lift x.run

@[simp] theorem run_attempt_bind {α β : Type} (x : FirmwareE α)
    (f : Except EfiError α → FirmwareE β) :
    (attempt x >>= f).run = x.run >>= fun r => (f r).run :=
  ExceptT.run_bind_lift x.run f

theorem only_ask_bind {β : Type} {A : Call → Prop} {c : Call} {f : Answer c → Firmware β}
    (hc : A c) (hf : ∀ r, Only A (f r)) : Only A (ask c >>= f) := ⟨hc, hf⟩

theorem only_mapErr {α : Type} {A : Call → Prop} {p : Firmware (Except Status α)}
    (hp : Only A p) : Only A (mapErr p).run := by
  refine hp.bind fun r => ?_
  cases r <;> trivial

end FirmwareServices
