import OdpPlatform.SreLoaderServices
import OdpPlatform.BpRecoveryLoader
import OdpPlatform.NvmeBpWrite

/-! # BpRecoveryLoader.c: from the boot partition to the chainloaded image

`gResult` goes in where a function updates it. The NVMe commands go to the controller that
LocateProtocol finds. -/
namespace BpRecoveryFlow

open ByteBuffer DevicePathNodes InteractionProgram InteractionEmbedding FirmwareServices
open SreLoaderServices BpRecoveryLoader
open NvmeBpWrite (int32Status leBytes64 compareMem)

def targetBpid : UInt8 := 1
def bpsizeBytes : ℕ := 1024 * 1048576
def nvmeAdminIdentify : UInt8 := 0x06
def readChunkMin : ℕ := 64 * 1024
def readChunkMax : ℕ := 512 * 1024
def readChunkDefault : ℕ := 64 * 1024
def chainloadFilePath : List Char := "\\EFI\\Boot\\bootx64.efi".toList
def bplResultMagic : UInt32 := 0x584C5042
def bplResultVersion : UInt32 := 0x00000001

inductive BplPhase where
  | init | passthruLocated | bpLoaded | ramdiskRegistered | done
  deriving DecidableEq, Repr

def BplPhase.value : BplPhase → UInt32
  | .init => 0 | .passthruLocated => 1 | .bpLoaded => 2 | .ramdiskRegistered => 3 | .done => 4

/-- BPL_RESULT; `loading` are the two fields that LoadBpIntoPages writes. -/
structure BplRecord where
  phaseReached : BplPhase := .init
  ramDiskRegistered : UInt32 := 0
  chainloadAttempted : UInt32 := 0
  chainloadImageLoaded : UInt32 := 0
  bpBytesRead : ℕ := 0
  ramDiskBaseAddr : ℕ := 0
  lastEfiStatus : UInt32 := 0
  loading : BplResult := {}

def BplRecord.bytes (r : BplRecord) : Bytes :=
  [bplResultMagic, bplResultVersion, r.phaseReached.value, r.ramDiskRegistered,
    r.chainloadAttempted, r.chainloadImageLoaded].flatMap leBytes ++
    ([r.bpBytesRead, r.ramDiskBaseAddr].flatMap leBytes64 ++
      ([r.lastEfiStatus, r.loading.lastNvmeStatus].flatMap leBytes ++ r.loading.first32Bytes))

def writeResultToNvRam (gResult : BplRecord) : Loader Unit := do
  let _ ← call (.setResultVariable .bpLoaderResult gResult.bytes)
  pure ()

/-! ## ProbeMaxTransfer -/

def identifyPacket : Packet :=
  { commandTimeout := 5 * 10000000
    command := { opcode := nvmeAdminIdentify, cdw10 := 0x01, flags := cdw10Valid }
    buffer := zeroed 4096
    transferLength := 4096 }

/-- In UINT64; past 63 the shift count is cut as the processor does it. -/
def chunkFor (mdts : UInt8) : ℕ :=
  if mdts = 0 then readChunkMax
  else
    let maxTransfer := (((1 : UInt64) <<< mdts.toUInt64) * 4096).toNat
    if maxTransfer ≥ readChunkMax then readChunkMax
    else if maxTransfer ≤ readChunkMin then readChunkMin
    else maxTransfer

def probeMaxTransfer : Firmware ℕ := do
  let completion ← ask (.passThru identifyPacket)
  if completion.status.isError = true then
    pure readChunkDefault
  else
    pure (chunkFor ((received identifyPacket completion).getD 77 0))

/-! ## RunSreFlow -/

def fail (gResult : BplRecord) (status : Status) : Loader Status := do
  writeResultToNvRam { gResult with lastEfiStatus := int32Status status }
  pure status

def connectAll : Loader Unit := do
  let (status, handles) ← fw (.gBSLocateHandleBuffer .allHandle)
  if status.isError = false then
    handles.foldlM (fun _ handle => fw (.gBSConnectControllerRecursive handle)) ()
    fw .freePool

def getDevicePathSize (dp : PathInstance) : ℕ := (asBytes dp.path).length

def endDevicePathLength : ℕ := 4

def prefixSize (ramDp : PathInstance) : ℕ := getDevicePathSize ramDp - endDevicePathLength

def findFatHandle (ramDp : PathInstance) : List Handle → Loader (Option Handle)
  | [] => pure none
  | handle :: rest => do
    let (status, dp) ← call (.gBSHandleDevicePath handle)
    if status.isError = true then
      findFatHandle ramDp rest
    else if getDevicePathSize dp < prefixSize ramDp then
      findFatHandle ramDp rest
    else if compareMem (asBytes dp.path) (asBytes ramDp.path) (prefixSize ramDp) = true then
      pure (some handle)
    else
      findFatHandle ramDp rest

def bootVolume (imageHandle : Handle) (gResult : BplRecord) (fatHandle : Handle) :
    Loader Status := do
  match ← call (.fileDevicePath fatHandle chainloadFilePath) with
  | none => fail gResult efiOutOfResources
  | some bootDp =>
    let (status, newImage) ← call (.gBSLoadImage imageHandle bootDp)
    fw .freePool
    if status.isError = true then
      fail gResult status
    else
      let gResult := { gResult with chainloadImageLoaded := 1 }
      writeResultToNvRam gResult
      let status ← call (.gBSStartImage newImage)
      fail gResult status

def chainload (imageHandle : Handle) (gResult : BplRecord) (ramDp : PathInstance) :
    Loader Status := do
  let gResult := { gResult with chainloadAttempted := 1 }
  writeResultToNvRam gResult
  let (status, ramHandle, _) ← fw (.gBSLocateDevicePath ramDp.path)
  if status.isError = true then
    fail gResult status
  else
    fw (.gBSConnectControllerRecursive ramHandle)
    let (status, sfsHandles) ← fw (.gBSLocateHandleBuffer (.byProtocol .simpleFileSystem))
    if status.isError = true then
      fail gResult status
    else
      let found ← findFatHandle ramDp sfsHandles
      fw .freePool
      match found with
      | none => fail gResult efiNotFound
      | some fatHandle => bootVolume imageHandle gResult fatHandle

def registerRamDisk (imageHandle : Handle) (gResult : BplRecord) (loaded : LoadedPages) :
    Loader Status := do
  let (status, _) ← call (.gBSLocateProtocol .ramDisk)
  if status.isError = true then
    fail gResult status
  else
    let (status, ramDp) ←
      call (.ramDiskRegister loaded.pageAddr loaded.bytesRead loaded.content)
    if status.isError = true then
      fail gResult status
    else
      let gResult := { gResult with ramDiskRegistered := 1, phaseReached := .ramdiskRegistered }
      writeResultToNvRam gResult
      let gResult := { gResult with phaseReached := .done }
      writeResultToNvRam gResult
      chainload imageHandle gResult ramDp

def loadBootPartition (imageHandle : Handle) (gResult : BplRecord) : Loader Status := do
  let chunkBytes ← firmware.program probeMaxTransfer
  let outcome ← firmware.program
    (loadBpIntoPages gResult.loading targetBpid bpsizeBytes chunkBytes)
  let gResult := { gResult with loading := outcome.gResult }
  if outcome.status.isError = true then
    fail gResult outcome.status
  else
    let gResult :=
      { gResult with
        bpBytesRead := outcome.loaded.bytesRead
        ramDiskBaseAddr := outcome.loaded.pageAddr
        phaseReached := .bpLoaded }
    writeResultToNvRam gResult
    registerRamDisk imageHandle gResult outcome.loaded

def runSreFlow (imageHandle : Handle) : Loader Status := do
  let _ ← fw (.gBSSetWatchdogTimer 0)
  let gResult : BplRecord := {}
  writeResultToNvRam gResult
  connectAll
  let (status, _) ← call (.gBSLocateProtocol .nvmExpressPassThru)
  if status.isError = true then
    fail gResult status
  else
    let gResult := { gResult with phaseReached := .passthruLocated }
    writeResultToNvRam gResult
    loadBootPartition imageHandle gResult

def appEntry (imageHandle : Handle) : Loader Status := do
  let _ ← runSreFlow imageHandle
  fw .gRTResetSystem
  pure .success

end BpRecoveryFlow
