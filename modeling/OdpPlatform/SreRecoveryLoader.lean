import OdpPlatform.SreLoaderServices
import OdpPlatform.NvmeBpWrite

/-! # SreRecoveryLoader.c

`gResult` goes in where a function updates it and comes back with the outcome. -/
namespace SreRecoveryLoader

open ByteBuffer InteractionProgram InteractionEmbedding FirmwareServices SreLoaderServices
open NvmeBpWrite (int32Status leBytes64 fileSize efiPageSize)

def sreLoaderMagic : UInt32 := 0x4C455253
def sreLoaderVersion : UInt32 := 0x00010000

inductive SrePhase where
  | init | wimOpened | wimLoaded | ramdiskReg | done
  deriving DecidableEq, Repr

def SrePhase.value : SrePhase → UInt32
  | .init => 0 | .wimOpened => 1 | .wimLoaded => 2 | .ramdiskReg => 3 | .done => 4

structure SreLoaderResult where
  phaseReached : SrePhase := .init
  ramDiskRegistered : UInt32 := 0
  wimFileBytes : ℕ := 0
  ramDiskBaseAddr : ℕ := 0
  lastEfiStatus : UInt32 := 0
  deriving DecidableEq, Repr

/-- The packed record; the last word is the padding. -/
def SreLoaderResult.bytes (r : SreLoaderResult) : Bytes :=
  [sreLoaderMagic, sreLoaderVersion, r.phaseReached.value, r.ramDiskRegistered].flatMap leBytes ++
    ([r.wimFileBytes, r.ramDiskBaseAddr].flatMap leBytes64 ++
      [r.lastEfiStatus, 0].flatMap leBytes)

def writeResultToNvRam (gResult : SreLoaderResult) : Loader Unit := do
  let _ ← call (.setResultVariable .sreLoaderResult gResult.bytes)
  pure ()

/-! ## LoadWimIntoPages -/

structure WimPages where
  pageAddr : ℕ
  pages : ℕ
  fileBytes : ℕ
  content : Bytes

/-- In UINT64: a size close to 2^64 wraps around. -/
def pagesFor (fileBytes : UInt64) : ℕ := ((fileBytes + 4096 - 1) / 4096).toNat

def readWim (wim : Interface) (fileBytes : UInt64) : Loader (Except Status WimPages) := do
  let pages := pagesFor fileBytes
  let (status, pageAddr) ← fw (.gBSAllocatePages pages)
  if status.isError = true then
    fw (.fileClose wim)
    pure (.error status)
  else
    let (status, data) ← fw (.fileRead wim fileBytes.toNat)
    fw (.fileClose wim)
    if status.isError = true ∨ (data.take fileBytes.toNat).length ≠ fileBytes.toNat then
      fw (.gBSFreePages pageAddr pages)
      pure (.error (if status.isError = true then status else efiDeviceError))
    else
      pure (.ok
        { pageAddr, pages, fileBytes := fileBytes.toNat
          content := splice (zeroed (pages * efiPageSize)) 0 (data.take fileBytes.toNat) })

def openWim (imageHandle : Handle) : Loader (Except Status Interface) := do
  let (status, deviceHandle) ← fw (.gBSLoadedImageDevice imageHandle)
  if status.isError = true then
    pure (.error status)
  else
    let (status, sfs) ← fw (.gBSHandleInterface deviceHandle .simpleFileSystem)
    if status.isError = true then
      pure (.error status)
    else
      let (status, root) ← fw (.openVolume sfs)
      if status.isError = true then
        pure (.error status)
      else
        let (status, wim) ← fw (.fileOpen root .validationOsWim)
        fw (.fileClose root)
        if status.isError = true then
          pure (.error status)
        else
          pure (.ok wim)

def loadWimIntoPages (imageHandle : Handle) (gResult : SreLoaderResult) :
    Loader (SreLoaderResult × Except Status WimPages) := do
  match ← openWim imageHandle with
  | .error status => pure (gResult, .error status)
  | .ok wim =>
    let gResult := { gResult with phaseReached := .wimOpened }
    writeResultToNvRam gResult
    match ← firmware.program (fileSize wim) with
    | .error status => pure (gResult, .error status)
    | .ok size =>
      let loaded ← readWim wim (UInt64.ofNat size)
      pure (gResult, loaded)

/-! ## EntryPoint -/

def recoveryOption : UInt16 := 0x4243

/-- The loop over BoBuf: NewBo and NewSize go in and come out. -/
def dropRecoveryOption (boBuf : Bytes) (boSize : ℕ) : ℕ → ℕ → Bytes × ℕ → Bytes × ℕ
  | 0, _, out => out
  | fuel + 1, i, (newBo, newSize) =>
    if i + 1 < boSize then
      let idx := leWord16 (boBuf.drop i)
      dropRecoveryOption boBuf boSize fuel (i + 2)
        (if idx ≠ recoveryOption then (splice newBo newSize (leBytes16 idx), newSize + 2)
         else (newBo, newSize))
    else (newBo, newSize)

/-- `boBuf` holds the variable, `size` is what was allocated for it and for NewBo. -/
def writeCleanedBootOrder (size : ℕ) (boBuf : Bytes) (boSize : ℕ) : Loader Unit := do
  let (newBo, newSize) := dropRecoveryOption boBuf boSize boSize 0 (zeroed size, 0)
  if newSize > 0 ∧ newSize ≠ boSize then
    let _ ← fw (.gRTSetVariable .bootOrder (newBo.take newSize))
    pure ()

def cleanBootOrder : Loader Unit := do
  let probe ← call (.gRTGetVariable .bootOrder 0)
  let size := probe.dataSize
  if probe.status = efiBufferTooSmall ∧ size ≥ 2 then
    let boBuf ← fw (.allocateZeroPool size)
    let newBo ← fw (.allocateZeroPool size)
    if boBuf = true ∧ newBo = true then
      let read ← call (.gRTGetVariable .bootOrder size)
      if read.status.isError = false then
        writeCleanedBootOrder size (splice (zeroed size) 0 read.data) read.dataSize
    if boBuf = true then
      fw .freePool
    if newBo = true then
      fw .freePool

def clearBootNext : Loader Unit := do
  let _ ← fw (.gRTSetVariable .bootNext [])
  pure ()

def reboot : Loader Status := do
  clearBootNext
  fw .gRTResetSystem
  pure .success

def failAndReboot (gResult : SreLoaderResult) (status : Status) : Loader Status := do
  writeResultToNvRam { gResult with lastEfiStatus := int32Status status }
  reboot

def registerRamDisk (gResult : SreLoaderResult) (wim : WimPages) : Loader Status := do
  let (status, _) ← call (.gBSLocateProtocol .ramDisk)
  if status.isError = true then
    failAndReboot gResult status
  else
    let (status, _) ← call (.ramDiskRegister wim.pageAddr wim.fileBytes wim.content)
    if status.isError = true then
      failAndReboot gResult status
    else
      let gResult := { gResult with ramDiskRegistered := 1, phaseReached := .ramdiskReg }
      writeResultToNvRam gResult
      writeResultToNvRam { gResult with phaseReached := .done }
      reboot

def entryPoint (imageHandle : Handle) : Loader Status := do
  clearBootNext
  cleanBootOrder
  let _ ← fw (.gBSSetWatchdogTimer 0)
  let gResult : SreLoaderResult := {}
  writeResultToNvRam gResult
  match ← loadWimIntoPages imageHandle gResult with
  | (gResult, .error status) => failAndReboot gResult status
  | (gResult, .ok wim) =>
    let gResult :=
      { gResult with
        phaseReached := .wimLoaded
        wimFileBytes := wim.fileBytes
        ramDiskBaseAddr := wim.pageAddr }
    writeResultToNvRam gResult
    registerRamDisk gResult wim

end SreRecoveryLoader
