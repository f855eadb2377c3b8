import OdpPlatform.FirmwareServices

/-! # NvmeBpWrite.c: files on the mounted volumes

The buffers that files are read into are byte lists; console output is left out. -/
namespace NvmeBpWrite

open ByteBuffer InteractionProgram FirmwareServices

def wimFilePath : FilePath := .validationOsWim
def forceReflashFlagPath : FilePath := .forceReflashFlag
def bpsizeBytes : ℕ := 1024 * (1024 * 1024)
def targetUploadBytes : ℕ := bpsizeBytes
def efiPageSize : ℕ := 4096

/-- Connect every handle, so that the FAT driver binds to USB volumes. -/
def connectEveryHandle : Firmware Unit := do
  let (status, everyHandle) ← ask (.gBSLocateHandleBuffer .allHandle)
  if status.isError = true then
    pure ()
  else
    everyHandle.foldlM (fun _ handle => ask (.gBSConnectControllerRecursive handle)) ()
    ask .freePool

/-- `closeFound` is for the caller that only wants to know whether the file is there. -/
def openOnVolume (closeFound : Bool) (filePath : FilePath) (handle : Handle) :
    Firmware (Option Interface) := do
  let (status, cand) ← ask (.gBSHandleInterface handle .simpleFileSystem)
  if status.isError = true then
    pure none
  else
    let (status, candRoot) ← ask (.openVolume cand)
    if status.isError = true then
      pure none
    else
      let (status, file) ← ask (.fileOpen candRoot filePath)
      if status.isError = true then
        ask (.fileClose candRoot)
        pure none
      else
        if closeFound = true then
          ask (.fileClose file)
        ask (.fileClose candRoot)
        pure (some file)

def searchVolumes (closeFound : Bool) (filePath : FilePath) :
    List Handle → Firmware (Option Interface)
  | [] => pure none
  | handle :: rest => do
    match ← openOnVolume closeFound filePath handle with
    | some file => pure (some file)
    | none => searchVolumes closeFound filePath rest

def openOnAnyVolume (closeFound : Bool) (filePath : FilePath) (imageHandle : Handle) :
    Firmware (Except Status (Option Interface)) := do
  let (status, loadHandle) ← ask (.gBSLoadedImageDevice imageHandle)
  if status.isError = true then
    pure (.error status)
  else
    connectEveryHandle
    let (status, fsHandles) ← ask (.gBSLocateHandleBuffer (.byProtocol .simpleFileSystem))
    if status.isError = true then
      pure (.error status)
    else
      let found ← searchVolumes closeFound filePath (fsHandles.filter (· == loadHandle))
      let found ←
        match found with
        | some file => pure (some file)
        | none => searchVolumes closeFound filePath (fsHandles.filter (· != loadHandle))
      ask .freePool
      pure (.ok found)

def fileExistsOnAnyVolume (imageHandle : Handle) (filePath : FilePath) : Firmware Bool := do
  match ← openOnAnyVolume true filePath imageHandle with
  | .error _ => pure false
  | .ok found => pure found.isSome

def readWimHead (imageHandle : Handle) (filePath : FilePath) (headBytes : ℕ) :
    Firmware (Status × Bytes) := do
  match ← openOnAnyVolume false filePath imageHandle with
  | .error status => pure (status, [])
  | .ok none => pure (efiNotFound, [])
  | .ok (some wim) =>
    let (status, data) ← ask (.fileRead wim headBytes)
    ask (.fileClose wim)
    if status.isError = true then
      pure (status, [])
    else
      pure (.success, data.take headBytes)

structure WimBuffer where
  address : ℕ
  pages : ℕ
  fileBytes : ℕ
  paddedBytes : ℕ
  content : Bytes

def fileSize (wim : Interface) : Firmware (Except Status ℕ) := do
  let (status, infoSize, _) ← ask (.fileGetInfo wim 0)
  if status ≠ efiBufferTooSmall then
    ask (.fileClose wim)
    pure (.error (if status.isError = true then status else efiDeviceError))
  else if (← ask (.allocateZeroPool infoSize)) = false then
    ask (.fileClose wim)
    pure (.error efiOutOfResources)
  else
    let (status, _, size) ← ask (.fileGetInfo wim infoSize)
    ask .freePool
    if status.isError = true then
      ask (.fileClose wim)
      pure (.error status)
    else
      pure (.ok size)

def roundUpToChunk (fileBytes chunkBytes : ℕ) : ℕ :=
  (fileBytes + chunkBytes - 1) / chunkBytes * chunkBytes

def readWhole (wim : Interface) (fileBytes chunkBytes : ℕ) :
    Firmware (Except Status WimBuffer) := do
  if fileBytes > targetUploadBytes then
    ask (.fileClose wim)
    pure (.error efiBadBufferSize)
  else if targetUploadBytes % chunkBytes ≠ 0 then
    ask (.fileClose wim)
    pure (.error efiUnsupported)
  else
    let paddedBytes :=
      if fileBytes < targetUploadBytes then targetUploadBytes
      else roundUpToChunk fileBytes chunkBytes
    let pages := (paddedBytes + efiPageSize - 1) / efiPageSize
    let (status, pageAddr) ← ask (.gBSAllocatePages pages)
    if status.isError = true then
      ask (.fileClose wim)
      pure (.error status)
    else
      let (status, data) ← ask (.fileRead wim fileBytes)
      ask (.fileClose wim)
      if status.isError = true then
        ask (.gBSFreePages pageAddr pages)
        pure (.error status)
      else if (data.take fileBytes).length ≠ fileBytes then
        ask (.gBSFreePages pageAddr pages)
        pure (.error efiDeviceError)
      else
        pure (.ok
          { address := pageAddr, pages, fileBytes, paddedBytes
            content := splice (zeroed paddedBytes) 0 (data.take fileBytes) })

def loadWimIntoBuffer (imageHandle : Handle) (filePath : FilePath) (chunkBytes : ℕ) :
    Firmware (Except Status WimBuffer) := do
  match ← openOnAnyVolume false filePath imageHandle with
  | .error status => pure (.error status)
  | .ok none => pure (.error efiNotFound)
  | .ok (some wim) =>
    match ← fileSize wim with
    | .error status => pure (.error status)
    | .ok fileBytes => readWhole wim fileBytes chunkBytes

end NvmeBpWrite
