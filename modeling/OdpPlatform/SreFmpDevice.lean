import OdpPlatform.SreStorageNvme

/-! # SreFmpDeviceLib.c: the FMP device library of the SRE image

An image pointer is `none` when NULL; ImageSize is the length of what it points at. -/
namespace SreFmpDevice

open ByteBuffer InteractionProgram FirmwareServices SreStorageNvme

def sreImageInfoSig : UInt32 := 0x49455253
def sreImageInfoOffset : ℕ := 0x4400
def sreImageInfoStructVer : UInt32 := 1
def sizeofSreImageInfo : ℕ := 32

def lastAttemptStatusSuccess : UInt32 := 0
def lastAttemptStatusErrorUnsuccessful : UInt32 := 1
def lastAttemptStatusErrorInvalidFormat : UInt32 := 4
def imageUpdatableValid : UInt32 := 1
def imageUpdatableInvalid : UInt32 := 2

/-- SRE_IMAGE_INFO as it lies in memory: three words and five reserved ones. -/
def sreImageInfo (sreFwVersion : UInt32) : Bytes :=
  leBytes sreImageInfoSig ++ leBytes sreImageInfoStructVer ++ leBytes sreFwVersion ++
    List.replicate 20 0

/-- The storage library's globals and `LastPercent`, the static of SreProgress. -/
structure SreFmp where
  storage : SreStorage
  lastPercent : ℕ := 2 ^ 64 - 1
  deriving DecidableEq, Repr

def sreProgress (d : SreFmp) (partitionIndex : PartitionIndex) (blockIndex blockCount : ℕ)
    (progress : Bool) : Firmware SreFmp := do
  if progress then
    let percent := blockIndex * 50 / blockCount + partitionIndex.toNat * 50
    if percent ≠ d.lastPercent then
      ask (.progress percent)
      pure { d with lastPercent := percent }
    else
      pure d
  else
    pure d

/-! ## ApplyWimToSreStorage -/

structure ApplyParams where
  partitionIndex : PartitionIndex
  capsuleFwVersion : UInt32
  progress : Bool
  blockCount : ℕ
  blockSize : ℕ
  chunkAddress : ℕ
  deriving DecidableEq, Repr

structure ApplyState where
  dev : SreFmp
  chunk : Bytes
  imageBytes : Bytes
  deriving DecidableEq, Repr

def fillChunk (blockSize : ℕ) (chunk imageBytes : Bytes) : Bytes :=
  let copyAmt := if imageBytes.length < blockSize then imageBytes.length else blockSize
  let chunk := if copyAmt > 0 then splice chunk 0 (imageBytes.take copyAmt) else chunk
  if copyAmt < blockSize then splice chunk copyAmt (List.replicate (blockSize - copyAmt) 0)
  else chunk

/-- One iteration; an error status is a jump to Done. -/
def applyBlock (a : ApplyParams) (st : ApplyState) (blockIndex : ℕ) :
    Firmware (Status × ApplyState) := do
  let dev ← sreProgress st.dev a.partitionIndex blockIndex a.blockCount a.progress
  let copyAmt :=
    if st.imageBytes.length < a.blockSize then st.imageBytes.length else a.blockSize
  let chunk := fillChunk a.blockSize st.chunk st.imageBytes
  let imageBytes := st.imageBytes.drop copyAmt
  let stamps := blockIndex = sreImageInfoOffset / a.blockSize
  let descOffset := sreImageInfoOffset % a.blockSize
  if stamps ∧ descOffset + sizeofSreImageInfo > a.blockSize then
    pure (efiUnsupported, ⟨dev, chunk, imageBytes⟩)
  else
    let chunk :=
      if stamps then splice chunk descOffset (sreImageInfo a.capsuleFwVersion) else chunk
    let (status, storage) ← sreStorageWriteBlock dev.storage (some ⟨a.chunkAddress, chunk⟩)
    pure (status, ⟨{ dev with storage }, chunk, imageBytes⟩)

def applyBlocks (a : ApplyParams) : List ℕ → ApplyState → Firmware (Status × ApplyState)
  | [], st => pure (.success, st)
  | blockIndex :: rest, st => do
    let (status, st) ← applyBlock a st blockIndex
    if status.isError then
      pure (status, st)
    else
      applyBlocks a rest st

def writeImage (a : ApplyParams) (st : ApplyState) : Firmware (Status × SreFmp) := do
  let (status, st) ← applyBlocks a (List.range a.blockCount) st
  if status.isError then
    pure (status, st.dev)
  else do
    if a.progress then ask (.progress (a.partitionIndex.toNat * 50 + 50))
    let (status, storage) ← sreStorageWriteClose st.dev.storage
    pure (status, { st.dev with storage })

/-- The cleanup at Done: an error after the Open leaves the session for Abort to end. -/
def applyWimToSreStorage (d : SreFmp) (partitionIndex : PartitionIndex) (image : Bytes)
    (capsuleFwVersion : UInt32) (progress : Bool) : Firmware (Status × SreFmp) := do
  match sreStorageInfo d.storage with
  | .error status => pure (status, d)
  | .ok info =>
    match ← ask (.allocateAlignedPages (efiSizeToPages info.blockSize)
        info.blockBufferAlignment) with
    | none => pure (efiOutOfResources, d)
    | some chunk =>
      let (status, storage) ← sreStorageWriteOpen d.storage partitionIndex
      if status.isError then
        ask (.freeAlignedPages chunk.address (efiSizeToPages info.blockSize))
        pure (status, { d with storage })
      else
        let a : ApplyParams :=
          ⟨partitionIndex, capsuleFwVersion, progress, info.blockCount, info.blockSize,
            chunk.address⟩
        let (status, d) ← writeImage a ⟨{ d with storage }, chunk.bytes, image⟩
        if status.isError then
          let (_, storage) ← sreStorageWriteAbort d.storage
          ask (.freeAlignedPages chunk.address (efiSizeToPages info.blockSize))
          pure (status, { d with storage })
        else
          ask (.freeAlignedPages chunk.address (efiSizeToPages info.blockSize))
          pure (status, d)

/-- `none` for the version is an output that was not written. -/
def fmpDeviceGetVersion (s : SreStorage) (versionNonNull : Bool) :
    Firmware (Status × Option UInt32) := do
  if versionNonNull = false then
    pure (efiInvalidParameter, none)
  else
    match sreStorageInfo s with
    | .error status => pure (status, none)
    | .ok info =>
      match ← ask (.allocateAlignedPages (efiSizeToPages info.blockSize)
          info.blockBufferAlignment) with
      | none => pure (efiOutOfResources, none)
      | some blockBuffer =>
        let (status, block) ← sreStorageRead s srePartitionA (sreImageInfoOffset / info.blockSize)
          (some ⟨blockBuffer.address, blockBuffer.bytes⟩)
        ask (.freeAlignedPages blockBuffer.address (efiSizeToPages info.blockSize))
        if status.isError then
          pure (status, none)
        else
          let imageInfo := block.drop (sreImageInfoOffset % info.blockSize)
          if leWord imageInfo ≠ sreImageInfoSig ∨
              leWord (imageInfo.drop 4) ≠ sreImageInfoStructVer then
            pure (.success, some 0)
          else
            pure (.success, some (leWord (imageInfo.drop 8)))

structure CheckOutputs where
  imageUpdatable : Option UInt32 := none
  lastAttemptStatus : Option UInt32 := none
  deriving DecidableEq, Repr

def fmpDeviceCheckImageWithStatus (s : SreStorage) (image : Option Bytes)
    (outputsNonNull : Bool) : Status × CheckOutputs :=
  match image with
  | none => (efiInvalidParameter, {})
  | some image =>
    if image.length = 0 ∨ outputsNonNull = false then
      (efiInvalidParameter, {})
    else
      match sreStorageInfo s with
      | .error status =>
        (status, ⟨some imageUpdatableInvalid, some lastAttemptStatusErrorInvalidFormat⟩)
      | .ok info =>
        if image.length > info.blockCount * info.blockSize then
          (.success, ⟨some imageUpdatableInvalid, some lastAttemptStatusErrorInvalidFormat⟩)
        else
          (.success, ⟨some imageUpdatableValid, some lastAttemptStatusSuccess⟩)

structure SetImageResult where
  status : Status
  lastAttemptStatus : Option UInt32
  dev : SreFmp
  deriving DecidableEq, Repr

/-- The applies to both partitions; an error of either one sticks in LastAttemptStatus. -/
def applyBoth (d : SreFmp) (image : Bytes) (capsuleFwVersion : UInt32) (progress : Bool) :
    Firmware (UInt32 × SreFmp) := do
  let (statusA, d) ← applyWimToSreStorage d srePartitionA image capsuleFwVersion progress
  let lastAttemptStatus :=
    if statusA.isError then lastAttemptStatusErrorUnsuccessful else lastAttemptStatusSuccess
  let (statusB, d) ← applyWimToSreStorage d srePartitionB image capsuleFwVersion progress
  let lastAttemptStatus :=
    if statusB.isError then lastAttemptStatusErrorUnsuccessful else lastAttemptStatus
  pure (lastAttemptStatus, d)

def lasVariableData (lastAttemptStatus lastAttemptVersion : UInt32) : Bytes :=
  leBytes lastAttemptStatus ++ leBytes lastAttemptVersion

def fmpDeviceSetImageWithStatus (d : SreFmp) (image : Option Bytes) (progress : Bool)
    (capsuleFwVersion : UInt32) (outputsNonNull : Bool) : Firmware SetImageResult := do
  match image with
  | none => pure ⟨efiInvalidParameter, none, d⟩
  | some image =>
    if image.length = 0 ∨ outputsNonNull = false then
      pure ⟨efiInvalidParameter, none, d⟩
    else
      let (status, out) := fmpDeviceCheckImageWithStatus d.storage (some image) true
      if status.isError then
        pure ⟨efiAborted, out.lastAttemptStatus, d⟩
      else
        let checked := out.lastAttemptStatus.getD lastAttemptStatusErrorUnsuccessful
        let checked :=
          if checked = lastAttemptStatusSuccess ∧
              out.imageUpdatable ≠ some imageUpdatableValid then
            lastAttemptStatusErrorUnsuccessful
          else checked
        let (lastAttemptStatus, d) ←
          if checked = lastAttemptStatusSuccess then applyBoth d image capsuleFwVersion progress
          else pure (checked, d)
        let _ ← ask (.gRTSetVariable .lastAttemptStatus
          (lasVariableData lastAttemptStatus capsuleFwVersion))
        let status :=
          if lastAttemptStatus = lastAttemptStatusSuccess then .success else efiAborted
        pure ⟨status, some lastAttemptStatus, d⟩

def fmpDeviceLock (s : SreStorage) : Firmware Status := do
  let status0 ← sreStorageLock s srePartitionA
  let status1 ← sreStorageLock s srePartitionB
  pure (if status0.isError then status0 else status1)

end SreFmpDevice
