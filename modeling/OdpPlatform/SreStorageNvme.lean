import OdpPlatform.FirmwareServices

/-! # SreStorageNvmeLib.c: SRE storage on NVMe boot partitions

The private globals of the library are one record that every function takes and returns.
UINTN values are natural numbers: no product or sum below reaches 2^64. -/
namespace SreStorageNvme

open ByteBuffer DevicePathNodes InteractionProgram FirmwareServices

abbrev PartitionIndex := UInt32

def srePartitionA : PartitionIndex := 0
def srePartitionB : PartitionIndex := 1

structure SreStorage where
  mIsWriteOpen : Bool := false
  mPartitionIndex : PartitionIndex := srePartitionA
  mBlockSize : ℕ := 0
  mBlockCount : ℕ := 0
  mBlockIndex : ℕ := 0
  mBlockAlignment : ℕ := 0
  mNvmePassThru : Bool := false
  mIsSupported : Bool := false
  deriving DecidableEq, Repr

/-- A pointer argument that is not NULL: its address and what it points at. -/
structure Buffer where
  address : ℕ
  bytes : Bytes
  deriving DecidableEq, Repr

inductive NvmeLockState where
  | writeUnlocked
  | writeLocked
  | writeLockedUntilPowerCycle
  deriving DecidableEq, Repr

def NvmeLockState.value : NvmeLockState → UInt32
  | .writeUnlocked => 0x1
  | .writeLocked => 0x2
  | .writeLockedUntilPowerCycle => 0x3

def sreNvmeFidBpWriteProtectionCfg : UInt32 := 0x85
def sreBpwpsFieldMask : UInt32 := 0x7
def sreBpwpsBp1Shift : UInt32 := 3
def sreBpwpsBp0Shift : UInt32 := 0
def sreNvmeFwCommitActionDownloadBp : UInt32 := 0x6
def sreNvmeFwCommitBpidShift : UInt32 := 31
def sreNvmeFwCommitActionShift : UInt32 := 3
def sreNvmeFwDownloadBpData : UInt32 := 0x1
def sreNvmeIdentifyBufferSize : ℕ := 4096
def sreNvmeIdCtrlOffsetBpcap : ℕ := 102
def sreNvmeIdCtrlOffsetFwug : ℕ := 319
def sreNvmeIdCtrlOffsetLpa : ℕ := 261
def sreNvmeBpcapSfbpwps : UInt8 := 0x04
def sreNvmeLpaLpeds : UInt8 := 0x04
def sreNvmeFwugDefaultGranularity : ℕ := 1
def sreNvmeFwugNoInfo : UInt8 := 0x00
def sreNvmeFwugNoRestriction : UInt8 := 0xFF
def sreNvmeFwugResolution : ℕ := 4096
def sreNvmeBpinfoBpszMask : UInt32 := 0x7FFF
def sreNvmeBpLogHeaderSize : ℕ := 16
def sreNvmeLspBpidMask : UInt32 := 0x7F
def lidBpInfo : UInt32 := 0x15
def identifyControllerCns : UInt32 := 0x01
def nvmeCapOffset : ℕ := 0x00
def nvmeBpinfoOffset : ℕ := 0x40
def efiPageSize : ℕ := 4096
def size128KB : ℕ := 131072

def efiSizeToPages (size : ℕ) : ℕ := (size + 4095) / 4096

def seconds (n : ℕ) : ℕ := n * 10000000

def isDevicePathEnd : DevicePath → Bool
  | n :: _ => n.type == typeEnd && n.subType == subtypeEntire
  | [] => false

/-- The targeted connect loop; `previousHandle` starts as NULL. -/
def connectLoop (targetPath : DevicePath) : ℕ → Handle → Firmware (Status × Handle)
  | 0, _ => .hang
  | fuel + 1, previousHandle => do
    let (status, handle, remainingPath) ← ask (.gBSLocateDevicePath targetPath)
    if status.isError then
      pure (status, handle)
    else if previousHandle = handle then
      pure (efiNotFound, handle)
    else
      let status ← ask (.gBSConnectController handle)
      if status.isError then
        pure (status, handle)
      else if isDevicePathEnd remainingPath then
        pure (status, handle)
      else
        connectLoop targetPath fuel handle

def connectStorageDevice (fuel : ℕ) : Firmware (Status × Handle) := do
  match ← ask .convertTextToDevicePath with
  | none => pure (efiInvalidParameter, 0)
  | some targetPath =>
    if isDevicePathEnd targetPath then
      ask .freePool
      pure (efiInvalidParameter, 0)
    else
      let r ← connectLoop targetPath fuel 0
      ask .freePool
      pure r

def executeNvmePassThru (s : SreStorage) (packet : Packet) : Firmware (Status × Bytes) := do
  if s.mNvmePassThru = false then
    pure (efiNotReady, packet.buffer)
  else
    let c ← ask (.passThru packet)
    if c.status.isError then
      pure (c.status, received packet c)
    else if c.sct ≠ 0 ∨ c.sc ≠ 0 then
      pure (efiProtocolError, received packet c)
    else
      pure (.success, received packet c)

def completionStatus (c : Completion) : Status :=
  if c.status.isError then c.status
  else if c.sct ≠ 0 ∨ c.sc ≠ 0 then efiProtocolError
  else .success

theorem executeNvmePassThru_eq {s : SreStorage} (hl : s.mNvmePassThru = true) (p : Packet) :
    executeNvmePassThru s p =
      .ask (.passThru p) fun c => .done (completionStatus c, received p c) := by
  simp only [executeNvmePassThru, hl, Bool.true_eq_false, if_false, Program.call_bind,
    Program.pure_eq_done]
  congr 1
  funext c
  unfold completionStatus
  split <;> [rfl; split <;> rfl]

theorem completionStatus_eq_success {c : Completion} :
    completionStatus c = .success ↔ c.Accepted := by
  unfold completionStatus Completion.Accepted
  cases hs : c.status <;> by_cases h1 : c.sct = 0 <;> by_cases h2 : c.sc = 0 <;>
    simp [Status.isError, h1, h2]

theorem completionStatus_isError {c : Completion} :
    (completionStatus c).isError = false ↔ c.Accepted := by
  rw [← completionStatus_eq_success]
  unfold completionStatus
  cases hs : c.status <;> by_cases h1 : c.sct = 0 <;> by_cases h2 : c.sc = 0 <;>
    simp [Status.isError, h1, h2]

structure IdentifyFields where
  firmwareUpdateGranularity : UInt8
  setLockStateSupported : Bool
  lpedsSupported : Bool
  deriving DecidableEq, Repr

def identifyController (s : SreStorage) : Firmware (Except Status IdentifyFields) := do
  match ← ask (.allocateAlignedPages (efiSizeToPages sreNvmeIdentifyBufferSize)
      s.mBlockAlignment) with
  | none => pure (.error efiOutOfResources)
  | some buffer =>
    let (status, idCtrl) ← executeNvmePassThru s
      { commandTimeout := seconds 1
        command :=
          { opcode := nvmeAdminIdentifyCmd
            cdw10 := identifyControllerCns
            flags := cdw10Valid }
        buffer := buffer.bytes
        transferLength := sreNvmeIdentifyBufferSize }
    ask (.freeAlignedPages buffer.address (efiSizeToPages sreNvmeIdentifyBufferSize))
    if status.isError then
      pure (.error status)
    else
      pure (.ok
        { firmwareUpdateGranularity := idCtrl.getD sreNvmeIdCtrlOffsetFwug 0
          setLockStateSupported :=
            idCtrl.getD sreNvmeIdCtrlOffsetBpcap 0 &&& sreNvmeBpcapSfbpwps != 0
          lpedsSupported := idCtrl.getD sreNvmeIdCtrlOffsetLpa 0 &&& sreNvmeLpaLpeds != 0 })

def blockSizeOf (firmwareUpdateGranularity : UInt8) : ℕ :=
  if firmwareUpdateGranularity = sreNvmeFwugNoInfo ∨
      firmwareUpdateGranularity = sreNvmeFwugNoRestriction then
    sreNvmeFwugResolution * sreNvmeFwugDefaultGranularity
  else
    sreNvmeFwugResolution * firmwareUpdateGranularity.toNat

/-- NVME_CAP.BPS is bit 45 of the register. -/
def capBps (words : List UInt32) : Bool := (words.getD 1 0 >>> 13) &&& 1 != 0

def setGeometry (s : SreStorage) (id : IdentifyFields) : Firmware SreStorage := do
  if id.lpedsSupported = false then
    pure s
  else if id.setLockStateSupported = false then
    pure s
  else
    let s := { s with mBlockSize := blockSizeOf id.firmwareUpdateGranularity }
    let (status, words) ← ask (.pciMemRead nvmeBpinfoOffset 1)
    let bpInfo := words.getD 0 0 &&& sreNvmeBpinfoBpszMask
    if status.isError then
      pure s
    else if bpInfo = 0 then
      pure s
    else if bpInfo.toNat * size128KB < s.mBlockSize then
      pure s
    else
      pure { s with
        mBlockCount := bpInfo.toNat * size128KB / s.mBlockSize
        mIsSupported := true }

/-- Every path returns EFI_SUCCESS; the globals say whether the storage is supported. -/
def sreStorageLibConstructor (fuel : ℕ) : Firmware (Status × SreStorage) := do
  let s : SreStorage := {}
  let (status, handle) ← connectStorageDevice fuel
  if status.isError then
    pure (.success, s)
  else
    let status ← ask (.gBSHandleProtocol handle .pciIo)
    if status.isError then
      pure (.success, s)
    else
      let status ← ask (.gBSHandleProtocol handle .nvmExpressPassThru)
      if status.isError then
        pure (.success, s)
      else
        let ioAlign ← ask .nvmeIoAlign
        let s := { s with
          mNvmePassThru := true
          mBlockAlignment := if ioAlign = 0 then efiPageSize else ioAlign.toNat }
        let (status, cap) ← ask (.pciMemRead nvmeCapOffset 2)
        if status.isError then
          pure (.success, s)
        else if capBps cap = false then
          pure (.success, s)
        else
          match ← identifyController s with
          | .error _ => pure (.success, s)
          | .ok id => do
            let s ← setGeometry s id
            pure (.success, s)

def nvmeSetLockState (s : SreStorage) (partitionIndex : PartitionIndex)
    (lockState : NvmeLockState) : Firmware Status := do
  if partitionIndex > srePartitionB then
    pure efiInvalidParameter
  else
    -- a zero BPxWPS field requests no change, so only the target's field is set
    let shift := if partitionIndex = srePartitionA then sreBpwpsBp0Shift else sreBpwpsBp1Shift
    let (status, _) ← executeNvmePassThru s
      { commandTimeout := seconds 2
        command :=
          { opcode := nvmeAdminSetFeaturesCmd
            cdw10 := sreNvmeFidBpWriteProtectionCfg
            cdw11 := (lockState.value &&& sreBpwpsFieldMask) <<< shift
            flags := cdw10Valid ||| cdw11Valid } }
    pure status

structure StorageInfo where
  blockCount : ℕ
  blockSize : ℕ
  blockBufferAlignment : ℕ
  deriving DecidableEq, Repr

/-- The callers all pass non-NULL out parameters. -/
def sreStorageInfo (s : SreStorage) : Except Status StorageInfo :=
  if s.mIsSupported = false then
    .error efiUnsupported
  else
    .ok ⟨s.mBlockCount, s.mBlockSize, s.mBlockAlignment⟩

def getLogPageCommand (s : SreStorage) (partitionIndex : PartitionIndex) (blockIndex : ℕ) :
    NvmeCommand :=
  let offset := blockIndex * s.mBlockSize
  let logOffset := offset + sreNvmeBpLogHeaderSize
  let numD := UInt32.ofNat (s.mBlockSize / 4 - 1)
  { opcode := nvmeAdminGetLogPageCmd
    cdw10 := ((numD &&& 0xFFFF) <<< 16) ||| ((partitionIndex &&& sreNvmeLspBpidMask) <<< 8) |||
      lidBpInfo
    cdw11 := (numD >>> 16) &&& 0xFFFF
    cdw12 := UInt32.ofNat logOffset
    cdw13 := UInt32.ofNat (logOffset / 2 ^ 32)
    flags := cdw10Valid ||| cdw11Valid ||| cdw12Valid ||| cdw13Valid }

def sreStorageRead (s : SreStorage) (partitionIndex : PartitionIndex) (blockIndex : ℕ)
    (blockBuffer : Option Buffer) : Firmware (Status × Bytes) := do
  match blockBuffer with
  | none => pure (efiInvalidParameter, [])
  | some buffer =>
    if partitionIndex > srePartitionB then
      pure (efiInvalidParameter, buffer.bytes)
    else if s.mIsSupported = false then
      pure (efiUnsupported, buffer.bytes)
    else if blockIndex ≥ s.mBlockCount then
      pure (efiInvalidParameter, buffer.bytes)
    else if s.mIsWriteOpen then
      pure (efiAborted, buffer.bytes)
    else if buffer.address % s.mBlockAlignment ≠ 0 then
      pure (efiInvalidParameter, buffer.bytes)
    else
      executeNvmePassThru s
        { commandTimeout := seconds 10
          command := getLogPageCommand s partitionIndex blockIndex
          buffer := buffer.bytes
          transferLength := s.mBlockSize }

def sreStorageWriteOpen (s : SreStorage) (partitionIndex : PartitionIndex) :
    Firmware (Status × SreStorage) := do
  if partitionIndex > srePartitionB then
    pure (efiInvalidParameter, s)
  else if s.mIsSupported = false then
    pure (efiUnsupported, s)
  else if s.mIsWriteOpen then
    pure (efiAborted, s)
  else
    let status ← nvmeSetLockState s partitionIndex .writeUnlocked
    if status.isError then
      pure (status, s)
    else
      pure (.success,
        { s with mPartitionIndex := partitionIndex, mBlockIndex := 0, mIsWriteOpen := true })

def downloadCommand (s : SreStorage) : NvmeCommand :=
  { opcode := nvmeAdminFwImageDownloadCmd
    cdw10 := UInt32.ofNat (s.mBlockSize / 4 - 1)
    cdw11 := UInt32.ofNat (s.mBlockIndex * s.mBlockSize / 4)
    cdw12 := sreNvmeFwDownloadBpData
    flags := cdw10Valid ||| cdw11Valid ||| cdw12Valid }

def downloadPacket (s : SreStorage) (block : Bytes) : Packet :=
  { commandTimeout := seconds 5
    command := downloadCommand s
    buffer := block
    transferLength := s.mBlockSize }

def sreStorageWriteBlock (s : SreStorage) (blockBuffer : Option Buffer) :
    Firmware (Status × SreStorage) := do
  match blockBuffer with
  | none => pure (efiInvalidParameter, s)
  | some buffer =>
    if s.mIsSupported = false then
      pure (efiUnsupported, s)
    else if s.mIsWriteOpen = false then
      pure (efiNotReady, s)
    else if s.mBlockIndex ≥ s.mBlockCount then
      pure (efiEndOfMedia, s)
    else if buffer.address % s.mBlockAlignment ≠ 0 then
      pure (efiInvalidParameter, s)
    else
      let (status, _) ← executeNvmePassThru s (downloadPacket s buffer.bytes)
      if status.isError then
        pure (status, s)
      else
        pure (status, { s with mBlockIndex := s.mBlockIndex + 1 })

def commitPacket (s : SreStorage) : Packet :=
  { commandTimeout := seconds 30
    command :=
      { opcode := nvmeAdminFwCommitCmd
        cdw10 := (s.mPartitionIndex <<< sreNvmeFwCommitBpidShift) |||
          (sreNvmeFwCommitActionDownloadBp <<< sreNvmeFwCommitActionShift)
        flags := cdw10Valid } }

def sreStorageWriteClose (s : SreStorage) : Firmware (Status × SreStorage) := do
  if s.mIsSupported = false then
    pure (efiUnsupported, s)
  else if s.mIsWriteOpen = false then
    pure (efiNotReady, s)
  else if s.mBlockIndex ≠ s.mBlockCount then
    -- the whole partition must have been written before it can be committed
    pure (efiAborted, s)
  else
    let (status, _) ← executeNvmePassThru s (commitPacket s)
    if status.isError then
      pure (status, s)
    else
      pure (status, { s with mIsWriteOpen := false, mBlockIndex := 0 })

/-- The session state is cleared whatever the re-lock returns. -/
def sreStorageWriteAbort (s : SreStorage) : Firmware (Status × SreStorage) := do
  if s.mIsSupported = false then
    pure (efiUnsupported, s)
  else if s.mIsWriteOpen = false then
    pure (efiNotReady, s)
  else
    let status ← nvmeSetLockState s s.mPartitionIndex .writeLocked
    pure (status, { s with mIsWriteOpen := false, mBlockIndex := 0 })

def sreStorageLock (s : SreStorage) (partitionIndex : PartitionIndex) : Firmware Status := do
  if partitionIndex > srePartitionB then
    pure efiInvalidParameter
  else if s.mIsSupported = false then
    pure efiUnsupported
  else if s.mIsWriteOpen then
    pure efiAborted
  else
    nvmeSetLockState s partitionIndex .writeLockedUntilPowerCycle

end SreStorageNvme
