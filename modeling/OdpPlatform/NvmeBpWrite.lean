import OdpPlatform.NvmeBpWriteFiles

/-! # NvmeBpWrite.c: the write and the entry point

Console output is left out. `gResult` goes in where a function updates it; the result variable is
output only, and the verify-mode fields of the record stay zero. -/
namespace NvmeBpWrite

open ByteBuffer InteractionProgram FirmwareServices

def nvmeAdminIdentify : UInt8 := 0x06
def nvmeAdminFirmwareImageDownload : UInt8 := 0x11
def nvmeAdminFirmwareCommit : UInt8 := 0x10
def nvmeAdminGetLogPage : UInt8 := 0x02
def nvmeAdminSetFeatures : UInt8 := 0x09
def nvmeAdminGetFeatures : UInt8 := 0x0A
def nvmeIdentifyCnsController : UInt32 := 0x01
def nvmeFwCommitActionDownloadBp : UInt32 := 0x6
def nvmeFidBpWriteProtectionCfg : UInt32 := 0x85
def bpwpsUnlocked : UInt32 := 0x1
def bpwpsBp1Shift : UInt32 := 3
def bpwpsBp0Shift : UInt32 := 0
def bpwpsFieldMask : UInt32 := 0x7
def fwImgDownloadCdw12BpData : UInt32 := 0x00000001
def identifyBufferSize : ℕ := 4096
def targetBpid : UInt8 := 1
def idCtrlOffsetMdts : ℕ := 77
def idCtrlOffsetFwug : ℕ := 319
def checkBytes : ℕ := 4096
def lid15PreambleBytes : ℕ := 16
def size4KB : ℕ := 4096
def size64KB : ℕ := 65536
def size1MB : ℕ := 1048576

def seconds (n : ℕ) : ℕ := n * 10000000

inductive BpPhase where
  | init | wimLoaded | vendorWriteEnable | aDownload | bCommit
  deriving DecidableEq, Repr

def BpPhase.value : BpPhase → UInt32
  | .init => 0 | .wimLoaded => 1 | .vendorWriteEnable => 2 | .aDownload => 3 | .bCommit => 4

structure BpResult where
  phaseReached : BpPhase := .init
  endToEndSuccess : UInt32 := 0
  wimFileBytes : ℕ := 0
  wimPaddedBytes : ℕ := 0
  bytesUploaded : ℕ := 0
  lastDw3 : UInt32 := 0
  lastSct : UInt32 := 0
  lastSc : UInt32 := 0
  lastEfiStatus : UInt32 := 0
  vendorEnableDw3 : UInt32 := 0
  vendorEnableStatus : UInt32 := 0
  vendorEnableEfiStatus : UInt32 := 0
  bpWpsPreDw0 : UInt32 := 0
  bpWpsPreStatus : UInt32 := 0
  bpWpsPostDw0 : UInt32 := 0
  bpWpsPostStatus : UInt32 := 0
  deriving DecidableEq, Repr

/-- `(INT32)Status`: the error bit is cut off. -/
def int32Status : Status → UInt32
  | .success => 0
  | .warning code => UInt32.ofNat code
  | .error code => UInt32.ofNat code

def leBytes64 (n : ℕ) : Bytes := leBytes (UInt32.ofNat n) ++ leBytes (UInt32.ofNat (n / 2 ^ 32))

def bpResultMagic : UInt32 := 0x42505456
def bpResultVersion : UInt32 := 0x00020000
def runModeWrite : UInt32 := 0
def verifyFieldsBytes : ℕ := 104

def BpResult.bytes (r : BpResult) : Bytes :=
  [bpResultMagic, bpResultVersion, r.phaseReached.value, runModeWrite,
    r.endToEndSuccess].flatMap leBytes ++
  [r.wimFileBytes, r.wimPaddedBytes, r.bytesUploaded].flatMap leBytes64 ++
  [r.lastDw3, r.lastSct, r.lastSc, r.lastEfiStatus, r.vendorEnableDw3, r.vendorEnableStatus,
    r.vendorEnableEfiStatus, r.bpWpsPreDw0, r.bpWpsPreStatus, r.bpWpsPostDw0,
    r.bpWpsPostStatus].flatMap leBytes ++
  zeroed verifyFieldsBytes

def writeResultToNvRam (gResult : BpResult) : Firmware Unit := do
  let _ ← ask (.gRTSetVariable .nvmeBpResult gResult.bytes)
  pure ()

def identifyPacket : Packet :=
  { commandTimeout := seconds 1
    command :=
      { opcode := nvmeAdminIdentify, cdw10 := nvmeIdentifyCnsController, flags := cdw10Valid }
    buffer := zeroed identifyBufferSize
    transferLength := identifyBufferSize }

structure IdentifyFields where
  mdts : UInt8
  fwug : UInt8
  deriving DecidableEq, Repr

def queryIdentifyController (passThru : Interface) : Firmware (Except Status IdentifyFields) := do
  if (← ask (.allocateZeroPool identifyBufferSize)) = false then
    pure (.error efiOutOfResources)
  else
    let completion ← ask (.passThruOn passThru identifyPacket)
    ask .freePool
    if completion.status.isError = true then
      pure (.error completion.status)
    else if completion.statusField ≠ 0 then
      pure (.error efiDeviceError)
    else
      let buffer := completion.received identifyPacket
      pure (.ok ⟨buffer.getD idCtrlOffsetMdts 0, buffer.getD idCtrlOffsetFwug 0⟩)

def unlockPacket : Packet :=
  { commandTimeout := seconds 2
    command :=
      { opcode := nvmeAdminSetFeatures
        cdw10 := nvmeFidBpWriteProtectionCfg
        cdw11 := ((bpwpsUnlocked &&& bpwpsFieldMask) <<< bpwpsBp1Shift) |||
          ((bpwpsUnlocked &&& bpwpsFieldMask) <<< bpwpsBp0Shift)
        flags := cdw10Valid ||| cdw11Valid } }

def unlockBpWriteProtection (passThru : Interface) : Firmware CompletionEntry :=
  ask (.passThruOn passThru unlockPacket)

def readWriteProtectionPacket : Packet :=
  { commandTimeout := seconds 2
    command :=
      { opcode := nvmeAdminGetFeatures
        cdw10 := nvmeFidBpWriteProtectionCfg
        flags := cdw10Valid } }

def readBpWriteProtection (passThru : Interface) : Firmware CompletionEntry :=
  ask (.passThruOn passThru readWriteProtectionPacket)

def downloadPacket (buffer : Bytes) (patternSize offsetBytes : ℕ) : Packet :=
  { commandTimeout := seconds 5
    command :=
      { opcode := nvmeAdminFirmwareImageDownload
        cdw10 := UInt32.ofNat (patternSize / 4 - 1)
        cdw11 := UInt32.ofNat (offsetBytes / 4)
        cdw12 := fwImgDownloadCdw12BpData
        flags := cdw10Valid ||| cdw11Valid ||| cdw12Valid }
    buffer
    transferLength := (UInt32.ofNat patternSize).toNat }

def sendDownloadChunk (passThru : Interface) (buffer : Bytes) (patternSize offsetBytes : ℕ) :
    Firmware CompletionEntry :=
  ask (.passThruOn passThru (downloadPacket buffer patternSize offsetBytes))

def commitPacket : Packet :=
  { commandTimeout := seconds 30
    command :=
      { opcode := nvmeAdminFirmwareCommit
        cdw10 := (targetBpid.toUInt32 <<< 31) ||| (nvmeFwCommitActionDownloadBp <<< 3)
        flags := cdw10Valid } }

def sendDownloadBpCommit (passThru : Interface) : Firmware CompletionEntry :=
  ask (.passThruOn passThru commitPacket)

def bpLogPagePacket (bpid : UInt8) (offsetBytes bytes : ℕ) : Packet :=
  let numD := UInt32.ofNat (bytes / 4 - 1)
  { commandTimeout := seconds 10
    command :=
      { opcode := nvmeAdminGetLogPage
        cdw10 := ((numD &&& 0xFFFF) <<< 16) ||| ((bpid.toUInt32 &&& 0x7F) <<< 8) ||| 0x15
        cdw11 := (numD >>> 16) &&& 0xFFFF
        cdw12 := UInt32.ofNat offsetBytes
        cdw13 := UInt32.ofNat (offsetBytes / 2 ^ 32)
        flags := cdw10Valid ||| cdw11Valid ||| cdw12Valid ||| cdw13Valid }
    buffer := zeroed bytes
    transferLength := (UInt32.ofNat bytes).toNat }

def getBpLogPage (passThru : Interface) (bpid : UInt8) (offsetBytes bytes : ℕ) :
    Firmware (CompletionEntry × Bytes) := do
  let packet := bpLogPagePacket bpid offsetBytes bytes
  let completion ← ask (.passThruOn passThru packet)
  pure (completion, completion.received packet)

/-! ## WriteBpTestPattern -/

def rejected (c : CompletionEntry) : Bool := c.status.isError || c.sct != 0 || c.sc != 0

def granularityBytes (fwug : UInt8) : ℕ :=
  if fwug = 0 ∨ fwug = 0xFF then size4KB else fwug.toNat * size4KB

def maxTransferBytes (mdts : UInt8) : ℕ :=
  if mdts = 0 then size1MB
  else if mdts ≥ 20 then size1MB
  else size4KB * 2 ^ mdts.toNat

def chunkSize (identified : Except Status IdentifyFields) : ℕ :=
  match identified with
  | .error _ => min size4KB size64KB
  | .ok fields => min (granularityBytes fields.fwug) (maxTransferBytes fields.mdts)

structure PhaseA where
  failure : Option CompletionEntry
  lastGoodBytes : ℕ
  last : CompletionEntry

/-- `chunks` are left to send; `last` is the completion that Dw3, Sct and Sc hold. -/
def downloadLoop (passThru : Interface) (wim : Bytes) (chunkBytes : ℕ) :
    ℕ → ℕ → CompletionEntry → Firmware PhaseA
  | 0, offset, last => pure { failure := none, lastGoodBytes := offset, last }
  | chunks + 1, offset, _ => do
    let completion ← sendDownloadChunk passThru (window wim offset chunkBytes) chunkBytes offset
    if rejected completion = true then
      pure { failure := some completion, lastGoodBytes := offset, last := completion }
    else
      downloadLoop passThru wim chunkBytes chunks (offset + chunkBytes) completion

/-- SCT<<8 | SC, or all ones where the command itself failed. -/
def wpsStatus (c : CompletionEntry) : UInt32 :=
  if c.status.isError then 0xFFFFFFFF else (c.sct <<< 8) ||| c.sc

def downloadStatus (failure : CompletionEntry) : Status :=
  if failure.status.isError then failure.status else efiDeviceError

def efiWarnResetRequired : Status := .warning 7

def commitPhase (gResult : BpResult) (passThru : Interface) (wim : WimBuffer) :
    Firmware Status := do
  let gResult := { gResult with phaseReached := .bCommit }
  writeResultToNvRam gResult
  let completion ← sendDownloadBpCommit passThru
  let endToEndSuccess := (completion.status = .success ∨ completion.status = efiWarnResetRequired) ∧
    completion.sct = 0 ∧ completion.sc = 0
  let gResult :=
    { gResult with
      lastDw3 := completion.dw3
      lastSct := completion.sct
      lastSc := completion.sc
      lastEfiStatus := int32Status completion.status
      endToEndSuccess := if endToEndSuccess then 1 else 0 }
  writeResultToNvRam gResult
  ask (.gBSFreePages wim.address wim.pages)
  if ¬endToEndSuccess ∧ completion.status.isError = false then
    pure efiDeviceError
  else
    pure completion.status

def uploadPhase (gResult : BpResult) (passThru : Interface) (wim : WimBuffer) (chunkBytes : ℕ)
    (unlock : CompletionEntry) : Firmware Status := do
  let maxChunks := wim.paddedBytes / chunkBytes
  let phaseA ← downloadLoop passThru wim.content chunkBytes maxChunks 0 unlock
  let phaseAStatus :=
    match phaseA.failure with
    | none => .success
    | some failure => downloadStatus failure
  let gResult :=
    { gResult with
      phaseReached := .aDownload
      bytesUploaded := phaseA.lastGoodBytes
      lastDw3 := phaseA.last.dw3
      lastSct := phaseA.last.sct
      lastSc := phaseA.last.sc
      lastEfiStatus := int32Status phaseAStatus }
  writeResultToNvRam gResult
  if phaseA.failure.isSome then
    ask (.gBSFreePages wim.address wim.pages)
    pure phaseAStatus
  else
    commitPhase gResult passThru wim

def unlockPhase (gResult : BpResult) (passThru : Interface) :
    Firmware (BpResult × CompletionEntry) := do
  let before ← readBpWriteProtection passThru
  let gResult := { gResult with bpWpsPreDw0 := before.dw0, bpWpsPreStatus := wpsStatus before }
  let unlock ← unlockBpWriteProtection passThru
  let gResult :=
    { gResult with
      vendorEnableDw3 := unlock.dw3
      vendorEnableStatus := (unlock.sct <<< 8) ||| unlock.sc
      vendorEnableEfiStatus := int32Status unlock.status
      phaseReached := .vendorWriteEnable }
  writeResultToNvRam gResult
  let after ← readBpWriteProtection passThru
  let gResult := { gResult with bpWpsPostDw0 := after.dw0, bpWpsPostStatus := wpsStatus after }
  writeResultToNvRam gResult
  pure (gResult, unlock)

def writeBpTestPattern (imageHandle : Handle) (gResult : BpResult) (passThru : Interface) :
    Firmware Status := do
  let identified ← queryIdentifyController passThru
  let chunkBytes := chunkSize identified
  match ← loadWimIntoBuffer imageHandle wimFilePath chunkBytes with
  | .error status => pure status
  | .ok wim =>
    let gResult :=
      { gResult with
        wimFileBytes := wim.fileBytes
        wimPaddedBytes := wim.paddedBytes
        phaseReached := .wimLoaded }
    writeResultToNvRam gResult
    let (gResult, unlock) ← unlockPhase gResult passThru
    if rejected unlock = true then
      ask (.gBSFreePages wim.address wim.pages)
      pure unlock.status
    else
      uploadPhase gResult passThru wim chunkBytes unlock

/-! ## EntryPoint -/

def compareMem (a b : Bytes) (n : ℕ) : Bool := a.take n == b.take n

/-- AllocateZeroPool for both heads; what was allocated is freed when the other one failed. -/
def allocateHeads : Firmware Bool := do
  let wimHead ← ask (.allocateZeroPool checkBytes)
  let bpHead ← ask (.allocateZeroPool (checkBytes + lid15PreambleBytes))
  if wimHead = false ∨ bpHead = false then
    if wimHead = true then
      ask .freePool
    if bpHead = true then
      ask .freePool
    pure false
  else
    pure true

def freeHeads : Firmware Unit := do
  ask .freePool
  ask .freePool

def readBpHead (passThru : Interface) : Firmware (CompletionEntry × Bytes) := do
  let (completion, bpHead) ←
    getBpLogPage passThru targetBpid 0 (checkBytes + lid15PreambleBytes)
  pure (completion, bpHead.drop lid15PreambleBytes)

def postWriteReadback (imageHandle : Handle) (passThru : Interface) : Firmware Unit := do
  if (← allocateHeads) = true then
    let (status, wimHead) ← readWimHead imageHandle wimFilePath checkBytes
    if status.isError = true ∨ wimHead.length < checkBytes then
      freeHeads
    else
      let _ ← readBpHead passThru
      freeHeads

inductive LoopExit where
  | next
  | leave
  deriving DecidableEq, Repr

def writeAndReadBack (imageHandle : Handle) (passThru : Interface) : Firmware LoopExit := do
  let writeStatus ← writeBpTestPattern imageHandle {} passThru
  if writeStatus.isError = true then
    pure .leave
  else
    postWriteReadback imageHandle passThru
    pure .leave

def processController (imageHandle : Handle) (forceFromFlag : Bool) (passThru : Interface) :
    Firmware LoopExit := do
  if (← allocateHeads) = false then
    pure .next
  else
    let (status, wimHead) ← readWimHead imageHandle wimFilePath checkBytes
    if status.isError = true ∨ wimHead.length < checkBytes then
      freeHeads
      pure .next
    else
      let (completion, bpHead) ← readBpHead passThru
      if completion.status.isError = true then
        freeHeads
        pure .next
      else if compareMem bpHead wimHead checkBytes = true ∧ forceFromFlag = false then
        freeHeads
        ask (.note .nothingToDo)
        pure .leave
      else
        freeHeads
        writeAndReadBack imageHandle passThru

def controllerLoop (imageHandle : Handle) (forceFromFlag : Bool) : List Handle → Firmware Unit
  | [] => pure ()
  | handle :: rest => do
    let (status, passThru) ← ask (.gBSHandleInterface handle .nvmExpressPassThru)
    if status.isError = true then
      controllerLoop imageHandle forceFromFlag rest
    else
      match ← processController imageHandle forceFromFlag passThru with
      | .next => controllerLoop imageHandle forceFromFlag rest
      | .leave => pure ()

def clearBootNext : Firmware Unit := do
  let _ ← ask (.gRTSetVariable .bootNext [])
  pure ()

def coldReset : Firmware Status := do
  clearBootNext
  ask .gRTResetSystem
  pure .success

def entryPoint (imageHandle : Handle) : Firmware Status := do
  clearBootNext
  let _ ← ask (.gBSSetWatchdogTimer 0)
  let forceFromFlag ← fileExistsOnAnyVolume imageHandle forceReflashFlagPath
  let (status, handles) ← ask (.gBSLocateHandleBuffer (.byProtocol .nvmExpressPassThru))
  if status.isError = true then
    coldReset
  else
    controllerLoop imageHandle forceFromFlag handles
    ask .freePool
    coldReset

end NvmeBpWrite
