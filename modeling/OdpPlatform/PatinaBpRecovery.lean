import OdpPlatform.PatinaBpLogPage
import OdpPlatform.PatinaBootOptions

/-! # bp_recovery.rs: the RAM disk and the recovery flow

Ownership of heap memory shows as calls: a buffer or state box that Rust drops is a drop call
at the place where it goes out of scope, one that is leaked or forgotten has none. -/
namespace PatinaBpRecovery

open ByteBuffer DevicePathNodes InteractionProgram FirmwareServices PatinaBootHelpers
open PatinaBootOptions PatinaBpLogPage

def devicePathMaxBytes : ℕ := 64 * 1024

def readMemory (m : Memory) (n : ℕ) : Bytes := (List.range n).map m

/-- Fuel: every node is at least a header long. -/
def devicePathSizeFrom (dp : Memory) : ℕ → ℕ → ℕ
  | 0, _ => 0
  | fuel + 1, consumed =>
    let length := (u16FromLeBytes (dp (consumed + 2)) (dp (consumed + 3))).toNat
    let isEndEntire := dp consumed == typeEnd && dp (consumed + 1) == subtypeEntire
    if consumed > devicePathMaxBytes - nodeHdrBytes then 0
    else if length < nodeHdrBytes then 0
    else if isEndEntire ∧ length ≠ nodeHdrBytes then 0
    else if consumed + length > devicePathMaxBytes then 0
    else if isEndEntire then consumed + length
    else devicePathSizeFrom dp fuel (consumed + length)

/-- 0 on malformed input. -/
def devicePathSize (dp : Memory) : ℕ := devicePathSizeFrom dp devicePathMaxBytes 0

def encodeNodeHeader (type subType : UInt8) (length : ℕ) : Bytes :=
  [type, subType, UInt8.ofNat length, UInt8.ofNat (length / 256)]

def buildFilePathNode (path : List Char) : Bytes :=
  let utf16 := encodeUtf16 path ++ [0]
  let nodeLen := nodeHdrBytes + utf16.length * 2
  let endHdr := encodeNodeHeader typeEnd subtypeEntire nodeHdrBytes
  if nodeLen > 0xFFFF then endHdr
  else encodeNodeHeader typeMedia mediaFilePath nodeLen ++ utf16LeBytes utf16 ++ endHdr

def ramDiskDevicePath : Bytes :=
  [0x04, 0x03, 0x14, 0x00,
    0x7e, 0x1c, 0x0b, 0x5d, 0x2f, 0x8a, 0x5c, 0x4e, 0x9d, 0x3a, 0x7b, 0x8e, 0x9f, 0x1c, 0x2d, 0x4a,
    0x7f, 0xff, 0x04, 0x00]

structure RamDiskInstall where
  handle : Handle
  devicePath : Interface
  state : Interface
  deriving DecidableEq, Repr

def registerRamDisk (bufferPtr bufferSize : ℕ) : FirmwareE RamDiskInstall := do
  let state ← ask (.newRamDiskBlockIo bufferPtr bufferSize)
  let dp ← ask (.leakDevicePath ramDiskDevicePath)
  let handle ← mapErr (ask (.installProtocolInterface none .blockIo state))
  match ← ask (.installProtocolInterface (some handle) .devicePath dp) with
  | .error s =>
    match ← ask (.uninstallProtocolInterface handle .blockIo state) with
    | .ok _ =>
      ask (.dropRamDiskBlockIo state)
      throw ⟨s⟩
    | .error _ => throw ⟨s⟩
  | .ok _ =>
    let _ ← ask (.connectController handle true)
    pure ⟨handle, dp, state⟩

def RamDiskInstall.teardown (self : RamDiskInstall) : FirmwareE Unit := do
  let _ ← ask (.disconnectController self.handle)
  mapErr (ask (.uninstallProtocolInterface self.handle .devicePath self.devicePath))
  mapErr (ask (.uninstallProtocolInterface self.handle .blockIo self.state))
  ask (.dropRamDiskBlockIo self.state)

/-- `from_raw_parts` at the start of a device path. -/
structure SliceRead where
  length : ℕ

abbrev SliceAnswer (_ : SliceRead) : Type := Bytes

def sliceEnv (m : Memory) : Environment SliceAnswer := fun _ c => some (readMemory m c.length)

/-- One candidate of the search, with the slice of its bytes as a call. -/
def candidateMatches (parentPrefix : Bytes) (dpTotal : ℕ) : Program SliceAnswer Bool :=
  if dpTotal < parentPrefix.length then .done false
  else .ask ⟨parentPrefix.length⟩ fun candidatePrefix => .done (candidatePrefix == parentPrefix)

section Chainload

variable [PatinaDevicePath]

open PatinaDevicePath

def findDescendant (parentPrefix : Bytes) : List Handle → Firmware (Option Memory)
  | [] => pure none
  | h :: rest => do
    match ← ask (.handleProtocolUncheckedDevicePath h) with
    | .ok (some dp) =>
      let matched := (candidateMatches parentPrefix (devicePathSize dp)).run (sliceEnv dp) []
      if matched.2 = some true then
        pure (some dp)
      else
        findDescendant parentPrefix rest
    | _ => findDescendant parentPrefix rest

def chainloadFromRamdisk (arch : TargetArch) (lockedBoot : LockedBoot) (imageHandle : Handle)
    (parentDp : Memory) : FirmwareE Unit := do
  let ramHandle ← mapErr (ask (.locateDevicePath parentDp))
  let _ ← ask (.connectController ramHandle true)
  let parentSize := devicePathSize parentDp
  if parentSize < 4 then
    throw .invalidParameter
  else
    let sfsHandles ← mapErr (ask (.locateHandleBuffer (.byProtocol .simpleFileSystem)))
    match ← (findDescendant (readMemory parentDp (parentSize - 4)) sfsHandles : Firmware _) with
    | none => throw .notFound
    | some sfsDp =>
      let sfsTotal := devicePathSize sfsDp
      if sfsTotal < 4 then
        throw .invalidParameter
      else
        let fullPath :=
          readMemory sfsDp (sfsTotal - 4) ++ buildFilePathNode (defaultBootFilePath arch)
        match tryFromPtr (memoryOf fullPath) with
        | none => throw .invalidParameter
        | some devicePath => lockedBoot.bootFromDevicePath imageHandle devicePath

/-- `buf` is dropped where an error returns early, and after a teardown that succeeded. -/
def runSreFlow (arch : TargetArch) (lockedBoot : LockedBoot) (imageHandle : Handle) :
    FirmwareE Unit := do
  logError connectAll
  let _ ← mapErr (ask (.locateProtocolUnchecked .nvmExpressPassThru))
  let chunk ← (probeMaxTransfer : Firmware ℕ)
  match ← ask (.tryReserveExact bpsizeBytes) with
  | none => throw .outOfResources
  | some buf =>
    match ← attempt (readBpViaLogPage targetBpid chunk (zeroed bpsizeBytes)) with
    | .error e =>
      ask (.dropBuffer buf)
      throw e
    | .ok bytes =>
      match ← attempt (registerRamDisk buf bytes.length) with
      | .error e =>
        ask (.dropBuffer buf)
        throw e
      | .ok install =>
        let result ← attempt (chainloadFromRamdisk arch lockedBoot imageHandle
          (memoryOf ramDiskDevicePath))
        match ← attempt install.teardown with
        | .ok _ => ask (.dropBuffer buf)
        | .error _ => pure ()
        match result with
        | .ok _ => pure ()
        | .error e => throw e

end Chainload

end PatinaBpRecovery
