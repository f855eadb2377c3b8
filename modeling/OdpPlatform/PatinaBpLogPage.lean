import OdpPlatform.FirmwareServices

/-! # bp_recovery.rs: reading a boot partition through Get Log Page

The destination slice goes in and comes out as a value; its length is what the source calls
`dest.len()`. Sizes and offsets are natural numbers, cut to 32 bits where the source casts. -/
namespace PatinaBpLogPage

open ByteBuffer InteractionProgram FirmwareServices

def targetBpid : UInt8 := 1
def bpsizeBytes : ℕ := 1024 * 1024 * 1024
def lidBpHeaderBytes : ℕ := 16
def readChunkMin : ℕ := 64 * 1024
def readChunkMax : ℕ := 512 * 1024
def readChunkDefault : ℕ := 64 * 1024

def opcodeGetLogPage : UInt8 := 0x02
def opcodeIdentify : UInt8 := 0x06
def identifyCnsController : UInt32 := 0x01
def identifyBufferBytes : ℕ := 4096
def idCtrlOffsetMdts : ℕ := 77
def lidBootPartition : UInt32 := 0x15
def cmdFlagCdw10Valid : UInt8 := (1 : UInt8) <<< 2
def cmdFlagCdw11Valid : UInt8 := (1 : UInt8) <<< 3
def cmdFlagCdw12Valid : UInt8 := (1 : UInt8) <<< 4
def cmdFlagCdw13Valid : UInt8 := (1 : UInt8) <<< 5
def timeoutNs5Sec : ℕ := 50000000
def timeoutNs10Sec : ℕ := 100000000

def probePacket : Packet :=
  { commandTimeout := timeoutNs5Sec
    command :=
      { opcode := opcodeIdentify
        cdw10 := identifyCnsController
        flags := cmdFlagCdw10Valid }
    buffer := zeroed identifyBufferBytes
    transferLength := identifyBufferBytes }

/-- `1usize.checked_shl(mdts)` and `checked_mul(4096)`, with the fallback of either. -/
def maxTransfer (mdts : UInt8) : ℕ :=
  if mdts.toNat < 64 ∧ 2 ^ mdts.toNat * 4096 < 2 ^ 64 then 2 ^ mdts.toNat * 4096
  else readChunkMax

def probeMaxTransfer : Firmware ℕ := do
  let c ← ask (.passThru probePacket)
  if c.status ≠ .success then
    pure readChunkDefault
  else
    let mdts := (received probePacket c).getD idCtrlOffsetMdts 0
    if mdts = 0 then
      pure readChunkMax
    else
      pure (max readChunkMin (min (maxTransfer mdts) readChunkMax))

/-- The packet of one iteration: `slice` is the part of the destination it reads into. -/
def logPagePacket (bpId : UInt8) (bpOff : ℕ) (slice : Bytes) : Packet :=
  let readBytes := slice.length
  let lpol := lidBpHeaderBytes + bpOff
  let numd := UInt32.ofNat (readBytes / 4 - 1)
  { commandTimeout := timeoutNs10Sec
    command :=
      { opcode := opcodeGetLogPage
        cdw10 := ((numd &&& 0xFFFF) <<< 16) ||| ((bpId.toUInt32 &&& 0x7F) <<< 8) |||
          lidBootPartition
        cdw11 := (numd >>> 16) &&& 0xFFFF
        cdw12 := UInt32.ofNat lpol
        cdw13 := UInt32.ofNat (lpol / 2 ^ 32)
        flags := cmdFlagCdw10Valid ||| cmdFlagCdw11Valid ||| cmdFlagCdw12Valid |||
          cmdFlagCdw13Valid }
    buffer := slice
    transferLength := (UInt32.ofNat readBytes).toNat }

def readBpLoop (bpId : UInt8) (chunkBytes : ℕ) : ℕ → ℕ → Bytes → FirmwareE Bytes
  | 0, _, _ => ExceptT.mk .hang
  | fuel + 1, bpOff, dest =>
    if bpOff < dest.length then do
      let readBytes := min chunkBytes (dest.length - bpOff)
      let packet := logPagePacket bpId bpOff (window dest bpOff readBytes)
      let c ← ask (.passThru packet)
      if c.status ≠ .success then
        throw ⟨c.status⟩
      else
        readBpLoop bpId chunkBytes fuel (bpOff + readBytes)
          (splice dest bpOff (received packet c))
    else
      pure dest

/-- Each iteration reads at least a dword, so the length of the destination is fuel enough. -/
def readBpViaLogPage (bpId : UInt8) (chunkBytes : ℕ) (dest : Bytes) : FirmwareE Bytes :=
  if chunkBytes < 4 ∨ chunkBytes % 4 ≠ 0 ∨ dest.length % 4 ≠ 0 then
    throw .invalidParameter
  else
    readBpLoop bpId chunkBytes (dest.length + 1) 0 dest

def bpHasSrePayload : Firmware Bool := do
  match ← ask (.locateProtocolUnchecked .nvmExpressPassThru) with
  | .error _ => pure false
  | .ok _ =>
    match ← (readBpViaLogPage targetBpid 512 (zeroed 512)).run with
    | .error _ => pure false
    | .ok head => pure (head.getD 510 0 == 0x55 && head.getD 511 0 == 0xAA)

end PatinaBpLogPage
