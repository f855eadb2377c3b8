import OdpPlatform.FirmwareServices

/-! # BpRecoveryLoader.c: reading a boot partition into pages

The pages that AllocatePages hands out are a byte list; debug output is left out. -/
namespace BpRecoveryLoader

open ByteBuffer InteractionProgram FirmwareServices

def lidBpHeaderBytes : ℕ := 16
def nvmeAdminGetLogPage : UInt8 := 0x02
def lidBootPartition : UInt32 := 0x15
def efiPageSize : ℕ := 4096

structure BplResult where
  lastNvmeStatus : UInt32 := 0
  first32Bytes : Bytes := zeroed 32

def bpLogPagePacket (bpid : UInt8) (offsetBytes bytes : ℕ) : Packet :=
  let numD := UInt32.ofNat (bytes / 4) - 1
  { commandTimeout := 10 * 10000000
    command :=
      { opcode := nvmeAdminGetLogPage
        cdw10 := ((numD &&& 0xFFFF) <<< 16) ||| ((bpid.toUInt32 &&& 0x7F) <<< 8) |||
          lidBootPartition
        cdw11 := (numD >>> 16) &&& 0xFFFF
        cdw12 := UInt32.ofNat offsetBytes
        cdw13 := UInt32.ofNat (offsetBytes / 2 ^ 32)
        flags := cdw10Valid ||| cdw11Valid ||| cdw12Valid ||| cdw13Valid }
    buffer := zeroed bytes
    transferLength := (UInt32.ofNat bytes).toNat }

def getBpLogPage (bpid : UInt8) (offsetBytes bytes : ℕ) :
    Firmware (Status × Bytes × UInt32 × UInt32) := do
  let packet := bpLogPagePacket bpid offsetBytes bytes
  let completion ← ask (.passThru packet)
  pure (completion.status, received packet completion, completion.sct.toUInt32,
    completion.sc.toUInt32)

/-- The out parameters, and what the pages hold. -/
structure LoadedPages where
  pageAddr : ℕ := 0
  pages : ℕ := 0
  bytesRead : ℕ := 0
  content : Bytes := []

structure LoadOutcome where
  status : Status
  loaded : LoadedPages := {}
  gResult : BplResult

def loadBpLoop (gResult : BplResult) (bpId : UInt8) (bpSize chunkBytes pageAddr pages : ℕ) :
    ℕ → ℕ → Bytes → Firmware LoadOutcome
  | 0, _, _ => .hang
  | fuel + 1, bpOff, dest =>
    if bpOff < bpSize then do
      let readBytes := if bpOff + chunkBytes > bpSize then bpSize - bpOff else chunkBytes
      let lpol := lidBpHeaderBytes + bpOff
      let (status, buffer, sct, sc) ← getBpLogPage bpId lpol readBytes
      if status.isError = true ∨ sct ≠ 0 ∨ sc ≠ 0 then do
        ask (.gBSFreePages pageAddr pages)
        pure { status := if status.isError then status else efiDeviceError
               gResult := { gResult with lastNvmeStatus := (sct <<< 8) ||| sc } }
      else
        loadBpLoop gResult bpId bpSize chunkBytes pageAddr pages fuel (bpOff + readBytes)
          (splice dest bpOff buffer)
    else
      pure { status := .success
             loaded := { pageAddr, pages, bytesRead := bpOff, content := dest }
             gResult := { gResult with first32Bytes := dest.take 32 } }

def loadBpIntoPages (gResult : BplResult) (bpId : UInt8) (bpSize chunkBytes : ℕ) :
    Firmware LoadOutcome := do
  let pages := (bpSize + efiPageSize - 1) / efiPageSize
  let (status, pageAddr) ← ask (.gBSAllocatePages pages)
  if status.isError = true then
    pure { status, gResult }
  else
    loadBpLoop gResult bpId bpSize chunkBytes pageAddr pages (bpSize + 1) 0
      (zeroed (pages * efiPageSize))

end BpRecoveryLoader
