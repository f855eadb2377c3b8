import OdpPlatform.InteractionMonitor
import OdpPlatform.FirmwareServices
import OdpPlatform.DevicePathChain

/-! # The services of the recovery loaders

The recovery loader applications reach outside themselves through the calls of the other SrePkg
applications and some of their own. Console and debug output is left out. -/
namespace SreLoaderServices

open ByteBuffer DevicePathNodes DevicePathChain InteractionProgram InteractionContract
open InteractionEmbedding FirmwareServices

inductive LoaderProtocol where
  | nvmExpressPassThru | ramDisk
  deriving DecidableEq, Repr

inductive ResultVariable where
  | sreLoaderResult | bpLoaderResult
  deriving DecidableEq, Repr

/-- A device path that a pointer from the firmware leads to: `nodes`, then EndEntire. -/
structure PathInstance where
  nodes : DevicePath
  ordinary : ∀ n ∈ nodes, ¬IsEndEntire n ∧ Node.Fits n

def PathInstance.path (p : PathInstance) : DevicePath := p.nodes ++ [endEntire]

theorem PathInstance.chain (p : PathInstance) : IsChain p.path :=
  (isChain_append isChain_endEntire).mpr p.ordinary

/-- The answer of GetVariable for a buffer of `size` bytes; `dataSize` is also set on failure. -/
structure VariableRead (size : ℕ) where
  status : Status
  dataSize : ℕ
  data : Bytes
  fits : status.isError = false → data.length = dataSize ∧ dataSize ≤ size

inductive LoaderCall where
  | firmware (c : Call)
  | gBSLocateProtocol (p : LoaderProtocol)
  | gRTGetVariable (name : VariableName) (size : ℕ)
  | setResultVariable (name : ResultVariable) (data : Bytes)
  /-- `content` is what the memory at `base` holds when the call is issued. -/
  | ramDiskRegister (base size : ℕ) (content : Bytes)
  | gBSHandleDevicePath (h : Handle)
  | fileDevicePath (h : Handle) (fileName : List Char)
  | gBSLoadImage (parent : Handle) (path : PathInstance)
  | gBSStartImage (h : Handle)

@[reducible] def LoaderAnswer : LoaderCall → Type
  | .firmware c => Answer c
  | .gBSLocateProtocol _ => Status × Interface
  | .gRTGetVariable _ size => VariableRead size
  | .setResultVariable _ _ => Status
  | .ramDiskRegister _ _ _ => Status × PathInstance
  | .gBSHandleDevicePath _ => Status × PathInstance
  | .fileDevicePath _ _ => Option PathInstance
  | .gBSLoadImage _ _ => Status × Handle
  | .gBSStartImage _ => Status

abbrev Loader := Program LoaderAnswer
abbrev LoaderTrace := Trace LoaderAnswer
abbrev LoaderEnv := Environment LoaderAnswer

abbrev call (c : LoaderCall) : Loader (LoaderAnswer c) := Program.call c

abbrev fw (c : Call) : Loader (Answer c) := @Program.call _ LoaderAnswer (.firmware c)

def firmware : Embedding Answer LoaderAnswer where
  call := .firmware
  answer c := Equiv.refl (Answer c)

theorem only_call_bind {A : LoaderCall → Prop} {α : Type} {c : LoaderCall}
    {f : LoaderAnswer c → Loader α} (hc : A c) (hf : ∀ r, Only A (f r)) :
    Only A (call c >>= f) := ⟨hc, hf⟩

end SreLoaderServices
