import OdpPlatform.ByteBuffer

/-! # Device paths as lists of nodes

The list holds the nodes that the device path iterator yields, the terminating EndEntire
included. Memory behind a raw device path pointer is a total function of the offset. -/
namespace DevicePathNodes

open ByteBuffer

abbrev Memory := ℕ → UInt8

def memoryOf (b : Bytes) : Memory := fun i => b.getD i 0

structure Node where
  type : UInt8
  subType : UInt8
  data : Bytes
  deriving DecidableEq, Repr

abbrev DevicePath := List Node

/-! Node types and sub-types of the UEFI specification that the code names. -/

def typeHardware : UInt8 := 0x01
def typeAcpi : UInt8 := 0x02
def typeMessaging : UInt8 := 0x03
def typeMedia : UInt8 := 0x04
def typeEnd : UInt8 := 0x7F
def subtypeEntire : UInt8 := 0xFF
def mediaHardDrive : UInt8 := 0x01
def mediaVendor : UInt8 := 0x03
def mediaFilePath : UInt8 := 0x04
def mediaPiwgFirmwareFile : UInt8 := 0x06
def mediaPiwgFirmwareVolume : UInt8 := 0x07
def messagingUsb : UInt8 := 0x05
def messagingUsbClass : UInt8 := 0x0F
def messagingUsbWwid : UInt8 := 0x10

def nodeHdrBytes : ℕ := 4

def endEntire : Node := ⟨typeEnd, subtypeEntire, []⟩

def Node.bytes (n : Node) : Bytes :=
  let length := nodeHdrBytes + n.data.length
  [n.type, n.subType, UInt8.ofNat length, UInt8.ofNat (length / 256)] ++ n.data

def asBytes (p : DevicePath) : Bytes := p.flatMap Node.bytes

def IsUsb (n : Node) : Prop :=
  n.type = typeMessaging ∧
    (n.subType = messagingUsb ∨ n.subType = messagingUsbClass ∨ n.subType = messagingUsbWwid)

instance (n : Node) : Decidable (IsUsb n) := inferInstanceAs (Decidable (_ ∧ _))

def IsFw (n : Node) : Prop :=
  n.type = typeMedia ∧
    (n.subType = mediaPiwgFirmwareFile ∨ n.subType = mediaPiwgFirmwareVolume)

instance (n : Node) : Decidable (IsFw n) := inferInstanceAs (Decidable (_ ∧ _))

structure HardDrive where
  partitionNumber : UInt32
  partitionFormat : UInt8
  signatureType : UInt8
  partitionSignature : Bytes
  deriving DecidableEq, Repr

def encodeUtf16Char (c : Char) : List ℕ :=
  let v := c.toNat
  if v < 0x10000 then [v]
  else [0xD800 + (v - 0x10000) / 0x400, 0xDC00 + (v - 0x10000) % 0x400]

def encodeUtf16 (s : List Char) : List ℕ := s.flatMap encodeUtf16Char

def utf16LeBytes (us : List ℕ) : Bytes := us.flatMap fun u => [UInt8.ofNat u, UInt8.ofNat (u / 256)]

def mediaFilePathNode (path : List Char) : Node :=
  ⟨typeMedia, mediaFilePath, utf16LeBytes (encodeUtf16 path ++ [0])⟩

/-- The patina device path library: decoding foreign bytes, and its owned paths. Building one ends
it with EndEntire, appending one replaces the EndEntire of the first, and appending instances puts
an EndInstance there. -/
class PatinaDevicePath where
  tryFromPtr : Memory → Option DevicePath
  hardDriveTryFromNode : Node → Option HardDrive
  fromDevicePathNodeIter : List Node → DevicePath
  appendDevicePath : DevicePath → DevicePath → DevicePath
  appendDevicePathInstances : DevicePath → DevicePath → DevicePath
  /-- `FilePath::new` -/
  filePathNode : List Char → Node
  fromDevicePathNodeIter_eq : ∀ ns, fromDevicePathNodeIter ns =
    if ns.getLast? = some endEntire then ns else ns ++ [endEntire]
  appendDevicePath_eq : ∀ a b, appendDevicePath a b = a.dropLast ++ b
  appendDevicePathInstances_eq : ∀ multi path,
    appendDevicePathInstances multi path = multi.dropLast ++ ⟨typeEnd, 0x01, []⟩ :: path
  filePathNode_eq : ∀ path, filePathNode path = mediaFilePathNode path

/-! A library that follows the specification, for concrete runs. -/

def decodeNodes (m : Memory) : ℕ → ℕ → Option DevicePath
  | 0, _ => none
  | fuel + 1, pos =>
    let length := (m (pos + 2)).toNat + 256 * (m (pos + 3)).toNat
    if length < nodeHdrBytes then none
    else
      let node : Node :=
        ⟨m pos, m (pos + 1), (List.range (length - nodeHdrBytes)).map fun i =>
          m (pos + nodeHdrBytes + i)⟩
      if node.type = typeEnd ∧ node.subType = subtypeEntire then some [node]
      else (decodeNodes m fuel (pos + length)).map (node :: ·)

def decodeHardDrive (n : Node) : Option HardDrive :=
  if n.type = typeMedia ∧ n.subType = mediaHardDrive ∧ n.data.length = 38 then
    some ⟨leWord n.data, n.data.getD 36 0, n.data.getD 37 0, window n.data 20 16⟩
  else
    none

@[reducible] def specDevicePath : PatinaDevicePath where
  tryFromPtr m := decodeNodes m 16384 0
  hardDriveTryFromNode := decodeHardDrive
  fromDevicePathNodeIter ns := if ns.getLast? = some endEntire then ns else ns ++ [endEntire]
  appendDevicePath a b := a.dropLast ++ b
  appendDevicePathInstances multi path := multi.dropLast ++ ⟨typeEnd, 0x01, []⟩ :: path
  filePathNode := mediaFilePathNode
  fromDevicePathNodeIter_eq _ := rfl
  appendDevicePath_eq _ _ := rfl
  appendDevicePathInstances_eq _ _ := rfl
  filePathNode_eq _ := rfl

section Owned

variable [PatinaDevicePath]

open PatinaDevicePath

theorem any_fromDevicePathNodeIter {P : Node → Bool} (he : P endEntire = false) (ns : List Node) :
    (fromDevicePathNodeIter ns).any P = ns.any P := by
  rw [fromDevicePathNodeIter_eq]
  split
  · rfl
  · simp [he]

theorem any_dropLast_fromDevicePathNodeIter {P : Node → Bool} (he : P endEntire = false)
    (ns : List Node) : (fromDevicePathNodeIter ns).dropLast.any P = ns.any P := by
  rw [fromDevicePathNodeIter_eq]
  split
  next hl =>
    obtain ⟨init, rfl⟩ := List.getLast?_eq_some_iff.mp hl
    simp [he]
  next => simp

end Owned

end DevicePathNodes
