import OdpPlatform.ByteBuffer

/-! # acpi.rs: the buffers of a method evaluation

The request the driver gets and the response it returns. Texts are lists of characters. Code
that indexes a slice runs in `Parse`, where `none` is the panic of an index out of range. -/
namespace AcpiMethodBuffers

open ByteBuffer

inductive AcpiArgumentType where
  | integer
  | string
  | buffer
  | package
  | packageEx
  deriving DecidableEq, Repr

namespace AcpiArgumentType

def toU16 : AcpiArgumentType → UInt16
  | .integer => 0x0
  | .string => 0x1
  | .buffer => 0x2
  | .package => 0x3
  | .packageEx => 0x4

def tryFrom (type_ : UInt16) : Option AcpiArgumentType :=
  if type_ = 0x0 then some .integer
  else if type_ = 0x1 then some .string
  else if type_ = 0x2 then some .buffer
  else if type_ = 0x3 then some .package
  else if type_ = 0x4 then some .packageEx
  else none

theorem tryFrom_toU16 (t : AcpiArgumentType) : tryFrom t.toU16 = some t := by
  cases t <;> rfl

end AcpiArgumentType

inductive AcpiParseError where
  | insufficientLength
  | invalidFormat
  | evaluationFailed (code : ℤ)
  deriving DecidableEq, Repr

/-- `uuid::Bytes` -/
structure UuidBytes where
  bytes : Bytes
  size : bytes.length = 16

inductive AcpiMethodArgument where
  | int (i : UInt32)
  | guid (g : UuidBytes)
  | string (s : List Char)
  | buffer (b : Bytes)

structure AcpiMethodArgumentV1 where
  type_ : UInt16
  dataLength : UInt16
  data32 : UInt32
  data : Bytes
  deriving DecidableEq, Repr

structure AcpiMethodInput where
  name : List Char
  args : Option (List AcpiMethodArgument)

structure AcpiEvalInputBufferComplexV1Ex where
  signature : UInt32
  methodname : Bytes
  size : UInt32
  argumentcount : UInt32
  arguments : List AcpiMethodArgumentV1

structure AcpiEvalOutputBufferV1 where
  signature : UInt32
  length : UInt32
  count : UInt32
  arguments : List AcpiMethodArgumentV1
  deriving DecidableEq, Repr

def utf8 (s : List Char) : Bytes := s.flatMap String.utf8EncodeChar

/-- `u16::try_from(len)` -/
def lengthField (n : ℕ) : Except AcpiParseError UInt16 :=
  if n < 2 ^ 16 then .ok (UInt16.ofNat n) else .error .invalidFormat

def AcpiMethodArgumentV1.tryFrom : AcpiMethodArgument → Except AcpiParseError AcpiMethodArgumentV1
  | .guid g => .ok ⟨AcpiArgumentType.buffer.toU16, 16, 0, g.bytes⟩
  | .int i => .ok ⟨AcpiArgumentType.integer.toU16, 4, i, leBytes i⟩
  | .string s => do
    let data := utf8 s ++ [0]
    let dataLength ← lengthField data.length
    pure ⟨AcpiArgumentType.string.toU16, dataLength, 0, data⟩
  | .buffer b => do
    let dataLength ← lengthField b.length
    pure ⟨AcpiArgumentType.buffer.toU16, dataLength, 0, b⟩

def inputSignature : Bytes := [0x41, 0x65, 0x69, 0x46]

def acpiEvalInputBufferComplexSignatureEx : UInt32 := leWord inputSignature

def AcpiEvalInputBufferComplexV1Ex.tryFrom (method : AcpiMethodInput) :
    Except AcpiParseError AcpiEvalInputBufferComplexV1Ex := do
  let arguments ←
    match method.args with
    | some args => args.mapM AcpiMethodArgumentV1.tryFrom
    | none => pure []
  pure
    { signature := acpiEvalInputBufferComplexSignatureEx
      methodname := padTo 256 0 ((utf8 method.name).take 256)
      size := (arguments.map fun arg => arg.dataLength.toUInt32).sum
      argumentcount := UInt32.ofNat arguments.length
      arguments }

def AcpiMethodArgumentV1.toBytes (arg : AcpiMethodArgumentV1) : Bytes :=
  leBytes16 arg.type_ ++ leBytes16 arg.dataLength ++ arg.data

def AcpiEvalInputBufferComplexV1Ex.toBytes (input : AcpiEvalInputBufferComplexV1Ex) : Bytes :=
  leBytes input.signature ++ input.methodname ++ leBytes input.size ++
    leBytes input.argumentcount ++ input.arguments.flatMap AcpiMethodArgumentV1.toBytes

abbrev Parse := ExceptT AcpiParseError Option

def slice (value : Bytes) (i j : ℕ) : Parse Bytes :=
  if i ≤ j ∧ j ≤ value.length then pure (window value i (j - i)) else ExceptT.mk none

/-- `b"AeoB"` -/
def outputSignature : Bytes := [0x41, 0x65, 0x6F, 0x42]

/-- One round of the argument loop: the argument and the offset behind its slot. -/
def parseArgument (value : Bytes) (offset : ℕ) : Parse (AcpiMethodArgumentV1 × ℕ) := do
  if offset + 8 > value.length then
    throw .insufficientLength
  else
    let type_ ← leWord16 <$> slice value offset (offset + 2)
    let dataLength ← leWord16 <$> slice value (offset + 2) (offset + 4)
    let data32 ←
      if type_ = 0 then leWord <$> slice value (offset + 4) (offset + 8) else pure 0
    let offset := offset + 4
    if offset + dataLength.toNat > value.length then
      throw .insufficientLength
    else
      let data ← slice value offset (offset + dataLength.toNat)
      pure (⟨type_, dataLength, data32, data⟩, offset + max dataLength.toNat 4)

def parseArguments (value : Bytes) : ℕ → ℕ → Parse (List AcpiMethodArgumentV1 × ℕ)
  | 0, offset => pure ([], offset)
  | count + 1, offset => do
    let (argument, offset) ← parseArgument value offset
    let (arguments, offset) ← parseArguments value count offset
    pure (argument :: arguments, offset)

def AcpiEvalOutputBufferV1.tryFrom (value : Bytes) : Parse AcpiEvalOutputBufferV1 := do
  if value.length < 12 then
    throw .insufficientLength
  else
    let signature ← leWord <$> slice value 0 4
    let length ← leWord <$> slice value 4 8
    let count ← leWord <$> slice value 8 12
    if signature ≠ leWord outputSignature ∨ length.toNat ≠ value.length then
      throw .invalidFormat
    else
      let (arguments, offset) ← parseArguments value count.toNat 12
      if offset ≠ value.length then
        throw .invalidFormat
      else
        pure ⟨signature, length, count, arguments⟩

end AcpiMethodBuffers
