import OdpPlatform.ByteBuffer

/-! # serial.rs: ODP messages over a serial port

The header of requests and replies, and what `Serial::send` makes of a reply message. Framing is
left to the MCTP library, and so is the payload, which `RESP::deserialize` decodes. -/
namespace EcSerial

open ByteBuffer

inductive Error where
  | io (msg : String)
  | protocol (msg : String)
  | serialization (msg : String)
  | unexpectedResponse
  | unsupported
  deriving DecidableEq, Repr

def odpMessageType : UInt8 := 0x7D
def odpHeaderSz : ℕ := 4

inductive Destination where
  | battery | thermal | timeAlarm
  deriving DecidableEq, Repr

def Destination.serviceId : Destination → UInt8
  | .battery => 0x08
  | .thermal => 0x09
  | .timeAlarm => 0x0B

/-! ## OdpHeader -/

def beBytes (w : UInt32) : Bytes :=
  [(w >>> 24).toUInt8, (w >>> 16).toUInt8, (w >>> 8).toUInt8, w.toUInt8]

def buildOdpHeader (isRequest : Bool) (serviceId : UInt8) (messageId : UInt16) : Bytes :=
  let raw : UInt32 := if isRequest then (1 : UInt32) <<< 25 else 0
  beBytes (raw ||| (serviceId.toUInt32 <<< 16) ||| (messageId.toUInt32 &&& 0x7FFF))

structure OdpHeader where
  isRequest : Bool
  serviceId : UInt8
  isError : Bool
  messageId : UInt16
  deriving DecidableEq, Repr

def parseOdpHeader : Bytes → Except Error OdpHeader
  | a :: b :: c :: d :: _ =>
    let raw := (a.toUInt32 <<< 24) ||| (b.toUInt32 <<< 16) ||| (c.toUInt32 <<< 8) ||| d.toUInt32
    .ok { isRequest := raw &&& ((1 : UInt32) <<< 25) != 0
          serviceId := ((raw >>> 16) &&& 0xFF).toUInt8
          isError := raw &&& ((1 : UInt32) <<< 15) != 0
          messageId := (raw &&& 0x7FFF).toUInt16 }
  | _ => .error (.protocol "OdpHeader buffer < 4 bytes")

structure Request where
  dst : Destination
  discriminant : UInt16
  body : Bytes
  deriving DecidableEq, Repr

def Request.message (request : Request) : Bytes :=
  buildOdpHeader true request.dst.serviceId request.discriminant ++ request.body

structure Message where
  messageType : UInt8
  body : Bytes
  deriving DecidableEq, Repr

def hexDigit (d : ℕ) : Char := if d < 10 then Char.ofNat (48 + d) else Char.ofNat (87 + d)

def hexByte (b : UInt8) : String :=
  String.ofList ['0', 'x', hexDigit (b.toNat / 16), hexDigit (b.toNat % 16)]

def errorResponseText (header : OdpHeader) : String :=
  "EC returned an error response (service " ++ hexByte header.serviceId ++ ", message " ++
    toString header.messageId.toNat ++ ")"

section Replies

-- `RESP::deserialize` of the service's response type
variable {Resp : Type} (deserialize : Destination → UInt16 → Bytes → Except String Resp)

def handleReply (dst : Destination) (message : Message) : Except Error Resp :=
  if message.messageType ≠ odpMessageType then .error .unexpectedResponse
  else
    match parseOdpHeader message.body with
    | .error e => .error e
    | .ok header =>
      if header.isRequest ∨ header.serviceId ≠ dst.serviceId then .error .unexpectedResponse
      else if header.isError then .error (.protocol (errorResponseText header))
      else
        match deserialize dst header.messageId (message.body.drop odpHeaderSz) with
        | .error e => .error (.serialization ("deserialization: " ++ e))
        | .ok response => .ok response

end Replies

end EcSerial
