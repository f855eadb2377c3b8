import OdpPlatform.DelimitedFrames
import OdpPlatform.EcSerialLink
import OdpPlatform.InteractionMonitor

/-! # serial.rs: a request and its reply on the wire

`Serial::send` over the port, byte by byte. Packets and their reassembly belong to the MCTP
library. -/
namespace EcSerialWire

open ByteBuffer DelimitedFrames InteractionProgram InteractionContract InteractionMonitor EcSerial

def serialEndFlag : UInt8 := 0x7E
def bufferSz : ℕ := 256

inductive PortCall where
  | lock | unlock
  /-- `clear(ClearBuffer::Input)` -/
  | clearInput
  | writeAll (packet : Bytes)
  | flush
  /-- `read_exact` of one byte -/
  | readExact
  deriving DecidableEq, Repr

/-- `lock` is false when the mutex is poisoned. -/
abbrev PortAnswer : PortCall → Type
  | .lock => Bool
  | .unlock => Unit
  | .clearInput | .writeAll _ | .flush => Except String Unit
  | .readExact => Except String UInt8

abbrev Wire := Program PortAnswer
abbrev WireE := ExceptT Error Wire

def askPort (c : PortCall) : Wire (PortAnswer c) := Program.call c

def orIo {α : Type} (p : Wire (Except String α)) : WireE α :=
  ExceptT.mk (p >>= fun r => pure (r.mapError .io))

/-- `mctp_rs` over the serial medium: a context has assembled the packets so far. -/
class Mctp where
  Context : Type
  fresh : Context
  /-- The packets that `next` hands out, in order. -/
  serializePacket : Message → Except String (List (Except String Bytes))
  deserializePacket : Context → Bytes → Except String (Context × Option Message)

def readFramedPacket : ℕ → Bytes → WireE Bytes
  | 0, _ => throw (.protocol "framed packet exceeds buffer")
  | space + 1, filled => do
    let byte ← orIo (askPort .readExact)
    if byte = serialEndFlag then pure (filled ++ [byte])
    else readFramedPacket space (filled ++ [byte])

def writePackets : List (Except String Bytes) → WireE Unit
  | [] => pure ()
  | .error e :: _ => throw (.serialization e)
  | .ok pkt :: rest => do
    orIo (askPort (.writeAll pkt))
    writePackets rest

section Send

variable [Mctp] {Resp : Type} (deserialize : Destination → UInt16 → Bytes → Except String Resp)

def receive (dst : Destination) : ℕ → Mctp.Context → WireE Resp
  | 0, _ => ExceptT.mk .hang
  | fuel + 1, rxCtx => do
    let packet ← readFramedPacket bufferSz []
    match Mctp.deserializePacket rxCtx packet with
    | .error e => throw (.protocol e)
    | .ok (rxCtx, none) => receive dst fuel rxCtx
    | .ok (_, some message) => ExceptT.mk (pure (handleReply deserialize dst message))

def transmit (message : Message) : WireE Unit :=
  match Mctp.serializePacket message with
  | .error e => throw (.serialization e)
  | .ok packets => writePackets packets

def exchange (request : Request) (fuel : ℕ) : WireE Resp := do
  orIo (askPort .clearInput)
  transmit ⟨odpMessageType, request.message⟩
  orIo (askPort .flush)
  receive deserialize request.dst fuel Mctp.fresh

/-- `body` is what `request.serialize` made of the request. -/
def send (dst : Destination) (discriminant : UInt16) (body : Except String Bytes) (fuel : ℕ) :
    Wire (Except Error Resp) :=
  match body with
  | .error e => pure (.error (.serialization e))
  | .ok body => do
    if (← askPort .lock) = false then
      pure (.error (.io "serial port mutex poisoned"))
    else
      let response ← (exchange deserialize ⟨dst, discriminant, body⟩ fuel).run
      askPort .unlock
      pure response

end Send

structure Port where
  locked : Bool := false
  cleared : Bool := false
  written : List Bytes := []
  flushed : Bool := false
  received : Bytes := []
  deriving DecidableEq, Repr

def advance (s : Port) : Event PortAnswer → Port
  | ⟨.lock, some true⟩ => { s with locked := true }
  | ⟨.unlock, _⟩ => { s with locked := false }
  | ⟨.clearInput, some (.ok _)⟩ => { s with cleared := true }
  | ⟨.writeAll packet, some (.ok _)⟩ => { s with written := s.written ++ [packet] }
  | ⟨.flush, some (.ok _)⟩ => { s with flushed := true }
  | ⟨.readExact, some (.ok byte)⟩ => { s with received := s.received ++ [byte] }
  | _ => s

def Port.frames (s : Port) : List Bytes := (cut serialEndFlag s.received).1

def Port.filled (s : Port) : Bytes := (cut serialEndFlag s.received).2

/-- An error that is not about the reply's header. -/
inductive Failed {α : Type} : Except Error α → Prop where
  | io (text : String) : Failed (.error (.io text))
  | protocol (text : String) : Failed (.error (.protocol text))
  | serialization (text : String) : Failed (.error (.serialization text))

theorem Failed.error {α β : Type} {e : Error} (h : Failed (.error e : Except Error α)) :
    Failed (.error e : Except Error β) := by
  cases h with
  | io text => exact .io text
  | protocol text => exact .protocol text
  | serialization text => exact .serialization text

section Monitored

variable [Mctp]

def absorb (rxCtx : Mctp.Context) (packet : Bytes) : Option Mctp.Context :=
  match Mctp.deserializePacket rxCtx packet with
  | .ok (rxCtx, none) => some rxCtx
  | _ => none

def assemble (packets : List Bytes) : Option Mctp.Context := packets.foldlM absorb Mctp.fresh

def Completes (packets : List Bytes) (message : Message) : Prop :=
  ∃ first last rxCtx rxCtx', packets = first ++ [last] ∧ assemble first = some rxCtx ∧
    Mctp.deserializePacket rxCtx last = .ok (rxCtx', some message)

/-- The input is cleared before the request is written, written whole before anything is read,
and read no further than the packet that completes the reply. -/
def Permitted (message : Message) (s : Port) : PortCall → Prop
  | .lock => s = {}
  | .clearInput => s = { locked := true }
  | .writeAll packet => s.locked ∧ s.cleared ∧ ¬s.flushed ∧ ∃ packets,
      Mctp.serializePacket message = .ok packets ∧ (s.written ++ [packet]).map .ok <+: packets
  | .flush => s.locked ∧ s.cleared ∧ ¬s.flushed ∧
      Mctp.serializePacket message = .ok (s.written.map .ok)
  | .readExact => s.locked ∧ s.flushed ∧ s.filled.length < bufferSz ∧ (assemble s.frames).isSome
  | .unlock => s.locked

def wireMonitor (message : Message) : Monitor PortAnswer Port where
  start := {}
  step := advance
  permits := Permitted message

theorem steps_orIo {α : Type} {message : Message} {s : Port} {P : Port → Except Error α → Prop}
    {p : Wire (Except String α)}
    (hp : (wireMonitor message).Steps (fun s r => P s (r.mapError .io)) p s) :
    (wireMonitor message).Steps P (orIo p).run s := by
  rw [orIo, ExceptT.run_mk]
  exact hp.bind fun s r hr => hr

structure Reading (s : Port) (rxCtx : Mctp.Context) : Prop where
  locked : s.locked = true
  flushed : s.flushed = true
  assembled : assemble s.frames = some rxCtx

def PacketRead (frames : List Bytes) (s : Port) (r : Except Error Bytes) : Prop :=
  s.locked = true ∧ s.flushed = true ∧
    ((∃ packet, r = .ok packet ∧ cut serialEndFlag s.received = (frames ++ [packet], [])) ∨
      Failed r)

theorem steps_readFramedPacket {message : Message} {rxCtx : Mctp.Context} {frames : List Bytes} :
    ∀ (space : ℕ) (filled : Bytes) {s : Port}, Reading s rxCtx →
      cut serialEndFlag s.received = (frames, filled) → filled.length + space = bufferSz →
        (wireMonitor message).Steps (PacketRead frames) (readFramedPacket space filled).run s := by
  intro space
  induction space with
  | zero =>
    intro filled s hs _ _
    exact ⟨hs.locked, hs.flushed, .inr (.protocol _)⟩
  | succ space ih =>
    intro filled s hs hcut hspace
    have hframes : s.frames = frames := congrArg Prod.fst hcut
    have hfilled : s.filled = filled := congrArg Prod.snd hcut
    rw [readFramedPacket]
    refine Monitor.Steps.except_bind (P := fun s' r => s'.locked = true ∧ s'.flushed = true ∧
      match r with
      | .ok byte => s'.received = s.received ++ [byte]
      | .error e => ∃ text, e = .io text) (steps_orIo ⟨?_, ?_⟩) ?_ ?_
    · refine ⟨hs.locked, hs.flushed, ?_, ?_⟩
      · rw [hfilled]
        omega
      · rw [hs.assembled]
        rfl
    · intro r _
      cases r with
      | error text => exact ⟨hs.locked, hs.flushed, text, rfl⟩
      | ok byte => exact ⟨hs.locked, hs.flushed, rfl⟩
    · rintro s' byte ⟨hlocked, hflushed, hreceived⟩
      by_cases hstop : byte = serialEndFlag
      · rw [if_pos hstop]
        refine ⟨hlocked, hflushed, .inl ⟨_, rfl, ?_⟩⟩
        rw [hreceived, hstop, cut_snoc_stop, hcut]
      · rw [if_neg hstop]
        have hcut' : cut serialEndFlag s'.received = (frames, filled ++ [byte]) := by
          rw [hreceived, cut_snoc_of_ne hstop, hcut]
        refine ih (filled ++ [byte]) ⟨hlocked, hflushed, ?_⟩ hcut' ?_
        · rw [Port.frames, hcut', ← hframes]
          exact hs.assembled
        · rw [List.length_append, List.length_singleton]
          omega
    · rintro s' e ⟨hlocked, hflushed, text, rfl⟩
      exact ⟨hlocked, hflushed, .inr (.io text)⟩

theorem steps_writePackets {message : Message} {packets : List (Except String Bytes)}
    (hpackets : Mctp.serializePacket message = .ok packets) :
    ∀ (rest : List (Except String Bytes)) {s : Port}, s.locked = true → s.cleared = true →
      s.flushed = false → s.received = [] → s.written.map .ok ++ rest = packets →
      (wireMonitor message).Steps (fun s' r => s'.locked = true ∧ s'.cleared = true ∧
        s'.flushed = false ∧ s'.received = [] ∧
        (r = .ok () ∧ s'.written.map .ok = packets ∨ Failed r)) (writePackets rest).run s := by
  intro rest
  induction rest with
  | nil =>
    intro s hlocked hcleared hflushed hreceived hwritten
    rw [List.append_nil] at hwritten
    exact ⟨hlocked, hcleared, hflushed, hreceived, .inl ⟨rfl, hwritten⟩⟩
  | cons packet rest ih =>
    intro s hlocked hcleared hflushed hreceived hwritten
    cases packet with
    | error e => exact ⟨hlocked, hcleared, hflushed, hreceived, .inr (.serialization e)⟩
    | ok packet =>
      have hnext : (s.written ++ [packet]).map .ok ++ rest = packets := by
        rw [List.map_append, List.append_assoc]
        exact hwritten
      refine Monitor.Steps.except_bind (P := fun s' r =>
        match r with
        | .ok _ => s' = { s with written := s.written ++ [packet] }
        | .error e => s' = s ∧ ∃ text, e = .io text) (steps_orIo ⟨?_, ?_⟩) ?_ ?_
      · refine ⟨hlocked, hcleared, ?_, packets, hpackets, rest, hnext⟩
        simp [hflushed]
      · intro r _
        cases r with
        | error text => exact ⟨rfl, text, rfl⟩
        | ok _ => rfl
      · rintro s' _ rfl
        exact ih hlocked hcleared hflushed hreceived hnext
      · rintro s' e ⟨rfl, text, rfl⟩
        exact ⟨hlocked, hcleared, hflushed, hreceived, .inr (.io text)⟩

variable {Resp : Type} {deserialize : Destination → UInt16 → Bytes → Except String Resp}

def Replied (deserialize : Destination → UInt16 → Bytes → Except String Resp) (dst : Destination)
    (s : Port) (r : Except Error Resp) : Prop :=
  ∃ packets message, cut serialEndFlag s.received = (packets, []) ∧ Completes packets message ∧
    handleReply deserialize dst message = r

def Answered (deserialize : Destination → UInt16 → Bytes → Except String Resp) (dst : Destination)
    (s : Port) (r : Except Error Resp) : Prop :=
  s.locked = true ∧ (s.flushed = true ∧ Replied deserialize dst s r ∨ Failed r)

theorem assemble_snoc {packets : List Bytes} {packet : Bytes} {rxCtx rxCtx' : Mctp.Context}
    (h : assemble packets = some rxCtx)
    (hpacket : Mctp.deserializePacket rxCtx packet = .ok (rxCtx', none)) :
    assemble (packets ++ [packet]) = some rxCtx' := by
  rw [assemble, List.foldlM_append, ← assemble, h]
  change (absorb rxCtx packet >>= fun rxCtx => some rxCtx) = some rxCtx'
  rw [absorb, hpacket]
  rfl

theorem steps_receive {message : Message} (dst : Destination) (fuel : ℕ) :
    ∀ {rxCtx : Mctp.Context} {s : Port}, Reading s rxCtx → s.filled = [] →
      (wireMonitor message).Steps (Answered deserialize dst)
        (receive deserialize dst fuel rxCtx).run s := by
  induction fuel with
  | zero => exact fun _ _ => trivial
  | succ fuel ih =>
    intro rxCtx s hs hfilled
    have hcut : cut serialEndFlag s.received = (s.frames, []) := Prod.ext rfl hfilled
    rw [receive]
    refine Monitor.Steps.except_bind
      (steps_readFramedPacket bufferSz [] hs hcut (Nat.zero_add _)) ?_ ?_
    · rintro s' packet ⟨hlocked, hflushed, ⟨packet', ⟨⟩, hcut'⟩ | ⟨⟨⟩⟩⟩
      cases hpacket : Mctp.deserializePacket rxCtx packet with
      | error e => exact ⟨hlocked, .inr (.protocol e)⟩
      | ok next =>
        obtain ⟨rxCtx', message' | message'⟩ := next
        · refine ih ⟨hlocked, hflushed, ?_⟩ (congrArg Prod.snd hcut')
          rw [Port.frames, hcut']
          exact assemble_snoc hs.assembled hpacket
        · exact ⟨hlocked, .inl ⟨hflushed, _, message', hcut',
            ⟨_, _, _, _, rfl, hs.assembled, hpacket⟩, rfl⟩⟩
    · rintro s' e ⟨hlocked, hflushed, ⟨packet, ⟨⟩, -⟩ | hfailed⟩
      exact ⟨hlocked, .inr hfailed.error⟩

theorem steps_exchange {request : Request} (fuel : ℕ) {s : Port} (hs : s = { locked := true }) :
    (wireMonitor ⟨odpMessageType, request.message⟩).Steps (Answered deserialize request.dst)
      (exchange deserialize request fuel).run s := by
  subst hs
  rw [exchange]
  refine Monitor.Steps.except_bind (P := fun s r =>
    match r with
    | .ok _ => s = { locked := true, cleared := true }
    | .error e => s = { locked := true } ∧ ∃ text, e = .io text) (steps_orIo ⟨rfl, ?_⟩) ?_ ?_
  · intro r _
    cases r with
    | error text => exact ⟨rfl, text, rfl⟩
    | ok _ => rfl
  · rintro s _ rfl
    refine Monitor.Steps.except_bind (P := fun s r => s.locked = true ∧ s.cleared = true ∧
      s.flushed = false ∧ s.received = [] ∧
      (r = .ok () ∧ Mctp.serializePacket ⟨odpMessageType, request.message⟩ =
        .ok (s.written.map .ok) ∨ Failed r)) ?_ ?_ ?_
    · rw [transmit]
      cases hpackets : Mctp.serializePacket ⟨odpMessageType, request.message⟩ with
      | error e => exact ⟨rfl, rfl, rfl, rfl, .inr (.serialization e)⟩
      | ok packets =>
        apply (steps_writePackets hpackets packets rfl rfl rfl rfl (List.nil_append _)).mono
        rintro s r ⟨hlocked, hcleared, hflushed, hreceived, ⟨rfl, hwritten⟩ | hfailed⟩
        · exact ⟨hlocked, hcleared, hflushed, hreceived, .inl ⟨rfl, by rw [hwritten]⟩⟩
        · exact ⟨hlocked, hcleared, hflushed, hreceived, .inr hfailed⟩
    · rintro s _ ⟨hlocked, hcleared, hflushed, hreceived, ⟨-, hwritten⟩ | ⟨⟨⟩⟩⟩
      refine Monitor.Steps.except_bind (P := fun s' r =>
        match r with
        | .ok _ => s' = { s with flushed := true }
        | .error e => s' = s ∧ ∃ text, e = .io text) (steps_orIo ⟨?_, ?_⟩) ?_ ?_
      · exact ⟨hlocked, hcleared, by simp [hflushed], hwritten⟩
      · intro r _
        cases r with
        | error text => exact ⟨rfl, text, rfl⟩
        | ok _ => rfl
      · rintro s' _ rfl
        have hcut : cut serialEndFlag s.received = ([], []) := by rw [hreceived]; rfl
        refine steps_receive request.dst fuel ⟨hlocked, rfl, ?_⟩ (congrArg Prod.snd hcut)
        change assemble (cut serialEndFlag s.received).1 = some Mctp.fresh
        rw [hcut]
        rfl
      · rintro s' e ⟨rfl, text, rfl⟩
        exact ⟨hlocked, .inr (.io text)⟩
    · rintro s e ⟨hlocked, -, -, -, ⟨⟨⟩, -⟩ | hfailed⟩
      exact ⟨hlocked, .inr hfailed.error⟩
  · rintro s e ⟨rfl, text, rfl⟩
    exact ⟨rfl, .inr (.io text)⟩

structure Returned (deserialize : Destination → UInt16 → Bytes → Except String Resp)
    (dst : Destination) (s : Port) (r : Except Error Resp) : Prop where
  unlocked : s.locked = false
  result : s.flushed = true ∧ Replied deserialize dst s r ∨ Failed r

theorem steps_send (dst : Destination) (discriminant : UInt16) (body : Bytes) (fuel : ℕ) :
    (wireMonitor ⟨odpMessageType, Request.message ⟨dst, discriminant, body⟩⟩).Steps
      (Returned deserialize dst) (send deserialize dst discriminant (.ok body) fuel) {} := by
  refine Monitor.Steps.call_bind (M := wireMonitor _) (c := .lock) rfl fun locked _ => ?_
  cases locked with
  | false => exact ⟨rfl, .inr (.io _)⟩
  | true =>
    have hexchange := @steps_exchange _ _ deserialize ⟨dst, discriminant, body⟩ fuel _ rfl
    apply hexchange.bind
    rintro s r ⟨hlocked, hresult⟩
    refine Monitor.Steps.call_bind (M := wireMonitor _) (c := .unlock) hlocked fun _ _ => ?_
    exact ⟨rfl, hresult⟩

end Monitored

end EcSerialWire
