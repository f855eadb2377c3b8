import OdpPlatform.EcSerialWire

/-! # serial.rs: replies in a stream of bytes

What `send` makes of whatever bytes arrive, and that calls which find whole replies are the calls
of the link. -/
namespace EcSerialStream

open ByteBuffer DelimitedFrames InteractionProgram InteractionContract InteractionMonitor EcSerial
open EcSerialWire
open EcSerialLink (Link finish)

def readsOf (h : Trace PortAnswer) : ℕ := h.countP fun e => decide (e.call = .readExact)

def timedOut : String := "Operation timed out"

/-- A port on which every call succeeds and the stream arrives, with nothing behind it. -/
structure Feeds (env : Environment PortAnswer) (stream : Bytes) : Prop where
  lock : ∀ h, env h .lock = some true
  unlock : ∀ h, env h .unlock = some ()
  clearInput : ∀ h, env h .clearInput = some (.ok ())
  writeAll : ∀ h packet, env h (.writeAll packet) = some (.ok ())
  flush : ∀ h, env h .flush = some (.ok ())
  readExact : ∀ h, env h .readExact =
    some ((stream[readsOf h]?).elim (.error timedOut) .ok)

variable {env : Environment PortAnswer} {h : Trace PortAnswer}

theorem run_askPort {c : PortCall} {r : PortAnswer c} (hr : env h c = some r) :
    (askPort c).run env h = (h ++ [⟨c, some r⟩], some r) :=
  Program.run_ask_some env h _ hr

theorem run_orIo_ok {α β : Type} {p : Wire (Except String α)} {h' : Trace PortAnswer} {a : α}
    (hp : p.run env h = (h', some (.ok a))) (k : α → WireE β) :
    Program.run env (orIo p >>= k).run h = Program.run env (k a).run h' := by
  have hio : Program.run env (orIo p).run h = (h', some (.ok a)) := by
    rw [orIo, ExceptT.run_mk, Program.run_bind_some env h hp]
    rfl
  rw [ExceptT.run_bind, Program.run_bind_some env h hio]

theorem run_orIo_error {α β : Type} {p : Wire (Except String α)} {h' : Trace PortAnswer}
    {text : String} (hp : p.run env h = (h', some (.error text))) (k : α → WireE β) :
    Program.run env (orIo p >>= k).run h = (h', some (.error (.io text))) := by
  have hio : Program.run env (orIo p).run h = (h', some (.error (.io text))) := by
    rw [orIo, ExceptT.run_mk, Program.run_bind_some env h hp]
    rfl
  rw [ExceptT.run_bind, Program.run_bind_some env h hio]
  rfl

theorem readsOf_snoc (h : Trace PortAnswer) (e : Event PortAnswer) :
    readsOf (h ++ [e]) = readsOf h + if e.call = .readExact then 1 else 0 := by
  rw [readsOf, List.countP_append, List.countP_singleton]
  simp [readsOf]

variable {stream : Bytes}

theorem run_readExact {byte : UInt8} {rest : Bytes} (hfeeds : Feeds env stream)
    (hleft : stream.drop (readsOf h) = byte :: rest) :
    ∃ h', (askPort .readExact).run env h = (h', some (.ok byte)) ∧
      stream.drop (readsOf h') = rest := by
  have hbyte : stream[readsOf h]? = some byte := by
    rw [← List.head?_drop, hleft]
    rfl
  refine ⟨h ++ [⟨.readExact, some (.ok byte)⟩], run_askPort ?_, ?_⟩
  · rw [hfeeds.readExact, hbyte]
    rfl
  · rw [readsOf_snoc, if_pos rfl, ← List.drop_drop, hleft, List.drop_one, List.tail_cons]

/-- Bytes that end no packet are taken one by one. -/
theorem run_readFramedPacket_part (hfeeds : Feeds env stream) {rest : Bytes} (part : Bytes) :
    ∀ (space : ℕ) (filled : Bytes) {h : Trace PortAnswer}, serialEndFlag ∉ part →
      stream.drop (readsOf h) = part ++ rest →
        ∃ h', Program.run env (readFramedPacket (part.length + space) filled).run h =
            Program.run env (readFramedPacket space (filled ++ part)).run h' ∧
          stream.drop (readsOf h') = rest := by
  induction part with
  | nil =>
    intro space filled h _ hleft
    refine ⟨h, ?_, hleft⟩
    rw [List.length_nil, Nat.zero_add, List.append_nil]
  | cons byte part ih =>
    intro space filled h hstop hleft
    obtain ⟨hbyte, hpart⟩ := not_or.mp fun h => hstop (List.mem_cons.mpr h)
    obtain ⟨h₁, hrun, hleft₁⟩ := run_readExact hfeeds hleft
    obtain ⟨h', hrest, hleft'⟩ := ih space (filled ++ [byte]) hpart hleft₁
    refine ⟨h', ?_, hleft'⟩
    rw [List.length_cons, Nat.add_right_comm, readFramedPacket, run_orIo_ok hrun,
      if_neg (Ne.symm hbyte), hrest, List.append_assoc]
    rfl

/-- The three ways to read a packet: to its end, past the buffer, or until nothing arrives. -/
theorem run_packet (hfeeds : Feeds env stream) {packet rest : Bytes}
    (hpacket : IsFrame serialEndFlag packet) (hfits : packet.length ≤ bufferSz)
    (hleft : stream.drop (readsOf h) = packet ++ rest) :
    ∃ h', Program.run env (readFramedPacket bufferSz []).run h = (h', some (.ok packet)) ∧
      stream.drop (readsOf h') = rest := by
  obtain ⟨body, rfl, hbody⟩ := hpacket
  rw [List.length_append, List.length_singleton] at hfits
  rw [List.append_assoc] at hleft
  obtain ⟨h₁, hrun, hleft₁⟩ := run_readFramedPacket_part hfeeds body
    (bufferSz - body.length - 1 + 1) [] hbody hleft
  obtain ⟨h', hread, hleft'⟩ := run_readExact hfeeds hleft₁
  refine ⟨h', ?_, hleft'⟩
  have hspace : body.length + (bufferSz - body.length - 1 + 1) = bufferSz := by omega
  rw [hspace] at hrun
  rw [hrun, readFramedPacket, run_orIo_ok hread, if_pos rfl]
  rfl

theorem run_overflow (hfeeds : Feeds env stream) {bytes : Bytes}
    (hbytes : serialEndFlag ∉ bytes.take bufferSz) (hlong : bufferSz ≤ bytes.length)
    (hleft : stream.drop (readsOf h) = bytes) :
    ∃ h', Program.run env (readFramedPacket bufferSz []).run h =
        (h', some (.error (.protocol "framed packet exceeds buffer"))) ∧
      stream.drop (readsOf h') = bytes.drop bufferSz := by
  have hsplit : stream.drop (readsOf h) = bytes.take bufferSz ++ bytes.drop bufferSz := by
    rw [List.take_append_drop, hleft]
  obtain ⟨h', hrun, hleft'⟩ := run_readFramedPacket_part hfeeds (bytes.take bufferSz)
    0 [] hbytes hsplit
  refine ⟨h', ?_, hleft'⟩
  rw [List.length_take, Nat.min_eq_left hlong, Nat.add_zero] at hrun
  rw [hrun]
  rfl

theorem run_silence (hfeeds : Feeds env stream) {part : Bytes} (hpart : serialEndFlag ∉ part)
    (hshort : part.length < bufferSz) (hleft : stream.drop (readsOf h) = part) :
    ∃ h', Program.run env (readFramedPacket bufferSz []).run h =
        (h', some (.error (.io timedOut))) ∧ stream.drop (readsOf h') = [] := by
  rw [← List.append_nil part] at hleft
  obtain ⟨h₁, hrun, hleft₁⟩ := run_readFramedPacket_part hfeeds part
    (bufferSz - part.length - 1 + 1) [] hpart hleft
  have hover : stream.length ≤ readsOf h₁ := List.drop_eq_nil_iff.mp hleft₁
  have hread : (askPort .readExact).run env h₁ =
      (h₁ ++ [⟨.readExact, some (.error timedOut)⟩], some (.error timedOut)) := by
    apply run_askPort
    rw [hfeeds.readExact, List.getElem?_eq_none hover]
    rfl
  refine ⟨h₁ ++ [⟨.readExact, some (.error timedOut)⟩], ?_, ?_⟩
  · have hspace : part.length + (bufferSz - part.length - 1 + 1) = bufferSz := by omega
    rw [hspace] at hrun
    rw [hrun, readFramedPacket, run_orIo_error hread]
  · rw [readsOf_snoc, List.drop_eq_nil_iff]
    omega

theorem run_writePackets (hfeeds : Feeds env stream) (packets : List Bytes) :
    ∀ {h : Trace PortAnswer}, ∃ h',
      Program.run env (writePackets (packets.map .ok)).run h = (h', some (.ok ())) ∧
        readsOf h' = readsOf h := by
  induction packets with
  | nil => exact fun {h} => ⟨h, rfl, rfl⟩
  | cons packet packets ih =>
    intro h
    obtain ⟨h', hrun, hreads⟩ := ih (h := h ++ [⟨.writeAll packet, some (.ok ())⟩])
    refine ⟨h', ?_, hreads.trans ?_⟩
    · rw [List.map_cons, writePackets, run_orIo_ok (run_askPort (hfeeds.writeAll h packet)), hrun]
    · rw [readsOf_snoc, if_neg (by simp), Nat.add_zero]

section Receiving

variable [Mctp] {Resp : Type} {deserialize : Destination → UInt16 → Bytes → Except String Resp}

/-- The result of reading a stream that was cut, and the bytes left unread. -/
def outcome (deserialize : Destination → UInt16 → Bytes → Except String Resp) (dst : Destination) :
    Mctp.Context → List Bytes → Bytes → Except Error Resp × Bytes
  | _, [], part =>
    if part.length < bufferSz then (.error (.io timedOut), [])
    else (.error (.protocol "framed packet exceeds buffer"), part.drop bufferSz)
  | rxCtx, packet :: packets, part =>
    if bufferSz < packet.length then
      (.error (.protocol "framed packet exceeds buffer"),
        packet.drop bufferSz ++ (packets.flatten ++ part))
    else
      match Mctp.deserializePacket rxCtx packet with
      | .error e => (.error (.protocol e), packets.flatten ++ part)
      | .ok (rxCtx, none) => outcome deserialize dst rxCtx packets part
      | .ok (_, some message) => (handleReply deserialize dst message, packets.flatten ++ part)

theorem run_receive (hfeeds : Feeds env stream) (dst : Destination) (packets : List Bytes)
    {part : Bytes} (hpart : serialEndFlag ∉ part) :
    ∀ {fuel : ℕ} {rxCtx : Mctp.Context} {h : Trace PortAnswer}, packets.length < fuel →
      (∀ packet ∈ packets, IsFrame serialEndFlag packet) →
      stream.drop (readsOf h) = packets.flatten ++ part →
        ∃ h', Program.run env (receive deserialize dst fuel rxCtx).run h =
            (h', some (outcome deserialize dst rxCtx packets part).1) ∧
          stream.drop (readsOf h') = (outcome deserialize dst rxCtx packets part).2 := by
  induction packets with
  | nil =>
    intro fuel rxCtx h hfuel _ hleft
    rw [List.flatten_nil, List.nil_append] at hleft
    obtain ⟨fuel, rfl⟩ := Nat.exists_eq_succ_of_ne_zero hfuel.ne_bot
    rw [receive, ExceptT.run_bind, outcome]
    by_cases hshort : part.length < bufferSz
    · obtain ⟨h', hrun, hleft'⟩ := run_silence hfeeds hpart hshort hleft
      rw [if_pos hshort, Program.run_bind_some _ _ hrun]
      exact ⟨h', rfl, hleft'⟩
    · have hstop : serialEndFlag ∉ part.take bufferSz := fun hmem =>
        hpart (List.mem_of_mem_take hmem)
      obtain ⟨h', hrun, hleft'⟩ := run_overflow hfeeds hstop (Nat.le_of_not_lt hshort) hleft
      rw [if_neg hshort, Program.run_bind_some _ _ hrun]
      exact ⟨h', rfl, hleft'⟩
  | cons packet packets ih =>
    intro fuel rxCtx h hfuel hframes hleft
    obtain ⟨fuel, rfl⟩ := Nat.exists_eq_succ_of_ne_zero (Nat.ne_zero_of_lt hfuel)
    rw [List.flatten_cons, List.append_assoc] at hleft
    have hframe := hframes packet List.mem_cons_self
    rw [receive, ExceptT.run_bind, outcome]
    by_cases hlong : bufferSz < packet.length
    · obtain ⟨body, hbody, hstop⟩ := hframe
      have hlength : bufferSz ≤ body.length := by
        rw [hbody, List.length_append, List.length_singleton] at hlong
        exact Nat.lt_succ_iff.mp hlong
      have htake : (packet ++ (packets.flatten ++ part)).take bufferSz = body.take bufferSz := by
        rw [hbody, List.append_assoc, List.take_append_of_le_length hlength]
      have hdrop : (packet ++ (packets.flatten ++ part)).drop bufferSz =
          packet.drop bufferSz ++ (packets.flatten ++ part) :=
        List.drop_append_of_le_length hlong.le
      obtain ⟨h', hrun, hleft'⟩ := run_overflow hfeeds
        (by rw [htake]; exact fun hmem => hstop (List.mem_of_mem_take hmem))
        (by rw [List.length_append]; omega) hleft
      rw [if_pos hlong, Program.run_bind_some _ _ hrun]
      exact ⟨h', rfl, hleft'.trans hdrop⟩
    · obtain ⟨h', hrun, hleft'⟩ := run_packet hfeeds hframe (Nat.le_of_not_lt hlong) hleft
      rw [if_neg hlong, Program.run_bind_some _ _ hrun]
      dsimp only
      cases hpacket : Mctp.deserializePacket rxCtx packet with
      | error e => exact ⟨h', rfl, hleft'⟩
      | ok next =>
        obtain ⟨rxCtx', message | message⟩ := next
        · exact ih (Nat.lt_of_succ_lt_succ hfuel)
            (fun p hp => hframes p (List.mem_cons_of_mem packet hp)) hleft'
        · exact ⟨h', rfl, hleft'⟩

/-- On a port that works, the result is that of the stream. -/
theorem run_send (hfeeds : Feeds env stream) (dst : Destination) (discriminant : UInt16)
    {body : Bytes} {packets : List Bytes} {fuel : ℕ}
    (hpackets : Mctp.serializePacket
      ⟨odpMessageType, Request.message ⟨dst, discriminant, body⟩⟩ = .ok (packets.map .ok))
    (hfuel : (cut serialEndFlag stream).1.length < fuel) :
    ∃ h', (send deserialize dst discriminant (.ok body) fuel).run env [] = (h',
        some (outcome deserialize dst Mctp.fresh (cut serialEndFlag stream).1
          (cut serialEndFlag stream).2).1) ∧
      stream.drop (readsOf h') = (outcome deserialize dst Mctp.fresh (cut serialEndFlag stream).1
        (cut serialEndFlag stream).2).2 := by
  obtain ⟨hframes, hpart⟩ := @cut_isFrame UInt8 _ serialEndFlag stream
  have hlock := run_askPort (hfeeds.lock [])
  have hclear := run_askPort (hfeeds.clearInput [⟨.lock, some true⟩])
  obtain ⟨h₁, hwrite, hreads⟩ := run_writePackets hfeeds packets
    (h := [⟨.lock, some true⟩] ++ [⟨.clearInput, some (.ok ())⟩])
  have hflush := run_askPort (hfeeds.flush h₁)
  have hleft : stream.drop (readsOf (h₁ ++ [⟨.flush, some (.ok ())⟩])) =
      (cut serialEndFlag stream).1.flatten ++ (cut serialEndFlag stream).2 := by
    rw [readsOf_snoc, if_neg (by simp), Nat.add_zero, hreads, flatten_cut]
    rfl
  obtain ⟨h₂, hreceive, hleft₂⟩ := @run_receive _ _ _ _ deserialize hfeeds dst
    (cut serialEndFlag stream).1 _ hpart _ _ _ hfuel hframes hleft
  have hexchange : Program.run env
      (exchange deserialize ⟨dst, discriminant, body⟩ fuel).run [⟨.lock, some true⟩] =
        (h₂, some (outcome deserialize dst Mctp.fresh (cut serialEndFlag stream).1
          (cut serialEndFlag stream).2).1) := by
    rw [exchange, run_orIo_ok hclear, ExceptT.run_bind, transmit, hpackets]
    rw [Program.run_bind_some _ _ hwrite, run_orIo_ok hflush]
    exact hreceive
  refine ⟨h₂ ++ [⟨.unlock, some ()⟩], ?_, ?_⟩
  · rw [send, Program.run_bind_some _ _ hlock, List.nil_append]
    change (Program.run env ((exchange deserialize ⟨dst, discriminant, body⟩ fuel).run >>= fun r =>
      askPort .unlock >>= fun _ => pure r) _) = _
    rw [Program.run_bind_some _ _ hexchange,
      Program.run_bind_some _ _ (run_askPort (hfeeds.unlock h₂))]
    rfl
  · rw [readsOf_snoc, if_neg (by simp), Nat.add_zero]
    exact hleft₂

/-- The messages stand in the stream one after the other, each in packets of its own. -/
inductive Carries : List Message → Bytes → Prop where
  | nil : Carries [] []
  | cons {message : Message} {messages : List Message} {packets : List Bytes} {rest : Bytes} :
      (∀ packet ∈ packets, IsFrame serialEndFlag packet ∧ packet.length ≤ bufferSz) →
      Completes packets message → Carries messages rest →
      Carries (message :: messages) (packets.flatten ++ rest)

theorem outcome_message (dst : Destination) {last : Bytes} {message : Message}
    {rxCtx' rxCtx'' : Mctp.Context} (more : List Bytes) (part : Bytes)
    (hfits : last.length ≤ bufferSz)
    (hlast : Mctp.deserializePacket rxCtx' last = .ok (rxCtx'', some message))
    (first : List Bytes) : ∀ {rxCtx : Mctp.Context}, (∀ p ∈ first, p.length ≤ bufferSz) →
      first.foldlM absorb rxCtx = some rxCtx' →
        outcome deserialize dst rxCtx (first ++ last :: more) part =
          (handleReply deserialize dst message, more.flatten ++ part) := by
  induction first with
  | nil =>
    rintro rxCtx - ⟨⟩
    rw [List.nil_append, outcome, if_neg (Nat.not_lt.mpr hfits), hlast]
  | cons packet first ih =>
    intro rxCtx hfirst hassemble
    rw [List.foldlM_cons] at hassemble
    obtain ⟨next, hnext, hrest⟩ := Option.bind_eq_some_iff.mp hassemble
    have hpacket : Mctp.deserializePacket rxCtx packet = .ok (next, none) := by
      rw [absorb] at hnext
      split at hnext
      · rename_i hpacket
        rw [hpacket, Option.some.inj hnext]
      · cases hnext
    rw [List.cons_append, outcome, if_neg (Nat.not_lt.mpr (hfirst packet List.mem_cons_self)),
      hpacket]
    exact ih (fun p hp => hfirst p (List.mem_cons_of_mem packet hp)) hrest

theorem outcome_carries (dst : Destination) {message : Message} {messages : List Message}
    (h : Carries (message :: messages) stream) : ∃ rest, Carries messages rest ∧
      outcome deserialize dst Mctp.fresh (cut serialEndFlag stream).1
        (cut serialEndFlag stream).2 = (handleReply deserialize dst message, rest) := by
  cases h with
  | @cons _ _ packets rest hpackets hcompletes hrest =>
    refine ⟨rest, hrest, ?_⟩
    obtain ⟨first, last, rxCtx, rxCtx', rfl, hfirst, hlast⟩ := hcompletes
    rw [cut_frames_append fun p hp => (hpackets p hp).1, List.append_assoc, List.singleton_append,
      outcome_message dst _ _ (hpackets last (by simp)).2 hlast first
        (fun p hp => (hpackets p (List.mem_append_left _ hp)).2) hfirst, flatten_cut]

structure SendsOnWire (deserialize : Destination → UInt16 → Bytes → Except String Resp)
    (request : Request) (fuel : ℕ) : Prop where
  guarded : ∀ env : Environment PortAnswer,
    let h := ((send deserialize request.dst request.discriminant (.ok request.body) fuel).run
      env []).1
    Guarded (fun h c => Permitted ⟨odpMessageType, request.message⟩ (h.foldl advance {}) c) h
  returned : ∀ (env : Environment PortAnswer) (h : Trace PortAnswer) (r : Except Error Resp),
    (send deserialize request.dst request.discriminant (.ok request.body) fuel).run env [] =
      (h, some r) → Returned deserialize request.dst (h.foldl advance {}) r
  decoded : ∀ (env : Environment PortAnswer) (stream : Bytes) (packets : List Bytes),
    Feeds env stream →
    Mctp.serializePacket ⟨odpMessageType, request.message⟩ = .ok (packets.map .ok) →
    (cut serialEndFlag stream).1.length < fuel →
      ∃ h, (send deserialize request.dst request.discriminant (.ok request.body) fuel).run env [] =
          (h, some (outcome deserialize request.dst Mctp.fresh (cut serialEndFlag stream).1
            (cut serialEndFlag stream).2).1) ∧
        stream.drop (readsOf h) = (outcome deserialize request.dst Mctp.fresh
          (cut serialEndFlag stream).1 (cut serialEndFlag stream).2).2
  link : ∀ (env : Environment PortAnswer) (stream : Bytes) (packets : List Bytes) (s : Link Resp)
    (number : ℕ) (outstanding : List ℕ), Feeds env stream →
    Mctp.serializePacket ⟨odpMessageType, request.message⟩ = .ok (packets.map .ok) →
    (cut serialEndFlag stream).1.length < fuel →
    s.port = .reading request number outstanding → Carries (s.input.map Prod.snd) stream →
      ∃ h s' call, EcSerialLink.Step deserialize s s' ∧ s'.log = call :: s.log ∧
        call.number = number ∧
        (send deserialize request.dst request.discriminant (.ok request.body) fuel).run env [] =
          (h, some call.result) ∧
        Carries (s'.input.map Prod.snd) (stream.drop (readsOf h))

theorem send_link {request : Request} {packets : List Bytes} {fuel : ℕ} {s : Link Resp}
    {number : ℕ} {outstanding : List ℕ} (hfeeds : Feeds env stream)
    (hpackets : Mctp.serializePacket ⟨odpMessageType, request.message⟩ = .ok (packets.map .ok))
    (hfuel : (cut serialEndFlag stream).1.length < fuel)
    (hport : s.port = .reading request number outstanding)
    (hinput : Carries (s.input.map Prod.snd) stream) :
    ∃ h s' call, EcSerialLink.Step deserialize s s' ∧ s'.log = call :: s.log ∧
      call.number = number ∧
      (send deserialize request.dst request.discriminant (.ok request.body) fuel).run env [] =
        (h, some call.result) ∧
      Carries (s'.input.map Prod.snd) (stream.drop (readsOf h)) := by
  obtain ⟨h, hrun, hleft⟩ := @run_send _ _ _ _ deserialize hfeeds request.dst
    request.discriminant _ _ _ hpackets hfuel
  cases hs : s.input with
  | nil =>
    rw [hs] at hinput
    cases hinput
    refine ⟨h, _, _, .timeout hport hs, rfl, rfl, hrun, ?_⟩
    rw [hleft]
    change Carries (s.input.map Prod.snd) []
    rw [hs]
    exact .nil
  | cons reply rest =>
    obtain ⟨source, message⟩ := reply
    rw [hs, List.map_cons] at hinput
    obtain ⟨unread, hunread, houtcome⟩ := @outcome_carries _ _ _ deserialize request.dst _ _
      hinput
    rw [houtcome] at hrun hleft
    refine ⟨h, _, _, .read hport hs, rfl, rfl, hrun, ?_⟩
    rw [hleft]
    exact hunread

theorem send_wire (deserialize : Destination → UInt16 → Bytes → Except String Resp)
    (request : Request) (fuel : ℕ) : SendsOnWire deserialize request fuel where
  guarded env :=
    (steps_send request.dst request.discriminant request.body fuel).guarded
      (fun _ _ _ => trivial) env
  returned env h r hrun := by
    have hsteps := @steps_send _ _ deserialize request.dst request.discriminant request.body fuel
    have hreturned := hsteps.returns (fun _ _ _ => trivial) (congrArg Prod.snd hrun)
    rw [hrun] at hreturned
    exact hreturned
  decoded _ _ _ hfeeds hpackets hfuel :=
    run_send hfeeds request.dst request.discriminant hpackets hfuel
  link _ _ _ _ _ _ hfeeds hpackets hfuel hport hinput :=
    send_link hfeeds hpackets hfuel hport hinput

end Receiving

@[reducible] def onePacket : Mctp where
  Context := Unit
  fresh := ()
  serializePacket message := .ok [.ok (message.messageType :: (message.body ++ [serialEndFlag]))]
  deserializePacket _ packet := .ok ((), some ⟨packet.headD 0, packet.tail.dropLast⟩)

def feeder (stream : Bytes) : Environment PortAnswer := fun h c =>
  match c with
  | .lock => some true
  | .unlock => some ()
  | .clearInput | .writeAll _ | .flush => some (.ok ())
  | .readExact => some ((stream[readsOf h]?).elim (.error timedOut) .ok)

theorem feeds_feeder (stream : Bytes) : Feeds (feeder stream) stream :=
  ⟨fun _ => rfl, fun _ => rfl, fun _ => rfl, fun _ _ => rfl, fun _ => rfl, fun _ => rfl⟩

def timerReply (seconds : UInt32) : Bytes :=
  0x7D :: ((EcSerialLink.timerSeconds seconds).body ++ [serialEndFlag])

def twoReplies : Link Bytes where
  input := [(3, EcSerialLink.timerSeconds 60), (4, EcSerialLink.timerSeconds 5)]
  port := .reading (EcSerialLink.getTimerValue 0) 3 []

theorem carries_twoReplies :
    @Carries onePacket (twoReplies.input.map Prod.snd) (timerReply 60 ++ timerReply 5) := by
  let := onePacket
  have hpacket (seconds : UInt32) (hstop : serialEndFlag ∉ (timerReply seconds).dropLast) :
      ∀ packet ∈ [timerReply seconds],
        IsFrame serialEndFlag packet ∧ packet.length ≤ bufferSz := by
    intro packet hmem
    rw [List.mem_singleton.mp hmem]
    exact ⟨⟨(timerReply seconds).dropLast, rfl, hstop⟩, Nat.le_of_ble_eq_true rfl⟩
  have hcompletes (seconds : UInt32) :
      Completes [timerReply seconds] (EcSerialLink.timerSeconds seconds) :=
    ⟨[], timerReply seconds, (), (), rfl, rfl, rfl⟩
  have hlast : Carries (twoReplies.input.tail.map Prod.snd) (timerReply 5) :=
    .cons (hpacket 5 (by decide)) (hcompletes 5) .nil
  exact .cons (hpacket 60 (by decide)) (hcompletes 60) hlast

/-- The first of two replies is returned, the second stays for the next call. -/
theorem send_wire_twoReplies : ∃ h s' call,
    EcSerialLink.Step EcSerialLink.payload twoReplies s' ∧ s'.log = [call] ∧ call.number = 3 ∧
      (@send onePacket _ EcSerialLink.payload .timeAlarm 9 (.ok [0, 0, 0, 0]) 3).run
        (feeder (timerReply 60 ++ timerReply 5)) [] = (h, some call.result) := by
  let := onePacket
  obtain ⟨h, s', call, hstep, hlog, hnumber, hrun, -⟩ :=
    (send_wire EcSerialLink.payload (EcSerialLink.getTimerValue 0) 3).link
      (feeder (timerReply 60 ++ timerReply 5)) _ [_] twoReplies 3 [] (feeds_feeder _) rfl
      (by decide) rfl carries_twoReplies
  exact ⟨h, s', call, hstep, hlog, hnumber, hrun⟩

end EcSerialStream
