import OdpPlatform.AcpiSourceIntegers
import OdpPlatform.UcsiMailbox

/-! # A snapshot of a connector

Three UCSI commands over ACPI, each answered with a mailbox. The opcodes belong to
`embedded_usb_pd`. -/
namespace UcsiSnapshot

open ByteBuffer AcpiMethodBuffers AcpiOutputFormat AcpiSource AcpiSourceIntegers UcsiMailbox

/-! ## ucsi.rs, acpi.rs -/

inductive CommandType where
  | getCapability | getConnectorCapability | getConnectorStatus
  deriving DecidableEq, Repr

class UsbPdCommands extends UsbPd where
  opcode : CommandType → UInt8

structure Snapshot [UsbPd] where
  version : UInt16
  capability : UsbPd.Capability
  connectorCapability : UsbPd.ConnectorCapability
  connectorStatus : UsbPd.ConnectorStatus

inductive SnapshotError where
  | acpi (e : AcpiSource.Error)
  | ucsi (e : MailboxError)
  deriving DecidableEq, Repr

abbrev Taking := ExceptT SnapshotError Option

section Code

variable [UsbPdCommands]

/-- Opcode, data length zero, connector. -/
def control (command : CommandType) (connector : UInt8) : Bytes :=
  [UsbPdCommands.opcode command, 0, connector, 0, 0, 0, 0, 0]

variable (acpi : Acpi)

def ucsiCommand (control : Bytes) : Taking Bytes := do
  let output ← (acpi.query "\\_SB.ECT0.USND" (some [.buffer control])).adapt .acpi
  if output.count ≠ 1 then throw (.acpi .unexpectedResponse)
  else
    let arg ← (arg output 0).adapt SnapshotError.acpi
    if arg.type_ ≠ AcpiArgumentType.buffer.toU16 then
      throw (.acpi (.unexpectedArgumentType arg.type_))
    else (normalizeAcpiResponse arg.data).adapt .ucsi

def getSnapshot (connector : UInt8) : Taking Snapshot := do
  let capMailbox ← ucsiCommand acpi (control .getCapability 0)
  let version ← (decodeVersion capMailbox).adapt SnapshotError.ucsi
  let capability ← (decodeCapability capMailbox).adapt SnapshotError.ucsi
  let connCap ← ucsiCommand acpi (control .getConnectorCapability connector)
  let connectorCapability ← (decodeConnectorCapability connCap).adapt SnapshotError.ucsi
  let status ← ucsiCommand acpi (control .getConnectorStatus connector)
  let connectorStatus ← (decodeConnectorStatus status).adapt SnapshotError.ucsi
  pure ⟨version, capability, connectorCapability, connectorStatus⟩

end Code

def Answered (acpi : Acpi) (control m : Bytes) : Prop :=
  ∃ bytes s, Responds acpi ⟨"\\_SB.ECT0.USND".toList, some [.buffer control]⟩ bytes ∧
    Framed [s] bytes ∧ s.type_ = AcpiArgumentType.buffer.toU16 ∧ Carries s.data m

theorem run_adapt_ok {ε ε' β : Type} {f : ε → ε'} {m : ExceptT ε Option β} {x : β} :
    (m.adapt f).run = some (.ok x) ↔ m.run = some (.ok x) := by
  rw [ExceptT.run_adapt]
  cases m.run with
  | none => simp
  | some r => cases r <;> simp [Except.mapError]

theorem run_adapt_error {ε ε' β : Type} {f : ε → ε'} {m : ExceptT ε Option β} {e : ε}
    (h : m.run = some (.error e)) : (m.adapt f).run = some (.error (f e)) := by
  rw [ExceptT.run_adapt, h]
  rfl

theorem run_bind_of_ok {ε β γ : Type} {m : ExceptT ε Option β} {f : β → ExceptT ε Option γ} {a : β}
    (h : m.run = some (.ok a)) : (m >>= f).run = (f a).run := by
  rw [ExceptT.run_bind, h]
  rfl

theorem run_bind_of_error {ε β γ : Type} {m : ExceptT ε Option β}
    {f : β → ExceptT ε Option γ} {e : ε} (h : m.run = some (.error e)) :
    (m >>= f).run = some (.error e) := by
  rw [ExceptT.run_bind, h]
  rfl

theorem run_normalize_ok {bytes m : Bytes} :
    (normalizeAcpiResponse bytes).run = some (.ok m) ↔ Carries bytes m := by
  constructor
  · intro h
    by_cases hcarries : ∃ m', Carries bytes m'
    · obtain ⟨m', hm'⟩ := hcarries
      rw [normalize_of_carries hm'] at h
      cases h
      exact hm'
    · obtain ⟨e, -, hthrow⟩ := normalize_of_not_carries hcarries
      rw [hthrow] at h
      cases h
  · intro h
    rw [normalize_of_carries h]
    rfl

theorem run_ucsiCommand_ok {acpi : Acpi} {control m : Bytes} :
    (ucsiCommand acpi control).run = some (.ok m) ↔ Answered acpi control m := by
  rw [ucsiCommand, run_bind_ok]
  constructor
  · rintro ⟨output, houtput, hm⟩
    obtain ⟨bytes, slots, hresponds, hframed, rfl⟩ := run_query_ok.mp (run_adapt_ok.mp houtput)
    simp only [run_ite_ok, run_throw_ok, and_false, false_or, ne_eq, not_not, run_bind_ok,
      count_eq_iff hframed] at hm
    obtain ⟨hcount, arg, harg, htype, hm⟩ := hm
    obtain ⟨s, rfl⟩ := List.length_eq_one_iff.mp hcount
    obtain ⟨s', hs', rfl⟩ := run_arg_ok.mp (run_adapt_ok.mp harg)
    cases hs'
    exact ⟨bytes, s, hresponds, hframed, htype, run_normalize_ok.mp (run_adapt_ok.mp hm)⟩
  · rintro ⟨bytes, s, hresponds, hframed, htype, hcarries⟩
    refine ⟨_, run_adapt_ok.mpr (run_query_ok.mpr ⟨bytes, [s], hresponds, hframed, rfl⟩), ?_⟩
    simp only [run_ite_ok, run_throw_ok, and_false, false_or, ne_eq, not_not, run_bind_ok,
      count_eq_iff hframed]
    exact ⟨rfl, s.argument, run_adapt_ok.mpr (run_arg_ok.mpr ⟨s, rfl, rfl⟩), htype,
      run_adapt_ok.mpr (run_normalize_ok.mpr hcarries)⟩

theorem Answered.length {acpi : Acpi} {control m : Bytes} (h : Answered acpi control m) :
    m.length = 48 := by
  obtain ⟨_, _, _, _, _, hcarries⟩ := h
  exact hcarries.length

theorem run_decode_ok {β : Type} {decode : Bytes → Decode β} {expects : Bytes → Prop}
    {read : Bytes → Except MailboxError β} (h : ReadsMailbox decode expects read) {m : Bytes}
    (hm : m.length = 48) {x : β} :
    ((decode m).adapt SnapshotError.ucsi).run = some (.ok x) ↔
      Completed m ∧ expects m ∧ read m = .ok x := by
  rw [run_adapt_ok]
  obtain ⟨hcompleted, hexpects, hrun⟩ | ⟨hbad, e, -, hrun⟩ := h.judged hm
  · rw [hrun]
    constructor
    · intro hx
      exact ⟨hcompleted, hexpects, Option.some.inj hx⟩
    · rintro ⟨-, -, hx⟩
      exact congrArg some hx
  · rw [hrun]
    refine iff_of_false nofun ?_
    rintro ⟨hcompleted, hexpects, -⟩
    exact hbad ⟨hcompleted, hexpects⟩

theorem orPayloadDecode_eq_ok {β : Type} {r : Option β} {x : β} :
    orPayloadDecode r = .ok x ↔ r = some x := by
  cases r with
  | none => exact iff_of_false nofun nofun
  | some y =>
    rw [orPayloadDecode, Except.ok.injEq, Option.some.injEq]

structure Response (acpi : Acpi) (control : Bytes) (length : ℕ) (m : Bytes) : Prop where
  answered : Answered acpi control m
  completed : Completed m
  declares : Declares length m

theorem Response.transfer {acpi acpi' : Acpi} (h : ∀ c m, Answered acpi c m ↔ Answered acpi' c m)
    {c m : Bytes} {length : ℕ} : Response acpi c length m ↔ Response acpi' c length m :=
  ⟨fun r => ⟨(h c m).mp r.answered, r.completed, r.declares⟩,
    fun r => ⟨(h c m).mpr r.answered, r.completed, r.declares⟩⟩

section Snapshots

variable [UsbPdCommands]

structure Taken (acpi : Acpi) (connector : UInt8) (snapshot : Snapshot) (m₁ m₂ m₃ : Bytes) :
    Prop where
  cap : Response acpi (control .getCapability 0) capabilityLen m₁
  connCap : Response acpi (control .getConnectorCapability connector) connectorCapabilityLen m₂
  status : Response acpi (control .getConnectorStatus connector) connectorStatusLen m₃
  version : snapshot.version = ucsiVersion12
  capability : UsbPd.decodeCapability (payloadOf capabilityLen m₁) = some snapshot.capability
  connectorCapability : snapshot.connectorCapability =
    UsbPd.connectorCapability (leWord16 (payloadOf connectorCapabilityLen m₂))
  connectorStatus : UsbPd.decodeConnectorStatus (payloadOf connectorStatusLen m₃) =
    some snapshot.connectorStatus

theorem run_getSnapshot_ok {acpi : Acpi} {connector : UInt8} {snapshot : Snapshot} :
    (getSnapshot acpi connector).run = some (.ok snapshot) ↔
      ∃ m₁ m₂ m₃, Taken acpi connector snapshot m₁ m₂ m₃ := by
  simp only [getSnapshot, run_bind_ok, run_ucsiCommand_ok, run_pure_ok]
  constructor
  · rintro ⟨cap, hcap, version, hversion, capability, hcapability, connCap, hconnCap,
      connectorCapability, hconnectorCapability, status, hstatus, connectorStatus,
      hconnectorStatus, rfl⟩
    obtain ⟨hcompleted, -, hread⟩ := (run_decode_ok reads_decodeVersion hcap.length).mp hversion
    obtain ⟨-, hdeclares, hread₁⟩ :=
      (run_decode_ok reads_decodeCapability hcap.length).mp hcapability
    obtain ⟨hcompleted₂, hdeclares₂, hread₂⟩ :=
      (run_decode_ok reads_decodeConnectorCapability hconnCap.length).mp hconnectorCapability
    obtain ⟨hcompleted₃, hdeclares₃, hread₃⟩ :=
      (run_decode_ok reads_decodeConnectorStatus hstatus.length).mp hconnectorStatus
    refine ⟨cap, connCap, status, ⟨hcap, hcompleted, hdeclares⟩,
      ⟨hconnCap, hcompleted₂, hdeclares₂⟩, ⟨hstatus, hcompleted₃, hdeclares₃⟩, ?_,
      orPayloadDecode_eq_ok.mp hread₁, (Except.ok.inj hread₂).symm,
      orPayloadDecode_eq_ok.mp hread₃⟩
    exact (Except.ok.inj hread).symm.trans hdeclares.version
  · rintro ⟨m₁, m₂, m₃, h⟩
    have hversion := (run_decode_ok reads_decodeVersion h.cap.answered.length).mpr
      ⟨h.cap.completed, trivial, rfl⟩
    have hcapability := (run_decode_ok reads_decodeCapability h.cap.answered.length
      (x := snapshot.capability)).mpr
      ⟨h.cap.completed, h.cap.declares, orPayloadDecode_eq_ok.mpr h.capability⟩
    have hconnCap := (run_decode_ok reads_decodeConnectorCapability h.connCap.answered.length).mpr
      ⟨h.connCap.completed, h.connCap.declares, rfl⟩
    have hstatus := (run_decode_ok reads_decodeConnectorStatus h.status.answered.length
      (x := snapshot.connectorStatus)).mpr
      ⟨h.status.completed, h.status.declares, orPayloadDecode_eq_ok.mpr h.connectorStatus⟩
    refine ⟨m₁, h.cap.answered, _, hversion, _, hcapability, m₂, h.connCap.answered, _,
      hconnCap, m₃, h.status.answered, _, hstatus, ?_⟩
    rw [h.cap.declares.version, ← h.version, ← h.connectorCapability]

/-- The version alone is read from any completed mailbox, the payload behind it is not. -/
theorem run_getSnapshot_otherVersion {acpi : Acpi} {connector : UInt8} {m : Bytes}
    (hm : Answered acpi (control .getCapability 0) m) (hcompleted : Completed m)
    (hversion : versionOf m ≠ ucsiVersion12) :
    (getSnapshot acpi connector).run =
      some (.error (.ucsi (.unsupportedVersion (versionOf m)))) := by
  have hcommand := run_ucsiCommand_ok.mpr hm
  have hread := (run_decode_ok reads_decodeVersion hm.length).mpr ⟨hcompleted, trivial, rfl⟩
  have hdecode : ((decodeCapability m).adapt SnapshotError.ucsi).run =
      some (.error (.ucsi (.unsupportedVersion (versionOf m)))) := by
    apply run_adapt_error
    rw [decodeCapability, messageIn_of_completed hm.length (statusError_eq_none.mpr hcompleted)
      (by decide), if_pos hversion]
    rfl
  rw [getSnapshot, run_bind_of_ok hcommand, run_bind_of_ok hread, run_bind_of_error hdecode]

/-- One connector's snapshot, whatever the driver does. -/
structure Snapshots (acpi : Acpi) (connector : UInt8) : Prop where
  taken : ∀ snapshot, (getSnapshot acpi connector).run = some (.ok snapshot) ↔
    ∃ m₁ m₂ m₃, Taken acpi connector snapshot m₁ m₂ m₃
  versionRead : ∀ m, Answered acpi (control .getCapability 0) m → Completed m →
    (decodeVersion m).run = some (.ok (versionOf m))
  otherVersion : ∀ m, Answered acpi (control .getCapability 0) m → Completed m →
    versionOf m ≠ ucsiVersion12 → (getSnapshot acpi connector).run =
      some (.error (.ucsi (.unsupportedVersion (versionOf m))))
  framing : ∀ acpi', (∀ c m, Answered acpi c m ↔ Answered acpi' c m) → ∀ snapshot,
    (getSnapshot acpi connector).run = some (.ok snapshot) ↔
      (getSnapshot acpi' connector).run = some (.ok snapshot)

theorem getSnapshot_snapshots (acpi : Acpi) (connector : UInt8) : Snapshots acpi connector where
  taken _ := run_getSnapshot_ok
  versionRead m hm hcompleted :=
    run_adapt_ok.mp ((run_decode_ok reads_decodeVersion hm.length).mpr ⟨hcompleted, trivial, rfl⟩)
  otherVersion _ hm hcompleted hversion := run_getSnapshot_otherVersion hm hcompleted hversion
  framing acpi' hsame snapshot := by
    have htransfer {c m : Bytes} {n : ℕ} : Response acpi c n m ↔ Response acpi' c n m :=
      Response.transfer hsame
    rw [run_getSnapshot_ok, run_getSnapshot_ok]
    constructor
    · rintro ⟨m₁, m₂, m₃, h⟩
      exact ⟨m₁, m₂, m₃, htransfer.mp h.cap, htransfer.mp h.connCap, htransfer.mp h.status,
        h.version, h.capability, h.connectorCapability, h.connectorStatus⟩
    · rintro ⟨m₁, m₂, m₃, h⟩
      exact ⟨m₁, m₂, m₃, htransfer.mpr h.cap, htransfer.mpr h.connCap, htransfer.mpr h.status,
        h.version, h.capability, h.connectorCapability, h.connectorStatus⟩

end Snapshots

end UcsiSnapshot
