import Mathlib.Data.Nat.Bitwise
import OdpPlatform.ByteBuffer

/-! # ucsi.rs: the mailbox behind two framings

A response is a mailbox, or an FF-A envelope that holds one. The payload types, their decoders and
the response lengths that the tests fix belong to `embedded_usb_pd`. -/
namespace UcsiMailbox

open ByteBuffer

inductive MailboxError where
  | wrongLength (length : ℕ)
  | ffaStatus (status : UInt64)
  | unsupportedVersion (version : UInt16)
  | notComplete
  | commandError
  | notSupported
  | unexpectedDataLen (expected actual : ℕ)
  | payloadDecode
  deriving DecidableEq, Repr

/-- A slice out of range is `none`. -/
abbrev Decode := ExceptT MailboxError Option

def slice (bytes : Bytes) (i j : ℕ) : Decode Bytes :=
  if i ≤ j ∧ j ≤ bytes.length then pure (window bytes i (j - i)) else ExceptT.mk none

def leWord64 (bytes : Bytes) : UInt64 := UInt64.ofNat (Nat.ofDigits 256 (bytes.map UInt8.toNat))

/-- The connector change indicator, at the bits of UCSI 1.2. -/
structure LocalCci where
  raw : UInt32

namespace LocalCci

def dataLen (cci : LocalCci) : ℕ := cci.raw.toNat / 2 ^ 8 % 2 ^ 8
def notSupported (cci : LocalCci) : Bool := cci.raw.toNat.testBit 25
def error (cci : LocalCci) : Bool := cci.raw.toNat.testBit 30
def cmdComplete (cci : LocalCci) : Bool := cci.raw.toNat.testBit 31

end LocalCci

class UsbPd where
  Capability : Type
  ConnectorCapability : Type
  ConnectorStatus : Type
  decodeCapability : Bytes → Option Capability
  connectorCapability : UInt16 → ConnectorCapability
  decodeConnectorStatus : Bytes → Option ConnectorStatus

def mailboxLen : ℕ := 48
def ffaEnvelopeLen : ℕ := 144
def ffaPayloadOffset : ℕ := 32
def ucsiVersion12 : UInt16 := 0x0120
def messageInOffset : ℕ := 16

def capabilityLen : ℕ := 16
def connectorCapabilityLen : ℕ := 2
def connectorStatusLen : ℕ := 11

def normalizeAcpiResponse (bytes : Bytes) : Decode Bytes := do
  if bytes.length = mailboxLen then
    pure bytes
  else if bytes.length = ffaEnvelopeLen then
    let status ← leWord64 <$> slice bytes 0 8
    if status ≠ 0 then
      throw (.ffaStatus status)
    else
      slice bytes ffaPayloadOffset (ffaPayloadOffset + mailboxLen)
  else
    throw (.wrongLength bytes.length)

def validate (bytes : Bytes) : Decode (UInt16 × ℕ) := do
  if bytes.length ≠ mailboxLen then
    throw (.wrongLength bytes.length)
  else
    let version ← leWord16 <$> slice bytes 0 2
    let cci ← (fun b => LocalCci.mk (leWord b)) <$> slice bytes 4 8
    if cci.error then
      throw .commandError
    else if cci.notSupported then
      throw .notSupported
    else if !cci.cmdComplete then
      throw .notComplete
    else
      pure (version, cci.dataLen)

def messageIn (bytes : Bytes) (expected : ℕ) : Decode Bytes := do
  let (version, actual) ← validate bytes
  if version ≠ ucsiVersion12 then
    throw (.unsupportedVersion version)
  else if actual ≠ expected then
    throw (.unexpectedDataLen expected actual)
  else
    slice bytes messageInOffset (messageInOffset + expected)

def decodeVersion (bytes : Bytes) : Decode UInt16 := do
  let (version, _) ← validate bytes
  pure version

def orPayloadDecode {β : Type} : Option β → Except MailboxError β
  | some b => .ok b
  | none => .error .payloadDecode

section Payloads

variable [UsbPd]

def decodeCapability (bytes : Bytes) : Decode UsbPd.Capability := do
  let payload ← messageIn bytes capabilityLen
  ExceptT.mk (some (orPayloadDecode (UsbPd.decodeCapability payload)))

def decodeConnectorCapability (bytes : Bytes) : Decode UsbPd.ConnectorCapability := do
  let payload ← messageIn bytes connectorCapabilityLen
  let raw ← leWord16 <$> slice payload 0 2
  pure (UsbPd.connectorCapability raw)

def decodeConnectorStatus (bytes : Bytes) : Decode UsbPd.ConnectorStatus := do
  let payload ← messageIn bytes connectorStatusLen
  if payload.length = connectorStatusLen then
    ExceptT.mk (some (orPayloadDecode (UsbPd.decodeConnectorStatus payload)))
  else
    ExceptT.mk none

end Payloads

/-- A mailbox, or an envelope of status zero with the mailbox at offset 32. -/
inductive Carries : Bytes → Bytes → Prop where
  | direct {m : Bytes} : m.length = 48 → Carries m m
  | envelope {header m tail : Bytes} : header.length = 24 → m.length = 48 → tail.length = 64 →
      Carries (List.replicate 8 0 ++ (header ++ (m ++ tail))) m

def versionOf (m : Bytes) : UInt16 := leWord16 (window m 0 2)

def cciOf (m : Bytes) : LocalCci := ⟨leWord (window m 4 4)⟩

structure Completed (m : Bytes) : Prop where
  error : (cciOf m).error = false
  notSupported : (cciOf m).notSupported = false
  complete : (cciOf m).cmdComplete = true

structure Declares (length : ℕ) (m : Bytes) : Prop where
  version : versionOf m = ucsiVersion12
  dataLen : (cciOf m).dataLen = length

def payloadOf (length : ℕ) (m : Bytes) : Bytes := window m messageInOffset length

def ReachesPayload {β : Type} (r : Option (Except MailboxError β)) : Prop :=
  (∃ b, r = some (.ok b)) ∨ r = some (.error .payloadDecode)

/-- A decoder behind the framing: which responses it accepts and what it reads in them. -/
structure DecodesMailbox {β : Type} (decode : Bytes → Decode β) (expects : Bytes → Prop)
    (read : Bytes → Except MailboxError β) : Prop where
  reaches : ∀ bytes, ReachesPayload (normalizeAcpiResponse bytes >>= decode).run ↔
    ∃ m, Carries bytes m ∧ Completed m ∧ expects m
  reads : ∀ {bytes m}, Carries bytes m → Completed m → expects m →
    (normalizeAcpiResponse bytes >>= decode).run = some (read m)
  framed : ∀ {bytes m}, Carries bytes m →
    (normalizeAcpiResponse bytes >>= decode).run = (normalizeAcpiResponse m >>= decode).run
  failed : ∀ {bytes m}, Carries bytes m → (cciOf m).error = true →
    (normalizeAcpiResponse bytes >>= decode).run = some (.error .commandError)
  unsupported : ∀ {bytes m}, Carries bytes m → (cciOf m).error = false →
    (cciOf m).notSupported = true →
    (normalizeAcpiResponse bytes >>= decode).run = some (.error .notSupported)
  inRange : ∀ bytes, (normalizeAcpiResponse bytes >>= decode).run ≠ none

theorem slice_of_le {bytes : Bytes} {i j : ℕ} (hij : i ≤ j) (hj : j ≤ bytes.length) :
    slice bytes i j = pure (window bytes i (j - i)) := if_pos ⟨hij, hj⟩

theorem Carries.length {bytes m : Bytes} (h : Carries bytes m) : m.length = 48 := by
  cases h with
  | direct hm => exact hm
  | envelope _ hm _ => exact hm

theorem ofDigits_eq_zero_iff {bytes : Bytes} :
    Nat.ofDigits 256 (bytes.map UInt8.toNat) = 0 ↔ bytes = List.replicate bytes.length 0 := by
  induction bytes with
  | nil => exact iff_of_true rfl rfl
  | cons b bytes ih =>
    rw [List.map_cons, Nat.ofDigits_cons, List.length_cons, List.replicate_succ, List.cons.injEq,
      ← ih, ← UInt8.toNat_inj]
    simp

theorem leWord64_eq_zero_iff {bytes : Bytes} (hlength : bytes.length = 8) :
    leWord64 bytes = 0 ↔ bytes = List.replicate 8 0 := by
  have hlt : Nat.ofDigits 256 (bytes.map UInt8.toNat) < 2 ^ 64 := by
    have hdigits : ∀ d ∈ bytes.map UInt8.toNat, d < 256 := by
      intro d hd
      obtain ⟨b, -, rfl⟩ := List.mem_map.mp hd
      exact b.toNat_lt
    calc Nat.ofDigits 256 (bytes.map UInt8.toNat) < 256 ^ (bytes.map UInt8.toNat).length :=
          Nat.ofDigits_lt_base_pow_length (by decide) hdigits
      _ = 2 ^ 64 := by
          rw [List.length_map, hlength]
          decide
  rw [leWord64, ← UInt64.toNat_inj, UInt64.toNat_ofNat_of_lt' hlt]
  rw [show (0 : UInt64).toNat = 0 from rfl, ofDigits_eq_zero_iff, hlength]

theorem normalize_of_direct {m : Bytes} (hm : m.length = 48) :
    normalizeAcpiResponse m = pure m := if_pos hm

/-- An envelope is judged by its status. -/
theorem normalize_of_envelope {bytes : Bytes} (hlength : bytes.length = 144) :
    normalizeAcpiResponse bytes =
      if leWord64 (window bytes 0 8) ≠ 0 then throw (.ffaStatus (leWord64 (window bytes 0 8)))
      else pure (window bytes 32 48) := by
  have hdirect : ¬bytes.length = mailboxLen := by
    rw [hlength]
    decide
  have henvelope : bytes.length = ffaEnvelopeLen := hlength
  have hpayload : slice bytes ffaPayloadOffset (ffaPayloadOffset + mailboxLen) =
      pure (window bytes 32 48) := slice_of_le (by decide) (by rw [hlength]; decide)
  rw [normalizeAcpiResponse, if_neg hdirect, if_pos henvelope,
    slice_of_le (Nat.zero_le 8) (by rw [hlength]; decide), map_pure, pure_bind, hpayload]

theorem normalize_of_carries {bytes m : Bytes} (h : Carries bytes m) :
    normalizeAcpiResponse bytes = pure m := by
  cases h with
  | direct hm => exact normalize_of_direct hm
  | @envelope header m tail hheader hm htail =>
    let bytes : Bytes := List.replicate 8 0 ++ (header ++ (m ++ tail))
    have hlength : bytes.length = 144 := by
      simp only [bytes, List.length_append, List.length_replicate, hheader, hm, htail]
    have hstatus : window bytes 0 8 = List.replicate 8 0 := by
      rw [window, List.drop_zero]
      exact List.take_left' List.length_replicate
    have hmailbox : window bytes 32 48 = m := by
      have hfront : (List.replicate 8 (0 : UInt8) ++ header).length = 32 := by
        rw [List.length_append, List.length_replicate, hheader]
      have hdrop : bytes.drop 32 = m ++ tail := by
        rw [show bytes = (List.replicate 8 0 ++ header) ++ (m ++ tail) from
          (List.append_assoc _ _ _).symm]
        exact List.drop_left' hfront
      rw [window, hdrop]
      exact List.take_left' hm
    rw [normalize_of_envelope hlength, hstatus, hmailbox,
      if_neg (not_not.mpr ((leWord64_eq_zero_iff List.length_replicate).mpr rfl))]

theorem carries_of_zero_status {bytes : Bytes} (hlength : bytes.length = 144)
    (hstatus : window bytes 0 8 = List.replicate 8 0) : Carries bytes (window bytes 32 48) := by
  have hsplit : bytes = List.replicate 8 0 ++
      (window bytes 8 24 ++ (window bytes 32 48 ++ bytes.drop 80)) := by
    have hat : ∀ i j, bytes.drop i = window bytes i j ++ bytes.drop (i + j) := by
      intro i j
      rw [window, ← List.drop_drop, List.take_append_drop]
    calc bytes = bytes.drop 0 := List.drop_zero.symm
      _ = List.replicate 8 0 ++ bytes.drop 8 := by rw [hat 0 8, hstatus]
      _ = List.replicate 8 0 ++ (window bytes 8 24 ++ (window bytes 32 48 ++ bytes.drop 80)) := by
          rw [hat 8 24, hat 32 48]
  have hwindow : ∀ i j, i + j ≤ 144 → (window bytes i j).length = j := by
    intro i j hij
    rw [length_window, hlength]
    omega
  have htail : (bytes.drop 80).length = 64 := by rw [List.length_drop, hlength]
  conv =>
    arg 1
    rw [hsplit]
  exact .envelope (hwindow 8 24 (by decide)) (hwindow 32 48 (by decide)) htail

/-- Every other response ends in the framing's own errors. -/
theorem normalize_of_not_carries {bytes : Bytes} (h : ¬∃ m, Carries bytes m) :
    ∃ e, e ≠ MailboxError.payloadDecode ∧ normalizeAcpiResponse bytes = throw e := by
  by_cases hdirect : bytes.length = 48
  · exact absurd ⟨bytes, .direct hdirect⟩ h
  · by_cases henvelope : bytes.length = 144
    · rw [normalize_of_envelope henvelope]
      by_cases hstatus : leWord64 (window bytes 0 8) = 0
      · have hwindow : (window bytes 0 8).length = 8 := by
          rw [length_window, henvelope]
          decide
        exact absurd ⟨_, carries_of_zero_status henvelope
          ((leWord64_eq_zero_iff hwindow).mp hstatus)⟩ h
      · rw [if_pos hstatus]
        exact ⟨.ffaStatus (leWord64 (window bytes 0 8)), nofun, rfl⟩
    · refine ⟨.wrongLength bytes.length, nofun, ?_⟩
      have hmailbox : ¬bytes.length = mailboxLen := hdirect
      have hffa : ¬bytes.length = ffaEnvelopeLen := henvelope
      rw [normalizeAcpiResponse, if_neg hmailbox, if_neg hffa]

/-- The status check that fails first. -/
def statusError (m : Bytes) : Option MailboxError :=
  if (cciOf m).error = true then some .commandError
  else if (cciOf m).notSupported = true then some .notSupported
  else if (!(cciOf m).cmdComplete) = true then some .notComplete
  else none

theorem statusError_eq_none {m : Bytes} : statusError m = none ↔ Completed m := by
  rw [statusError]
  by_cases herror : (cciOf m).error = true
  · rw [if_pos herror]
    refine iff_of_false nofun fun h => ?_
    cases herror.symm.trans h.error
  · rw [if_neg herror]
    by_cases hsupported : (cciOf m).notSupported = true
    · rw [if_pos hsupported]
      refine iff_of_false nofun fun h => ?_
      cases hsupported.symm.trans h.notSupported
    · rw [if_neg hsupported]
      by_cases hcomplete : (cciOf m).cmdComplete = true
      · rw [hcomplete, if_neg (by decide)]
        exact iff_of_true rfl
          ⟨Bool.eq_false_of_not_eq_true herror, Bool.eq_false_of_not_eq_true hsupported, hcomplete⟩
      · rw [Bool.eq_false_of_not_eq_true hcomplete, if_pos (by decide)]
        exact iff_of_false nofun fun h => hcomplete h.complete

theorem statusError_ne_payloadDecode {m : Bytes} {e : MailboxError}
    (h : statusError m = some e) : e ≠ .payloadDecode := by
  intro he
  rw [he, statusError] at h
  split_ifs at h <;> cases h

theorem validate_eq {m : Bytes} (hm : m.length = 48) :
    validate m =
      match statusError m with
      | some e => throw e
      | none => pure (versionOf m, (cciOf m).dataLen) := by
  have hlength : ¬m.length ≠ mailboxLen := not_not.mpr hm
  rw [validate, if_neg hlength, slice_of_le (by decide) (by rw [hm]; decide),
    slice_of_le (by decide) (by rw [hm]; decide)]
  simp only [map_pure, pure_bind]
  change (if (cciOf m).error = true then _ else _) = _
  rw [statusError]
  by_cases herror : (cciOf m).error = true
  · rw [if_pos herror, if_pos herror]
  · rw [if_neg herror, if_neg herror]
    change (if (cciOf m).notSupported = true then _ else _) = _
    by_cases hsupported : (cciOf m).notSupported = true
    · rw [if_pos hsupported, if_pos hsupported]
    · rw [if_neg hsupported, if_neg hsupported]
      change (if (!(cciOf m).cmdComplete) = true then _ else _) = _
      by_cases hcomplete : (!(cciOf m).cmdComplete) = true
      · rw [if_pos hcomplete, if_pos hcomplete]
      · rw [if_neg hcomplete, if_neg hcomplete]
        rfl

structure ReadsMailbox {β : Type} (decode : Bytes → Decode β) (expects : Bytes → Prop)
    (read : Bytes → Except MailboxError β) : Prop where
  rejected : ∀ {m e}, m.length = 48 → statusError m = some e → decode m = throw e
  declined : ∀ {m}, m.length = 48 → statusError m = none → ¬expects m →
    ∃ e, e ≠ MailboxError.payloadDecode ∧ decode m = throw e
  accepted : ∀ {m}, m.length = 48 → statusError m = none → expects m →
    decode m = ExceptT.mk (some (read m))
  read_error : ∀ {m e}, read m = .error e → e = .payloadDecode

theorem not_reachesPayload {β : Type} {e : MailboxError} (he : e ≠ .payloadDecode) :
    ¬ReachesPayload (some (.error e) : Option (Except MailboxError β)) := by
  intro h
  obtain ⟨b, hb⟩ | hdecode := h
  · cases hb
  · cases hdecode
    exact he rfl

theorem run_carried {β : Type} (decode : Bytes → Decode β) {bytes m : Bytes}
    (hm : Carries bytes m) : (normalizeAcpiResponse bytes >>= decode).run = (decode m).run := by
  rw [normalize_of_carries hm, pure_bind]

theorem run_not_carried {β : Type} (decode : Bytes → Decode β) {bytes : Bytes}
    (hnone : ¬∃ m, Carries bytes m) : ∃ e, e ≠ MailboxError.payloadDecode ∧
      (normalizeAcpiResponse bytes >>= decode).run = some (.error e) := by
  obtain ⟨e, he, hnormalize⟩ := normalize_of_not_carries hnone
  refine ⟨e, he, ?_⟩
  rw [hnormalize]
  rfl

theorem Carries.unique {bytes m m' : Bytes} (hm : Carries bytes m) (hm' : Carries bytes m') :
    m = m' := by
  have hsame := (normalize_of_carries hm).symm.trans (normalize_of_carries hm')
  cases hsame
  rfl

/-- What becomes of a mailbox, in the order of the checks. -/
theorem ReadsMailbox.judged {β : Type} {decode : Bytes → Decode β} {expects : Bytes → Prop}
    {read : Bytes → Except MailboxError β} (h : ReadsMailbox decode expects read) {m : Bytes}
    (hm : m.length = 48) :
    (Completed m ∧ expects m ∧ (decode m).run = some (read m)) ∨
      (¬(Completed m ∧ expects m) ∧
        ∃ e, e ≠ MailboxError.payloadDecode ∧ (decode m).run = some (.error e)) := by
  cases hstatus : statusError m with
  | some e =>
    refine .inr ⟨fun hgood => ?_, e, statusError_ne_payloadDecode hstatus, ?_⟩
    · rw [statusError_eq_none.mpr hgood.1] at hstatus
      cases hstatus
    · rw [h.rejected hm hstatus]
      rfl
  | none =>
    by_cases hexpects : expects m
    · refine .inl ⟨statusError_eq_none.mp hstatus, hexpects, ?_⟩
      rw [h.accepted hm hstatus hexpects]
      rfl
    · obtain ⟨e, he, hdecode⟩ := h.declined hm hstatus hexpects
      refine .inr ⟨fun hgood => hexpects hgood.2, e, he, ?_⟩
      rw [hdecode]
      rfl

theorem ReadsMailbox.decodes {β : Type} {decode : Bytes → Decode β} {expects : Bytes → Prop}
    {read : Bytes → Except MailboxError β} (h : ReadsMailbox decode expects read) :
    DecodesMailbox decode expects read := by
  constructor
  case reaches =>
    intro bytes
    by_cases hcarries : ∃ m, Carries bytes m
    · obtain ⟨m, hm⟩ := hcarries
      rw [run_carried decode hm]
      obtain ⟨hcompleted, hexpects, hrun⟩ | ⟨hbad, e, he, hrun⟩ := h.judged hm.length
      · refine iff_of_true ?_ ⟨m, hm, hcompleted, hexpects⟩
        rw [hrun]
        cases hread : read m with
        | ok b => exact .inl ⟨b, rfl⟩
        | error e =>
          rw [h.read_error hread]
          exact .inr rfl
      · rw [hrun]
        refine iff_of_false (not_reachesPayload he) fun ⟨m', hm', hgood⟩ => hbad ?_
        rw [hm.unique hm']
        exact hgood
    · obtain ⟨e, he, hrun⟩ := run_not_carried decode hcarries
      rw [hrun]
      exact iff_of_false (not_reachesPayload he) fun ⟨m, hm, _⟩ => hcarries ⟨m, hm⟩
  case reads =>
    intro bytes m hm hcompleted hexpects
    rw [run_carried decode hm, h.accepted hm.length (statusError_eq_none.mpr hcompleted) hexpects]
    rfl
  case framed =>
    intro bytes m hm
    rw [run_carried decode hm, run_carried decode (.direct hm.length)]
  case failed =>
    intro bytes m hm herror
    have hstatus : statusError m = some .commandError := if_pos herror
    rw [run_carried decode hm, h.rejected hm.length hstatus]
    rfl
  case unsupported =>
    intro bytes m hm herror hsupported
    have hstatus : statusError m = some .notSupported := by
      rw [statusError, if_neg (by rw [herror]; decide), if_pos hsupported]
    rw [run_carried decode hm, h.rejected hm.length hstatus]
    rfl
  case inRange =>
    intro bytes
    by_cases hcarries : ∃ m, Carries bytes m
    · obtain ⟨m, hm⟩ := hcarries
      rw [run_carried decode hm]
      obtain ⟨-, -, hrun⟩ | ⟨-, e, -, hrun⟩ := h.judged hm.length
      · rw [hrun]
        exact Option.some_ne_none _
      · rw [hrun]
        exact Option.some_ne_none _
    · obtain ⟨e, -, hrun⟩ := run_not_carried decode hcarries
      rw [hrun]
      exact Option.some_ne_none _

theorem messageIn_of_statusError {m : Bytes} {e : MailboxError} (hm : m.length = 48)
    (he : statusError m = some e) (expected : ℕ) : messageIn m expected = throw e := by
  rw [messageIn, validate_eq hm, he]
  rfl

theorem messageIn_of_completed {m : Bytes} {expected : ℕ} (hm : m.length = 48)
    (hstatus : statusError m = none) (hfits : expected ≤ 32) :
    messageIn m expected =
      if versionOf m ≠ ucsiVersion12 then throw (.unsupportedVersion (versionOf m))
      else if (cciOf m).dataLen ≠ expected then
        throw (.unexpectedDataLen expected (cciOf m).dataLen)
      else pure (payloadOf expected m) := by
  have hslice : slice m messageInOffset (messageInOffset + expected) =
      pure (payloadOf expected m) := by
    have hend : messageInOffset + expected ≤ m.length := by
      rw [hm, messageInOffset]
      omega
    rw [slice_of_le (Nat.le_add_right _ _) hend, Nat.add_sub_cancel_left, payloadOf]
  rw [messageIn, validate_eq hm, hstatus]
  simp only [pure_bind, hslice]

/-- A payload decoder behind `message_in`. -/
theorem reads_messageIn {β : Type} {expected : ℕ} {f : Bytes → Decode β}
    {read : Bytes → Except MailboxError β} (hfits : expected ≤ 32)
    (hf : ∀ payload, payload.length = expected → f payload = ExceptT.mk (some (read payload)))
    (hread : ∀ {payload e}, read payload = .error e → e = .payloadDecode) :
    ReadsMailbox (fun m => messageIn m expected >>= f) (Declares expected)
      (fun m => read (payloadOf expected m)) where
  rejected hm he := by
    rw [messageIn_of_statusError hm he]
    rfl
  declined {m} hm hstatus hnot := by
    rw [messageIn_of_completed hm hstatus hfits]
    by_cases hversion : versionOf m = ucsiVersion12
    · have hlen : (cciOf m).dataLen ≠ expected := fun hlen => hnot ⟨hversion, hlen⟩
      rw [if_neg (not_not.mpr hversion), if_pos hlen]
      exact ⟨.unexpectedDataLen expected (cciOf m).dataLen, nofun, rfl⟩
    · rw [if_pos hversion]
      exact ⟨.unsupportedVersion (versionOf m), nofun, rfl⟩
  accepted {m} hm hstatus hdeclares := by
    have hlength : (payloadOf expected m).length = expected := by
      rw [payloadOf, length_window, hm, messageInOffset]
      omega
    rw [messageIn_of_completed hm hstatus hfits, if_neg (not_not.mpr hdeclares.version),
      if_neg (not_not.mpr hdeclares.dataLen), pure_bind, hf _ hlength]
  read_error := hread

theorem reads_decodeVersion :
    ReadsMailbox decodeVersion (fun _ => True) (fun m => .ok (versionOf m)) where
  rejected hm he := by
    rw [decodeVersion, validate_eq hm, he]
    rfl
  declined _ _ hnot := absurd trivial hnot
  accepted hm hstatus _ := by
    rw [decodeVersion, validate_eq hm, hstatus]
    rfl
  read_error h := by cases h

theorem orPayloadDecode_eq_error {β : Type} {r : Option β} {e : MailboxError}
    (h : orPayloadDecode r = .error e) : e = .payloadDecode := by
  cases r with
  | some b => cases h
  | none =>
    cases h
    rfl

section Payloads

variable [UsbPd]

theorem reads_decodeCapability :
    ReadsMailbox decodeCapability (Declares capabilityLen)
      (fun m => orPayloadDecode (UsbPd.decodeCapability (payloadOf capabilityLen m))) :=
  @reads_messageIn _ _ _ (fun payload => orPayloadDecode (UsbPd.decodeCapability payload))
    (by decide) (fun _ _ => rfl) orPayloadDecode_eq_error

theorem reads_decodeConnectorCapability :
    ReadsMailbox decodeConnectorCapability (Declares connectorCapabilityLen)
      (fun m =>
        .ok (UsbPd.connectorCapability (leWord16 (payloadOf connectorCapabilityLen m)))) := by
  refine @reads_messageIn _ _ _ (fun payload => .ok (UsbPd.connectorCapability (leWord16 payload)))
    (by decide) (fun payload hlength => ?_) (fun h => by cases h)
  have hall : window payload 0 (2 - 0) = payload := List.take_of_length_le (Nat.le_of_eq hlength)
  rw [slice_of_le (Nat.zero_le 2) (Nat.le_of_eq hlength.symm), hall]
  rfl

theorem reads_decodeConnectorStatus :
    ReadsMailbox decodeConnectorStatus (Declares connectorStatusLen)
      (fun m => orPayloadDecode (UsbPd.decodeConnectorStatus (payloadOf connectorStatusLen m))) :=
  @reads_messageIn _ _ _ (fun payload => orPayloadDecode (UsbPd.decodeConnectorStatus payload))
    (by decide) (fun _ hlength => if_pos hlength) orPayloadDecode_eq_error

/-- The four decoders share framing and status checks; three of them look at the payload. -/
theorem mailbox_decoders :
    DecodesMailbox decodeVersion (fun _ => True) (fun m => .ok (versionOf m)) ∧
    DecodesMailbox decodeCapability (Declares capabilityLen)
      (fun m => orPayloadDecode (UsbPd.decodeCapability (payloadOf capabilityLen m))) ∧
    DecodesMailbox decodeConnectorCapability (Declares connectorCapabilityLen)
      (fun m => .ok (UsbPd.connectorCapability (leWord16 (payloadOf connectorCapabilityLen m)))) ∧
    DecodesMailbox decodeConnectorStatus (Declares connectorStatusLen)
      (fun m => orPayloadDecode (UsbPd.decodeConnectorStatus (payloadOf connectorStatusLen m))) :=
  ⟨reads_decodeVersion.decodes, reads_decodeCapability.decodes,
    reads_decodeConnectorCapability.decodes, reads_decodeConnectorStatus.decodes⟩

end Payloads

end UcsiMailbox
