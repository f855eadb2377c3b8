import OdpPlatform.AcpiMethodBuffers
import Mathlib.Data.List.DropRight

/-! # acpi.rs: values and nested packages -/
namespace AcpiValues

open ByteBuffer AcpiMethodBuffers

inductive AcpiValue where
  | integer (i : UInt32)
  | string (s : List Char)
  | buffer (b : Bytes)
  | package (items : List AcpiValue)
  | malformed (b : Bytes)

/-! ## String::from_utf8_lossy -/

def replacementCharacter : Char := '\uFFFD'

/-- The length of the sequence that the byte leads, and the range of its second byte. -/
def utf8Lead (b : UInt8) : Option (ℕ × UInt8 × UInt8) :=
  if 0xC2 ≤ b ∧ b ≤ 0xDF then some (2, 0x80, 0xBF)
  else if b = 0xE0 then some (3, 0xA0, 0xBF)
  else if b = 0xED then some (3, 0x80, 0x9F)
  else if 0xE1 ≤ b ∧ b ≤ 0xEF then some (3, 0x80, 0xBF)
  else if b = 0xF0 then some (4, 0x90, 0xBF)
  else if 0xF1 ≤ b ∧ b ≤ 0xF3 then some (4, 0x80, 0xBF)
  else if b = 0xF4 then some (4, 0x80, 0x8F)
  else none

def continuation : ℕ → UInt8 → UInt8 → Bytes → Bytes
  | n + 1, lo, hi, b :: rest =>
    if lo ≤ b ∧ b ≤ hi then b :: continuation n 0x80 0xBF rest else []
  | _, _, _, _ => []

/-- Each maximal part of an invalid sequence becomes one replacement character. -/
def fromUtf8Lossy (bytes : Bytes) : List Char :=
  match bytes with
  | [] => []
  | b :: rest =>
    if b < 0x80 then
      Char.ofNat b.toNat :: fromUtf8Lossy rest
    else
      match utf8Lead b with
      | none => replacementCharacter :: fromUtf8Lossy rest
      | some (n, lo, hi) =>
        let tail := continuation (n - 1) lo hi rest
        let c :=
          if tail.length = n - 1 then
            Char.ofNat (tail.foldl (fun acc x => acc * 64 + x.toNat % 64) (b.toNat % 2 ^ (7 - n)))
          else replacementCharacter
        c :: fromUtf8Lossy (rest.drop tail.length)
termination_by bytes.length
decreasing_by
  all_goals
    simp only [List.length_cons, List.length_drop]
    omega

def trimEndNul (s : List Char) : List Char := s.rdropWhile (· == Char.ofNat 0)

/-! ## parse_acpi_values and acpi_value_from -/

/-- Header and body at the front, and what follows; `none` when the header is short or the length
overruns. -/
def splitArgument : Bytes → Option (UInt16 × Bytes × Bytes)
  | t₀ :: t₁ :: l₀ :: l₁ :: tail =>
    let dataLength := (leWord16 [l₀, l₁]).toNat
    if dataLength ≤ tail.length then
      some (leWord16 [t₀, t₁], tail.take dataLength, tail.drop dataLength)
    else
      none
  | _ => none

/-- A header of these two fields. -/
theorem splitArgument_header (type_ dataLength : UInt16) (tail : Bytes) :
    splitArgument (leBytes16 type_ ++ (leBytes16 dataLength ++ tail)) =
      if dataLength.toNat ≤ tail.length then
        some (type_, tail.take dataLength.toNat, tail.drop dataLength.toNat)
      else none := by
  have htype : leWord16 [UInt8.ofNat type_.toNat, UInt8.ofNat (type_.toNat / 2 ^ 8)] = type_ :=
    leWord16_leBytes16 type_ []
  have hlength : leWord16 [UInt8.ofNat dataLength.toNat, UInt8.ofNat (dataLength.toNat / 2 ^ 8)] =
      dataLength := leWord16_leBytes16 dataLength []
  simp only [leBytes16, List.cons_append, List.nil_append, splitArgument, htype, hlength]

theorem length_of_splitArgument {bytes body rest : Bytes} {type_ : UInt16}
    (hsplit : splitArgument bytes = some (type_, body, rest)) :
    4 + body.length + rest.length = bytes.length := by
  match bytes with
  | t₀ :: t₁ :: l₀ :: l₁ :: tail =>
    simp only [splitArgument] at hsplit
    split at hsplit
    · cases hsplit
      simp only [List.length_take, List.length_drop, List.length_cons]
      omega
    · cases hsplit

mutual

def parseAcpiValues (bytes : Bytes) : List AcpiValue :=
  match bytes with
  | [] => []
  | b :: bs =>
    match _hsplit : splitArgument (b :: bs) with
    | none => [.malformed (b :: bs)]
    | some (type_, body, rest) => acpiValueFrom type_ body :: parseAcpiValues rest
termination_by (bytes.length, 0)
decreasing_by
  · have hlength := length_of_splitArgument _hsplit
    apply Prod.Lex.left
    omega
  · have hlength := length_of_splitArgument _hsplit
    apply Prod.Lex.left
    omega

def acpiValueFrom (type_ : UInt16) (data : Bytes) : AcpiValue :=
  match AcpiArgumentType.tryFrom type_ with
  | some .integer => .integer (leWord (padTo 4 0 (data.take 4)))
  | some .string => .string (trimEndNul (fromUtf8Lossy data))
  | some .package | some .packageEx => .package (parseAcpiValues data)
  | _ => .buffer data
termination_by (data.length, 1)

end

@[simp] theorem parseAcpiValues_nil : parseAcpiValues [] = [] := by
  rw [parseAcpiValues]

theorem parseAcpiValues_of_none {bytes : Bytes} (hne : bytes ≠ [])
    (hsplit : splitArgument bytes = none) : parseAcpiValues bytes = [.malformed bytes] := by
  match bytes with
  | [] => exact absurd rfl hne
  | b :: bs =>
    rw [parseAcpiValues]
    split
    · rfl
    next heq =>
      rw [hsplit] at heq
      cases heq

theorem parseAcpiValues_of_some {bytes body rest : Bytes} {type_ : UInt16}
    (hsplit : splitArgument bytes = some (type_, body, rest)) :
    parseAcpiValues bytes = acpiValueFrom type_ body :: parseAcpiValues rest := by
  match bytes with
  | [] => cases hsplit
  | b :: bs =>
    rw [parseAcpiValues]
    split
    next heq =>
      rw [hsplit] at heq
      cases heq
    next heq =>
      rw [hsplit] at heq
      cases heq
      rfl

/-- A complete header and what it announces. -/
theorem parseAcpiValues_cons (t₀ t₁ l₀ l₁ : UInt8) (tail : Bytes) :
    parseAcpiValues (t₀ :: t₁ :: l₀ :: l₁ :: tail) =
      if (leWord16 [l₀, l₁]).toNat ≤ tail.length then
        acpiValueFrom (leWord16 [t₀, t₁]) (tail.take (leWord16 [l₀, l₁]).toNat) ::
          parseAcpiValues (tail.drop (leWord16 [l₀, l₁]).toNat)
      else [.malformed (t₀ :: t₁ :: l₀ :: l₁ :: tail)] := by
  split
  next hfits =>
    apply parseAcpiValues_of_some
    simp only [splitArgument, if_pos hfits]
  next hfits =>
    apply parseAcpiValues_of_none (by simp)
    simp only [splitArgument, if_neg hfits]

theorem parseAcpiValues_ne_nil {bytes : Bytes} (hne : bytes ≠ []) : parseAcpiValues bytes ≠ [] := by
  cases hsplit : splitArgument bytes with
  | none =>
    rw [parseAcpiValues_of_none hne hsplit]
    exact List.cons_ne_nil _ _
  | some x =>
    obtain ⟨type_, body, rest⟩ := x
    rw [parseAcpiValues_of_some hsplit]
    exact List.cons_ne_nil _ _

def AcpiValue.isInteger : AcpiValue → Bool
  | .integer _ => true
  | _ => false

def AcpiValue.isBuffer : AcpiValue → Bool
  | .buffer _ => true
  | _ => false

def AcpiValue.isMalformed : AcpiValue → Bool
  | .malformed _ => true
  | _ => false

/-- The type tags that no other kind of value claims. -/
def IsBufferType (type_ : UInt16) : Prop :=
  AcpiArgumentType.tryFrom type_ = some .buffer ∨ AcpiArgumentType.tryFrom type_ = none

theorem acpiValueFrom_integer (data : Bytes) :
    acpiValueFrom 0 data = .integer (leWord (padTo 4 0 (data.take 4))) := by
  rw [acpiValueFrom]
  rfl

theorem acpiValueFrom_buffer {type_ : UInt16} (htype : IsBufferType type_) (data : Bytes) :
    acpiValueFrom type_ data = .buffer data := by
  rw [acpiValueFrom]
  rcases htype with htype | htype
  · rw [htype]
  · rw [htype]

theorem isBuffer_acpiValueFrom (type_ : UInt16) (data : Bytes) :
    (acpiValueFrom type_ data).isBuffer = true ↔ IsBufferType type_ := by
  constructor
  · intro hbuffer
    rw [acpiValueFrom] at hbuffer
    unfold IsBufferType
    cases htype : AcpiArgumentType.tryFrom type_ with
    | none => exact .inr rfl
    | some t =>
      rw [htype] at hbuffer
      cases t <;> first | exact .inl rfl | cases hbuffer
  · intro htype
    rw [acpiValueFrom_buffer htype]
    rfl

theorem isInteger_acpiValueFrom (type_ : UInt16) (data : Bytes) :
    (acpiValueFrom type_ data).isInteger = true ↔ type_ = 0 := by
  constructor
  · intro hinteger
    rw [acpiValueFrom] at hinteger
    by_contra hne
    have htype : AcpiArgumentType.tryFrom type_ ≠ some .integer := by
      rw [AcpiArgumentType.tryFrom, if_neg hne]
      split_ifs <;> nofun
    cases htry : AcpiArgumentType.tryFrom type_ with
    | none =>
      rw [htry] at hinteger
      cases hinteger
    | some t =>
      rw [htry] at hinteger
      cases t <;> first | exact htype htry | cases hinteger
  · rintro rfl
    rw [acpiValueFrom_integer]
    rfl

/-- There are five argument types. -/
theorem isBufferType_of_five_le {type_ : UInt16} (htype : 5 ≤ type_.toNat) :
    IsBufferType type_ := by
  have hne : ∀ n : UInt16, n.toNat < 5 → type_ ≠ n := by
    rintro n hn rfl
    omega
  right
  rw [AcpiArgumentType.tryFrom, if_neg (hne 0 (by decide)), if_neg (hne 1 (by decide)),
    if_neg (hne 2 (by decide)), if_neg (hne 3 (by decide)), if_neg (hne 4 (by decide))]

theorem isMalformed_acpiValueFrom (type_ : UInt16) (data : Bytes) :
    (acpiValueFrom type_ data).isMalformed = false := by
  rw [acpiValueFrom]
  cases AcpiArgumentType.tryFrom type_ with
  | none => rfl
  | some t => cases t <;> rfl

end AcpiValues
