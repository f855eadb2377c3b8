import OdpPlatform.AcpiOutputFormat
import OdpPlatform.AcpiValues

/-! # Packages and the ACPI_METHOD_ARGUMENT layout

The package parser steps over the data of an argument, not over its slot. It reads an encoded
sequence right, whatever the padding holds, exactly when no argument has short data. -/
namespace AcpiPackageGrammar

open ByteBuffer AcpiMethodBuffers AcpiOutputFormat AcpiValues

def values (args : List (UInt16 × Bytes)) : List AcpiValue :=
  args.map fun a => acpiValueFrom a.1 a.2

theorem not_isMalformed_of_mem_values {args : List (UInt16 × Bytes)} {v : AcpiValue}
    (hv : v ∈ values args) : v.isMalformed = false := by
  obtain ⟨a, -, rfl⟩ := List.mem_map.mp hv
  exact isMalformed_acpiValueFrom a.1 a.2

def ReadsEncodings (args : List (UInt16 × Bytes)) : Prop :=
  ∀ slots : List Slot, slots.map Slot.content = args →
    parseAcpiValues (slotBytes slots) = values args ∧
      ∀ v ∈ parseAcpiValues (slotBytes slots), v.isMalformed = false

/-- The parser reads the data and goes on with the padding. -/
theorem parseAcpiValues_slot (s : Slot) (rest : Bytes) :
    parseAcpiValues (s.bytes ++ rest) =
      acpiValueFrom s.type_ s.data :: parseAcpiValues (s.pad ++ rest) := by
  apply parseAcpiValues_of_some
  have hlength := s.toNat_dataLength
  rw [Slot.bytes, List.append_assoc, List.append_assoc, List.append_assoc, splitArgument_header,
    hlength, if_pos (by rw [List.length_append]; exact Nat.le_add_right _ _), List.take_left' rfl,
    List.drop_left' rfl]

theorem Slot.pad_eq_nil {s : Slot} (hfills : 4 ≤ s.data.length) : s.pad = [] := by
  apply List.eq_nil_of_length_eq_zero
  rw [s.padded]
  omega

/-- Without short data the two readings agree. -/
theorem parseAcpiValues_filled (slots : List Slot) (hfills : ∀ s ∈ slots, 4 ≤ s.data.length) :
    parseAcpiValues (slotBytes slots) = values (slots.map Slot.content) := by
  induction slots with
  | nil => exact parseAcpiValues_nil
  | cons s slots ih =>
    have hpad := Slot.pad_eq_nil (hfills s List.mem_cons_self)
    have hrest := ih fun x hx => hfills x (List.mem_cons_of_mem s hx)
    rw [slotBytes_cons, parseAcpiValues_slot, hpad, List.nil_append, hrest]
    rfl

/-- A header of type 0 is an integer, or it overruns. -/
theorem head_of_integer_header (l₀ l₁ : UInt8) (tail : Bytes) :
    ∃ v vs, parseAcpiValues (0 :: 0 :: l₀ :: l₁ :: tail) = v :: vs ∧
      (v.isInteger = true ∨ v.isMalformed = true) := by
  rw [parseAcpiValues_cons]
  split
  · refine ⟨_, _, rfl, .inl ?_⟩
    rw [show leWord16 [0, 0] = 0 from rfl, acpiValueFrom_integer]
    rfl
  · exact ⟨_, _, rfl, .inr rfl⟩

/-- A header of an unclaimed type is a buffer, or it overruns. -/
theorem head_of_buffer_header {t₀ t₁ : UInt8} (htype : IsBufferType (leWord16 [t₀, t₁]))
    (l₀ l₁ : UInt8) (tail : Bytes) :
    ∃ v vs, parseAcpiValues (t₀ :: t₁ :: l₀ :: l₁ :: tail) = v :: vs ∧
      (v.isBuffer = true ∨ v.isMalformed = true) := by
  rw [parseAcpiValues_cons]
  split
  · refine ⟨_, _, rfl, .inl ?_⟩
    exact (isBuffer_acpiValueFrom _ _).mpr htype
  · exact ⟨_, _, rfl, .inr rfl⟩

/-- The two headers are never both read as the same values. -/
theorem headers_differ {t₀ t₁ : UInt8} (htype : IsBufferType (leWord16 [t₀, t₁]))
    {args : List (UInt16 × Bytes)} {l₀ l₁ m₀ m₁ : UInt8} {tail tail' : Bytes}
    (hinteger : parseAcpiValues (0 :: 0 :: l₀ :: l₁ :: tail) = values args)
    (hbuffer : parseAcpiValues (t₀ :: t₁ :: m₀ :: m₁ :: tail') = values args) : False := by
  obtain ⟨v, vs, hv, hkind⟩ := head_of_integer_header l₀ l₁ tail
  obtain ⟨w, ws, hw, hkind'⟩ := head_of_buffer_header htype m₀ m₁ tail'
  have hmem : v ∈ values args := by
    rw [← hinteger, hv]
    exact List.mem_cons_self
  have hsound := not_isMalformed_of_mem_values hmem
  have hsame : v :: vs = w :: ws := by rw [← hv, ← hw, hinteger, hbuffer]
  cases hsame
  cases v with
  | integer i => simp [AcpiValue.isBuffer, AcpiValue.isMalformed] at hkind'
  | buffer b => simp [AcpiValue.isInteger, AcpiValue.isMalformed] at hkind
  | string s => simp [AcpiValue.isInteger, AcpiValue.isMalformed] at hkind
  | package items => simp [AcpiValue.isInteger, AcpiValue.isMalformed] at hkind
  | malformed b => cases hsound

theorem isBufferType_two : IsBufferType (leWord16 [2, 0]) := .inl rfl

/-- The tag that a padding byte other than 0 makes is read as the next argument's kind only where
both are buffers. -/
theorem isBufferType_of_shifted {y t₀ t₁ : UInt8} (hy : y ≠ 0) {body data : Bytes}
    (hsame : acpiValueFrom (leWord16 [y, t₀]) body = acpiValueFrom (leWord16 [t₀, t₁]) data) :
    IsBufferType (leWord16 [t₀, t₁]) := by
  have hy' : y.toNat ≠ 0 := fun h => hy (UInt8.toNat_inj.mp h)
  by_cases ht₀ : t₀ = 0
  · subst ht₀
    by_cases ht₁ : t₁ = 0
    · subst ht₁
      have hinteger : (acpiValueFrom (leWord16 [y, 0]) body).isInteger = true := by
        rw [hsame]
        exact (isInteger_acpiValueFrom _ _).mpr rfl
      have hzero := congrArg UInt16.toNat ((isInteger_acpiValueFrom _ _).mp hinteger)
      rw [toNat_leWord16] at hzero
      exact absurd hzero (by simpa using hy')
    · apply isBufferType_of_five_le
      have ht₁' : t₁.toNat ≠ 0 := fun h => ht₁ (UInt8.toNat_inj.mp h)
      rw [toNat_leWord16]
      omega
  · have ht₀' : t₀.toNat ≠ 0 := fun h => ht₀ (UInt8.toNat_inj.mp h)
    have hbuffer : (acpiValueFrom (leWord16 [t₀, t₁]) data).isBuffer = true := by
      rw [← hsame, isBuffer_acpiValueFrom]
      apply isBufferType_of_five_le
      rw [toNat_leWord16]
      omega
    exact (isBuffer_acpiValueFrom _ _).mp hbuffer

/-- One byte ahead of a slot: if its value is read all the same, both length bytes and the second
tag byte are one byte `l₁`, and the data was read from there on. -/
theorem shifted_slot {y t₀ t₁ l₀ l₁ : UInt8} (hy : y ≠ 0) {data tail : Bytes} {vs : List AcpiValue}
    (hlength : data.length = (leWord16 [l₀, l₁]).toNat)
    (hread : parseAcpiValues (y :: t₀ :: t₁ :: l₀ :: l₁ :: (data ++ tail)) =
      acpiValueFrom (leWord16 [t₀, t₁]) data :: vs) :
    l₀ = l₁ ∧ (l₁ :: (data ++ tail)).take data.length = data ∧
      parseAcpiValues ((l₁ :: (data ++ tail)).drop data.length) = vs := by
  rw [parseAcpiValues_cons] at hread
  split at hread
  next hfits =>
    obtain ⟨hvalue, hrest⟩ := List.cons_eq_cons.mp hread
    have hbuffer := isBufferType_of_shifted hy hvalue
    rw [acpiValueFrom_buffer hbuffer] at hvalue
    have hbuffer' : IsBufferType (leWord16 [y, t₀]) := by
      rw [← isBuffer_acpiValueFrom, hvalue]
      rfl
    rw [acpiValueFrom_buffer hbuffer'] at hvalue
    have hbody := AcpiValue.buffer.inj hvalue
    have hsame : (leWord16 [t₁, l₀]).toNat = data.length := by
      rw [← hbody, List.length_take, Nat.min_eq_left hfits]
    have ht₁ := t₁.toNat_lt
    have hl₀ := l₀.toNat_lt
    have hl₁ := l₁.toNat_lt
    have hbytes : l₀ = l₁ := by
      apply UInt8.toNat_inj.mp
      rw [toNat_leWord16] at hsame hlength
      omega
    rw [hsame] at hbody hrest
    exact ⟨hbytes, hbody, hrest⟩
  next hoverrun =>
    have hmalformed := isMalformed_acpiValueFrom (leWord16 [t₀, t₁]) data
    rw [← (List.cons_eq_cons.mp hread).1] at hmalformed
    cases hmalformed

theorem eq_head_of_cons_eq_snoc {α : Type} {x w : α} {l : List α} (h : x :: l = l ++ [w]) :
    w = x := by
  induction l generalizing x with
  | nil =>
    cases h
    rfl
  | cons a l ih =>
    rw [List.cons_append] at h
    obtain ⟨rfl, hl⟩ := List.cons_eq_cons.mp h
    exact ih hl

/-- A list that is unchanged by an element in front repeats it, so that it comes last too. -/
theorem drop_length_cons {α : Type} {x : α} {l : List α} (htaken : (x :: l).take l.length = l) :
    (x :: l).drop l.length = [x] := by
  obtain ⟨w, hw⟩ : ∃ w, (x :: l).drop l.length = [w] := by
    apply List.length_eq_one_iff.mp
    simp
  have hsnoc : x :: l = l ++ [w] := by
    rw [← hw]
    nth_rewrite 2 [← htaken]
    exact (List.take_append_drop _ _).symm
  rw [hw, eq_head_of_cons_eq_snoc hsnoc]

/-- What is read when a byte other than 0 comes first: never the values, for some padding. -/
theorem exists_misread (args : List (UInt16 × Bytes)) :
    (∀ a ∈ args, a.2.length < 2 ^ 16) → ∀ y : UInt8, y ≠ 0 →
      ∃ slots : List Slot, slots.map Slot.content = args ∧
        parseAcpiValues (y :: slotBytes slots) ≠ values args := by
  induction args with
  | nil => exact fun _ y _ => ⟨[], rfl, parseAcpiValues_ne_nil (List.cons_ne_nil _ _)⟩
  | cons a args ih =>
    intro short y hy
    obtain ⟨type_, data⟩ := a
    have hshort : data.length < 2 ^ 16 := short (type_, data) List.mem_cons_self
    have hrest : ∀ b ∈ args, b.2.length < 2 ^ 16 := fun b hb => short b (List.mem_cons_of_mem _ hb)
    by_contra hall
    push Not at hall
    let t₀ := UInt8.ofNat type_.toNat
    let t₁ := UInt8.ofNat (type_.toNat / 2 ^ 8)
    let l₀ := UInt8.ofNat (UInt16.ofNat data.length).toNat
    let l₁ := UInt8.ofNat ((UInt16.ofNat data.length).toNat / 2 ^ 8)
    have htag : leWord16 [t₀, t₁] = type_ := leWord16_leBytes16 type_ []
    have hfield : leWord16 [l₀, l₁] = UInt16.ofNat data.length :=
      leWord16_leBytes16 (UInt16.ofNat data.length) []
    have hlength : data.length = (leWord16 [l₀, l₁]).toNat := by
      rw [hfield, UInt16.toNat_ofNat', Nat.mod_eq_of_lt hshort]
    -- every padding of this slot and every encoding of the rest is read right
    have hread : ∀ pad : Bytes, pad.length = 4 - data.length → ∀ slots : List Slot,
        slots.map Slot.content = args →
        l₀ = l₁ ∧ (l₁ :: (data ++ (pad ++ slotBytes slots))).take data.length = data ∧
          parseAcpiValues ((l₁ :: (data ++ (pad ++ slotBytes slots))).drop data.length) =
            values args := by
      intro pad hpad slots hslots
      have hslot := hall (⟨type_, data, pad, hshort, hpad⟩ :: slots)
        (by rw [List.map_cons, hslots]; rfl)
      apply shifted_slot hy hlength
      rw [htag]
      rw [slotBytes_cons, Slot.bytes, List.append_assoc, List.append_assoc,
        List.append_assoc] at hslot
      exact hslot
    by_cases hl₁ : l₁ = 0
    · -- the argument is empty and its padding is read as the next header
      have hempty : data = [] := by
        have hl₀ : l₀ = 0 := (hread (List.replicate (4 - data.length) 0) List.length_replicate _
          (content_zeroSlots args hrest)).1.trans hl₁
        apply List.eq_nil_of_length_eq_zero
        rw [hlength, hl₀, hl₁]
        rfl
      have hinteger := (hread [0, 0, 0, 0] (by rw [hempty]; rfl) _
        (content_zeroSlots args hrest)).2.2
      have hbuffer := (hread [1, 0, 0, 0] (by rw [hempty]; rfl) _
        (content_zeroSlots args hrest)).2.2
      rw [hl₁, hempty] at hinteger hbuffer
      exact headers_differ (isBufferType_of_five_le (by decide)) hinteger hbuffer
    · -- the data repeats the byte, which then comes first again
      have hlong : 4 ≤ data.length := by
        have hl₀ := (hread (List.replicate (4 - data.length) 0) List.length_replicate _
          (content_zeroSlots args hrest)).1
        have hpos : l₁.toNat ≠ 0 := fun h => hl₁ (UInt8.toNat_inj.mp h)
        rw [hlength, hl₀, toNat_leWord16]
        omega
      obtain ⟨slots, hslots, hmisread⟩ := ih hrest l₁ hl₁
      obtain ⟨-, htake, hdrop⟩ := hread [] (by rw [List.length_nil]; omega) slots hslots
      have hsplit : l₁ :: (data ++ ([] ++ slotBytes slots)) = (l₁ :: data) ++ slotBytes slots := rfl
      have htaken : (l₁ :: data).take data.length = data := by
        rw [hsplit, List.take_append_of_le_length (by simp)] at htake
        exact htake
      rw [hsplit, List.drop_append_of_le_length (by simp), drop_length_cons htaken] at hdrop
      exact hmisread hdrop

/-- Padding of two bytes and more is a type tag of its own. -/
theorem exists_misread_tag (args : List (UInt16 × Bytes)) (short : ∀ a ∈ args, a.2.length < 2 ^ 16)
    (n : ℕ) : ∃ pad : Bytes, pad.length = n + 2 ∧
      parseAcpiValues (pad ++ slotBytes (zeroSlots args short)) ≠ values args := by
  cases args with
  | nil =>
    refine ⟨List.replicate (n + 2) 0, List.length_replicate, ?_⟩
    exact parseAcpiValues_ne_nil (by simp [List.replicate_succ])
  | cons a args =>
    by_contra hall
    push Not at hall
    let slots := zeroSlots (a :: args) short
    have hroom : 2 ≤ (List.replicate n 0 ++ slotBytes slots).length := by
      have hslots := length_slots_le slots
      have hone : 1 ≤ slots.length := by simp [slots, zeroSlots]
      rw [List.length_append]
      omega
    obtain ⟨l₀, l₁, tail, htail⟩ : ∃ l₀ l₁ tail,
        List.replicate n 0 ++ slotBytes slots = l₀ :: l₁ :: tail := by
      rcases hbytes : List.replicate n 0 ++ slotBytes slots with _ | ⟨l₀, _ | ⟨l₁, tail⟩⟩
      · simp [hbytes] at hroom
      · simp [hbytes] at hroom
      · exact ⟨l₀, l₁, tail, rfl⟩
    have hread : ∀ t₀ : UInt8,
        parseAcpiValues (t₀ :: 0 :: l₀ :: l₁ :: tail) = values (a :: args) := by
      intro t₀
      rw [← htail]
      exact hall (t₀ :: 0 :: List.replicate n 0) (by simp)
    exact headers_differ isBufferType_two (hread 0) (hread 2)

/-- An argument with short data has padding that is read as an argument. -/
theorem exists_misread_padding {data : Bytes} (hdata : data.length < 4)
    (args : List (UInt16 × Bytes)) (short : ∀ a ∈ args, a.2.length < 2 ^ 16) :
    ∃ (pad : Bytes) (slots : List Slot), pad.length = 4 - data.length ∧
      slots.map Slot.content = args ∧ parseAcpiValues (pad ++ slotBytes slots) ≠ values args := by
  by_cases hthree : data.length = 3
  · obtain ⟨slots, hslots, hmisread⟩ := exists_misread args short 1 (by decide)
    exact ⟨[1], slots, by rw [hthree]; rfl, hslots, hmisread⟩
  · obtain ⟨pad, hpad, hmisread⟩ := exists_misread_tag args short (2 - data.length)
    exact ⟨pad, zeroSlots args short, by omega, content_zeroSlots args short, hmisread⟩

/-- The first argument fills its slot, and the others are read right. -/
theorem readsEncodings_cons {a : UInt16 × Bytes} {args : List (UInt16 × Bytes)}
    (short : ∀ b ∈ a :: args, b.2.length < 2 ^ 16) (hreads : ReadsEncodings (a :: args)) :
    4 ≤ a.2.length ∧ ReadsEncodings args := by
  have hshort := short a List.mem_cons_self
  have hread : ∀ pad : Bytes, pad.length = 4 - a.2.length → ∀ slots : List Slot,
      slots.map Slot.content = args → parseAcpiValues (pad ++ slotBytes slots) = values args := by
    intro pad hpad slots hslots
    have hslot := (hreads (⟨a.1, a.2, pad, hshort, hpad⟩ :: slots)
      (by rw [List.map_cons, hslots]; rfl)).1
    rw [slotBytes_cons, parseAcpiValues_slot] at hslot
    exact (List.cons_eq_cons.mp hslot).2
  have hfills : 4 ≤ a.2.length := by
    by_contra hdata
    obtain ⟨pad, slots, hpad, hslots, hmisread⟩ := exists_misread_padding (not_le.mp hdata) args
      fun b hb => short b (List.mem_cons_of_mem a hb)
    exact hmisread (hread pad hpad slots hslots)
  refine ⟨hfills, ?_⟩
  intro slots hslots
  have hvalues := hread [] (by rw [List.length_nil]; omega) slots hslots
  rw [List.nil_append] at hvalues
  refine ⟨hvalues, ?_⟩
  intro v hv
  rw [hvalues] at hv
  exact not_isMalformed_of_mem_values hv

/-- Packages and top-level arguments read alike exactly when no argument has short data. -/
theorem package_grammar_agrees_iff (args : List (UInt16 × Bytes))
    (short : ∀ a ∈ args, a.2.length < 2 ^ 16) :
    ReadsEncodings args ↔ ∀ a ∈ args, 4 ≤ a.2.length := by
  constructor
  · intro hreads
    induction args with
    | nil => nofun
    | cons a args ih =>
      obtain ⟨hfills, hrest⟩ := readsEncodings_cons short hreads
      rw [List.forall_mem_cons]
      exact ⟨hfills, ih (fun b hb => short b (List.mem_cons_of_mem a hb)) hrest⟩
  · rintro hfills slots rfl
    have hvalues := parseAcpiValues_filled slots fun s hs => hfills _ (List.mem_map_of_mem hs)
    refine ⟨hvalues, ?_⟩
    intro v hv
    rw [hvalues] at hv
    exact not_isMalformed_of_mem_values hv

theorem package_grammar_agrees_dwords :
    ReadsEncodings [(0, leBytes 45), (2, [1, 2, 3, 4, 5])] :=
  (package_grammar_agrees_iff [(0, leBytes 45), (2, [1, 2, 3, 4, 5])] (by decide)).mpr (by decide)

/-- A buffer of one byte, and behind it the integer 45: the padding is read as a tag. -/
theorem one_byte_buffer_misread :
    parseAcpiValues (slotBytes (zeroSlots [(2, [42]), (0, leBytes 45)] (by decide))) =
      [.buffer [42], .integer 0, .malformed [0, 4, 0, 45, 0, 0, 0]] ∧
    ¬ ReadsEncodings [(2, [42]), (0, leBytes 45)] := by
  constructor
  · have hbytes : slotBytes (zeroSlots [(2, [42]), (0, leBytes 45)] (by decide)) =
        2 :: 0 :: 1 :: 0 :: 42 :: 0 :: 0 :: 0 :: 0 :: 0 :: 4 :: 0 :: 45 :: 0 :: 0 :: [0] := rfl
    have hbuffer : IsBufferType (leWord16 [2, 0]) := isBufferType_two
    have htail : splitArgument [0, 4, 0, 45, 0, 0, 0] = none := rfl
    rw [hbytes, parseAcpiValues_cons, if_pos (by decide), acpiValueFrom_buffer hbuffer]
    change _ :: parseAcpiValues (0 :: 0 :: 0 :: 0 :: [0, 4, 0, 45, 0, 0, 0]) = _
    rw [parseAcpiValues_cons, if_pos (by decide)]
    change _ :: acpiValueFrom 0 [] :: parseAcpiValues [0, 4, 0, 45, 0, 0, 0] = _
    rw [acpiValueFrom_integer, parseAcpiValues_of_none (by simp) htail]
    rfl
  · intro hreads
    have hfirst := (readsEncodings_cons (by decide) hreads).1
    exact absurd hfirst (by decide)

end AcpiPackageGrammar
