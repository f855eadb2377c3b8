import Mathlib.Algebra.Order.BigOperators.Group.List
import OdpPlatform.AcpiValues

/-! # Packages: every byte is accounted for

The loop as the source runs it, on an offset. It ends, and it makes of the bytes items one after
the other and one remainder at most, in a nested package as at the top. -/
namespace AcpiPackageAccounting

open ByteBuffer AcpiMethodBuffers AcpiValues

/-- `bytes.get(i..j)` -/
def get (bytes : Bytes) (i j : ℕ) : Option Bytes :=
  if i ≤ j ∧ j ≤ bytes.length then some (window bytes i (j - i)) else none

def itemAt (bytes : Bytes) (offset : ℕ) : Option (Bytes × Bytes) :=
  (get bytes offset (offset + 4)).bind fun header =>
    let dataLength := (leWord16 (header.drop 2)).toNat
    (get bytes (offset + 4) (offset + 4 + dataLength)).map fun body => (header, body)

/-- `acpi_value_from`; `parse` reads a nested package. -/
def valueWithin (parse : Bytes → Option (List AcpiValue)) (type_ : UInt16) (data : Bytes) :
    Option AcpiValue :=
  match AcpiArgumentType.tryFrom type_ with
  | some .integer => some (.integer (leWord (padTo 4 0 (data.take 4))))
  | some .string => some (.string (trimEndNul (fromUtf8Lossy data)))
  | some .package | some .packageEx => (parse data).map .package
  | _ => some (.buffer data)

/-- `parse_acpi_values` from an offset on; `none` when the fuel does not suffice. -/
def parseWithin : ℕ → Bytes → ℕ → Option (List AcpiValue)
  | 0, _, _ => none
  | fuel + 1, bytes, offset =>
    if offset < bytes.length then
      match itemAt bytes offset with
      | none => some [.malformed (bytes.drop offset)]
      | some (header, body) =>
        (valueWithin (fun data => parseWithin fuel data 0) (leWord16 header) body).bind fun value =>
          (parseWithin fuel bytes (offset + 4 + body.length)).map fun values => value :: values
    else some []

theorem valueWithin_eq {parse : Bytes → Option (List AcpiValue)} {data : Bytes}
    (hparse : parse data = some (parseAcpiValues data)) (type_ : UInt16) :
    valueWithin parse type_ data = some (acpiValueFrom type_ data) := by
  rw [valueWithin, acpiValueFrom]
  cases AcpiArgumentType.tryFrom type_ with
  | none => rfl
  | some t =>
    cases t with
    | integer => rfl
    | string => rfl
    | buffer => rfl
    | package =>
      simp only [hparse]
      rfl
    | packageEx =>
      simp only [hparse]
      rfl

/-- The slices at an offset and the split of what lies there. -/
theorem splitArgument_drop (bytes : Bytes) (offset : ℕ) :
    splitArgument (bytes.drop offset) = (itemAt bytes offset).map fun item =>
      (leWord16 item.1, item.2, bytes.drop (offset + 4 + item.2.length)) := by
  by_cases hheader : offset + 4 ≤ bytes.length
  · have hlength : (bytes.drop offset).length = bytes.length - offset := List.length_drop
    match hdrop : bytes.drop offset with
    | t₀ :: t₁ :: l₀ :: l₁ :: tail =>
      have hwindow : window bytes offset 4 = [t₀, t₁, l₀, l₁] := by
        rw [window, hdrop]
        rfl
      have htail : bytes.drop (offset + 4) = tail := by
        rw [← List.drop_drop, hdrop]
        rfl
      have hsize : tail.length = bytes.length - (offset + 4) := by
        rw [← htail, List.length_drop]
      have hget : get bytes offset (offset + 4) = some [t₀, t₁, l₀, l₁] := by
        rw [get, if_pos ⟨Nat.le_add_right _ _, hheader⟩, Nat.add_sub_cancel_left, hwindow]
      rw [itemAt, hget, splitArgument]
      simp only [Option.bind_some, List.drop_succ_cons, List.drop_zero]
      by_cases hbody : (leWord16 [l₀, l₁]).toNat ≤ tail.length
      · have htaken : (tail.take (leWord16 [l₀, l₁]).toNat).length = (leWord16 [l₀, l₁]).toNat :=
          List.length_take_of_le hbody
        rw [if_pos hbody, get, if_pos ⟨Nat.le_add_right _ _, by omega⟩, Nat.add_sub_cancel_left,
          window, htail, Option.map_some, Option.map_some, htaken, ← List.drop_drop, htail]
        rfl
      · rw [if_neg hbody, get, if_neg (by omega)]
        rfl
    | [] => simp only [hdrop, List.length_nil] at hlength; omega
    | [_] => simp only [hdrop, List.length_cons, List.length_nil] at hlength; omega
    | [_, _] => simp only [hdrop, List.length_cons, List.length_nil] at hlength; omega
    | [_, _, _] => simp only [hdrop, List.length_cons, List.length_nil] at hlength; omega
  · have hget : get bytes offset (offset + 4) = none := if_neg fun h => hheader h.2
    have hlength : (bytes.drop offset).length < 4 := by
      rw [List.length_drop]
      omega
    rw [itemAt, hget]
    match hdrop : bytes.drop offset with
    | t₀ :: t₁ :: l₀ :: l₁ :: tail =>
      simp only [hdrop, List.length_cons] at hlength
      omega
    | [] => rfl
    | [_] => rfl
    | [_, _] => rfl
    | [_, _, _] => rfl

/-- Each item takes four bytes at least, and so does each level of nesting. -/
theorem parseWithin_eq (fuel : ℕ) :
    ∀ (bytes : Bytes) (offset : ℕ), (bytes.length - offset) / 4 < fuel →
      parseWithin fuel bytes offset = some (parseAcpiValues (bytes.drop offset)) := by
  induction fuel with
  | zero => exact fun _ _ h => absurd h (Nat.not_lt_zero _)
  | succ fuel ih =>
    intro bytes offset hfuel
    rw [parseWithin]
    by_cases hoffset : offset < bytes.length
    · have hne : bytes.drop offset ≠ [] := List.drop_eq_nil_iff.not.mpr (Nat.not_le.mpr hoffset)
      have hsplit := splitArgument_drop bytes offset
      rw [if_pos hoffset]
      cases hitem : itemAt bytes offset with
      | none =>
        rw [hitem] at hsplit
        rw [parseAcpiValues_of_none hne hsplit]
      | some item =>
        rw [hitem] at hsplit
        have hlength := length_of_splitArgument hsplit
        rw [List.length_drop, List.length_drop] at hlength
        have hbody := ih item.2 0 (by omega)
        have hrest := ih bytes (offset + 4 + item.2.length) (by omega)
        rw [List.drop_zero] at hbody
        have hvalue : valueWithin (fun data => parseWithin fuel data 0) (leWord16 item.1) item.2 =
            some (acpiValueFrom (leWord16 item.1) item.2) := valueWithin_eq hbody _
        rw [parseAcpiValues_of_some hsplit]
        simp only [hvalue, hrest]
        rfl
    · rw [if_neg hoffset, List.drop_eq_nil_of_le (Nat.not_lt.mp hoffset), parseAcpiValues_nil]

/-- A header and the body it declares. -/
structure Item where
  type_ : UInt16
  body : Bytes
  short : body.length < 2 ^ 16

namespace Item

def bytes (i : Item) : Bytes :=
  leBytes16 i.type_ ++ (leBytes16 (UInt16.ofNat i.body.length) ++ i.body)

def size (i : Item) : ℕ := 4 + i.body.length

def value (i : Item) : AcpiValue := acpiValueFrom i.type_ i.body

def IsPackage (i : Item) : Prop :=
  AcpiArgumentType.tryFrom i.type_ = some .package ∨
    AcpiArgumentType.tryFrom i.type_ = some .packageEx

theorem length_bytes (i : Item) : i.bytes.length = i.size := by
  simp only [bytes, size, List.length_append, length_leBytes16]
  omega

theorem value_package {i : Item} (h : i.IsPackage) :
    i.value = .package (parseAcpiValues i.body) := by
  rw [value, acpiValueFrom]
  cases h with
  | inl hpackage => rw [hpackage]
  | inr hpackageEx => rw [hpackageEx]

/-- An item in front is split off. -/
theorem splitArgument_bytes (i : Item) (rest : Bytes) :
    splitArgument (i.bytes ++ rest) = some (i.type_, i.body, rest) := by
  have hshort := i.short
  have hlength : (UInt16.ofNat i.body.length).toNat = i.body.length := by
    rw [UInt16.toNat_ofNat', Nat.mod_eq_of_lt hshort]
  have hfits : i.body.length ≤ (i.body ++ rest).length := by
    rw [List.length_append]
    exact Nat.le_add_right _ _
  rw [bytes, List.append_assoc, List.append_assoc, splitArgument_header, hlength, if_pos hfits,
    List.take_left' rfl, List.drop_left' rfl]

theorem parseAcpiValues_bytes (i : Item) (rest : Bytes) :
    parseAcpiValues (i.bytes ++ rest) = i.value :: parseAcpiValues rest :=
  parseAcpiValues_of_some (i.splitArgument_bytes rest)

end Item

/-- What is split off is an item. -/
theorem exists_item {bytes body rest : Bytes} {type_ : UInt16}
    (h : splitArgument bytes = some (type_, body, rest)) :
    ∃ i : Item, bytes = i.bytes ++ rest := by
  match bytes with
  | t₀ :: t₁ :: l₀ :: l₁ :: tail =>
    rw [splitArgument] at h
    by_cases hfits : (leWord16 [l₀, l₁]).toNat ≤ tail.length
    · rw [if_pos hfits] at h
      cases h
      have hlength : (tail.take (leWord16 [l₀, l₁]).toNat).length = (leWord16 [l₀, l₁]).toNat :=
        List.length_take_of_le hfits
      have hshort := (leWord16 [l₀, l₁]).toNat_lt
      refine ⟨⟨leWord16 [t₀, t₁], tail.take (leWord16 [l₀, l₁]).toNat, by omega⟩, ?_⟩
      have hfield : UInt16.ofNat (leWord16 [l₀, l₁]).toNat = leWord16 [l₀, l₁] :=
        UInt16.ofNat_toNat
      have htype : leBytes16 (leWord16 [t₀, t₁]) = [t₀, t₁] := leBytes16_leWord16 rfl
      have hsize : leBytes16 (leWord16 [l₀, l₁]) = [l₀, l₁] := leBytes16_leWord16 rfl
      change _ = leBytes16 (leWord16 [t₀, t₁]) ++
        (leBytes16 (UInt16.ofNat (tail.take _).length) ++ tail.take _) ++ tail.drop _
      rw [hlength, hfield, htype, hsize, List.append_assoc, List.append_assoc,
        List.take_append_drop]
      rfl
    · rw [if_neg hfits] at h
      cases h

/-- Too short for a header, or for the length that the header declares. -/
def TooShort (bytes : Bytes) : Prop :=
  bytes.length < 4 ∨ bytes.length < 4 + (leWord16 (bytes.drop 2)).toNat

theorem splitArgument_eq_none_iff (bytes : Bytes) :
    splitArgument bytes = none ↔ TooShort bytes := by
  unfold TooShort
  match bytes with
  | t₀ :: t₁ :: l₀ :: l₁ :: tail =>
    have hword : (leWord16 ((t₀ :: t₁ :: l₀ :: l₁ :: tail).drop 2)).toNat =
        (leWord16 [l₀, l₁]).toNat := rfl
    rw [splitArgument, hword]
    simp only [List.length_cons]
    by_cases hfits : (leWord16 [l₀, l₁]).toNat ≤ tail.length
    · rw [if_pos hfits]
      constructor
      · intro h
        cases h
      · intro h
        omega
    · rw [if_neg hfits]
      constructor
      · intro _
        omega
      · intro _
        rfl
  | [] => simp [splitArgument]
  | [_] => simp [splitArgument]
  | [_, _] => simp [splitArgument]
  | [_, _, _] => simp [splitArgument]

theorem Item.not_tooShort (i : Item) (rest : Bytes) : ¬TooShort (i.bytes ++ rest) := by
  intro h
  have hnone := (splitArgument_eq_none_iff _).mpr h
  rw [i.splitArgument_bytes rest] at hnone
  cases hnone

/-- Items one after the other, and what is too short for another one. -/
structure Split (bytes : Bytes) (items : List Item) (tail : Bytes) : Prop where
  joined : items.flatMap Item.bytes ++ tail = bytes
  ended : tail ≠ [] → TooShort tail

/-- The data that is read `level` packages deep. -/
inductive Nested (bytes : Bytes) : ℕ → Bytes → Prop where
  | top : Nested bytes 0 bytes
  | package {level : ℕ} {data tail : Bytes} {items : List Item} {i : Item} :
      Nested bytes level data → Split data items tail → i ∈ items → i.IsPackage →
        Nested bytes (level + 1) i.body

def remainder (tail : Bytes) : List AcpiValue := if tail = [] then [] else [.malformed tail]

structure Accounted (bytes : Bytes) (values : List AcpiValue) (items : List Item) (tail : Bytes) :
    Prop where
  split : Split bytes items tail
  sizes : (items.map Item.size).sum + tail.length = bytes.length
  values_eq : values = items.map Item.value ++ remainder tail
  sound : ∀ v ∈ items.map Item.value, v.isMalformed = false
  packages : ∀ i ∈ items, i.IsPackage → i.value = .package (parseAcpiValues i.body)
  malformed_iff : (∃ v ∈ values, v.isMalformed = true) ↔ tail ≠ [] ∧ TooShort tail
  /-- The parser goes on exactly as long as another item is there. -/
  stops : ∀ front back, items = front ++ back → back.flatMap Item.bytes ++ tail ≠ [] →
    (back = [] ↔ TooShort (back.flatMap Item.bytes ++ tail))

theorem exists_split (n : ℕ) :
    ∀ bytes : Bytes, bytes.length ≤ n → ∃ items tail, Split bytes items tail := by
  induction n with
  | zero =>
    intro bytes hlength
    have hnil := List.eq_nil_of_length_eq_zero (Nat.le_zero.mp hlength)
    exact ⟨[], [], hnil.symm, fun h => absurd rfl h⟩
  | succ n ih =>
    intro bytes hlength
    cases hsplit : splitArgument bytes with
    | none => exact ⟨[], bytes, rfl, fun _ => (splitArgument_eq_none_iff bytes).mp hsplit⟩
    | some x =>
      obtain ⟨type_, body, rest⟩ := x
      have hshrink := length_of_splitArgument hsplit
      obtain ⟨i, hi⟩ := exists_item hsplit
      obtain ⟨items, tail, hjoined, hended⟩ := ih rest (by omega)
      refine ⟨i :: items, tail, ?_, hended⟩
      rw [List.flatMap_cons, List.append_assoc, hjoined, hi]

theorem parseAcpiValues_tail {tail : Bytes} (hended : tail ≠ [] → TooShort tail) :
    parseAcpiValues tail = remainder tail := by
  by_cases htail : tail = []
  · rw [htail]
    exact parseAcpiValues_nil
  · have hnone := (splitArgument_eq_none_iff tail).mpr (hended htail)
    rw [parseAcpiValues_of_none htail hnone, remainder, if_neg htail]

theorem parseAcpiValues_items (items : List Item) (tail : Bytes) :
    parseAcpiValues (items.flatMap Item.bytes ++ tail) =
      items.map Item.value ++ parseAcpiValues tail := by
  induction items with
  | nil => rfl
  | cons i items ih =>
    rw [List.flatMap_cons, List.append_assoc, i.parseAcpiValues_bytes, ih]
    rfl

theorem length_flatMap_bytes (items : List Item) :
    (items.flatMap Item.bytes).length = (items.map Item.size).sum := by
  rw [List.length_flatMap]
  exact congrArg List.sum (List.map_congr_left fun i _ => i.length_bytes)

theorem Split.accounted {bytes tail : Bytes} {items : List Item} (h : Split bytes items tail) :
    Accounted bytes (parseAcpiValues bytes) items tail := by
  have hvalues : parseAcpiValues bytes = items.map Item.value ++ remainder tail := by
    rw [← h.joined, parseAcpiValues_items, parseAcpiValues_tail h.ended]
  have hsound : ∀ v ∈ items.map Item.value, v.isMalformed = false :=
    List.forall_mem_map.mpr fun i _ => isMalformed_acpiValueFrom i.type_ i.body
  refine ⟨h, ?_, hvalues, hsound, fun i _ hpackage => Item.value_package hpackage, ?_, ?_⟩
  · rw [← length_flatMap_bytes, ← List.length_append, h.joined]
  · rw [hvalues]
    constructor
    · intro ⟨v, hv, hmalformed⟩
      by_cases htail : tail = []
      · rw [remainder, if_pos htail, List.append_nil] at hv
        rw [hsound v hv] at hmalformed
        cases hmalformed
      · exact ⟨htail, h.ended htail⟩
    · intro ⟨htail, _⟩
      rw [remainder, if_neg htail]
      exact ⟨.malformed tail, List.mem_append_right _ (List.mem_singleton_self _), rfl⟩
  · intro front back _ hne
    cases back with
    | nil => exact ⟨fun _ => h.ended hne, fun _ => rfl⟩
    | cons i back =>
      rw [List.flatMap_cons, List.append_assoc]
      constructor
      · intro heq
        cases heq
      · intro hshort
        exact absurd hshort (i.not_tooShort _)

/-- A level deeper, the data is four bytes shorter at least. -/
theorem Nested.length_le {bytes data : Bytes} {level : ℕ} (h : Nested bytes level data) :
    4 * level + data.length ≤ bytes.length := by
  induction h with
  | top => exact Nat.le_of_eq (Nat.zero_add _)
  | @package level data tail items i _ hsplit hi _ ih =>
    have hsizes := hsplit.accounted.sizes
    have hmem : i.size ≤ (items.map Item.size).sum := List.le_sum_of_mem (List.mem_map_of_mem hi)
    rw [Item.size] at hmem
    omega

/-- The loop ends, and the accounts of every level balance. -/
theorem parse_accounts_for_every_byte (bytes : Bytes) :
    (∀ fuel, bytes.length / 4 < fuel →
      parseWithin fuel bytes 0 = some (parseAcpiValues bytes)) ∧
    ∀ level data, Nested bytes level data → 4 * level + data.length ≤ bytes.length ∧
      ∃ items tail, Accounted data (parseAcpiValues data) items tail := by
  constructor
  · intro fuel hfuel
    exact parseWithin_eq fuel bytes 0 hfuel
  · intro level data hnested
    obtain ⟨items, tail, hsplit⟩ := exists_split data.length data (Nat.le_refl _)
    exact ⟨hnested.length_le, items, tail, hsplit.accounted⟩

end AcpiPackageAccounting
