import OdpPlatform.AcpiMethodBuffers

/-! # The ACPI_METHOD_ARGUMENT layout

A slot is a four-byte header and at least four bytes of data. The response parser accepts the
framed sequences of slots and nothing else. -/
namespace AcpiOutputFormat

open ByteBuffer AcpiMethodBuffers

/-- An argument on the wire: data of fewer than four bytes is padded to four. -/
structure Slot where
  type_ : UInt16
  data : Bytes
  pad : Bytes
  short : data.length < 2 ^ 16
  padded : pad.length = 4 - data.length

namespace Slot

def bytes (s : Slot) : Bytes :=
  leBytes16 s.type_ ++ (leBytes16 (UInt16.ofNat s.data.length) ++ (s.data ++ s.pad))

def argument (s : Slot) : AcpiMethodArgumentV1 where
  type_ := s.type_
  dataLength := UInt16.ofNat s.data.length
  data32 := if s.type_ = 0 then leWord (s.data ++ s.pad) else 0
  data := s.data

def content (s : Slot) : UInt16 × Bytes := (s.type_, s.data)

variable (s : Slot)

theorem toNat_dataLength : (UInt16.ofNat s.data.length).toNat = s.data.length := by
  have hshort := s.short
  rw [UInt16.toNat_ofNat']
  omega

theorem length_bytes : s.bytes.length = 4 + max s.data.length 4 := by
  have hpadded := s.padded
  simp only [bytes, List.length_append, length_leBytes16, hpadded]
  omega

theorem window_type (rest : Bytes) : leWord16 (window (s.bytes ++ rest) 0 2) = s.type_ := by
  have hwindow : window (s.bytes ++ rest) 0 2 = leBytes16 s.type_ ++ [] := by
    rw [bytes, List.append_assoc, List.append_nil, window, List.drop_zero,
      List.take_left' (length_leBytes16 _)]
  rw [hwindow, leWord16_leBytes16]

theorem window_length (rest : Bytes) :
    leWord16 (window (s.bytes ++ rest) 2 2) = UInt16.ofNat s.data.length := by
  have hwindow : window (s.bytes ++ rest) 2 2 = leBytes16 (UInt16.ofNat s.data.length) ++ [] := by
    rw [bytes, List.append_assoc, List.append_assoc, List.append_nil, window,
      List.drop_left' (length_leBytes16 _), List.take_left' (length_leBytes16 _)]
  rw [hwindow, leWord16_leBytes16]

theorem drop_header (rest : Bytes) :
    (s.bytes ++ rest).drop 4 = s.data ++ s.pad ++ rest := by
  rw [show 4 = 2 + 2 from rfl, ← List.drop_drop, bytes, List.append_assoc,
    List.drop_left' (length_leBytes16 _), List.append_assoc, List.drop_left' (length_leBytes16 _)]

theorem window_data (rest : Bytes) :
    window (s.bytes ++ rest) 4 s.data.length = s.data := by
  rw [window, drop_header, List.append_assoc, List.take_left' rfl]

theorem window_slot (rest : Bytes) :
    leWord (window (s.bytes ++ rest) 4 4) = leWord (s.data ++ s.pad) := by
  have hlength : 4 ≤ (s.data ++ s.pad).length := by
    have hpadded := s.padded
    rw [List.length_append]
    omega
  rw [window, drop_header, List.take_append_of_le_length hlength]
  exact leWord_window (s.data ++ s.pad) 0

end Slot

theorem slice_eq {value : Bytes} {i n : ℕ} (hn : i + n ≤ value.length) :
    slice value i (i + n) = pure (window value i n) := by
  rw [slice, if_pos ⟨Nat.le_add_right i n, hn⟩, Nat.add_sub_cancel_left]

/-- The checks of one round leave no index out of range. -/
theorem run_parseArgument (value : Bytes) (offset : ℕ) :
    (parseArgument value offset).run =
      if offset + 8 > value.length then some (.error .insufficientLength)
      else
        let type_ := leWord16 (window value offset 2)
        let dataLength := leWord16 (window value (offset + 2) 2)
        if offset + 4 + dataLength.toNat > value.length then some (.error .insufficientLength)
        else
          some (.ok (⟨type_, dataLength,
            if type_ = 0 then leWord (window value (offset + 4) 4) else 0,
            window value (offset + 4) dataLength.toNat⟩, offset + 4 + max dataLength.toNat 4)) := by
  rw [parseArgument]
  by_cases hroom : offset + 8 > value.length
  · rw [if_pos hroom, if_pos hroom]
    rfl
  · have htype : slice value offset (offset + 2) = pure (window value offset 2) :=
      slice_eq (by omega)
    have hlength : slice value (offset + 2) (offset + 4) = pure (window value (offset + 2) 2) :=
      slice_eq (i := offset + 2) (n := 2) (by omega)
    have hdword : slice value (offset + 4) (offset + 8) = pure (window value (offset + 4) 4) :=
      slice_eq (i := offset + 4) (n := 4) (by omega)
    rw [if_neg hroom, if_neg hroom, htype, hlength, hdword]
    simp only [map_pure, pure_bind]
    by_cases hfits : offset + 4 + (leWord16 (window value (offset + 2) 2)).toNat > value.length
    · rw [if_pos hfits]
      split
      · rfl
      · rfl
    · rw [if_neg hfits, slice_eq (by omega)]
      split
      · rfl
      · rfl

theorem run_parseArgument_slot (pre : Bytes) (s : Slot) (rest : Bytes) :
    (parseArgument (pre ++ (s.bytes ++ rest)) pre.length).run =
      some (.ok (s.argument, pre.length + s.bytes.length)) := by
  have hsize := s.length_bytes
  have hlength := s.toNat_dataLength
  have hwindow : ∀ o n, window (pre ++ (s.bytes ++ rest)) (pre.length + o) n =
      window (s.bytes ++ rest) o n := window_append_right pre (s.bytes ++ rest)
  have htype : window (pre ++ (s.bytes ++ rest)) pre.length 2 = window (s.bytes ++ rest) 0 2 :=
    hwindow 0 2
  have htotal : (pre ++ (s.bytes ++ rest)).length =
      pre.length + (4 + max s.data.length 4) + rest.length := by
    rw [List.length_append, List.length_append, hsize]
    omega
  rw [run_parseArgument, if_neg (by omega)]
  simp only [htype, hwindow, s.window_type, s.window_length, s.window_slot, hlength]
  rw [if_neg (by omega), s.window_data, hsize]
  simp only [Slot.argument, Nat.add_assoc]

/-- What is read as an argument is a slot. -/
theorem slot_of_parseArgument {value : Bytes} {offset offset' : ℕ} {a : AcpiMethodArgumentV1}
    (hparse : (parseArgument value offset).run = some (.ok (a, offset'))) :
    ∃ s : Slot, a = s.argument ∧ offset' = offset + s.bytes.length ∧
      value.drop offset = s.bytes ++ value.drop offset' := by
  rw [run_parseArgument] at hparse
  split at hparse
  · cases hparse
  next hroom =>
    obtain ⟨t₀, t₁, l₀, l₁, tail, hrest⟩ :
        ∃ t₀ t₁ l₀ l₁ tail, value.drop offset = t₀ :: t₁ :: l₀ :: l₁ :: tail := by
      match hd : value.drop offset with
      | [] | [_] | [_, _] | [_, _, _] =>
        have hlength := congrArg List.length hd
        simp only [List.length_drop, List.length_cons, List.length_nil] at hlength
        omega
      | t₀ :: t₁ :: l₀ :: l₁ :: tail => exact ⟨t₀, t₁, l₀, l₁, tail, rfl⟩
    have htail : tail.length + 4 = value.length - offset := by
      rw [← List.length_drop, hrest]
      rfl
    have hdrop : ∀ k, value.drop (offset + 4 + k) = tail.drop k := by
      intro k
      rw [Nat.add_assoc, ← List.drop_drop, hrest, ← List.drop_drop]
      rfl
    have hwindow : ∀ k, window value (offset + 4) k = tail.take k := by
      intro k
      rw [window, ← Nat.add_zero (offset + 4), hdrop, List.drop_zero]
    have htype : window value offset 2 = [t₀, t₁] := by
      rw [window, hrest]
      rfl
    have hlen : window value (offset + 2) 2 = [l₀, l₁] := by
      rw [window, ← List.drop_drop, hrest]
      rfl
    simp only [htype, hlen, hwindow] at hparse
    split at hparse
    · cases hparse
    next hfits =>
      have hshort := (leWord16 [l₀, l₁]).toNat_lt
      generalize hn : (leWord16 [l₀, l₁]).toNat = n at hparse hfits hshort
      have hdata : (tail.take n).length = n := by
        rw [List.length_take]
        omega
      let s : Slot :=
        { type_ := leWord16 [t₀, t₁]
          data := tail.take n
          pad := (tail.drop n).take (4 - n)
          short := by rw [hdata]; exact hshort
          padded := by rw [hdata, List.length_take, List.length_drop]; omega }
      have hslot : s.data ++ s.pad = tail.take (max n 4) := by
        rw [show max n 4 = n + (4 - n) by omega, List.take_add]
      have hfield : UInt16.ofNat s.data.length = leWord16 [l₀, l₁] := by
        rw [show s.data.length = n from hdata, ← hn, UInt16.ofNat_toNat]
      have hdword : leWord (s.data ++ s.pad) = leWord (tail.take 4) := by
        rw [hslot, leWord_take (Nat.le_max_right n 4), leWord_take (Nat.le_refl 4)]
      have hsize : s.bytes.length = 4 + max n 4 := by
        rw [s.length_bytes, show s.data.length = n from hdata]
      have htypeBytes : leBytes16 s.type_ = [t₀, t₁] := leBytes16_leWord16 rfl
      have hlenBytes : leBytes16 (leWord16 [l₀, l₁]) = [l₀, l₁] := leBytes16_leWord16 rfl
      cases hparse
      refine ⟨s, ?_, ?_, ?_⟩
      · rw [Slot.argument, hfield, hdword]
      · rw [hsize, Nat.add_assoc]
      · rw [hrest, hdrop, Slot.bytes, hfield, hslot, htypeBytes, hlenBytes]
        simp only [List.cons_append, List.nil_append, List.take_append_drop]

theorem run_parseArgument_total (value : Bytes) (offset : ℕ) :
    ∃ r, (parseArgument value offset).run = some r := by
  rw [run_parseArgument]
  split
  · exact ⟨_, rfl⟩
  · dsimp only
    split
    · exact ⟨_, rfl⟩
    · exact ⟨_, rfl⟩

def slotBytes (slots : List Slot) : Bytes := slots.flatMap Slot.bytes

@[simp] theorem slotBytes_nil : slotBytes [] = [] := rfl

@[simp] theorem slotBytes_cons (s : Slot) (slots : List Slot) :
    slotBytes (s :: slots) = s.bytes ++ slotBytes slots := rfl

theorem run_parseArguments_succ (value : Bytes) (count offset : ℕ) :
    (parseArguments value (count + 1) offset).run =
      (parseArgument value offset).run.bind fun r =>
        match r with
        | .error e => some (.error e)
        | .ok (argument, offset) =>
          (parseArguments value count offset).run.map fun r =>
            r.map fun (arguments, offset) => (argument :: arguments, offset) := by
  simp only [parseArguments, ExceptT.run_bind, Option.bind_eq_bind]
  cases (parseArgument value offset).run with
  | none => rfl
  | some r =>
    cases r with
    | error e => rfl
    | ok x =>
      simp only [Option.bind_some]
      cases (parseArguments value count x.2).run with
      | none => rfl
      | some r =>
        cases r with
        | error e => rfl
        | ok y => rfl

theorem run_parseArguments_total (value : Bytes) (count : ℕ) :
    ∀ offset, ∃ r, (parseArguments value count offset).run = some r := by
  induction count with
  | zero => exact fun offset => ⟨_, rfl⟩
  | succ count ih =>
    intro offset
    rw [run_parseArguments_succ]
    obtain ⟨r, hr⟩ := run_parseArgument_total value offset
    rw [hr]
    cases r with
    | error e => exact ⟨_, rfl⟩
    | ok x =>
      obtain ⟨r, hr⟩ := ih x.2
      exact ⟨_, by simp only [Option.bind_some, hr]; rfl⟩

theorem run_parseArguments_slots (slots : List Slot) :
    ∀ pre rest, (parseArguments (pre ++ (slotBytes slots ++ rest)) slots.length pre.length).run =
      some (.ok (slots.map Slot.argument, pre.length + (slotBytes slots).length)) := by
  induction slots with
  | nil => exact fun pre rest => rfl
  | cons s slots ih =>
    intro pre rest
    have hnext := ih (pre ++ s.bytes) rest
    rw [List.length_append, List.append_assoc] at hnext
    rw [slotBytes_cons, List.append_assoc, List.length_cons, run_parseArguments_succ,
      run_parseArgument_slot]
    dsimp only [Option.bind_some]
    rw [hnext]
    simp only [Option.map_some, Except.map, List.map_cons, List.length_append, Nat.add_assoc]

/-- What is read as a sequence of arguments is a sequence of slots. -/
theorem slots_of_parseArguments {value : Bytes} (count : ℕ) :
    ∀ {offset offset' : ℕ} {arguments : List AcpiMethodArgumentV1},
      (parseArguments value count offset).run = some (.ok (arguments, offset')) →
      ∃ slots : List Slot, slots.length = count ∧ arguments = slots.map Slot.argument ∧
        offset' = offset + (slotBytes slots).length ∧
        value.drop offset = slotBytes slots ++ value.drop offset' := by
  induction count with
  | zero =>
    intro offset offset' arguments hparse
    cases hparse
    exact ⟨[], rfl, rfl, rfl, rfl⟩
  | succ count ih =>
    intro offset offset' arguments hparse
    rw [run_parseArguments_succ] at hparse
    cases hfirst : (parseArgument value offset).run with
    | none => simp [hfirst] at hparse
    | some r =>
      cases r with
      | error e => simp [hfirst] at hparse
      | ok x =>
        obtain ⟨a, middle⟩ := x
        cases hrest : (parseArguments value count middle).run with
        | none => simp [hfirst, hrest] at hparse
        | some r =>
          cases r with
          | error e => simp [hfirst, hrest, Except.map] at hparse
          | ok y =>
            obtain ⟨others, last⟩ := y
            obtain ⟨s, rfl, rfl, hdrop⟩ := slot_of_parseArgument hfirst
            obtain ⟨slots, rfl, rfl, hoffset, hdrop'⟩ := ih hrest
            simp only [hfirst, hrest, Option.bind_some, Option.map_some, Except.map] at hparse
            cases hparse
            refine ⟨s :: slots, rfl, rfl, ?_, ?_⟩
            · rw [slotBytes_cons, List.length_append, hoffset, Nat.add_assoc]
            · rw [hdrop, hdrop', slotBytes_cons, List.append_assoc]

theorem length_slots_le (slots : List Slot) : 8 * slots.length ≤ (slotBytes slots).length := by
  induction slots with
  | nil => exact Nat.le_refl 0
  | cons s slots ih =>
    have hsize := s.length_bytes
    rw [slotBytes_cons, List.length_append, List.length_cons]
    omega

/-- Signature, a length field equal to the vector's length, a count, that many slots, and nothing
behind them. -/
structure Framed (slots : List Slot) (value : Bytes) : Prop where
  layout : value = outputSignature ++ (leBytes (UInt32.ofNat value.length) ++
    (leBytes (UInt32.ofNat slots.length) ++ slotBytes slots))
  fits : value.length < 2 ^ 32

theorem run_tryFrom (value : Bytes) :
    (AcpiEvalOutputBufferV1.tryFrom value).run =
      if value.length < 12 then some (.error .insufficientLength)
      else
        let signature := leWord (window value 0 4)
        let length := leWord (window value 4 4)
        let count := leWord (window value 8 4)
        if signature ≠ leWord outputSignature ∨ length.toNat ≠ value.length then
          some (.error .invalidFormat)
        else
          (parseArguments value count.toNat 12).run.bind fun r =>
            match r with
            | .error e => some (.error e)
            | .ok (arguments, offset) =>
              if offset ≠ value.length then some (.error .invalidFormat)
              else some (.ok ⟨signature, length, count, arguments⟩) := by
  rw [AcpiEvalOutputBufferV1.tryFrom]
  by_cases hheader : value.length < 12
  · rw [if_pos hheader, if_pos hheader]
    rfl
  · have hsignature : slice value 0 4 = pure (window value 0 4) :=
      slice_eq (i := 0) (n := 4) (by omega)
    have hlength : slice value 4 8 = pure (window value 4 4) :=
      slice_eq (i := 4) (n := 4) (by omega)
    have hcount : slice value 8 12 = pure (window value 8 4) :=
      slice_eq (i := 8) (n := 4) (by omega)
    rw [if_neg hheader, if_neg hheader, hsignature, hlength, hcount]
    simp only [map_pure, pure_bind]
    split
    · rfl
    · simp only [ExceptT.run_bind, Option.bind_eq_bind]
      cases (parseArguments value (leWord (window value 8 4)).toNat 12).run with
      | none => rfl
      | some r =>
        cases r with
        | error e => rfl
        | ok x =>
          simp only [Option.bind_some]
          split
          · rfl
          · rfl

theorem run_tryFrom_total (value : Bytes) :
    ∃ r, (AcpiEvalOutputBufferV1.tryFrom value).run = some r := by
  rw [run_tryFrom]
  split
  · exact ⟨_, rfl⟩
  · dsimp only
    split
    · exact ⟨_, rfl⟩
    · obtain ⟨r, hr⟩ :=
        run_parseArguments_total value (leWord (window value 8 4)).toNat 12
      rw [hr]
      cases r with
      | error e => exact ⟨_, rfl⟩
      | ok x =>
        dsimp only [Option.bind_some]
        split
        · exact ⟨_, rfl⟩
        · exact ⟨_, rfl⟩

def response (slots : List Slot) (value : Bytes) : AcpiEvalOutputBufferV1 where
  signature := leWord outputSignature
  length := UInt32.ofNat value.length
  count := UInt32.ofNat slots.length
  arguments := slots.map Slot.argument

theorem run_tryFrom_framed {slots : List Slot} {value : Bytes} (hframed : Framed slots value) :
    (AcpiEvalOutputBufferV1.tryFrom value).run = some (.ok (response slots value)) := by
  have hfits := hframed.fits
  have hlayout := hframed.layout
  have hslots := length_slots_le slots
  have htotal : value.length = 12 + (slotBytes slots).length := by
    have hlength := congrArg List.length hlayout
    simp only [List.length_append, length_leBytes] at hlength
    change value.length = 4 + (4 + (4 + (slotBytes slots).length)) at hlength
    omega
  generalize hlengthField : leBytes (UInt32.ofNat value.length) = lengthBytes at hlayout
  generalize hcountField : leBytes (UInt32.ofNat slots.length) = countBytes at hlayout
  have hlength4 : lengthBytes.length = 4 := by rw [← hlengthField, length_leBytes]
  have hcount4 : countBytes.length = 4 := by rw [← hcountField, length_leBytes]
  have hsignature : leWord (window value 0 4) = leWord outputSignature := by
    rw [hlayout]
    rfl
  have hlength : leWord (window value 4 4) = UInt32.ofNat value.length := by
    have hwindow : window value 4 4 = lengthBytes := by
      rw [hlayout, window, List.drop_left' (by rfl), List.take_left' hlength4]
    rw [hwindow, ← hlengthField, leWord_leBytes]
  have hcount : leWord (window value 8 4) = UInt32.ofNat slots.length := by
    have hwindow : window value 8 4 = countBytes := by
      rw [hlayout, window, show 8 = 4 + 4 from rfl, ← List.drop_drop, List.drop_left' (by rfl),
        List.drop_left' hlength4, List.take_left' hcount4]
    rw [hwindow, ← hcountField, leWord_leBytes]
  have hsize : (UInt32.ofNat value.length).toNat = value.length := by
    rw [UInt32.toNat_ofNat', Nat.mod_eq_of_lt hfits]
  have hmany : (UInt32.ofNat slots.length).toNat = slots.length := by
    rw [UInt32.toNat_ofNat', Nat.mod_eq_of_lt (by omega)]
  have harguments : (parseArguments value slots.length 12).run =
      some (.ok (slots.map Slot.argument, 12 + (slotBytes slots).length)) := by
    have hrun := run_parseArguments_slots slots (outputSignature ++ (lengthBytes ++ countBytes)) []
    have hheader : (outputSignature ++ (lengthBytes ++ countBytes)).length = 12 := by
      rw [List.length_append, List.length_append, hlength4, hcount4]
      rfl
    rw [hheader, List.append_nil, List.append_assoc, List.append_assoc, ← hlayout] at hrun
    exact hrun
  rw [run_tryFrom, if_neg (by omega)]
  simp only [hsignature, hlength, hcount, hsize, hmany, harguments]
  rw [if_neg (by simp)]
  dsimp only [Option.bind_some]
  rw [if_neg (by omega)]
  rfl

/-- Only framed sequences of slots are accepted. -/
theorem framed_of_tryFrom {value : Bytes} {out : AcpiEvalOutputBufferV1}
    (hparse : (AcpiEvalOutputBufferV1.tryFrom value).run = some (.ok out)) :
    ∃ slots, Framed slots value := by
  rw [run_tryFrom] at hparse
  split at hparse
  · cases hparse
  next hheader =>
    dsimp only at hparse
    split at hparse
    · cases hparse
    next hfields =>
      cases harguments : (parseArguments value (leWord (window value 8 4)).toNat 12).run with
      | none => simp [harguments] at hparse
      | some r =>
        cases r with
        | error e => simp [harguments] at hparse
        | ok x =>
          obtain ⟨arguments, offset⟩ := x
          simp only [harguments, Option.bind_some] at hparse
          split at hparse
          · cases hparse
          next hend =>
            obtain ⟨slots, hcount, -, -, hdrop⟩ := slots_of_parseArguments _ harguments
            have hword : ∀ o, o + 4 ≤ value.length →
                leBytes (leWord (window value o 4)) = window value o 4 := by
              intro o ho
              apply leBytes_leWord_of_length
              rw [length_window]
              omega
            have hsignature : window value 0 4 = outputSignature := by
              rw [← hword 0 (by omega), not_not.mp (not_or.mp hfields).1]
              rfl
            have hlengthField : leWord (window value 4 4) = UInt32.ofNat value.length := by
              rw [← not_not.mp (not_or.mp hfields).2, UInt32.ofNat_toNat]
            have hlength : window value 4 4 = leBytes (UInt32.ofNat value.length) := by
              rw [← hword 4 (by omega), hlengthField]
            have hslots : window value 8 4 = leBytes (UInt32.ofNat slots.length) := by
              rw [← hword 8 (by omega), hcount, UInt32.ofNat_toNat]
            have hsplit : value = window value 0 4 ++ (window value 4 4 ++
                (window value 8 4 ++ value.drop 12)) := by
              rw [window_append_drop value 8 4, window_append_drop value 4 4,
                window_append_drop value 0 4, List.drop_zero]
            rw [not_not.mp hend, List.drop_length, List.append_nil] at hdrop
            refine ⟨slots, ?_, ?_⟩
            · rw [hdrop, hsignature, hlength, hslots] at hsplit
              exact hsplit
            · have hlt := (leWord (window value 4 4)).toNat_lt
              rw [not_not.mp (not_or.mp hfields).2] at hlt
              exact hlt

def zeroSlot (type_ : UInt16) (data : Bytes) (short : data.length < 2 ^ 16) : Slot where
  type_ := type_
  data := data
  pad := List.replicate (4 - data.length) 0
  short := short
  padded := List.length_replicate

/-- Every argument in a slot of its own, padded with zeros. -/
def zeroSlots (args : List (UInt16 × Bytes)) (short : ∀ a ∈ args, a.2.length < 2 ^ 16) : List Slot :=
  args.pmap (fun a ha => zeroSlot a.1 a.2 ha) short

theorem content_zeroSlots (args : List (UInt16 × Bytes))
    (short : ∀ a ∈ args, a.2.length < 2 ^ 16) :
    (zeroSlots args short).map Slot.content = args := by
  induction args with
  | nil => rfl
  | cons a args ih =>
    have htail := ih fun b hb => short b (List.mem_cons_of_mem a hb)
    rw [zeroSlots, List.pmap_cons, List.map_cons]
    exact congrArg (a :: ·) htail

def outputArgument (arg : UInt16 × Bytes) : Bytes :=
  leBytes16 arg.1 ++ (leBytes16 (UInt16.ofNat arg.2.length) ++ padTo 4 0 arg.2)

/-- The encoder of the source's tests; the length field is filled in last. -/
def output (arguments : List (UInt16 × Bytes)) : Bytes :=
  let bytes := outputSignature ++ (leBytes 0 ++
    (leBytes (UInt32.ofNat arguments.length) ++ arguments.flatMap outputArgument))
  splice bytes 4 (leBytes (UInt32.ofNat bytes.length))

theorem slotBytes_zeroSlots (args : List (UInt16 × Bytes))
    (short : ∀ a ∈ args, a.2.length < 2 ^ 16) :
    slotBytes (zeroSlots args short) = args.flatMap outputArgument := by
  induction args with
  | nil => rfl
  | cons a args ih =>
    have htail := ih fun b hb => short b (List.mem_cons_of_mem a hb)
    rw [zeroSlots, List.pmap_cons, slotBytes_cons, List.flatMap_cons]
    exact congrArg (outputArgument a ++ ·) htail

theorem output_eq (args : List (UInt16 × Bytes)) :
    output args = outputSignature ++ (leBytes (UInt32.ofNat (output args).length) ++
      (leBytes (UInt32.ofNat args.length) ++ args.flatMap outputArgument)) := by
  have hlength : (output args).length = (outputSignature ++ (leBytes 0 ++
      (leBytes (UInt32.ofNat args.length) ++ args.flatMap outputArgument))).length := by
    rw [output, length_splice]
    simp only [List.length_append, length_leBytes]
    change 4 + 4 ≤ 4 + (4 + _)
    omega
  rw [hlength, output, splice, length_leBytes, List.take_left' (by rfl), ← List.drop_drop,
    List.drop_left' (by rfl), List.drop_left' (length_leBytes 0), List.append_assoc]

theorem framed_output_iff (args : List (UInt16 × Bytes))
    (short : ∀ a ∈ args, a.2.length < 2 ^ 16) :
    Framed (zeroSlots args short) (output args) ↔ (output args).length < 2 ^ 32 := by
  constructor
  · exact Framed.fits
  · intro hfits
    refine ⟨?_, hfits⟩
    rw [slotBytes_zeroSlots, zeroSlots, List.length_pmap]
    exact output_eq args

/-- The response parser accepts exactly the framed responses, without an index out of range, and
gives back what was framed. -/
theorem output_parser_exact :
    (∀ value, ∃ r, (AcpiEvalOutputBufferV1.tryFrom value).run = some r) ∧
    (∀ value, (∃ out, (AcpiEvalOutputBufferV1.tryFrom value).run = some (.ok out)) ↔
      ∃ slots, Framed slots value) ∧
    (∀ slots value, Framed slots value →
      (AcpiEvalOutputBufferV1.tryFrom value).run = some (.ok (response slots value))) ∧
    ∀ args (short : ∀ a ∈ args, a.2.length < 2 ^ 16),
      (Framed (zeroSlots args short) (output args) ↔ (output args).length < 2 ^ 32) ∧
      ∀ value, Framed (zeroSlots args short) value → ∃ out,
        (AcpiEvalOutputBufferV1.tryFrom value).run = some (.ok out) ∧
        out.arguments.map (fun a => (a.type_, a.data)) = args ∧
        ∀ a ∈ out.arguments, a.type_ = 0 → a.data32 = leWord (padTo 4 0 a.data) := by
  refine ⟨run_tryFrom_total, fun value => ⟨?_, ?_⟩, fun slots value => run_tryFrom_framed,
    fun args short => ⟨framed_output_iff args short, fun value hframed => ?_⟩⟩
  · rintro ⟨out, hparse⟩
    exact framed_of_tryFrom hparse
  · rintro ⟨slots, hframed⟩
    exact ⟨_, run_tryFrom_framed hframed⟩
  · refine ⟨_, run_tryFrom_framed hframed, ?_, fun a ha htype => ?_⟩
    · have hcontent := content_zeroSlots args short
      rw [response, List.map_map]
      exact hcontent
    · obtain ⟨s, hs, rfl⟩ := List.mem_map.mp ha
      obtain ⟨b, hb, rfl⟩ := List.mem_pmap.mp hs
      exact if_pos htype

example : (AcpiEvalOutputBufferV1.tryFrom (output [(2, [42]), (0, leBytes 45)])).run =
    some (.ok ⟨leWord outputSignature, 28, 2, [⟨2, 1, 0, [42]⟩, ⟨0, 4, 45, leBytes 45⟩]⟩) := by
  decide

end AcpiOutputFormat
