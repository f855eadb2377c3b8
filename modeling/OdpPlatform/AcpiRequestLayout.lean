import OdpPlatform.AcpiOutputFormat

/-! # Requests read back with the response layout

The request encoder writes the data of an argument without padding; the response parser expects
slots. They agree on the argument lists without short data. -/
namespace AcpiRequestLayout

open ByteBuffer AcpiMethodBuffers AcpiOutputFormat

theorem forall₂_of_mapM_ok {α β ε : Type} {f : α → Except ε β} {xs : List α} :
    ∀ {ys : List β}, xs.mapM f = .ok ys → List.Forall₂ (fun x y => f x = .ok y) xs ys := by
  induction xs with
  | nil =>
    intro ys hys
    cases hys
    exact .nil
  | cons x xs ih =>
    intro ys hys
    rw [List.mapM_cons] at hys
    cases hx : f x with
    | error e =>
      rw [hx] at hys
      cases hys
    | ok y =>
      cases hrest : xs.mapM f with
      | error e =>
        rw [hx, hrest] at hys
        cases hys
      | ok rest =>
        rw [hx, hrest] at hys
        cases hys
        exact .cons hx (ih hrest)

/-- Signature, method name, size and argument count. -/
def headerBytes : ℕ := 4 + 256 + 4 + 4

def argumentSection (request : Bytes) : Bytes := request.drop headerBytes

def rawContent (arg : AcpiMethodArgumentV1) : UInt16 × Bytes := (arg.type_, arg.data)

def ArgumentsAgree (input : AcpiEvalInputBufferComplexV1Ex) : Prop :=
  ∃ arguments,
    (parseArguments (argumentSection input.toBytes) input.argumentcount.toNat 0).run =
      some (.ok (arguments, (argumentSection input.toBytes).length)) ∧
    arguments.map rawContent = input.arguments.map rawContent

def FillsSlot : AcpiMethodArgument → Prop
  | .int _ => True
  | .guid _ => True
  | .string s => 3 ≤ (utf8 s).length
  | .buffer b => 4 ≤ b.length

structure Encoded (a : AcpiMethodArgument) (arg : AcpiMethodArgumentV1) : Prop where
  short : arg.data.length < 2 ^ 16
  lengthField : arg.dataLength = UInt16.ofNat arg.data.length
  fills : FillsSlot a ↔ 4 ≤ arg.data.length

theorem lengthField_ok {n : ℕ} {w : UInt16} (hw : lengthField n = .ok w) :
    n < 2 ^ 16 ∧ w = UInt16.ofNat n := by
  rw [lengthField] at hw
  split at hw
  next hn =>
    cases hw
    exact ⟨hn, rfl⟩
  next => cases hw

theorem encoded_of_tryFrom {a : AcpiMethodArgument} {arg : AcpiMethodArgumentV1}
    (harg : AcpiMethodArgumentV1.tryFrom a = .ok arg) : Encoded a arg := by
  cases a with
  | int i =>
    cases harg
    exact ⟨(by decide : 4 < 2 ^ 16), rfl, iff_of_true trivial (Nat.le_refl 4)⟩
  | guid g =>
    cases harg
    have hsize := g.size
    exact ⟨by rw [hsize]; decide, by rw [hsize]; rfl, iff_of_true trivial (by rw [hsize]; decide)⟩
  | string s =>
    rw [AcpiMethodArgumentV1.tryFrom] at harg
    cases hw : lengthField (utf8 s ++ [0]).length with
    | error e =>
      rw [hw] at harg
      cases harg
    | ok w =>
      rw [hw] at harg
      cases harg
      obtain ⟨hshort, rfl⟩ := lengthField_ok hw
      refine ⟨hshort, rfl, ?_⟩
      rw [FillsSlot, List.length_append, List.length_singleton]
      omega
  | buffer b =>
    rw [AcpiMethodArgumentV1.tryFrom] at harg
    cases hw : lengthField b.length with
    | error e =>
      rw [hw] at harg
      cases harg
    | ok w =>
      rw [hw] at harg
      cases harg
      obtain ⟨hshort, rfl⟩ := lengthField_ok hw
      exact ⟨hshort, rfl, Iff.rfl⟩

def packedSize (args : List (UInt16 × Bytes)) : ℕ := (args.map fun a => 4 + a.2.length).sum

def paddedSize (args : List (UInt16 × Bytes)) : ℕ := (args.map fun a => 4 + max a.2.length 4).sum

theorem packedSize_le (args : List (UInt16 × Bytes)) : packedSize args ≤ paddedSize args := by
  induction args with
  | nil => exact Nat.le_refl 0
  | cons a args ih =>
    simp only [packedSize, paddedSize, List.map_cons, List.sum_cons] at ih ⊢
    omega

theorem fills_of_paddedSize_eq {args : List (UInt16 × Bytes)}
    (hsize : paddedSize args = packedSize args) : ∀ a ∈ args, 4 ≤ a.2.length := by
  induction args with
  | nil => exact fun a ha => absurd ha List.not_mem_nil
  | cons a args ih =>
    have hle := packedSize_le args
    simp only [packedSize, paddedSize, List.map_cons, List.sum_cons] at hsize hle ih
    intro b hb
    rcases List.mem_cons.mp hb with rfl | hb
    · omega
    · exact ih (by omega) b hb

theorem length_slotBytes (slots : List Slot) :
    (slotBytes slots).length = paddedSize (slots.map Slot.content) := by
  induction slots with
  | nil => rfl
  | cons s slots ih =>
    rw [slotBytes_cons, List.length_append, ih, s.length_bytes]
    rfl

theorem length_packed (arguments : List AcpiMethodArgumentV1) :
    (arguments.flatMap AcpiMethodArgumentV1.toBytes).length =
      packedSize (arguments.map rawContent) := by
  induction arguments with
  | nil => rfl
  | cons arg arguments ih =>
    rw [List.flatMap_cons, List.length_append, ih]
    simp only [AcpiMethodArgumentV1.toBytes, List.length_append, length_leBytes16]
    rfl

/-- Arguments without short data are slots without padding. -/
theorem slots_of_filled {arguments : List AcpiMethodArgumentV1}
    (hfields : ∀ arg ∈ arguments, arg.data.length < 2 ^ 16 ∧
      arg.dataLength = UInt16.ofNat arg.data.length ∧ 4 ≤ arg.data.length) :
    ∃ slots : List Slot, slots.map Slot.content = arguments.map rawContent ∧
      slotBytes slots = arguments.flatMap AcpiMethodArgumentV1.toBytes := by
  induction arguments with
  | nil => exact ⟨[], rfl, rfl⟩
  | cons arg arguments ih =>
    obtain ⟨slots, hcontent, hbytes⟩ := ih fun b hb => hfields b (List.mem_cons_of_mem arg hb)
    obtain ⟨hshort, hfield, hfills⟩ := hfields arg List.mem_cons_self
    have hpad : ([] : Bytes).length = 4 - arg.data.length := by
      rw [List.length_nil]
      omega
    refine ⟨⟨arg.type_, arg.data, [], hshort, hpad⟩ :: slots, ?_, ?_⟩
    · rw [List.map_cons, List.map_cons, hcontent]
      rfl
    · rw [slotBytes_cons, List.flatMap_cons, hbytes, AcpiMethodArgumentV1.toBytes, hfield,
        Slot.bytes]
      simp only [List.append_nil, List.append_assoc]

/-- What the request encoder builds. -/
structure Built (args : List AcpiMethodArgument) (input : AcpiEvalInputBufferComplexV1Ex) : Prop where
  count : input.argumentcount = UInt32.ofNat input.arguments.length
  encoded : List.Forall₂ Encoded args input.arguments
  section_eq : argumentSection input.toBytes =
    input.arguments.flatMap AcpiMethodArgumentV1.toBytes

theorem built_of_tryFrom {name : List Char} {args : List AcpiMethodArgument}
    {input : AcpiEvalInputBufferComplexV1Ex}
    (hinput : AcpiEvalInputBufferComplexV1Ex.tryFrom ⟨name, some args⟩ = .ok input) :
    Built args input := by
  rw [AcpiEvalInputBufferComplexV1Ex.tryFrom] at hinput
  cases hargs : args.mapM AcpiMethodArgumentV1.tryFrom with
  | error e =>
    simp only [hargs] at hinput
    cases hinput
  | ok arguments =>
    simp only [hargs] at hinput
    cases hinput
    refine ⟨rfl, (forall₂_of_mapM_ok hargs).imp fun a arg => encoded_of_tryFrom, ?_⟩
    have hname : (padTo 256 0 ((utf8 name).take 256)).length = 256 := by
      apply length_padTo
      rw [List.length_take]
      omega
    rw [argumentSection, AcpiEvalInputBufferComplexV1Ex.toBytes]
    apply List.drop_left'
    simp only [List.length_append, length_leBytes, hname]
    rfl

theorem Encoded.fields {args : List AcpiMethodArgument} {arguments : List AcpiMethodArgumentV1}
    (henc : List.Forall₂ Encoded args arguments) :
    ∀ arg ∈ arguments, arg.data.length < 2 ^ 16 ∧
      arg.dataLength = UInt16.ofNat arg.data.length := by
  induction henc with
  | nil => exact fun arg harg => absurd harg List.not_mem_nil
  | cons hfirst _ ih =>
    intro arg harg
    rcases List.mem_cons.mp harg with rfl | harg
    · exact ⟨hfirst.short, hfirst.lengthField⟩
    · exact ih arg harg

theorem Encoded.fillsSlot_iff {args : List AcpiMethodArgument}
    {arguments : List AcpiMethodArgumentV1} (henc : List.Forall₂ Encoded args arguments) :
    (∀ a ∈ args, FillsSlot a) ↔ ∀ arg ∈ arguments, 4 ≤ arg.data.length := by
  induction henc with
  | nil => simp
  | cons hfirst _ ih => rw [List.forall_mem_cons, List.forall_mem_cons, hfirst.fills, ih]

theorem Built.agree_iff {args : List AcpiMethodArgument} {input : AcpiEvalInputBufferComplexV1Ex}
    (hbuilt : Built args input) (hmany : args.length ≤ 7) :
    ArgumentsAgree input ↔ ∀ arg ∈ input.arguments, 4 ≤ arg.data.length := by
  have hlength := hbuilt.encoded.length_eq
  have hcount : input.argumentcount.toNat = input.arguments.length := by
    rw [hbuilt.count, UInt32.toNat_ofNat', Nat.mod_eq_of_lt (by omega)]
  rw [ArgumentsAgree, hbuilt.section_eq, hcount]
  constructor
  · rintro ⟨arguments, hparse, hsame⟩
    obtain ⟨slots, -, rfl, hsize, -⟩ := slots_of_parseArguments _ hparse
    have hcontent : slots.map Slot.content = input.arguments.map rawContent := by
      rw [← hsame, List.map_map]
      rfl
    rw [Nat.zero_add, length_packed, length_slotBytes, hcontent] at hsize
    intro arg harg
    exact fills_of_paddedSize_eq hsize.symm _ (List.mem_map_of_mem harg)
  · intro hfills
    obtain ⟨slots, hcontent, hbytes⟩ := slots_of_filled fun arg harg =>
      ⟨(Encoded.fields hbuilt.encoded arg harg).1, (Encoded.fields hbuilt.encoded arg harg).2,
        hfills arg harg⟩
    have hrun := run_parseArguments_slots slots [] []
    have hslots : slots.length = input.arguments.length := by
      simpa only [List.length_map] using congrArg List.length hcontent
    rw [List.nil_append, List.append_nil, hbytes, hslots, List.length_nil, Nat.zero_add] at hrun
    refine ⟨slots.map Slot.argument, hrun, ?_⟩
    rw [List.map_map]
    exact hcontent

/-- The layouts agree on a request exactly when none of its arguments has fewer than four bytes of
data. -/
theorem request_layout_agrees_iff (name : List Char) (args : List AcpiMethodArgument)
    (hmany : args.length ≤ 7) (input : AcpiEvalInputBufferComplexV1Ex)
    (hinput : AcpiEvalInputBufferComplexV1Ex.tryFrom ⟨name, some args⟩ = .ok input) :
    ArgumentsAgree input ↔ ∀ a ∈ args, FillsSlot a := by
  have hbuilt := built_of_tryFrom hinput
  rw [hbuilt.agree_iff hmany, Encoded.fillsSlot_iff hbuilt.encoded]

/-- A timer id and its value, and a buffer that just fills a slot. -/
theorem request_layout_agrees_filled :
    ∃ input, AcpiEvalInputBufferComplexV1Ex.tryFrom
        ⟨"_STV".toList, some [.int 1, .int 300, .buffer [1, 2, 3, 4]]⟩ = .ok input ∧
      ArgumentsAgree input := by
  have hfills : ∀ a ∈ [AcpiMethodArgument.int 1, .int 300, .buffer [1, 2, 3, 4]], FillsSlot a := by
    intro a ha
    simp only [List.mem_cons, List.not_mem_nil, or_false] at ha
    rcases ha with rfl | rfl | rfl
    · trivial
    · trivial
    · exact Nat.le_refl 4
  exact ⟨_, rfl, (request_layout_agrees_iff "_STV".toList
    [.int 1, .int 300, .buffer [1, 2, 3, 4]] (by decide) _ rfl).mpr hfills⟩

/-- A one-byte buffer in front of an integer. -/
theorem short_buffer_disagrees :
    ∃ input, AcpiEvalInputBufferComplexV1Ex.tryFrom
        ⟨"USND".toList, some [.buffer [42], .int 5]⟩ = .ok input ∧ ¬ArgumentsAgree input := by
  refine ⟨_, rfl, fun hagree => ?_⟩
  have hbuilt : Built [.buffer [42], .int 5] _ := built_of_tryFrom
    (show AcpiEvalInputBufferComplexV1Ex.tryFrom
      ⟨"USND".toList, some [.buffer [42], .int 5]⟩ = .ok _ from rfl)
  have hfills := (hbuilt.agree_iff (by decide)).mp hagree ⟨2, 1, 0, [42]⟩ List.mem_cons_self
  exact absurd hfills (by decide)

end AcpiRequestLayout
