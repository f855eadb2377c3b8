import OdpPlatform.AcpiSource

/-! # Numbers from ACPI responses

An Integer has four or eight bytes and its whole value fits in 32 bits. `evaluate_u32` checks this;
`eval` and the methods that read `data_32` themselves do not. -/
namespace AcpiSourceIntegers

open ByteBuffer AcpiMethodBuffers AcpiOutputFormat AcpiValues EcScript AcpiSource

section Runs

variable {ε β γ : Type}

theorem run_bind_ok {m : ExceptT ε Option β} {f : β → ExceptT ε Option γ} {x : γ} :
    (m >>= f).run = some (.ok x) ↔ ∃ a, m.run = some (.ok a) ∧ (f a).run = some (.ok x) := by
  rw [ExceptT.run_bind]
  cases hm : m.run with
  | none => simp
  | some r => cases r <;> simp

theorem run_map_ok {m : ExceptT ε Option β} {f : β → γ} {x : γ} :
    (f <$> m).run = some (.ok x) ↔ ∃ a, m.run = some (.ok a) ∧ f a = x := by
  rw [ExceptT.run_map]
  cases hm : m.run with
  | none => simp
  | some r => cases r <;> simp [Except.map]

theorem run_pure_ok {a x : β} : (pure a : ExceptT ε Option β).run = some (.ok x) ↔ a = x := by
  simp

theorem run_throw_ok {e : ε} {x : β} :
    (throw e : ExceptT ε Option β).run = some (.ok x) ↔ False := by
  simp

theorem run_ite_ok {c : Prop} [Decidable c] {m m' : ExceptT ε Option β} {x : β} :
    (if c then m else m').run = some (.ok x) ↔
      (c ∧ m.run = some (.ok x)) ∨ (¬c ∧ m'.run = some (.ok x)) := by
  split <;> simp [*]

end Runs

/-- The driver answers the request of this method. -/
def Responds (acpi : Acpi) (method : AcpiMethodInput) (bytes : Bytes) : Prop :=
  (method.args.getD []).length ≤ 7 ∧ ∃ input,
    AcpiEvalInputBufferComplexV1Ex.tryFrom method = .ok input ∧ acpi.driver input.toBytes = .ok bytes

theorem Responds.unique {acpi : Acpi} {method : AcpiMethodInput} {bytes bytes' : Bytes}
    (h : Responds acpi method bytes) (h' : Responds acpi method bytes') : bytes = bytes' := by
  obtain ⟨-, input, hinput, hdriver⟩ := h
  obtain ⟨-, input', hinput', hdriver'⟩ := h'
  rw [hinput] at hinput'
  cases hinput'
  rw [hdriver] at hdriver'
  cases hdriver'
  rfl

theorem run_evaluate_ok {acpi : Acpi} {method : AcpiMethodInput} {out : AcpiEvalOutputBufferV1} :
    (acpi.evaluate method).run = some (.ok out) ↔ ∃ bytes,
      Responds acpi method bytes ∧ (AcpiEvalOutputBufferV1.tryFrom bytes).run = some (.ok out) := by
  rw [Acpi.evaluate, run_ite_ok, run_throw_ok, run_bind_ok]
  constructor
  · rintro (⟨-, hfalse⟩ | ⟨hargs, input, hinput, hanswer⟩)
    · exact hfalse.elim
    · have hok : AcpiEvalInputBufferComplexV1Ex.tryFrom method = .ok input := Option.some.inj hinput
      cases hdriver : acpi.driver input.toBytes with
      | error code =>
        rw [hdriver] at hanswer
        exact (run_throw_ok.mp hanswer).elim
      | ok bytes =>
        rw [hdriver] at hanswer
        exact ⟨bytes, ⟨not_lt.mp hargs, input, hok, hdriver⟩, hanswer⟩
  · rintro ⟨bytes, ⟨hargs, input, hinput, hdriver⟩, hparse⟩
    refine .inr ⟨not_lt.mpr hargs, input, congrArg some hinput, ?_⟩
    rw [hdriver]
    exact hparse

theorem run_query_ok {acpi : Acpi} {name : String} {args : Option (List AcpiMethodArgument)}
    {out : AcpiEvalOutputBufferV1} :
    (acpi.query name args).run = some (.ok out) ↔ ∃ bytes slots,
      Responds acpi ⟨name.toList, args⟩ bytes ∧ Framed slots bytes ∧
        response slots bytes = out := by
  have hadapt : (acpi.query name args).run = some (.ok out) ↔
      (acpi.evaluate ⟨name.toList, args⟩).run = some (.ok out) := by
    rw [Acpi.query, ExceptT.run_adapt]
    cases (acpi.evaluate ⟨name.toList, args⟩).run with
    | none => simp
    | some r => cases r <;> simp [Except.mapError]
  rw [hadapt, run_evaluate_ok]
  constructor
  · rintro ⟨bytes, hresponds, hparse⟩
    obtain ⟨slots, hframed⟩ := framed_of_tryFrom hparse
    rw [run_tryFrom_framed hframed] at hparse
    cases hparse
    exact ⟨bytes, slots, hresponds, hframed, rfl⟩
  · rintro ⟨bytes, slots, hresponds, hframed, rfl⟩
    exact ⟨bytes, hresponds, run_tryFrom_framed hframed⟩

def dword (s : Slot) : UInt32 := s.argument.data32

theorem run_arg_ok {slots : List Slot} {bytes : Bytes} {i : ℕ} {a : AcpiMethodArgumentV1} :
    (arg (response slots bytes) i).run = some (.ok a) ↔
      ∃ s, slots[i]? = some s ∧ s.argument = a := by
  rw [arg, response, List.getElem?_map]
  cases slots[i]? with
  | none => simp
  | some s => simp

theorem count_eq_iff {slots : List Slot} {bytes : Bytes} (hframed : Framed slots bytes)
    {k : UInt32} :
    (response slots bytes).count = k ↔ slots.length = k.toNat := by
  have hslots := length_slots_le slots
  have hlength := congrArg List.length hframed.layout
  have hfits := hframed.fits
  simp only [List.length_append, length_leBytes] at hlength
  rw [response, ← UInt32.toNat_inj, UInt32.toNat_ofNat', Nat.mod_eq_of_lt (by omega)]

/-- An Integer of four or eight bytes whose whole value is this number. -/
def Reads (s : Slot) (n : UInt32) : Prop :=
  s.type_ = 0 ∧ (s.data.length = 4 ∨ s.data.length = 8) ∧ leValue s.data = n.toNat

def FitsU32 (s : Slot) : Prop :=
  s.type_ = 0 ∧ (s.data.length = 4 ∨ s.data.length = 8) ∧ leValue s.data < 2 ^ 32

theorem Reads.fits {s : Slot} {n : UInt32} (hreads : Reads s n) : FitsU32 s := by
  obtain ⟨htype, hwidth, hvalue⟩ := hreads
  exact ⟨htype, hwidth, hvalue ▸ n.toNat_lt⟩

theorem Reads.unique {s : Slot} {n n' : UInt32} (h : Reads s n) (h' : Reads s n') : n = n' :=
  UInt32.toNat_inj.mp (h.2.2.symm.trans h'.2.2)

theorem leValue_of_length_four {b : Bytes} (hb : b.length = 4) : leValue b < 2 ^ 32 := by
  have hvalue := leValue_lt b
  rw [hb] at hvalue
  exact hvalue

/-- The first four bytes decide the dword. -/
theorem toNat_leWord_append {b rest : Bytes} (hb : 4 ≤ b.length) :
    (leWord (b ++ rest)).toNat = leValue (b.take 4) := by
  match b with
  | x :: y :: z :: w :: tail => exact toNat_leWord x y z w (tail ++ rest)

/-- A value of 32 bits is in the first four bytes. -/
theorem leValue_take_four {b : Bytes} (hb : 4 ≤ b.length) (hvalue : leValue b < 2 ^ 32) :
    leValue (b.take 4) = leValue b := by
  have hsplit := leValue_append (b.take 4) (b.drop 4)
  rw [List.take_append_drop, List.length_take, Nat.min_eq_left hb] at hsplit
  omega

theorem FitsU32.reads {s : Slot} (hfits : FitsU32 s) : Reads s (dword s) := by
  obtain ⟨htype, hwidth, hvalue⟩ := hfits
  have hlength : 4 ≤ s.data.length := by omega
  refine ⟨htype, hwidth, ?_⟩
  rw [dword, Slot.argument, if_pos htype, toNat_leWord_append hlength,
    leValue_take_four hlength hvalue]

theorem dataLength_eq_iff (s : Slot) {k : UInt16} :
    s.argument.dataLength = k ↔ s.data.length = k.toNat := by
  rw [← UInt16.toNat_inj, ← s.toNat_dataLength]
  rfl

/-- `evaluate_u32` reads one Integer, whole. -/
theorem run_singleU32_ok {slots : List Slot} {bytes : Bytes} (hframed : Framed slots bytes)
    {n : UInt32} :
    (singleU32 (response slots bytes)).run = some (.ok n) ↔ ∃ s, slots = [s] ∧ Reads s n := by
  simp only [singleU32, run_ite_ok, run_bind_ok, run_throw_ok, run_pure_ok, run_arg_ok, and_false,
    false_or, or_false, ne_eq, not_not, count_eq_iff hframed]
  constructor
  · rintro ⟨hcount, a, ⟨s, hs, rfl⟩, htype, hwidth⟩
    obtain ⟨s', rfl⟩ := List.length_eq_one_iff.mp hcount
    cases hs
    refine ⟨s, rfl, ?_⟩
    have htype' : s.type_ = 0 := htype
    simp only [dataLength_eq_iff] at hwidth
    rcases hwidth with ⟨hfour, rfl⟩ | ⟨-, height, -, hvalue, rfl⟩
    · exact FitsU32.reads ⟨htype', .inl hfour, leValue_of_length_four hfour⟩
    · refine ⟨htype', .inr height, ?_⟩
      rw [UInt32.toNat_ofNat', Nat.mod_eq_of_lt hvalue]
      rfl
  · rintro ⟨s, rfl, hreads⟩
    refine ⟨rfl, _, ⟨s, rfl, rfl⟩, hreads.1, ?_⟩
    simp only [dataLength_eq_iff]
    rcases hreads.2.1 with hfour | height
    · exact .inl ⟨hfour, hreads.fits.reads.unique hreads⟩
    · have hvalue : leValue s.argument.data = n.toNat := hreads.2.2
      refine .inr ⟨?_, height, height, hvalue ▸ n.toNat_lt, ?_⟩
      · rw [height]
        decide
      · rw [hvalue, UInt32.ofNat_toNat]

theorem run_evaluateU32_ok {acpi : Acpi} {name : String} {args : Option (List AcpiMethodArgument)}
    {n : UInt32} :
    (acpi.evaluateU32 name args).run = some (.ok n) ↔ ∃ bytes s,
      Responds acpi ⟨name.toList, args⟩ bytes ∧ Framed [s] bytes ∧ Reads s n := by
  rw [Acpi.evaluateU32, run_bind_ok]
  constructor
  · rintro ⟨out, hout, hn⟩
    obtain ⟨bytes, slots, hresponds, hframed, rfl⟩ := run_query_ok.mp hout
    obtain ⟨s, rfl, hreads⟩ := (run_singleU32_ok hframed).mp hn
    exact ⟨bytes, s, hresponds, hframed, hreads⟩
  · rintro ⟨bytes, s, hresponds, hframed, hreads⟩
    exact ⟨_, run_query_ok.mpr ⟨bytes, [s], hresponds, hframed, rfl⟩,
      (run_singleU32_ok hframed).mpr ⟨s, rfl, hreads⟩⟩

/-- Two slots of one framed response have the same type and data. -/
theorem Framed.argument_eq {slots slots' : List Slot} {bytes : Bytes} (h : Framed slots bytes)
    (h' : Framed slots' bytes) : slots.map Slot.argument = slots'.map Slot.argument := by
  have hrun := run_tryFrom_framed h
  rw [run_tryFrom_framed h'] at hrun
  have hsame : response slots' bytes = response slots bytes := by simpa using hrun
  exact (congrArg AcpiEvalOutputBufferV1.arguments hsame).symm

/-- The driver answers the request with a single Integer, held in this slot. -/
def RespondsInteger (acpi : Acpi) (name : String) (args : List AcpiMethodArgument) (s : Slot) :
    Prop :=
  ∃ bytes, Responds acpi ⟨name.toList, some args⟩ bytes ∧ Framed [s] bytes ∧ s.type_ = 0

theorem run_eval_integer {acpi : Acpi} {name : String} {args : List AcpiMethodArgument} {s : Slot}
    (hresponds : RespondsInteger acpi name args s) :
    (acpi.eval name args).run =
      some (.ok [.integer (leWord (padTo 4 0 (s.data.take 4)))]) := by
  obtain ⟨bytes, hresponds, hframed, htype⟩ := hresponds
  rw [Acpi.eval, run_bind_ok]
  refine ⟨_, run_query_ok.mpr ⟨bytes, [s], hresponds, hframed, rfl⟩, ?_⟩
  rw [run_pure_ok, ← acpiValueFrom_integer, ← htype]
  rfl

/-- What evaluate_u32 accepts of it. -/
theorem run_evaluateU32_integer {acpi : Acpi} {name : String} {args : List AcpiMethodArgument}
    {s : Slot} (hresponds : RespondsInteger acpi name args s) {n : UInt32} :
    (acpi.evaluateU32 name (some args)).run = some (.ok n) ↔ Reads s n := by
  obtain ⟨bytes, hresponds, hframed, htype⟩ := hresponds
  rw [run_evaluateU32_ok]
  constructor
  · rintro ⟨bytes', s', hresponds', hframed', htype', hwidth, hvalue⟩
    cases hresponds.unique hresponds'
    have hsame := (List.cons_eq_cons.mp (Framed.argument_eq hframed hframed')).1
    have hdata : s.data = s'.data := congrArg AcpiMethodArgumentV1.data hsame
    exact ⟨htype, hdata ▸ hwidth, hdata ▸ hvalue⟩
  · intro hreads
    exact ⟨bytes, s, hresponds, hframed, hreads⟩

/-- The generic evaluation shows an Integer exactly as the typed one returns it. -/
def EvaluationsAgree (acpi : Acpi) (name : String) (args : List AcpiMethodArgument) : Prop :=
  ∀ v, (acpi.eval name args).run = some (.ok [.integer v]) ↔
    (acpi.evaluateU32 name (some args)).run = some (.ok v)

theorem leWord_padTo_take {s : Slot} (hfits : FitsU32 s) :
    leWord (padTo 4 0 (s.data.take 4)) = dword s := by
  obtain ⟨htype, hwidth, -⟩ := hfits
  have hlength : 4 ≤ s.data.length := by omega
  rw [dword, Slot.argument, if_pos htype]
  rcases hdata : s.data with _ | ⟨x, _ | ⟨y, _ | ⟨z, _ | ⟨w, tail⟩⟩⟩⟩
  case cons.cons.cons.cons => rfl
  all_goals simp [hdata] at hlength

/-- On a single Integer the evaluations agree exactly when it has four bytes, or eight and a value
that fits in 32 bits. -/
theorem evaluations_agree_iff (acpi : Acpi) (name : String) (args : List AcpiMethodArgument)
    (s : Slot) (hresponds : RespondsInteger acpi name args s) :
    EvaluationsAgree acpi name args ↔
      s.data.length = 4 ∨ (s.data.length = 8 ∧ leValue s.data < 2 ^ 32) := by
  have htype : s.type_ = 0 := hresponds.choose_spec.2.2
  constructor
  · intro hagree
    have hreads := (run_evaluateU32_integer hresponds).mp
      ((hagree _).mp (run_eval_integer hresponds))
    have hvalue := hreads.fits.2.2
    rcases hreads.2.1 with hfour | height
    · exact .inl hfour
    · exact .inr ⟨height, hvalue⟩
  · intro hwidth v
    have hfits : FitsU32 s := by
      rcases hwidth with hfour | ⟨height, hvalue⟩
      · exact ⟨htype, .inl hfour, leValue_of_length_four hfour⟩
      · exact ⟨htype, .inr height, hvalue⟩
    rw [run_evaluateU32_integer hresponds, run_eval_integer hresponds, leWord_padTo_take hfits]
    constructor
    · intro hv
      cases hv
      exact hfits.reads
    · intro hreads
      rw [hreads.unique hfits.reads]

/-- The driver of the source's tests gives one answer to every request. -/
def acpiWithResponse (response : Except ℤ Bytes) : Acpi where
  fanInstance := 0
  driver := fun _ => response

/-- The answer is one argument, padded with zeros. -/
theorem respondsInteger_output {name : String} {data : Bytes} (short : data.length < 2 ^ 16) :
    RespondsInteger (acpiWithResponse (.ok (output [(0, data)]))) name []
      (zeroSlot 0 data short) := by
  refine ⟨output [(0, data)], ⟨Nat.zero_le 7, _, rfl, rfl⟩, ?_, rfl⟩
  have hshort : ∀ a ∈ [((0 : UInt16), data)], a.2.length < 2 ^ 16 :=
    fun a ha => List.mem_singleton.mp ha ▸ short
  apply (framed_output_iff [(0, data)] hshort).mpr
  rw [output_eq]
  simp only [List.length_append, length_leBytes, List.flatMap_cons, List.flatMap_nil,
    List.length_nil, outputArgument, length_leBytes16, padTo, List.length_replicate]
  change 4 + (4 + (4 + (2 + (2 + (data.length + (4 - data.length))) + 0))) < 2 ^ 32
  omega

theorem evaluations_agree_eight_bytes :
    EvaluationsAgree (acpiWithResponse (.ok (output [(0, [45, 0, 0, 0, 0, 0, 0, 0])])))
      "\\_SB.ECT0._GCP" [] :=
  (evaluations_agree_iff _ "\\_SB.ECT0._GCP" [] _ (respondsInteger_output (by decide))).mpr
    (.inr ⟨rfl, by decide⟩)

/-- 2^32 in eight bytes is shown as 0 and rejected by the typed evaluation. -/
theorem wide_integer_shown_as_zero :
    let acpi := acpiWithResponse (.ok (output [(0, [0, 0, 0, 0, 1, 0, 0, 0])]))
    (acpi.eval "\\_SB.ECT0._GCP" []).run = some (.ok [.integer 0]) ∧
      ¬ EvaluationsAgree acpi "\\_SB.ECT0._GCP" [] := by
  have hresponds : RespondsInteger
      (acpiWithResponse (.ok (output [(0, [0, 0, 0, 0, 1, 0, 0, 0])]))) "\\_SB.ECT0._GCP" []
      (zeroSlot 0 [0, 0, 0, 0, 1, 0, 0, 0] (by decide)) := respondsInteger_output _
  have heval := run_eval_integer hresponds
  refine ⟨heval, ?_⟩
  intro hagree
  have hreads := (run_evaluateU32_integer hresponds).mp ((hagree 0).mp heval)
  exact absurd hreads.2.2 (by decide)

end AcpiSourceIntegers
