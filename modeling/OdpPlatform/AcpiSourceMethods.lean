import OdpPlatform.AcpiSourceIntegers
import Mathlib.Data.Rat.Floor

/-! # What the source methods make of a response

The methods over `evaluate_u32` answer with numbers the response holds. The others take the
dwords the parser kept, whatever their arguments were. -/
namespace AcpiSourceMethods

open ByteBuffer AcpiMethodBuffers AcpiOutputFormat EcScript AcpiSource AcpiSourceIntegers

variable {α : Type}

/-- The source methods that return numbers or acknowledge a request. -/
inductive SourceMethod (α : Type) where
  | getTemperature | getRpm | getMinRpm | getMaxRpm
  | getThreshold (t : Threshold)
  | setThreshold (t : Threshold) (value : α)
  | setRpm (rpm : α)
  | getBst
  | getCapabilities
  | getWakeStatus (id : AcpiTimerId)
  | getExpiredTimerWakePolicy (id : AcpiTimerId)
  | getTimerValue (id : AcpiTimerId)
  | setRealTime (timestamp : TimestampBytes)
  | setTimerValue (id : AcpiTimerId) (value : AlarmTimerSeconds)
  | setExpiredTimerWakePolicy (id : AcpiTimerId) (policy : AlarmExpiredWakePolicy)
  | clearWakeStatus (id : AcpiTimerId)

inductive Answer (α : Type) where
  | number (x : α)
  | bst (r : BstReturn)
  | capabilities (c : AcpiSource.TimeAlarmDeviceCapabilities)
  | wakeStatus (s : AcpiSource.TimerStatus)
  | wakePolicy (p : AlarmExpiredWakePolicy)
  | timerValue (v : AlarmTimerSeconds)
  | done

namespace SourceMethod

section

variable [HostFloat α] (acpi : Acpi) (flags : BatteryStateFlags)

def call : SourceMethod α → Query (Answer α)
  | getTemperature => .number <$> acpi.getTemperature
  | getRpm => .number <$> acpi.getRpm
  | getMinRpm => .number <$> acpi.getMinRpm
  | getMaxRpm => .number <$> acpi.getMaxRpm
  | getThreshold t => .number <$> acpi.getThreshold t
  | setThreshold t value => (fun _ => .done) <$> acpi.setThreshold t value
  | setRpm rpm => (fun _ => .done) <$> acpi.setRpm rpm
  | getBst => .bst <$> acpi.getBst flags
  | getCapabilities => .capabilities <$> acpi.getCapabilities
  | getWakeStatus id => .wakeStatus <$> acpi.getWakeStatus id
  | getExpiredTimerWakePolicy id => .wakePolicy <$> acpi.getExpiredTimerWakePolicy id
  | getTimerValue id => .timerValue <$> acpi.getTimerValue id
  | setRealTime timestamp => (fun _ => .done) <$> acpi.setRealTime timestamp
  | setTimerValue id value => (fun _ => .done) <$> acpi.setTimerValue id value
  | setExpiredTimerWakePolicy id policy =>
    (fun _ => .done) <$> acpi.setExpiredTimerWakePolicy id policy
  | clearWakeStatus id => (fun _ => .done) <$> acpi.clearWakeStatus id

def getVarInput (guid : UuidBytes) : AcpiMethodInput :=
  ⟨"\\_SB.ECT0.TGVR".toList, some [.int acpi.fanInstance.toUInt32, .guid (toBytesLe guid)]⟩

def setVarInput (guid : UuidBytes) (value : α) : AcpiMethodInput :=
  ⟨"\\_SB.ECT0.TSVR".toList,
    some [.int acpi.fanInstance.toUInt32, .guid (toBytesLe guid), .int (HostNumber.toU32 value)]⟩

def input : SourceMethod α → AcpiMethodInput
  | getTemperature => ⟨"\\_SB.ECT0.RTMP".toList, none⟩
  | getRpm => getVarInput acpi fanCurrentRpm
  | getMinRpm => getVarInput acpi fanMinRpm
  | getMaxRpm => getVarInput acpi fanMaxRpm
  | getThreshold t => getVarInput acpi (Acpi.thresholdGuid t)
  | setThreshold t value => setVarInput acpi (Acpi.thresholdGuid t) (ofU32 (cToDk value) : α)
  | setRpm rpm => setVarInput acpi fanCurrentRpm rpm
  | getBst => ⟨"\\_SB.ECT0.TBST".toList, none⟩
  | getCapabilities => ⟨"\\_SB.ECT0._GCP".toList, none⟩
  | getWakeStatus id => ⟨"\\_SB.ECT0._GWS".toList, some [.int (timerIdBits id)]⟩
  | getExpiredTimerWakePolicy id => ⟨"\\_SB.ECT0._TIP".toList, some [.int (timerIdBits id)]⟩
  | getTimerValue id => ⟨"\\_SB.ECT0._TIV".toList, some [.int (timerIdBits id)]⟩
  | setRealTime timestamp => ⟨"\\_SB.ECT0._SRT".toList, some [.buffer timestamp.bytes]⟩
  | setTimerValue id value =>
    ⟨"\\_SB.ECT0._STV".toList, some [.int (timerIdBits id), .int value.seconds]⟩
  | setExpiredTimerWakePolicy id policy =>
    ⟨"\\_SB.ECT0._STP".toList, some [.int (timerIdBits id), .int policy.seconds]⟩
  | clearWakeStatus id => ⟨"\\_SB.ECT0._CWS".toList, some [.int (timerIdBits id)]⟩

def single (answer : UInt32 → Answer α) : List UInt32 → Option (Answer α)
  | [n] => some (answer n)
  | _ => none

def acknowledged (answer : List UInt32 → Option (Answer α)) : List UInt32 → Option (Answer α)
  | status :: ns => if status = 0 then answer ns else none
  | [] => none

def nothingElse (answer : Answer α) : List UInt32 → Option (Answer α)
  | [] => some answer
  | _ :: _ => none

def batteryStatus : List UInt32 → Option (Answer α)
  | [state, rate, capacity, voltage] =>
    (flags.fromBits state).map fun s => .bst ⟨s, rate, capacity, voltage⟩
  | _ => none

def meaning : SourceMethod α → List UInt32 → Option (Answer α)
  | getTemperature => single fun n => .number (dkToC n)
  | getRpm | getMinRpm | getMaxRpm => acknowledged (single fun n => .number (ofU32 n))
  | getThreshold _ => acknowledged (single fun n => .number (dkToC n))
  | getBst => batteryStatus flags
  | getCapabilities => single fun n => .capabilities ⟨n⟩
  | getWakeStatus _ => single fun n => .wakeStatus ⟨n⟩
  | getExpiredTimerWakePolicy _ => single fun n => .wakePolicy ⟨n⟩
  | getTimerValue _ => single fun n => .timerValue ⟨n⟩
  | setThreshold _ _ | setRpm _ | setRealTime _ | setTimerValue _ _ | setExpiredTimerWakePolicy _ _
  | clearWakeStatus _ => acknowledged (nothingElse .done)

end

/-- The methods that go through `evaluate_u32`. -/
def IsChecked : SourceMethod α → Prop
  | getCapabilities | getWakeStatus _ | getExpiredTimerWakePolicy _ | getTimerValue _
  | setRealTime _ | setTimerValue _ _ | setExpiredTimerWakePolicy _ _ | clearWakeStatus _ => True
  | _ => False

section Checked

variable {acpi : Acpi}

theorem run_evaluateU32_map_ok {name : String} {args : Option (List AcpiMethodArgument)}
    {β γ : Type} {f : UInt32 → β} {g : β → γ} {x : γ} :
    (g <$> (do pure (f (← acpi.evaluateU32 name args)) : Query β)).run = some (.ok x) ↔
      ∃ bytes s n, Responds acpi ⟨name.toList, args⟩ bytes ∧ Framed [s] bytes ∧ Reads s n ∧
        some (g (f n)) = some x := by
  simp only [run_map_ok, run_bind_ok, run_pure_ok, run_evaluateU32_ok]
  constructor
  · rintro ⟨_, ⟨n, ⟨bytes, s, hresponds, hframed, hreads⟩, rfl⟩, rfl⟩
    exact ⟨bytes, s, n, hresponds, hframed, hreads, rfl⟩
  · rintro ⟨bytes, s, n, hresponds, hframed, hreads, hx⟩
    exact ⟨_, ⟨n, ⟨bytes, s, hresponds, hframed, hreads⟩, rfl⟩, Option.some.inj hx⟩

theorem run_acknowledge_map_ok {name : String} {args : List AcpiMethodArgument} {x : Answer α} :
    ((fun _ => .done) <$> acpi.acknowledge name args).run = some (.ok x) ↔
      ∃ bytes s n, Responds acpi ⟨name.toList, some args⟩ bytes ∧ Framed [s] bytes ∧ Reads s n ∧
        acknowledged (nothingElse .done) [n] = some x := by
  simp only [Acpi.acknowledge, run_map_ok, run_bind_ok, run_ite_ok, run_throw_ok, run_pure_ok,
    run_evaluateU32_ok, and_false, false_or, ne_eq, not_not]
  constructor
  · rintro ⟨-, ⟨n, ⟨bytes, s, hresponds, hframed, hreads⟩, hzero, -⟩, rfl⟩
    exact ⟨bytes, s, n, hresponds, hframed, hreads, if_pos hzero⟩
  · rintro ⟨bytes, s, n, hresponds, hframed, hreads, hx⟩
    obtain ⟨hzero, hdone⟩ := Option.ite_none_right_eq_some.mp hx
    exact ⟨(), ⟨n, ⟨bytes, s, hresponds, hframed, hreads⟩, hzero, trivial⟩, Option.some.inj hdone⟩

variable [HostFloat α] {flags : BatteryStateFlags}

/-- They answer with the Integer in the response. -/
theorem run_call_ok_checked {m : SourceMethod α} (hm : m.IsChecked) {x : Answer α} :
    (m.call acpi flags).run = some (.ok x) ↔ ∃ bytes s n,
      Responds acpi (m.input acpi) bytes ∧ Framed [s] bytes ∧ Reads s n ∧
        m.meaning flags [n] = some x := by
  cases m with
  | getTemperature => exact hm.elim
  | getRpm => exact hm.elim
  | getMinRpm => exact hm.elim
  | getMaxRpm => exact hm.elim
  | getThreshold t => exact hm.elim
  | setThreshold t value => exact hm.elim
  | setRpm rpm => exact hm.elim
  | getBst => exact hm.elim
  | getCapabilities => exact run_evaluateU32_map_ok
  | getWakeStatus id => exact run_evaluateU32_map_ok
  | getExpiredTimerWakePolicy id => exact run_evaluateU32_map_ok
  | getTimerValue id => exact run_evaluateU32_map_ok
  | setRealTime timestamp => exact run_acknowledge_map_ok
  | setTimerValue id value => exact run_acknowledge_map_ok
  | setExpiredTimerWakePolicy id policy => exact run_acknowledge_map_ok
  | clearWakeStatus id => exact run_acknowledge_map_ok

end Checked

section Direct

variable {acpi : Acpi}

/-- An evaluation whose arguments are counted first. -/
theorem run_query_count_ok {name : String} {args : Option (List AcpiMethodArgument)} {β : Type}
    {k : UInt32} {e : Error} {f : AcpiEvalOutputBufferV1 → Query β} {x : β} :
    ((acpi.query name args) >>= fun out => if out.count ≠ k then throw e else f out).run =
        some (.ok x) ↔
      ∃ bytes slots, Responds acpi ⟨name.toList, args⟩ bytes ∧ Framed slots bytes ∧
        slots.length = k.toNat ∧ (f (response slots bytes)).run = some (.ok x) := by
  rw [run_bind_ok]
  constructor
  · rintro ⟨out, hout, hx⟩
    obtain ⟨bytes, slots, hresponds, hframed, rfl⟩ := run_query_ok.mp hout
    rw [run_ite_ok, run_throw_ok, and_false, false_or, not_not, count_eq_iff hframed] at hx
    exact ⟨bytes, slots, hresponds, hframed, hx⟩
  · rintro ⟨bytes, slots, hresponds, hframed, hcount, hx⟩
    refine ⟨_, run_query_ok.mpr ⟨bytes, slots, hresponds, hframed, rfl⟩, ?_⟩
    rw [if_neg (not_not.mpr ((count_eq_iff hframed).mpr hcount))]
    exact hx

variable {flags : BatteryStateFlags}

theorem run_getBst_map_ok {x : Answer α} :
    (.bst <$> acpi.getBst flags).run = some (.ok x) ↔ ∃ bytes slots,
      Responds acpi ⟨"\\_SB.ECT0.TBST".toList, none⟩ bytes ∧ Framed slots bytes ∧
        batteryStatus flags (slots.map dword) = some x := by
  simp only [Acpi.getBst, run_map_ok, run_query_count_ok]
  constructor
  · rintro ⟨_, ⟨bytes, slots, hresponds, hframed, hcount, hx⟩, rfl⟩
    match slots, hcount with
    | [s₀, s₁, s₂, s₃], _ =>
      obtain ⟨_, hs₀, hx⟩ := run_bind_ok.mp hx
      obtain ⟨_, h₀, rfl⟩ := run_arg_ok.mp hs₀
      cases h₀
      refine ⟨bytes, _, hresponds, hframed, ?_⟩
      split at hx
      · exact (run_throw_ok.mp hx).elim
      next state hstate =>
        simp only [run_bind_ok, run_pure_ok, run_arg_ok] at hx
        obtain ⟨_, ⟨_, h₁, rfl⟩, _, ⟨_, h₂, rfl⟩, _, ⟨_, h₃, rfl⟩, rfl⟩ := hx
        cases h₁
        cases h₂
        cases h₃
        exact Option.map_eq_some_iff.mpr ⟨state, hstate, rfl⟩
  · rintro ⟨bytes, slots, hresponds, hframed, hx⟩
    match slots with
    | [] => cases hx
    | [_] => cases hx
    | [_, _] => cases hx
    | [_, _, _] => cases hx
    | [s₀, s₁, s₂, s₃] =>
      obtain ⟨state, hstate, hanswer⟩ := Option.map_eq_some_iff.mp hx
      refine ⟨_, ⟨bytes, _, hresponds, hframed, rfl, ?_⟩, hanswer⟩
      apply run_bind_ok.mpr ⟨_, run_arg_ok.mpr ⟨s₀, rfl, rfl⟩, ?_⟩
      change flags.fromBits s₀.argument.data32 = some state at hstate
      simp only [hstate, run_bind_ok, run_pure_ok, run_arg_ok]
      exact ⟨_, ⟨s₁, rfl, rfl⟩, _, ⟨s₂, rfl, rfl⟩, _, ⟨s₃, rfl, rfl⟩, rfl⟩
    | _ :: _ :: _ :: _ :: _ :: _ => cases hx

variable [HostFloat α]

/-- A status and a variable. -/
theorem run_acpiGetVar_map_ok {guid : UuidBytes} {f : α → Answer α} {x : Answer α} :
    (f <$> (acpi.acpiGetVar guid : Query α)).run = some (.ok x) ↔ ∃ bytes slots,
      Responds acpi (getVarInput acpi guid) bytes ∧ Framed slots bytes ∧
        acknowledged (single fun n => f (ofU32 n)) (slots.map dword) = some x := by
  simp only [Acpi.acpiGetVar, run_map_ok, run_query_count_ok]
  simp only [run_bind_ok, run_ite_ok, run_throw_ok, run_pure_ok, run_arg_ok, and_false, false_or,
    ne_eq, not_not]
  constructor
  · rintro ⟨_, ⟨bytes, slots, hresponds, hframed, hcount, _, ⟨s₀, h₀, rfl⟩, hstatus, _, ⟨s₁, h₁, rfl⟩,
      rfl⟩, rfl⟩
    obtain ⟨t₀, t₁, rfl⟩ := List.length_eq_two.mp hcount
    cases h₀
    cases h₁
    exact ⟨bytes, _, hresponds, hframed, if_pos hstatus⟩
  · rintro ⟨bytes, slots, hresponds, hframed, hx⟩
    match slots with
    | [] => cases hx
    | [s₀] => cases (Option.ite_none_right_eq_some.mp hx).2
    | [s₀, s₁] =>
      obtain ⟨hstatus, hanswer⟩ := Option.ite_none_right_eq_some.mp hx
      exact ⟨_, ⟨bytes, _, hresponds, hframed, rfl, _, ⟨s₀, rfl, rfl⟩, hstatus, _,
        ⟨s₁, rfl, rfl⟩, rfl⟩,
        Option.some.inj hanswer⟩
    | _ :: _ :: _ :: _ => cases (Option.ite_none_right_eq_some.mp hx).2

/-- A status alone. -/
theorem run_acpiSetVar_map_ok {guid : UuidBytes} {value : α} {x : Answer α} :
    ((fun _ => .done) <$> acpi.acpiSetVar guid value).run = some (.ok x) ↔ ∃ bytes slots,
      Responds acpi (setVarInput acpi guid value) bytes ∧ Framed slots bytes ∧
        acknowledged (nothingElse .done) (slots.map dword) = some x := by
  simp only [Acpi.acpiSetVar, run_map_ok, run_query_count_ok]
  simp only [run_bind_ok, run_ite_ok, run_throw_ok, run_pure_ok, run_arg_ok, and_false, false_or,
    ne_eq, not_not]
  constructor
  · rintro ⟨_, ⟨bytes, slots, hresponds, hframed, hcount, _, ⟨s, hs, rfl⟩, hstatus, -⟩, rfl⟩
    obtain ⟨t, rfl⟩ := List.length_eq_one_iff.mp hcount
    cases hs
    exact ⟨bytes, _, hresponds, hframed, if_pos hstatus⟩
  · rintro ⟨bytes, slots, hresponds, hframed, hx⟩
    match slots with
    | [] => cases hx
    | [s] =>
      obtain ⟨hstatus, hanswer⟩ := Option.ite_none_right_eq_some.mp hx
      exact ⟨(), ⟨bytes, _, hresponds, hframed, rfl, _, ⟨s, rfl, rfl⟩, hstatus, trivial⟩,
        Option.some.inj hanswer⟩
    | _ :: _ :: _ => cases (Option.ite_none_right_eq_some.mp hx).2

theorem run_getTemperature_map_ok {x : Answer α} :
    (.number <$> (acpi.getTemperature : Query α)).run = some (.ok x) ↔ ∃ bytes slots,
      Responds acpi ⟨"\\_SB.ECT0.RTMP".toList, none⟩ bytes ∧ Framed slots bytes ∧
        single (fun n => .number (dkToC n)) (slots.map dword) = some x := by
  simp only [Acpi.getTemperature, run_map_ok, run_query_count_ok]
  simp only [run_bind_ok, run_pure_ok, run_arg_ok]
  constructor
  · rintro ⟨_, ⟨bytes, slots, hresponds, hframed, hcount, _, ⟨s, hs, rfl⟩, rfl⟩, rfl⟩
    obtain ⟨t, rfl⟩ := List.length_eq_one_iff.mp hcount
    cases hs
    exact ⟨bytes, _, hresponds, hframed, rfl⟩
  · rintro ⟨bytes, slots, hresponds, hframed, hx⟩
    match slots with
    | [] => cases hx
    | [s] =>
      exact ⟨_, ⟨bytes, _, hresponds, hframed, rfl, _, ⟨s, rfl, rfl⟩, rfl⟩, Option.some.inj hx⟩
    | _ :: _ :: _ => cases hx

/-- They answer with the dwords of the response. -/
theorem run_call_ok_direct [LawfulHostFloat α] {m : SourceMethod α} (hm : ¬m.IsChecked)
    {x : Answer α} :
    (m.call acpi flags).run = some (.ok x) ↔ ∃ bytes slots,
      Responds acpi (m.input acpi) bytes ∧ Framed slots bytes ∧
        m.meaning flags (slots.map dword) = some x := by
  cases m with
  | getTemperature => exact run_getTemperature_map_ok
  | getRpm => exact run_acpiGetVar_map_ok
  | getMinRpm => exact run_acpiGetVar_map_ok
  | getMaxRpm => exact run_acpiGetVar_map_ok
  | getThreshold t =>
    have hmap : (getThreshold t : SourceMethod α).call acpi flags =
        (fun v => .number (dkToC (HostNumber.toU32 v))) <$>
          (acpi.acpiGetVar (Acpi.thresholdGuid t) : Query α) := by
      simp only [call, Acpi.getThreshold, map_eq_pure_bind, bind_assoc, pure_bind]
    rw [hmap, run_acpiGetVar_map_ok]
    simp only [LawfulHostFloat.toU32_ofU32]
    rfl
  | setThreshold t value => exact run_acpiSetVar_map_ok
  | setRpm rpm => exact run_acpiSetVar_map_ok
  | getBst => exact run_getBst_map_ok
  | getCapabilities => exact absurd trivial hm
  | getWakeStatus id => exact absurd trivial hm
  | getExpiredTimerWakePolicy id => exact absurd trivial hm
  | getTimerValue id => exact absurd trivial hm
  | setRealTime timestamp => exact absurd trivial hm
  | setTimerValue id value => exact absurd trivial hm
  | setExpiredTimerWakePolicy id policy => exact absurd trivial hm
  | clearWakeStatus id => exact absurd trivial hm

end Direct

section Shapes

variable {slots : List Slot}

theorem exists_single {f : UInt32 → Answer α} :
    (∃ x, single f (slots.map dword) = some x) ↔ slots.length = 1 := by
  match slots with
  | [] => simp [single]
  | [_] => simp [single]
  | _ :: _ :: _ => simp [single]

theorem exists_pair {f : UInt32 → Answer α} :
    (∃ x, acknowledged (single f) (slots.map dword) = some x) ↔
      slots.length = 2 ∧ ∀ s ∈ slots.head?, dword s = 0 := by
  match slots with
  | [] => simp [acknowledged]
  | [_] => simp [acknowledged, single]
  | [_, _] => simp [acknowledged, single]
  | _ :: _ :: _ :: _ => simp [acknowledged, single]

theorem exists_status :
    (∃ x, acknowledged (nothingElse (.done : Answer α)) (slots.map dword) = some x) ↔
      slots.length = 1 ∧ ∀ s ∈ slots.head?, dword s = 0 := by
  match slots with
  | [] => simp [acknowledged]
  | [_] => simp [acknowledged, nothingElse]
  | _ :: _ :: _ => simp [acknowledged, nothingElse]

theorem exists_bst {flags : BatteryStateFlags} :
    (∃ x, batteryStatus (α := α) flags (slots.map dword) = some x) ↔
      slots.length = 4 ∧ ∀ s ∈ slots.head?, dword s &&& ~~~flags.known = 0 := by
  match slots with
  | [] => simp [batteryStatus]
  | [_] => simp [batteryStatus]
  | [_, _] => simp [batteryStatus]
  | [_, _, _] => simp [batteryStatus]
  | [_, _, _, _] => simp [batteryStatus, flags.fromBits_eq]
  | _ :: _ :: _ :: _ :: _ :: _ => simp [batteryStatus]

end Shapes

section Honesty

variable [HostFloat α] (acpi : Acpi) (flags : BatteryStateFlags)

/-- An answer stands for numbers that the response's arguments are, as whole Integers. -/
def Honest (m : SourceMethod α) : Prop :=
  ∀ x, (m.call acpi flags).run = some (.ok x) → ∃ bytes slots ns,
    Responds acpi (m.input acpi) bytes ∧ Framed slots bytes ∧ List.Forall₂ Reads slots ns ∧
      m.meaning flags ns = some x

/-- The method takes the dwords of these arguments as they are, and their count, status or state
bits pass its checks. -/
def TakesUnchecked : SourceMethod α → List Slot → Prop
  | getTemperature, slots => slots.length = 1
  | getRpm, slots | getMinRpm, slots | getMaxRpm, slots | getThreshold _, slots =>
    slots.length = 2 ∧ ∀ s ∈ slots.head?, dword s = 0
  | setThreshold _ _, slots | setRpm _, slots => slots.length = 1 ∧ ∀ s ∈ slots.head?, dword s = 0
  | getBst, slots => slots.length = 4 ∧ ∀ s ∈ slots.head?, dword s &&& ~~~flags.known = 0
  | _, _ => False

variable {acpi flags}

theorem takesUnchecked_iff {m : SourceMethod α} {slots : List Slot} :
    m.TakesUnchecked flags slots ↔
      ¬m.IsChecked ∧ ∃ x, m.meaning flags (slots.map dword) = some x := by
  cases m with
  | getTemperature => exact ⟨fun h => ⟨id, exists_single.mpr h⟩, fun h => exists_single.mp h.2⟩
  | getRpm => exact ⟨fun h => ⟨id, exists_pair.mpr h⟩, fun h => exists_pair.mp h.2⟩
  | getMinRpm => exact ⟨fun h => ⟨id, exists_pair.mpr h⟩, fun h => exists_pair.mp h.2⟩
  | getMaxRpm => exact ⟨fun h => ⟨id, exists_pair.mpr h⟩, fun h => exists_pair.mp h.2⟩
  | getThreshold t => exact ⟨fun h => ⟨id, exists_pair.mpr h⟩, fun h => exists_pair.mp h.2⟩
  | setThreshold t value => exact ⟨fun h => ⟨id, exists_status.mpr h⟩, fun h => exists_status.mp h.2⟩
  | setRpm rpm => exact ⟨fun h => ⟨id, exists_status.mpr h⟩, fun h => exists_status.mp h.2⟩
  | getBst => exact ⟨fun h => ⟨id, exists_bst.mpr h⟩, fun h => exists_bst.mp h.2⟩
  | getCapabilities => exact ⟨nofun, fun h => h.1 trivial⟩
  | getWakeStatus id => exact ⟨nofun, fun h => h.1 trivial⟩
  | getExpiredTimerWakePolicy id => exact ⟨nofun, fun h => h.1 trivial⟩
  | getTimerValue id => exact ⟨nofun, fun h => h.1 trivial⟩
  | setRealTime timestamp => exact ⟨nofun, fun h => h.1 trivial⟩
  | setTimerValue id value => exact ⟨nofun, fun h => h.1 trivial⟩
  | setExpiredTimerWakePolicy id policy => exact ⟨nofun, fun h => h.1 trivial⟩
  | clearWakeStatus id => exact ⟨nofun, fun h => h.1 trivial⟩

/-- FitsU32 looks at type and data. -/
theorem fitsU32_of_argument_eq {s s' : Slot} (hsame : s.argument = s'.argument)
    (hfits : FitsU32 s) : FitsU32 s' := by
  have htype : s.type_ = s'.type_ := congrArg AcpiMethodArgumentV1.type_ hsame
  have hdata : s.data = s'.data := congrArg AcpiMethodArgumentV1.data hsame
  rw [FitsU32, ← htype, ← hdata]
  exact hfits

theorem fits_of_framed {slots slots' : List Slot} {bytes : Bytes} (h : Framed slots bytes)
    (h' : Framed slots' bytes) (hfits : ∀ s ∈ slots, FitsU32 s) : ∀ s ∈ slots', FitsU32 s := by
  intro s hs
  have hmem : s.argument ∈ slots.map Slot.argument := by
    rw [Framed.argument_eq h h']
    exact List.mem_map_of_mem hs
  obtain ⟨t, ht, hsame⟩ := List.mem_map.mp hmem
  exact fitsU32_of_argument_eq hsame (hfits t ht)

theorem forall_reads_dword {slots : List Slot} (hfits : ∀ s ∈ slots, FitsU32 s) :
    List.Forall₂ Reads slots (slots.map dword) := by
  rw [List.forall₂_map_right_iff, List.forall₂_same]
  exact fun s hs => (hfits s hs).reads

theorem fits_of_forall_reads {slots : List Slot} {ns : List UInt32}
    (hreads : List.Forall₂ Reads slots ns) : ∀ s ∈ slots, FitsU32 s := by
  induction hreads with
  | nil => nofun
  | cons hread _ ih =>
    rw [List.forall_mem_cons]
    exact ⟨hread.fits, ih⟩

end Honesty

end SourceMethod

open SourceMethod

/-- A source method is honest exactly when whatever it takes unchecked are Integers of four bytes,
or of eight whose values fit in 32 bits. -/
theorem source_honest_iff [HostFloat α] [LawfulHostFloat α] (acpi : Acpi) (flags : BatteryStateFlags)
    (m : SourceMethod α) :
    m.Honest acpi flags ↔ ∀ bytes slots, Responds acpi (m.input acpi) bytes → Framed slots bytes →
      m.TakesUnchecked flags slots → ∀ s ∈ slots, FitsU32 s := by
  constructor
  · intro hhonest bytes slots hresponds hframed hunchecked
    obtain ⟨hdirect, x, hx⟩ := takesUnchecked_iff.mp hunchecked
    have hcall := (run_call_ok_direct hdirect).mpr ⟨bytes, slots, hresponds, hframed, hx⟩
    obtain ⟨bytes', slots', ns, hresponds', hframed', hreads, -⟩ := hhonest x hcall
    cases hresponds.unique hresponds'
    exact fits_of_framed hframed' hframed (fits_of_forall_reads hreads)
  · intro hfits x hcall
    by_cases hm : m.IsChecked
    · obtain ⟨bytes, s, n, hresponds, hframed, hread, hx⟩ := (run_call_ok_checked hm).mp hcall
      exact ⟨bytes, [s], [n], hresponds, hframed, .cons hread .nil, hx⟩
    · obtain ⟨bytes, slots, hresponds, hframed, hx⟩ := (run_call_ok_direct hm).mp hcall
      have hall := hfits bytes slots hresponds hframed (takesUnchecked_iff.mpr ⟨hm, x, hx⟩)
      exact ⟨bytes, slots, _, hresponds, hframed, forall_reads_dword hall, hx⟩

instance : HostNumber ℚ where
  eq a b := a == b
  lt a b := a < b
  le a b := a ≤ b
  isFinite _ := true
  ofInt n := n
  toU32 q := UInt32.ofNat (min ⌊q⌋.toNat (2 ^ 32 - 1))
  text := toString

/-- Exact numbers instead of `f64`. -/
instance : HostFloat ℚ where
  round q := if 0 ≤ q then ⌊q + 1 / 2⌋ else ⌈q - 1 / 2⌉

instance : LawfulHostFloat ℚ where
  toU32_ofU32 n := by
    have hn : n.toNat ≤ 2 ^ 32 - 1 := Nat.le_pred_of_lt n.toNat_lt
    change UInt32.ofNat (min ⌊((n.toNat : ℤ) : ℚ)⌋.toNat (2 ^ 32 - 1)) = n
    rw [Int.floor_intCast, Int.toNat_natCast, Nat.min_eq_left hn, UInt32.ofNat_toNat]

def fourFlags : BatteryStateFlags where
  known := 0xf
  fromBits bits := if bits &&& ~~~0xf = 0 then some bits else none
  fromBits_eq _ := rfl

theorem responds_setVarInput [HostFloat α] {guid : UuidBytes} {value : α} {bytes : Bytes} :
    Responds (acpiWithResponse (.ok bytes))
      (setVarInput (acpiWithResponse (.ok bytes)) guid value) bytes := by
  refine ⟨?_, _, rfl, rfl⟩
  exact show 3 ≤ 7 by decide

/-- The response to set_rpm is the Integer 0. -/
theorem set_rpm_honest_on_zero :
    (SourceMethod.setRpm (1000 : ℚ)).Honest (acpiWithResponse (.ok (output [(0, leBytes 0)])))
      fourFlags := by
  apply (source_honest_iff _ fourFlags (SourceMethod.setRpm (1000 : ℚ))).mpr
  rintro bytes slots ⟨-, _, -, hdriver⟩ hframed -
  cases hdriver
  have hzero : Framed [zeroSlot 0 (leBytes 0) (by decide)] (output [(0, leBytes 0)]) :=
    (framed_output_iff [(0, leBytes 0)] (by decide)).mpr (by decide)
  apply fits_of_framed hzero hframed
  intro s hs
  rw [List.mem_singleton.mp hs]
  exact ⟨rfl, .inl rfl, by decide⟩

/-- The response to set_rpm is a Buffer, and the request counts as acknowledged. -/
theorem set_rpm_acknowledged_by_buffer :
    let acpi := acpiWithResponse (.ok (output [(2, [1, 0, 0, 0])]))
    ((SourceMethod.setRpm (1000 : ℚ)).call acpi fourFlags).run = some (.ok .done) ∧
      ¬ (SourceMethod.setRpm (1000 : ℚ)).Honest acpi fourFlags := by
  have hframed : Framed [zeroSlot 2 [1, 0, 0, 0] (by decide)] (output [(2, [1, 0, 0, 0])]) :=
    (framed_output_iff [(2, [1, 0, 0, 0])] (by decide)).mpr (by decide)
  have hcall : ((SourceMethod.setRpm (1000 : ℚ)).call
      (acpiWithResponse (.ok (output [(2, [1, 0, 0, 0])]))) fourFlags).run = some (.ok .done) := by
    apply (run_call_ok_direct id).mpr
    exact ⟨_, _, responds_setVarInput, hframed, rfl⟩
  refine ⟨hcall, ?_⟩
  intro hhonest
  obtain ⟨bytes, slots, ns, ⟨-, _, -, hdriver⟩, hslots, hreads, -⟩ := hhonest _ hcall
  cases hdriver
  have hfits := fits_of_framed hslots hframed (fits_of_forall_reads hreads) _ List.mem_cons_self
  exact absurd hfits.1 (by decide)

end AcpiSourceMethods
