import Mathlib.Algebra.Group.Nat.Defs
import Mathlib.Algebra.Ring.Int.Defs
import Mathlib.Logic.Function.Basic
import OdpPlatform.InteractionProgram

/-! # test-script: parsed statements and their execution

`f64` is any type with the operations that the executor uses of it. The EC source and the clock
are the environment of a program; what the runner prints is a list of rows. -/
namespace EcScript

open InteractionProgram

class HostNumber (α : Type) where
  eq : α → α → Bool
  lt : α → α → Bool
  le : α → α → Bool
  isFinite : α → Bool
  ofInt : ℤ → α
  toU32 : α → UInt32
  text : α → String

instance : HostNumber Float where
  eq a b := a == b
  lt a b := a < b
  le a b := a ≤ b
  isFinite := Float.isFinite
  ofInt := Float.ofInt
  toU32 := Float.toUInt32
  text := toString

/-! ## value.rs -/

inductive Value (α : Type) where
  | unit
  | num (n : α)
  | bool (b : Bool)
  | struct (fields : List (String × Value α))

namespace Value

variable {α : Type}

def kindName : Value α → String
  | .unit => "unit"
  | .num _ => "number"
  | .bool _ => "bool"
  | .struct _ => "struct"

def field (seg : String) : Value α → Except String (Value α)
  | .struct fields =>
    match fields.find? fun field => field.1 == seg with
    | some (_, v) => .ok v
    | none =>
      .error ("no field `" ++ seg ++ "` (have: " ++ ", ".intercalate (fields.map Prod.fst) ++ ")")
  | other => .error ("cannot project `." ++ seg ++ "` on " ++ other.kindName)

def project : Value α → List String → Except String (Value α)
  | cur, [] => .ok cur
  | cur, seg :: path =>
    match cur.field seg with
    | .ok next => next.project path
    | .error e => .error e

def asNum : Value α → Except String α
  | .num n => .ok n
  | other => .error ("expected number, got " ++ other.kindName)

end Value

section Display

variable {α : Type} [HostNumber α]

mutual

def Value.display : Value α → String
  | .unit => "()"
  | .num n => HostNumber.text n
  | .bool b => if b then "true" else "false"
  | .struct fields => "\x7b " ++ displayFields fields ++ " \x7d"

def displayFields : List (String × Value α) → String
  | [] => ""
  | [field] => displayField field
  | field :: rest => displayField field ++ ", " ++ displayFields rest

def displayField : String × Value α → String
  | (k, v) => k ++ ": " ++ v.display

end

end Display

inductive Threshold where
  | on | ramping | max
  deriving DecidableEq, Repr

inductive AcpiTimerId where
  | acPower | dcPower
  deriving DecidableEq, Repr

structure AcpiTimestamp where
  unixTimestamp : ℤ
  deriving DecidableEq, Repr

structure BstReturn where
  batteryState : UInt32
  batteryPresentRate : UInt32
  batteryRemainingCapacity : UInt32
  batteryPresentVoltage : UInt32
  deriving DecidableEq, Repr

structure BixFixedStrings where
  revision : UInt32
  designCapacity : UInt32
  lastFullChargeCapacity : UInt32
  designVoltage : UInt32
  designCapOfWarning : UInt32
  designCapOfLow : UInt32
  cycleCount : UInt32
  measurementAccuracy : UInt32
  maxSamplingTime : UInt32
  minSamplingTime : UInt32
  maxAveragingInterval : UInt32
  minAveragingInterval : UInt32
  batteryCapacityGranularity1 : UInt32
  batteryCapacityGranularity2 : UInt32
  deriving DecidableEq, Repr

structure TimeAlarmDeviceCapabilities where
  acWakeImplemented : Bool
  dcWakeImplemented : Bool
  realtimeImplemented : Bool
  realtimeAccuracyInMilliseconds : Bool
  getWakeStatusSupported : Bool
  acS4WakeSupported : Bool
  acS5WakeSupported : Bool
  dcS4WakeSupported : Bool
  dcS5WakeSupported : Bool
  deriving DecidableEq, Repr

structure TimerStatus where
  timerExpired : Bool
  timerTriggeredWake : Bool
  deriving DecidableEq, Repr

inductive ErrorKind where
  | unexpectedResponse | invalidData | io | protocol | serialization | other
  deriving DecidableEq, Repr

def ErrorKind.debug : ErrorKind → String
  | .unexpectedResponse => "UnexpectedResponse"
  | .invalidData => "InvalidData"
  | .io => "Io"
  | .protocol => "Protocol"
  | .serialization => "Serialization"
  | .other => "Other"

structure SourceError where
  display : String
  kind : ErrorKind

/-- The methods of `Source`, and `thread::sleep` for so many microseconds. -/
inductive SourceCall (α : Type) where
  | getTemperature | getRpm | getMinRpm | getMaxRpm
  | getThreshold (t : Threshold)
  | setThreshold (t : Threshold) (value : α)
  | setRpm (rpm : α)
  | getBst | getBix
  | setBtp (tripPoint : UInt32)
  | getCapabilities | getRealTime
  | setRealTime (timestamp : AcpiTimestamp)
  | getWakeStatus (id : AcpiTimerId)
  | getExpiredTimerWakePolicy (id : AcpiTimerId)
  | getTimerValue (id : AcpiTimerId)
  | setTimerValue (id : AcpiTimerId) (value : UInt32)
  | setExpiredTimerWakePolicy (id : AcpiTimerId) (policy : UInt32)
  | clearWakeStatus (id : AcpiTimerId)
  | sleep (microseconds : ℕ)

@[reducible] def SourceAnswer {α : Type} : SourceCall α → Type
  | .getTemperature | .getRpm | .getMinRpm | .getMaxRpm | .getThreshold _ => Except SourceError α
  | .getBst => Except SourceError BstReturn
  | .getBix => Except SourceError BixFixedStrings
  | .getCapabilities => Except SourceError TimeAlarmDeviceCapabilities
  | .getRealTime => Except SourceError AcpiTimestamp
  | .getWakeStatus _ => Except SourceError TimerStatus
  | .getExpiredTimerWakePolicy _ | .getTimerValue _ => Except SourceError UInt32
  | .setThreshold _ _ | .setRpm _ | .setBtp _ | .setRealTime _ | .setTimerValue _ _
  | .setExpiredTimerWakePolicy _ _ | .clearWakeStatus _ => Except SourceError Unit
  | .sleep _ => Unit

abbrev Script (α : Type) := Program (SourceAnswer (α := α))
abbrev ScriptTrace (α : Type) := Trace (SourceAnswer (α := α))
abbrev SourceEnv (α : Type) := Environment (SourceAnswer (α := α))

abbrev askSource {α : Type} (c : SourceCall α) : Script α (SourceAnswer c) := Program.call c

/-! ## parser.rs: statements -/

inductive Operand (α : Type) where
  | num (n : α)
  | bool (b : Bool)
  | var (name : String)

inductive Target where
  | thermal | battery | rtc
  deriving DecidableEq, Repr

inductive Method (α : Type) where
  | getTemperature | getRpm | getMinRpm | getMaxRpm
  | getThreshold (t : Threshold)
  | setThreshold (t : Threshold) (value : Operand α)
  | setRpm (rpm : Operand α)
  | getBst | getBix
  | setBtp (tripPoint : Operand α)
  | getCapabilities | getRealTime
  | setRealTime (timestamp : AcpiTimestamp)
  | getWakeStatus (id : AcpiTimerId)
  | getExpiredTimerWakePolicy (id : AcpiTimerId)
  | getTimerValue (id : AcpiTimerId)
  | setTimerValue (id : AcpiTimerId) (value : Operand α)
  | setExpiredTimerWakePolicy (id : AcpiTimerId) (policy : Operand α)
  | clearWakeStatus (id : AcpiTimerId)

structure Call (α : Type) where
  target : Target
  method : Method α
  projection : List String := []

inductive Verb (α : Type) where
  | eq (op : Operand α) | ne (op : Operand α) | gt (op : Operand α) | ge (op : Operand α)
  | lt (op : Operand α) | le (op : Operand α)
  | inRange (lo hi : α) (inclusive : Bool)
  | isOk | isErr
  | okEq (op : Operand α) | okGt (op : Operand α) | okGe (op : Operand α) | okLt (op : Operand α)
  | okLe (op : Operand α)
  | okInRange (lo hi : α) (inclusive : Bool)

/-- `source` is the text of the statement, which the runner prints. -/
inductive Stmt (α : Type) where
  | check (line : ℕ) (source : String) (call : Call α) (verb : Verb α)
  | letStmt (line : ℕ) (source : String) (name : String) (call : Call α)
  | sleep (line : ℕ) (microseconds : ℕ)

/-! ## runner.rs -/

inductive Outcome where
  | pass | fail
  deriving DecidableEq, Repr

/-- A printed row; the detail is printed for failures only. -/
structure Row where
  line : ℕ
  name : String
  outcome : Outcome
  detail : String
  deriving DecidableEq, Repr

/-- The counts wrap, as in a build without overflow checks. -/
structure Runner where
  passed : UInt32 := 0
  failed : UInt32 := 0
  rows : List Row := []

def Runner.record (runner : Runner) (line : ℕ) (name : String) (outcome : Outcome)
    (detail : String) : Runner :=
  match outcome with
  | .pass =>
    { runner with
      passed := runner.passed + 1
      rows := runner.rows ++ [⟨line, name, .pass, ""⟩] }
  | .fail =>
    { runner with
      failed := runner.failed + 1
      rows := runner.rows ++ [⟨line, name, .fail, detail⟩] }

/-! ## exec.rs -/

section Exec

variable {α : Type} [HostNumber α]

/-- `HashMap<String, Value>` -/
abbrev Env (α : Type) := String → Option (Value α)

def undefinedVariable (name : String) : String := "undefined variable `" ++ name ++ "`"

def numArg (op : Operand α) (env : Env α) : Except String α :=
  match op with
  | .num n => .ok n
  | .bool _ => .error "setter argument: expected number, got bool"
  | .var name =>
    match env name with
    | none => .error (undefinedVariable name)
    | some v => v.asNum

def u32Arg (op : Operand α) (env : Env α) : Except String UInt32 :=
  match numArg op env with
  | .error e => .error e
  | .ok n =>
    if HostNumber.isFinite n = false ∨ HostNumber.lt n (HostNumber.ofInt 0) = true ∨
        HostNumber.lt (HostNumber.ofInt (2 ^ 32 - 1)) n = true then
      .error ("setter argument: " ++ HostNumber.text n ++ " out of u32 range")
    else
      .ok (HostNumber.toU32 n)

def SourceError.text (e : SourceError) : String := e.display ++ " (" ++ e.kind.debug ++ ")"

def answered {β : Type} (call : Script α (Except SourceError β)) (convert : β → Value α) :
    Script α (Except String (Value α)) := do
  match ← call with
  | .ok b => pure (.ok (convert b))
  | .error e => pure (.error e.text)

/-- The `?` behind a setter's argument. -/
def withArg {β : Type} (arg : Except String β) (setter : β → Script α (Except String (Value α))) :
    Script α (Except String (Value α)) :=
  match arg with
  | .ok b => setter b
  | .error e => pure (.error e)

def acknowledged (_ : Unit) : Value α := .unit

def u32Value (n : UInt32) : Value α := .num (HostNumber.ofInt n.toNat)

def bstToValue (b : BstReturn) : Value α :=
  .struct [("battery_state", u32Value b.batteryState),
    ("battery_present_rate", u32Value b.batteryPresentRate),
    ("battery_remaining_capacity", u32Value b.batteryRemainingCapacity),
    ("battery_present_voltage", u32Value b.batteryPresentVoltage)]

def bixToValue (b : BixFixedStrings) : Value α :=
  .struct [("revision", u32Value b.revision),
    ("design_capacity", u32Value b.designCapacity),
    ("last_full_charge_capacity", u32Value b.lastFullChargeCapacity),
    ("design_voltage", u32Value b.designVoltage),
    ("design_cap_of_warning", u32Value b.designCapOfWarning),
    ("design_cap_of_low", u32Value b.designCapOfLow),
    ("cycle_count", u32Value b.cycleCount),
    ("measurement_accuracy", u32Value b.measurementAccuracy),
    ("max_sampling_time", u32Value b.maxSamplingTime),
    ("min_sampling_time", u32Value b.minSamplingTime),
    ("max_averaging_interval", u32Value b.maxAveragingInterval),
    ("min_averaging_interval", u32Value b.minAveragingInterval),
    ("battery_capacity_granularity_1", u32Value b.batteryCapacityGranularity1),
    ("battery_capacity_granularity_2", u32Value b.batteryCapacityGranularity2)]

def capsToValue (c : TimeAlarmDeviceCapabilities) : Value α :=
  .struct [("ac_wake_implemented", .bool c.acWakeImplemented),
    ("dc_wake_implemented", .bool c.dcWakeImplemented),
    ("realtime_implemented", .bool c.realtimeImplemented),
    ("realtime_accuracy_in_milliseconds", .bool c.realtimeAccuracyInMilliseconds),
    ("get_wake_status_supported", .bool c.getWakeStatusSupported),
    ("ac_s4_wake_supported", .bool c.acS4WakeSupported),
    ("ac_s5_wake_supported", .bool c.acS5WakeSupported),
    ("dc_s4_wake_supported", .bool c.dcS4WakeSupported),
    ("dc_s5_wake_supported", .bool c.dcS5WakeSupported)]

def wakeStatusToValue (s : TimerStatus) : Value α :=
  .struct [("timer_expired", .bool s.timerExpired),
    ("timer_triggered_wake", .bool s.timerTriggeredWake)]

def timestampToValue (t : AcpiTimestamp) : Value α :=
  let unix : Value α := .num (HostNumber.ofInt t.unixTimestamp)
  .struct [("datetime", .struct [("unix_timestamp", unix), ("to_unix_time_seconds", unix)]),
    ("unix_timestamp", unix)]

/-- `policy_to_value` and `timer_value_to_value` -/
def wrappedToValue (n : UInt32) : Value α := .struct [("0", u32Value n), ("value", u32Value n)]

def invoke (m : Method α) (env : Env α) : Script α (Except String (Value α)) :=
  match m with
  | .getTemperature => answered (askSource .getTemperature) .num
  | .getRpm => answered (askSource .getRpm) .num
  | .getMinRpm => answered (askSource .getMinRpm) .num
  | .getMaxRpm => answered (askSource .getMaxRpm) .num
  | .getThreshold t => answered (askSource (.getThreshold t)) .num
  | .setRpm rpm =>
    withArg (numArg rpm env) fun n => answered (askSource (.setRpm n)) acknowledged
  | .setThreshold t v =>
    withArg (numArg v env) fun n => answered (askSource (.setThreshold t n)) acknowledged
  | .getBst => answered (askSource .getBst) bstToValue
  | .getBix => answered (askSource .getBix) bixToValue
  | .setBtp v => withArg (u32Arg v env) fun n => answered (askSource (.setBtp n)) acknowledged
  | .getCapabilities => answered (askSource .getCapabilities) capsToValue
  | .getRealTime => answered (askSource .getRealTime) timestampToValue
  | .setRealTime timestamp => answered (askSource (.setRealTime timestamp)) acknowledged
  | .getWakeStatus id => answered (askSource (.getWakeStatus id)) wakeStatusToValue
  | .getExpiredTimerWakePolicy id =>
    answered (askSource (.getExpiredTimerWakePolicy id)) wrappedToValue
  | .getTimerValue id => answered (askSource (.getTimerValue id)) wrappedToValue
  | .setTimerValue id v =>
    withArg (u32Arg v env) fun n => answered (askSource (.setTimerValue id n)) acknowledged
  | .setExpiredTimerWakePolicy id v =>
    withArg (u32Arg v env) fun n =>
      answered (askSource (.setExpiredTimerWakePolicy id n)) acknowledged
  | .clearWakeStatus id => answered (askSource (.clearWakeStatus id)) acknowledged

def evalCall (call : Call α) (env : Env α) : Script α (Except String (Value α)) := do
  match ← invoke call.method env with
  | .error e => pure (.error e)
  | .ok v => pure (v.project call.projection)

def resolve (op : Operand α) (env : Env α) : Except String (Value α) :=
  match op with
  | .num n => .ok (.num n)
  | .bool b => .ok (.bool b)
  | .var name =>
    match env name with
    | some v => .ok v
    | none => .error (undefinedVariable name)

inductive Comparison where
  | eq | ne | gt | ge | lt | le
  deriving DecidableEq, Repr

def Comparison.sym : Comparison → String
  | .eq => "==" | .ne => "!=" | .gt => ">" | .ge => ">=" | .lt => "<" | .le => "<="

def Comparison.holds : Comparison → α → α → Bool
  | .eq, a, b => HostNumber.eq a b
  | .ne, a, b => !HostNumber.eq a b
  | .gt, a, b => HostNumber.lt b a
  | .ge, a, b => HostNumber.le b a
  | .lt, a, b => HostNumber.lt a b
  | .le, a, b => HostNumber.le a b

def verdict (ok : Bool) (detail : String) : Bool × String :=
  if ok then (true, "") else (false, detail)

/-- The numeric branch of `cmp`. -/
def cmpNum (comparison : Comparison) (value rhs : Value α) : Bool × String :=
  match value.asNum, rhs.asNum with
  | .ok a, .ok b =>
    verdict (comparison.holds a b)
      ("actual=" ++ HostNumber.text a ++ " expected" ++ comparison.sym ++ HostNumber.text b)
  | .error e, _ => (false, e)
  | _, .error e => (false, e)

def boolText (b : Bool) : String := if b then "true" else "false"

def cmp (comparison : Comparison) (value : Value α) (op : Operand α) (env : Env α) :
    Bool × String :=
  match resolve op env with
  | .error e => (false, e)
  | .ok rhs =>
    match comparison, value, rhs with
    | .eq, .bool a, .bool b =>
      verdict (a == b) ("actual=" ++ boolText a ++ " expected==" ++ boolText b)
    | .ne, .bool a, .bool b =>
      verdict (a != b) ("actual=" ++ boolText a ++ " expected!=" ++ boolText b)
    | comparison, value, rhs => cmpNum comparison value rhs

def inRange (lo hi : α) (inclusive : Bool) (value : Value α) : Bool × String :=
  match value.asNum with
  | .error e => (false, e)
  | .ok a =>
    verdict (HostNumber.le lo a && (if inclusive then HostNumber.le a hi else HostNumber.lt a hi))
      ("actual=" ++ HostNumber.text a ++ " not in " ++ HostNumber.text lo ++
        (if inclusive then "..=" else "..") ++ HostNumber.text hi)

/-- `is_ok` and `is_err` do not come this far. -/
def applyValueVerb (verb : Verb α) (value : Value α) (env : Env α) : Bool × String :=
  match verb with
  | .eq op | .okEq op => cmp .eq value op env
  | .ne op => cmp .ne value op env
  | .gt op | .okGt op => cmp .gt value op env
  | .ge op | .okGe op => cmp .ge value op env
  | .lt op | .okLt op => cmp .lt value op env
  | .le op | .okLe op => cmp .le value op env
  | .inRange lo hi inclusive | .okInRange lo hi inclusive => inRange lo hi inclusive value
  | .isOk | .isErr => (false, "")

def Verb.isOkFamily : Verb α → Bool
  | .okEq _ | .okGt _ | .okGe _ | .okLt _ | .okLe _ | .okInRange _ _ _ => true
  | _ => false

def applyVerb (verb : Verb α) (actual : Except String (Value α)) (env : Env α) : Bool × String :=
  match verb, actual with
  | .isOk, .ok _ => (true, "")
  | .isOk, .error e => (false, "expected Ok, got Err(" ++ e ++ ")")
  | .isErr, .error _ => (true, "")
  | .isErr, .ok v => (false, "expected Err, got Ok(" ++ v.display ++ ")")
  | verb, .error e =>
    if verb.isOkFamily then (false, "expected Ok(_), got Err(" ++ e ++ ")")
    else (false, "call failed: " ++ e)
  | verb, .ok value => applyValueVerb verb value env

def execute (stmt : Stmt α) (env : Env α) (runner : Runner) : Script α (Env α × Runner) :=
  match stmt with
  | .sleep _ microseconds => do
    let _ ← askSource (.sleep microseconds)
    pure (env, runner)
  | .letStmt line src name call => do
    match ← evalCall call env with
    | .ok v =>
      pure (Function.update env name (some v),
        runner.record line src .pass ("let " ++ name ++ " = " ++ v.display))
    | .error e => pure (env, runner.record line src .fail ("let " ++ name ++ ": " ++ e))
  | .check line src call verb => do
    let result ← evalCall call env
    let (ok, detail) := applyVerb verb result env
    pure (env, runner.record line src (if ok then .pass else .fail) detail)

/-- The loop of run_script. -/
def executeAll : List (Stmt α) → Env α → Runner → Script α (Env α × Runner)
  | [], env, runner => pure (env, runner)
  | stmt :: rest, env, runner => do
    let (env, runner) ← execute stmt env runner
    executeAll rest env runner

def runStatements (stmts : List (Stmt α)) : Script α (Env α × Runner) :=
  executeAll stmts (fun _ => none) {}

end Exec

end EcScript
