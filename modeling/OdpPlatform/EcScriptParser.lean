import OdpPlatform.CharText
import OdpPlatform.EcScript

/-! # parser.rs

The parser of test scripts. Error texts are strings; the decoder of timestamps belongs to another
crate and is taken as a parameter, as is the Unicode table behind `char::is_alphabetic`. -/
namespace EcScriptParser

open CharText EcScript

class HostDecimal (α : Type) extends HostNumber α where
  /-- Sign, digits and exponent. -/
  ofDecimal : Bool → ℕ → ℤ → α
  infinity : Bool → α
  nan : Bool → α

instance : HostDecimal Float where
  ofDecimal negative digits exponent :=
    let magnitude := Float.ofScientific digits (decide (exponent < 0)) exponent.natAbs
    if negative then -magnitude else magnitude
  infinity negative := if negative then -1.0 / 0.0 else 1.0 / 0.0
  nan _ := 0.0 / 0.0

class ScriptHost where
  isAlphabetic : Char → Bool
  isAlphabetic_ascii : ∀ c, c.toNat < 128 → isAlphabetic c = c.isAlpha
  isAlphabetic_white : ∀ c, isWhitespace c = true → isAlphabetic c = false
  /-- `AcpiTimestamp::try_from_bytes`, its error formatted with `{:?}` -/
  timestampFromBytes : List UInt8 → Except String AcpiTimestamp

structure ParseError where
  line : ℕ
  message : String
  deriving DecidableEq, Repr

def quote (t : Text) : String := "`" ++ String.ofList t ++ "`"

def splitSign : Text → Bool × Text
  | '-' :: t => (true, t)
  | '+' :: t => (false, t)
  | t => (false, t)

def digitsValue (digits : Text) : ℕ := digits.foldl (fun n d => n * 10 + (d.toNat - '0'.toNat)) 0

def parseExponent : Text → Option ℤ
  | [] => some 0
  | c :: t =>
    let (negative, digits) := splitSign t
    if (c = 'e' ∨ c = 'E') ∧ digits ≠ [] ∧ digits.all Char.isDigit then
      some (if negative then -(digitsValue digits : ℤ) else digitsValue digits)
    else none

def splitFraction : Text → Text × Text
  | '.' :: t => (t.takeWhile Char.isDigit, t.dropWhile Char.isDigit)
  | t => ([], t)

section

variable {α : Type} [HostDecimal α]

def parseDecimal (negative : Bool) (t : Text) : Option α :=
  let whole := t.takeWhile Char.isDigit
  let (frac, rest) := splitFraction (t.dropWhile Char.isDigit)
  if whole = [] ∧ frac = [] then none
  else
    (parseExponent rest).map fun e =>
      HostDecimal.ofDecimal negative (digitsValue (whole ++ frac)) (e - frac.length)

def parseF64 (s : Text) : Option α :=
  let (negative, t) := splitSign s
  let lower := t.map Char.toLower
  if lower = "inf".toList ∨ lower = "infinity".toList then some (HostDecimal.infinity negative)
  else if lower = "nan".toList then some (HostDecimal.nan negative)
  else parseDecimal negative t

def parseFloatError (s : Text) : String :=
  if s = [] then "cannot parse float from empty string" else "invalid float literal"

end

def toDigit (radix : ℕ) (c : Char) : Option ℕ :=
  let d :=
    if c.isDigit then c.toNat - '0'.toNat
    else if c.isLower then c.toNat - 'a'.toNat + 10
    else if c.isUpper then c.toNat - 'A'.toNat + 10
    else radix
  if d < radix then some d else none

def parseDigits (radix bound : ℕ) : ℕ → Text → Except String ℕ
  | n, [] => .ok n
  | n, c :: t =>
    match toDigit radix c with
    | none => .error "invalid digit found in string"
    | some d =>
      if n * radix + d < bound then parseDigits radix bound (n * radix + d) t
      else .error "number too large to fit in target type"

def parseU64 : Text → Except String ℕ
  | [] => .error "cannot parse integer from empty string"
  | ['+'] => .error "invalid digit found in string"
  | '+' :: t => parseDigits 10 (2 ^ 64) 0 t
  | t => parseDigits 10 (2 ^ 64) 0 t

def isIdent : Text → Bool
  | [] => false
  | c :: cs => (c.isAlpha || c == '_') && cs.all fun c => c.isAlphanum || c == '_'

section

variable {α : Type} [HostDecimal α]

def parseOperand (s : Text) : Except String (Operand α) :=
  let s := trim s
  if s = "true".toList then .ok (.bool true)
  else if s = "false".toList then .ok (.bool false)
  else
    match parseF64 s with
    | some n => .ok (.num n)
    | none =>
      if isIdent s then .ok (.var (String.ofList s))
      else .error ("expected number/true/false/identifier, got " ++ quote s)

def parseNum (s : Text) : Except String α :=
  match parseF64 (trim s) with
  | some n => .ok n
  | none => .error ("expected number, got " ++ quote s ++ ": " ++ parseFloatError (trim s))

def parseRange (s : Text) : Except String (α × α × Bool) :=
  let s := trim s
  match splitOnce "..=".toList s with
  | some (lo, hi) => do
    let lo ← parseNum lo
    let hi ← parseNum hi
    pure (lo, hi, true)
  | none =>
    match splitOnce "..".toList s with
    | some (lo, hi) => do
      let lo ← parseNum lo
      let hi ← parseNum hi
      pure (lo, hi, false)
    | none => .error ("expected `lo..hi` or `lo..=hi`, got " ++ quote s)

end

/-- Microseconds. -/
def parseDuration [ScriptHost] (s : Text) : Except String ℕ :=
  let s := trim s
  let numPart := s.takeWhile fun c => !ScriptHost.isAlphabetic c
  let rest := s.dropWhile fun c => !ScriptHost.isAlphabetic c
  let unit := if rest = [] then "ms".toList else rest
  match parseU64 (trim numPart) with
  | .error e => .error ("duration " ++ quote s ++ ": " ++ e)
  | .ok n =>
    let unit := trim unit
    if unit = "ms".toList then .ok (n * 1000)
    else if unit = "s".toList then .ok (n * 1000000)
    else if unit = "us".toList then .ok n
    else .error ("unknown duration unit " ++ quote unit ++ " (ms|s|us)")

def parseU8Literal (s : Text) : Except String UInt8 :=
  let s := trim s
  let (digits, radix) :=
    match (stripPrefix "0x".toList s).or (stripPrefix "0X".toList s) with
    | some hex => (hex, 16)
    | none => (s, 10)
  if digits = [] ∨ ¬digits.all fun c => (toDigit radix c).isSome then
    .error ("expected decimal or hexadecimal byte literal, got " ++ quote s)
  else
    match parseDigits radix 256 0 digits with
    | .ok n => .ok (UInt8.ofNat n)
    | .error e => .error ("byte literal " ++ quote s ++ " out of range 0..=255: " ++ e)

def bufferSyntax : String := "set_real_time requires `Buffer(16) \x7b <16 explicit bytes> \x7d`"

def parseBytes : List Text → Except String (List UInt8)
  | [] => .ok []
  | s :: rest => do
    let b ← parseU8Literal s
    let bs ← parseBytes rest
    pure (b :: bs)

def checkTimestamp [ScriptHost] (bytes : List UInt8) : Except String AcpiTimestamp :=
  if bytes.length ≠ 16 then
    .error ("RTC Buffer requires exactly 16 explicit bytes, got " ++ toString bytes.length)
  else
    let milliseconds := (bytes.getD 8 0).toNat + 2 ^ 8 * (bytes.getD 9 0).toNat
    if milliseconds > 999 then
      .error ("invalid RTC timestamp: milliseconds " ++ toString milliseconds ++
        " out of range 0..=999")
    else
      match ScriptHost.timestampFromBytes bytes with
      | .ok t => .ok t
      | .error e => .error ("invalid RTC timestamp: " ++ e)

def parseTimestampBuffer [ScriptHost] (s : Text) : Except String AcpiTimestamp :=
  match ((stripPrefix "Buffer".toList s).bind fun s => stripPrefix ['('] (trimStart s)).bind
      (splitOnce [')']) with
  | none => .error bufferSyntax
  | some (size, rest) => do
    let size ← parseU8Literal size
    if size ≠ 16 then .error "RTC Buffer size must be 16"
    else
      match (stripPrefix ['\x7b'] (trim rest)).bind (stripSuffix ['\x7d']) with
      | none => .error bufferSyntax
      | some initializer => do
        let initializer := trim initializer
        let bytes ← parseBytes (split ',' ((stripSuffix [','] initializer).getD initializer))
        checkTimestamp bytes

def parseTimer (s : Text) : Except String AcpiTimerId :=
  if s = "ac".toList then .ok .acPower
  else if s = "dc".toList then .ok .dcPower
  else .error ("unknown timer " ++ quote s ++ " (ac|dc)")

/-- `shown` is the text of the message. -/
def parseThreshold (s shown : Text) : Except String Threshold :=
  if s = "on".toList then .ok .on
  else if s = "ramping".toList then .ok .ramping
  else if s = "max".toList then .ok .max
  else .error ("unknown threshold " ++ quote shown ++ " (on|ramping|max)")

def splitTimerOperand {α : Type} [HostDecimal α] (name s : Text) :
    Except String (AcpiTimerId × Operand α) :=
  match splitOnce [','] s with
  | none => .error (quote name ++ " takes `<ac|dc>, <u32-or-var>` (got " ++ quote s ++ ")")
  | some (id, val) => do
    let id ← parseTimer (trim id)
    let val ← parseOperand (trim val)
    pure (id, val)

def splitThresholdOperand {α : Type} [HostDecimal α] (s : Text) :
    Except String (Threshold × Operand α) :=
  match splitOnce [','] s with
  | none => .error ("set_threshold takes `<on|ramping|max>, <celsius>` (got " ++ quote s ++ ")")
  | some (th, val) => do
    let threshold ← parseThreshold (trim th) th
    let val ← parseOperand (trim val)
    pure (threshold, val)

def needNoArg (name : Text) : Option Text → Except String Unit
  | none | some [] => .ok ()
  | some a => .error (quote name ++ " does not take an argument (got " ++ quote a ++ ")")

def needArg (name : Text) : Option Text → Except String Text
  | none | some [] => .error (quote name ++ " requires an argument")
  | some a => .ok a

def targetName : Target → Text
  | .thermal => "thermal".toList
  | .battery => "battery".toList
  | .rtc => "rtc".toList

def unknownMethod {β : Type} (target : Target) (name : Text) : Except String β :=
  .error ("unknown method " ++ quote name ++ " on " ++ quote (targetName target))

section

variable {α : Type} [HostDecimal α] [ScriptHost]

def noArg (name : Text) (arg : Option Text) (m : Method α) : Except String (Method α) := do
  needNoArg name arg
  pure m

def readArg {β : Type} (name : Text) (arg : Option Text) (read : Text → Except String β)
    (m : β → Method α) : Except String (Method α) := do
  let a ← needArg name arg
  m <$> read a

def buildThermal (name : Text) (arg : Option Text) : Except String (Method α) :=
  if name = "get_temperature".toList then noArg name arg .getTemperature
  else if name = "get_rpm".toList then noArg name arg .getRpm
  else if name = "get_min_rpm".toList then noArg name arg .getMinRpm
  else if name = "get_max_rpm".toList then noArg name arg .getMaxRpm
  else if name = "get_threshold".toList then
    readArg name arg (fun a => parseThreshold a a) .getThreshold
  else if name = "set_rpm".toList then readArg name arg parseOperand .setRpm
  else if name = "set_threshold".toList then
    readArg name arg splitThresholdOperand fun x => .setThreshold x.1 x.2
  else unknownMethod .thermal name

def buildBattery (name : Text) (arg : Option Text) : Except String (Method α) :=
  if name = "get_bst".toList then noArg name arg .getBst
  else if name = "get_bix".toList then noArg name arg .getBix
  else if name = "set_btp".toList then readArg name arg parseOperand .setBtp
  else unknownMethod .battery name

def buildRtc (name : Text) (arg : Option Text) : Except String (Method α) :=
  if name = "get_capabilities".toList then noArg name arg .getCapabilities
  else if name = "get_real_time".toList then noArg name arg .getRealTime
  else if name = "set_real_time".toList then readArg name arg parseTimestampBuffer .setRealTime
  else if name = "get_wake_status".toList then readArg name arg parseTimer .getWakeStatus
  else if name = "get_expired_timer_wake_policy".toList then
    readArg name arg parseTimer .getExpiredTimerWakePolicy
  else if name = "get_timer_value".toList then readArg name arg parseTimer .getTimerValue
  else if name = "set_timer_value".toList then
    readArg name arg (splitTimerOperand name) fun x => .setTimerValue x.1 x.2
  else if name = "set_expired_timer_wake_policy".toList then
    readArg name arg (splitTimerOperand name) fun x => .setExpiredTimerWakePolicy x.1 x.2
  else if name = "clear_wake_status".toList then readArg name arg parseTimer .clearWakeStatus
  else unknownMethod .rtc name

def buildMethod (target : Target) (name : Text) (arg : Option Text) : Except String (Method α) :=
  match target with
  | .thermal => buildThermal name arg
  | .battery => buildBattery name arg
  | .rtc => buildRtc name arg

/-- The parts between top-level dots; `none` when the parentheses do not balance. -/
def splitDots : ℕ → Text → Option (Text × List Text)
  | depth, [] => if depth = 0 then some ([], []) else none
  | depth, c :: t =>
    if c = '(' then (splitDots (depth + 1) t).map fun x => (c :: x.1, x.2)
    else if c = ')' then
      if depth = 0 then none else (splitDots (depth - 1) t).map fun x => (c :: x.1, x.2)
    else if c = '.' ∧ depth = 0 then (splitDots depth t).map fun x => ([], x.1 :: x.2)
    else (splitDots depth t).map fun x => (c :: x.1, x.2)

def parseTarget (s : Text) : Except String Target :=
  if s = "thermal".toList then .ok .thermal
  else if s = "battery".toList then .ok .battery
  else if s = "rtc".toList then .ok .rtc
  else .error ("unknown target " ++ quote s ++ " (expected thermal|battery|rtc)")

def splitCall (s : Text) : Except String (Text × Option Text) :=
  match splitOnce ['('] s with
  | none => .ok (s, none)
  | some (name, rest) =>
    match rsplitOnce ')' rest with
    | none =>
      -- the last `)`, if there is one, stands in front of the first `(`
      if ')' ∈ name then .error ("malformed call " ++ quote s)
      else .error ("missing `)` in " ++ quote s)
    | some (arg, trailing) =>
      if trailing ≠ [] then
        .error ("unexpected trailing characters after `)` in " ++ quote s)
      else .ok (trim name, some (trim arg))

def accessor (s : Text) : Text :=
  let s := trim s
  (stripSuffix "()".toList s).getD s

def isAccessor (p : Text) : Bool := isIdent p || p.all Char.isDigit

def parseCall (src : Text) : Except String (Call α) :=
  match splitDots 0 src with
  | none => .error ("unbalanced parentheses in " ++ quote src)
  | some (_, []) => .error ("expected `<target>.<method>...` in " ++ quote src)
  | some (target, method :: rest) => do
    let target ← parseTarget (trim target)
    let (name, arg) ← splitCall (trim method)
    let method ← buildMethod target name arg
    let projection := rest.map accessor
    match projection.find? fun p => !isAccessor p with
    | some p => .error ("invalid accessor " ++ quote p)
    | none => pure ⟨target, method, projection.map String.ofList⟩

def needOperand (v : Text) (tail : Text) : Except String (Operand α) :=
  if tail = [] then .error ("verb " ++ quote v ++ " requires an operand") else parseOperand tail

def needRange (v : Text) (tail : Text) : Except String (α × α × Bool) :=
  if tail = [] then .error ("verb " ++ quote v ++ " requires a range") else parseRange tail

def verbOf (head tail : Text) : Except String (Verb α) :=
  if head = "eq".toList then .eq <$> needOperand head tail
  else if head = "ne".toList then .ne <$> needOperand head tail
  else if head = "gt".toList then .gt <$> needOperand head tail
  else if head = "ge".toList then .ge <$> needOperand head tail
  else if head = "lt".toList then .lt <$> needOperand head tail
  else if head = "le".toList then .le <$> needOperand head tail
  else if head = "in_range".toList then
    (fun x => .inRange x.1 x.2.1 x.2.2) <$> needRange head tail
  else if head = "is_ok".toList then .ok .isOk
  else if head = "is_err".toList then .ok .isErr
  else if head = "ok_eq".toList then .okEq <$> needOperand head tail
  else if head = "ok_gt".toList then .okGt <$> needOperand head tail
  else if head = "ok_ge".toList then .okGe <$> needOperand head tail
  else if head = "ok_lt".toList then .okLt <$> needOperand head tail
  else if head = "ok_le".toList then .okLe <$> needOperand head tail
  else if head = "ok_in_range".toList then
    (fun x => .okInRange x.1 x.2.1 x.2.2) <$> needRange head tail
  else .error ("unknown verb " ++ quote head)

def parseVerb (src : Text) : Except String (Verb α) :=
  match splitWhitespaceOnce src with
  | some (head, tail) => verbOf head (trim tail)
  | none => verbOf src []

def parseLet (line : ℕ) (src rest : Text) : Except String (Stmt α) :=
  match splitOnce ['='] rest with
  | none => .error ("`let` needs `name = <call>` (got " ++ quote src ++ ")")
  | some (name, expr) => do
    let name := trim name
    if isIdent name then
      let call ← parseCall (trim expr)
      pure (.letStmt line (String.ofList src) (String.ofList name) call)
    else .error ("invalid variable name " ++ quote name)

def parseCheck (line : ℕ) (src : Text) : Except String (Stmt α) :=
  match splitOnce "=>".toList src with
  | none => .error ("expected `=>` separator in " ++ quote src)
  | some (call, verb) => do
    let call ← parseCall (trim call)
    let verb ← parseVerb (trim verb)
    pure (.check line (String.ofList src) call verb)

def parseStmt (line : ℕ) (src : Text) : Except String (Stmt α) :=
  match stripPrefix "sleep ".toList src with
  | some rest => .sleep line <$> parseDuration (trim rest)
  | none =>
    match stripPrefix "let ".toList src with
    | some rest => parseLet line src rest
    | none => parseCheck line src

end

section

variable {α : Type}

structure Assembly (α : Type) where
  out : List (Stmt α)
  buf : Text
  startLine : ℕ

theorem append_of_splitOnce {pat t a b : Text} (hsplit : splitOnce pat t = some (a, b)) :
    t = a ++ pat ++ b := by
  induction t generalizing a with
  | nil => cases hsplit
  | cons c t ih =>
    simp only [splitOnce] at hsplit
    split at hsplit
    next u hu =>
      cases hsplit
      exact stripPrefix_eq_some.mp hu
    · obtain ⟨⟨x, y⟩, hxy, heq⟩ := Option.map_eq_some_iff.mp hsplit
      cases heq
      rw [ih hxy, List.cons_append, List.cons_append]

variable [HostDecimal α] [ScriptHost]

def parseAt (line : ℕ) (src : Text) : Except ParseError (Stmt α) :=
  match (parseStmt line src : Except String (Stmt α)) with
  | .ok stmt => .ok stmt
  | .error m => .error ⟨line, m⟩

/-- The `while let` loop: every statement that a `;` ends. -/
def takeStatements (lineno : ℕ) (st : Assembly α) : Except ParseError (Assembly α) :=
  match _hsplit : splitOnce [';'] st.buf with
  | none => .ok st
  | some (stmtSrc, rest) => do
    let out ←
      if trim stmtSrc = [] then pure st.out
      else do
        let stmt ← parseAt st.startLine (trim stmtSrc)
        pure (st.out ++ [stmt])
    takeStatements lineno ⟨out, trimStart rest, lineno⟩
termination_by st.buf.length
decreasing_by
  have hlength := congrArg List.length (append_of_splitOnce _hsplit)
  have htrim : (trimStart rest).length ≤ rest.length := List.length_dropWhile_le _ _
  simp only [List.length_append, List.length_cons, List.length_nil] at hlength
  omega

def stripComment (raw : Text) : Text :=
  match splitOnce ['#'] raw with
  | some (line, _) => line
  | none => raw

def addLine (st : Assembly α) (raw : Text × ℕ) : Except ParseError (Assembly α) :=
  let line := trim (stripComment raw.1)
  if line = [] then .ok st
  else if st.buf = [] then takeStatements raw.2 ⟨st.out, line, raw.2⟩
  else takeStatements raw.2 ⟨st.out, st.buf ++ ' ' :: line, st.startLine⟩

def unterminated (buf : Text) : String :=
  "unterminated statement: " ++ quote buf ++ " (missing `;`?)"

def parse (src : Text) : Except ParseError (List (Stmt α)) := do
  let st ← ((lines src).zipIdx 1).foldlM addLine ⟨[], [], 0⟩
  if trim st.buf ≠ [] then
    throw ⟨st.startLine, unterminated (trim st.buf)⟩
  else pure st.out

end

end EcScriptParser
