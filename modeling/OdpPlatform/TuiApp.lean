import OdpPlatform.EcScriptParser

/-! # test-tui: events and the main loop

What is drawn on the terminal is left out. The text field belongs to another crate. -/
namespace TuiApp

open CharText EcScriptParser InteractionProgram

inductive KeyCode where
  | char (c : Char)
  | left | right | up | down | enter | esc
  | other (code : ℕ)
  deriving DecidableEq, Repr

inductive KeyEventKind where
  | press | repeated | release
  deriving DecidableEq, Repr

structure KeyEvent where
  code : KeyCode
  modifiers : UInt8
  kind : KeyEventKind
  deriving DecidableEq, Repr

inductive TerminalEvent where
  | key (key : KeyEvent)
  | other (code : ℕ)
  deriving DecidableEq, Repr

/-- `tui_input::Input` -/
class TextField (I : Type) where
  /-- `Input::default()` -/
  blank : I
  value : I → Text
  handleEvent : TerminalEvent → I → I
  valueAndReset : I → Text × I

class LawfulTextField (I : Type) [TextField I] : Prop where
  value_blank : TextField.value (TextField.blank : I) = []
  value_taken (i : I) : (TextField.valueAndReset i).1 = TextField.value i
  value_reset (i : I) : TextField.value (TextField.valueAndReset i).2 = []

def parseU32 (t : Text) : Option UInt32 :=
  let digits := if t.head? = some '+' then t.tail else t
  if digits ≠ [] ∧ digits.all Char.isDigit ∧ digitsValue digits < 2 ^ 32 then
    some (UInt32.ofNat (digitsValue digits))
  else none

/-! ## battery.rs, thermal.rs: the input boxes -/

inductive Command (α : Type) where
  | setBtp (v : UInt32)
  | setRpm (rpm : α)
  deriving DecidableEq, Repr

structure Popup (I : Type) where
  isOpen : Bool
  input : I

section Popups

variable {I T α : Type} [TextField I]

def Popup.new : Popup I := ⟨false, TextField.blank⟩

/-- What is sent comes second. -/
def Popup.handleEvent (parse : Text → Option T) (m : Popup I) (evt : TerminalEvent) :
    Popup I × Option T :=
  match evt with
  | .other _ => (m, none)
  | .key key =>
    if key.kind = .press then
      if m.isOpen = true then
        match key.code with
        | .esc => (⟨false, TextField.blank⟩, none)
        | .enter =>
          (⟨false, (TextField.valueAndReset m.input).2⟩,
            parse (TextField.valueAndReset m.input).1)
        | _ => ({ m with input := TextField.handleEvent evt m.input }, none)
      else if key.code = .char 's' ∨ key.code = .char '/' then ({ m with isOpen := true }, none)
      else (m, none)
    else (m, none)

def parseBtp (raw : Text) : Option (Command α) := (parseU32 raw).map .setBtp
def parseRpm [HostDecimal α] (raw : Text) : Option (Command α) := (parseF64 raw).map .setRpm

def batteryHandleEvent (m : Popup I) (evt : TerminalEvent) : Popup I × Option (Command α) :=
  m.handleEvent parseBtp evt

def thermalHandleEvent [HostDecimal α] (m : Popup I) (evt : TerminalEvent) :
    Popup I × Option (Command α) := m.handleEvent parseRpm evt

end Popups

/-! ## app.rs -/

def usizeMax : ℕ := 2 ^ 64 - 1

def saturatingAdd (a b : ℕ) : ℕ := min (a + b) usizeMax

inductive RunState where
  | running | quitting
  deriving DecidableEq, Repr

inductive SelectedTab where
  | dashboard | power | thermal | rtc | system | usbC
  deriving DecidableEq, Repr

namespace SelectedTab

def index : SelectedTab → ℕ
  | .dashboard => 0
  | .power => 1
  | .thermal => 2
  | .rtc => 3
  | .system => 4
  | .usbC => 5

def fromRepr : ℕ → Option SelectedTab
  | 0 => some .dashboard
  | 1 => some .power
  | 2 => some .thermal
  | 3 => some .rtc
  | 4 => some .system
  | 5 => some .usbC
  | _ => none

def moduleIndex : SelectedTab → Option (Fin 5)
  | .dashboard => none
  | .power => some 0
  | .thermal => some 1
  | .rtc => some 2
  | .system => some 3
  | .usbC => some 4

def previous (tab : SelectedTab) : SelectedTab := (fromRepr (tab.index - 1)).getD tab
def next (tab : SelectedTab) : SelectedTab := (fromRepr (saturatingAdd tab.index 1)).getD tab

end SelectedTab

/-- `modules`; the last three of the five keep no state and ignore every event. -/
structure Modules (I : Type) where
  power : Popup I
  thermal : Popup I

structure App (I : Type) where
  runState : RunState
  selectedTab : SelectedTab
  modules : Modules I
  logVisible : Bool
  logScroll : ℕ

section Code

variable {I α : Type}

def Modules.isPopupOpen (modules : Modules I) (i : Fin 5) : Bool :=
  match i with
  | 0 => modules.power.isOpen
  | 1 => modules.thermal.isOpen
  | _ => false

variable [TextField I]

def Modules.handleEvent [HostDecimal α] (modules : Modules I) (i : Fin 5) (evt : TerminalEvent) :
    Modules I × Option (Command α) :=
  match i with
  | 0 =>
    let (power, sent) := batteryHandleEvent modules.power evt
    ({ modules with power }, sent)
  | 1 =>
    let (thermal, sent) := thermalHandleEvent modules.thermal evt
    ({ modules with thermal }, sent)
  | _ => (modules, none)

namespace App

def new : App I := ⟨.running, .dashboard, ⟨.new, .new⟩, false, 0⟩

variable [HostDecimal α]

def passTo (app : App I) (i : Fin 5) (evt : TerminalEvent) : App I × Option (Command α) :=
  let (modules, sent) := app.modules.handleEvent i evt
  ({ app with modules }, sent)

def handleTabEvent (app : App I) (evt : TerminalEvent) : App I × Option (Command α) :=
  match app.selectedTab.moduleIndex with
  | some i => app.passTo i evt
  | none => (app, none)

def handleKey (app : App I) (key : KeyEvent) : App I × Option (Command α) :=
  match key.code with
  | .right => ({ app with selectedTab := app.selectedTab.next }, none)
  | .left => ({ app with selectedTab := app.selectedTab.previous }, none)
  | .char '1' => ({ app with selectedTab := .dashboard }, none)
  | .char '2' => ({ app with selectedTab := .power }, none)
  | .char '3' => ({ app with selectedTab := .thermal }, none)
  | .char '4' => ({ app with selectedTab := .rtc }, none)
  | .char '5' => ({ app with selectedTab := .system }, none)
  | .char '6' => ({ app with selectedTab := .usbC }, none)
  | .char 'l' =>
    ({ app with
      logVisible := !app.logVisible
      logScroll := if !app.logVisible then 0 else app.logScroll }, none)
  | .char 'q' => ({ app with runState := .quitting }, none)
  | .esc => ({ app with runState := .quitting }, none)
  | .up =>
    if app.logVisible = true then
      ({ app with logScroll := saturatingAdd app.logScroll 1 }, none)
    else app.handleTabEvent (.key key)
  | .down =>
    if app.logVisible = true then ({ app with logScroll := app.logScroll - 1 }, none)
    else app.handleTabEvent (.key key)
  | _ => app.handleTabEvent (.key key)

def dispatch (app : App I) (evt : TerminalEvent) : App I × Option (Command α) :=
  match app.selectedTab.moduleIndex.filter app.modules.isPopupOpen with
  | some i => app.passTo i evt
  | none =>
    match evt with
    | .key key => if key.kind = .press then app.handleKey key else (app, none)
    | .other _ => (app, none)

end App

end Code

abbrev IoError := String

inductive UiCall (α : Type) where
  | draw | poll | read
  | send (cmd : Command α)

/-- Whether a command found its receiver is not looked at. -/
@[reducible] def UiAnswer {α : Type} : UiCall α → Type
  | .draw => Except IoError Unit
  | .poll => Except IoError Bool
  | .read => Except IoError TerminalEvent
  | .send _ => Bool

abbrev Ui (α : Type) := Program (UiAnswer (α := α))

def ask {α : Type} (c : UiCall α) : Ui α (UiAnswer c) := Program.call c

section Loop

variable {I α : Type} [TextField I] [HostDecimal α]

def send : Option (Command α) → Ui α Unit
  | none => pure ()
  | some cmd => do
    let _ ← ask (.send cmd)
    pure ()

namespace App

def handleEvents (app : App I) : Ui α (Except IoError (App I)) := do
  match ← ask (UiCall.read : UiCall α) with
  | .error e => pure (.error e)
  | .ok evt =>
    send (app.dispatch evt).2
    pure (.ok (app.dispatch (α := α) evt).1)

def run : ℕ → App I → Ui α (Except IoError Unit)
  | 0, _ => .hang
  | rounds + 1, app =>
    if app.runState = .running then do
      match ← ask (UiCall.draw : UiCall α) with
      | .error e => pure (.error e)
      | .ok _ =>
        match ← ask (UiCall.poll : UiCall α) with
        | .error e => pure (.error e)
        | .ok false => run rounds app
        | .ok true =>
          match ← app.handleEvents with
          | .error e => pure (.error e)
          | .ok app => run rounds app
    else pure (.ok ())

end App

end Loop

end TuiApp
