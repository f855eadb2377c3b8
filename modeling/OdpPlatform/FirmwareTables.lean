import OdpPlatform.FirmwareServices
import OdpPlatform.InteractionAnswers
import Mathlib.Logic.Function.Basic

/-! # Firmware whose variables and handles stay as they are

Variables are looked up by the text of their name, as the runtime services do it. All other
calls are answered in any way. -/
namespace FirmwareTables

open ByteBuffer DevicePathNodes InteractionProgram InteractionAnswers FirmwareServices

def upperHexDigit (d : ℕ) : Char := if d < 10 then Char.ofNat (48 + d) else Char.ofNat (55 + d)

def bootOptionVariableName (optionNumber : UInt16) : List Char :=
  "Boot".toList ++
    [upperHexDigit (optionNumber.toNat / 4096), upperHexDigit (optionNumber.toNat / 256 % 16),
      upperHexDigit (optionNumber.toNat / 16 % 16), upperHexDigit (optionNumber.toNat % 16)]

def variableText : VariableName → List Char
  | .bootOrder => "BootOrder".toList
  | .bootOption n => bootOptionVariableName n
  | .secureBoot => "SecureBoot".toList
  | .setupMode => "SetupMode".toList
  | .conIn => "ConIn".toList
  | .conOut => "ConOut".toList
  | .errOut => "ErrOut".toList
  | .lastAttemptStatus => "LastAttemptStatus".toList
  | .bootNext => "BootNext".toList
  | .nvmeBpResult => "NvmeBpResult".toList

theorem upperHexDigit_injective {a b : ℕ} (ha : a < 16) (hb : b < 16)
    (h : upperHexDigit a = upperHexDigit b) : a = b := by
  have digits : ∀ x y : Fin 16, upperHexDigit x = upperHexDigit y → x = y := by decide
  exact congrArg Fin.val (digits ⟨a, ha⟩ ⟨b, hb⟩ h)

theorem bootOptionVariableName_injective {m n : UInt16}
    (h : bootOptionVariableName m = bootOptionVariableName n) : m = n := by
  have hm := m.toNat_lt
  have hn := n.toNat_lt
  have hdigits := List.append_cancel_left h
  injection hdigits with h₃ hdigits
  injection hdigits with h₂ hdigits
  injection hdigits with h₁ hdigits
  injection hdigits with h₀ _
  have e₃ := upperHexDigit_injective (by omega) (by omega) h₃
  have e₂ := upperHexDigit_injective (by omega) (by omega) h₂
  have e₁ := upperHexDigit_injective (by omega) (by omega) h₁
  have e₀ := upperHexDigit_injective (by omega) (by omega) h₀
  apply UInt16.toNat_inj.mp
  omega

theorem bootOptionVariableName_ne_bootOrder (n : UInt16) :
    bootOptionVariableName n ≠ variableText .bootOrder := by
  intro h
  have hlen := congrArg List.length h
  cases hlen

structure Tables where
  nvram : List Char → Except Status Bytes
  handles : HandleSearch → Except Status (List Handle)
  devicePaths : Handle → Except Status Memory

def Tables.env (tables : Tables) (base : FirmwareEnv) : FirmwareEnv
  | _, .getVariable name => some (tables.nvram (variableText name))
  | _, .locateHandleBuffer s => some (tables.handles s)
  | _, .handleProtocolDevicePath handle => some (tables.devicePaths handle)
  | h, c => base h c

/-- The path of a handle, where the protocol is there and its bytes decode. -/
def readablePath [PatinaDevicePath] (tables : Tables) (handle : Handle) : Option DevicePath :=
  match tables.devicePaths handle with
  | .error _ => none
  | .ok memory => PatinaDevicePath.tryFromPtr memory

def Tables.setVariable (tables : Tables) (name : VariableName) (r : Except Status Bytes) : Tables :=
  { tables with nvram := Function.update tables.nvram (variableText name) r }

def Tables.setHandles (tables : Tables) (s : HandleSearch) (r : Except Status (List Handle)) :
    Tables :=
  { tables with handles := Function.update tables.handles s r }

variable {tables : Tables} {base : FirmwareEnv}

@[simp] theorem setVariable_self (name : VariableName) (r : Except Status Bytes) :
    (tables.setVariable name r).nvram (variableText name) = r :=
  Function.update_self _ _ _

theorem setVariable_other {name : VariableName} (r : Except Status Bytes) {text : List Char}
    (hne : text ≠ variableText name) :
    (tables.setVariable name r).nvram text = tables.nvram text :=
  Function.update_of_ne hne _ _

@[simp] theorem setHandles_self (s : HandleSearch) (r : Except Status (List Handle)) :
    (tables.setHandles s r).handles s = r := by
  rw [Tables.setHandles]
  exact Function.update_self s r tables.handles

theorem yields_getVariable (name : VariableName) :
    Yields (tables.env base) (ask (.getVariable name)) (tables.nvram (variableText name)) :=
  yields_call fun _ => rfl

theorem yields_locateHandleBuffer (s : HandleSearch) :
    Yields (tables.env base) (ask (.locateHandleBuffer s)) (tables.handles s) :=
  yields_call fun _ => rfl

theorem yields_handleProtocolDevicePath (handle : Handle) :
    Yields (tables.env base) (ask (.handleProtocolDevicePath handle)) (tables.devicePaths handle) :=
  yields_call fun _ => rfl

def efiResult {α : Type} : Except Status α → Except EfiError α
  | .ok a => .ok a
  | .error s => .error ⟨s⟩

theorem yields_mapErr {env : FirmwareEnv} {α : Type} {p : Firmware (Except Status α)}
    {r : Except Status α} (hp : Yields env p r) : Yields env (mapErr p).run (efiResult r) := by
  apply hp.bind
  cases r with
  | ok a => exact yields_done _
  | error s => exact yields_done _

end FirmwareTables
