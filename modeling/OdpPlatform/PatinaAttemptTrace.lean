import OdpPlatform.InteractionTraces
import OdpPlatform.PatinaReadyToBoot

/-! # The attempts of SimpleBootManager

What the orchestrator does behind the lock, written as a grammar of its trace: the consoles, the
choice of the device list, one attempt for each device, the failure handler. A flag tells whether
an attempt came back; a run ends at the first call that does not. -/
namespace PatinaAttemptTrace

open ByteBuffer DevicePathNodes InteractionProgram InteractionContract InteractionTraces
open FirmwareServices PatinaBootHelpers PatinaBootOptions PatinaBootManager PatinaBootCalls
open PatinaLockOrder PatinaReadyToBoot

inductive Signalled : FirmwareTrace → Bool → Prop where
  | notCreated {r : Option (Except Status EventHandle)} : (∀ ev, r ≠ some (.ok ev)) →
      Signalled [⟨.createEventEx .readyToBoot, r⟩] r.isSome
  | notSignalled (ev : EventHandle) :
      Signalled [⟨.createEventEx .readyToBoot, some (.ok ev)⟩, ⟨.signalEvent ev, none⟩] false
  | signalled (ev : EventHandle) (s : Except Status Unit) (r : Option (Except Status Unit)) :
      Signalled [⟨.createEventEx .readyToBoot, some (.ok ev)⟩, ⟨.signalEvent ev, some s⟩,
        ⟨.closeEvent ev, r⟩] r.isSome

inductive Launched (image : Handle) (full : DevicePath) : FirmwareTrace → Bool → Prop where
  | notLoaded {r : Option (Except Status Handle)} : (∀ handle, r ≠ some (.ok handle)) →
      Launched image full [⟨.loadImage image full, r⟩] r.isSome
  | notArmed {handle : Handle} {r : Option (Except Status Unit)} : r ≠ some (.ok ()) →
      Launched image full [⟨.loadImage image full, some (.ok handle)⟩,
        ⟨.setWatchdogTimer watchdogTimeoutSeconds, r⟩] r.isSome
  | running (handle : Handle) :
      Launched image full [⟨.loadImage image full, some (.ok handle)⟩,
        ⟨.setWatchdogTimer watchdogTimeoutSeconds, some (.ok ())⟩, ⟨.startImage handle, none⟩] false
  | returned (handle : Handle) (s : Except Status Unit) (r : Option (Except Status Unit)) :
      Launched image full [⟨.loadImage image full, some (.ok handle)⟩,
        ⟨.setWatchdogTimer watchdogTimeoutSeconds, some (.ok ())⟩, ⟨.startImage handle, some s⟩,
        ⟨.setWatchdogTimer 0, r⟩] r.isSome

section Grammar

variable [PatinaDevicePath]

/-- The path as `boot_from_device_path` hands it to LoadImage. -/
def fullPath (path : DevicePath) : FirmwareE DevicePath :=
  if isPartialDevicePath path then expandDevicePath path else pure path

def Expanded (path : DevicePath) (τ : FirmwareTrace) (x : Option (Except EfiError DevicePath)) :
    Prop :=
  Performs (fullPath path).run τ x ∧ (∀ e ∈ τ, DatabaseCall e.call) ∧ (x = none → Unanswered τ)

def attemptNote (path : DevicePath) (r : Option Unit) : Event Answer :=
  ⟨.note (.bootAttempt .bootDevice (some path)), r⟩

inductive Attempt (image : Handle) (path : DevicePath) : FirmwareTrace → Bool → Prop where
  | unsignalled {σ : FirmwareTrace} : Signalled σ false → Attempt image path σ false
  | unnoted {σ : FirmwareTrace} : Signalled σ true →
      Attempt image path (σ ++ [attemptNote path none]) false
  | unanswered {σ τ : FirmwareTrace} : Signalled σ true → Expanded path τ none →
      Attempt image path (σ ++ attemptNote path (some ()) :: τ) false
  | notExpanded {σ τ : FirmwareTrace} (e : EfiError) : Signalled σ true →
      Expanded path τ (some (.error e)) →
        Attempt image path (σ ++ attemptNote path (some ()) :: τ) true
  | launched {σ τ ρ : FirmwareTrace} {full : DevicePath} {back : Bool} : Signalled σ true →
      Expanded path τ (some (.ok full)) → Launched image full ρ back →
        Attempt image path (σ ++ attemptNote path (some ()) :: (τ ++ ρ)) back

inductive Attempts (image : Handle) : List DevicePath → FirmwareTrace → Bool → Prop where
  | nil : Attempts image [] [] true
  | stops {path : DevicePath} {rest : List DevicePath} {τ : FirmwareTrace} :
      Attempt image path τ false → Attempts image (path :: rest) τ false
  | cons {path : DevicePath} {rest : List DevicePath} {σ τ : FirmwareTrace} {back : Bool} :
      Attempt image path σ true → Attempts image rest τ back →
        Attempts image (path :: rest) (σ ++ τ) back

end Grammar

def KeyRead (key : UInt16) (τ : FirmwareTrace) : Prop :=
  ∃ i : Interface, ⟨.readKeyStroke i, some (.success, key)⟩ ∈ τ

def PressedAt (handles : List Handle) (key : UInt16) (τ : FirmwareTrace) : Prop :=
  ∃ handle ∈ handles, ∃ i : Interface,
    ⟨.handleProtocol handle .simpleTextInput, some (.ok i)⟩ ∈ τ ∧
      ⟨.readKeyStroke i, some (.success, key)⟩ ∈ τ

def Pressed (key : UInt16) (τ : FirmwareTrace) : Prop :=
  ∃ handles : List Handle,
    ⟨.locateHandleBuffer (.byProtocol .simpleTextInput), some (.ok handles)⟩ ∈ τ ∧
      PressedAt handles key τ

def Drained (handle : Handle) (τ : FirmwareTrace) : Prop :=
  (∃ s, ⟨.handleProtocol handle .simpleTextInput, some (.error s)⟩ ∈ τ) ∨
    ∃ (i : Interface) (status : Status) (scanCode : UInt16),
      ⟨.handleProtocol handle .simpleTextInput, some (.ok i)⟩ ∈ τ ∧ status ≠ .success ∧
        ⟨.readKeyStroke i, some (status, scanCode)⟩ ∈ τ

def AllDrained (τ : FirmwareTrace) : Prop :=
  (∃ s, ⟨.locateHandleBuffer (.byProtocol .simpleTextInput), some (.error s)⟩ ∈ τ) ∨
    ∃ handles : List Handle,
      ⟨.locateHandleBuffer (.byProtocol .simpleTextInput), some (.ok handles)⟩ ∈ τ ∧
        ∀ handle ∈ handles, Drained handle τ

inductive Selection (config : BootConfig) : FirmwareTrace → List DevicePath → Prop where
  | noHotkey : config.hotkey = none → Selection config [] config.devices
  | pressed {τ : FirmwareTrace} (key : UInt16) : config.hotkey = some key →
      (∀ e ∈ τ, KeyboardCall e.call) → Pressed key τ → Selection config τ config.hotkeyDevices
  | notPressed {τ : FirmwareTrace} (key : UInt16) : config.hotkey = some key →
      (∀ e ∈ τ, KeyboardCall e.call) → ¬KeyRead key τ → AllDrained τ →
        Selection config τ config.devices

def Keystrokes (i : Interface) (fuel : ℕ) (τ : FirmwareTrace) : Prop :=
  ∃ keys : List UInt16, keys.length = fuel ∧
    τ = keys.map fun key => ⟨.readKeyStroke i, some (.success, key)⟩

def Flooded (fuel : ℕ) (τ : FirmwareTrace) : Prop :=
  ∃ (pre : FirmwareTrace) (i : Interface) (ρ : FirmwareTrace), Keystrokes i fuel ρ ∧ τ = pre ++ ρ

/-- A part that ends without an answer: a call hangs, or a keyboard never runs dry. -/
def Endless (fuel : ℕ) (τ : FirmwareTrace) : Prop := Unanswered τ ∨ Flooded fuel τ

inductive Failed (config : BootConfig) :
    FirmwareTrace → Option (Except EfiError Empty) → Prop where
  | handled (r : Option Unit) : config.failureHandler = true →
      Failed config [⟨.failureHandler, r⟩] (r.map fun _ => .error .notFound)
  | silent : config.failureHandler = false → Failed config [] (some (.error .notFound))

inductive BootTrace [PatinaDevicePath] (config : BootConfig) (fuel : ℕ) (image : Handle) :
    FirmwareTrace → Option (Except EfiError Empty) → Prop where
  | early {σ κ : FirmwareTrace} : (∀ e ∈ σ, ConsoleCall e.call) → (∀ e ∈ κ, KeyboardCall e.call) →
      Endless fuel (σ ++ κ) → BootTrace config fuel image (σ ++ κ) none
  | attempting {σ κ τ : FirmwareTrace} {devices : List DevicePath} :
      (∀ e ∈ σ, ConsoleCall e.call) → Selection config κ devices →
        Attempts image devices τ false → BootTrace config fuel image (σ ++ (κ ++ τ)) none
  | exhausted {σ κ τ φ : FirmwareTrace} {devices : List DevicePath}
      {x : Option (Except EfiError Empty)} :
      (∀ e ∈ σ, ConsoleCall e.call) → Selection config κ devices →
        Attempts image devices τ true → Failed config φ x →
          BootTrace config fuel image (σ ++ (κ ++ (τ ++ φ))) x

variable {τ : FirmwareTrace}

theorem performs_logError {α : Type} {x : FirmwareE α} {y : Option Unit} :
    Performs (logError x) τ y ↔ ∃ r : Option (Except EfiError α), Performs x.run τ r ∧
      y = r.map fun _ => () := by
  unfold logError
  rw [performs_bind]
  constructor
  · rintro (⟨σ, r, ρ, hx, ⟨rfl, rfl⟩, rfl⟩ | ⟨hx, rfl⟩)
    · exact ⟨some r, by rwa [List.append_nil], rfl⟩
    · exact ⟨none, hx, rfl⟩
  · rintro ⟨r, hx, rfl⟩
    cases r with
    | none => exact .inr ⟨hx, rfl⟩
    | some r => exact .inl ⟨τ, r, [], hx, ⟨rfl, rfl⟩, (List.append_nil τ).symm⟩

theorem signalled_of_performs {x : Option (Except EfiError Unit)}
    (hτ : Performs signalReadyToBoot.run τ x) : Signalled τ x.isSome := by
  simp only [signalReadyToBoot, signalGroup, run_mapErr_bind, Program.call_bind,
    Program.run_lift_bind] at hτ
  rcases performs_ask.mp hτ with ⟨rfl, rfl⟩ | ⟨created, ρ₁, rfl, h₁⟩
  · exact .notCreated (by rintro ev ⟨⟩)
  cases created with
  | error s =>
    obtain ⟨rfl, rfl⟩ := h₁
    exact .notCreated (by rintro ev ⟨⟩)
  | ok ev =>
    rcases performs_ask.mp h₁ with ⟨rfl, rfl⟩ | ⟨signalled, ρ₂, rfl, h₂⟩
    · exact .notSignalled ev
    rcases performs_ask.mp h₂ with ⟨rfl, rfl⟩ | ⟨closed, ρ₃, rfl, h₃⟩
    · exact .signalled ev signalled none
    have hdone : ρ₃ = [] ∧ x.isSome = true := by
      cases signalled with
      | error s =>
        obtain ⟨rfl, rfl⟩ := h₃
        exact ⟨rfl, rfl⟩
      | ok _ =>
        cases closed with
        | error s =>
          obtain ⟨rfl, rfl⟩ := h₃
          exact ⟨rfl, rfl⟩
        | ok _ =>
          obtain ⟨rfl, rfl⟩ := h₃
          exact ⟨rfl, rfl⟩
    obtain ⟨rfl, hx⟩ := hdone
    rw [hx]
    exact .signalled ev signalled (some closed)

def launch (parentHandle : Handle) (full : DevicePath) : FirmwareE Unit := do
  let imageHandle ← mapErr (ask (.loadImage parentHandle full))
  mapErr (ask (.setWatchdogTimer watchdogTimeoutSeconds))
  let result ← ask (.startImage imageHandle)
  let _ ← ask (.setWatchdogTimer 0)
  mapErr (pure result)

theorem launched_of_performs {image : Handle} {full : DevicePath}
    {x : Option (Except EfiError Unit)} (hτ : Performs (launch image full).run τ x) :
    Launched image full τ x.isSome := by
  simp only [launch, run_mapErr_bind, Program.call_bind, Program.run_lift_bind] at hτ
  rcases performs_ask.mp hτ with ⟨rfl, rfl⟩ | ⟨loaded, ρ₁, rfl, h₁⟩
  · exact .notLoaded nofun
  cases loaded with
  | error s =>
    obtain ⟨rfl, rfl⟩ := h₁
    exact .notLoaded nofun
  | ok handle =>
    rcases performs_ask.mp h₁ with ⟨rfl, rfl⟩ | ⟨armed, ρ₂, rfl, h₂⟩
    · exact .notArmed nofun
    cases armed with
    | error s =>
      obtain ⟨rfl, rfl⟩ := h₂
      exact .notArmed nofun
    | ok _ =>
      rcases performs_ask.mp h₂ with ⟨rfl, rfl⟩ | ⟨result, ρ₃, rfl, h₃⟩
      · exact .running handle
      rcases performs_ask.mp h₃ with ⟨rfl, rfl⟩ | ⟨disarmed, ρ₄, rfl, h₄⟩
      · exact .returned handle result none
      have hdone : ρ₄ = [] ∧ x.isSome = true := by
        cases result with
        | error s =>
          obtain ⟨rfl, rfl⟩ := h₄
          exact ⟨rfl, rfl⟩
        | ok _ =>
          obtain ⟨rfl, rfl⟩ := h₄
          exact ⟨rfl, rfl⟩
      obtain ⟨rfl, hx⟩ := hdone
      rw [hx]
      exact .returned handle result (some disarmed)

section Attempts

variable [PatinaDevicePath] {image : Handle} {lockedBoot : LockedBoot}

theorem bootFromDevicePath_eq (path : DevicePath) :
    bootFromDevicePath image path = fullPath path >>= launch image := by
  simp only [bootFromDevicePath, fullPath]
  split
  · rfl
  · rfl

theorem expanded_of_performs {path : DevicePath} {x : Option (Except EfiError DevicePath)}
    (hτ : Performs (fullPath path).run τ x) : Expanded path τ x := by
  have hrule : ∀ {P : (α : Type) → Firmware α → Prop}, Composes P →
      (∀ c, DatabaseCall c → P (Answer c) (ask c)) →
        P (Except EfiError DevicePath) (fullPath path).run := by
    intro P hP hask
    simp only [fullPath]
    split
    · exact expandDevicePath_rule hP hask path
    · exact hP.done _
  have honly : Only DatabaseCall (fullPath path).run :=
    hrule (composes_only DatabaseCall) fun c hc => (only_call c).mpr hc
  have hterminates : Terminates (fullPath path).run :=
    hrule composes_terminates fun c _ => terminates_call c
  refine ⟨hτ, Only.performs honly hτ, ?_⟩
  rintro rfl
  exact hterminates.unanswered hτ

theorem attempt_of_performs {path : DevicePath} {x : Option Unit}
    (hτ : Performs (bootDevice lockedBoot image path) τ x) : Attempt image path τ x.isSome := by
  simp only [bootDevice] at hτ
  rcases performs_bind.mp hτ with ⟨σ, _, ρ, hsignal, h₁, rfl⟩ | ⟨hsignal, rfl⟩
  · obtain ⟨r, hperformed, hr⟩ := performs_logError.mp hsignal
    have hsignalled := signalled_of_performs hperformed
    cases r with
    | none => cases hr
    | some r =>
      rw [ask, Program.call_bind] at h₁
      rcases performs_ask.mp h₁ with ⟨rfl, rfl⟩ | ⟨_, ρ₁, rfl, h₂⟩
      · exact .unnoted hsignalled
      obtain ⟨y, hboot, rfl⟩ := performs_logError.mp h₂
      rw [LockedBoot.bootFromDevicePath, bootFromDevicePath_eq, ExceptT.run_bind] at hboot
      rcases performs_bind.mp hboot with ⟨τ₁, z, φ, hexpand, hlaunch, rfl⟩ | ⟨hexpand, rfl⟩
      · have hexpanded := expanded_of_performs hexpand
        cases z with
        | error e =>
          obtain ⟨rfl, rfl⟩ := hlaunch
          rw [List.append_nil]
          exact .notExpanded e hsignalled hexpanded
        | ok full =>
          have hlaunched := launched_of_performs hlaunch
          rw [Option.isSome_map]
          exact .launched hsignalled hexpanded hlaunched
      · exact .unanswered hsignalled (expanded_of_performs hexpand)
  · obtain ⟨r, hperformed, hr⟩ := performs_logError.mp hsignal
    cases r with
    | none => exact .unsignalled (signalled_of_performs hperformed)
    | some r => cases hr

theorem attempts_of_performs (devices : List DevicePath) :
    ∀ {τ : FirmwareTrace} {x : Option Unit},
      Performs (bootDevices lockedBoot image devices) τ x → Attempts image devices τ x.isSome := by
  induction devices with
  | nil =>
    rintro τ x ⟨rfl, rfl⟩
    exact .nil
  | cons path rest ih =>
    intro τ x hτ
    rcases performs_bind.mp hτ with ⟨σ, _, ρ, hfirst, hrest, rfl⟩ | ⟨hfirst, rfl⟩
    · exact .cons (attempt_of_performs hfirst) (ih hrest)
    · exact .stops (attempt_of_performs hfirst)

end Attempts

theorem keyRead_append {key : UInt16} {σ : FirmwareTrace} :
    KeyRead key (σ ++ τ) ↔ KeyRead key σ ∨ KeyRead key τ := by
  constructor
  · rintro ⟨i, hi⟩
    exact (List.mem_append.mp hi).imp (fun hσ => ⟨i, hσ⟩) fun hτ => ⟨i, hτ⟩
  · rintro (⟨i, hi⟩ | ⟨i, hi⟩)
    · exact ⟨i, List.mem_append_left _ hi⟩
    · exact ⟨i, List.mem_append_right _ hi⟩

theorem PressedAt.mono {handles others : List Handle} {key : UInt16} {ρ : FirmwareTrace}
    (hp : PressedAt handles key τ) (hhandles : handles ⊆ others) (hτ : τ ⊆ ρ) :
    PressedAt others key ρ := by
  obtain ⟨handle, hmem, i, hopen, hread⟩ := hp
  exact ⟨handle, hhandles hmem, i, hτ hopen, hτ hread⟩

theorem Drained.mono {handle : Handle} {ρ : FirmwareTrace} (hd : Drained handle τ)
    (hτ : τ ⊆ ρ) : Drained handle ρ := by
  rcases hd with ⟨s, hs⟩ | ⟨i, status, scanCode, hi, hstatus, hread⟩
  · exact .inl ⟨s, hτ hs⟩
  · exact .inr ⟨i, status, scanCode, hτ hi, hstatus, hτ hread⟩

theorem Endless.append {fuel : ℕ} (σ : FirmwareTrace) (hτ : Endless fuel τ) :
    Endless fuel (σ ++ τ) := by
  rcases hτ with hτ | ⟨pre, i, ρ, hkeys, rfl⟩
  · exact .inl (hτ.append σ)
  · exact .inr ⟨σ ++ pre, i, ρ, hkeys, (List.append_assoc σ pre ρ).symm⟩

/-- What a search for the key came to: `P` where it was found, `Q` of a search in vain, `E` of an
endless one. -/
def Searched (key : UInt16) (P Q E : FirmwareTrace → Prop) (τ : FirmwareTrace) : Option Bool → Prop
  | some true => P τ
  | some false => ¬KeyRead key τ ∧ Q τ
  | none => E τ

/-- The search goes on behind events in which the key was not read. -/
theorem Searched.append {key : UInt16} {P O Q R E F : FirmwareTrace → Prop} {σ : FirmwareTrace}
    {x : Option Bool} (hτ : Searched key P Q E τ x) (hσ : ¬KeyRead key σ)
    (hpo : P τ → O (σ ++ τ)) (hqr : Q τ → R (σ ++ τ)) (hef : E τ → F (σ ++ τ)) :
    Searched key O R F (σ ++ τ) x := by
  cases x with
  | none => exact hef hτ
  | some found =>
    cases found with
    | true => exact hpo hτ
    | false => exact ⟨fun hread => (keyRead_append.mp hread).elim hσ hτ.1, hqr hτ.2⟩

/-- A second search where the first one was in vain. -/
theorem searched_orElse {key : UInt16} {p q : Firmware Bool} {P Q E P' Q' E' : FirmwareTrace → Prop}
    (hp : ∀ {σ y}, Performs p σ y → Searched key P Q E σ y)
    (hq : ∀ {ρ y}, Performs q ρ y → Searched key P' Q' E' ρ y) {τ : FirmwareTrace} {x : Option Bool}
    (hτ : Performs (p >>= fun found => if found = true then pure true else q) τ x) :
    Searched key (fun τ => P τ ∨ ∃ σ ρ, τ = σ ++ ρ ∧ P' ρ)
      (fun τ => ∃ σ ρ, τ = σ ++ ρ ∧ Q σ ∧ Q' ρ)
      (fun τ => E τ ∨ ∃ σ ρ, τ = σ ++ ρ ∧ E' ρ) τ x := by
  rcases performs_bind.mp hτ with ⟨σ, found, ρ, hfirst, hnext, rfl⟩ | ⟨hfirst, rfl⟩
  · have hfound := hp hfirst
    cases found with
    | true =>
      obtain ⟨rfl, rfl⟩ := hnext
      rw [List.append_nil]
      exact .inl hfound
    | false =>
      obtain ⟨hunread, hvain⟩ := hfound
      apply (hq hnext).append hunread
      · exact fun hsecond => .inr ⟨σ, ρ, rfl, hsecond⟩
      · exact fun hsecond => ⟨σ, ρ, rfl, hvain, hsecond⟩
      · exact fun hendless => .inr ⟨σ, ρ, rfl, hendless⟩
  · exact .inl (hp hfirst)

/-- A keyboard answered that it has no keystroke. -/
def RanDry (i : Interface) (τ : FirmwareTrace) : Prop :=
  ∃ (status : Status) (scanCode : UInt16), status ≠ .success ∧
    ⟨.readKeyStroke i, some (status, scanCode)⟩ ∈ τ

theorem searched_drainKeys {key : UInt16} {i : Interface} {fuel : ℕ} :
    ∀ {τ : FirmwareTrace} {x : Option Bool}, Performs (drainKeys key i fuel) τ x →
      Searched key (fun τ => ⟨.readKeyStroke i, some (.success, key)⟩ ∈ τ) (RanDry i)
        (fun τ => Unanswered τ ∨ Keystrokes i fuel τ) τ x := by
  induction fuel with
  | zero =>
    rintro τ x ⟨rfl, rfl⟩
    exact .inr ⟨[], rfl, rfl⟩
  | succ fuel ih =>
    intro τ x hτ
    rw [drainKeys, ask, Program.call_bind] at hτ
    rcases performs_ask.mp hτ with ⟨rfl, rfl⟩ | ⟨⟨status, scanCode⟩, ρ, rfl, hrest⟩
    · exact .inl (unanswered_singleton _)
    dsimp only at hrest
    by_cases hstatus : status = .success
    · subst hstatus
      rw [if_pos rfl] at hrest
      by_cases hkey : scanCode = key
      · rw [if_pos hkey] at hrest
        obtain ⟨rfl, rfl⟩ := hrest
        subst hkey
        exact List.mem_singleton.mpr rfl
      · rw [if_neg hkey] at hrest
        have hother : ¬KeyRead key [⟨.readKeyStroke i, some (.success, scanCode)⟩] := by
          rintro ⟨j, hj⟩
          cases List.mem_singleton.mp hj
          exact hkey rfl
        apply (ih hrest).append hother
        · exact List.mem_cons_of_mem _
        · rintro ⟨status, scanCode', hstatus, hdry⟩
          exact ⟨status, scanCode', hstatus, List.mem_cons_of_mem _ hdry⟩
        · rintro (hu | ⟨keys, hlength, rfl⟩)
          · exact .inl (hu.append [_])
          · exact .inr ⟨scanCode :: keys, congrArg (· + 1) hlength, rfl⟩
    · rw [if_neg hstatus] at hrest
      obtain ⟨rfl, rfl⟩ := hrest
      refine ⟨?_, status, scanCode, hstatus, List.mem_singleton.mpr rfl⟩
      rintro ⟨j, hj⟩
      cases List.mem_singleton.mp hj
      exact hstatus rfl

/-- Events of other calls have no keystrokes in them. -/
theorem not_keyRead_call {key : UInt16} {c : Call} {r : Option (Answer c)}
    (hc : ∀ i, c ≠ .readKeyStroke i) : ¬KeyRead key [⟨c, r⟩] := by
  rintro ⟨i, hi⟩
  have hcall := congrArg Event.call (List.mem_singleton.mp hi)
  exact hc i hcall.symm

theorem searched_handles {key : UInt16} {fuel : ℕ} (handles : List Handle) :
    ∀ {τ : FirmwareTrace} {x : Option Bool},
      Performs (detectHotkeyFromHandles fuel key handles) τ x →
        Searched key (PressedAt handles key) (fun τ => ∀ handle ∈ handles, Drained handle τ)
          (Endless fuel) τ x := by
  induction handles with
  | nil =>
    rintro τ x ⟨rfl, rfl⟩
    refine ⟨?_, nofun⟩
    rintro ⟨i, hi⟩
    cases hi
  | cons handle rest ih =>
    intro τ x hτ
    rw [detectHotkeyFromHandles, ask, Program.call_bind] at hτ
    rcases performs_ask.mp hτ with ⟨rfl, rfl⟩ | ⟨opened, ρ, rfl, hrest⟩
    · exact .inl (unanswered_singleton _)
    have hopen : ¬KeyRead key [⟨.handleProtocol handle .simpleTextInput, some opened⟩] :=
      not_keyRead_call nofun
    cases opened with
    | error s =>
      apply (ih hrest).append hopen
      · intro hpressed
        exact hpressed.mono (List.subset_cons_self _ _) (List.subset_cons_self _ _)
      · intro hdrained other hmem
        rcases List.mem_cons.mp hmem with rfl | hmem
        · exact .inl ⟨s, List.mem_cons_self⟩
        · exact (hdrained other hmem).mono (List.subset_cons_self _ _)
      · exact Endless.append [_]
    | ok i =>
      apply (searched_orElse searched_drainKeys ih hrest).append hopen
      · rintro (hread | ⟨σ, φ, rfl, hpressed⟩)
        · exact ⟨handle, List.mem_cons_self, i, List.mem_cons_self, List.mem_cons_of_mem _ hread⟩
        · apply hpressed.mono (List.subset_cons_self _ _)
          exact List.subset_cons_of_subset _ (List.subset_append_right _ _)
      · rintro ⟨σ, φ, rfl, ⟨status, scanCode, hstatus, hdry⟩, hdrained⟩ other hmem
        rcases List.mem_cons.mp hmem with rfl | hmem
        · exact .inr ⟨i, status, scanCode, List.mem_cons_self, hstatus,
            List.mem_append_right [_] (List.mem_append_left _ hdry)⟩
        · apply (hdrained other hmem).mono
          exact List.subset_cons_of_subset _ (List.subset_append_right _ _)
      · rintro ((hu | hkeys) | ⟨σ, φ, rfl, hendless⟩)
        · exact .inl (hu.append [_])
        · exact .inr ⟨[_], i, ρ, hkeys, rfl⟩
        · exact (hendless.append σ).append [_]

theorem searched_detectHotkey {key : UInt16} {fuel : ℕ} {x : Option Bool}
    (hτ : Performs (detectHotkey fuel key) τ x) :
    Searched key (Pressed key) AllDrained (Endless fuel) τ x := by
  rw [detectHotkey, ask, Program.call_bind] at hτ
  rcases performs_ask.mp hτ with ⟨rfl, rfl⟩ | ⟨located, ρ, rfl, hrest⟩
  · exact .inl (unanswered_singleton _)
  have hlocate : ¬KeyRead key
      [⟨.locateHandleBuffer (.byProtocol .simpleTextInput), some located⟩] :=
    not_keyRead_call nofun
  cases located with
  | error s =>
    obtain ⟨rfl, rfl⟩ := hrest
    exact ⟨hlocate, .inl ⟨s, List.mem_cons_self⟩⟩
  | ok handles =>
    apply (searched_handles handles hrest).append hlocate
    · intro hpressed
      exact ⟨handles, List.mem_cons_self,
        hpressed.mono (List.Subset.refl _) (List.subset_cons_self _ _)⟩
    · intro hdrained
      refine .inr ⟨handles, List.mem_cons_self, ?_⟩
      intro handle hmem
      exact (hdrained handle hmem).mono (List.subset_cons_self _ _)
    · exact Endless.append [_]

def useHotkeyDevices (fuel : ℕ) (config : BootConfig) : Firmware Bool :=
  match config.hotkey with
  | some hotkey => detectHotkey fuel hotkey
  | none => pure false

def chosenDevices (config : BootConfig) (useHotkeyDevices : Bool) : List DevicePath :=
  if useHotkeyDevices then config.hotkeyDevices else config.devices

theorem selection_of_performs {fuel : ℕ} {config : BootConfig} {x : Option Bool}
    (hτ : Performs (useHotkeyDevices fuel config) τ x) :
    (∀ e ∈ τ, KeyboardCall e.call) ∧ (x = none → Endless fuel τ) ∧
      ∀ found, x = some found → Selection config τ (chosenDevices config found) := by
  cases hhotkey : config.hotkey with
  | none =>
    rw [useHotkeyDevices, hhotkey] at hτ
    obtain ⟨rfl, rfl⟩ := hτ
    refine ⟨List.forall_mem_nil _, nofun, ?_⟩
    rintro found ⟨⟩
    exact .noHotkey hhotkey
  | some key =>
    rw [useHotkeyDevices, hhotkey] at hτ
    have hcalls : ∀ e ∈ τ, KeyboardCall e.call := Only.performs (only_detectHotkey fuel key) hτ
    have hsearched := searched_detectHotkey hτ
    refine ⟨hcalls, ?_, ?_⟩
    · rintro rfl
      exact hsearched
    · rintro found rfl
      cases found with
      | true => exact .pressed key hhotkey hcalls hsearched
      | false => exact .notPressed key hhotkey hcalls hsearched.1 hsearched.2

theorem failed_of_performs {config : BootConfig} {x : Option (Except EfiError Empty)}
    (hτ : Performs (config.handleFailure >>= fun _ => (pure (.error .notFound) :
      Firmware (Except EfiError Empty))) τ x) : Failed config τ x := by
  simp only [BootConfig.handleFailure] at hτ
  by_cases hhandler : config.failureHandler = true
  · rw [if_pos hhandler, ask, Program.call_bind] at hτ
    rcases performs_ask.mp hτ with ⟨rfl, rfl⟩ | ⟨r, ρ, rfl, hrest⟩
    · exact .handled none hhandler
    · obtain ⟨rfl, rfl⟩ := hrest
      exact .handled (some r) hhandler
  · rw [if_neg hhandler] at hτ
    obtain ⟨rfl, rfl⟩ := hτ
    exact .silent (Bool.eq_false_iff.mpr hhandler)

section Execute

variable [PatinaDevicePath]

theorem boot_eq (fuel : ℕ) (self : SimpleBootManager) (lockedBoot : LockedBoot) (image : Handle) :
    (self.boot fuel lockedBoot image).run = logError discoverConsoleDevices >>= fun _ =>
      useHotkeyDevices fuel self.config >>= fun found =>
        bootDevices lockedBoot image (chosenDevices self.config found) >>= fun _ =>
          self.config.handleFailure >>= fun _ => pure (.error .notFound) := by
  have hrest : ∀ found : Bool, (do
      bootDevices lockedBoot image
        (if found then self.config.hotkeyDevices else self.config.devices)
      self.config.handleFailure
      throw .notFound : FirmwareE Empty).run =
        bootDevices lockedBoot image (chosenDevices self.config found) >>= fun _ =>
          self.config.handleFailure >>= fun _ => pure (.error .notFound) := by
    intro found
    rw [Program.run_lift_bind]
    congr 1
    funext _
    exact Program.run_lift_bind _ _
  rw [SimpleBootManager.boot, Program.run_lift_bind]
  congr 1
  funext _
  cases hhotkey : self.config.hotkey with
  | none =>
    rw [useHotkeyDevices, hhotkey]
    exact hrest false
  | some key =>
    rw [useHotkeyDevices, hhotkey]
    dsimp only
    rw [Program.run_lift_bind]
    congr 1
    funext found
    exact hrest found

theorem consoles_of_performs {x : Option Unit}
    (hτ : Performs (logError discoverConsoleDevices) τ x) :
    (∀ e ∈ τ, ConsoleCall e.call) ∧ (x = none → Unanswered τ) := by
  obtain ⟨r, hdiscover, rfl⟩ := performs_logError.mp hτ
  have honly : Only ConsoleCall discoverConsoleDevices.run :=
    discoverConsoleDevices_rule (composes_only ConsoleCall) fun c hc => (only_call c).mpr hc
  have hterminates : Terminates discoverConsoleDevices.run :=
    discoverConsoleDevices_rule composes_terminates fun c _ => terminates_call c
  refine ⟨Only.performs honly hdiscover, ?_⟩
  intro hr
  cases r with
  | none => exact hterminates.unanswered hdiscover
  | some r => cases hr

theorem boot_of_performs {fuel : ℕ} {self : SimpleBootManager} {lockedBoot : LockedBoot}
    {image : Handle} {x : Option (Except EfiError Empty)}
    (hτ : Performs (self.boot fuel lockedBoot image).run τ x) :
    BootTrace self.config fuel image τ x := by
  rw [boot_eq] at hτ
  rcases performs_bind.mp hτ with ⟨σ, _, ρ, hconsole, hkeys, rfl⟩ | ⟨hconsole, rfl⟩
  · have hconsoles := (consoles_of_performs hconsole).1
    rcases performs_bind.mp hkeys with ⟨κ, found, ρ₁, hchoose, hboot, rfl⟩ | ⟨hchoose, rfl⟩
    · have hselection := (selection_of_performs hchoose).2.2 found rfl
      rcases performs_bind.mp hboot with ⟨τ₁, _, φ, hattempts, hfailed, rfl⟩ | ⟨hattempts, rfl⟩
      · exact .exhausted hconsoles hselection (attempts_of_performs _ hattempts)
          (failed_of_performs hfailed)
      · exact .attempting hconsoles hselection (attempts_of_performs _ hattempts)
    · obtain ⟨hcalls, hnone, -⟩ := selection_of_performs hchoose
      exact .early hconsoles hcalls ((hnone rfl).append σ)
  · obtain ⟨hcalls, hnone⟩ := consoles_of_performs hconsole
    have hearly : BootTrace self.config fuel image (τ ++ []) none := by
      apply BootTrace.early hcalls
      · intro e he
        cases he
      · rw [List.append_nil]
        exact .inl (hnone rfl)
    rwa [List.append_nil] at hearly

/-- The lock step succeeded, with the history `locked`. -/
def LockSucceeds (env : FirmwareEnv) (fuel : ℕ) (self : SimpleBootManager) (locked : FirmwareTrace)
    (lockedBoot : LockedBoot) : Prop :=
  (SimpleBootManager.preLock fuel self >>= fun _ => enterLockedBoot.run).run env [] =
    (locked, some (.ok lockedBoot))

theorem execute_attempt_trace (self : SimpleBootManager) (fuel : ℕ) (image : Handle)
    (env : FirmwareEnv) (locked : FirmwareTrace) (lockedBoot : LockedBoot)
    (hlock : LockSucceeds env fuel self locked lockedBoot) :
    ∃ τ, ((self.execute fuel image).run.run env []).1 = locked ++ τ ∧
      BootTrace self.config fuel image τ ((self.execute fuel image).run.run env []).2 := by
  have hrun : (self.execute fuel image).run.run env [] =
      (self.boot fuel lockedBoot image).run.run env locked := by
    obtain ⟨h₁, _, hpre, henter⟩ := Program.run_bind_returns env [] hlock
    rw [SimpleBootManager.execute, run_executeWith, Program.run_bind_some env [] hpre,
      ExceptT.run_bind, Program.run_bind_some env h₁ henter]
  rw [hrun]
  obtain ⟨τ, hτ, hperforms⟩ := performs_run (self.boot fuel lockedBoot image).run env locked
  exact ⟨τ, hτ, boot_of_performs hperforms⟩

end Execute

def bareBoard : Platform where
  nvram _ := .error efiNotFound
  volumes := []

/-- A keyboard on which the hotkey is held down, and one image that loads and comes back. -/
def keyedEnv : FirmwareEnv := fun h c =>
  match c with
  | .locateHandleBuffer (.byProtocol .simpleTextInput) => some (.ok [3])
  | .handleProtocol _ .simpleTextInput => some (.ok 8)
  | .readKeyStroke _ => some (.success, 1)
  | .loadImage _ path => some (if path = [endEntire] then .error efiNotFound else .ok 5)
  | .setWatchdogTimer _ => some (.ok ())
  | .startImage _ => some (.error efiNotFound)
  | .failureHandler => some ()
  | .setVariable _ _ => some (.ok ())
  | c => bareBoard.env h c

def hotkeyManager : SimpleBootManager where
  config :=
    { devices := [[endEntire]]
      hotkey := some 1
      hotkeyDevices := [[endEntire], [⟨typeHardware, 1, [0, 2]⟩, endEntire]]
      failureHandler := true }

def loaded : Event Answer → Option DevicePath
  | ⟨.loadImage _ path, _⟩ => some path
  | _ => none

def started : Event Answer → Option Handle
  | ⟨.startImage handle, _⟩ => some handle
  | _ => none

section Witness

local instance : PatinaDevicePath := specDevicePath

/-- The hotkey's two entries are tried in order; the image of the second one is started. -/
theorem execute_attempt_trace_keyed :
    ∃ locked, LockSucceeds keyedEnv 1 hotkeyManager locked .enter ∧
      (∃ τ, ((hotkeyManager.execute 1 0).run.run keyedEnv []).1 = locked ++ τ ∧
        BootTrace hotkeyManager.config 1 0 τ
          ((hotkeyManager.execute 1 0).run.run keyedEnv []).2) ∧
      ((hotkeyManager.execute 1 0).run.run keyedEnv []).1.filterMap loaded =
        hotkeyManager.config.hotkeyDevices ∧
      ((hotkeyManager.execute 1 0).run.run keyedEnv []).1.filterMap started = [5] ∧
      ((hotkeyManager.execute 1 0).run.run keyedEnv []).2 = some (.error .notFound) := by
  have hlock : LockSucceeds keyedEnv 1 hotkeyManager
      ((SimpleBootManager.preLock 1 hotkeyManager >>= fun _ =>
        enterLockedBoot.run).run keyedEnv []).1 .enter := rfl
  exact ⟨_, hlock, execute_attempt_trace hotkeyManager 1 0 keyedEnv _ .enter hlock, by decide, by decide,
    by decide⟩

end Witness

end PatinaAttemptTrace
