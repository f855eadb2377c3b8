import OdpPlatform.PatinaLockOrder
import OdpPlatform.InteractionHistory

/-! # ReadyToBoot before each attempt of SreBootManager

Six of the eight dispatch sites signal ReadyToBoot right before the attempt; the filesystem
fallback candidates and the last-resort recovery flow do not. -/
namespace PatinaReadyToBoot

open ByteBuffer DevicePathNodes InteractionProgram InteractionContract InteractionHistory
open FirmwareServices PatinaBootHelpers PatinaBootOptions PatinaBpRecovery PatinaSreBootManager
open PatinaBootCalls PatinaLockOrder

def IsAttempt : Call → Prop
  | .note (.bootAttempt _ _) => True
  | _ => False

def IsSignal (c : Call) : Prop := c = .createEventEx .readyToBoot

def Armed (h : FirmwareTrace) : Prop :=
  ∃ e post, SinceLast (fun c => IsAttempt c ∨ IsSignal c) h e post ∧ IsSignal e.call

def SignalledBeforeEach (τ : FirmwareTrace) : Prop :=
  Guarded (fun h c => IsAttempt c → Armed h) τ

def Unsignalled : DispatchSite → Prop
  | .fallbackCandidate | .lastResort => True
  | _ => False

def UnsignalledAttempt : Call → Prop
  | .note (.bootAttempt site _) => Unsignalled site
  | _ => False

def Neutral (c : Call) : Prop := ¬IsAttempt c ∧ ¬IsSignal c

theorem not_armed_nil : ¬Armed [] := by
  rintro ⟨e, post, hs, -⟩
  exact not_sinceLast_nil e post hs

theorem armed_signal {h : FirmwareTrace} {e : Event Answer} (he : IsSignal e.call) :
    Armed (h ++ [e]) :=
  ⟨e, [], .mark (.inr he), he⟩

theorem not_armed_attempt {h : FirmwareTrace} {e : Event Answer} (he : IsAttempt e.call) :
    ¬Armed (h ++ [e]) := by
  rintro ⟨x, post, hs, hx⟩
  obtain ⟨rfl, -⟩ := hs.unique (.mark (.inl he))
  rw [hx] at he
  exact he

theorem armed_neutral {h : FirmwareTrace} {e : Event Answer} (he : Neutral e.call) :
    Armed (h ++ [e]) ↔ Armed h := by
  have hmark : ¬(IsAttempt e.call ∨ IsSignal e.call) := not_or.mpr he
  constructor
  · rintro ⟨x, post, hs, hx⟩
    rcases hs.cases_snoc with ⟨-, -, hm⟩ | ⟨post', -, -, hs'⟩
    · exact absurd hm hmark
    · exact ⟨x, post', hs', hx⟩
  · rintro ⟨x, post, hs, hx⟩
    exact ⟨x, post ++ [e], hs.snoc hmark, hx⟩

theorem BootCall.neutral {c : Call} (hc : BootCall c) : Neutral c := by
  cases c with
  | note | createEventEx => exact hc.elim
  | _ => exact ⟨id, nofun⟩

theorem QuietCall.neutral {c : Call} (hc : QuietCall c) : Neutral c := BootCall.neutral hc.bootCall

theorem NoBoot.neutral {c : Call} (hc : NoBoot c) : Neutral c := by
  cases c with
  | note => exact hc.elim
  | createEventEx group =>
    cases group with
    | readyToBoot => exact hc.elim
    | _ => exact ⟨id, nofun⟩
  | _ => exact ⟨id, nofun⟩

def AttemptGuard (h : FirmwareTrace) : Call → Prop
  | .note (.bootAttempt site _) => Armed h ↔ ¬Unsignalled site
  | _ => True

theorem attemptGuard_neutral {h : FirmwareTrace} {c : Call} (hc : ¬IsAttempt c) :
    AttemptGuard h c := by
  cases c with
  | note n => cases n <;> first | trivial | exact absurd trivial hc
  | _ => trivial

variable {α : Type} {h : FirmwareTrace}

/-- What every part of the orchestrator keeps: no signal waits for its attempt. -/
abbrev KeepsDisarmed (p : Firmware α) : Prop :=
  Keeps (.ofGuard AttemptGuard) (fun h => ¬Armed h) p

theorem neutral_keeps {p : Firmware α} (hp : Only Neutral p) : KeepsDisarmed p :=
  hp.keeps (fun _ _ _ hc => attemptGuard_neutral hc.1)
    fun _ _ _ hno hc => (armed_neutral hc).not.mpr hno

theorem quiet_keeps {p : Firmware α} (hp : Only QuietCall p) : KeepsDisarmed p :=
  neutral_keeps (hp.mono fun _ => QuietCall.neutral)

theorem signalReadyToBoot_meets (h : FirmwareTrace) :
    Meets (.ofGuard AttemptGuard) (fun h' _ => Armed h') (logError signalReadyToBoot) h := by
  simp only [logError, signalReadyToBoot, signalGroup, run_mapErr_bind, Program.call_bind,
    Program.ask_bind]
  refine ⟨trivial, fun r _ => ?_⟩
  have harmed : Armed (h ++ [⟨.createEventEx .readyToBoot, some r⟩]) := armed_signal rfl
  cases r with
  | error => exact harmed
  | ok ev =>
    have hrest : Only Neutral (do
        let signalResult ← ask (.signalEvent ev)
        let closeResult ← ask (.closeEvent ev)
        mapErr (pure signalResult)
        mapErr (pure closeResult) : FirmwareE Unit).run := by
      refine only_askErr_bind ⟨id, by rintro ⟨⟩⟩ fun r => ?_
      refine only_askErr_bind ⟨id, by rintro ⟨⟩⟩ fun r' => ?_
      exact only_mapErr_bind trivial fun _ => only_mapErr trivial
    refine Only.meets (K := .ofGuard AttemptGuard) (I := Armed) (hrest.bind fun _ => trivial)
      (fun _ _ _ hc => attemptGuard_neutral hc.1) (fun _ _ _ ha hc => ?_) harmed
    exact (armed_neutral hc).mpr ha

/-- The note of an attempt and what the attempt then does. -/
theorem attempt_meets {site : DispatchSite} {path : Option DevicePath} {p : Firmware α}
    (hsite : Armed h ↔ ¬Unsignalled site) (hp : Only BootCall p) :
    Meets (.ofGuard AttemptGuard) (fun h' _ => ¬Armed h')
      (ask (.note (.bootAttempt site path)) >>= fun _ => p) h := by
  refine ⟨hsite, fun r _ => ?_⟩
  exact neutral_keeps (hp.mono fun _ => BootCall.neutral) _ (not_armed_attempt trivial)

theorem signalled_keeps {site : DispatchSite} (hsite : ¬Unsignalled site)
    {path : Option DevicePath} {p : Firmware α} (hp : Only BootCall p) :
    KeepsDisarmed (logError signalReadyToBoot >>= fun _ =>
      ask (.note (.bootAttempt site path)) >>= fun _ => p) :=
  fun h _ => (signalReadyToBoot_meets h).bind fun _ _ _ harmed =>
    attempt_meets ⟨fun _ => hsite, fun _ => harmed⟩ hp

theorem unsignalled_keeps {site : DispatchSite} (hsite : Unsignalled site)
    {path : Option DevicePath} {p : Firmware α} (hp : Only BootCall p) :
    KeepsDisarmed (ask (.note (.bootAttempt site path)) >>= fun _ => p) :=
  fun _ hno => attempt_meets ⟨fun ha => absurd ha hno, fun hs => absurd hsite hs⟩ hp

theorem probePayload_keeps (self : SreBootManager) : KeepsDisarmed self.probePayload :=
  probePayload_rule (composes_keeps _ _) quiet_keeps fun _ =>
    neutral_keeps ⟨⟨id, nofun⟩, fun _ => trivial⟩

theorem signalledBeforeEach_iff {τ : FirmwareTrace} (hτ : Guarded AttemptGuard τ) :
    SignalledBeforeEach τ ↔ ∀ e ∈ τ, ¬UnsignalledAttempt e.call := by
  constructor
  · intro hs e he hun
    obtain ⟨pre, post, rfl⟩ := List.append_of_mem he
    have hguard := hτ pre e post rfl
    have harmed := hs pre e post rfl
    obtain ⟨c, a⟩ := e
    cases c with
    | note n =>
      cases n with
      | bootAttempt site path => exact hguard.mp (harmed trivial) hun
      | _ => exact hun
    | _ => exact hun
  · intro hnone pre e post hpost hattempt
    have hguard := hτ pre e post hpost
    have hun : ¬UnsignalledAttempt e.call := hnone e (by simp [hpost])
    obtain ⟨c, a⟩ := e
    cases c with
    | note n =>
      cases n with
      | bootAttempt site path => exact hguard.mpr hun
      | _ => exact hattempt.elim
    | _ => exact hattempt.elim

section Execute

variable [PatinaDevicePath]

theorem signalAndBoot_keeps (lockedBoot : LockedBoot) (image : Handle) {site : DispatchSite}
    (hsite : ¬Unsignalled site) (path : DevicePath) :
    KeepsDisarmed (signalAndBoot lockedBoot image site path) :=
  signalled_keeps hsite (only_dispatch lockedBoot image path)

theorem bootOption_keeps (lockedBoot : LockedBoot) (image : Handle) (bpHasSre triedAny : Bool)
    (path : DevicePath) : KeepsDisarmed (bootOption lockedBoot image bpHasSre triedAny path) := by
  have hP := composes_keeps (.ofGuard AttemptGuard) fun h => ¬Armed h
  unfold bootOption
  split
  · exact hP.done triedAny
  · split
    · exact hP.done triedAny
    · exact hP.bind (signalAndBoot_keeps lockedBoot image id path) fun _ => hP.done true

theorem bootCandidate_keeps (lockedBoot : LockedBoot) (image : Handle) (bpHasSre : Bool) (u : Unit)
    (path : DevicePath) : KeepsDisarmed (bootCandidate lockedBoot image bpHasSre u path) := by
  have hsite : Unsignalled .fallbackCandidate := trivial
  unfold bootCandidate
  split
  · exact (composes_keeps _ _).done ()
  · exact unsignalled_keeps hsite (only_dispatch lockedBoot image path)

theorem lastResort_keeps (arch : TargetArch) (lockedBoot : LockedBoot) (image : Handle)
    (bpHasSre : Bool) : KeepsDisarmed (lastResort arch lockedBoot image bpHasSre) := by
  have hsite : Unsignalled .lastResort := trivial
  unfold lastResort
  split
  · exact unsignalled_keeps hsite (only_recover arch lockedBoot image)
  · exact (composes_keeps _ _).done ()

theorem boot_keeps (self : SreBootManager) (arch : TargetArch) (lockedBoot : LockedBoot)
    (image : Handle) : KeepsDisarmed (self.boot arch lockedBoot image) := by
  have hP := composes_keeps (.ofGuard AttemptGuard) fun h => ¬Armed h
  refine hP.bind (hotkeyPhase_rule hP quiet_keeps (fun site hsite path => ?_) ?_) fun _ =>
    hP.bind (probePayload_keeps self) fun bpHasSre => ?_
  · refine signalAndBoot_keeps lockedBoot image (fun hun => ?_) path
    cases site <;> simp_all [Unsignalled]
  · have hsite : ¬Unsignalled .hotkeyRecovery := id
    exact signalled_keeps hsite (only_recover arch lockedBoot image)
  · have hfull : KeepsDisarmed (ask (.note .fullConnect)) :=
      neutral_keeps ((only_call _).mpr ⟨id, nofun⟩)
    have hfallback : ∀ candidates, KeepsDisarmed (ask (.note (.fallbackOptions candidates))) :=
      fun _ => neutral_keeps ((only_call _).mpr ⟨id, nofun⟩)
    exact normalBoot_rule hP quiet_keeps hfull hfallback (bootOption_keeps lockedBoot image bpHasSre)
      (signalAndBoot_keeps lockedBoot image id _) (bootCandidate_keeps lockedBoot image bpHasSre)
      (lastResort_keeps arch lockedBoot image bpHasSre)

theorem execute_keeps (self : SreBootManager) (arch : TargetArch) (fuel : ℕ) (image : Handle) :
    KeepsDisarmed (self.execute arch fuel image).run := by
  have hP := composes_keeps (.ofGuard AttemptGuard) fun h => ¬Armed h
  have hpre : Only Neutral (SreBootManager.preLock self fuel) :=
    (only_beforeLock_preLock self fuel).mono fun _ hc => NoBoot.neutral hc.1
  have hlock : Only Neutral enterLockedBoot.run :=
    only_enterLockedBoot.mono fun _ => NoBoot.neutral
  rw [run_execute]
  refine hP.bind (neutral_keeps hpre) fun _ => ?_
  rw [ExceptT.run_bind]
  refine hP.bind (neutral_keeps hlock) fun r => ?_
  cases r with
  | error => exact hP.done _
  | ok lockedBoot =>
    dsimp only
    rw [Program.run_lift_bind]
    exact hP.bind (boot_keeps self arch lockedBoot image) fun _ => hP.done _

/-- In every run the attempts without a ReadyToBoot of their own are those of the two sites. -/
theorem attempt_armed_iff (self : SreBootManager) (arch : TargetArch) (fuel : ℕ) (image : Handle)
    (env : FirmwareEnv) :
    Guarded AttemptGuard ((self.execute arch fuel image).run.run env []).1 :=
  (execute_keeps self arch fuel image [] not_armed_nil).guarded env

theorem ready_to_boot_iff (self : SreBootManager) (arch : TargetArch) (fuel : ℕ) (image : Handle)
    (env : FirmwareEnv) :
    SignalledBeforeEach ((self.execute arch fuel image).run.run env []).1 ↔
      ∀ e ∈ ((self.execute arch fuel image).run.run env []).1, ¬UnsignalledAttempt e.call :=
  signalledBeforeEach_iff (attempt_armed_iff self arch fuel image env)

end Execute

/-- Locking and events work, images never load; `volumes` are the device paths of the handles,
`head` is what a log page read returns. -/
structure Platform where
  nvram : VariableName → Except Status Bytes
  volumes : List Bytes
  head : Bytes := []

def Platform.env (platform : Platform) : FirmwareEnv := fun _ c =>
  match c with
  | .createEventEx _ => some (.ok 0)
  | .signalEvent _ | .closeEvent _ => some (.ok ())
  | .dispatch => some (.ok false)
  | .locateHandleBuffer .allHandle => some (.error efiNotFound)
  | .locateHandleBuffer (.byProtocol _) => some (.ok (List.range platform.volumes.length))
  | .handleProtocolDevicePath handle =>
    match platform.volumes[handle]? with
    | some bytes => some (.ok (memoryOf bytes))
    | none => some (.error efiNotFound)
  | .locateProtocolUnchecked .msButtonServices => some (.error efiNotFound)
  | .locateProtocolUnchecked _ => some (.ok (some 0))
  | .proxyRevision _ => some proxyRevision
  | .proxyInstallDxeSmmReadyToLock _ => some .success
  | .getVariable name => some (platform.nvram name)
  | .passThru _ => some ⟨.success, 0, 0, platform.head⟩
  | .loadImage _ _ => some (.error efiNotFound)
  | .note _ => some ()
  | _ => none

def usbVolumePlatform : Platform where
  nvram
    | .secureBoot => .ok [1]
    | .setupMode => .ok [0]
    | _ => .error efiNotFound
  volumes := [asBytes [⟨typeMessaging, messagingUsb, [1, 0]⟩, endEntire]]

def removableMediaManager : SreBootManager where
  mainOsPath := [endEntire]
  bootSourcePolicy := { allowRemovableMedia := true }

def isCandidateAttempt : Call → Bool
  | .note (.bootAttempt .fallbackCandidate _) => true
  | _ => false

theorem unsignalled_candidate {c : Call} (hc : isCandidateAttempt c = true) :
    UnsignalledAttempt c := by
  unfold isCandidateAttempt at hc
  split at hc
  · trivial
  · cases hc

section Counterexample

local instance : PatinaDevicePath := specDevicePath

theorem fallback_candidate_unsignalled :
    ¬SignalledBeforeEach
      ((removableMediaManager.execute .x86_64 1 0).run.run usbVolumePlatform.env []).1 := by
  have hreached : ((removableMediaManager.execute .x86_64 1 0).run.run
      usbVolumePlatform.env []).1.any (fun e => isCandidateAttempt e.call) = true := by
    decide +kernel
  obtain ⟨e, he, hcandidate⟩ := List.any_eq_true.mp hreached
  rw [signalledBeforeEach_iff (attempt_armed_iff removableMediaManager .x86_64 1 0 _)]
  exact fun hnone => hnone e he (unsignalled_candidate hcandidate)

end Counterexample

end PatinaReadyToBoot
