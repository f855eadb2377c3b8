import OdpPlatform.InteractionMonitor
import OdpPlatform.PatinaReadyToBoot

/-! # What SreBootManager keeps to on both sides of EndOfDxe

The history is folded into the event that is open, the proxy with the revision it published, the
PCI class that was looked up just before, and whether EndOfDxe was signalled. -/
namespace PatinaBootBoundary

open DevicePathNodes InteractionProgram InteractionContract InteractionMonitor FirmwareServices
open PatinaBootHelpers PatinaBootOptions PatinaBpRecovery PatinaSreBootManager
open PatinaBootCalls PatinaLockOrder

inductive Lookup where
  | none
  | opened (handle : Handle) (pci : Interface)
  | known (handle : Handle) (usb : Bool)
  deriving DecidableEq, Repr

/-- `event` holds the group and whether it was signalled. -/
structure Boundary where
  endOfDxe : Bool := false
  event : Option (EventGroup × EventHandle × Bool) := none
  proxy : Option (Interface × Option UInt32) := none
  lookup : Lookup := .none
  deriving DecidableEq, Repr

def usbClass (value : UInt32) : Bool :=
  ((((value >>> 24) &&& 0xff) <<< 8) ||| ((value >>> 16) &&& 0xff)) == 0x0c03

/-- A class is known until the next call. -/
def lookUp (lookup : Lookup) : Event Answer → Lookup
  | ⟨.handleProtocol h .pciIo, some (.ok pci)⟩ => .opened h pci
  | ⟨.handleProtocol h .pciIo, some (.error _)⟩ => .known h false
  | ⟨.pciConfigRead pci, some (status, value)⟩ =>
    match lookup with
    | .opened h pci' =>
      if pci' = pci then .known h (status == .success && usbClass value) else .none
    | _ => .none
  | _ => .none

def track (s : Boundary) : Event Answer → Boundary
  | ⟨.createEventEx group, some (.ok ev)⟩ => { s with event := some (group, ev, false) }
  | ⟨.signalEvent ev, some r⟩ =>
    { s with
      endOfDxe := s.endOfDxe || (r.isOk && s.event == some (.endOfDxe, ev, false))
      event := s.event.map fun open_ => (open_.1, open_.2.1, true) }
  | ⟨.closeEvent _, some _⟩ => { s with event := none }
  | ⟨.locateProtocolUnchecked .patinaBootMgrLibProxy, some (.ok (some i))⟩ =>
    { s with proxy := some (i, none) }
  | ⟨.proxyRevision i, some revision⟩ => { s with proxy := some (i, some revision) }
  | _ => s

def advance (s : Boundary) (e : Event Answer) : Boundary :=
  { track s e with lookup := lookUp s.lookup e }

def Publishes (s : Boundary) (i : Interface) (since : UInt32) : Prop :=
  ∃ revision, s.proxy = some (i, some revision) ∧ revision >>> 16 = proxyRevision >>> 16 ∧
    since ≤ revision

def Permitted (s : Boundary) : Call → Prop
  | .createEventEx _ => s.event = none
  | .signalEvent ev => ∃ group, s.event = some (group, ev, false)
  | .closeEvent ev => ∃ group, s.event = some (group, ev, true)
  | .proxyRevision i => s.event = none ∧ s.proxy = some (i, none)
  | .proxyInstallDxeSmmReadyToLock i => s.event = none ∧ Publishes s i 0
  | .proxyDisplayBootLogo i => s.event = none ∧ Publishes s i 0x00010002
  | .connectController h recursive =>
    s.event = none ∧ (s.endOfDxe = true ∨ recursive = false ∧ s.lookup = .known h false)
  | .loadImage _ _ | .startImage _ => s.event = none ∧ s.endOfDxe = true
  | _ => s.event = none

def boundaryMonitor : Monitor Answer Boundary where
  start := {}
  step := advance
  permits := Permitted

variable {α β : Type}

/-- Between calls of interest: no event is open, and EndOfDxe stays signalled. -/
def Calm (endOfDxe : Bool) (s : Boundary) : Prop :=
  s.event = none ∧ (endOfDxe = true → s.endOfDxe = true)

theorem steps_logError {s : Boundary} {I : Boundary → Prop} {x : FirmwareE α}
    (hx : boundaryMonitor.Steps (fun s _ => I s) x.run s) :
    boundaryMonitor.Steps (fun s _ => I s) (logError x) s :=
  hx.bind fun _ _ hs => hs

theorem steps_signalGroup (group : EventGroup) {endOfDxe : Bool} {s : Boundary}
    (hs : Calm endOfDxe s) :
    boundaryMonitor.Steps (fun s' r => Calm endOfDxe s' ∧
      (group = .endOfDxe → r = .ok () → s'.endOfDxe = true)) (signalGroup group).run s := by
  obtain ⟨hevent, hend⟩ := hs
  simp only [signalGroup, run_mapErr_bind, Program.call_bind, Program.run_lift_bind]
  refine ⟨hevent, fun r _ => ?_⟩
  cases r with
  | error => exact ⟨⟨hevent, hend⟩, fun _ h => by cases h⟩
  | ok ev =>
    refine ⟨⟨group, rfl⟩, fun signalResult _ => ⟨⟨group, rfl⟩, fun closeResult _ => ?_⟩⟩
    have hkeep : endOfDxe = true → (s.endOfDxe || (signalResult.isOk &&
        some (group, ev, false) == some (EventGroup.endOfDxe, ev, false))) = true := by
      intro h
      rw [hend h, Bool.true_or]
    cases signalResult with
    | error => exact ⟨⟨rfl, hkeep⟩, fun _ h => by cases h⟩
    | ok _ =>
      cases closeResult with
      | error => exact ⟨⟨rfl, hkeep⟩, fun _ h => by cases h⟩
      | ok _ =>
        refine ⟨⟨rfl, hkeep⟩, ?_⟩
        rintro rfl -
        change (s.endOfDxe || (true && some (EventGroup.endOfDxe, ev, false) ==
          some (EventGroup.endOfDxe, ev, false))) = true
        rw [beq_self_eq_true, Bool.and_self, Bool.or_true]

theorem steps_locate {endOfDxe : Bool} {s : Boundary} (hs : Calm endOfDxe s) :
    boundaryMonitor.Steps (fun s' r => Calm endOfDxe s' ∧ s'.endOfDxe = s.endOfDxe ∧
      ∀ proxy : Proxy, r = .ok proxy → s'.proxy = some (proxy.interface, some proxy.revision) ∧
        proxy.revision >>> 16 = proxyRevision >>> 16) locate.run s := by
  simp only [locate, run_mapErr_bind, Program.call_bind]
  refine ⟨hs.1, fun r _ => ?_⟩
  rcases r with status | _ | i
  · exact ⟨hs, rfl, fun _ h => by cases h⟩
  · exact ⟨hs, rfl, fun _ h => by cases h⟩
  · dsimp only
    rw [Program.run_lift_bind]
    refine ⟨⟨hs.1, rfl⟩, fun revision _ => ?_⟩
    change boundaryMonitor.Steps _ (ExceptT.run (ite _ _ _)) _
    split
    next => exact ⟨hs, rfl, fun _ h => by cases h⟩
    next hmajor =>
      refine ⟨hs, rfl, ?_⟩
      rintro proxy ⟨⟩
      exact ⟨rfl, not_not.mp hmajor⟩

/-- `check` only turns the status into a result. -/
theorem steps_check {s : Boundary} {Q : Boundary → Prop} (status : Status) (hs : Q s) :
    boundaryMonitor.Steps (fun s' _ => Q s') (check status).run s := by
  rw [check]
  split
  · exact hs
  · exact hs

theorem steps_displayBootLogo {endOfDxe : Bool} {s : Boundary} (hs : Calm endOfDxe s) :
    boundaryMonitor.Steps (fun s' _ => Calm endOfDxe s') displayBootLogo.run s := by
  refine (steps_locate hs).except_bind ?_ fun _ _ h => h.1
  rintro s' proxy ⟨hcalm, -, hproxy⟩
  obtain ⟨hpublished, hmajor⟩ := hproxy proxy rfl
  by_cases hold : proxy.revision < 0x00010002
  · rw [if_pos hold]
    exact hcalm
  · rw [if_neg hold, Program.run_lift_bind]
    refine ⟨⟨hcalm.1, proxy.revision, hpublished, hmajor, UInt32.not_lt.mp hold⟩, fun _ _ => ?_⟩
    exact steps_check _ hcalm

theorem steps_installDxeSmmReadyToLock {s : Boundary} (hs : Calm true s) :
    boundaryMonitor.Steps (fun s' _ => Calm true s') installDxeSmmReadyToLock.run s := by
  refine (steps_locate hs).except_bind ?_ fun _ _ h => h.1
  rintro s' proxy ⟨hcalm, -, hproxy⟩
  obtain ⟨hpublished, hmajor⟩ := hproxy proxy rfl
  rw [Program.run_lift_bind]
  refine ⟨⟨hcalm.1, proxy.revision, hpublished, hmajor, UInt32.zero_le⟩, fun _ _ => ?_⟩
  exact steps_check _ hcalm

theorem steps_enterLockedBoot {s : Boundary} (hs : Calm false s) :
    boundaryMonitor.Steps (fun s' r => s'.event = none ∧
      ∀ lockedBoot, r = .ok lockedBoot → s'.endOfDxe = true) enterLockedBoot.run s := by
  refine (steps_signalGroup .endOfDxe hs).except_bind ?_ fun _ _ h => ⟨h.1.1, nofun⟩
  rintro s' _ ⟨hcalm, hend⟩
  refine (steps_installDxeSmmReadyToLock ⟨hcalm.1, fun _ => hend rfl rfl⟩).except_bind ?_ ?_
  · rintro s'' _ hcalm'
    exact ⟨hcalm'.1, fun _ _ => hcalm'.2 rfl⟩
  · rintro s'' e hcalm'
    exact ⟨hcalm'.1, nofun⟩

/-- A handle that is not skipped is known not to be a USB host controller. -/
theorem steps_isUsbHostController (handle : Handle) {s : Boundary} (hs : s.event = none) :
    boundaryMonitor.Steps (fun s' usb => s'.event = none ∧
      (usb = false → s'.lookup = .known handle false)) (isUsbHostController handle) s := by
  have hclass : boundaryMonitor.Steps (fun s' r => s'.event = none ∧
      (∀ value, r = .ok value → s'.lookup = .known handle (value == 0x0c03)) ∧
        ∀ e, r = .error e → s'.lookup = .known handle false) (pciClass handle).run s := by
    simp only [pciClass, run_mapErr_bind, Program.call_bind]
    refine ⟨hs, fun r _ => ?_⟩
    cases r with
    | error => exact ⟨hs, fun _ h => (by cases h), fun _ _ => rfl⟩
    | ok pci =>
      dsimp only
      rw [Program.run_lift_bind]
      refine ⟨hs, ?_⟩
      rintro ⟨status, value⟩ -
      have hlookup : (boundaryMonitor.step { s with lookup := .opened handle pci }
          ⟨.pciConfigRead pci, some (status, value)⟩).lookup =
            .known handle (status == .success && usbClass value) := by
        simp [boundaryMonitor, advance, lookUp]
      have hevent : (boundaryMonitor.step { s with lookup := .opened handle pci }
          ⟨.pciConfigRead pci, some (status, value)⟩).event = none := by
        simp [boundaryMonitor, advance, track, hs]
      change boundaryMonitor.Steps _ (ExceptT.run (ite _ _ _)) _
      split
      next hstatus =>
        refine ⟨hevent, fun _ h => (by cases h), fun _ _ => hlookup.trans ?_⟩
        rw [beq_false_of_ne hstatus, Bool.false_and]
      next hstatus =>
        refine ⟨hevent, fun v hv => ?_, fun _ h => by cases h⟩
        have hsuccess : status = .success := not_not.mp hstatus
        cases hv
        refine hlookup.trans ?_
        rw [hsuccess, beq_self_eq_true, Bool.true_and]
        rfl
  refine hclass.bind fun s' r hr => ?_
  cases r with
  | error e => exact ⟨hr.1, fun _ => hr.2.2 e rfl⟩
  | ok value =>
    refine ⟨hr.1, fun husb => ?_⟩
    rw [hr.2.1 value rfl, husb]

theorem steps_connectAllSkipUsb {s : Boundary} (hs : s.event = none) :
    boundaryMonitor.Steps (fun s' _ => s'.event = none) connectAllSkipUsb.run s := by
  rw [connectAllSkipUsb]
  suffices h : ∀ (iterations : ℕ) (connected : List Handle) (s : Boundary), s.event = none →
      boundaryMonitor.Steps (fun s' _ => s'.event = none)
        (connectPasses isUsbHostController false iterations connected).run s from h 20 [] s hs
  intro iterations
  induction iterations with
  | zero => exact fun _ _ hs => hs
  | succ iterations ih =>
    intro connected s hs
    simp only [connectPasses, run_mapErr_bind, Program.call_bind]
    refine ⟨hs, fun r _ => ?_⟩
    cases r with
    | error => exact hs
    | ok handles =>
      dsimp only
      rw [Program.run_lift_bind]
      refine (Monitor.Steps.foldlM (I := fun _ s _ => s.event = none) ?_ handles _ _ hs).bind ?_
      · intro handle _ s st hs
        simp only [connectHandle]
        split
        · exact hs
        · refine (steps_isUsbHostController handle hs).bind ?_
          rintro s' usb ⟨hevent, hlookup⟩
          cases usb with
          | true => exact hevent
          | false => exact ⟨⟨hevent, .inr ⟨rfl, hlookup rfl⟩⟩, fun _ _ => hevent⟩
      · intro s' st hs'
        split
        · exact hs'
        · exact ih _ s' hs'

theorem steps_signal (group : EventGroup) {s : Boundary} (hs : s.event = none) :
    boundaryMonitor.Steps (fun s' _ => s'.event = none) (logError (signalGroup group)) s :=
  steps_logError ((@steps_signalGroup group false _ ⟨hs, nofun⟩).mono
    fun _ _ h => h.1.1)

theorem steps_preLock (self : SreBootManager) (fuel : ℕ) {s : Boundary} (hs : s.event = none) :
    boundaryMonitor.Steps (fun s' _ => s'.event = none) (SreBootManager.preLock self fuel) s := by
  have hdispatch : ∀ (fuel : ℕ) (s : Boundary), s.event = none →
      boundaryMonitor.Steps (fun s' _ => s'.event = none) (dispatchLoop fuel) s := by
    intro fuel
    induction fuel with
    | zero => exact fun _ _ => trivial
    | succ fuel ih =>
      intro s hs
      refine ⟨hs, fun r _ => ?_⟩
      rcases r with status | _ | _
      · exact hs
      · exact hs
      · exact ih _ hs
  have hcapsule : ∀ s : Boundary, s.event = none →
      boundaryMonitor.Steps (fun s' _ => s'.event = none) capsuleProcess s := by
    intro s hs
    refine ⟨hs, fun flashUpdate _ => ?_⟩
    cases flashUpdate with
    | false => exact steps_signal _ hs
    | true =>
      have hlogo := @steps_displayBootLogo false
        (boundaryMonitor.step s ⟨.isFlashUpdateBoot, some true⟩) ⟨hs, nofun⟩
      exact (steps_logError (hlogo.mono fun _ _ h => h.1)).bind fun _ _ h => steps_signal _ h
  have hwork : ∀ s : Boundary, s.event = none →
      boundaryMonitor.Steps (fun s' _ => s'.event = none) (self.preLockWork fuel) s := by
    intro s hs
    refine (hdispatch fuel s hs).bind fun s₁ _ h₁ => ?_
    refine (steps_logError (steps_connectAllSkipUsb h₁)).bind fun s₂ _ h₂ => ?_
    split
    · exact hcapsule s₂ h₂
    · exact h₂
  refine (steps_signal _ hs).bind fun s₁ _ h₁ => ?_
  split
  · exact (steps_signal _ h₁).bind fun s₂ _ h₂ => hwork s₂ h₂
  · exact hwork s₁ h₁

theorem bootCall_keeps {p : Firmware α} (hp : Only BootCall p) (s : Boundary) (hs : Calm true s) :
    boundaryMonitor.Steps (fun s' _ => Calm true s') p s := by
  apply Monitor.steps_of_only hp _ _ hs
  · intro s c hs hc
    cases c with
    | connectController h recursive => exact ⟨hs.1, .inl (hs.2 rfl)⟩
    | loadImage => exact ⟨hs.1, hs.2 rfl⟩
    | startImage => exact ⟨hs.1, hs.2 rfl⟩
    | _ => first | exact hs.1 | exact hc.elim
  · intro s c r hs hc
    cases c with
    | locateProtocolUnchecked g =>
      rcases r with status | _ | i
      · cases g <;> exact hs
      · cases g <;> exact hs
      · cases g <;> exact hs
    | handleProtocol h g =>
      cases r with
      | error status => cases g <;> exact hs
      | ok pci => cases g <;> exact hs
    | _ => first | exact hs | exact hc.elim

section Execute

variable [PatinaDevicePath]

theorem signalAndBoot_keeps (lockedBoot : LockedBoot) (image : Handle) (site : DispatchSite)
    (path : DevicePath) (s : Boundary) (hs : Calm true s) :
    boundaryMonitor.Steps (fun s' _ => Calm true s')
      (signalAndBoot lockedBoot image site path) s := by
  have hsignal := steps_logError ((steps_signalGroup .readyToBoot hs).mono fun _ _ h => h.1)
  refine hsignal.bind fun s' _ hs' => ⟨hs'.1, fun _ _ => ?_⟩
  exact bootCall_keeps (only_dispatch lockedBoot image path) _ hs'

theorem boot_keeps (self : SreBootManager) (arch : TargetArch) (lockedBoot : LockedBoot)
    (image : Handle) (s : Boundary) (hs : Calm true s) :
    boundaryMonitor.Steps (fun s' _ => Calm true s') (self.boot arch lockedBoot image) s := by
  have hP := Monitor.composes_steps boundaryMonitor (Calm true)
  have hquiet : ∀ {α : Type} {p : Firmware α}, Only QuietCall p → ∀ s, Calm true s →
      boundaryMonitor.Steps (fun s' _ => Calm true s') p s :=
    fun hp => bootCall_keeps (hp.mono fun _ => QuietCall.bootCall)
  have hnote : ∀ n s, Calm true s →
      boundaryMonitor.Steps (fun s' _ => Calm true s') (ask (.note n)) s :=
    fun _ _ hs => ⟨hs.1, fun _ _ => hs⟩
  have hsignal := signalAndBoot_keeps lockedBoot image
  have hrecover := bootCall_keeps (only_recover arch lockedBoot image)
  refine hP.bind (hotkeyPhase_rule hP hquiet (fun site _ => hsignal site) ?_) (fun _ =>
    hP.bind (probePayload_rule hP hquiet ?_) fun bpHasSre =>
      normalBoot_rule hP hquiet (hnote _) (fun _ => hnote _) ?_ (hsignal _ _) ?_ ?_) s hs
  · intro s hs
    have hready := steps_logError ((steps_signalGroup .readyToBoot hs).mono fun _ _ h => h.1)
    exact hready.bind fun s' _ hs' => ⟨hs'.1, fun _ _ => hrecover _ hs'⟩
  · exact fun found s hs => ⟨hs.1, fun _ _ => hs⟩
  · intro triedAny path s hs
    simp only [bootOption]
    split
    · exact hs
    · split
      · exact hs
      · exact (hsignal _ path s hs).bind fun _ _ h => h
  · intro u path s hs
    simp only [bootCandidate]
    split
    · exact hs
    · exact ⟨hs.1, fun _ _ => bootCall_keeps (only_dispatch lockedBoot image path) _ hs⟩
  · intro s hs
    simp only [lastResort]
    split
    · exact ⟨hs.1, fun _ _ => hrecover _ hs⟩
    · exact hs

theorem steps_execute (self : SreBootManager) (arch : TargetArch) (fuel : ℕ) (image : Handle) :
    boundaryMonitor.Steps (fun s _ => s.event = none) (self.execute arch fuel image).run {} := by
  rw [run_execute]
  refine (steps_preLock self fuel rfl).bind fun s _ hs => ?_
  refine (steps_enterLockedBoot ⟨hs, nofun⟩).except_bind ?_ fun _ _ h => h.1
  rintro s' lockedBoot ⟨hevent, hend⟩
  rw [Program.run_lift_bind]
  exact (boot_keeps self arch lockedBoot image s' ⟨hevent, fun _ => hend lockedBoot rfl⟩).bind
    fun _ _ h => h.1

/-- In every run, finished or not, each call was permitted when it was issued. -/
theorem execute_permitted (self : SreBootManager) (arch : TargetArch) (fuel : ℕ) (image : Handle)
    (env : FirmwareEnv) :
    Guarded (fun h c => Permitted (h.foldl advance {}) c)
      ((self.execute arch fuel image).run.run env []).1 ∧
    ∀ r, ((self.execute arch fuel image).run.run env []).2 = some r →
      (((self.execute arch fuel image).run.run env []).1.foldl advance {}).event = none :=
  (steps_execute self arch fuel image).sound fun _ _ _ _ => trivial

end Execute

end PatinaBootBoundary
