import OdpPlatform.PatinaBootCalls

/-! # The security transition comes before any image

Both orchestrators do their pre-lock work, enter the locked boot, and only then reach code that
loads images or signals ReadyToBoot. -/
namespace PatinaLockOrder

open DevicePathNodes InteractionProgram InteractionContract FirmwareServices
open PatinaBootHelpers PatinaBootOptions PatinaBootManager PatinaBpRecovery PatinaSreBootManager
open PatinaBpLogPage PatinaBootCalls

/-- EndOfDxe created, signalled and closed, then DxeSmmReadyToLock installed, all successfully. -/
def Locked (h : FirmwareTrace) : Prop :=
  ∃ ev i, List.Sublist [⟨.createEventEx .endOfDxe, some (.ok ev)⟩,
    ⟨.signalEvent ev, some (.ok ())⟩, ⟨.closeEvent ev, some (.ok ())⟩,
    ⟨.proxyInstallDxeSmmReadyToLock i, some .success⟩] h

theorem Locked.mono {h h' : FirmwareTrace} (hl : Locked h) (hh : h <+: h') : Locked h' := by
  obtain ⟨ev, i, hsub⟩ := hl
  exact ⟨ev, i, hsub.trans hh.sublist⟩

def NeedsLock : Call → Prop
  | .loadImage _ _ | .startImage _ | .createEventEx .readyToBoot => True
  | _ => False

def PreLockWork : Call → Prop
  | .dispatch | .strategyConnect | .isFlashUpdateBoot | .proxyDisplayBootLogo _
  | .connectController _ false | .createEventEx .msStartOfBdsNotify
  | .createEventEx .dfciStartOfBdsNotify | .createEventEx .muReadyToProcessCapsulesNotify => True
  | _ => False

def NoEndOfDxe (h : FirmwareTrace) : Prop := ∀ e ∈ h, e.call ≠ .createEventEx .endOfDxe

def InOrder (h : FirmwareTrace) (c : Call) : Prop :=
  (NeedsLock c → Locked h) ∧ (PreLockWork c → NoEndOfDxe h)

def NoBoot : Call → Prop
  | .loadImage _ _ | .startImage _ | .createEventEx .readyToBoot | .note _ => False
  | _ => True

theorem NoBoot.not_needsLock {c : Call} (hc : NoBoot c) : ¬NeedsLock c := by
  cases c with
  | createEventEx group => cases group <;> first | exact id | exact hc.elim
  | _ => first | exact id | exact hc.elim

def BeforeLock (c : Call) : Prop := NoBoot c ∧ c ≠ .createEventEx .endOfDxe

def BehindLock (c : Call) : Prop := ¬PreLockWork c

theorem signalBdsPhaseEntry_meets (h : FirmwareTrace) :
    Meets (.ofGuard InOrder) (fun h' r => r = .ok () → ∃ ev, h' = h ++
        [⟨.createEventEx .endOfDxe, some (.ok ev)⟩, ⟨.signalEvent ev, some (.ok ())⟩,
          ⟨.closeEvent ev, some (.ok ())⟩])
      signalBdsPhaseEntry.run h := by
  simp only [signalBdsPhaseEntry, signalGroup, run_mapErr_bind, Program.call_bind,
    Program.run_lift_bind]
  refine ⟨⟨nofun, nofun⟩, fun r _ => ?_⟩
  cases r with
  | error => exact nofun
  | ok ev =>
    refine ⟨⟨nofun, nofun⟩, fun signalResult _ => ⟨⟨nofun, nofun⟩, fun closeResult _ => ?_⟩⟩
    cases signalResult with
    | error => exact nofun
    | ok u =>
      cases closeResult with
      | error => exact nofun
      | ok w => exact fun _ => ⟨ev, by simp⟩

theorem installDxeSmmReadyToLock_meets (h : FirmwareTrace) :
    Meets (.ofGuard InOrder) (fun h' r => r = .ok () → ∃ h₁ i, h <+: h₁ ∧
        h' = h₁ ++ [⟨.proxyInstallDxeSmmReadyToLock i, some .success⟩])
      installDxeSmmReadyToLock.run h := by
  have hlocate : Meets (.ofGuard InOrder) (fun _ _ => True) locate.run h := by
    simp only [locate, run_mapErr_bind, Program.call_bind]
    refine ⟨⟨nofun, nofun⟩, fun r _ => ?_⟩
    cases r with
    | error => trivial
    | ok interface =>
      cases interface with
      | none => trivial
      | some i =>
        dsimp only
        rw [Program.run_lift_bind]
        refine ⟨⟨nofun, nofun⟩, fun revision _ => ?_⟩
        change Meets _ _ (ExceptT.run (ite _ _ _)) _
        split <;> trivial
  refine hlocate.except_bind (fun h₁ proxy hh _ => ?_) fun _ _ _ _ => nofun
  rw [Program.run_lift_bind]
  refine ⟨⟨nofun, nofun⟩, fun status _ => ?_⟩
  change Meets _ _ (check status).run _
  simp only [check]
  split
  next hs => exact fun _ => ⟨h₁, proxy.interface, hh, by rw [hs]⟩
  next => exact nofun

theorem enterLockedBoot_meets (h : FirmwareTrace) :
    Meets (.ofGuard InOrder) (fun h' r => ∀ lockedBoot, r = .ok lockedBoot → Locked h')
      enterLockedBoot.run h := by
  refine (signalBdsPhaseEntry_meets h).except_bind (fun h₁ _ _ hsignalled => ?_)
    fun _ _ _ _ => nofun
  refine (installDxeSmmReadyToLock_meets h₁).except_bind (fun h₂ _ _ hinstalled => ?_)
    fun _ _ _ _ => nofun
  intro lockedBoot _
  obtain ⟨ev, rfl⟩ := hsignalled rfl
  obtain ⟨h₃, i, hh, rfl⟩ := hinstalled rfl
  have hevents := (List.sublist_append_right h _).trans hh.sublist
  exact ⟨ev, i, hevents.append (List.Sublist.refl _)⟩

theorem only_enterLockedBoot : Only NoBoot enterLockedBoot.run := by
  refine (only_signalGroup .endOfDxe trivial (fun _ => trivial) fun _ => trivial).except_bind
    fun _ => ?_
  refine Only.except_bind ?_ fun _ => trivial
  refine Only.except_bind ?_ fun proxy => only_askErr_bind trivial fun status => ?_
  · apply only_mapErr_bind ((only_call _).mpr trivial)
    intro interface
    cases interface with
    | none => trivial
    | some i =>
      apply only_askErr_bind trivial
      intro revision
      split <;> trivial
  · simp only [check]
    split <;> trivial

def LockStepFails (env : FirmwareEnv) (h : FirmwareTrace) (e : EfiError) : Prop :=
  (signalBdsPhaseEntry.run.run env h).2 = some (.error e) ∨
    ∃ h₁, signalBdsPhaseEntry.run.run env h = (h₁, some (.ok ())) ∧
      (installDxeSmmReadyToLock.run.run env h₁).2 = some (.error e)

theorem enterLockedBoot_fails {env : FirmwareEnv} {h : FirmwareTrace} {e : EfiError}
    (hfail : LockStepFails env h e) :
    (enterLockedBoot.run.run env h).2 = some (.error e) := by
  rw [enterLockedBoot, ExceptT.run_bind]
  rcases hfail with hfail | ⟨h₁, hok, hfail⟩
  · rw [Program.run_bind_some env h (Prod.ext rfl hfail)]
    rfl
  · rw [Program.run_bind_some env h hok]
    dsimp only
    rw [ExceptT.run_bind, Program.run_bind_some env h₁ (Prod.ext rfl hfail)]
    rfl

structure LocksBeforeBoot (env : FirmwareEnv) (preLock : Firmware Unit)
    (τ : FirmwareTrace) (res : Option (Except EfiError Empty)) : Prop where
  in_order : Guarded InOrder τ
  pre_lock_first : (preLock.run env []).1 <+: τ ∧ NoEndOfDxe (preLock.run env []).1
  failure : ∀ h e, preLock.run env [] = (h, some ()) → LockStepFails env h e →
    res = some (.error e) ∧ ∀ x ∈ τ, ¬NeedsLock x.call

theorem locks_before_boot {preLock : Firmware Unit} {boot : LockedBoot → FirmwareE Empty}
    {p : FirmwareE Empty} (hp : p.run = preLock >>= fun _ => (enterLockedBoot >>= boot).run)
    (hpre : Only BeforeLock preLock) (hboot : ∀ lockedBoot, Only BehindLock (boot lockedBoot).run)
    (env : FirmwareEnv) :
    LocksBeforeBoot env preLock (p.run.run env []).1 (p.run.run env []).2 := by
  have hquiet : Meets (.ofGuard InOrder) (fun h' _ => NoEndOfDxe h') preLock [] := by
    refine hpre.meets (K := .ofGuard InOrder) (I := NoEndOfDxe)
      (fun h c hno hc => ⟨fun hn => absurd hn hc.1.not_needsLock, fun _ => hno⟩) (fun h c r hno hc e he => ?_)
      (List.forall_mem_nil _)
    rcases List.mem_append.mp he with he | he
    · exact hno e he
    · cases List.mem_singleton.mp he
      exact hc.2
  have hlocked : ∀ h lockedBoot, Locked h → Meets (.ofGuard InOrder) (fun _ _ => True)
      (boot lockedBoot).run h := by
    intro h lockedBoot hl
    refine ((hboot lockedBoot).meets (K := .ofGuard InOrder) (I := Locked)
      (fun h c hl hc => ⟨fun _ => hl, fun hw => absurd hw hc⟩)
      (fun h c r hl _ => hl.mono (List.prefix_append _ _)) hl).mono fun _ _ _ _ => trivial
  refine ⟨?_, ?_, fun h e hpre' hfail => ?_⟩
  · have hmeets : Meets (.ofGuard InOrder) (fun _ _ => True) p.run [] := by
      rw [hp]
      apply hquiet.bind
      intro h _ _ _
      exact (enterLockedBoot_meets h).except_bind
        (fun h₁ lockedBoot _ hl => hlocked h₁ lockedBoot (hl _ rfl)) fun _ _ _ _ => trivial
    exact hmeets.guarded env
  · obtain ⟨τ, hτ, hall⟩ := hpre.run env []
    rw [hp]
    refine ⟨Program.run_prefix_bind env [] preLock _, fun x hx => ?_⟩
    rw [hτ] at hx
    exact (hall x hx).2
  · have hrun : p.run.run env [] = ((enterLockedBoot.run.run env h).1, some (.error e)) := by
      rw [hp, Program.run_bind_some env [] hpre', ExceptT.run_bind,
        Program.run_bind_some env h (Prod.ext rfl (enterLockedBoot_fails hfail))]
      rfl
    obtain ⟨τ, hτ, hall⟩ := hpre.run env []
    obtain ⟨τ', hτ', hall'⟩ := only_enterLockedBoot.run env h
    obtain rfl : h = τ := by rwa [hpre'] at hτ
    rw [hrun]
    refine ⟨rfl, fun x hx => ?_⟩
    rw [hτ'] at hx
    rcases List.mem_append.mp hx with hx | hx
    · exact (hall x hx).1.not_needsLock
    · exact (hall' x hx).not_needsLock

theorem behindLock_of_quietCall {c : Call} (hc : QuietCall c) : BehindLock c := by
  cases c with
  | connectController h recursive =>
    cases recursive with
    | true => exact id
    | false => exact absurd hc nofun
  | createEventEx group => exact hc.elim
  | _ => first | exact id | exact hc.elim

theorem behindLock_of_bootCall {c : Call} (hc : BootCall c) : BehindLock c := by
  cases c with
  | connectController | createEventEx => exact behindLock_of_quietCall hc
  | _ => first | exact id | exact hc.elim

theorem only_behindLock_quiet {α : Type} {p : Firmware α} (hp : Only QuietCall p) :
    Only BehindLock p :=
  hp.mono fun _ => behindLock_of_quietCall

theorem only_behindLock_boot {α : Type} {p : Firmware α} (hp : Only BootCall p) :
    Only BehindLock p :=
  hp.mono fun _ => behindLock_of_bootCall

theorem beforeLock_of_quietCall {c : Call} (hc : QuietCall c) : BeforeLock c := by
  cases c with
  | createEventEx group => exact hc.elim
  | _ => first | exact ⟨trivial, nofun⟩ | exact hc.elim

theorem only_beforeLock_signalGroup {group : EventGroup} (hend : group ≠ .endOfDxe)
    (hready : group ≠ .readyToBoot) : Only BeforeLock (signalGroup group).run := by
  refine only_signalGroup group ⟨?_, ?_⟩ (fun _ => ⟨trivial, nofun⟩) fun _ => ⟨trivial, nofun⟩
  · cases group with
    | readyToBoot => exact absurd rfl hready
    | _ => trivial
  · cases group with
    | endOfDxe => exact absurd rfl hend
    | _ => nofun

theorem only_behindLock_signalReadyToBoot : Only BehindLock signalReadyToBoot.run :=
  only_signalGroup .readyToBoot id (fun _ => id) fun _ => id

def SimpleBootManager.preLock (fuel : ℕ) (self : SimpleBootManager) : Firmware Unit :=
  logError (interleaveConnectAndDispatch fuel self.connectStrategy.connect)

theorem only_beforeLock_interleave (fuel : ℕ) (strategy : ConnectController) :
    Only BeforeLock (interleaveConnectAndDispatch fuel strategy.connect).run := by
  have hcount : Only BeforeLock totalHandleCount.run :=
    only_mapErr_bind ((only_call _).mpr ⟨trivial, nofun⟩) fun _ => trivial
  have hconnect : Only BeforeLock strategy.connect.run := by
    cases strategy with
    | connectAllStrategy => exact only_connectAll.mono fun _ => beforeLock_of_quietCall
    | platformStrategy => exact only_mapErr ((only_call _).mpr ⟨trivial, nofun⟩)
  apply hcount.except_bind
  intro prevHandleCount
  induction fuel generalizing prevHandleCount with
  | zero => trivial
  | succ fuel ih =>
    apply hconnect.except_bind
    intro _
    apply only_mapErr_bind ((only_call _).mpr ⟨trivial, nofun⟩)
    intro _
    apply hcount.except_bind
    intro currHandleCount
    split
    · trivial
    · exact ih currHandleCount

theorem only_beforeLock_preLockWork (self : SreBootManager) (fuel : ℕ) :
    Only BeforeLock (self.preLockWork fuel) := by
  have hdispatch : Only BeforeLock (dispatchLoop fuel) := by
    induction fuel with
    | zero => trivial
    | succ fuel ih =>
      apply only_ask_bind ⟨trivial, nofun⟩
      intro r
      split
      · exact ih
      · trivial
  have hskips : ∀ handle, Only BeforeLock (isUsbHostController handle) := by
    intro handle
    refine Only.bind ?_ fun r => by cases r <;> trivial
    apply only_mapErr_bind ((only_call _).mpr ⟨trivial, nofun⟩)
    intro pci
    apply only_askErr_bind ⟨trivial, nofun⟩
    intro r
    dsimp only
    split <;> trivial
  have hlogo : Only BeforeLock displayBootLogo.run := by
    refine Only.except_bind ?_ fun proxy => ?_
    · apply only_mapErr_bind ((only_call _).mpr ⟨trivial, nofun⟩)
      intro interface
      cases interface with
      | none => trivial
      | some i =>
        apply only_askErr_bind ⟨trivial, nofun⟩
        intro revision
        split <;> trivial
    · split
      · trivial
      · apply only_askErr_bind ⟨trivial, nofun⟩
        intro status
        simp only [check]
        split <;> trivial
  apply hdispatch.bind
  intro _
  refine Only.bind (only_logError ?_) fun _ => ?_
  · exact only_connectPasses hskips ⟨trivial, nofun⟩ (fun _ => ⟨trivial, nofun⟩) 20 []
  · split
    · apply only_ask_bind ⟨trivial, nofun⟩
      intro flashUpdate
      have hgroup : Only BeforeLock (signalGroup .muReadyToProcessCapsulesNotify).run :=
        only_beforeLock_signalGroup nofun nofun
      cases flashUpdate with
      | false => exact only_logError hgroup
      | true => exact (only_logError hlogo).bind fun _ => only_logError hgroup
    · trivial

def SreBootManager.preLock (self : SreBootManager) (fuel : ℕ) : Firmware Unit := do
  logError (signalGroup .msStartOfBdsNotify)
  if self.dfciBdsSignal then
    logError (signalGroup .dfciStartOfBdsNotify)
  self.preLockWork fuel

theorem run_preLockPhase (self : SreBootManager) (fuel : ℕ) :
    (runPreLockPhase self.dfciBdsSignal (self.preLockWork fuel) enterLockedBoot).run =
      SreBootManager.preLock self fuel >>= fun _ => enterLockedBoot.run := by
  simp only [runPreLockPhase, SreBootManager.preLock]
  cases self.dfciBdsSignal <;> simp [bind_assoc]

theorem only_beforeLock_preLock (self : SreBootManager) (fuel : ℕ) :
    Only BeforeLock (SreBootManager.preLock self fuel) := by
  have hstart : Only BeforeLock (signalGroup .msStartOfBdsNotify).run :=
    only_beforeLock_signalGroup nofun nofun
  have hdfci : Only BeforeLock (signalGroup .dfciStartOfBdsNotify).run :=
    only_beforeLock_signalGroup nofun nofun
  apply (only_logError hstart).bind
  intro _
  split
  · exact (only_logError hdfci).bind fun _ => only_beforeLock_preLockWork self fuel
  · exact only_beforeLock_preLockWork self fuel

section BehindLock

variable [PatinaDevicePath]

theorem only_behindLock_bootDevices (lockedBoot : LockedBoot) (image : Handle)
    (devices : List DevicePath) : Only BehindLock (bootDevices lockedBoot image devices) := by
  induction devices with
  | nil => trivial
  | cons devicePath rest ih =>
    refine Only.bind ?_ fun _ => ih
    apply (only_logError only_behindLock_signalReadyToBoot).bind
    intro _
    apply only_ask_bind id
    intro _
    exact only_behindLock_boot (only_dispatch lockedBoot image devicePath)

theorem only_behindLock_simpleBoot (fuel : ℕ) (self : SimpleBootManager) (lockedBoot : LockedBoot)
    (image : Handle) : Only BehindLock (self.boot fuel lockedBoot image).run := by
  have hrest : ∀ useHotkeyDevices : Bool, Only BehindLock (do
      bootDevices lockedBoot image
        (if useHotkeyDevices then self.config.hotkeyDevices else self.config.devices)
      self.config.handleFailure
      throw .notFound : FirmwareE Empty).run := by
    intro useHotkeyDevices
    rw [Program.run_lift_bind]
    apply (only_behindLock_bootDevices lockedBoot image _).bind
    intro _
    rw [Program.run_lift_bind]
    refine Only.bind ?_ fun _ => trivial
    simp only [BootConfig.handleFailure]
    split
    · exact (only_call _).mpr id
    · trivial
  simp only [SimpleBootManager.boot]
  rw [Program.run_lift_bind]
  apply (only_behindLock_quiet (only_logError only_discoverConsoleDevices)).bind
  intro _
  split
  next hotkey _ =>
    rw [Program.run_lift_bind]
    exact (only_behindLock_quiet ((only_detectHotkey fuel hotkey).mono
      fun _ => KeyboardCall.quietCall)).bind hrest
  next => exact hrest false

theorem only_behindLock_signalAndBoot (lockedBoot : LockedBoot) (image : Handle)
    (site : DispatchSite) (path : DevicePath) :
    Only BehindLock (signalAndBoot lockedBoot image site path) := by
  apply (only_logError only_behindLock_signalReadyToBoot).bind
  intro _
  exact only_ask_bind id fun _ => only_behindLock_boot (only_dispatch lockedBoot image path)

theorem only_behindLock_sreBoot (self : SreBootManager) (arch : TargetArch)
    (lockedBoot : LockedBoot) (image : Handle) :
    Only BehindLock (self.boot arch lockedBoot image) := by
  have hP : Composes fun (α : Type) (p : Firmware α) => Only BehindLock p := composes_only _
  have hsignal := only_behindLock_signalAndBoot lockedBoot image
  have hrecover := only_behindLock_boot (only_recover arch lockedBoot image)
  have hnote : ∀ n, Only BehindLock (ask (.note n)) := fun _ => (only_call _).mpr id
  refine Only.bind (hotkeyPhase_rule hP only_behindLock_quiet (fun site _ => hsignal site) ?_)
    fun _ => Only.bind (probePayload_rule hP only_behindLock_quiet fun _ => ⟨id, fun _ => trivial⟩)
      fun bpHasSre => normalBoot_rule hP only_behindLock_quiet (hnote _) (fun _ => hnote _)
        ?_ (hsignal _ _) ?_ ?_
  · apply (only_logError only_behindLock_signalReadyToBoot).bind
    intro _
    exact only_ask_bind id fun _ => hrecover
  · intro triedAny path
    simp only [bootOption]
    split
    · trivial
    · split
      · trivial
      · exact (hsignal _ path).bind fun _ => trivial
  · intro u path
    simp only [bootCandidate]
    split
    · trivial
    · exact only_ask_bind id fun _ => only_behindLock_boot (only_dispatch lockedBoot image path)
  · simp only [lastResort]
    split
    · exact only_ask_bind id fun _ => hrecover
    · trivial

theorem run_executeWith (fuel : ℕ) (self : SimpleBootManager) (image : Handle) :
    (self.executeWith fuel image enterLockedBoot).run =
      SimpleBootManager.preLock fuel self >>= fun _ =>
        (enterLockedBoot >>= fun lockedBoot => self.boot fuel lockedBoot image).run :=
  Program.run_lift_bind _ _

theorem run_execute (self : SreBootManager) (arch : TargetArch) (fuel : ℕ) (image : Handle) :
    (self.execute arch fuel image).run =
      SreBootManager.preLock self fuel >>= fun _ => (enterLockedBoot >>= fun lockedBoot => do
        (self.boot arch lockedBoot image : Firmware Unit)
        throw .notFound).run := by
  have hphase : runPreLockPhase self.dfciBdsSignal (self.preLockWork fuel) enterLockedBoot =
      (liftM (SreBootManager.preLock self fuel) : FirmwareE Unit) >>= fun _ => enterLockedBoot := by
    refine ExceptT.ext ?_
    rw [Program.run_lift_bind]
    exact run_preLockPhase self fuel
  simp only [SreBootManager.execute]
  rw [hphase, bind_assoc, Program.run_lift_bind]

/-- Neither orchestrator loads or starts an image, or signals ReadyToBoot, on a boot that is not
locked; the work before the lock stays before it, and a lock step that fails ends the run. -/
theorem lock_before_load (simple : SimpleBootManager) (sre : SreBootManager) (arch : TargetArch)
    (fuel : ℕ) (image : Handle) (env : FirmwareEnv) :
    LocksBeforeBoot env (SimpleBootManager.preLock fuel simple)
        ((simple.executeWith fuel image enterLockedBoot).run.run env []).1
        ((simple.executeWith fuel image enterLockedBoot).run.run env []).2 ∧
      LocksBeforeBoot env (SreBootManager.preLock sre fuel)
        ((sre.execute arch fuel image).run.run env []).1
        ((sre.execute arch fuel image).run.run env []).2 := by
  constructor
  · refine locks_before_boot (run_executeWith fuel simple image) ?_ (fun lockedBoot => ?_) env
    · exact only_logError (only_beforeLock_interleave fuel simple.connectStrategy)
    · exact only_behindLock_simpleBoot fuel simple lockedBoot image
  · refine locks_before_boot (run_execute sre arch fuel image) ?_ (fun lockedBoot => ?_) env
    · exact only_beforeLock_preLock sre fuel
    · rw [Program.run_lift_bind]
      exact (only_behindLock_sreBoot sre arch lockedBoot image).bind fun _ => trivial

end BehindLock

end PatinaLockOrder
