import OdpPlatform.PatinaBootManager
import OdpPlatform.PatinaSreBootManager

/-! # What the boot helpers call

Helpers that neither load an image nor signal an event make quiet calls only; dispatching an
image adds LoadImage and StartImage. -/
namespace PatinaBootCalls

open ByteBuffer DevicePathNodes InteractionProgram InteractionContract FirmwareServices
open PatinaBootHelpers PatinaBootOptions PatinaBootManager PatinaBpLogPage PatinaBpRecovery
open PatinaSreBootManager

def QuietCall : Call → Prop
  | .passThru _ | .locateHandleBuffer _ | .handleProtocol _ _ | .handleProtocolDevicePath _
  | .handleProtocolUncheckedDevicePath _ | .locateProtocolUnchecked _ | .disconnectController _
  | .locateDevicePath _ | .setWatchdogTimer _ | .readKeyStroke _ | .preBootVolumeUpCheck _
  | .preBootVolumeDownCheck _ | .preBootClearVolumeState _ | .getVariable _ | .setVariable _ _
  | .failureHandler => True
  | .connectController _ recursive => recursive = true
  | _ => False

def ImageCall : Call → Prop
  | .loadImage _ _ | .startImage _ => True
  | c => QuietCall c

def BootCall : Call → Prop
  | .installProtocolInterface _ _ _ | .uninstallProtocolInterface _ _ _ | .tryReserveExact _
  | .dropBuffer _ | .newRamDiskBlockIo _ _ | .dropRamDiskBlockIo _ | .leakDevicePath _ => True
  | c => ImageCall c

def DatabaseCall : Call → Prop
  | .locateHandleBuffer _ | .handleProtocolDevicePath _ => True
  | _ => False

def ConsoleCall : Call → Prop
  | .setVariable _ _ => True
  | c => DatabaseCall c

def KeyboardCall : Call → Prop
  | .locateHandleBuffer (.byProtocol .simpleTextInput) | .handleProtocol _ .simpleTextInput
  | .readKeyStroke _ => True
  | _ => False

theorem KeyboardCall.quietCall {c : Call} (hc : KeyboardCall c) : QuietCall c := by
  cases c <;> first | exact hc.elim | trivial

theorem DatabaseCall.consoleCall {c : Call} (hc : DatabaseCall c) : ConsoleCall c := by
  cases c <;> first | exact hc | trivial

theorem ConsoleCall.quietCall {c : Call} (hc : ConsoleCall c) : QuietCall c := by
  cases c <;> first | exact hc.elim | trivial

theorem QuietCall.imageCall {c : Call} (hc : QuietCall c) : ImageCall c := by
  cases c <;> first | exact hc | trivial

theorem ImageCall.bootCall {c : Call} (hc : ImageCall c) : BootCall c := by
  cases c <;> first | exact hc | trivial

theorem QuietCall.bootCall {c : Call} (hc : QuietCall c) : BootCall c := hc.imageCall.bootCall

variable {A : Call → Prop} {α β : Type}

theorem only_logError {x : FirmwareE α} (hx : Only A x.run) : Only A (logError x) :=
  hx.bind fun _ => trivial

theorem only_mapErr_bind {p : Firmware (Except Status α)} {f : α → FirmwareE β} (hp : Only A p)
    (hf : ∀ a, Only A (f a).run) : Only A (mapErr p >>= f).run :=
  Only.except_bind (only_mapErr hp) hf

theorem only_askErr_bind {c : Call} {f : Answer c → FirmwareE β} (hc : A c)
    (hf : ∀ r, Only A (f r).run) :
    Only A ((liftM (ask c) : FirmwareE (Answer c)) >>= f).run := by
  rw [Program.run_lift_bind]
  exact ⟨hc, hf⟩

theorem only_drainKeys (key : UInt16) (i : Interface) (fuel : ℕ) :
    Only KeyboardCall (drainKeys key i fuel) := by
  induction fuel with
  | zero => trivial
  | succ fuel ih =>
    apply only_ask_bind trivial
    intro r
    dsimp only
    split
    · split
      · trivial
      · exact ih
    · trivial

theorem only_detectHotkey (fuel : ℕ) (key : UInt16) : Only KeyboardCall (detectHotkey fuel key) := by
  apply only_ask_bind trivial
  intro r
  cases r with
  | error => trivial
  | ok handles =>
    dsimp only
    induction handles with
    | nil => trivial
    | cons handle rest ih =>
      apply only_ask_bind trivial
      intro r
      cases r with
      | error => exact ih
      | ok protocol =>
        apply (only_drainKeys key protocol fuel).bind
        intro b
        split
        · trivial
        · exact ih

theorem only_signalGroup (group : EventGroup) (hgroup : A (.createEventEx group))
    (hsignal : ∀ ev, A (.signalEvent ev)) (hclose : ∀ ev, A (.closeEvent ev)) :
    Only A (signalGroup group).run := by
  apply only_mapErr_bind ((only_call _).mpr hgroup)
  intro ev
  apply only_askErr_bind (hsignal ev)
  intro r
  apply only_askErr_bind (hclose ev)
  intro r'
  exact only_mapErr_bind (only_done _ |>.mpr trivial) fun _ => only_mapErr trivial

theorem only_connectPasses {skips : Handle → Firmware Bool} {recursive : Bool}
    (hskips : ∀ h, Only A (skips h)) (hlocate : A (.locateHandleBuffer .allHandle))
    (hconnect : ∀ h, A (.connectController h recursive)) (iterations : ℕ) :
    ∀ connected, Only A (connectPasses skips recursive iterations connected).run := by
  induction iterations with
  | zero => intro connected; trivial
  | succ iterations ih =>
    intro connected
    apply only_mapErr_bind ((only_call _).mpr hlocate)
    intro handles
    rw [Program.run_lift_bind]
    refine Only.bind (Only.foldlM (fun st handle => ?_) handles _) fun st => ?_
    · unfold connectHandle
      dsimp only
      split
      · trivial
      · apply (hskips handle).bind
        intro b
        split
        · trivial
        · exact only_ask_bind (hconnect handle) fun _ => trivial
    · dsimp only
      split
      · trivial
      · exact ih st.1

theorem only_connectAll : Only QuietCall connectAll.run := by
  have hskips : ∀ _ : Handle, Only QuietCall (pure false : Firmware Bool) := fun _ => trivial
  exact only_connectPasses hskips trivial (fun _ => rfl) 10 []

theorem only_readStateVariable (name : VariableName) :
    Only QuietCall (readStateVariable name).run := by
  apply only_mapErr_bind ((only_call _).mpr trivial)
  intro bytes
  split
  · split <;> trivial
  · trivial

theorem only_readBpViaLogPage (bpId : UInt8) (chunk : ℕ) (dest : Bytes) :
    Only QuietCall (readBpViaLogPage bpId chunk dest).run := by
  have hloop : ∀ fuel off dest, Only QuietCall (readBpLoop bpId chunk fuel off dest).run := by
    intro fuel
    induction fuel with
    | zero => intro off dest; trivial
    | succ fuel ih =>
      intro off dest
      simp only [readBpLoop]
      split
      · apply only_askErr_bind trivial
        intro c
        split
        · trivial
        · exact ih _ _
      · trivial
  simp only [readBpViaLogPage]
  split
  · trivial
  · exact hloop _ _ _

theorem only_bpHasSrePayload : Only QuietCall bpHasSrePayload := by
  apply only_ask_bind trivial
  intro r
  cases r with
  | error => trivial
  | ok i =>
    dsimp only
    apply (only_readBpViaLogPage _ _ _).bind
    intro r
    cases r <;> trivial

theorem only_probeMaxTransfer : Only QuietCall probeMaxTransfer := by
  apply only_ask_bind trivial
  intro c
  split
  · trivial
  · dsimp only
    split <;> trivial

theorem only_registerRamDisk (ptr size : ℕ) : Only BootCall (registerRamDisk ptr size).run := by
  apply only_askErr_bind trivial
  intro state
  apply only_askErr_bind trivial
  intro dp
  apply only_mapErr_bind ((only_call _).mpr trivial)
  intro handle
  apply only_askErr_bind trivial
  intro r
  cases r with
  | error s =>
    apply only_askErr_bind trivial
    intro r
    cases r with
    | error => trivial
    | ok => exact only_askErr_bind trivial fun _ => trivial
  | ok => exact only_askErr_bind rfl fun _ => trivial

theorem only_teardown (install : RamDiskInstall) : Only BootCall install.teardown.run := by
  apply only_askErr_bind trivial
  intro _
  apply only_mapErr_bind ((only_call _).mpr trivial)
  intro _
  apply only_mapErr_bind ((only_call _).mpr trivial)
  intro _
  exact ⟨trivial, fun _ => trivial⟩

theorem only_findDescendant (parentPrefix : Bytes) (handles : List Handle) :
    Only QuietCall (findDescendant parentPrefix handles) := by
  induction handles with
  | nil => trivial
  | cons h rest ih =>
    apply only_ask_bind trivial
    intro r
    split
    · dsimp only
      split
      · trivial
      · exact ih
    · exact ih

theorem only_probeSreHotkey : Only QuietCall probeSreHotkey := by
  apply only_ask_bind trivial
  intro r
  split
  · refine only_ask_bind trivial fun _ => only_ask_bind trivial fun _ =>
      only_ask_bind trivial fun _ => ?_
    repeat' split
    all_goals trivial
  · trivial

theorem probePayload_rule {P : (α : Type) → Firmware α → Prop} (hP : Composes P)
    (hquiet : ∀ {α : Type} {p : Firmware α}, Only QuietCall p → P α p) {self : SreBootManager}
    (hnote : ∀ found, P Bool (do
      ask (.note (.bpHasSrePayload found))
      pure found)) : P Bool self.probePayload := by
  simp only [SreBootManager.probePayload]
  split
  · exact hP.bind (hquiet only_bpHasSrePayload) hnote
  · exact hP.done false

section DevicePaths

variable [PatinaDevicePath]

theorem discoverConsoleDevices_rule {P : (α : Type) → Firmware α → Prop} (hP : Composes P)
    (hask : ∀ c, ConsoleCall c → P (Answer c) (ask c)) :
    P (Except EfiError Unit) discoverConsoleDevices.run := by
  have hinstance : ∀ st handle, P MultiInstance (addInstance st handle) := by
    intro st handle
    simp only [addInstance]
    split
    · exact hP.done st
    · apply hP.bind (hask (.handleProtocolDevicePath handle) trivial)
      intro r
      cases r with
      | error => exact hP.done _
      | ok memory =>
        dsimp only
        split
        · exact hP.done _
        · exact hP.done _
        · exact hP.done _
  have hinstances : ∀ st guid, P MultiInstance (addInstances st guid) := by
    intro st guid
    apply hP.bind (hask (.locateHandleBuffer (.byProtocol guid)) trivial)
    intro r
    cases r with
    | error => exact hP.done st
    | ok handles => exact hP.foldlM hinstance handles st
  have hwrite : ∀ u var, P Unit (writeConsoleVar u var) := by
    intro u var
    apply hP.bind (hP.bind (hP.foldlM hinstances var.2 {}) fun _ => hP.done _)
    intro r
    cases r with
    | none => exact hP.done ()
    | some path => exact hP.bind (hask (.setVariable var.1 (asBytes path)) trivial) fun _ => hP.done ()
  rw [discoverConsoleDevices, Program.run_lift]
  exact hP.bind (hP.foldlM hwrite consoleVars ()) fun _ => hP.done _

theorem only_discoverConsoleDevices : Only QuietCall discoverConsoleDevices.run :=
  discoverConsoleDevices_rule (composes_only QuietCall)
    fun _ hc => (only_call _).mpr (ConsoleCall.quietCall hc)

theorem expandDevicePath_rule {P : (α : Type) → Firmware α → Prop} (hP : Composes P)
    (hask : ∀ c, DatabaseCall c → P (Answer c) (ask c)) (path : DevicePath) :
    P (Except EfiError DevicePath) (expandDevicePath path).run := by
  simp only [expandDevicePath]
  split
  · exact hP.done _
  split
  · exact hP.done _
  split
  · exact hP.done _
  next target _ =>
    apply hP.except_bind
    · apply hP.bind (hask (.locateHandleBuffer (.byProtocol .devicePath)) trivial)
      intro r
      cases r with
      | error => exact hP.done _
      | ok handles => exact hP.done _
    · intro handles
      apply hP.except_bind
      · apply hP.except_foldlM
        intro matched handle
        simp only [matchHandle]
        rw [Program.run_lift_bind]
        apply hP.bind (hask (.handleProtocolDevicePath handle) trivial)
        intro r
        cases r with
        | error => exact hP.done _
        | ok memory =>
          dsimp only
          split
          · exact hP.done _
          · split
            · exact hP.done _
            · exact hP.done _
      · intro matched
        cases matched with
        | none => exact hP.done _
        | some full => exact hP.done _

theorem only_expandDevicePath (path : DevicePath) : Only QuietCall (expandDevicePath path).run :=
  expandDevicePath_rule (composes_only QuietCall)
    (fun _ hc => (only_call _).mpr (ConsoleCall.quietCall (DatabaseCall.consoleCall hc))) path

theorem only_bootFromDevicePath (parent : Handle) (path : DevicePath) :
    Only ImageCall (bootFromDevicePath parent path).run := by
  have hload : ∀ fullPath, Only ImageCall (do
      let imageHandle ← mapErr (ask (.loadImage parent fullPath))
      mapErr (ask (.setWatchdogTimer watchdogTimeoutSeconds))
      let result ← ask (.startImage imageHandle)
      let _ ← ask (.setWatchdogTimer 0)
      mapErr (pure result) : FirmwareE Unit).run := by
    intro fullPath
    apply only_mapErr_bind ((only_call _).mpr trivial)
    intro image
    apply only_mapErr_bind ((only_call _).mpr trivial)
    intro _
    apply only_askErr_bind trivial
    intro result
    exact only_askErr_bind trivial fun _ => only_mapErr trivial
  simp only [bootFromDevicePath]
  split
  · exact ((only_expandDevicePath path).mono fun _ => QuietCall.imageCall).except_bind hload
  · exact hload path

theorem only_discoverBootOptions : Only QuietCall discoverBootOptions.run := by
  apply only_mapErr_bind ((only_call _).mpr trivial)
  intro bytes
  split
  · trivial
  rw [Program.run_lift_bind]
  refine Only.bind (Only.foldlM (fun paths n => ?_) _ _) fun paths => by split <;> trivial
  apply only_ask_bind trivial
  intro r
  cases r with
  | error => trivial
  | ok bytes =>
    dsimp only
    split <;> trivial

theorem only_fallbackBootOptions (arch : TargetArch) (policy : BootSourcePolicy) :
    Only QuietCall (fallbackBootOptions arch policy).run := by
  have hstate : Only QuietCall secureBootState.run := by
    apply (only_readStateVariable _).except_bind
    intro secureBoot
    apply (only_readStateVariable _).except_bind
    intro setupMode
    repeat' split
    all_goals trivial
  simp only [fallbackBootOptions]
  split
  · trivial
  apply hstate.except_bind
  intro state
  split
  · trivial
  apply only_mapErr_bind ((only_call _).mpr trivial)
  intro handles
  rw [Program.run_lift_bind]
  refine Only.bind (Only.foldlM (fun volumes handle => ?_) _ _) fun volumes => by split <;> trivial
  apply only_ask_bind trivial
  intro r
  cases r with
  | error => trivial
  | ok memory =>
    dsimp only
    split
    · trivial
    · split <;> trivial

theorem only_chainloadFromRamdisk (arch : TargetArch) (lockedBoot : LockedBoot) (image : Handle)
    (dp : Memory) : Only ImageCall (chainloadFromRamdisk arch lockedBoot image dp).run := by
  apply only_mapErr_bind ((only_call _).mpr trivial)
  intro ramHandle
  refine only_askErr_bind rfl fun _ => ?_
  dsimp only
  split
  · trivial
  apply only_mapErr_bind ((only_call _).mpr trivial)
  intro handles
  rw [Program.run_lift_bind]
  refine ((only_findDescendant _ handles).mono fun _ => QuietCall.imageCall).bind fun r => ?_
  split
  · trivial
  split
  · trivial
  split
  · trivial
  · exact only_bootFromDevicePath image _

theorem only_runSreFlow (arch : TargetArch) (lockedBoot : LockedBoot) (image : Handle) :
    Only BootCall (runSreFlow arch lockedBoot image).run := by
  have hquiet : ∀ {α : Type} {p : Firmware α}, Only QuietCall p → Only BootCall p :=
    fun hp => hp.mono fun _ => QuietCall.bootCall
  simp only [runSreFlow]
  rw [Program.run_lift_bind]
  apply (only_logError (hquiet only_connectAll)).bind
  intro _
  apply only_mapErr_bind ((only_call _).mpr trivial)
  intro _
  rw [Program.run_lift_bind]
  apply (hquiet only_probeMaxTransfer).bind
  intro chunk
  apply only_askErr_bind trivial
  intro r
  cases r with
  | none => trivial
  | some buf =>
    rw [run_attempt_bind]
    apply (hquiet (only_readBpViaLogPage _ _ _)).bind
    intro r
    cases r with
    | error e => exact only_askErr_bind trivial fun _ => trivial
    | ok bytes =>
      rw [run_attempt_bind]
      apply (only_registerRamDisk _ _).bind
      intro r
      cases r with
      | error e => exact only_askErr_bind trivial fun _ => trivial
      | ok install =>
        rw [run_attempt_bind]
        refine ((only_chainloadFromRamdisk arch lockedBoot image _).mono
          fun _ => ImageCall.bootCall).bind fun result => ?_
        rw [run_attempt_bind]
        apply (only_teardown install).bind
        intro r
        cases r with
        | error => cases result <;> trivial
        | ok => exact only_askErr_bind trivial fun _ => by cases result <;> trivial

theorem only_findFirstUsbSfsDevicePath (arch : TargetArch) :
    Only QuietCall (findFirstUsbSfsDevicePath arch) := by
  apply only_ask_bind trivial
  intro r
  cases r with
  | error => trivial
  | ok handles =>
    dsimp only
    induction handles with
    | nil => trivial
    | cons h rest ih =>
      apply only_ask_bind trivial
      intro r
      repeat' split
      all_goals first | exact ih | trivial

theorem only_dispatch (lockedBoot : LockedBoot) (image : Handle) (path : DevicePath) :
    Only BootCall (logError (lockedBoot.bootFromDevicePath image path)) :=
  only_logError ((only_bootFromDevicePath image path).mono fun _ => ImageCall.bootCall)

theorem only_recover (arch : TargetArch) (lockedBoot : LockedBoot) (image : Handle) :
    Only BootCall (logError (runSreFlow arch lockedBoot image)) :=
  only_logError (only_runSreFlow arch lockedBoot image)

/-! A property that composition keeps, and that quiet programs have, holds of a part of the
orchestrator when it holds of the boot attempts in it. -/

section Parts

variable {P : (α : Type) → Firmware α → Prop} (hP : Composes P)
  (hquiet : ∀ {α : Type} {p : Firmware α}, Only QuietCall p → P α p)
  {self : SreBootManager} {arch : TargetArch} {lockedBoot : LockedBoot} {image : Handle}
include hP hquiet

theorem hotkeyPhase_rule
    (happ : ∀ site ∈ [DispatchSite.sreApp, .usbBoot, .frontpageApp], ∀ path,
      P Unit (signalAndBoot lockedBoot image site path))
    (hrecover : P Unit (signalAndRecover arch lockedBoot image)) :
    P Unit (self.hotkeyPhase arch lockedBoot image) := by
  apply hP.bind (hquiet only_probeSreHotkey)
  intro hotkey
  refine hP.bind ?_ fun _ => ?_
  · simp only [connectForHotkey]
    split
    · apply hP.bind (hquiet (only_logError only_connectAll))
      intro _
      exact hquiet (only_logError only_discoverConsoleDevices)
    · exact hP.done ()
  · cases hotkey with
    | none => exact hP.done ()
    | volumeUp =>
      dsimp only [SreBootManager.dispatchHotkey]
      split
      · exact happ _ (by simp) _
      · exact hrecover
    | volumeDown =>
      apply hP.bind (hquiet (only_findFirstUsbSfsDevicePath arch))
      intro found
      split
      · exact happ _ (by simp) _
      · split
        · exact happ _ (by simp) _
        · exact hP.done ()

theorem bootPass_rule {bpHasSre : Bool}
    (hfallback : ∀ candidates, P Unit (ask (.note (.fallbackOptions candidates))))
    (hoption : ∀ triedAny path, P Bool (bootOption lockedBoot image bpHasSre triedAny path))
    (hmain : P Unit (signalAndBoot lockedBoot image .mainOs self.mainOsPath))
    (hcandidate : ∀ u path, P Unit (bootCandidate lockedBoot image bpHasSre u path)) :
    P Unit (self.bootPass arch lockedBoot image bpHasSre) := by
  refine hP.bind (hP.bind (hquiet only_discoverBootOptions) fun r => ?_) fun triedAny => ?_
  · cases r with
    | error => exact hP.done false
    | ok bootConfig => exact hP.foldlM hoption bootConfig.devices false
  · split
    · apply hP.bind hmain
      intro _
      apply hP.bind (hquiet (only_fallbackBootOptions arch self.bootSourcePolicy))
      intro r
      cases r with
      | error => exact hfallback []
      | ok candidates =>
        exact hP.bind (hfallback candidates) fun _ => hP.foldlM hcandidate candidates ()
    · exact hP.done ()

theorem normalBoot_rule {bpHasSre : Bool}
    (hfull : P Unit (ask (.note .fullConnect)))
    (hfallback : ∀ candidates, P Unit (ask (.note (.fallbackOptions candidates))))
    (hoption : ∀ triedAny path, P Bool (bootOption lockedBoot image bpHasSre triedAny path))
    (hmain : P Unit (signalAndBoot lockedBoot image .mainOs self.mainOsPath))
    (hcandidate : ∀ u path, P Unit (bootCandidate lockedBoot image bpHasSre u path))
    (hlast : P Unit (lastResort arch lockedBoot image bpHasSre)) :
    P Unit (self.normalBoot arch lockedBoot image bpHasSre) := by
  have hpass : P Unit (self.bootPass arch lockedBoot image bpHasSre) :=
    bootPass_rule hP hquiet hfallback hoption hmain hcandidate
  apply hP.bind hpass
  intro _
  apply hP.bind (hquiet (only_logError only_connectAll))
  intro _
  exact hP.bind hfull fun _ => hP.bind hpass fun _ => hlast

end Parts

end DevicePaths

end PatinaBootCalls
