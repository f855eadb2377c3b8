import OdpPlatform.BootPartitionLayout
import OdpPlatform.PatinaBootCalls

/-! # The RAM disk outlives its BlockIo interface

Which BlockIo interfaces are installed, and which buffer each state box points at, is read off
the history. A buffer or box may only be freed while no installed interface leads to it. -/
namespace PatinaRamDisk

open ByteBuffer DevicePathNodes InteractionProgram InteractionContract FirmwareServices
open BootPartitionDevice BootPartitionLayout SreFmpImage
open PatinaBootHelpers PatinaBootOptions PatinaBpLogPage PatinaBpRecovery PatinaBootCalls

/-- State boxes with the buffer each points at, and BlockIo interfaces with their handle. -/
structure RamDisks where
  boxes : List (Interface × ℕ) := []
  installed : List (Handle × Interface) := []
  deriving DecidableEq

def RamDisks.step (s : RamDisks) (e : Event Answer) : RamDisks :=
  match e with
  | ⟨.newRamDiskBlockIo ptr _, some state⟩ => { s with boxes := (state, ptr) :: s.boxes }
  | ⟨.installProtocolInterface _ .blockIo state, some (.ok handle)⟩ =>
    { s with installed := (handle, state) :: s.installed }
  | ⟨.uninstallProtocolInterface handle .blockIo state, some (.ok _)⟩ =>
    { s with installed := s.installed.filter (· ≠ (handle, state)) }
  | _ => s

def ramDisks (h : FirmwareTrace) : RamDisks := h.foldl RamDisks.step {}

@[simp] theorem ramDisks_nil : ramDisks [] = {} := rfl
@[simp] theorem ramDisks_snoc (h : FirmwareTrace) (e : Event Answer) :
    ramDisks (h ++ [e]) = (ramDisks h).step e := by simp [ramDisks]

def Dangles (s : RamDisks) : Call → Prop
  | .dropBuffer address => ∃ i ∈ s.installed, (i.2, address) ∈ s.boxes
  | .dropRamDiskBlockIo state => ∃ i ∈ s.installed, i.2 = state
  | _ => False

def FreesSafely (τ : FirmwareTrace) : Prop := Guarded (fun h c => ¬Dangles (ramDisks h) c) τ

def InstallFailed : Event Answer → Prop
  | ⟨.installProtocolInterface (some _) .devicePath _, some (.error _)⟩ => True
  | _ => False

def RollbackFailed : Event Answer → Prop
  | ⟨.uninstallProtocolInterface _ .blockIo _, some (.error _)⟩ => True
  | _ => False

/-- The DevicePath install fails, and then the BlockIo interface cannot be taken back. -/
def RollbackRefused (τ : FirmwareTrace) : Prop :=
  ∃ pre e e' post, τ = pre ++ e :: e' :: post ∧ InstallFailed e ∧ RollbackFailed e'

theorem rollbackRefused_snoc {h : FirmwareTrace} {e : Event Answer} :
    RollbackRefused (h ++ [e]) ↔ RollbackRefused h ∨
      ∃ pre e', h = pre ++ [e'] ∧ InstallFailed e' ∧ RollbackFailed e := by
  constructor
  · rintro ⟨pre, x, y, post, heq, hx, hy⟩
    rcases List.eq_nil_or_concat post with rfl | ⟨post, z, rfl⟩
    · have heq' : h ++ [e] = (pre ++ [x]) ++ [y] := by simpa using heq
      obtain ⟨rfl, hy'⟩ := List.append_inj' heq' rfl
      cases hy'
      exact .inr ⟨pre, x, rfl, hx, hy⟩
    · have heq' : h ++ [e] = (pre ++ x :: y :: post) ++ [z] := by simpa using heq
      obtain ⟨rfl, -⟩ := List.append_inj' heq' rfl
      exact .inl ⟨pre, x, y, post, rfl, hx, hy⟩
  · rintro (⟨pre, x, y, post, rfl, hx, hy⟩ | ⟨pre, x, rfl, hx, he⟩)
    · exact ⟨pre, x, y, post ++ [e], by simp, hx, hy⟩
    · exact ⟨pre, x, e, [], by simp, hx, he⟩

structure Clean (s : RamDisks) (h : FirmwareTrace) : Prop where
  safe : FreesSafely h
  unrefused : ¬RollbackRefused h
  disks : ramDisks h = s

def Sound (τ : FirmwareTrace) : Prop := FreesSafely τ ↔ ¬RollbackRefused τ

variable {s : RamDisks} {h : FirmwareTrace}

theorem Clean.sound (hc : Clean s h) : Sound h :=
  ⟨fun _ => hc.unrefused, fun _ => hc.safe⟩

theorem clean_nil : Clean {} [] := by
  refine ⟨guarded_nil _, ?_, rfl⟩
  rintro ⟨pre, x, y, post, heq, -⟩
  simp at heq

theorem Clean.snoc (hc : Clean s h) {e : Event Answer} (hd : ¬Dangles s e.call)
    (hr : ¬RollbackFailed e) : Clean (s.step e) (h ++ [e]) := by
  refine ⟨guarded_snoc_iff.mpr ⟨hc.safe, by rwa [hc.disks]⟩, fun hrefused => ?_, ?_⟩
  · rcases rollbackRefused_snoc.mp hrefused with hold | ⟨_, _, _, _, hnew⟩
    · exact hc.unrefused hold
    · exact hr hnew
  · rw [ramDisks_snoc, hc.disks]

/-- A refused rollback right after a failed install, followed by the free. -/
theorem sound_of_refused {e : Event Answer} (hrefused : RollbackRefused h)
    (hd : Dangles (ramDisks h) e.call) : Sound (h ++ [e]) := by
  refine ⟨fun hsafe => absurd hd (guarded_snoc_iff.mp hsafe).2, fun hno => ?_⟩
  exact absurd (rollbackRefused_snoc.mpr (.inl hrefused)) hno

def Inert : Call → Prop
  | .newRamDiskBlockIo _ _ | .installProtocolInterface _ _ _ | .uninstallProtocolInterface _ _ _
  | .dropBuffer _ | .dropRamDiskBlockIo _ => False
  | _ => True

theorem Clean.inert (hc : Clean s h) {e : Event Answer} (he : Inert e.call) :
    Clean s (h ++ [e]) := by
  obtain ⟨c, a⟩ := e
  have hstep : s.step ⟨c, a⟩ = s := by cases c <;> first | rfl | exact he.elim
  have hnext := hc.snoc (e := ⟨c, a⟩) (by cases c <;> first | exact id | exact he.elim)
    (by cases c <;> first | exact id | exact he.elim)
  rwa [hstep] at hnext

theorem ImageCall.inert {c : Call} (hc : ImageCall c) : Inert c := by
  cases c <;> trivial

theorem clean_ends {α : Type} {p : Firmware α} (hp : Only ImageCall p) (hc : Clean s h) :
    Ends (fun h' _ => Clean s h') p h :=
  (hp.mono fun _ => ImageCall.inert).ends (fun _ _ hc he => hc.inert he) hc

theorem quiet_ends {α : Type} {p : Firmware α} (hp : Only QuietCall p) (hc : Clean s h) :
    Ends (fun h' _ => Clean s h') p h :=
  clean_ends (hp.mono fun _ => QuietCall.imageCall) hc

/-- The RAM disk of `buf`: one box, and one interface on a handle that leads to it. -/
def mounted (buf : ℕ) (handle : Handle) (state : Interface) : RamDisks :=
  ⟨[(state, buf)], [(handle, state)]⟩

theorem Clean.uninstalled {buf : ℕ} {handle : Handle} {state : Interface}
    (hc : Clean (mounted buf handle state) h) (u : Unit) :
    Clean ⟨[(state, buf)], []⟩
      (h ++ [⟨.uninstallProtocolInterface handle .blockIo state, some (.ok u)⟩]) := by
  have hnext := hc.snoc
    (e := ⟨.uninstallProtocolInterface handle .blockIo state, some (.ok u)⟩) id id
  have hstep : (mounted buf handle state).step
      ⟨.uninstallProtocolInterface handle .blockIo state, some (.ok u)⟩ = ⟨[(state, buf)], []⟩ := by
    simp [RamDisks.step, mounted]
  rwa [hstep] at hnext

/-- With no interface installed every free is safe. -/
theorem Clean.unmounted_free {boxes : List (Interface × ℕ)} (hc : Clean ⟨boxes, []⟩ h) {c : Call}
    (hfree : (∃ address, c = .dropBuffer address) ∨ ∃ state, c = .dropRamDiskBlockIo state)
    (a : Option (Answer c)) : Clean ⟨boxes, []⟩ (h ++ [⟨c, a⟩]) := by
  rcases hfree with ⟨address, rfl⟩ | ⟨state, rfl⟩
  · exact hc.snoc (e := ⟨.dropBuffer address, a⟩) (by simp [Dangles]) id
  · exact hc.snoc (e := ⟨.dropRamDiskBlockIo state, a⟩) (by simp [Dangles]) id

def Registered (buf : ℕ) (τ : FirmwareTrace) : Option (Except EfiError RamDiskInstall) → Prop
  | none => ∃ s, Clean s τ
  | some (.error _) => (∃ boxes, Clean ⟨boxes, []⟩ τ) ∨
      (RollbackRefused τ ∧ ∃ handle state, ramDisks τ = mounted buf handle state)
  | some (.ok install) => Clean (mounted buf install.handle install.state) τ

theorem registerRamDisk_ends (hc : Clean {} h) (buf size : ℕ) :
    Ends (Registered buf) (registerRamDisk buf size).run h := by
  simp only [registerRamDisk, run_mapErr_bind, Program.call_bind, Program.run_lift_bind]
  refine ⟨⟨_, hc.snoc id id⟩, fun state => ?_⟩
  have h₁ : Clean ⟨[(state, buf)], []⟩ _ := hc.snoc (e := ⟨.newRamDiskBlockIo buf size, some state⟩)
    id id
  refine ⟨⟨_, h₁.inert trivial⟩, fun dp => ?_⟩
  have h₂ := h₁.inert (e := ⟨.leakDevicePath ramDiskDevicePath, some dp⟩) trivial
  refine ⟨⟨_, h₂.snoc id id⟩, fun r => ?_⟩
  cases r with
  | error s =>
    have h₃ : Clean ⟨[(state, buf)], []⟩ _ :=
      h₂.snoc (e := ⟨.installProtocolInterface none .blockIo state, some (.error s)⟩) id id
    exact .inl ⟨_, h₃⟩
  | ok handle =>
    have h₃ : Clean (mounted buf handle state) _ :=
      h₂.snoc (e := ⟨.installProtocolInterface none .blockIo state, some (.ok handle)⟩) id id
    refine ⟨⟨_, h₃.snoc id id⟩, fun r => ?_⟩
    cases r with
    | error s =>
      have h₄ : Clean (mounted buf handle state) _ := h₃.snoc
        (e := ⟨.installProtocolInterface (some handle) .devicePath dp, some (.error s)⟩) id id
      refine ⟨⟨_, h₄.snoc id id⟩, fun r => ?_⟩
      cases r with
      | error s' =>
        refine .inr ⟨rollbackRefused_snoc.mpr (.inr ⟨_, _, rfl, trivial, trivial⟩), handle, state, ?_⟩
        rw [ramDisks_snoc, h₄.disks]
        rfl
      | ok u =>
        have h₅ := h₄.uninstalled u
        have hfree := fun a => h₅.unmounted_free (.inr ⟨state, rfl⟩) a
        exact ⟨⟨_, hfree none⟩, fun r => .inl ⟨_, hfree (some r)⟩⟩
    | ok u =>
      have h₄ : Clean (mounted buf handle state) _ := h₃.snoc
        (e := ⟨.installProtocolInterface (some handle) .devicePath dp, some (.ok u)⟩) id id
      exact ⟨⟨_, h₄.inert trivial⟩, fun r => h₄.inert trivial⟩

def TornDown (τ : FirmwareTrace) : Option (Except EfiError Unit) → Prop
  | some (.ok _) => ∃ boxes, Clean ⟨boxes, []⟩ τ
  | _ => ∃ s, Clean s τ

theorem teardown_ends {install : RamDiskInstall} {buf : ℕ}
    (hc : Clean (mounted buf install.handle install.state) h) :
    Ends TornDown install.teardown.run h := by
  simp only [RamDiskInstall.teardown, run_mapErr_bind, Program.call_bind, Program.run_lift_bind]
  refine ⟨⟨_, hc.inert trivial⟩, fun r => ?_⟩
  have h₁ := hc.inert (e := ⟨.disconnectController install.handle, some r⟩) trivial
  let deinstall := Call.uninstallProtocolInterface install.handle .devicePath install.devicePath
  have h₂ : ∀ r, Clean (mounted buf install.handle install.state) (_ ++ [⟨deinstall, r⟩]) :=
    fun r => h₁.snoc (e := ⟨deinstall, r⟩) id id
  refine ⟨⟨_, h₂ none⟩, fun r => ?_⟩
  cases r with
  | error s => exact ⟨_, h₂ _⟩
  | ok u =>
    have h₃ := h₂ (some (.ok u))
    refine ⟨⟨_, h₃.snoc id id⟩, fun r => ?_⟩
    cases r with
    | error s =>
      -- a refusal here does not follow a failed install
      refine ⟨mounted buf install.handle install.state,
        guarded_snoc_iff.mpr ⟨h₃.safe, id⟩, fun hrefused => ?_, ?_⟩
      · rcases rollbackRefused_snoc.mp hrefused with hold | ⟨pre, e, heq, hinstall, -⟩
        · exact h₃.unrefused hold
        · obtain ⟨-, he⟩ := List.append_inj' heq rfl
          cases he
          exact hinstall
      · rw [ramDisks_snoc, h₃.disks]
        rfl
    | ok u =>
      have hfree := fun a => (h₃.uninstalled u).unmounted_free (.inr ⟨install.state, rfl⟩) a
      exact ⟨⟨_, hfree none⟩, fun r => ⟨_, hfree (some r)⟩⟩

theorem ask_sound {α : Type} {c : Call} {f : Answer c → Firmware α} (hinert : Inert c)
    (hc : Clean s h)
    (hf : ∀ r h', Clean s h' → Ends (fun τ _ => Sound τ) (f r) h') :
    Ends (fun τ _ => Sound τ) (ask c >>= f) h :=
  ⟨(hc.inert hinert).sound, fun r => hf r _ (hc.inert hinert)⟩

theorem drop_sound {α : Type} {boxes : List (Interface × ℕ)} {a : α} {buf : ℕ}
    (hc : Clean ⟨boxes, []⟩ h) :
    Ends (fun τ _ => Sound τ) (ask (.dropBuffer buf) >>= fun _ => Program.done a) h := by
  have hfree := fun r => hc.unmounted_free (.inl ⟨buf, rfl⟩) r
  exact ⟨(hfree none).sound, fun r => (hfree (some r)).sound⟩

section Flow

variable [PatinaDevicePath] {arch : TargetArch} {lockedBoot : LockedBoot} {image : Handle}

theorem runSreFlow_ends (hc : Clean {} h) :
    Ends (fun τ _ => Sound τ) (runSreFlow arch lockedBoot image).run h := by
  unfold runSreFlow
  rw [Program.run_lift_bind]
  refine (quiet_ends (only_logError only_connectAll) hc).bind (fun h _ hc => ?_)
    fun _ hc => hc.sound
  rw [run_mapErr_bind]
  refine ask_sound trivial hc fun r h hc => ?_
  cases r with
  | error => exact hc.sound
  | ok protocol =>
    dsimp only
    rw [Program.run_lift_bind]
    refine (quiet_ends only_probeMaxTransfer hc).bind (fun h chunk hc => ?_) fun _ hc => hc.sound
    rw [Program.run_lift_bind]
    refine ask_sound trivial hc fun r h hc => ?_
    cases r with
    | none => exact hc.sound
    | some buf =>
      dsimp only
      rw [run_attempt_bind]
      refine (quiet_ends (only_readBpViaLogPage _ _ _) hc).bind (fun h r hc => ?_)
        fun _ hc => hc.sound
      cases r with
      | error e => exact drop_sound hc
      | ok bytes =>
        dsimp only
        rw [run_attempt_bind]
        refine (registerRamDisk_ends hc buf bytes.length).bind (fun h r hr => ?_) fun h hr => ?_
        · cases r with
          | error e =>
            rcases hr with ⟨boxes, hc⟩ | ⟨hrefused, handle, state, hdisks⟩
            · exact drop_sound hc
            · have hd : Dangles (ramDisks h) (.dropBuffer buf) := by
                rw [hdisks]
                exact ⟨(handle, state), by simp [mounted], by simp [mounted]⟩
              exact ⟨sound_of_refused hrefused hd, fun r => sound_of_refused hrefused hd⟩
          | ok install =>
            dsimp only
            rw [run_attempt_bind]
            refine (clean_ends (only_chainloadFromRamdisk arch lockedBoot image _) hr).bind
              (fun h result hc => ?_) fun _ hc => hc.sound
            rw [run_attempt_bind]
            refine (teardown_ends hc).bind (fun h r hr => ?_) fun h ⟨s, hc⟩ => hc.sound
            cases r with
            | error e =>
              obtain ⟨s, hc⟩ := hr
              cases result <;> exact hc.sound
            | ok u =>
              obtain ⟨boxes, hc⟩ := hr
              cases result <;> exact drop_sound hc
        · obtain ⟨s, hc⟩ := hr
          exact hc.sound

/-- In every run of the flow freed memory is out of reach of the installed interfaces, exactly
when no rollback of a half-registered RAM disk is refused. -/
theorem frees_safely_iff (arch : TargetArch) (lockedBoot : LockedBoot) (image : Handle)
    (env : FirmwareEnv) :
    FreesSafely ((runSreFlow arch lockedBoot image).run.run env []).1 ↔
      ¬RollbackRefused ((runSreFlow arch lockedBoot image).run.run env []).1 :=
  (runSreFlow_ends clean_nil).sound env

end Flow

def recoveryDevice : Device := ⟨[], fun _ => zeroed bpsizeBytes⟩

/-- The partition reads fine and BlockIo installs; DevicePath does not, nor does the rollback. -/
def refusingEnv : FirmwareEnv := fun h c =>
  match c with
  | .passThru p =>
    if IsLogPageRead p.command then
      some ⟨.success, 0, 0,
        Device.logPage (recoveryDevice.after (commandsOf h)) (List.replicate 16 0) p.command⟩
    else
      some ⟨efiUnsupported, 0, 0, []⟩
  | .allocateAlignedPages _ _ => some none
  | .freeAlignedPages _ _ => some ()
  | .locateHandleBuffer _ => some (.error efiNotFound)
  | .locateProtocolUnchecked _ => some (.ok (some 0))
  | .tryReserveExact _ => some (some 4096)
  | .newRamDiskBlockIo _ _ => some 1
  | .leakDevicePath _ => some 2
  | .installProtocolInterface none .blockIo _ => some (.ok 3)
  | .installProtocolInterface _ _ _ => some (.error efiOutOfResources)
  | .uninstallProtocolInterface _ _ _ => some (.error efiInvalidParameter)
  | .dropBuffer _ => some ()
  | _ => none

theorem refusingEnv_serves {α : Type} (p : Firmware α) (h : FirmwareTrace) :
    Serves recoveryDevice refusingEnv p h := by
  refine InteractionGrants.answersAlong_of_forall (fun h c => ?_) p h
  cases c with
  | passThru p =>
    intro hp
    exact ⟨List.replicate 16 0, List.length_replicate, if_pos hp⟩
  | allocateAlignedPages => rfl
  | freeAlignedPages => rfl
  | _ => trivial

theorem refusingEnv_registers (h : FirmwareTrace) (size : ℕ) :
    ∃ e e', InstallFailed e ∧ RollbackFailed e' ∧
      (registerRamDisk 4096 size).run.run refusingEnv h =
        (h ++ [⟨.newRamDiskBlockIo 4096 size, some 1⟩, ⟨.leakDevicePath ramDiskDevicePath, some 2⟩,
          ⟨.installProtocolInterface none .blockIo 1, some (.ok 3)⟩, e, e'],
          some (.error .outOfResources)) := by
  refine ⟨⟨.installProtocolInterface (some 3) .devicePath 2, some (.error efiOutOfResources)⟩,
    ⟨.uninstallProtocolInterface 3 .blockIo 1, some (.error efiInvalidParameter)⟩,
    trivial, trivial, ?_⟩
  simp only [registerRamDisk, run_mapErr_bind, Program.call_bind, Program.run_lift_bind,
    Program.run, refusingEnv, List.append_assoc]
  rfl

section Counterexample

local instance : PatinaDevicePath := specDevicePath

theorem buffer_freed_while_installed :
    ¬FreesSafely ((runSreFlow .x86_64 .enter 0).run.run refusingEnv []).1 := by
  let reserved : FirmwareTrace := [⟨.locateHandleBuffer .allHandle, some (.error efiNotFound)⟩,
    ⟨.locateProtocolUnchecked .nvmExpressPassThru, some (.ok (some 0))⟩,
    ⟨.passThru probePacket, some ⟨efiUnsupported, 0, 0, []⟩⟩,
    ⟨.tryReserveExact bpsizeBytes, some (some 4096)⟩]
  have hconnect : (logError connectAll).run refusingEnv [] = (reserved.take 1, some ()) := rfl
  have hprobe : probeMaxTransfer.run refusingEnv (reserved.take 2) =
      (reserved.take 3, some readChunkDefault) := rfl
  have hidle : recoveryDevice.after (commandsOf reserved) = recoveryDevice := by
    refine after_rejected recoveryDevice fun c hc => ?_
    obtain rfl : c = (probePacket, ⟨efiUnsupported, 0, 0, []⟩) := List.mem_singleton.mp hc
    decide
  obtain ⟨bytes, h₁, hread⟩ : ∃ bytes h₁, (readBpViaLogPage targetBpid readChunkDefault
      (zeroed bpsizeBytes)).run.run refusingEnv reserved = (h₁, some (.ok bytes)) :=
    ⟨_, _, Prod.ext rfl (readBpViaLogPage_returns (by decide) (refusingEnv_serves _ _) (by decide)
      (by decide) (by simp [bpsizeBytes]) (by simp [bpsizeBytes]) (by rw [hidle]; rfl))⟩
  obtain ⟨e, e', hinstall, hrollback, hregister⟩ := refusingEnv_registers h₁ bytes.length
  have hlocate : refusingEnv (reserved.take 1) (.locateProtocolUnchecked .nvmExpressPassThru) =
      some (.ok (some 0)) := rfl
  have hreserve : refusingEnv (reserved.take 3) (.tryReserveExact bpsizeBytes) =
      some (some 4096) := rfl
  have hdrop : ∀ h, refusingEnv h (.dropBuffer 4096) = some () := fun _ => rfl
  have hsecond : reserved.take 1 ++ [⟨.locateProtocolUnchecked .nvmExpressPassThru,
      some (.ok (some 0))⟩] = reserved.take 2 := rfl
  have hlast : reserved.take 3 ++ [⟨.tryReserveExact bpsizeBytes, some (some 4096)⟩] =
      reserved := rfl
  have hrefused : RollbackRefused
      ((runSreFlow .x86_64 .enter 0).run.run refusingEnv []).1 := by
    unfold runSreFlow
    rw [Program.run_lift_bind, Program.run_bind_some _ _ hconnect, run_mapErr_bind, ask,
      Program.call_bind, Program.run_ask_some refusingEnv _ _ hlocate]
    dsimp only
    rw [hsecond, Program.run_lift_bind, Program.run_bind_some refusingEnv _ hprobe, Program.run_lift_bind,
      ask, Program.call_bind, Program.run_ask_some refusingEnv _ _ hreserve]
    dsimp only
    rw [hlast, run_attempt_bind, Program.run_bind_some refusingEnv _ hread]
    dsimp only
    rw [run_attempt_bind, Program.run_bind_some refusingEnv _ hregister]
    dsimp only
    rw [Program.run_lift_bind, ask, Program.call_bind, Program.run_ask_some refusingEnv _ _ (hdrop _)]
    refine ⟨h₁ ++ [⟨.newRamDiskBlockIo 4096 bytes.length, some 1⟩,
      ⟨.leakDevicePath ramDiskDevicePath, some 2⟩,
      ⟨.installProtocolInterface none .blockIo 1, some (.ok 3)⟩], e, e',
      [⟨.dropBuffer 4096, some ()⟩], ?_, hinstall, hrollback⟩
    rw [List.append_assoc, List.append_assoc]
    rfl
  exact fun hsafe => (runSreFlow_ends clean_nil).sound refusingEnv |>.mp hsafe hrefused

end Counterexample

end PatinaRamDisk
