import OdpPlatform.PatinaReadyToBoot

/-! # The USB filter of SreBootManager

With an SRE payload in boot partition 1 the boot loop skips options with a USB node. It looks at
the option as stored, while the loader expands a short-form option to a device path of its own
finding. -/
namespace PatinaUsbFilter

open ByteBuffer DevicePathNodes InteractionProgram InteractionContract InteractionHistory
open FirmwareServices PatinaBootHelpers PatinaBootOptions PatinaBpLogPage PatinaBpRecovery
open PatinaSreBootManager PatinaBootCalls PatinaLockOrder PatinaReadyToBoot

/-- The sites of the boot loop that apply the filter: Boot#### entries, fallback candidates. -/
def Filtered : DispatchSite → Prop
  | .bootOption | .fallbackCandidate => True
  | _ => False

def Tries (h : FirmwareTrace) (path : DevicePath) (post : FirmwareTrace) : Prop :=
  ∃ e site, SinceLast IsAttempt h e post ∧ e.call = .note (.bootAttempt site (some path)) ∧
    Filtered site

def PayloadFound (h : FirmwareTrace) : Prop := ∃ e ∈ h, e.call = .note (.bpHasSrePayload true)

/-- `R` holds of each path that LoadImage gets for a filtered attempt once the payload is known:
the path handed over, the path of the attempt, and what happened between. -/
def LoadGuard (R : DevicePath → DevicePath → FirmwareTrace → Prop) (h : FirmwareTrace)
    (c : Call) : Prop :=
  ∀ parent full, c = .loadImage parent full → PayloadFound h → ∀ path post,
    Tries h path post → R full path post

def NoUsbLoaded (τ : FirmwareTrace) : Prop :=
  Guarded (LoadGuard fun full _ _ => devicePathHasUsbNode full = false) τ

def Silent : Call → Prop
  | .loadImage _ _ | .note (.bpHasSrePayload _) => False
  | _ => True

theorem QuietCall.silent {c : Call} (hc : QuietCall c) : Silent c := by
  cases c <;> trivial

theorem NoBoot.silent {c : Call} (hc : NoBoot c) : Silent c := by
  cases c <;> trivial

theorem payloadFound_snoc {h : FirmwareTrace} {c : Call} (hc : c ≠ .note (.bpHasSrePayload true))
    {r : Option (Answer c)} (hp : PayloadFound (h ++ [⟨c, r⟩])) : PayloadFound h := by
  obtain ⟨x, hx, hcall⟩ := hp
  rcases List.mem_append.mp hx with hx | hx
  · exact ⟨x, hx, hcall⟩
  · cases List.mem_singleton.mp hx
    exact absurd hcall hc

section Resolution

variable [PatinaDevicePath]

open PatinaDevicePath

def offered (target : HardDrive) (e : Event Answer) : Option (List Node) :=
  match e with
  | ⟨.handleProtocolDevicePath _, some (.ok memory)⟩ =>
    (tryFromPtr memory).bind (prefixNodes target)
  | _ => none

/-- The path is short-form, and a handle on which its partition was found lies behind USB. -/
def ResolvesToUsb (path : DevicePath) (post : FirmwareTrace) : Prop :=
  isPartialDevicePath path = true ∧ ∃ target, path.findSome? hardDriveTryFromNode = some target ∧
    ∃ nodes ∈ post.filterMap (offered target), devicePathHasUsbNode nodes = true

def NoUsbResolution (τ : FirmwareTrace) : Prop :=
  Guarded (LoadGuard fun _ path post => ¬ResolvesToUsb path post) τ

abbrev UsbGuard : FirmwareTrace → Call → Prop :=
  LoadGuard fun full path post => (devicePathHasUsbNode full = true ↔ ResolvesToUsb path post)

theorem remainingNodes_subset (path : List Node) :
    ∀ pastHd, ∀ node ∈ remainingNodes pastHd path, node ∈ path := by
  induction path with
  | nil => intro pastHd node hnode; exact hnode
  | cons x rest ih =>
    intro pastHd node hnode
    simp only [remainingNodes] at hnode
    split at hnode
    · rcases List.mem_cons.mp hnode with rfl | hrest
      · exact List.mem_cons_self
      · exact List.mem_cons_of_mem _ (ih _ node hrest)
    · exact List.mem_cons_of_mem _ (ih _ node hnode)

theorem hasUsb_expanded {path : DevicePath} (hno : devicePathHasUsbNode path = false)
    (nodes : List Node) :
    devicePathHasUsbNode (appendDevicePath (fromDevicePathNodeIter nodes)
      (fromDevicePathNodeIter (remainingNodes false path))) = devicePathHasUsbNode nodes := by
  have hend : (fun node : Node => decide (IsUsb node)) endEntire = false := by decide
  have hremaining : (remainingNodes false path).any (fun node => decide (IsUsb node)) = false := by
    rw [devicePathHasUsbNode, List.any_eq_false] at hno
    rw [List.any_eq_false]
    exact fun node hnode => hno node (remainingNodes_subset path false node hnode)
  simp only [devicePathHasUsbNode, appendDevicePath_eq]
  rw [List.any_append, any_dropLast_fromDevicePathNodeIter hend, any_fromDevicePathNodeIter hend,
    hremaining, Bool.or_false]

def MatchedFrom (remaining : DevicePath) (offers : List (List Node)) (matched : Option DevicePath) :
    Prop :=
  (offers = [] ∧ matched = none) ∨ ∃ nodes, offers = [nodes] ∧
    matched = some (appendDevicePath (fromDevicePathNodeIter nodes) remaining)

variable {h : FirmwareTrace} {e : Event Answer}

theorem matchHandle_meets {target : HardDrive} {remaining : DevicePath}
    {matched : Option DevicePath} {post : FirmwareTrace} (hs : SinceLast IsAttempt h e post)
    (hm : MatchedFrom remaining (post.filterMap (offered target)) matched) (handle : Handle) :
    Meets (.ofGuard UsbGuard) (fun h' r => ∀ matched', r = .ok matched' →
        ∃ post', SinceLast IsAttempt h' e post' ∧
          MatchedFrom remaining (post'.filterMap (offered target)) matched')
      (matchHandle target remaining matched handle).run h := by
  simp only [matchHandle]
  rw [Program.run_lift_bind, ask, Program.call_bind]
  refine ⟨by rintro _ _ ⟨⟩, fun r _ => ?_⟩
  have hs' : SinceLast IsAttempt (h ++ [⟨.handleProtocolDevicePath handle, some r⟩]) e
      (post ++ [⟨.handleProtocolDevicePath handle, some r⟩]) := hs.snoc id
  cases r with
  | error s =>
    intro matched' heq
    cases heq
    have hoffer : offered target ⟨.handleProtocolDevicePath handle, some (.error s)⟩ = none := rfl
    refine ⟨_, hs', ?_⟩
    rwa [List.filterMap_append, List.filterMap_cons_none hoffer, List.filterMap_nil,
      List.append_nil]
  | ok memory =>
    dsimp only
    cases hnodes : (tryFromPtr memory).bind (prefixNodes target) with
    | none =>
      dsimp only
      intro matched' heq
      cases heq
      have hoffer : offered target ⟨.handleProtocolDevicePath handle, some (.ok memory)⟩ = none :=
        hnodes
      refine ⟨_, hs', ?_⟩
      rwa [List.filterMap_append, List.filterMap_cons_none hoffer, List.filterMap_nil,
        List.append_nil]
    | some nodes =>
      have hoffer : offered target ⟨.handleProtocolDevicePath handle, some (.ok memory)⟩ =
          some nodes := hnodes
      dsimp only
      split
      · rintro matched' ⟨⟩
      next hfirst =>
        intro matched' heq
        cases heq
        refine ⟨_, hs', .inr ⟨nodes, ?_, rfl⟩⟩
        rcases hm with ⟨hoffers, rfl⟩ | ⟨nodes', -, rfl⟩
        · rw [List.filterMap_append, hoffers, List.filterMap_cons_some hoffer, List.filterMap_nil,
            List.nil_append]
        · exact absurd rfl hfirst

theorem expandDevicePath_meets {path : DevicePath} (hs : SinceLast IsAttempt h e [])
    (hshort : isPartialDevicePath path = true) (hno : devicePathHasUsbNode path = false) :
    Meets (.ofGuard UsbGuard) (fun h' r => ∀ full, r = .ok full →
        ∃ post, SinceLast IsAttempt h' e post ∧
          (devicePathHasUsbNode full = true ↔ ResolvesToUsb path post))
      (expandDevicePath path).run h := by
  simp only [expandDevicePath]
  split
  · rintro full ⟨⟩
  split
  next hfull => rw [hshort] at hfull; cases hfull
  split
  · rintro full ⟨⟩
  next target htarget =>
    rw [run_mapErr_bind]
    refine ⟨by rintro _ _ ⟨⟩, fun r _ => ?_⟩
    have hs' : SinceLast IsAttempt
        (h ++ [⟨.locateHandleBuffer (.byProtocol .devicePath), some r⟩]) e
        [⟨.locateHandleBuffer (.byProtocol .devicePath), some r⟩] := hs.snoc id
    cases r with
    | error => rintro full ⟨⟩
    | ok handles =>
      refine (Meets.except_foldlM (I := fun h matched => ∃ post, SinceLast IsAttempt h e post ∧
        MatchedFrom (fromDevicePathNodeIter (remainingNodes false path))
          (post.filterMap (offered target)) matched) ?_ handles _ none ?_).except_bind ?_
        fun _ _ _ _ => by rintro full ⟨⟩
      · rintro h matched handle ⟨post, hs, hm⟩
        exact matchHandle_meets hs hm handle
      · exact ⟨_, hs', .inl ⟨rfl, rfl⟩⟩
      · intro h' matched _ hmatched
        obtain ⟨post, hs, ⟨hoffers, rfl⟩ | ⟨nodes, hoffers, rfl⟩⟩ := hmatched _ rfl
        · rintro full ⟨⟩
        · intro full heq
          cases heq
          refine ⟨post, hs, ?_⟩
          rw [hasUsb_expanded hno]
          constructor
          · exact fun husb => ⟨hshort, target, htarget, nodes, by simp [hoffers], husb⟩
          · rintro ⟨-, target', htarget', nodes', hmem, husb⟩
            obtain rfl : target = target' := by rwa [htarget, Option.some_inj] at htarget'
            rw [hoffers, List.mem_singleton] at hmem
            rwa [← hmem]

theorem Silent.usbGuard {c : Call} (hc : Silent c) : UsbGuard h c := by
  rintro parent full rfl
  exact hc.elim

theorem bootFromDevicePath_meets {site : DispatchSite} {path : DevicePath}
    (hs : SinceLast IsAttempt h e []) (he : e.call = .note (.bootAttempt site (some path)))
    (hno : devicePathHasUsbNode path = false) (image : Handle) :
    Meets (.ofGuard UsbGuard) (fun _ _ => True) (bootFromDevicePath image path).run h := by
  have hload : ∀ h' full post, SinceLast IsAttempt h' e post →
      (devicePathHasUsbNode full = true ↔ ResolvesToUsb path post) →
      Meets (.ofGuard UsbGuard) (fun _ _ => True) (do
        let imageHandle ← mapErr (ask (.loadImage image full))
        mapErr (ask (.setWatchdogTimer watchdogTimeoutSeconds))
        let result ← ask (.startImage imageHandle)
        let _ ← ask (.setWatchdogTimer 0)
        mapErr (pure result) : FirmwareE Unit).run h' := by
    intro h' full post hs husb
    rw [run_mapErr_bind, ask, Program.call_bind]
    refine ⟨?_, fun r _ => ?_⟩
    · rintro parent full' heq - path' post' ⟨e', site', hs', he', -⟩
      obtain ⟨rfl, rfl⟩ := hs.unique hs'
      rw [he] at he'
      cases heq
      cases he'
      exact husb
    · cases r with
      | error => trivial
      | ok imageHandle =>
        refine Only.meets (A := Silent) (I := fun _ => True) ?_ (fun _ _ _ hc => hc.usbGuard)
          (fun _ _ _ _ _ => trivial) trivial
        apply only_mapErr_bind ((only_call _).mpr trivial)
        intro _
        apply only_askErr_bind trivial
        intro result
        exact only_askErr_bind trivial fun _ => only_mapErr trivial
  simp only [bootFromDevicePath]
  split
  next hshort =>
    refine (expandDevicePath_meets hs hshort hno).except_bind (fun h' full _ hfull => ?_)
      fun _ _ _ _ => trivial
    obtain ⟨post, hs', husb⟩ := hfull full rfl
    exact hload h' full post hs' husb
  next hshort =>
    refine hload h path [] hs ⟨fun husb => ?_, fun hres => absurd hres.1 hshort⟩
    rw [hno] at husb
    cases husb

abbrev KeepsFilter (bpHasSre : Bool) {α : Type} (p : Firmware α) : Prop :=
  Keeps (.ofGuard UsbGuard) (fun h => bpHasSre = false → ¬PayloadFound h) p

variable {α : Type} {bpHasSre : Bool}

theorem silent_keeps {p : Firmware α} (hp : Only Silent p) : KeepsFilter bpHasSre p := by
  refine hp.keeps (fun _ _ _ hc => hc.usbGuard) fun h c r hi hc hb hfound => ?_
  exact hi hb (payloadFound_snoc (by rintro rfl; exact hc) hfound)

theorem quiet_keepsFilter {p : Firmware α} (hp : Only QuietCall p) : KeepsFilter bpHasSre p :=
  silent_keeps (hp.mono fun _ => QuietCall.silent)

/-- While no payload is known the guard asks nothing. -/
theorem unknown_keeps {p : Firmware α} (hp : Only BootCall p) : KeepsFilter false p := by
  refine hp.keeps (fun h c hi _ parent full _ hfound => absurd hfound (hi rfl))
    fun h c r hi hc hb hfound => ?_
  exact hi hb (payloadFound_snoc (by rintro rfl; exact hc) hfound)

/-- Attempts from the other sites are none of the guard's business. -/
theorem unfiltered_keeps {site : DispatchSite} (hsite : ¬Filtered site)
    {path : Option DevicePath} {p : Firmware α} (hp : Only BootCall p) :
    KeepsFilter bpHasSre (ask (.note (.bootAttempt site path)) >>= fun _ => p) := by
  intro h hi
  refine ⟨nofun, fun r _ => ?_⟩
  let e : Event Answer := ⟨.note (.bootAttempt site path), some r⟩
  refine (hp.meets (I := fun h' => (∃ post, SinceLast IsAttempt h' e post) ∧
    (bpHasSre = false → ¬PayloadFound h')) ?_ ?_ ⟨⟨[], .mark trivial⟩, ?_⟩).mono
      fun _ _ _ hi' => hi'.2
  · rintro h' c ⟨⟨post, hs⟩, -⟩ - parent full - - path' post' ⟨e', site', hs', he', hsite'⟩
    obtain ⟨rfl, rfl⟩ := hs.unique hs'
    cases he'
    exact absurd hsite' hsite
  · rintro h' c r ⟨⟨post, hs⟩, hi'⟩ hc
    refine ⟨⟨_, hs.snoc (BootCall.neutral hc).1⟩, fun hb hfound => ?_⟩
    exact hi' hb (payloadFound_snoc (by rintro rfl; exact hc) hfound)
  · exact fun hb hfound => hi hb (payloadFound_snoc (by nofun) hfound)

theorem dispatch_keeps (lockedBoot : LockedBoot) (image : Handle) (site : DispatchSite)
    {path : DevicePath} (hno : Filtered site → bpHasSre = true → devicePathHasUsbNode path = false) :
    KeepsFilter bpHasSre (ask (.note (.bootAttempt site (some path))) >>= fun _ =>
      logError (lockedBoot.bootFromDevicePath image path)) := by
  by_cases hsite : Filtered site
  · cases bpHasSre with
    | false =>
      intro h hi
      refine ⟨nofun, fun r _ => ?_⟩
      apply unknown_keeps (only_dispatch lockedBoot image path) _
      intro hb hfound
      exact hi hb (payloadFound_snoc (by nofun) hfound)
    | true =>
      intro h _
      refine ⟨nofun, fun r _ => ?_⟩
      let e : Event Answer := ⟨.note (.bootAttempt site (some path)), some r⟩
      have hmark : SinceLast IsAttempt (h ++ [e]) e [] := .mark trivial
      exact (bootFromDevicePath_meets hmark rfl (hno hsite rfl) image).bind fun _ _ _ _ => nofun
  · exact unfiltered_keeps hsite (only_dispatch lockedBoot image path)

theorem signal_keeps : KeepsFilter bpHasSre (logError signalReadyToBoot) := by
  refine silent_keeps (only_logError ?_)
  exact only_signalGroup .readyToBoot trivial (fun _ => trivial) fun _ => trivial

theorem signalAndBoot_keepsFilter (lockedBoot : LockedBoot) (image : Handle) (site : DispatchSite)
    {path : DevicePath} (hno : Filtered site → bpHasSre = true → devicePathHasUsbNode path = false) :
    KeepsFilter bpHasSre (signalAndBoot lockedBoot image site path) :=
  (composes_keeps _ _).bind signal_keeps fun _ => dispatch_keeps lockedBoot image site hno

theorem bootOption_keepsFilter (lockedBoot : LockedBoot) (image : Handle) (triedAny : Bool)
    (path : DevicePath) :
    KeepsFilter bpHasSre (bootOption lockedBoot image bpHasSre triedAny path) := by
  have hP := composes_keeps (.ofGuard UsbGuard) fun h => bpHasSre = false → ¬PayloadFound h
  simp only [bootOption]
  split
  · exact hP.done triedAny
  next hskip =>
    split
    · exact hP.done triedAny
    · refine hP.bind (signalAndBoot_keepsFilter lockedBoot image .bootOption fun _ hb => ?_)
        fun _ => hP.done true
      exact Bool.eq_false_iff.mpr fun husb => hskip ⟨hb, husb⟩

theorem bootCandidate_keepsFilter (lockedBoot : LockedBoot) (image : Handle) (u : Unit)
    (path : DevicePath) :
    KeepsFilter bpHasSre (bootCandidate lockedBoot image bpHasSre u path) := by
  simp only [bootCandidate]
  split
  · exact (composes_keeps _ _).done ()
  next hskip =>
    apply dispatch_keeps lockedBoot image .fallbackCandidate
    intro _ hb
    exact Bool.eq_false_iff.mpr fun husb => hskip ⟨hb, husb⟩

theorem probePayload_meets (self : SreBootManager) (hno : ¬PayloadFound h) :
    Meets (.ofGuard UsbGuard) (fun h' bpHasSre => bpHasSre = false → ¬PayloadFound h')
      self.probePayload h := by
  simp only [SreBootManager.probePayload]
  split
  · have hprobe : KeepsFilter false bpHasSrePayload := quiet_keepsFilter only_bpHasSrePayload
    refine (hprobe h fun _ => hno).bind fun h' found _ hi =>
      ⟨by rintro _ _ ⟨⟩, fun _ _ hb hfound => ?_⟩
    cases hb
    exact hi rfl (payloadFound_snoc (by rintro ⟨⟩) hfound)
  · exact fun _ => hno

theorem boot_keepsFilter (self : SreBootManager) (arch : TargetArch) (lockedBoot : LockedBoot)
    (image : Handle) (hno : ¬PayloadFound h) :
    Meets (.ofGuard UsbGuard) (fun _ _ => True) (self.boot arch lockedBoot image) h := by
  have hrecover := only_recover arch lockedBoot image
  have hhotkey : KeepsFilter false (self.hotkeyPhase arch lockedBoot image) := by
    refine hotkeyPhase_rule (composes_keeps _ _) quiet_keepsFilter (fun site hsite path => ?_)
      ((composes_keeps _ _).bind signal_keeps fun _ => unfiltered_keeps id hrecover)
    exact signalAndBoot_keepsFilter lockedBoot image site nofun
  refine (hhotkey h fun _ => hno).bind fun h₁ _ _ hno₁ => ?_
  apply (probePayload_meets self (hno₁ rfl)).bind
  intro h₂ bpHasSre _ hi
  have hfull : KeepsFilter bpHasSre (ask (.note .fullConnect)) :=
    silent_keeps ((only_call _).mpr trivial)
  have hfallback : ∀ candidates, KeepsFilter bpHasSre (ask (.note (.fallbackOptions candidates))) :=
    fun _ => silent_keeps ((only_call _).mpr trivial)
  refine (normalBoot_rule (composes_keeps _ _) quiet_keepsFilter hfull hfallback
    (bootOption_keepsFilter lockedBoot image)
    (signalAndBoot_keepsFilter lockedBoot image .mainOs nofun)
    (bootCandidate_keepsFilter lockedBoot image) ?_ h₂ hi).mono fun _ _ _ _ => trivial
  simp only [lastResort]
  split
  · exact unfiltered_keeps id hrecover
  · exact (composes_keeps _ _).done ()

theorem execute_meets (self : SreBootManager) (arch : TargetArch) (fuel : ℕ) (image : Handle) :
    Meets (.ofGuard UsbGuard) (fun _ _ => True) (self.execute arch fuel image).run [] := by
  have hpre : KeepsFilter false (SreBootManager.preLock self fuel) :=
    silent_keeps ((only_beforeLock_preLock self fuel).mono fun _ hc => NoBoot.silent hc.1)
  have hlock : KeepsFilter false enterLockedBoot.run :=
    silent_keeps (only_enterLockedBoot.mono fun _ => NoBoot.silent)
  have hnil : ¬PayloadFound [] := by
    rintro ⟨x, hx, -⟩
    cases hx
  rw [run_execute]
  refine (hpre [] fun _ => hnil).bind fun h₁ _ _ hno₁ => ?_
  rw [ExceptT.run_bind]
  apply (hlock h₁ hno₁).bind
  intro h₂ r _ hno₂
  cases r with
  | error => trivial
  | ok lockedBoot =>
    dsimp only
    rw [Program.run_lift_bind]
    exact (boot_keepsFilter self arch lockedBoot image (hno₂ rfl)).bind fun _ _ _ _ => trivial

theorem noUsbLoaded_iff {τ : FirmwareTrace} (hτ : Guarded UsbGuard τ) :
    NoUsbLoaded τ ↔ NoUsbResolution τ := by
  constructor
  · intro hno pre e post hpost parent full hcall hfound path since htries hres
    have husb := (hτ pre e post hpost parent full hcall hfound path since htries).mpr hres
    rw [hno pre e post hpost parent full hcall hfound path since htries] at husb
    cases husb
  · intro hno pre e post hpost parent full hcall hfound path since htries
    apply Bool.eq_false_iff.mpr
    intro husb
    exact hno pre e post hpost parent full hcall hfound path since htries
      ((hτ pre e post hpost parent full hcall hfound path since htries).mp husb)

/-- With a payload in boot partition 1, no USB path gets to LoadImage from the boot loop exactly
when no short-form path tried there resolves to a handle behind USB. -/
theorem usb_filter_iff (self : SreBootManager) (arch : TargetArch) (fuel : ℕ) (image : Handle)
    (env : FirmwareEnv) :
    NoUsbLoaded ((self.execute arch fuel image).run.run env []).1 ↔
      NoUsbResolution ((self.execute arch fuel image).run.run env []).1 :=
  noUsbLoaded_iff ((execute_meets self arch fuel image).guarded env)

end Resolution

/-! Boot0000 is the short form of a partition that the handle database has behind a USB port. -/

def partitionNode : Node :=
  ⟨typeMedia, mediaHardDrive,
    leBytes 1 ++ List.replicate 16 0 ++ List.replicate 16 7 ++ [2, 2]⟩

def shortForm : DevicePath := [partitionNode, endEntire]

def usbPartition : DevicePath :=
  [⟨typeAcpi, 1, List.replicate 8 0⟩, ⟨typeMessaging, messagingUsb, [1, 0]⟩, partitionNode, endEntire]

def loadOption (path : DevicePath) : Bytes :=
  [1, 0, 0, 0, UInt8.ofNat (asBytes path).length, 0, 65, 0, 0, 0] ++ asBytes path

def payloadPlatform : Platform where
  nvram
    | .bootOrder => .ok [0, 0]
    | .bootOption _ => .ok (loadOption shortForm)
    | _ => .error efiNotFound
  volumes := [asBytes usbPartition]
  head := List.replicate 510 0 ++ [0x55, 0xAA]

def fallbackManager : SreBootManager where
  mainOsPath := [endEntire]
  bpSreFallback := true

def isPayloadNote : Call → Bool
  | .note (.bpHasSrePayload found) => found
  | _ => false

def isOptionAttempt : Call → Bool
  | .note (.bootAttempt .bootOption (some _)) => true
  | _ => false

def loadsUsb : Call → Bool
  | .loadImage _ full => devicePathHasUsbNode full
  | _ => false

def isAttempt : Call → Bool
  | .note (.bootAttempt _ _) => true
  | _ => false

theorem isAttempt_iff (c : Call) : isAttempt c = true ↔ IsAttempt c := by
  cases c with
  | note n => cases n <;> simp [isAttempt, IsAttempt]
  | _ => simp [isAttempt, IsAttempt]

instance (c : Call) : Decidable (IsAttempt c) := decidable_of_iff _ (isAttempt_iff c)

/-- The event `n` hands a USB path to LoadImage for a Boot#### entry, with the payload known. -/
def violates (τ : FirmwareTrace) (n : ℕ) : Bool :=
  (τ.take n).any (fun e => isPayloadNote e.call) &&
    (lastMark IsAttempt (τ.take n)).any (fun x => isOptionAttempt x.1.call) &&
    (τ[n]?).any fun e => loadsUsb e.call

theorem not_noUsbLoaded {τ : FirmwareTrace} {n : ℕ} (hn : violates τ n = true) :
    ¬NoUsbLoaded τ := by
  simp only [violates] at hn
  obtain ⟨⟨hpayload, hoption⟩, hload⟩ : (_ ∧ _) ∧ _ := by
    rwa [Bool.and_eq_true, Bool.and_eq_true] at hn
  obtain ⟨note, hnote, hpayload⟩ := List.any_eq_true.mp hpayload
  obtain ⟨⟨mark, post⟩, hmark, hoption⟩ := (Option.any_eq_true _ _).mp hoption
  obtain ⟨e, he, hload⟩ := (Option.any_eq_true _ _).mp hload
  have hsplit : τ = τ.take n ++ e :: τ.drop (n + 1) := by
    obtain ⟨hlt, rfl⟩ := List.getElem?_eq_some_iff.mp he
    rw [List.getElem_cons_drop, List.take_append_drop]
  obtain ⟨parent, full, hcall, husb⟩ : ∃ parent full, e.call = .loadImage parent full ∧
      devicePathHasUsbNode full = true := by
    simp only [loadsUsb] at hload
    split at hload
    next parent full hcall => exact ⟨parent, full, hcall, hload⟩
    next => cases hload
  obtain ⟨path, hattempt⟩ : ∃ path, mark.call = .note (.bootAttempt .bootOption (some path)) := by
    dsimp only at hoption
    simp only [isOptionAttempt] at hoption
    split at hoption
    next path hcall => exact ⟨path, hcall⟩
    next => cases hoption
  have hfound : note.call = .note (.bpHasSrePayload true) := by
    simp only [isPayloadNote] at hpayload
    split at hpayload
    next found hcall => rw [hcall, hpayload]
    next => cases hpayload
  intro hno
  have hclean := hno _ e _ hsplit parent full hcall ⟨note, hnote, hfound⟩ path post
    ⟨mark, .bootOption, sinceLast_of_lastMark hmark, hattempt, trivial⟩
  rw [hclean] at husb
  cases husb

section Counterexample

local instance : PatinaDevicePath := specDevicePath

theorem short_form_usb_loaded :
    ¬NoUsbLoaded ((fallbackManager.execute .x86_64 1 0).run.run payloadPlatform.env []).1 := by
  have hreached : (List.range 40).any (violates
      ((fallbackManager.execute .x86_64 1 0).run.run payloadPlatform.env []).1) = true := by
    decide +kernel
  obtain ⟨n, -, hn⟩ := List.any_eq_true.mp hreached
  exact not_noUsbLoaded hn

end Counterexample

end PatinaUsbFilter
