import OdpPlatform.PatinaUsbFilter

/-! # When SreBootManager gives up

`execute` ends in NotFound once both passes are through. Whether the second pass consulted the
filesystem fallback depends on what Boot#### discovery found behind the full connect. -/
namespace PatinaFallbackReached

open ByteBuffer DevicePathNodes InteractionProgram InteractionContract InteractionHistory
open FirmwareServices PatinaBootHelpers PatinaBootOptions PatinaBootCalls PatinaLockOrder
open PatinaReadyToBoot PatinaUsbFilter PatinaSreBootManager PatinaBpLogPage
open PatinaBpRecovery

def isFullConnect : Call → Bool
  | .note .fullConnect => true
  | _ => false

def isConsult : Call → Bool
  | .note (.fallbackOptions _) => true
  | _ => false

def IsFullConnect (c : Call) : Prop := isFullConnect c = true

instance : DecidablePred IsFullConnect := fun c => inferInstanceAs (Decidable (isFullConnect c = true))

def Handed (post : FirmwareTrace) (candidate : DevicePath) : Prop :=
  ∃ x ∈ post, x.call = .note (.bootAttempt .fallbackCandidate (some candidate))

/-- The fallback was consulted behind the full connect of pass 1, and each candidate that it ever
returned was handed on, but for USB candidates while BP1 holds a payload. -/
def FallbackExhausted (τ : FirmwareTrace) : Prop :=
  (∃ e post, SinceLast IsFullConnect τ e post ∧ ∃ x ∈ post, isConsult x.call = true) ∧
    ∀ pre e post candidates, τ = pre ++ e :: post →
      e.call = .note (.fallbackOptions candidates) → ∀ candidate ∈ candidates,
        (PayloadFound τ ∧ devicePathHasUsbNode candidate = true) ∨ Handed post candidate

def Skipped (bpHasSre : Bool) (path : DevicePath) : Prop :=
  bpHasSre = true ∧ (devicePathHasUsbNode path = true ∨ devicePathHasFwFileNode path = true)

/-- Boot#### discovery, as the variables are behind the full connect, yields no path but those
that the payload filter skips. -/
def NothingLeftToTry [PatinaDevicePath] (env : FirmwareEnv) (τ : FirmwareTrace) : Prop :=
  ∀ pre e post, SinceLast IsFullConnect τ e post → τ = pre ++ e :: post →
    ∀ config, (discoverBootOptions.run.run env (pre ++ [e])).2 = some (.ok config) →
      ∀ path ∈ config.devices, PayloadFound pre ∧
        (devicePathHasUsbNode path = true ∨ devicePathHasFwFileNode path = true)

def Plain : Call → Prop
  | .note .fullConnect | .note (.fallbackOptions _) | .note (.bpHasSrePayload _) => False
  | _ => True

theorem BootCall.plain {c : Call} (hc : BootCall c) : Plain c := by
  cases c with
  | note n => exact hc.elim
  | _ => trivial

theorem QuietCall.plain {c : Call} (hc : QuietCall c) : Plain c := BootCall.plain hc.bootCall

theorem NoBoot.plain {c : Call} (hc : NoBoot c) : Plain c := by
  cases c with
  | note n => exact hc.elim
  | _ => trivial

theorem Plain.not_fullConnect {c : Call} (hc : Plain c) : ¬IsFullConnect c := by
  intro hf
  cases c with
  | note n => cases n <;> first | exact hc | cases hf
  | _ => cases hf

theorem Plain.not_consult {c : Call} (hc : Plain c) : isConsult c = false := by
  cases c with
  | note n => cases n <;> first | exact hc.elim | rfl
  | _ => rfl

def HandedBut (bpHasSre : Bool) (rest : List DevicePath) (h : FirmwareTrace) : Prop :=
  ∀ pre e post candidates, h = pre ++ e :: post → e.call = .note (.fallbackOptions candidates) →
    ∀ candidate ∈ candidates, (bpHasSre = true ∧ devicePathHasUsbNode candidate = true) ∨
      Handed post candidate ∨ candidate ∈ rest

theorem Handed.snoc {post : FirmwareTrace} {candidate : DevicePath} (hh : Handed post candidate)
    (x : Event Answer) : Handed (post ++ [x]) candidate := by
  obtain ⟨y, hy, hcall⟩ := hh
  exact ⟨y, List.mem_append_left _ hy, hcall⟩

variable {bpHasSre : Bool} {rest : List DevicePath} {h : FirmwareTrace}

theorem handedBut_of_plain (hall : ∀ e ∈ h, Plain e.call) : HandedBut bpHasSre rest h := by
  rintro pre e post candidates rfl hcall
  have hplain := hall e (by simp)
  rw [hcall] at hplain
  exact hplain.elim

theorem HandedBut.snoc {x : Event Answer} (hh : HandedBut bpHasSre rest h)
    (hx : isConsult x.call = false) : HandedBut bpHasSre rest (h ++ [x]) := by
  intro pre e post candidates hsplit hcall candidate hcandidate
  rcases split_snoc hsplit with ⟨-, rfl, -⟩ | ⟨post', rfl, hpre⟩
  · rw [hcall] at hx
    cases hx
  · rcases hh pre e post' candidates hpre hcall candidate hcandidate with hskip | hhanded | hrest
    · exact .inl hskip
    · exact .inr (.inl (hhanded.snoc x))
    · exact .inr (.inr hrest)

theorem HandedBut.consult {candidates : List DevicePath} {a : Option Unit}
    (hh : HandedBut bpHasSre [] h) :
    HandedBut bpHasSre candidates (h ++ [⟨.note (.fallbackOptions candidates), a⟩]) := by
  intro pre e post others hsplit hcall candidate hcandidate
  rcases split_snoc hsplit with ⟨-, rfl, -⟩ | ⟨post', rfl, hpre⟩
  · cases hcall
    exact .inr (.inr hcandidate)
  · rcases hh pre e post' others hpre hcall candidate hcandidate with hskip | hhanded | hrest
    · exact .inl hskip
    · exact .inr (.inl (hhanded.snoc _))
    · cases hrest

theorem HandedBut.attempt {candidate : DevicePath} {a : Option Unit}
    (hh : HandedBut bpHasSre (candidate :: rest) h) :
    HandedBut bpHasSre rest
      (h ++ [⟨.note (.bootAttempt .fallbackCandidate (some candidate)), a⟩]) := by
  intro pre e post others hsplit hcall other hother
  rcases split_snoc hsplit with ⟨-, rfl, -⟩ | ⟨post', rfl, hpre⟩
  · cases hcall
  · rcases hh pre e post' others hpre hcall other hother with hskip | hhanded | hrest
    · exact .inl hskip
    · exact .inr (.inl (hhanded.snoc _))
    · rcases List.mem_cons.mp hrest with rfl | hrest
      · exact .inr (.inl ⟨_, List.mem_append_right _ List.mem_cons_self, rfl⟩)
      · exact .inr (.inr hrest)

theorem HandedBut.skip {candidate : DevicePath} (hh : HandedBut bpHasSre (candidate :: rest) h)
    (hskip : bpHasSre = true ∧ devicePathHasUsbNode candidate = true) :
    HandedBut bpHasSre rest h := by
  intro pre e post others hsplit hcall other hother
  rcases hh pre e post others hsplit hcall other hother with hskip' | hhanded | hrest
  · exact .inl hskip'
  · exact .inr (.inl hhanded)
  · rcases List.mem_cons.mp hrest with rfl | hrest
    · exact .inl hskip
    · exact .inr (.inr hrest)

def ProgressBut (bpHasSre : Bool) (rest : List DevicePath) (h : FirmwareTrace) : Prop :=
  (PayloadFound h ↔ bpHasSre = true) ∧ HandedBut bpHasSre rest h

theorem not_payloadFound_of_plain (hall : ∀ e ∈ h, Plain e.call) : ¬PayloadFound h := by
  rintro ⟨e, he, hcall⟩
  have hplain := hall e he
  rw [hcall] at hplain
  exact hplain

theorem payloadFound_snoc_iff {c : Call} {r : Option (Answer c)}
    (hc : c ≠ .note (.bpHasSrePayload true)) : PayloadFound (h ++ [⟨c, r⟩]) ↔ PayloadFound h := by
  constructor
  · exact payloadFound_snoc hc
  · rintro ⟨e, he, hcall⟩
    exact ⟨e, List.mem_append_left _ he, hcall⟩

theorem ProgressBut.snoc {c : Call} {r : Option (Answer c)} (hi : ProgressBut bpHasSre rest h)
    (hc : c ≠ .note (.bpHasSrePayload true)) (hconsult : isConsult c = false) :
    ProgressBut bpHasSre rest (h ++ [⟨c, r⟩]) :=
  ⟨(payloadFound_snoc_iff hc).trans hi.1, hi.2.snoc hconsult⟩

theorem plain_keeps {α : Type} {p : Firmware α} (hp : Only Plain p) :
    Keeps .free (ProgressBut bpHasSre rest) p := by
  apply hp.keeps
  · intro _ _ _ _
    trivial
  · intro h c r hi hc
    apply hi.snoc _ hc.not_consult
    rintro rfl
    exact hc

def Consulted (h h' : FirmwareTrace) : Prop := ∃ τ, h' = h ++ τ ∧ ∃ x ∈ τ, isConsult x.call = true

theorem Consulted.mono {h₁ h₂ h₃ h₄ : FirmwareTrace} (hc : Consulted h₂ h₃) (hstart : h₁ <+: h₂)
    (hend : h₃ <+: h₄) : Consulted h₁ h₄ := by
  obtain ⟨τ, rfl, x, hx, hcall⟩ := hc
  obtain ⟨before, rfl⟩ := hstart
  obtain ⟨after, rfl⟩ := hend
  refine ⟨before ++ τ ++ after, by simp, x, ?_, hcall⟩
  exact List.mem_append_left _ (List.mem_append_right _ hx)

theorem not_consulted_append {τ : FirmwareTrace} (hall : ∀ e ∈ τ, Plain e.call) :
    ¬Consulted h (h ++ τ) := by
  rintro ⟨σ, hsame, x, hx, hcall⟩
  cases List.append_cancel_left hsame
  rw [(hall x hx).not_consult] at hcall
  cases hcall

abbrev lockStep (self : SreBootManager) (fuel : ℕ) : FirmwareE LockedBoot :=
  runPreLockPhase self.dfciBdsSignal (self.preLockWork fuel) enterLockedBoot

theorem plain_lockStep (self : SreBootManager) (fuel : ℕ) : Only Plain (lockStep self fuel).run := by
  rw [lockStep, run_preLockPhase]
  apply ((only_beforeLock_preLock self fuel).mono fun _ hc => NoBoot.plain hc.1).bind
  intro _
  exact only_enterLockedBoot.mono fun _ => NoBoot.plain

theorem probePayload_progress (self : SreBootManager) (hall : ∀ e ∈ h, Plain e.call) :
    Meets .free (fun h' bpHasSre => ProgressBut bpHasSre [] h') self.probePayload h := by
  unfold SreBootManager.probePayload
  split
  · have hplain : Only Plain bpHasSrePayload := only_bpHasSrePayload.mono fun _ => QuietCall.plain
    have hkeep : Keeps .free (fun h' : FirmwareTrace => ∀ e ∈ h', Plain e.call) bpHasSrePayload := by
      apply hplain.keeps
      · intro _ _ _ _
        trivial
      · intro h' c r hi hc e he
        rcases List.mem_append.mp he with he | he
        · exact hi e he
        · cases List.mem_singleton.mp he
          exact hc
    apply (hkeep h hall).bind
    intro h' found _ hall'
    refine ⟨trivial, fun a _ => ⟨?_, (handedBut_of_plain hall').snoc rfl⟩⟩
    constructor
    · rintro ⟨e, he, hcall⟩
      rcases List.mem_append.mp he with he | he
      · exact absurd ⟨e, he, hcall⟩ (not_payloadFound_of_plain hall')
      · cases List.mem_singleton.mp he
        injection hcall with hnote
        injection hnote
    · rintro rfl
      exact ⟨_, List.mem_append_right _ List.mem_cons_self, rfl⟩
  · exact ⟨iff_of_false (not_payloadFound_of_plain hall) nofun, handedBut_of_plain hall⟩

theorem exhausted_iff {τ post : FirmwareTrace} {e : Event Answer}
    (hmark : SinceLast IsFullConnect τ e post) (hi : ProgressBut bpHasSre [] τ) :
    FallbackExhausted τ ↔ ∃ x ∈ post, isConsult x.call = true := by
  constructor
  · rintro ⟨⟨e', post', hmark', hconsult⟩, -⟩
    obtain ⟨-, rfl⟩ := hmark.unique hmark'
    exact hconsult
  · intro hconsult
    refine ⟨⟨e, post, hmark, hconsult⟩, ?_⟩
    intro pre x after candidates hsplit hcall candidate hcandidate
    rcases hi.2 pre x after candidates hsplit hcall candidate hcandidate with hskip | hhanded | hrest
    · exact .inl ⟨hi.1.mpr hskip.1, hskip.2⟩
    · exact .inr hhanded
    · cases hrest

theorem nothingLeft_iff [PatinaDevicePath] {env : FirmwareEnv} {τ pre post : FirmwareTrace}
    {e : Event Answer} (hmark : SinceLast IsFullConnect τ e post) (hτ : τ = pre ++ e :: post)
    (hfound : PayloadFound pre ↔ bpHasSre = true) :
    NothingLeftToTry env τ ↔
      ∀ config, (discoverBootOptions.run.run env (pre ++ [e])).2 = some (.ok config) →
        ∀ path ∈ config.devices, Skipped bpHasSre path := by
  simp only [Skipped]
  rw [← hfound]
  constructor
  · intro hnothing
    exact hnothing pre e post hmark hτ
  · intro hall pre' e' post' hmark' hτ'
    obtain ⟨rfl, rfl⟩ := hmark.unique hmark'
    cases List.append_cancel_right (hτ.symm.trans hτ')
    exact hall

section Execute

variable [PatinaDevicePath] {self : SreBootManager} {arch : TargetArch} {lockedBoot : LockedBoot}
  {image : Handle}

theorem plain_signalAndBoot (site : DispatchSite) (path : DevicePath) :
    Only Plain (signalAndBoot lockedBoot image site path) := by
  have hsignal : Only Plain signalReadyToBoot.run :=
    only_signalGroup .readyToBoot trivial (fun _ => trivial) fun _ => trivial
  apply (only_logError hsignal).bind
  intro _
  apply only_ask_bind trivial
  intro _
  exact (only_dispatch lockedBoot image path).mono fun _ => BootCall.plain

theorem plain_recover : Only Plain (logError (runSreFlow arch lockedBoot image)) :=
  (only_recover arch lockedBoot image).mono fun _ => BootCall.plain

theorem plain_bootOption (triedAny : Bool) (path : DevicePath) :
    Only Plain (bootOption lockedBoot image bpHasSre triedAny path) := by
  simp only [bootOption]
  split
  · trivial
  · split
    · trivial
    · exact (plain_signalAndBoot .bootOption path).bind fun _ => trivial

theorem plain_bootOptions : Only Plain (bootOptions lockedBoot image bpHasSre) := by
  apply (only_discoverBootOptions.mono fun _ => QuietCall.plain).bind
  intro r
  cases r with
  | error e => trivial
  | ok config => exact Only.foldlM plain_bootOption config.devices false

theorem plain_lastResort : Only Plain (lastResort arch lockedBoot image bpHasSre) := by
  simp only [lastResort]
  split
  · exact only_ask_bind trivial fun _ => plain_recover
  · trivial

theorem plain_hotkeyPhase : Only Plain (self.hotkeyPhase arch lockedBoot image) := by
  apply hotkeyPhase_rule (composes_only Plain) (fun hp => hp.mono fun _ => QuietCall.plain)
  · intro site _ path
    exact plain_signalAndBoot site path
  · have hsignal : Only Plain signalReadyToBoot.run :=
      only_signalGroup .readyToBoot trivial (fun _ => trivial) fun _ => trivial
    apply (only_logError hsignal).bind
    intro _
    exact only_ask_bind trivial fun _ => plain_recover

theorem bootCandidate_meets {candidate : DevicePath} (u : Unit)
    (hi : ProgressBut bpHasSre (candidate :: rest) h) :
    Meets .free (fun h' _ => ProgressBut bpHasSre rest h')
      (bootCandidate lockedBoot image bpHasSre u candidate) h := by
  simp only [bootCandidate]
  split
  next hskip => exact ⟨hi.1, hi.2.skip hskip⟩
  next =>
    refine ⟨trivial, fun r _ => ?_⟩
    apply plain_keeps ((only_dispatch lockedBoot image candidate).mono fun _ => BootCall.plain)
    exact ⟨(payloadFound_snoc_iff (by rintro ⟨⟩)).trans hi.1, hi.2.attempt⟩

theorem bootMainOs_meets (hi : ProgressBut bpHasSre [] h) :
    Meets .free (fun h' _ => ProgressBut bpHasSre [] h' ∧ Consulted h h')
      (self.bootMainOs arch lockedBoot image bpHasSre) h := by
  apply (plain_keeps (plain_signalAndBoot .mainOs self.mainOsPath) h hi).bind
  intro h₁ _ hh₁ hi₁
  have hplain := (only_fallbackBootOptions arch self.bootSourcePolicy).mono fun _ => QuietCall.plain
  apply (plain_keeps hplain h₁ hi₁).bind
  intro h₂ r hh₂ hi₂
  have consulted : ∀ (candidates : List DevicePath) (a : Option Unit),
      Consulted h (h₂ ++ [⟨.note (.fallbackOptions candidates), a⟩]) := by
    intro candidates a
    have hlast : Consulted h₂ (h₂ ++ [⟨.note (.fallbackOptions candidates), a⟩]) :=
      ⟨_, rfl, _, List.mem_cons_self, rfl⟩
    exact hlast.mono (hh₁.trans hh₂) List.prefix_rfl
  cases r with
  | error e =>
    refine ⟨trivial, fun a _ => ⟨?_, consulted [] (some a)⟩⟩
    exact ⟨(payloadFound_snoc_iff (by nofun)).trans hi₂.1, hi₂.2.consult⟩
  | ok candidates =>
    refine ⟨trivial, fun a _ => ?_⟩
    have hloop := Meets.foldlM (K := Contract.free) (f := bootCandidate lockedBoot image bpHasSre)
      (I := fun rest h' _ => ProgressBut bpHasSre rest h')
      (fun candidate rest h' u hi' => bootCandidate_meets u hi') candidates
      (h₂ ++ [⟨.note (.fallbackOptions candidates), some a⟩]) ()
      ⟨(payloadFound_snoc_iff (by nofun)).trans hi₂.1, hi₂.2.consult⟩
    apply hloop.mono
    intro h₃ _ hh₃ hi₃
    exact ⟨hi₃, (consulted candidates (some a)).mono List.prefix_rfl hh₃⟩

variable {env : FirmwareEnv}

theorem bootOption_returns {triedAny tried : Bool} {path : DevicePath} {h' : FirmwareTrace}
    (hrun : (bootOption lockedBoot image bpHasSre triedAny path).run env h = (h', some tried)) :
    tried = true ↔ triedAny = true ∨ ¬Skipped bpHasSre path := by
  simp only [bootOption] at hrun
  simp only [Skipped]
  split at hrun
  next hskip =>
    cases hrun
    simp [hskip]
  next husb =>
    split at hrun
    next hskip =>
      cases hrun
      simp [hskip]
    next hfw =>
      obtain ⟨h₁, _, -, hdone⟩ := Program.run_bind_returns env h hrun
      cases hdone
      have hno : ¬(bpHasSre = true ∧
          (devicePathHasUsbNode path = true ∨ devicePathHasFwFileNode path = true)) := by
        rintro ⟨hb, hu | hf⟩
        · exact husb ⟨hb, hu⟩
        · exact hfw ⟨hb, hf⟩
      simp [hno]

theorem foldlM_bootOption_returns (paths : List DevicePath) :
    ∀ {triedAny tried : Bool} {h h' : FirmwareTrace},
      (paths.foldlM (bootOption lockedBoot image bpHasSre) triedAny).run env h = (h', some tried) →
        (tried = true ↔ triedAny = true ∨ ∃ path ∈ paths, ¬Skipped bpHasSre path) := by
  induction paths with
  | nil =>
    intro triedAny tried h h' hrun
    cases hrun
    simp
  | cons path paths ih =>
    intro triedAny tried h h' hrun
    rw [List.foldlM_cons] at hrun
    obtain ⟨h₁, first, hfirst, hrest⟩ := Program.run_bind_returns env h hrun
    rw [ih hrest, bootOption_returns hfirst]
    simp [or_assoc]

/-- A pass tries an entry exactly when discovery yields one that is not skipped. -/
theorem bootOptions_returns {tried : Bool} {h' : FirmwareTrace}
    (hrun : (bootOptions lockedBoot image bpHasSre).run env h = (h', some tried)) :
    tried = false ↔ ∀ config, (discoverBootOptions.run.run env h).2 = some (.ok config) →
      ∀ path ∈ config.devices, Skipped bpHasSre path := by
  obtain ⟨h₁, r, hdiscover, hrest⟩ := Program.run_bind_returns env h hrun
  rw [hdiscover]
  cases r with
  | error e =>
    cases hrest
    exact iff_of_true rfl nofun
  | ok config =>
    have htried := foldlM_bootOption_returns config.devices hrest
    rw [← Bool.not_eq_true, htried]
    constructor
    · intro hno config' hsame path hpath
      cases hsame
      by_contra hskip
      exact hno (.inr ⟨path, hpath, hskip⟩)
    · rintro hall (hfalse | ⟨path, hpath, hskip⟩)
      · cases hfalse
      · exact hskip (hall config rfl path hpath)

theorem bootPass_keeps :
    Keeps .free (ProgressBut bpHasSre []) (self.bootPass arch lockedBoot image bpHasSre) := by
  have hP := composes_keeps .free (ProgressBut bpHasSre [])
  apply hP.bind (plain_keeps plain_bootOptions)
  intro triedAny
  split
  · intro h hi
    exact (bootMainOs_meets hi).mono fun _ _ _ hpost => hpost.1
  · exact hP.done ()

theorem bootPass_consults {h' : FirmwareTrace} {u : Unit} (hi : ProgressBut bpHasSre [] h)
    (hrun : (self.bootPass arch lockedBoot image bpHasSre).run env h = (h', some u)) :
    Consulted h h' ↔ ∀ config, (discoverBootOptions.run.run env h).2 = some (.ok config) →
      ∀ path ∈ config.devices, Skipped bpHasSre path := by
  obtain ⟨h₁, tried, hoptions, hrest⟩ := Program.run_bind_returns env h hrun
  rw [← bootOptions_returns hoptions]
  have hplain : Only Plain (bootOptions lockedBoot image bpHasSre) := plain_bootOptions
  cases tried with
  | true =>
    cases hrest
    obtain ⟨τ, hτ, hall⟩ := hplain.run env h
    rw [hoptions] at hτ
    cases hτ
    exact iff_of_false (not_consulted_append hall) nofun
  | false =>
    apply iff_of_true _ rfl
    have hi₁ := (plain_keeps hplain h hi).run_free hoptions
    have hprefix := Program.run_prefix env h (bootOptions lockedBoot image bpHasSre)
    rw [hoptions] at hprefix
    exact ((bootMainOs_meets hi₁).run_free hrest).2.mono hprefix List.prefix_rfl

/-- Behind the full connect there is no other. -/
theorem notFullConnect_secondPass :
    Only (fun c => ¬IsFullConnect c) (self.bootPass arch lockedBoot image bpHasSre >>= fun _ =>
      lastResort arch lockedBoot image bpHasSre) := by
  have lift : ∀ {α : Type} {p : Firmware α}, Only Plain p → Only (fun c => ¬IsFullConnect c) p :=
    fun hp => hp.mono fun _ => Plain.not_fullConnect
  apply Only.bind
  · apply bootPass_rule (composes_only _) (fun hp => lift (hp.mono fun _ => QuietCall.plain))
    · intro candidates
      exact (only_call _).mpr Bool.false_ne_true
    · intro triedAny path
      exact lift (plain_bootOption triedAny path)
    · exact lift (plain_signalAndBoot .mainOs self.mainOsPath)
    · intro u path
      simp only [bootCandidate]
      split
      · trivial
      · apply only_ask_bind Bool.false_ne_true
        intro _
        exact lift ((only_dispatch lockedBoot image path).mono fun _ => BootCall.plain)
  · intro _
    exact lift plain_lastResort

theorem normalBoot_exhausted_iff {τ : FirmwareTrace} {u : Unit} (hi : ProgressBut bpHasSre [] h)
    (hrun : (self.normalBoot arch lockedBoot image bpHasSre).run env h = (τ, some u)) :
    FallbackExhausted τ ↔ NothingLeftToTry env τ := by
  obtain ⟨h₁, _, hfirst, hrun⟩ := Program.run_bind_returns env h hrun
  obtain ⟨h₂, _, hconnect, hrun⟩ := Program.run_bind_returns env h₁ hrun
  obtain ⟨a, -, hrun⟩ := Program.run_ask_returns env h₂ hrun
  change (self.bootPass arch lockedBoot image bpHasSre >>= fun _ =>
    lastResort arch lockedBoot image bpHasSre).run env _ = (τ, some u) at hrun
  have hplain : Only Plain (logError connectAll) :=
    (only_logError only_connectAll).mono fun _ => QuietCall.plain
  have hi₁ := (bootPass_keeps h hi).run_free hfirst
  have hi₂ := (plain_keeps hplain h₁ hi₁).run_free hconnect
  have hi₃ : ProgressBut bpHasSre [] (h₂ ++ [⟨.note .fullConnect, some a⟩]) :=
    hi₂.snoc (by nofun) rfl
  have hno : Only (fun c => ¬IsFullConnect c) (self.bootPass arch lockedBoot image bpHasSre >>=
    fun _ => lastResort arch lockedBoot image bpHasSre) := notFullConnect_secondPass
  obtain ⟨after, hafter, hnone⟩ := hno.run env (h₂ ++ [⟨.note .fullConnect, some a⟩])
  rw [hrun] at hafter
  dsimp only at hafter
  have hτ : τ = h₂ ++ ⟨.note .fullConnect, some a⟩ :: after := by
    rw [hafter, List.append_assoc]
    rfl
  have hmark : SinceLast IsFullConnect τ ⟨.note .fullConnect, some a⟩ after :=
    ⟨rfl, ⟨h₂, hτ⟩, hnone⟩
  obtain ⟨h₄, _, hsecond, hlast⟩ := Program.run_bind_returns env _ hrun
  have hplainLast : Only Plain (lastResort arch lockedBoot image bpHasSre) := plain_lastResort
  have hi₄ := (bootPass_keeps _ hi₃).run_free hsecond
  have hi₅ := (plain_keeps hplainLast h₄ hi₄).run_free hlast
  obtain ⟨tail, htail, hallTail⟩ := hplainLast.run env h₄
  rw [hlast] at htail
  have hpass := bootPass_consults hi₃ hsecond
  have hbehind : Consulted (h₂ ++ [⟨.note .fullConnect, some a⟩]) h₄ ↔
      ∃ x ∈ after, isConsult x.call = true := by
    constructor
    · rintro ⟨σ, hσ, x, hx, hconsult⟩
      rw [hσ, List.append_assoc] at htail
      cases List.append_cancel_left (hafter.symm.trans htail)
      exact ⟨x, List.mem_append_left _ hx, hconsult⟩
    · rintro ⟨x, hx, hconsult⟩
      obtain ⟨σ, hσ⟩ := Program.run_prefix env (h₂ ++ [⟨.note .fullConnect, some a⟩])
        (self.bootPass arch lockedBoot image bpHasSre)
      rw [hsecond] at hσ
      dsimp only at hσ htail
      rw [← hσ, List.append_assoc] at htail
      cases List.append_cancel_left (hafter.symm.trans htail)
      rcases List.mem_append.mp hx with hx | hx
      · exact ⟨σ, hσ.symm, x, hx, hconsult⟩
      · rw [(hallTail x hx).not_consult] at hconsult
        cases hconsult
  rw [exhausted_iff hmark hi₅, ← hbehind, hpass, nothingLeft_iff hmark hτ hi₂.1]

theorem boot_exhausted_iff {τ : FirmwareTrace} {u : Unit} (hall : ∀ e ∈ h, Plain e.call)
    (hrun : (self.boot arch lockedBoot image).run env h = (τ, some u)) :
    FallbackExhausted τ ↔ NothingLeftToTry env τ := by
  obtain ⟨h₁, _, hhotkey, hbehind⟩ := Program.run_bind_returns env h hrun
  obtain ⟨h₂, bpHasSre, hprobe, hnormal⟩ := Program.run_bind_returns env h₁ hbehind
  have hplain : Only Plain (self.hotkeyPhase arch lockedBoot image) := plain_hotkeyPhase
  obtain ⟨σ, hσ, hallσ⟩ := hplain.run env h
  rw [hhotkey] at hσ
  dsimp only at hσ
  have hall₁ : ∀ e ∈ h₁, Plain e.call := by
    intro e he
    rw [hσ] at he
    rcases List.mem_append.mp he with he | he
    · exact hall e he
    · exact hallσ e he
  exact normalBoot_exhausted_iff ((probePayload_progress self hall₁).run_free hprobe) hnormal

/-- Where `execute` gives up behind the lock, the fallback was exhausted exactly when Boot####
discovery left nothing to try in the second pass. -/
theorem fallback_exhausted_iff (self : SreBootManager) (arch : TargetArch) (fuel : ℕ)
    (image : Handle) (env : FirmwareEnv) {τ locked : FirmwareTrace} {lockedBoot : LockedBoot}
    (hlock : (lockStep self fuel).run.run env [] = (locked, some (.ok lockedBoot)))
    (hrun : (self.execute arch fuel image).run.run env [] = (τ, some (.error .notFound))) :
    FallbackExhausted τ ↔ NothingLeftToTry env τ := by
  have hplain : Only Plain (lockStep self fuel).run := plain_lockStep self fuel
  obtain ⟨σ, hσ, hall⟩ := hplain.run env []
  rw [hlock] at hσ
  cases hσ
  rw [SreBootManager.execute, ExceptT.run_bind, Program.run_bind_some env [] hlock] at hrun
  dsimp only at hrun
  rw [Program.run_lift_bind] at hrun
  obtain ⟨h₁, u, hboot, hdone⟩ := Program.run_bind_returns env _ hrun
  cases hdone
  exact boot_exhausted_iff hall hboot

end Execute

/-! Boot0000 is active and leads nowhere, so both passes count it as tried. -/

def gaveUp : Option (Except EfiError Empty) → Bool
  | some (.error e) => e = .notFound
  | _ => false

def entered : Option (Except EfiError LockedBoot) → Bool
  | some (.ok _) => true
  | _ => false

theorem gaveUp_iff {r : Option (Except EfiError Empty)} (hr : gaveUp r = true) :
    r = some (.error .notFound) := by
  match r, hr with
  | some (.error e), hr => rw [of_decide_eq_true hr]

theorem entered_iff {r : Option (Except EfiError LockedBoot)} (hr : entered r = true) :
    ∃ lockedBoot, r = some (.ok lockedBoot) := by
  match r, hr with
  | some (.ok lockedBoot), _ => exact ⟨lockedBoot, rfl⟩

/-- No consultation after the last full connect. -/
def unconsulted (τ : FirmwareTrace) : Bool :=
  (lastMark IsFullConnect τ).any fun x => x.2.all fun e => !isConsult e.call

theorem not_exhausted {τ : FirmwareTrace} (hτ : unconsulted τ = true) : ¬FallbackExhausted τ := by
  obtain ⟨⟨mark, post⟩, hmark, hall⟩ := (Option.any_eq_true _ _).mp hτ
  rintro ⟨⟨e, post', hmark', x, hx, hconsult⟩, -⟩
  obtain ⟨-, rfl⟩ := (sinceLast_of_lastMark hmark).unique hmark'
  have hno := List.all_eq_true.mp hall x hx
  rw [hconsult] at hno
  cases hno

def stalePlatform : Platform where
  nvram
    | .bootOrder => .ok [0, 0]
    | .bootOption _ => .ok (loadOption [⟨typeHardware, 1, [0, 0]⟩, endEntire])
    | .secureBoot => .ok [1]
    | .setupMode => .ok [0]
    | _ => .error efiNotFound
  volumes := [asBytes [⟨typeMessaging, messagingUsb, [1, 0]⟩, endEntire]]

section Counterexample

local instance : PatinaDevicePath := specDevicePath

theorem stale_runs :
    entered ((lockStep removableMediaManager 1).run.run stalePlatform.env []).2 = true ∧
      gaveUp ((removableMediaManager.execute .x86_64 1 0).run.run stalePlatform.env []).2 = true := by
  constructor
  · decide +kernel
  · decide +kernel

theorem fallback_exhausted_iff_stale :
    FallbackExhausted ((removableMediaManager.execute .x86_64 1 0).run.run stalePlatform.env []).1 ↔
      NothingLeftToTry stalePlatform.env
        ((removableMediaManager.execute .x86_64 1 0).run.run stalePlatform.env []).1 := by
  obtain ⟨lockedBoot, hlock⟩ := entered_iff stale_runs.1
  have hgave := gaveUp_iff stale_runs.2
  exact fallback_exhausted_iff removableMediaManager .x86_64 1 0 stalePlatform.env
    (Prod.ext rfl hlock) (Prod.ext rfl hgave)

theorem stale_entry_hides_fallback :
    (∃ lockedBoot, ((lockStep removableMediaManager 1).run.run stalePlatform.env []).2 =
        some (.ok lockedBoot)) ∧
      ((removableMediaManager.execute .x86_64 1 0).run.run stalePlatform.env []).2 =
        some (.error .notFound) ∧
      ¬FallbackExhausted
        ((removableMediaManager.execute .x86_64 1 0).run.run stalePlatform.env []).1 := by
  refine ⟨entered_iff stale_runs.1, gaveUp_iff stale_runs.2, not_exhausted ?_⟩
  decide +kernel

end Counterexample

end PatinaFallbackReached
