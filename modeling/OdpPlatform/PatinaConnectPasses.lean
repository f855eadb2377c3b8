import OdpPlatform.InteractionHistory
import OdpPlatform.PatinaBootHelpers
import Mathlib.Data.List.Nodup
import Mathlib.Data.List.Count

/-! # The passes of connect_all and connect_all_skip_usb

What a run of either loop does, whatever handles each enumeration returns: the laws are about the
history of a run, so they cover handles that come and go because of the connects. -/
namespace PatinaConnectPasses

open InteractionProgram InteractionContract InteractionHistory FirmwareServices PatinaBootHelpers

def connectOf (e : Event Answer) : Option Handle :=
  match e.call with
  | .connectController handle _ => some handle
  | _ => none

def connects (τ : FirmwareTrace) : List Handle := τ.filterMap connectOf

def IsEnumeration : Call → Prop
  | .locateHandleBuffer _ => True
  | _ => False

instance : DecidablePred IsEnumeration := fun c => by
  cases c <;> first | exact isTrue trivial | exact isFalse id

def enumerations (τ : FirmwareTrace) : ℕ := τ.countP fun e => decide (IsEnumeration e.call)

def enumeration (a : Option (Except Status (List Handle))) : Event Answer :=
  ⟨.locateHandleBuffer .allHandle, a⟩

def classCode (value : UInt32) : UInt32 :=
  (((value >>> 24) &&& 0xff) <<< 8) ||| ((value >>> 16) &&& 0xff)

def ReadUsbHostClass (τ : FirmwareTrace) (handle : Handle) : Prop :=
  ∃ pre pci value post,
    τ = pre ++ ⟨.handleProtocol handle .pciIo, some (.ok pci)⟩ ::
      ⟨.pciConfigRead pci, some (.success, value)⟩ :: post ∧ classCode value = 0x0c03

def LastEnumeration (τ : FirmwareTrace) (handles : List Handle) (post : FirmwareTrace) : Prop :=
  SinceLast IsEnumeration τ (enumeration (some (.ok handles))) post

/-- What a run of a connect loop with history `τ` and result `x` did; `Skipped` says which
handles the loop passed over. -/
structure ConnectLaw (limit : ℕ) (recursive : Bool) (Skipped : FirmwareTrace → Handle → Prop)
    (τ : FirmwareTrace) (x : Option (Except EfiError Unit)) : Prop where
  once : (connects τ).Nodup
  limited : enumerations τ ≤ limit
  mode : ∀ handle r a, (⟨.connectController handle r, a⟩ : Event Answer) ∈ τ → r = recursive
  passedOver : ∀ handle, Skipped τ handle → handle ∉ connects τ
  stopped : x = some (.ok ()) → enumerations τ < limit →
    ∃ handles post, LastEnumeration τ handles post ∧ connects post = []
  complete : x = some (.ok ()) → ∀ handles post, LastEnumeration τ handles post →
    connects post = [] → ∀ handle ∈ handles, handle ∈ connects τ ∨ Skipped τ handle
  error : ∀ pre s post, τ = pre ++ enumeration (some (.error s)) :: post →
    post = [] ∧ x = some (.error ⟨s⟩)

@[simp] theorem connects_append (τ ρ : FirmwareTrace) :
    connects (τ ++ ρ) = connects τ ++ connects ρ := List.filterMap_append

@[simp] theorem connects_nil : connects [] = [] := rfl

@[simp] theorem enumerations_append (τ ρ : FirmwareTrace) :
    enumerations (τ ++ ρ) = enumerations τ + enumerations ρ := List.countP_append

def Quiet (ρ : FirmwareTrace) : Prop :=
  ∀ e ∈ ρ, connectOf e = none ∧ ¬IsEnumeration e.call

theorem quiet_nil : Quiet [] := fun _ he => absurd he List.not_mem_nil

theorem Quiet.connects {ρ : FirmwareTrace} (hρ : Quiet ρ) : connects ρ = [] :=
  List.filterMap_eq_nil_iff.mpr fun e he => (hρ e he).1

theorem Quiet.enumerations {ρ : FirmwareTrace} (hρ : Quiet ρ) : enumerations ρ = 0 := by
  apply List.countP_eq_zero.mpr
  intro e he
  simpa using (hρ e he).2

theorem Quiet.snoc {ρ : FirmwareTrace} {e : Event Answer} (hρ : Quiet ρ)
    (he : connectOf e = none ∧ ¬IsEnumeration e.call) : Quiet (ρ ++ [e]) := by
  intro x hx
  rcases List.mem_append.mp hx with hx | hx
  · exact hρ x hx
  · cases List.mem_singleton.mp hx
    exact he

theorem not_mem_connects_of_quiet {ρ : FirmwareTrace} (hρ : Quiet ρ) {handle : Handle} {r : Bool}
    {a : Option (Except Status Unit)} : (⟨.connectController handle r, a⟩ : Event Answer) ∉ ρ := by
  intro he
  cases (hρ _ he).1

theorem not_readUsbHostClass_nil (handle : Handle) : ¬ReadUsbHostClass [] handle := by
  rintro ⟨pre, pci, value, post, hnil, -⟩
  simp at hnil

/-- One more event shows a class only when it is the read of the class register. -/
theorem readUsbHostClass_snoc {τ : FirmwareTrace} {e : Event Answer} {handle : Handle} :
    ReadUsbHostClass (τ ++ [e]) handle ↔ ReadUsbHostClass τ handle ∨
      ∃ pre pci value, τ = pre ++ [⟨.handleProtocol handle .pciIo, some (.ok pci)⟩] ∧
        e = ⟨.pciConfigRead pci, some (.success, value)⟩ ∧ classCode value = 0x0c03 := by
  constructor
  · rintro ⟨pre, pci, value, post, hτ, hvalue⟩
    rw [List.append_cons pre] at hτ
    rcases split_snoc hτ with ⟨rfl, rfl, rfl⟩ | ⟨post', rfl, hshorter⟩
    · exact .inr ⟨pre, pci, value, rfl, rfl, hvalue⟩
    · rw [← List.append_cons pre] at hshorter
      exact .inl ⟨pre, pci, value, post', hshorter, hvalue⟩
  · rintro (⟨pre, pci, value, post, rfl, hvalue⟩ | ⟨pre, pci, value, rfl, rfl, hvalue⟩)
    · exact ⟨pre, pci, value, post ++ [e], by simp, hvalue⟩
    · exact ⟨pre, pci, value, [], by simp, hvalue⟩

theorem readUsbHostClass_snoc_of_ne {τ : FirmwareTrace} {e : Event Answer} {handle : Handle}
    (he : ∀ pci value, e ≠ ⟨.pciConfigRead pci, some (.success, value)⟩) :
    ReadUsbHostClass (τ ++ [e]) handle ↔ ReadUsbHostClass τ handle := by
  rw [readUsbHostClass_snoc]
  constructor
  · rintro (hread | ⟨pre, pci, value, -, rfl, -⟩)
    · exact hread
    · exact absurd rfl (he pci value)
  · exact .inl

/-- The test asks quiet calls only, and afterwards the history shows what it decided. -/
structure SkipTest (skips : Handle → Firmware Bool) (Skipped : FirmwareTrace → Handle → Prop) :
    Prop where
  start : ∀ handle, ¬Skipped [] handle
  other : ∀ τ e handle, connectOf e ≠ none ∨ IsEnumeration e.call →
    (Skipped (τ ++ [e]) handle ↔ Skipped τ handle)
  test : ∀ τ handle, Ends (fun τ' x => ∃ ρ, τ' = τ ++ ρ ∧ Quiet ρ ∧
    ∀ h, Skipped τ' h ↔ Skipped τ h ∨ (h = handle ∧ x = some true)) (skips handle) τ

theorem SkipTest.connect {skips : Handle → Firmware Bool}
    {Skipped : FirmwareTrace → Handle → Prop} (hskip : SkipTest skips Skipped)
    {τ : FirmwareTrace} {handle h : Handle} {r : Bool} {a : Option (Except Status Unit)} :
    Skipped (τ ++ [⟨.connectController handle r, a⟩]) h ↔ Skipped τ h :=
  hskip.other τ ⟨.connectController handle r, a⟩ h (.inl (Option.some_ne_none handle))

theorem skipTest_never : SkipTest (fun _ => pure false) fun _ _ => False where
  start _ := id
  other _ _ _ _ := Iff.rfl
  test τ handle := ⟨[], (List.append_nil τ).symm, quiet_nil, by simp⟩

theorem isUsbHostController_eq (handle : Handle) :
    isUsbHostController handle = .ask (.handleProtocol handle .pciIo) fun r =>
      match r with
      | .error _ => .done false
      | .ok pci => .ask (.pciConfigRead pci) fun answer =>
          .done (decide (answer.1 = .success ∧ classCode answer.2 = 0x0c03)) := by
  simp only [isUsbHostController, pciClass, run_mapErr_bind, Program.call_bind, Program.ask_bind]
  congr 1
  funext r
  cases r with
  | error s => rfl
  | ok pci =>
    simp only [Program.run_lift_bind, Program.call_bind, Program.ask_bind]
    congr 1
    funext answer
    obtain ⟨status, value⟩ := answer
    by_cases hstatus : status = .success
    · simp only [hstatus, ne_eq, not_true_eq_false, if_false, true_and]
      rfl
    · simp only [hstatus, ne_eq, not_false_eq_true, if_true, false_and, decide_false]
      rfl

theorem skipTest_isUsbHostController : SkipTest isUsbHostController ReadUsbHostClass where
  start := not_readUsbHostClass_nil
  other τ e handle he := by
    apply readUsbHostClass_snoc_of_ne
    rintro pci value rfl
    rcases he with he | he
    · exact he rfl
    · exact he
  test τ handle := by
    have hasked : ∀ a h, ReadUsbHostClass (τ ++ [⟨.handleProtocol handle .pciIo, a⟩]) h ↔
        ReadUsbHostClass τ h := fun a h => readUsbHostClass_snoc_of_ne nofun
    have hquiet : ∀ a, Quiet [(⟨.handleProtocol handle .pciIo, a⟩ : Event Answer)] := by
      intro a e he
      cases List.mem_singleton.mp he
      exact ⟨rfl, id⟩
    rw [isUsbHostController_eq]
    refine ⟨⟨_, rfl, hquiet none, by simp [hasked]⟩, fun r => ?_⟩
    cases r with
    | error s => exact ⟨_, rfl, hquiet _, by simp [hasked]⟩
    | ok pci =>
      refine ⟨⟨_, List.append_assoc _ _ _, (hquiet _).snoc ⟨rfl, id⟩, fun h => ?_⟩, fun answer =>
        ⟨_, List.append_assoc _ _ _, (hquiet _).snoc ⟨rfl, id⟩, fun h => ?_⟩⟩
      · have hnone : ∀ pci' value, (⟨.pciConfigRead pci, none⟩ : Event Answer) ≠
            ⟨.pciConfigRead pci', some (.success, value)⟩ := by
          intro pci' value he
          cases he
        rw [readUsbHostClass_snoc_of_ne hnone, hasked]
        simp
      · rw [readUsbHostClass_snoc, hasked]
        obtain ⟨status, value⟩ := answer
        constructor
        · rintro (hread | ⟨pre, pci', value', hsplit, he, hvalue⟩)
          · exact .inl hread
          · cases he
            cases (List.append_inj' hsplit rfl).2
            exact .inr ⟨rfl, by simp [hvalue]⟩
        · rintro (hread | ⟨rfl, hskip⟩)
          · exact .inl hread
          · obtain ⟨rfl, hvalue⟩ := of_decide_eq_true (Option.some.inj hskip)
            exact .inr ⟨τ, pci, value, rfl, rfl, hvalue⟩

def NoEnumeration (ρ : FirmwareTrace) : Prop := ∀ e ∈ ρ, ¬IsEnumeration e.call

theorem Quiet.noEnumeration {ρ : FirmwareTrace} (hρ : Quiet ρ) : NoEnumeration ρ :=
  fun e he => (hρ e he).2

theorem NoEnumeration.append {ρ ρ' : FirmwareTrace} (hρ : NoEnumeration ρ)
    (hρ' : NoEnumeration ρ') : NoEnumeration (ρ ++ ρ') := by
  intro e he
  rcases List.mem_append.mp he with he | he
  · exact hρ e he
  · exact hρ' e he

theorem NoEnumeration.enumerations {ρ : FirmwareTrace} (hρ : NoEnumeration ρ) :
    enumerations ρ = 0 := by
  apply List.countP_eq_zero.mpr
  intro e he
  simpa using hρ e he

/-- What holds at every moment, also when a call never came back. -/
structure Safe (recursive : Bool) (Skipped : FirmwareTrace → Handle → Prop) (τ : FirmwareTrace) :
    Prop where
  once : (connects τ).Nodup
  mode : ∀ handle r a, (⟨.connectController handle r, a⟩ : Event Answer) ∈ τ → r = recursive
  passedOver : ∀ handle, Skipped τ handle → handle ∉ connects τ
  noError : ∀ s, enumeration (some (.error s)) ∉ τ

/-- `connected` holds exactly the handles that were connected or passed over. -/
structure Inv (recursive : Bool) (Skipped : FirmwareTrace → Handle → Prop) (τ : FirmwareTrace)
    (connected : List Handle) : Prop extends Safe recursive Skipped τ where
  attempted : ∀ handle ∈ connects τ, handle ∈ connected
  skipped : ∀ handle, Skipped τ handle → handle ∈ connected
  covered : ∀ handle ∈ connected, handle ∈ connects τ ∨ Skipped τ handle

section Passes

variable {skips : Handle → Firmware Bool} {recursive : Bool}
variable {Skipped : FirmwareTrace → Handle → Prop} {τ ρ : FirmwareTrace} {connected : List Handle}

theorem inv_nil (hskip : SkipTest skips Skipped) : Inv recursive Skipped [] [] where
  once := List.nodup_nil
  mode _ _ _ he := absurd he List.not_mem_nil
  passedOver _ _ := List.not_mem_nil
  noError _ := List.not_mem_nil
  attempted _ hhandle := hhandle
  skipped handle hhandle := absurd hhandle (hskip.start handle)
  covered _ hhandle := absurd hhandle List.not_mem_nil

/-- Quiet calls keep what is safe, provided they show no connected handle as passed over. -/
theorem Safe.quiet (hτ : Safe recursive Skipped τ) (hρ : Quiet ρ)
    (hover : ∀ handle, Skipped (τ ++ ρ) handle → handle ∉ connects τ) :
    Safe recursive Skipped (τ ++ ρ) where
  once := by simpa [hρ.connects] using hτ.once
  mode handle r a he := by
    rcases List.mem_append.mp he with he | he
    · exact hτ.mode handle r a he
    · exact absurd he (not_mem_connects_of_quiet hρ)
  passedOver := by simpa [hρ.connects] using hover
  noError s he := by
    rcases List.mem_append.mp he with he | he
    · exact hτ.noError s he
    · exact (hρ _ he).2 trivial

theorem connects_snoc_connect (handle : Handle) (a : Option (Except Status Unit)) :
    connects (τ ++ [⟨.connectController handle recursive, a⟩]) = connects τ ++ [handle] := by
  rw [connects_append]
  rfl

/-- The connect of a handle that was neither connected nor passed over. -/
theorem Safe.connect (hskip : SkipTest skips Skipped) (hτ : Safe recursive Skipped τ)
    {handle : Handle} (hfresh : handle ∉ connects τ) (hnot : ¬Skipped τ handle)
    (a : Option (Except Status Unit)) :
    Safe recursive Skipped (τ ++ [⟨.connectController handle recursive, a⟩]) where
  once := by
    rw [connects_snoc_connect]
    exact hτ.once.append (List.nodup_singleton handle) (by simpa using hfresh)
  mode h r a' he := by
    rcases List.mem_append.mp he with he | he
    · exact hτ.mode h r a' he
    · cases List.mem_singleton.mp he
      rfl
  passedOver h hh := by
    have hbefore : Skipped τ h := hskip.connect.mp hh
    have hne : h ≠ handle := by
      rintro rfl
      exact hnot hbefore
    rw [connects_snoc_connect]
    simpa [hne] using hτ.passedOver h hbefore
  noError s he := by
    rcases List.mem_append.mp he with he | he
    · exact hτ.noError s he
    · cases List.mem_singleton.mp he

theorem Inv.quiet (hτ : Inv recursive Skipped τ connected) (hρ : Quiet ρ)
    (hsame : ∀ handle, Skipped (τ ++ ρ) handle ↔ Skipped τ handle) :
    Inv recursive Skipped (τ ++ ρ) connected where
  toSafe := hτ.toSafe.quiet hρ fun handle hover => hτ.passedOver handle ((hsame handle).mp hover)
  attempted := by simpa [hρ.connects] using hτ.attempted
  skipped handle hover := hτ.skipped handle ((hsame handle).mp hover)
  covered := by simpa [hρ.connects, hsame] using hτ.covered

/-- The history came to show one more handle as passed over. -/
theorem Inv.passOver (hτ : Inv recursive Skipped τ connected) (hρ : Quiet ρ) {handle : Handle}
    (hfresh : handle ∉ connects τ)
    (hshown : ∀ h, Skipped (τ ++ ρ) h ↔ Skipped τ h ∨ h = handle) :
    Inv recursive Skipped (τ ++ ρ) (handle :: connected) where
  toSafe := by
    apply hτ.toSafe.quiet hρ
    intro h hover
    rcases (hshown h).mp hover with hover | rfl
    · exact hτ.passedOver h hover
    · exact hfresh
  attempted h hmem := by
    rw [connects_append, hρ.connects, List.append_nil] at hmem
    exact List.mem_cons_of_mem handle (hτ.attempted h hmem)
  skipped h hover := by
    rcases (hshown h).mp hover with hover | rfl
    · exact List.mem_cons_of_mem handle (hτ.skipped h hover)
    · exact List.mem_cons_self
  covered h hmem := by
    rw [connects_append, hρ.connects, List.append_nil, hshown]
    rcases List.mem_cons.mp hmem with rfl | hmem
    · exact .inr (.inr rfl)
    · exact (hτ.covered h hmem).imp_right .inl

theorem Inv.connect (hskip : SkipTest skips Skipped) (hτ : Inv recursive Skipped τ connected)
    {handle : Handle} (hfresh : handle ∉ connects τ) (hnot : ¬Skipped τ handle)
    (a : Option (Except Status Unit)) :
    Inv recursive Skipped (τ ++ [⟨.connectController handle recursive, a⟩])
      (handle :: connected) where
  toSafe := hτ.toSafe.connect hskip hfresh hnot a
  attempted h hmem := by
    rw [connects_snoc_connect] at hmem
    rcases List.mem_append.mp hmem with hmem | hmem
    · exact List.mem_cons_of_mem handle (hτ.attempted h hmem)
    · exact List.mem_cons.mpr (.inl (List.mem_singleton.mp hmem))
  skipped h hover := by
    have hbefore := hskip.connect.mp hover
    exact List.mem_cons_of_mem handle (hτ.skipped h hbefore)
  covered h hmem := by
    rw [connects_snoc_connect, hskip.connect]
    rcases List.mem_cons.mp hmem with rfl | hmem
    · exact .inl (List.mem_append_right _ (List.mem_singleton_self h))
    · exact (hτ.covered h hmem).imp_left (List.mem_append_left _)

/-- What one handle of a pass leaves behind. -/
def HandleDone (recursive : Bool) (Skipped : FirmwareTrace → Handle → Prop) (τ : FirmwareTrace)
    (st : List Handle × ℕ) (handle : Handle) (τ' : FirmwareTrace)
    (x : Option (List Handle × ℕ)) : Prop :=
  ∃ ρ, τ' = τ ++ ρ ∧ NoEnumeration ρ ∧
    x.elim (Safe recursive Skipped τ') fun st' =>
      Inv recursive Skipped τ' st'.1 ∧ handle ∈ st'.1 ∧ st.1 ⊆ st'.1 ∧
        st'.2 = st.2 + (connects ρ).length

theorem ends_connectHandle (hskip : SkipTest skips Skipped)
    (hτ : Inv recursive Skipped τ connected) (newly : ℕ) (handle : Handle) :
    Ends (HandleDone recursive Skipped τ (connected, newly) handle)
      (connectHandle skips recursive (connected, newly) handle) τ := by
  simp only [connectHandle]
  by_cases hknown : handle ∈ connected
  · rw [if_pos hknown]
    exact ⟨[], (List.append_nil τ).symm, Quiet.noEnumeration quiet_nil, hτ, hknown,
      List.Subset.refl _, rfl⟩
  · rw [if_neg hknown]
    have hfresh : handle ∉ connects τ := fun hmem => hknown (hτ.attempted handle hmem)
    have hunseen : ¬Skipped τ handle := fun hmem => hknown (hτ.skipped handle hmem)
    have hkeep : connected ⊆ handle :: connected := List.subset_cons_self handle connected
    apply (hskip.test τ handle).bind
    · rintro τ₁ b ⟨ρ, rfl, hρ, hshown⟩
      cases b with
      | true =>
        rw [if_pos rfl]
        have hinv := hτ.passOver hρ hfresh (by simpa using hshown)
        refine ⟨ρ, rfl, hρ.noEnumeration, hinv, List.mem_cons_self, hkeep, ?_⟩
        rw [hρ.connects]
        rfl
      | false =>
        rw [if_neg (by decide)]
        have hinv := hτ.quiet hρ (by simpa using hshown)
        have hfresh₁ : handle ∉ connects (τ ++ ρ) := by simpa [hρ.connects] using hfresh
        have hunseen₁ : ¬Skipped (τ ++ ρ) handle := by simpa [hshown] using hunseen
        have hcalm : ∀ a, NoEnumeration
            (ρ ++ [(⟨.connectController handle recursive, a⟩ : Event Answer)]) := by
          intro a
          apply hρ.noEnumeration.append
          intro e he
          cases List.mem_singleton.mp he
          exact id
        refine ⟨⟨_, List.append_assoc τ ρ _, hcalm none,
          hinv.toSafe.connect hskip hfresh₁ hunseen₁ none⟩, fun a => ?_⟩
        refine ⟨_, List.append_assoc τ ρ _, hcalm (some a),
          hinv.connect hskip hfresh₁ hunseen₁ (some a), List.mem_cons_self, hkeep, ?_⟩
        rw [connects_snoc_connect, hρ.connects]
        rfl
    · rintro τ₁ ⟨ρ, rfl, hρ, hshown⟩
      exact ⟨ρ, rfl, hρ.noEnumeration, (hτ.quiet hρ (by simpa using hshown)).toSafe⟩

theorem connects_snoc_enumeration (a : Option (Except Status (List Handle))) :
    connects (τ ++ [enumeration a]) = connects τ := by
  rw [connects_append]
  exact List.append_nil _

theorem enumerations_snoc_enumeration (a : Option (Except Status (List Handle))) :
    enumerations (τ ++ [enumeration a]) = enumerations τ + 1 := by
  rw [enumerations_append]
  rfl

theorem SkipTest.enumerate (hskip : SkipTest skips Skipped)
    {a : Option (Except Status (List Handle))} {h : Handle} :
    Skipped (τ ++ [enumeration a]) h ↔ Skipped τ h :=
  hskip.other τ (enumeration a) h (.inr trivial)

theorem Safe.enumerate (hskip : SkipTest skips Skipped) (hτ : Safe recursive Skipped τ)
    {a : Option (Except Status (List Handle))} (ha : ∀ s, a ≠ some (.error s)) :
    Safe recursive Skipped (τ ++ [enumeration a]) where
  once := by simpa only [connects_snoc_enumeration] using hτ.once
  mode h r a' he := by
    rcases List.mem_append.mp he with he | he
    · exact hτ.mode h r a' he
    · cases List.mem_singleton.mp he
  passedOver h hover := by
    rw [connects_snoc_enumeration]
    exact hτ.passedOver h (hskip.enumerate.mp hover)
  noError s he := by
    rcases List.mem_append.mp he with he | he
    · exact hτ.noError s he
    · cases List.mem_singleton.mp he
      exact ha s rfl

theorem Inv.enumerate (hskip : SkipTest skips Skipped) (hτ : Inv recursive Skipped τ connected)
    (handles : List Handle) :
    Inv recursive Skipped (τ ++ [enumeration (some (.ok handles))])
      connected where
  toSafe := hτ.toSafe.enumerate hskip nofun
  attempted := by simpa only [connects_snoc_enumeration] using hτ.attempted
  skipped h hover := hτ.skipped h (hskip.enumerate.mp hover)
  covered h hmem := by
    rw [connects_snoc_enumeration, hskip.enumerate]
    exact hτ.covered h hmem

def PassDone (recursive : Bool) (Skipped : FirmwareTrace → Handle → Prop) (τ : FirmwareTrace)
    (handles : List Handle) (τ' : FirmwareTrace) (x : Option (List Handle × ℕ)) : Prop :=
  ∃ ρ, τ' = τ ++ ρ ∧ NoEnumeration ρ ∧
    x.elim (Safe recursive Skipped τ') fun st =>
      Inv recursive Skipped τ' st.1 ∧ st.2 = (connects ρ).length ∧ ∀ handle ∈ handles, handle ∈ st.1

theorem ends_pass (hskip : SkipTest skips Skipped) (hτ : Inv recursive Skipped τ connected)
    (handles : List Handle) :
    Ends (PassDone recursive Skipped τ handles)
      (handles.foldlM (connectHandle skips recursive) (connected, 0)) τ := by
  have hloop := Ends.foldlM (f := connectHandle skips recursive)
    (I := fun todo τ' st => ∃ ρ, τ' = τ ++ ρ ∧ NoEnumeration ρ ∧ Inv recursive Skipped τ' st.1 ∧
      st.2 = (connects ρ).length ∧ ∀ handle ∈ handles, handle ∈ st.1 ∨ handle ∈ todo)
    (N := fun τ' => ∃ ρ, τ' = τ ++ ρ ∧ NoEnumeration ρ ∧ Safe recursive Skipped τ')
    (fun handle todo τ₁ st hi => ?_) handles τ (connected, 0)
    ⟨[], (List.append_nil τ).symm, quiet_nil.noEnumeration, hτ, rfl, fun _ hmem => .inr hmem⟩
  · refine Ends.mono hloop fun τ' x hx => ?_
    cases x with
    | none => exact hx
    | some st =>
      obtain ⟨ρ, hτ', hcalm, hinv, hcount, hall⟩ := hx
      exact ⟨ρ, hτ', hcalm, hinv, hcount, fun handle hmem => (hall handle hmem).resolve_right
        List.not_mem_nil⟩
  · obtain ⟨ρ, rfl, hcalm, hinv, hcount, hall⟩ := hi
    refine Ends.mono (ends_connectHandle hskip hinv st.2 handle) fun τ' x hx => ?_
    obtain ⟨ρ', rfl, hcalm', hx⟩ := hx
    cases x with
    | none => exact ⟨ρ ++ ρ', List.append_assoc τ ρ ρ', hcalm.append hcalm', hx⟩
    | some st' =>
      obtain ⟨hinv', hdone, hkeep, hcount'⟩ := hx
      refine ⟨ρ ++ ρ', List.append_assoc τ ρ ρ', hcalm.append hcalm', hinv', ?_, fun h hmem => ?_⟩
      · rw [hcount', hcount, connects_append, List.length_append]
      · rcases hall h hmem with hh | hh
        · exact .inl (hkeep hh)
        · rcases List.mem_cons.mp hh with rfl | hh
          · exact .inl hdone
          · exact .inr hh

theorem Safe.law {limit : ℕ} (hτ : Safe recursive Skipped τ) (hlimit : enumerations τ ≤ limit) :
    ConnectLaw limit recursive Skipped τ none where
  once := hτ.once
  limited := hlimit
  mode := hτ.mode
  passedOver := hτ.passedOver
  stopped := nofun
  complete := nofun
  error pre s post he := absurd (he ▸ by simp) (hτ.noError s)

/-- A loop that returns at this point, whether or not the last pass found anything new. -/
theorem Inv.law {limit : ℕ} (hτ : Inv recursive Skipped τ connected)
    (hlimit : enumerations τ ≤ limit)
    (hstopped : enumerations τ < limit →
      ∃ handles post, LastEnumeration τ handles post ∧ connects post = [])
    (hknown : ∀ handles post, LastEnumeration τ handles post → connects post = [] →
      ∀ handle ∈ handles, handle ∈ connected) :
    ConnectLaw limit recursive Skipped τ (some (.ok ())) where
  once := hτ.once
  limited := hlimit
  mode := hτ.mode
  passedOver := hτ.passedOver
  stopped _ := hstopped
  complete _ handles post hlast hnew handle hmem :=
    hτ.covered handle (hknown handles post hlast hnew handle hmem)
  error pre s post he := absurd (he ▸ by simp) (hτ.noError s)

/-- An error of the enumeration is the last event, and it is returned. -/
theorem Safe.law_error {limit : ℕ} (hskip : SkipTest skips Skipped)
    (hτ : Safe recursive Skipped τ) (hlimit : enumerations τ < limit) (s : Status) :
    ConnectLaw limit recursive Skipped (τ ++ [enumeration (some (.error s))])
      (some (.error ⟨s⟩)) where
  once := by simpa only [connects_snoc_enumeration] using hτ.once
  limited := by
    rw [enumerations_snoc_enumeration]
    exact hlimit
  mode h r a he := by
    rcases List.mem_append.mp he with he | he
    · exact hτ.mode h r a he
    · cases List.mem_singleton.mp he
  passedOver h hover := by
    rw [connects_snoc_enumeration]
    exact hτ.passedOver h (hskip.enumerate.mp hover)
  stopped := nofun
  complete := nofun
  error pre s' post he := by
    rcases split_snoc he with ⟨-, hlast, rfl⟩ | ⟨post', -, rfl⟩
    · cases hlast
      exact ⟨rfl, rfl⟩
    · exact absurd (by simp) (hτ.noError s')

theorem ends_connectPasses (hskip : SkipTest skips Skipped) {limit : ℕ} (iterations : ℕ) :
    ∀ τ connected, Inv recursive Skipped τ connected → enumerations τ + iterations = limit →
      (∀ handles post, LastEnumeration τ handles post → connects post ≠ []) →
      Ends (ConnectLaw limit recursive Skipped)
        (connectPasses skips recursive iterations connected).run τ := by
  induction iterations with
  | zero =>
    intro τ connected hτ hcount hlast
    apply hτ.law (by omega)
    · intro hless
      omega
    · intro handles post hl hnew
      exact absurd hnew (hlast handles post hl)
  | succ iterations ih =>
    intro τ connected hτ hcount hlast
    simp only [connectPasses, run_mapErr_bind, Program.call_bind]
    refine ⟨?_, fun r => ?_⟩
    · apply (hτ.toSafe.enumerate hskip (a := none) nofun).law
      rw [enumerations_snoc_enumeration]
      omega
    · cases r with
      | error s => exact hτ.toSafe.law_error hskip (by omega) s
      | ok handles =>
        have hτ₁ := hτ.enumerate hskip handles
        have hcount₁ : enumerations (τ ++ [enumeration (some (.ok handles))]) + iterations =
            limit := by
          rw [enumerations_snoc_enumeration]
          omega
        dsimp only
        rw [Program.run_lift_bind]
        apply (ends_pass hskip hτ₁ handles).bind
        · rintro τ' st ⟨ρ, rfl, hcalm, hinv, hnewly, hall⟩
          have hmark : LastEnumeration (τ ++ [enumeration (some (.ok handles))] ++ ρ) handles ρ :=
            (SinceLast.mark trivial).append hcalm
          have hsplit : ∀ handles' post, LastEnumeration
              (τ ++ [enumeration (some (.ok handles))] ++ ρ) handles' post →
              handles' = handles ∧ post = ρ := by
            intro handles' post hl
            obtain ⟨he, rfl⟩ := hl.unique hmark
            cases he
            exact ⟨rfl, rfl⟩
          have hcount' : enumerations (τ ++ [enumeration (some (.ok handles))] ++ ρ) + iterations =
              limit := by
            rw [enumerations_append, hcalm.enumerations]
            omega
          by_cases hnew : st.2 = 0
          · rw [if_pos hnew]
            have hnone : connects ρ = [] := List.length_eq_zero_iff.mp (hnewly ▸ hnew)
            apply hinv.law (by omega) fun _ => ⟨handles, ρ, hmark, hnone⟩
            intro handles' post hl _ handle hmem
            obtain ⟨rfl, rfl⟩ := hsplit handles' post hl
            exact hall handle hmem
          · rw [if_neg hnew]
            apply ih _ st.1 hinv hcount'
            intro handles' post hl hnone
            obtain ⟨rfl, rfl⟩ := hsplit handles' post hl
            rw [hnone] at hnewly
            exact hnew hnewly
        · rintro τ' ⟨ρ, rfl, hcalm, hsafe⟩
          apply hsafe.law
          rw [enumerations_append, hcalm.enumerations]
          omega

end Passes

/-- Both loops, against every environment. -/
theorem connect_loops_law (env : FirmwareEnv) :
    ConnectLaw 10 true (fun _ _ => False) (connectAll.run.run env []).1
      (connectAll.run.run env []).2 ∧
    ConnectLaw 20 false ReadUsbHostClass (connectAllSkipUsb.run.run env []).1
      (connectAllSkipUsb.run.run env []).2 := by
  have hempty : ∀ handles post, LastEnumeration [] handles post → connects post ≠ [] :=
    fun handles post hl => absurd hl (not_sinceLast_nil _ post)
  constructor
  · exact (ends_connectPasses skipTest_never 10 [] [] (inv_nil skipTest_never) rfl hempty).sound env
  · exact (ends_connectPasses skipTest_isUsbHostController 20 [] []
      (inv_nil skipTest_isUsbHostController) rfl hempty).sound env

end PatinaConnectPasses
