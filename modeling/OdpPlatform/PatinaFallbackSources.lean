import OdpPlatform.FirmwareTables
import OdpPlatform.PatinaBootOptions

/-! # What fallback_boot_options returns

Every candidate lies on a volume that the policy approves, and the security state is decoded
before any volume is looked for. -/
namespace PatinaFallbackSources

open ByteBuffer DevicePathNodes InteractionProgram InteractionContract InteractionAnswers
open FirmwareServices FirmwareTables PatinaBootOptions PatinaDevicePath

variable {tables : Tables} {base : FirmwareEnv}

inductive Decodes (tables : Tables) : SecureBootState → Prop where
  | enabled : tables.nvram (variableText .secureBoot) = .ok [1] →
      tables.nvram (variableText .setupMode) = .ok [0] → Decodes tables .enabled
  | disabled : tables.nvram (variableText .secureBoot) = .ok [0] →
      tables.nvram (variableText .setupMode) = .ok [0] → Decodes tables .disabled
  | setupMode : tables.nvram (variableText .secureBoot) = .ok [0] →
      tables.nvram (variableText .setupMode) = .ok [1] → Decodes tables .setupMode

def stateOf : Except Status Bytes → Except EfiError UInt8
  | .error s => .error ⟨s⟩
  | .ok [state] => if state ≤ 1 then .ok state else .error .securityViolation
  | .ok _ => .error .securityViolation

def combine (secureBoot setupMode : UInt8) : Except EfiError SecureBootState :=
  if secureBoot = 1 ∧ setupMode = 0 then .ok .enabled
  else if secureBoot = 0 ∧ setupMode = 0 then .ok .disabled
  else if secureBoot = 0 ∧ setupMode = 1 then .ok .setupMode
  else .error .securityViolation

def securityState (tables : Tables) : Except EfiError SecureBootState :=
  stateOf (tables.nvram (variableText .secureBoot)) >>= fun secureBoot =>
    stateOf (tables.nvram (variableText .setupMode)) >>= fun setupMode =>
      combine secureBoot setupMode

theorem stateOf_ok {r : Except Status Bytes} {state : UInt8} :
    stateOf r = .ok state ↔ r = .ok [state] ∧ state ≤ 1 := by
  simp only [stateOf]
  match r with
  | .error s => simp
  | .ok [] => simp
  | .ok [b] =>
    by_cases hb : b ≤ 1
    · simp only [if_pos hb, Except.ok.injEq, List.cons.injEq, and_true]
      constructor
      · rintro rfl
        exact ⟨rfl, hb⟩
      · rintro ⟨rfl, -⟩
        rfl
    · simp only [if_neg hb, Except.ok.injEq, List.cons.injEq, and_true]
      constructor
      · nofun
      · rintro ⟨rfl, hle⟩
        exact absurd hle hb
  | .ok (_ :: _ :: _) => simp

theorem yields_readStateVariable (name : VariableName) :
    Yields (tables.env base) (readStateVariable name).run (stateOf (tables.nvram (variableText name))) := by
  apply (yields_mapErr (yields_getVariable name)).except_bind
  · intro bytes hbytes
    cases hvar : tables.nvram (variableText name) with
    | error s =>
      rw [hvar] at hbytes
      cases hbytes
    | ok b =>
      rw [hvar] at hbytes
      cases hbytes
      match bytes with
      | [] => exact yields_done _
      | [state] =>
        unfold stateOf
        dsimp only
        split
        · exact yields_done _
        · exact yields_done _
      | _ :: _ :: _ => exact yields_done _
  · intro e he
    cases hvar : tables.nvram (variableText name) with
    | error s =>
      rw [hvar] at he
      cases he
      rfl
    | ok b =>
      rw [hvar] at he
      cases he

theorem yields_secureBootState :
    Yields (tables.env base) secureBootState.run (securityState tables) := by
  apply (yields_readStateVariable .secureBoot).except_compose
  intro secureBoot
  apply (yields_readStateVariable .setupMode).except_compose
  intro setupMode
  simp only [combine]
  split_ifs
  · exact yields_done _
  · exact yields_done _
  · exact yields_done _
  · exact yields_done _

theorem securityState_iff {state : SecureBootState} :
    securityState tables = .ok state ↔ Decodes tables state := by
  constructor
  · intro h
    simp only [securityState] at h
    cases hsb : stateOf (tables.nvram (variableText .secureBoot)) with
    | error e =>
      rw [hsb] at h
      cases h
    | ok secureBoot =>
      cases hsm : stateOf (tables.nvram (variableText .setupMode)) with
      | error e =>
        rw [hsb, hsm] at h
        cases h
      | ok setupMode =>
        rw [hsb, hsm] at h
        change combine secureBoot setupMode = .ok state at h
        obtain ⟨hsb', -⟩ := stateOf_ok.mp hsb
        obtain ⟨hsm', -⟩ := stateOf_ok.mp hsm
        simp only [combine] at h
        split_ifs at h with h₁ h₂ h₃
        · obtain ⟨rfl, rfl⟩ := h₁
          cases h
          exact .enabled hsb' hsm'
        · obtain ⟨rfl, rfl⟩ := h₂
          cases h
          exact .disabled hsb' hsm'
        · obtain ⟨rfl, rfl⟩ := h₃
          cases h
          exact .setupMode hsb' hsm'
  · intro h
    cases h with
    | enabled hsb hsm =>
      simp only [securityState]
      rw [hsb, hsm]
      rfl
    | disabled hsb hsm =>
      simp only [securityState]
      rw [hsb, hsm]
      rfl
    | setupMode hsb hsm =>
      simp only [securityState]
      rw [hsb, hsm]
      rfl

def IsEnumeration (c : Call) : Prop := ∃ s, c = .locateHandleBuffer s

theorem only_readStateVariable (name : VariableName) :
    Only (fun c => ¬IsEnumeration c) (readStateVariable name).run := by
  apply Only.except_bind
  · apply only_mapErr
    rw [only_call]
    rintro ⟨s, hs⟩
    cases hs
  · intro bytes
    split
    · split
      · trivial
      · trivial
    · trivial

theorem only_secureBootState : Only (fun c => ¬IsEnumeration c) secureBootState.run := by
  apply (only_readStateVariable .secureBoot).except_bind
  intro secureBoot
  apply (only_readStateVariable .setupMode).except_bind
  intro setupMode
  split_ifs <;> trivial

theorem fallbackCandidates_eq [PatinaDevicePath] (arch : TargetArch) (volumes : List DevicePath) :
    fallbackCandidates arch volumes = (fallbackOsLoaderPaths arch).flatMap fun loader =>
      volumes.map fun volume => volume.dropLast ++ [mediaFilePathNode loader, endEntire] := by
  have hfile : ∀ loader, fromDevicePathNodeIter [filePathNode loader] =
      [mediaFilePathNode loader, endEntire] := by
    intro loader
    rw [filePathNode_eq, fromDevicePathNodeIter_eq, if_neg]
    · rfl
    · intro hlast
      have htype := congrArg Node.type (Option.some.inj hlast)
      cases htype
  simp only [fallbackCandidates, appendDevicePath_eq]
  simp only [hfile]

theorem length_fallbackCandidates [PatinaDevicePath] (arch : TargetArch) (volumes : List DevicePath) :
    (fallbackCandidates arch volumes).length =
      (fallbackOsLoaderPaths arch).length * volumes.length := by
  simp [fallbackCandidates]

def HasUsb (path : DevicePath) : Prop := ∃ node ∈ path, IsUsb node

theorem isUsbDevicePath_iff {path : DevicePath} : isUsbDevicePath path = true ↔ HasUsb path := by
  simp [isUsbDevicePath, HasUsb]

section Policy

variable [PatinaDevicePath]

def HasHardDrive (path : DevicePath) : Prop := ∃ node ∈ path, ∃ hd, hardDriveTryFromNode node = some hd

def SharesHardDrive (path candidate : DevicePath) : Prop :=
  ∃ hd, (∃ node ∈ path, hardDriveTryFromNode node = some hd) ∧
    ∃ node ∈ candidate, hardDriveTryFromNode node = some hd

def HasSource (policy : BootSourcePolicy) : Prop :=
  policy.allowRemovableMedia = true ∨ ∃ approved ∈ policy.approvedInternalDevices, HasHardDrive approved

def Allowed (policy : BootSourcePolicy) (volume : DevicePath) : Prop :=
  (HasUsb volume ∧ policy.allowRemovableMedia = true) ∨
    (¬HasUsb volume ∧ ∃ approved ∈ policy.approvedInternalDevices, SharesHardDrive approved volume)

theorem mem_hardDriveNodes {path : DevicePath} {hd : HardDrive} :
    hd ∈ hardDriveNodes path ↔ ∃ node ∈ path, hardDriveTryFromNode node = some hd :=
  List.mem_filterMap

theorem hasSources_iff {policy : BootSourcePolicy} :
    policy.hasSources = true ↔ HasSource policy := by
  have hnodes : ∀ path : DevicePath, (hardDriveNodes path).isEmpty = false ↔ HasHardDrive path := by
    intro path
    rw [List.isEmpty_eq_false_iff_exists_mem]
    constructor
    · rintro ⟨hd, hmem⟩
      obtain ⟨node, hnode, hhd⟩ := mem_hardDriveNodes.mp hmem
      exact ⟨node, hnode, hd, hhd⟩
    · rintro ⟨node, hnode, hd, hhd⟩
      exact ⟨hd, mem_hardDriveNodes.mpr ⟨node, hnode, hhd⟩⟩
  simp [BootSourcePolicy.hasSources, HasSource, hnodes]

theorem allowsDevice_iff {policy : BootSourcePolicy} {volume : DevicePath} :
    policy.allowsDevice volume = true ↔ Allowed policy volume := by
  simp only [BootSourcePolicy.allowsDevice, Allowed]
  by_cases husb : isUsbDevicePath volume = true
  · have hyes : HasUsb volume := isUsbDevicePath_iff.mp husb
    rw [if_pos husb]
    simp [hyes]
  · have hno : ¬HasUsb volume := fun h => husb (isUsbDevicePath_iff.mpr h)
    rw [if_neg husb]
    simp only [hno, false_and, false_or, not_false_eq_true, true_and, List.any_eq_true]
    constructor
    · rintro ⟨approved, happroved, hd, hhd, hd', hhd', hsame⟩
      cases beq_iff_eq.mp hsame
      exact ⟨approved, happroved, hd, mem_hardDriveNodes.mp hhd, mem_hardDriveNodes.mp hhd'⟩
    · rintro ⟨approved, happroved, hd, hhd, hhd'⟩
      exact ⟨approved, happroved, hd, mem_hardDriveNodes.mpr hhd, hd, mem_hardDriveNodes.mpr hhd',
        beq_self_eq_true hd⟩

def allowedVolume (tables : Tables) (policy : BootSourcePolicy) (handle : Handle) :
    Option DevicePath :=
  (readablePath tables handle).filter policy.allowsDevice

def allowedVolumes (tables : Tables) (policy : BootSourcePolicy) (handles : List Handle) :
    List DevicePath :=
  handles.filterMap (allowedVolume tables policy)

theorem allowedVolume_iff {policy : BootSourcePolicy} {handle : Handle} {volume : DevicePath} :
    allowedVolume tables policy handle = some volume ↔
      readablePath tables handle = some volume ∧ Allowed policy volume := by
  rw [allowedVolume, Option.filter_eq_some_iff, allowsDevice_iff]

theorem yields_addVolume (policy : BootSourcePolicy) (volumes : List DevicePath) (handle : Handle) :
    Yields (tables.env base) (addVolume policy volumes handle)
      (volumes ++ (allowedVolume tables policy handle).toList) := by
  apply (yields_handleProtocolDevicePath handle).bind
  simp only [allowedVolume, readablePath]
  cases tables.devicePaths handle with
  | error s =>
    dsimp only
    rw [Option.filter_none, Option.toList_none, List.append_nil]
    exact yields_done _
  | ok memory =>
    dsimp only
    cases tryFromPtr memory with
    | none =>
      rw [Option.filter_none, Option.toList_none, List.append_nil]
      exact yields_done _
    | some volume =>
      dsimp only
      by_cases hallowed : policy.allowsDevice volume = true
      · rw [if_pos hallowed, Option.filter_some_pos hallowed]
        exact yields_done _
      · rw [if_neg hallowed, Option.filter_some_neg (Bool.eq_false_of_not_eq_true hallowed),
          Option.toList_none, List.append_nil]
        exact yields_done _

def fallbackOutcome (tables : Tables) (arch : TargetArch) (policy : BootSourcePolicy) :
    Except EfiError (List DevicePath) :=
  if policy.hasSources = false then
    .error .notFound
  else
    securityState tables >>= fun state =>
      if policy.allowsSecurityState state = false then
        .error .securityViolation
      else
        efiResult (tables.handles (.byProtocol .simpleFileSystem)) >>= fun handles =>
          if allowedVolumes tables policy handles = [] then .error .notFound
          else .ok (fallbackCandidates arch (allowedVolumes tables policy handles))

theorem yields_fallbackBootOptions (arch : TargetArch) (policy : BootSourcePolicy) :
    Yields (tables.env base) (fallbackBootOptions arch policy).run
      (fallbackOutcome tables arch policy) := by
  simp only [fallbackBootOptions, fallbackOutcome]
  by_cases hsources : policy.hasSources = false
  · rw [if_pos hsources, if_pos hsources]
    exact yields_done _
  rw [if_neg hsources, if_neg hsources]
  apply yields_secureBootState.except_compose
  intro state
  by_cases hstate : policy.allowsSecurityState state = false
  · rw [if_pos hstate, if_pos hstate]
    exact yields_done _
  rw [if_neg hstate, if_neg hstate]
  apply (yields_mapErr (yields_locateHandleBuffer _)).except_compose
  intro handles
  apply (Yields.collect (yields_addVolume policy) handles []).lift_bind
  rw [List.nil_append]
  unfold allowedVolumes
  by_cases hnone : handles.filterMap (allowedVolume tables policy) = []
  · rw [if_pos hnone, if_pos hnone]
    exact yields_done _
  · rw [if_neg hnone, if_neg hnone]
    exact yields_done _

theorem fallbackOutcome_ok {arch : TargetArch} {policy : BootSourcePolicy}
    {options : List DevicePath} :
    fallbackOutcome tables arch policy = .ok options ↔
      HasSource policy ∧
        (∃ state, Decodes tables state ∧ policy.allowsSecurityState state = true) ∧
          ∃ handles, tables.handles (.byProtocol .simpleFileSystem) = .ok handles ∧
            allowedVolumes tables policy handles ≠ [] ∧
              options = fallbackCandidates arch (allowedVolumes tables policy handles) := by
  simp only [fallbackOutcome]
  rw [← hasSources_iff]
  by_cases hsources : policy.hasSources = false
  · rw [if_pos hsources, hsources]
    exact iff_of_false nofun (fun h => absurd h.1 nofun)
  rw [if_neg hsources]
  cases hstate : securityState tables with
  | error e =>
    apply iff_of_false nofun
    rintro ⟨-, ⟨state, hdecodes, -⟩, -⟩
    rw [securityState_iff.mpr hdecodes] at hstate
    cases hstate
  | ok state =>
    have honly : ∀ other, Decodes tables other → other = state := by
      intro other hother
      have hsame := securityState_iff.mpr hother
      rw [hstate] at hsame
      exact (Except.ok.inj hsame).symm
    rw [show ∀ f : SecureBootState → Except EfiError (List DevicePath),
      (Except.ok state >>= f) = f state from fun f => rfl]
    by_cases hallows : policy.allowsSecurityState state = false
    · rw [if_pos hallows]
      apply iff_of_false nofun
      rintro ⟨-, ⟨other, hother, hok⟩, -⟩
      rw [honly other hother, hallows] at hok
      cases hok
    rw [if_neg hallows]
    have hpolicy : policy.hasSources = true := Bool.eq_true_of_not_eq_false hsources
    have hok : ∃ other, Decodes tables other ∧ policy.allowsSecurityState other = true :=
      ⟨state, securityState_iff.mp hstate, Bool.eq_true_of_not_eq_false hallows⟩
    simp only [hpolicy, hok, true_and]
    cases hhandles : tables.handles (.byProtocol .simpleFileSystem) with
    | error s =>
      apply iff_of_false nofun
      rintro ⟨handles, hok', -⟩
      cases hok'
    | ok handles =>
      rw [efiResult, show ∀ f : List Handle → Except EfiError (List DevicePath),
        (Except.ok handles >>= f) = f handles from fun f => rfl]
      constructor
      · intro h
        split at h
        · cases h
        next hsome => exact ⟨handles, rfl, hsome, (Except.ok.inj h).symm⟩
      · rintro ⟨handles', hsame, hsome, rfl⟩
        cases hsame
        rw [if_neg hsome]

theorem run_undecoded {arch : TargetArch} {policy : BootSourcePolicy}
    (hno : ¬∃ state, Decodes tables state) (h : FirmwareTrace) :
    ∃ τ, ((fallbackBootOptions arch policy).run.run (tables.env base) h).1 = h ++ τ ∧
      ∀ e ∈ τ, ¬IsEnumeration e.call := by
  simp only [fallbackBootOptions]
  by_cases hsources : policy.hasSources = false
  · rw [if_pos hsources]
    exact ⟨[], (List.append_nil h).symm, List.forall_mem_nil _⟩
  rw [if_neg hsources]
  cases hstate : securityState tables with
  | ok state => exact absurd ⟨state, securityState_iff.mp hstate⟩ hno
  | error e =>
    have hyields := @yields_secureBootState tables base
    rw [hstate] at hyields
    obtain ⟨h', hrun⟩ := hyields h
    obtain ⟨τ, hτ, honly⟩ := only_secureBootState.run (tables.env base) h
    rw [hrun] at hτ
    refine ⟨τ, ?_, honly⟩
    rw [ExceptT.run_bind, Program.run_bind_some _ h hrun]
    exact hτ

/-- Policy-approved candidates only, and a closed gate while the security state is not known. -/
theorem fallback_boot_options_exact (arch : TargetArch) (policy : BootSourcePolicy)
    (tables : Tables) (base : FirmwareEnv) :
    ∃ r, Yields (tables.env base) (fallbackBootOptions arch policy).run r ∧
      (∀ options, r = .ok options ↔
        HasSource policy ∧
          (∃ state, Decodes tables state ∧ policy.allowsSecurityState state = true) ∧
            ∃ handles, tables.handles (.byProtocol .simpleFileSystem) = .ok handles ∧
              allowedVolumes tables policy handles ≠ [] ∧
                options = (fallbackOsLoaderPaths arch).flatMap fun loader =>
                  (allowedVolumes tables policy handles).map fun volume =>
                    volume.dropLast ++ [mediaFilePathNode loader, endEntire]) ∧
      (∀ options handles, r = .ok options →
        tables.handles (.byProtocol .simpleFileSystem) = .ok handles →
          options.length =
            (fallbackOsLoaderPaths arch).length * (allowedVolumes tables policy handles).length) ∧
      (∀ handle volume, allowedVolume tables policy handle = some volume ↔
        readablePath tables handle = some volume ∧ Allowed policy volume) ∧
      ((¬∃ state, Decodes tables state) → (∃ e, r = .error e) ∧
        ∀ h, ∃ τ, ((fallbackBootOptions arch policy).run.run (tables.env base) h).1 = h ++ τ ∧
          ∀ e ∈ τ, ¬IsEnumeration e.call) := by
  refine ⟨_, yields_fallbackBootOptions arch policy, ?_, ?_, fun _ _ => allowedVolume_iff, ?_⟩
  · intro options
    rw [fallbackOutcome_ok]
    simp only [fallbackCandidates_eq]
  · intro options handles hok hhandles
    obtain ⟨-, -, handles', hhandles', -, rfl⟩ := fallbackOutcome_ok.mp hok
    rw [hhandles] at hhandles'
    cases hhandles'
    exact length_fallbackCandidates arch _
  · intro hno
    constructor
    · cases hresult : fallbackOutcome tables arch policy with
      | error e => exact ⟨e, rfl⟩
      | ok options =>
        obtain ⟨-, ⟨state, hstate, -⟩, -⟩ := fallbackOutcome_ok.mp hresult
        exact absurd ⟨state, hstate⟩ hno
    · exact run_undecoded hno

end Policy

end PatinaFallbackSources
