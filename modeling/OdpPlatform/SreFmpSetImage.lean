import OdpPlatform.BootPartitionDevice

/-! # Runs of FmpDeviceSetImageWithStatus

Every way a run can return, once and for all; the results about failures, layout and versions
are read off these cases. -/
namespace SreFmpSetImage

open ByteBuffer InteractionProgram InteractionContract FirmwareServices SreStorageNvme
open SreStorageGeometry SreStorageSession SreFmpDevice SreFmpImage BootPartitionDevice

def Passes (s : SreStorage) (image : Option Bytes) (outputsNonNull : Bool) : Prop :=
  fmpDeviceCheckImageWithStatus s image outputsNonNull =
    (.success, ⟨some imageUpdatableValid, some lastAttemptStatusSuccess⟩)

instance (s : SreStorage) (image : Option Bytes) (outputsNonNull : Bool) :
    Decidable (Passes s image outputsNonNull) := inferInstanceAs (Decidable (_ = _))

theorem passes_iff {s : SreStorage} {image : Option Bytes} {outputsNonNull : Bool} :
    Passes s image outputsNonNull ↔ ∃ bytes, image = some bytes ∧ bytes.length ≠ 0 ∧
      outputsNonNull = true ∧ s.mIsSupported = true ∧
      bytes.length ≤ s.mBlockCount * s.mBlockSize := by
  unfold Passes fmpDeviceCheckImageWithStatus sreStorageInfo
  cases image with
  | none => simp [efiInvalidParameter]
  | some bytes =>
    by_cases h0 : bytes.length = 0 ∨ outputsNonNull = false
    · simp only [if_pos h0]
      constructor
      · intro h
        cases h
      · rintro ⟨b, hb, hne, ho, _⟩
        cases hb
        rcases h0 with h0 | h0
        · exact absurd h0 hne
        · rw [ho] at h0
          cases h0
    · obtain ⟨hne, ho⟩ := not_or.mp h0
      simp only [if_neg h0]
      cases hsup : s.mIsSupported with
      | false => simp [efiUnsupported]
      | true =>
        by_cases hfit : bytes.length > s.mBlockCount * s.mBlockSize
        · simp [hfit, Nat.not_le.mpr hfit, imageUpdatableInvalid, imageUpdatableValid]
        · simp [hfit, Nat.not_lt.mp hfit, ho, List.length_eq_zero_iff.not.mp hne]

/-- A check that does not pass: no device, or no room. -/
theorem check_refused {s : SreStorage} {bytes : Bytes} (hne : bytes.length ≠ 0)
    (hnp : ¬Passes s (some bytes) true) :
    (s.mIsSupported = false ∧ fmpDeviceCheckImageWithStatus s (some bytes) true =
      (efiUnsupported, ⟨some imageUpdatableInvalid, some lastAttemptStatusErrorInvalidFormat⟩)) ∨
    (s.mIsSupported = true ∧ fmpDeviceCheckImageWithStatus s (some bytes) true =
      (.success, ⟨some imageUpdatableInvalid, some lastAttemptStatusErrorInvalidFormat⟩)) := by
  have hnil := List.length_eq_zero_iff.not.mp hne
  cases hsup : s.mIsSupported with
  | false =>
    left
    refine ⟨rfl, ?_⟩
    simp [fmpDeviceCheckImageWithStatus, sreStorageInfo, hsup, hnil]
  | true =>
    have hbig : bytes.length > s.mBlockCount * s.mBlockSize :=
      Nat.lt_of_not_le fun hle => hnp (passes_iff.mpr ⟨bytes, rfl, hne, rfl, hsup, hle⟩)
    right
    refine ⟨rfl, ?_⟩
    simp [fmpDeviceCheckImageWithStatus, sreStorageInfo, hsup, hbig, hnil]

def lasOf (statusA statusB : Status) : UInt32 :=
  if statusA.isError ∨ statusB.isError then lastAttemptStatusErrorUnsuccessful
  else lastAttemptStatusSuccess

theorem lasOf_success {statusA statusB : Status} :
    lasOf statusA statusB = lastAttemptStatusSuccess ↔
      statusA.isError = false ∧ statusB.isError = false := by
  unfold lasOf
  cases statusA.isError <;> cases statusB.isError <;> simp [lastAttemptStatusSuccess,
    lastAttemptStatusErrorUnsuccessful]

/-- A run of the two applies that returns. -/
def BothApplied (env : FirmwareEnv) (d : SreFmp) (image : Bytes) (v : UInt32)
    (progress : Bool) (h h' : FirmwareTrace) (statusA statusB : Status) (d' : SreFmp) : Prop :=
  ∃ hA dA, (applyWimToSreStorage d srePartitionA image v progress).run env h =
      (hA, some (statusA, dA)) ∧
    (applyWimToSreStorage dA srePartitionB image v progress).run env hA =
      (h', some (statusB, d'))

theorem applyBoth_returns {env : FirmwareEnv} {d d' : SreFmp} {image : Bytes} {v las : UInt32}
    {progress : Bool} {h h' : FirmwareTrace}
    (hrun : (applyBoth d image v progress).run env h = (h', some (las, d'))) :
    ∃ statusA statusB, BothApplied env d image v progress h h' statusA statusB d' ∧
      las = lasOf statusA statusB := by
  obtain ⟨hA, ⟨statusA, dA⟩, hrunA, hrest⟩ := Program.run_bind_returns env h hrun
  obtain ⟨hB, ⟨statusB, dB⟩, hrunB, hrest⟩ := Program.run_bind_returns env hA hrest
  cases hrest
  refine ⟨statusA, statusB, ⟨hA, dA, hrunA, hrunB⟩, ?_⟩
  unfold lasOf
  cases statusA.isError <;> cases statusB.isError <;> rfl

inductive Returned (env : FirmwareEnv) (d : SreFmp) (image : Option Bytes) (progress : Bool)
    (v : UInt32) (outputsNonNull : Bool) (h : FirmwareTrace) :
    FirmwareTrace → SetImageResult → Prop where
  | invalid : ¬Passes d.storage image outputsNonNull →
      Returned env d image progress v outputsNonNull h h ⟨efiInvalidParameter, none, d⟩
  | unchecked : ¬Passes d.storage image outputsNonNull → d.storage.mIsSupported = false →
      Returned env d image progress v outputsNonNull h h
        ⟨efiAborted, some lastAttemptStatusErrorInvalidFormat, d⟩
  | unfit {r} : ¬Passes d.storage image outputsNonNull → d.storage.mIsSupported = true →
      Returned env d image progress v outputsNonNull h
        (h ++ [⟨.gRTSetVariable .lastAttemptStatus
          (lasVariableData lastAttemptStatusErrorInvalidFormat v), some r⟩])
        ⟨efiAborted, some lastAttemptStatusErrorInvalidFormat, d⟩
  | applied {bytes statusA statusB h' d' r} : Passes d.storage image outputsNonNull →
      image = some bytes →
      BothApplied env d bytes v progress h h' statusA statusB d' →
      Returned env d image progress v outputsNonNull h
        (h' ++ [⟨.gRTSetVariable .lastAttemptStatus
          (lasVariableData (lasOf statusA statusB) v), some r⟩])
        ⟨if lasOf statusA statusB = lastAttemptStatusSuccess then .success else efiAborted,
          some (lasOf statusA statusB), d'⟩

theorem setImage_returned {env : FirmwareEnv} {d : SreFmp} {image : Option Bytes}
    {progress : Bool} {v : UInt32} {outputsNonNull : Bool} {h h' : FirmwareTrace}
    {res : SetImageResult}
    (hrun : (fmpDeviceSetImageWithStatus d image progress v outputsNonNull).run env h =
      (h', some res)) :
    Returned env d image progress v outputsNonNull h h' res := by
  unfold fmpDeviceSetImageWithStatus at hrun
  cases image with
  | none =>
    cases hrun
    exact .invalid fun hp => by simpa using passes_iff.mp hp
  | some bytes =>
    dsimp only at hrun
    split at hrun
    next h0 =>
      cases hrun
      refine .invalid fun hp => ?_
      obtain ⟨b, hb, hne, ho, _⟩ := passes_iff.mp hp
      cases hb
      rcases h0 with h0 | h0
      · exact hne h0
      · rw [ho] at h0
        cases h0
    next h0 =>
      obtain ⟨hne, ho⟩ := not_or.mp h0
      have ho : outputsNonNull = true := by simpa using ho
      subst ho
      by_cases hp : Passes d.storage (some bytes) true
      · have hcheck : fmpDeviceCheckImageWithStatus d.storage (some bytes) true = _ := hp
        simp only [hcheck, isError_success, Bool.false_eq_true, if_false, Option.getD_some,
          ne_eq, not_true_eq_false, and_false, if_true] at hrun
        obtain ⟨h₁, ⟨las, d'⟩, happly, hrest⟩ := Program.run_bind_returns env h hrun
        obtain ⟨statusA, statusB, hboth, rfl⟩ := applyBoth_returns happly
        obtain ⟨r, _, hrest⟩ := Program.run_ask_returns env h₁ hrest
        cases hrest
        exact .applied hp rfl hboth
      · cases check_refused hne hp with
        | inl hunchecked =>
          obtain ⟨hsup, hcheck⟩ := hunchecked
          simp only [hcheck, efiUnsupported, Status.isError, if_true] at hrun
          cases hrun
          exact .unchecked hp hsup
        | inr hunfit =>
          obtain ⟨hsup, hcheck⟩ := hunfit
          have hlas : ¬lastAttemptStatusErrorInvalidFormat = lastAttemptStatusSuccess := by decide
          simp only [hcheck, isError_success, Bool.false_eq_true, if_false, Option.getD_some,
            hlas, false_and] at hrun
          obtain ⟨r, _, hrest⟩ := Program.run_ask_returns env h hrun
          rw [if_neg hlas] at hrest
          cases hrest
          exact .unfit hp hsup

section Applies

variable {env : FirmwareEnv} {d : SreFmp} {image : Bytes} {v : UInt32} {progress : Bool}
variable {h h' : FirmwareTrace}

theorem apply_returns (hs : Usable d.storage) (hclosed : d.storage.mIsWriteOpen = false)
    (himage : image.length ≤ d.storage.mBlockCount * d.storage.mBlockSize) {p : PartitionIndex}
    (hp : p ≤ srePartitionB) {st : Status} {d' : SreFmp}
    (hrun : (applyWimToSreStorage d p image v progress).run env h = (h', some (st, d'))) :
    (∃ cs, commandsOf h' = commandsOf h ++ cs ∧ Applied d.storage p image v cs st) ∧
      ClosedLike d.storage d'.storage :=
  anyDevice_returns (applyWim_meets hs hclosed hp himage rfl progress h) hrun

theorem bothApplied_commands (hs : Usable d.storage) (hclosed : d.storage.mIsWriteOpen = false)
    (himage : image.length ≤ d.storage.mBlockCount * d.storage.mBlockSize)
    {statusA statusB : Status} {d' : SreFmp}
    (hboth : BothApplied env d image v progress h h' statusA statusB d') :
    (∃ csA csB, commandsOf h' = commandsOf h ++ csA ++ csB ∧
      Applied d.storage srePartitionA image v csA statusA ∧
      Applied d.storage srePartitionB image v csB statusB) ∧
      ClosedLike d.storage d'.storage := by
  obtain ⟨hA, dA, hrunA, hrunB⟩ := hboth
  obtain ⟨⟨csA, hcsA, happA⟩, hlike⟩ := apply_returns hs hclosed himage (by decide) hrunA
  have himage' : image.length ≤ dA.storage.mBlockCount * dA.storage.mBlockSize := by
    rw [hlike.count_eq, hlike.size_eq]
    exact himage
  obtain ⟨⟨csB, hcsB, happB⟩, hlike'⟩ :=
    apply_returns hlike.usable hlike.closed himage' (by decide) hrunB
  refine ⟨⟨csA, csB, by rw [hcsB, hcsA], happA, happB.congr hlike⟩, hlike'.closed, hlike'.usable,
    hlike'.count_eq.trans hlike.count_eq, hlike'.size_eq.trans hlike.size_eq⟩

end Applies

def updateEnv (rejects : Packet → Bool) : FirmwareEnv := fun h c =>
  match c with
  | .gRTSetVariable _ _ => some .success
  | .progress _ => some ()
  | .passThru p => some ⟨if rejects p then .error 7 else .success, 0, 0, []⟩
  | c => controllerEnv 32 1 h c

def isCommitOf (p : PartitionIndex) (packet : Packet) : Bool :=
  packet.command.opcode == nvmeAdminFwCommitCmd && commitBpid packet.command == p

end SreFmpSetImage
