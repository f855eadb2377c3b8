import OdpPlatform.InteractionGrants
import OdpPlatform.BootPartitionLayout
import OdpPlatform.SreFmpProgress

/-! # Updates that nothing refuses

Where firmware supplies memory and the controller accepts its commands, an update that passes the
check runs to the end: FmpDeviceSetImageWithStatus returns EFI_SUCCESS, with the image on both
partitions. -/
namespace SreFmpGranted

open ByteBuffer InteractionProgram InteractionMonitor InteractionGrants FirmwareServices
open SreStorageNvme
open SreStorageGeometry SreStorageSession SreFmpDevice SreFmpImage SreFmpSetImage
open BootPartitionDevice

/-- What an update asks of firmware; the status of the variable write is not looked at. -/
def updateService : Monitor Answer Unit where
  start := ()
  step _ _ := ()
  permits _
    | .passThru _ | .allocateAlignedPages _ _ | .freeAlignedPages _ _ | .progress _ => True
    | .gRTSetVariable name _ => name = .lastAttemptStatus
    | _ => False
  relies _
    | .passThru _, r => r.Accepted
    | .allocateAlignedPages _ _, r => r.isSome = true
    | _, _ => True

abbrev Succeeds {α : Type} (P : α → Prop) (p : Firmware α) : Prop :=
  Achieves updateService (fun _ a => P a) p ()

theorem Succeeds.bind {α β : Type} {P : α → Prop} {Q : β → Prop} {p : Firmware α}
    {f : α → Firmware β} (hp : Succeeds P p) (hf : ∀ a, P a → Succeeds Q (f a)) :
    Succeeds Q (p >>= f) :=
  Achieves.bind hp fun _ => hf

section Storage

variable {s : SreStorage}

theorem writeOpen_achieves (hs : Usable s) (hclosed : s.mIsWriteOpen = false) {p : PartitionIndex}
    (hp : p ≤ srePartitionB) :
    Succeeds (· = (.success, advance s (.writeOpen p))) (sreStorageWriteOpen s p) := by
  have hrange : ¬p > srePartitionB := UInt32.not_lt.mpr hp
  unfold sreStorageWriteOpen
  rw [if_neg hrange, if_neg (by simp [hs.isSupported]), if_neg (by simp [hclosed]),
    nvmeSetLockState_eq hs.located hrange, Program.ask_bind]
  refine ⟨trivial, fun r hr => ?_⟩
  simp only [Program.done_bind, completionStatus_accepted hr]
  rfl

theorem writeBlock_achieves (hs : Usable s) (hopen : s.mIsWriteOpen = true)
    (hmore : s.mBlockIndex < s.mBlockCount) {b : Buffer} (haligned : s.mBlockAlignment ∣ b.address) :
    Succeeds (· = (.success, advance s (.writeBlock b)))
      (sreStorageWriteBlock s (some b)) := by
  unfold sreStorageWriteBlock
  dsimp only
  rw [if_neg (by simp [hs.isSupported]), if_neg (by simp [hopen]), if_neg (Nat.not_le.mpr hmore),
    if_neg (not_not.mpr (Nat.mod_eq_zero_of_dvd haligned)), executeNvmePassThru_eq hs.located,
    Program.ask_bind]
  refine ⟨trivial, fun r hr => ?_⟩
  simp only [Program.done_bind, completionStatus_accepted hr]
  rfl

theorem writeClose_achieves (hs : Usable s) (hopen : s.mIsWriteOpen = true)
    (hlast : s.mBlockIndex = s.mBlockCount) :
    Succeeds (· = (.success, advance s .writeClose)) (sreStorageWriteClose s) := by
  unfold sreStorageWriteClose
  rw [if_neg (by simp [hs.isSupported]), if_neg (by simp [hopen]), if_neg (not_not.mpr hlast),
    executeNvmePassThru_eq hs.located, Program.ask_bind]
  refine ⟨trivial, fun r hr => ?_⟩
  simp only [Program.done_bind, completionStatus_accepted hr]
  rfl

end Storage

section Apply

variable {s : SreStorage} {a : ApplyParams}

theorem sreProgress_achieves (d : SreFmp) (p : PartitionIndex) (i n : ℕ) (b : Bool) :
    Succeeds (fun d' => d'.storage = d.storage) (sreProgress d p i n b) := by
  unfold sreProgress
  split
  · dsimp only
    split
    · exact ⟨trivial, fun _ _ => rfl⟩
    · exact rfl
  · exact rfl

def At (s : SreStorage) (i : ℕ) (d : SreFmp) : Prop :=
  d.storage = { s with mIsWriteOpen := true, mBlockIndex := i }

theorem applyBlock_achieves (hs : Usable s) (hsize : a.blockSize = s.mBlockSize)
    (haligned : s.mBlockAlignment ∣ a.chunkAddress) {i : ℕ} (hi : i < s.mBlockCount)
    {st : ApplyState} (hat : At s i st.dev) :
    Succeeds (fun res => res.1 = .success ∧ At s (i + 1) res.2.dev)
      (applyBlock a st i) := by
  apply (sreProgress_achieves st.dev a.partitionIndex i a.blockCount a.progress).bind
  intro dev hdev
  have hstorage : dev.storage = { s with mIsWriteOpen := true, mBlockIndex := i } := hdev.trans hat
  have hfit := descriptor_fits hs
  have hnospan : ¬(i = sreImageInfoOffset / a.blockSize ∧
      sreImageInfoOffset % a.blockSize + sizeofSreImageInfo > a.blockSize) := by
    rw [hsize]
    omega
  have husable : Usable dev.storage := by
    rw [hstorage]
    exact hs.of_geometry ⟨rfl, rfl, rfl, rfl, rfl⟩
  dsimp only
  rw [if_neg hnospan]
  apply (writeBlock_achieves husable (by rw [hstorage]) (by rwa [hstorage])
    (by rwa [hstorage])).bind
  rintro _ rfl
  refine ⟨rfl, ?_⟩
  unfold At
  dsimp only
  rw [hstorage]
  rfl

/-- The loop lemma: the remaining indices count up to the last block. -/
theorem applyBlocks_achieves (hs : Usable s) (hsize : a.blockSize = s.mBlockSize)
    (haligned : s.mBlockAlignment ∣ a.chunkAddress) (n : ℕ) :
    ∀ {i st}, i + n = s.mBlockCount → At s i st.dev →
      Succeeds (fun res => res.1 = .success ∧ At s s.mBlockCount res.2.dev)
        (applyBlocks a (List.range' i n) st) := by
  induction n with
  | zero =>
    intro i st hin hat
    obtain rfl : i = s.mBlockCount := hin
    exact ⟨rfl, hat⟩
  | succ n ih =>
    intro i st hin hat
    rw [List.range'_succ, applyBlocks]
    apply (applyBlock_achieves hs hsize haligned (by omega) hat).bind
    rintro ⟨_, st'⟩ ⟨rfl, hat'⟩
    exact ih (by omega) hat'

theorem writeImage_achieves (hs : Usable s) (hsize : a.blockSize = s.mBlockSize)
    (hcount : a.blockCount = s.mBlockCount) (haligned : s.mBlockAlignment ∣ a.chunkAddress)
    {st : ApplyState} (hat : At s 0 st.dev) :
    Succeeds (fun res => res.1 = .success ∧
      res.2.storage = { s with mIsWriteOpen := false, mBlockIndex := 0 }) (writeImage a st) := by
  unfold writeImage
  rw [List.range_eq_range', hcount]
  apply (applyBlocks_achieves hs hsize haligned s.mBlockCount (Nat.zero_add _) hat).bind
  rintro ⟨_, st'⟩ ⟨rfl, hat'⟩
  have husable : Usable st'.dev.storage := by
    rw [hat']
    exact hs.of_geometry ⟨rfl, rfl, rfl, rfl, rfl⟩
  have hclose := writeClose_achieves husable (by rw [hat']) (by rw [hat'])
  have hclosed : advance st'.dev.storage .writeClose =
      { s with mIsWriteOpen := false, mBlockIndex := 0 } := by
    rw [hat']
    rfl
  simp only [Status.isError, Bool.false_eq_true, if_false]
  cases a.progress with
  | true =>
    refine ⟨trivial, fun _ _ => hclose.bind ?_⟩
    rintro _ rfl
    exact ⟨rfl, hclosed⟩
  | false =>
    apply hclose.bind
    rintro _ rfl
    exact ⟨rfl, hclosed⟩

theorem applyWim_achieves {d : SreFmp} (hs : Usable d.storage)
    (hclosed : d.storage.mIsWriteOpen = false) {p : PartitionIndex} (hp : p ≤ srePartitionB)
    (image : Bytes) (v : UInt32) (progress : Bool) :
    Succeeds (fun res => res.1 = .success ∧ ClosedLike d.storage res.2.storage)
      (applyWimToSreStorage d p image v progress) := by
  have hinfo : sreStorageInfo d.storage =
      .ok ⟨d.storage.mBlockCount, d.storage.mBlockSize, d.storage.mBlockAlignment⟩ := by
    simp [sreStorageInfo, hs.isSupported]
  unfold applyWimToSreStorage
  rw [hinfo]
  refine ⟨trivial, fun chunk hchunk => ?_⟩
  cases chunk with
  | none => cases hchunk
  | some chunk =>
    apply (writeOpen_achieves hs hclosed hp).bind
    rintro _ rfl
    have hopen : Usable (advance d.storage (.writeOpen p)) :=
      hs.of_geometry ⟨rfl, rfl, rfl, rfl, rfl⟩
    refine (writeImage_achieves hopen ?_ ?_ chunk.aligned ?_).bind ?_
    · rfl
    · rfl
    · rfl
    rintro ⟨_, d'⟩ ⟨rfl, hstorage⟩
    refine ⟨trivial, fun _ _ => ⟨rfl, ?_⟩⟩
    rw [hstorage]
    exact ⟨rfl, hs.of_geometry ⟨rfl, rfl, rfl, rfl, rfl⟩, rfl, rfl⟩

end Apply

section SetImage

variable {d : SreFmp} {bytes : Bytes} {progress outputsNonNull : Bool} {v : UInt32}

theorem applyBoth_achieves (hs : Usable d.storage) (hclosed : d.storage.mIsWriteOpen = false) :
    Succeeds
      (fun res => res.1 = lastAttemptStatusSuccess ∧ ClosedLike d.storage res.2.storage)
      (applyBoth d bytes v progress) := by
  apply (applyWim_achieves hs hclosed (by decide) bytes v progress).bind
  rintro ⟨_, dA⟩ ⟨rfl, hlike⟩
  apply (applyWim_achieves hlike.usable hlike.closed (by decide) bytes v progress).bind
  rintro ⟨_, dB⟩ ⟨rfl, hlike'⟩
  exact ⟨rfl, hlike'.closed, hlike'.usable, hlike'.count_eq.trans hlike.count_eq,
    hlike'.size_eq.trans hlike.size_eq⟩

theorem setImage_achieves (hs : Usable d.storage) (hclosed : d.storage.mIsWriteOpen = false)
    (hp : Passes d.storage (some bytes) outputsNonNull) :
    Succeeds (fun res => res.status = .success ∧
        res.lastAttemptStatus = some lastAttemptStatusSuccess ∧
        ClosedLike d.storage res.dev.storage)
      (fmpDeviceSetImageWithStatus d (some bytes) progress v outputsNonNull) := by
  rw [SreFmpProgress.setImage_passes hp]
  apply (applyBoth_achieves hs hclosed).bind
  rintro ⟨_, d'⟩ ⟨rfl, hlike⟩
  exact ⟨rfl, fun _ _ => ⟨rfl, rfl, hlike⟩⟩

/-- What an update leaves. -/
structure Updated (d : SreFmp) (bytes : Bytes) (v : UInt32) (h : FirmwareTrace)
    (res : SetImageResult) : Prop where
  success : res.status = .success
  reported : res.lastAttemptStatus = some lastAttemptStatusSuccess
  closed : ClosedLike d.storage res.dev.storage
  content : ∀ D : Device, D.staging.length = d.storage.mBlockCount * d.storage.mBlockSize →
    ∀ p, p = srePartitionA ∨ p = srePartitionB → (D.after (commandsOf h)).content p =
      stampedImage (d.storage.mBlockCount * d.storage.mBlockSize) bytes v

theorem setImage_completes {env : FirmwareEnv} (hs : Usable d.storage)
    (hclosed : d.storage.mIsWriteOpen = false)
    (hp : Passes d.storage (some bytes) outputsNonNull) (henv : Supplies updateService env) :
    ∃ h res, (fmpDeviceSetImageWithStatus d (some bytes) progress v outputsNonNull).run env [] =
      (h, some res) ∧ Updated d bytes v h res := by
  obtain ⟨h, res, hrun, hok, hreported, hlike⟩ :=
    Achieves.run henv (h := []) (setImage_achieves hs hclosed hp)
  refine ⟨h, res, hrun, hok, hreported, hlike, ?_⟩
  intro D hstaging
  obtain ⟨_, himage, -, -, hcontent⟩ :=
    BootPartitionLayout.setImage_content hs hclosed hstaging.symm hrun hok
  cases himage
  exact hcontent

theorem updateEnv_supplies : Supplies updateService (updateEnv fun _ => false) := by
  intro h c hoffers
  cases c with
  | passThru p => exact ⟨_, rfl, rfl, rfl, rfl⟩
  | allocateAlignedPages pages alignment => exact ⟨_, rfl, rfl⟩
  | freeAlignedPages address pages => exact ⟨_, rfl, trivial⟩
  | progress percent => exact ⟨_, rfl, trivial⟩
  | gRTSetVariable name data =>
    cases hoffers
    exact ⟨_, rfl, trivial⟩
  | _ => exact hoffers.elim

end SetImage

end SreFmpGranted
