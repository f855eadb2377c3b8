import OdpPlatform.SreStorageNvme

/-! # The geometry the storage constructor computes

Block size comes from the Identify Controller FWUG byte, the partition size from BPINFO.BPSZ;
the block count is their integer quotient. -/
namespace SreStorageGeometry

open ByteBuffer DevicePathNodes InteractionProgram InteractionContract FirmwareServices
open SreStorageNvme

/-- BPINFO.BPSZ, in units of 128 KiB. -/
def bpsz (bpInfo : UInt32) : ℕ := (bpInfo &&& sreNvmeBpinfoBpszMask).toNat

def partitionSize (bpInfo : UInt32) : ℕ := bpsz bpInfo * size128KB

theorem bpsz_le (bpInfo : UInt32) : bpsz bpInfo ≤ 0x7FFF := by
  simp only [bpsz, sreNvmeBpinfoBpszMask, UInt32.toNat_and]
  exact Nat.and_le_right

def reports (F : UInt8 → Prop) (B : UInt32 → Prop) : Contract Answer where
  guard _ _ := True
  rely _ c r :=
    match c, r with
    | .passThru p, r =>
      p.command.opcode = nvmeAdminIdentifyCmd → p.transferLength = sreNvmeIdentifyBufferSize →
        F ((received p r).getD sreNvmeIdCtrlOffsetFwug 0)
    | .pciMemRead offset _, r => offset = nvmeBpinfoOffset → B (r.2.getD 0 0)
    | _, _ => True

/-- What the geometry satisfies once `mIsSupported` is set; the sessions never change it. -/
structure Usable (s : SreStorage) : Prop where
  isSupported : s.mIsSupported = true
  located : s.mNvmePassThru = true
  alignment_pos : 0 < s.mBlockAlignment
  blockSize : ∃ k, 1 ≤ k ∧ k ≤ 254 ∧ s.mBlockSize = k * 4096
  blockCount_pos : 0 < s.mBlockCount
  bounded : s.mBlockCount * s.mBlockSize ≤ 0x7FFF * size128KB
  -- room for the offset at which the image descriptor is kept
  spacious : 0x4400 < s.mBlockCount * s.mBlockSize

structure Supported (s : SreStorage) : Prop extends Usable s where
  closed : s.mIsWriteOpen = false
  index_zero : s.mBlockIndex = 0
  partition_le : s.mPartitionIndex ≤ srePartitionB

structure Computed (fwug : UInt8) (bpInfo : UInt32) (s : SreStorage) : Prop extends Supported s where
  size_eq : s.mBlockSize = blockSizeOf fwug
  count_eq : s.mBlockCount = partitionSize bpInfo / blockSizeOf fwug

theorem Usable.of_geometry {s t : SreStorage} (hs : Usable s)
    (h : t.mIsSupported = s.mIsSupported ∧ t.mNvmePassThru = s.mNvmePassThru ∧
      t.mBlockAlignment = s.mBlockAlignment ∧ t.mBlockSize = s.mBlockSize ∧
      t.mBlockCount = s.mBlockCount) : Usable t := by
  obtain ⟨h1, h2, h3, h4, h5⟩ := h
  exact
    { isSupported := h1 ▸ hs.isSupported
      located := h2 ▸ hs.located
      alignment_pos := h3 ▸ hs.alignment_pos
      blockSize := h4 ▸ hs.blockSize
      blockCount_pos := h5 ▸ hs.blockCount_pos
      bounded := h4 ▸ h5 ▸ hs.bounded
      spacious := h4 ▸ h5 ▸ hs.spacious }

/-- At least half of 128 KiB is always covered by whole blocks. -/
theorem div_mul_ge {size block : ℕ} (hs : size128KB ≤ size) (hb : 0 < block) (hle : block ≤ size) :
    65536 ≤ size / block * block := by
  unfold size128KB at hs
  have hrem := Nat.div_add_mod size block
  have hlt := Nat.mod_lt size hb
  have hone : 1 * block ≤ size / block * block := Nat.mul_le_mul_right _ (Nat.div_pos hle hb)
  rw [Nat.mul_comm] at hrem
  omega

theorem blockSizeOf_eq (fwug : UInt8) :
    ∃ k, 1 ≤ k ∧ k ≤ 254 ∧ blockSizeOf fwug = k * 4096 := by
  unfold blockSizeOf sreNvmeFwugNoInfo sreNvmeFwugNoRestriction sreNvmeFwugResolution
    sreNvmeFwugDefaultGranularity
  split
  · exact ⟨1, by omega⟩
  next hne =>
    have h0 : fwug.toNat ≠ 0 := fun h => hne (Or.inl (UInt8.toNat_inj.mp h))
    have h255 : fwug.toNat ≠ 255 := fun h => hne (Or.inr (UInt8.toNat_inj.mp h))
    have hlt := fwug.toNat_lt
    exact ⟨fwug.toNat, by omega, by omega, Nat.mul_comm _ _⟩

variable {F : UInt8 → Prop} {B : UInt32 → Prop}

/-- The postcondition of the constructor and of its last part. -/
def GeometryOrUnsupported (F : UInt8 → Prop) (B : UInt32 → Prop) (s : SreStorage) : Prop :=
  s.mIsSupported = true → ∃ fwug bpInfo, F fwug ∧ B bpInfo ∧ Computed fwug bpInfo s

theorem unsupported_geometry {s : SreStorage} (hs : s.mIsSupported = false) :
    GeometryOrUnsupported F B s := by
  intro ht
  rw [hs] at ht
  cases ht

theorem setGeometry_meets {s : SreStorage} {id : IdentifyFields} (hn : s.mIsSupported = false)
    (hl : s.mNvmePassThru = true) (hc : s.mIsWriteOpen = false) (hi : s.mBlockIndex = 0)
    (hp : s.mPartitionIndex ≤ srePartitionB) (ha : 0 < s.mBlockAlignment) (hf : F id.firmwareUpdateGranularity) (h : FirmwareTrace) :
    Meets (reports F B) (fun _ s' => GeometryOrUnsupported F B s') (setGeometry s id) h := by
  simp only [setGeometry, Program.call_bind, Program.pure_eq_done]
  split
  · exact unsupported_geometry hn
  split
  · exact unsupported_geometry hn
  refine ⟨trivial, fun r hr => ?_⟩
  have hw : B (r.2.getD 0 0) := hr rfl
  dsimp only
  split
  · exact unsupported_geometry hn
  split
  · exact unsupported_geometry hn
  split
  · exact unsupported_geometry hn
  next hz hle =>
    intro _
    have hone : size128KB ≤ partitionSize (r.2.getD 0 0) :=
      Nat.le_mul_of_pos_left _ (Nat.pos_of_ne_zero fun h0 => hz (UInt32.toNat_inj.mp h0))
    obtain ⟨k, hk1, hk2, hk⟩ := blockSizeOf_eq id.firmwareUpdateGranularity
    have hle : blockSizeOf id.firmwareUpdateGranularity ≤ partitionSize (r.2.getD 0 0) :=
      Nat.le_of_not_lt hle
    have hmul := Nat.div_mul_le_self (partitionSize (r.2.getD 0 0))
      (blockSizeOf id.firmwareUpdateGranularity)
    have hmax : partitionSize (r.2.getD 0 0) ≤ 0x7FFF * size128KB :=
      Nat.mul_le_mul_right _ (bpsz_le _)
    exact ⟨_, _, hf, hw,
      { isSupported := rfl
        located := hl
        closed := hc
        index_zero := hi
        partition_le := hp
        alignment_pos := ha
        blockSize := ⟨k, hk1, hk2, hk⟩
        blockCount_pos := Nat.div_pos hle (by omega)
        bounded := hmul.trans hmax
        spacious := Nat.lt_of_lt_of_le (by decide) (div_mul_ge hone (by omega) hle)
        size_eq := rfl
        count_eq := rfl }⟩

/-- The FWUG byte that the constructor works with is the one the controller reports. -/
theorem identifyController_meets {s : SreStorage} (hl : s.mNvmePassThru = true)
    (h : FirmwareTrace) :
    Meets (reports F B) (fun _ r => ∀ id, r = .ok id → F id.firmwareUpdateGranularity)
      (identifyController s) h := by
  simp only [identifyController, executeNvmePassThru_eq hl, Program.call_bind,
    Program.pure_eq_done]
  refine ⟨trivial, fun buffer _ => ?_⟩
  cases buffer with
  | none => simp
  | some buffer =>
    refine ⟨trivial, fun c hc => ⟨trivial, fun _ _ => ?_⟩⟩
    have hf := hc rfl rfl
    dsimp only
    split
    · simp
    · intro id hid
      cases hid
      exact hf

/-- The constructor leaves the storage unsupported, or with the geometry of the two values. -/
theorem constructor_meets (F : UInt8 → Prop) (B : UInt32 → Prop) (fuel : ℕ) (h : FirmwareTrace) :
    Meets (reports F B) (fun _ r => GeometryOrUnsupported F B r.2)
      (sreStorageLibConstructor fuel) h := by
  have hg : ∀ h c, (reports F B).guard h c := fun _ _ => trivial
  unfold sreStorageLibConstructor
  refine (Meets.trivial hg (connectStorageDevice fuel) h).bind fun h₁ r _ _ => ?_
  simp only [Program.call_bind, Program.pure_eq_done]
  split
  · exact unsupported_geometry rfl
  refine ⟨trivial, fun _ _ => ?_⟩
  dsimp only
  split
  · exact unsupported_geometry rfl
  refine ⟨trivial, fun _ _ => ?_⟩
  dsimp only
  split
  · exact unsupported_geometry rfl
  refine ⟨trivial, fun ioAlign _ => ⟨trivial, fun cap _ => ?_⟩⟩
  dsimp only
  split
  · exact unsupported_geometry rfl
  split
  · exact unsupported_geometry rfl
  refine (identifyController_meets rfl _).bind fun h₂ r _ hr => ?_
  cases r with
  | error e => exact unsupported_geometry rfl
  | ok id =>
    have ha : 0 < if ioAlign = 0 then efiPageSize else ioAlign.toNat := by
      split
      · decide
      next hne => exact Nat.pos_of_ne_zero fun hz => hne (UInt32.toNat_inj.mp hz)
    exact (setGeometry_meets rfl rfl rfl rfl (UInt32.zero_le) ha (hr id rfl) h₂).bind fun _ s _ hs => hs

/-- The states from which every run of the library starts: what the constructor leaves when it
finds the device usable, whatever device and firmware it ran on. -/
def ConstructorLeaves (s : SreStorage) : Prop :=
  ∃ fuel env, ((sreStorageLibConstructor fuel).run env []).2 = some (.success, s) ∧
    s.mIsSupported = true

theorem ConstructorLeaves.supported {s : SreStorage} (hc : ConstructorLeaves s) :
    Supported s := by
  obtain ⟨fuel, env, hrun, hs⟩ := hc
  have hadmits : (reports (fun _ => True) (fun _ => True)).Admits env := by
    intro h c r _
    cases c with
    | passThru => exact fun _ _ => trivial
    | pciMemRead => exact fun _ => trivial
    | _ => trivial
  have hq := ((constructor_meets _ _ fuel []).sound hadmits (guarded_nil _)).2 _ hrun
  obtain ⟨_, _, _, _, hcomp⟩ := hq hs
  exact hcomp.toSupported

def identifyData (fwug : UInt8) : Bytes :=
  (List.replicate 102 0 ++ [sreNvmeBpcapSfbpwps] ++ List.replicate 158 0 ++ [sreNvmeLpaLpeds] ++
    List.replicate 57 0) ++ [fwug]

def controllerEnv (fwug : UInt8) (bpInfo : UInt32) : FirmwareEnv := fun _ c =>
  match c with
  | .convertTextToDevicePath => some (some [⟨typeHardware, 1, []⟩, endEntire])
  | .gBSLocateDevicePath _ => some (.success, 1, [endEntire])
  | .gBSConnectController _ => some .success
  | .gBSHandleProtocol _ _ => some .success
  | .freePool => some ()
  | .nvmeIoAlign => some 0
  | .pciMemRead offset _ =>
    some (.success, if offset = nvmeBpinfoOffset then [bpInfo] else [0, 0x2000])
  | .allocateAlignedPages pages _ =>
    some (some ⟨0, List.replicate (pages * 4096) 0, by simp, dvd_zero _⟩)
  | .freeAlignedPages _ _ => some ()
  | .passThru _ => some ⟨.success, 0, 0, identifyData fwug⟩
  | _ => none

theorem length_identifyData (fwug : UInt8) : (identifyData fwug).length = 320 := by
  simp [identifyData, -List.reduceReplicate]

theorem identifyData_fwug (fwug : UInt8) (rest : Bytes) :
    (identifyData fwug ++ rest).getD sreNvmeIdCtrlOffsetFwug 0 = fwug := by
  have hl := length_identifyData fwug
  rw [List.getD_eq_getElem?_getD, List.getElem?_append_left (by rw [hl]; decide),
    identifyData, List.getElem?_append_right (by simp [sreNvmeIdCtrlOffsetFwug, -List.reduceReplicate])]
  simp [sreNvmeIdCtrlOffsetFwug, -List.reduceReplicate]

theorem controllerEnv_admits (fwug : UInt8) (bpInfo : UInt32) :
    (reports (· = fwug) (· = bpInfo)).Admits (controllerEnv fwug bpInfo) := by
  intro h c r hr
  cases c with
  | passThru p =>
    cases hr
    intro _ hlen
    have hl := length_identifyData fwug
    simp only [received, splice, hlen, List.take_zero, List.nil_append,
      List.take_of_length_le (hl.le.trans (by decide : 320 ≤ sreNvmeIdentifyBufferSize))]
    exact identifyData_fwug fwug _
  | pciMemRead offset count =>
    cases hr
    intro ho
    simp [ho]
  | _ => trivial

theorem blockSizeOf_dvd_iff (fwug : UInt8) (bpInfo : UInt32) :
    blockSizeOf fwug ∣ partitionSize bpInfo ↔
      fwug = sreNvmeFwugNoInfo ∨ fwug = sreNvmeFwugNoRestriction ∨
        fwug.toNat ∣ 32 * bpsz bpInfo := by
  have hpages : partitionSize bpInfo = 4096 * (32 * bpsz bpInfo) := by
    unfold partitionSize size128KB
    omega
  rw [hpages]
  unfold blockSizeOf sreNvmeFwugResolution sreNvmeFwugDefaultGranularity
  split
  next hdef =>
    have hdvd : 4096 * 1 ∣ 4096 * (32 * bpsz bpInfo) := Nat.mul_dvd_mul_left _ (one_dvd _)
    exact ⟨fun _ => hdef.elim Or.inl fun h => Or.inr (Or.inl h), fun _ => hdvd⟩
  next hdef =>
    rw [Nat.mul_dvd_mul_iff_left (by omega)]
    constructor
    · exact fun hd => Or.inr (Or.inr hd)
    · rintro (h0 | h255 | hd)
      · exact absurd (Or.inl h0) hdef
      · exact absurd (Or.inr h255) hdef
      · exact hd

/-- The counts divide evenly exactly when FWUG gives no granularity or divides BPSZ in 4 KiB
pages; otherwise the blocks that a commit waits for stop short of the end of the partition. -/
theorem commit_covers_partition_iff {fwug : UInt8} {bpInfo : UInt32} {env : FirmwareEnv}
    (he : (reports (· = fwug) (· = bpInfo)).Admits env) {fuel : ℕ} {st : Status}
    {s : SreStorage} (hrun : ((sreStorageLibConstructor fuel).run env []).2 = some (st, s))
    (hs : s.mIsSupported = true) :
    s.mBlockCount * s.mBlockSize = partitionSize bpInfo ↔
      fwug = sreNvmeFwugNoInfo ∨ fwug = sreNvmeFwugNoRestriction ∨
        fwug.toNat ∣ 32 * bpsz bpInfo := by
  have hq := ((constructor_meets _ _ fuel []).sound he (guarded_nil _)).2 _ hrun
  obtain ⟨f, w, hf, hw, hcomp⟩ := hq hs
  have hf : f = fwug := hf
  have hw : w = bpInfo := hw
  rw [hf, hw] at hcomp
  rw [hcomp.count_eq, hcomp.size_eq, ← Nat.dvd_iff_div_mul_eq]
  exact blockSizeOf_dvd_iff fwug bpInfo

/-- What the constructor leaves on a controller with 8 KiB blocks and a 512 KiB partition. -/
def evenGeometry : SreStorage :=
  { mBlockSize := 8192
    mBlockCount := 64
    mBlockAlignment := 4096
    mNvmePassThru := true
    mIsSupported := true }

theorem controllerEnv_even :
    ((sreStorageLibConstructor 1).run (controllerEnv 2 4) []).2 = some (.success, evenGeometry) := by
  decide

theorem commit_covers_partition_even :
    64 * 8192 = partitionSize 4 ↔
      (2 : UInt8) = sreNvmeFwugNoInfo ∨ (2 : UInt8) = sreNvmeFwugNoRestriction ∨
        (2 : UInt8).toNat ∣ 32 * bpsz 4 :=
  commit_covers_partition_iff (controllerEnv_admits 2 4) controllerEnv_even rfl

/-- 12 KiB blocks in a partition of 128 KiB: ten blocks, and 8 KiB never written. -/
theorem commit_stops_short :
    ¬ ∀ (fwug : UInt8) (bpInfo : UInt32) (env : FirmwareEnv) (fuel : ℕ) (st : Status)
      (s : SreStorage), (reports (· = fwug) (· = bpInfo)).Admits env →
      ((sreStorageLibConstructor fuel).run env []).2 = some (st, s) → s.mIsSupported = true →
      s.mBlockCount * s.mBlockSize = partitionSize bpInfo := by
  intro hall
  have hrun : ((sreStorageLibConstructor 1).run (controllerEnv 3 1) []).2 = some (.success,
      { evenGeometry with mBlockSize := 12288, mBlockCount := 10 }) := by
    decide
  exact absurd (hall 3 1 _ 1 _ _ (controllerEnv_admits 3 1) hrun rfl) (by decide)

end SreStorageGeometry
