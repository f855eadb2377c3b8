import OdpPlatform.PatinaBpRecovery

/-! # bp_recovery.rs: reading blocks of the RAM disk

The state box behind the BlockIo interface, and what its read callback does to the caller's
memory. The write and flush callbacks touch no memory. -/
namespace PatinaRamDiskBlocks

open ByteBuffer DevicePathNodes FirmwareServices

abbrev efiMediaChanged : Status := .error 13

def ramDiskBlockSize : UInt32 := 512

def saturatingMul (a b : UInt64) : UInt64 := UInt64.ofNat (min (a.toNat * b.toNat) (2 ^ 64 - 1))

def saturatingAdd (a b : UInt64) : UInt64 := UInt64.ofNat (min (a.toNat + b.toNat) (2 ^ 64 - 1))

def saturatingSub (a b : UInt64) : UInt64 := UInt64.ofNat (a.toNat - b.toNat)

theorem toNat_saturatingMul (a b : UInt64) :
    (saturatingMul a b).toNat = min (a.toNat * b.toNat) (2 ^ 64 - 1) := by
  rw [saturatingMul, UInt64.toNat_ofNat']
  omega

theorem toNat_saturatingAdd (a b : UInt64) :
    (saturatingAdd a b).toNat = min (a.toNat + b.toNat) (2 ^ 64 - 1) := by
  rw [saturatingAdd, UInt64.toNat_ofNat']
  omega

theorem toNat_saturatingSub (a b : UInt64) : (saturatingSub a b).toNat = a.toNat - b.toNat := by
  have ha := a.toNat_lt
  rw [saturatingSub, UInt64.toNat_ofNat']
  omega

structure Media where
  mediaId : UInt32
  removableMedia : Bool
  mediaPresent : Bool
  logicalPartition : Bool
  readOnly : Bool
  writeCaching : Bool
  blockSize : UInt32
  ioAlign : UInt32
  lastBlock : UInt64

/-- `buffer` stands for what `buffer_ptr` leads to. -/
structure RamDiskBlockIo where
  media : Media
  buffer : Bytes
  bufferSize : UInt64

def newRamDiskBlockIo (dram : Slice) : RamDiskBlockIo where
  media :=
    { mediaId := 0
      removableMedia := false
      mediaPresent := true
      logicalPartition := true
      readOnly := true
      writeCaching := false
      blockSize := ramDiskBlockSize
      ioAlign := 0
      lastBlock := saturatingSub (dram.len / ramDiskBlockSize.toUInt64) 1 }
  buffer := dram.bytes
  bufferSize := dram.len

def copyNonoverlapping (src : Bytes) (offset : ℕ) (dst : Memory) (n : ℕ) : Memory :=
  fun i => if i < n then src.getD (offset + i) 0 else dst i

/-- Pointers that may be null are options; the caller's memory is returned as it is afterwards. -/
def ramDiskReadBlocks (this : Option RamDiskBlockIo) (mediaId : UInt32) (lba bufferSize : UInt64)
    (buffer : Option Memory) : Status × Option Memory :=
  match this, buffer with
  | some state, some memory =>
    if mediaId ≠ state.media.mediaId then
      (efiMediaChanged, some memory)
    else
      let offset := saturatingMul lba state.media.blockSize.toUInt64
      let e := saturatingAdd offset bufferSize
      if e > state.bufferSize then
        (efiInvalidParameter, some memory)
      else if bufferSize % state.media.blockSize.toUInt64 ≠ 0 then
        (efiBadBufferSize, some memory)
      else
        (.success, some (copyNonoverlapping state.buffer offset.toNat memory bufferSize.toNat))
  | _, _ => (efiInvalidParameter, buffer)

/-- No hole near the top: what saturates is beyond the end of every slice. -/
theorem lt_saturated_end_iff (dram : Slice) (lba size : UInt64) :
    dram.len < saturatingAdd (saturatingMul lba ramDiskBlockSize.toUInt64) size ↔
      dram.bytes.length < lba.toNat * 512 + size.toNat := by
  have hsize := dram.size
  have hblock : ramDiskBlockSize.toUInt64.toNat = 512 := rfl
  rw [UInt64.lt_iff_toNat_lt, toNat_saturatingAdd, toNat_saturatingMul, dram.toNat_len, hblock]
  omega

theorem size_mod_block_eq_zero_iff (size : UInt64) :
    size % ramDiskBlockSize.toUInt64 = 0 ↔ size.toNat % 512 = 0 := by
  have hblock : ramDiskBlockSize.toUInt64.toNat = 512 := rfl
  rw [← UInt64.toNat_inj, UInt64.toNat_mod, hblock]
  rfl

/-- The checks of the callback, in natural numbers. -/
theorem ramDiskReadBlocks_eq (dram : Slice) (mediaId : UInt32) (lba size : UInt64)
    (memory : Memory) :
    ramDiskReadBlocks (some (newRamDiskBlockIo dram)) mediaId lba size (some memory) =
      if mediaId ≠ (newRamDiskBlockIo dram).media.mediaId then
        (efiMediaChanged, some memory)
      else if dram.bytes.length < lba.toNat * 512 + size.toNat then
        (efiInvalidParameter, some memory)
      else if size.toNat % 512 ≠ 0 then
        (efiBadBufferSize, some memory)
      else
        (.success, some (copyNonoverlapping dram.bytes (lba.toNat * 512) memory size.toNat)) := by
  have hbound := lt_saturated_end_iff dram lba size
  have hmod := size_mod_block_eq_zero_iff size
  have hstate : (newRamDiskBlockIo dram).media.blockSize = ramDiskBlockSize := rfl
  have hlen : (newRamDiskBlockIo dram).bufferSize = dram.len := rfl
  simp only [ramDiskReadBlocks, hstate, hlen, gt_iff_lt, hbound, ne_eq, hmod]
  split
  · rfl
  · split
    · rfl
    next hend =>
      have hsize := dram.size
      have hblock : ramDiskBlockSize.toUInt64.toNat = 512 := rfl
      have hoffset : (saturatingMul lba ramDiskBlockSize.toUInt64).toNat = lba.toNat * 512 := by
        rw [toNat_saturatingMul, hblock]
        omega
      rw [hoffset]
      rfl

section Reads

variable (dram : Slice) (mediaId : UInt32) (lba size : UInt64) (memory : Memory)

/-- What the callback answers. -/
def readStatus : Status :=
  (ramDiskReadBlocks (some (newRamDiskBlockIo dram)) mediaId lba size (some memory)).1

def readMemoryAfter : Option Memory :=
  (ramDiskReadBlocks (some (newRamDiskBlockIo dram)) mediaId lba size (some memory)).2

theorem readStatus_success_iff :
    readStatus dram mediaId lba size memory = .success ↔
      mediaId = (newRamDiskBlockIo dram).media.mediaId ∧ size.toNat % 512 = 0 ∧
        lba.toNat * 512 + size.toNat ≤ dram.bytes.length := by
  rw [readStatus, ramDiskReadBlocks_eq]
  split
  next hmedia => simp [hmedia]
  next hmedia =>
    split
    next hend => simp [hend]
    next hend =>
      split
      next hblocks => simp [hblocks]
      next hblocks =>
        rw [not_not] at hmedia hblocks
        exact ⟨fun _ => ⟨hmedia, hblocks, Nat.le_of_not_lt hend⟩, fun _ => rfl⟩

/-- A refused read leaves the caller's memory alone. -/
theorem readMemoryAfter_of_refused (hrefused : readStatus dram mediaId lba size memory ≠ .success) :
    readMemoryAfter dram mediaId lba size memory = some memory := by
  rw [readStatus, ramDiskReadBlocks_eq] at hrefused
  rw [readMemoryAfter, ramDiskReadBlocks_eq]
  split at hrefused
  next hmedia => rw [if_pos hmedia]
  next hmedia =>
    rw [if_neg hmedia]
    split at hrefused
    next hend => rw [if_pos hend]
    next hend =>
      rw [if_neg hend]
      split at hrefused
      next hblocks => rw [if_pos hblocks]
      next => exact absurd rfl hrefused

/-- An accepted read copies the bytes of the request and nothing else. -/
theorem readMemoryAfter_of_accepted
    (haccepted : readStatus dram mediaId lba size memory = .success) :
    ∃ after, readMemoryAfter dram mediaId lba size memory = some after ∧
      ∀ i, some (after i) =
        if i < size.toNat then dram.bytes[lba.toNat * 512 + i]? else some (memory i) := by
  obtain ⟨hmedia, hblocks, hend⟩ :=
    (readStatus_success_iff dram mediaId lba size memory).mp haccepted
  refine ⟨copyNonoverlapping dram.bytes (lba.toNat * 512) memory size.toNat, ?_, fun i => ?_⟩
  · rw [readMemoryAfter, ramDiskReadBlocks_eq, if_neg (not_not.mpr hmedia),
      if_neg (Nat.not_lt.mpr hend), if_neg (not_not.mpr hblocks)]
  · unfold copyNonoverlapping
    by_cases hi : i < size.toNat
    · have hinside : lba.toNat * 512 + i < dram.bytes.length := by omega
      rw [if_pos hi, if_pos hi, List.getD_eq_getElem?_getD, List.getElem?_eq_getElem hinside,
        Option.getD_some]
    · rw [if_neg hi, if_neg hi]

theorem toNat_lastBlock :
    (newRamDiskBlockIo dram).media.lastBlock.toNat = dram.bytes.length / 512 - 1 := by
  have hblock : ramDiskBlockSize.toUInt64.toNat = 512 := rfl
  have hone : (1 : UInt64).toNat = 1 := rfl
  rw [show (newRamDiskBlockIo dram).media.lastBlock =
      saturatingSub (dram.len / ramDiskBlockSize.toUInt64) 1 from rfl,
    toNat_saturatingSub, UInt64.toNat_div, hblock, hone, dram.toNat_len]

end Reads

/-- The bounds check, the copy, and the last block that the media announces, for every request. -/
theorem ram_disk_reads_bounded (dram : Slice) (hdram : 512 ≤ dram.bytes.length)
    (mediaId : UInt32) (lba size : UInt64) (memory : Memory) :
    (readStatus dram mediaId lba size memory = .success ↔
      mediaId = (newRamDiskBlockIo dram).media.mediaId ∧ size.toNat % 512 = 0 ∧
        lba.toNat * 512 + size.toNat ≤ dram.bytes.length) ∧
    (readStatus dram mediaId lba size memory = .success →
      ∃ after, readMemoryAfter dram mediaId lba size memory = some after ∧
        ∀ i, some (after i) =
          if i < size.toNat then dram.bytes[lba.toNat * 512 + i]? else some (memory i)) ∧
    (readStatus dram mediaId lba size memory ≠ .success →
      readMemoryAfter dram mediaId lba size memory = some memory) ∧
    ∀ n ≥ 1, size.toNat = n * 512 → mediaId = (newRamDiskBlockIo dram).media.mediaId →
      (readStatus dram mediaId lba size memory = .success ↔
        lba.toNat + n - 1 ≤ (newRamDiskBlockIo dram).media.lastBlock.toNat) := by
  refine ⟨readStatus_success_iff dram mediaId lba size memory,
    readMemoryAfter_of_accepted dram mediaId lba size memory,
    readMemoryAfter_of_refused dram mediaId lba size memory, fun n hn hsize hmedia => ?_⟩
  rw [readStatus_success_iff, toNat_lastBlock, hsize]
  constructor
  · rintro ⟨-, -, hend⟩
    omega
  · intro hlast
    exact ⟨hmedia, Nat.mul_mod_left n 512, by omega⟩

def threeBlocks : Slice where
  bytes := List.replicate 1536 7
  size := by
    rw [List.length_replicate]
    decide

/-- The read of the last two of three blocks, into zeros. -/
theorem ram_disk_reads_bounded_last_two :
    ∃ after, readMemoryAfter threeBlocks 0 1 1024 (fun _ => 0) = some after ∧
      ∀ i, some (after i) = if i < 1024 then threeBlocks.bytes[512 + i]? else some 0 := by
  have hlength : threeBlocks.bytes.length = 1536 := List.length_replicate
  have hreads := ram_disk_reads_bounded threeBlocks (by omega) 0 1 1024 fun _ => 0
  exact hreads.2.1 (hreads.1.mpr ⟨rfl, by decide, hlength ▸ by decide⟩)

end PatinaRamDiskBlocks
