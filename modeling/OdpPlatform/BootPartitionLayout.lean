import OdpPlatform.InteractionGrants
import OdpPlatform.SreFmpSetImage
import OdpPlatform.PatinaBpLogPage

/-! # The layout of a boot partition

The writer addresses a partition in dwords without a header, both readers in bytes behind the
16-byte header of the log page. A device that serves the log page gives back what was written. -/
namespace BootPartitionLayout

open ByteBuffer InteractionProgram InteractionContract InteractionGrants FirmwareServices
open SreStorageNvme SreStorageGeometry SreStorageSession SreFmpDevice SreFmpImage BootPartitionDevice
open SreFmpSetImage PatinaBpLogPage

def IsLogPageRead (c : NvmeCommand) : Prop :=
  c.opcode = nvmeAdminGetLogPageCmd ∧ c.cdw10.toNat % 2 ^ 8 = 0x15

instance (c : NvmeCommand) : Decidable (IsLogPageRead c) := inferInstanceAs (Decidable (_ ∧ _))

/-- CDW10 bits 14:8. -/
def logPageBpid (c : NvmeCommand) : PartitionIndex := UInt32.ofNat (c.cdw10.toNat / 2 ^ 8 % 2 ^ 7)

def logPageOffset (c : NvmeCommand) : ℕ := c.cdw12.toNat + 2 ^ 32 * c.cdw13.toNat

/-- NUMD, whose halves lie in CDW10 and CDW11, counts dwords from 0. -/
def logPageLength (c : NvmeCommand) : ℕ :=
  4 * (c.cdw10.toNat / 2 ^ 16 + 2 ^ 16 * (c.cdw11.toNat % 2 ^ 16) + 1)

def Device.logPage (d : Device) (header : Bytes) (c : NvmeCommand) : Bytes :=
  window (header ++ d.content (logPageBpid c)) (logPageOffset c) (logPageLength c)

structure Reads (c : NvmeCommand) (p : PartitionIndex) (off n : ℕ) : Prop where
  isRead : IsLogPageRead c
  bpid : logPageBpid c = p
  offset : logPageOffset c = 16 + off
  length : logPageLength c = n

theorem Reads.logPage {c : NvmeCommand} {p : PartitionIndex} {off n : ℕ} (hc : Reads c p off n)
    {header : Bytes} (hh : header.length = 16) (d : Device) :
    Device.logPage d header c = window (d.content p) off n := by
  rw [Device.logPage, hc.bpid, hc.offset, hc.length, ← hh, window_append_right]

theorem toNat_cdw10 (numd bpid : UInt32) :
    (((numd &&& 0xFFFF) <<< 16) ||| ((bpid &&& 0x7F) <<< 8) ||| 0x15).toNat =
      2 ^ 16 * (numd.toNat % 2 ^ 16) + (2 ^ 8 * (bpid.toNat % 2 ^ 7) + 0x15) := by
  have hnumd : (numd &&& 0xFFFF).toNat = numd.toNat % 2 ^ 16 :=
    Nat.and_two_pow_sub_one_eq_mod _ 16
  have hbpid : (bpid &&& 0x7F).toNat = bpid.toNat % 2 ^ 7 := Nat.and_two_pow_sub_one_eq_mod _ 7
  have hhigh : ((numd &&& 0xFFFF) <<< 16).toNat = 2 ^ 16 * (numd.toNat % 2 ^ 16) := by
    rw [UInt32.toNat_shiftLeft, hnumd, Nat.shiftLeft_eq]
    simp only [UInt32.reduceToNat, Nat.reduceMod, Nat.reducePow]
    omega
  have hmid : ((bpid &&& 0x7F) <<< 8).toNat = 2 ^ 8 * (bpid.toNat % 2 ^ 7) := by
    rw [UInt32.toNat_shiftLeft, hbpid, Nat.shiftLeft_eq]
    simp only [UInt32.reduceToNat, Nat.reduceMod, Nat.reducePow]
    omega
  have hlid : (0x15 : UInt32).toNat = 0x15 := rfl
  -- the three fields do not overlap, so or is plus
  rw [UInt32.toNat_or, UInt32.toNat_or, hhigh, hmid, hlid, Nat.or_assoc,
    ← Nat.two_pow_add_eq_or_of_lt (by decide : 0x15 < 2 ^ 8),
    ← Nat.two_pow_add_eq_or_of_lt (by omega)]

theorem toNat_cdw11 (numd : UInt32) : ((numd >>> 16) &&& 0xFFFF).toNat = numd.toNat / 2 ^ 16 := by
  have hlt := numd.toNat_lt
  have hmask : ((numd >>> 16) &&& 0xFFFF).toNat = (numd >>> 16).toNat % 2 ^ 16 :=
    Nat.and_two_pow_sub_one_eq_mod _ 16
  rw [hmask, UInt32.toNat_shiftRight, Nat.shiftRight_eq_div_pow]
  simp only [UInt32.reduceToNat, Nat.reduceMod, Nat.reducePow]
  omega

/-- The words both encoders build, read back field by field. -/
theorem reads_of_words {c : NvmeCommand} {bpid : PartitionIndex} {off n : ℕ}
    (hop : c.opcode = nvmeAdminGetLogPageCmd)
    (h10 : c.cdw10 = ((UInt32.ofNat (n / 4 - 1) &&& 0xFFFF) <<< 16) |||
      ((bpid &&& 0x7F) <<< 8) ||| 0x15)
    (h11 : c.cdw11 = (UInt32.ofNat (n / 4 - 1) >>> 16) &&& 0xFFFF)
    (h12 : c.cdw12 = UInt32.ofNat (16 + off)) (h13 : c.cdw13 = UInt32.ofNat ((16 + off) / 2 ^ 32))
    (hbpid : bpid.toNat < 2 ^ 7) (hoff : 16 + off < 2 ^ 64) (hn : 0 < n) (hdword : n % 4 = 0)
    (hlt : n < 2 ^ 32) : Reads c bpid off n := by
  have hnumd : (UInt32.ofNat (n / 4 - 1)).toNat = n / 4 - 1 := by
    rw [UInt32.toNat_ofNat', Nat.mod_eq_of_lt (by omega)]
  have h10 := congrArg UInt32.toNat h10
  have h11 := congrArg UInt32.toNat h11
  rw [toNat_cdw10, hnumd] at h10
  rw [toNat_cdw11, hnumd] at h11
  refine ⟨⟨hop, by omega⟩, ?_, ?_, ?_⟩
  · apply UInt32.toNat_inj.mp
    rw [logPageBpid, UInt32.toNat_ofNat']
    omega
  · rw [logPageOffset, h12, h13, UInt32.toNat_ofNat', UInt32.toNat_ofNat']
    omega
  · rw [logPageLength]
    omega

theorem getLogPageCommand_reads {s : SreStorage} (hs : Usable s) {p : PartitionIndex}
    (hp : p ≤ srePartitionB) {i : ℕ} (hi : i < s.mBlockCount) :
    Reads (getLogPageCommand s p i) p (i * s.mBlockSize) s.mBlockSize := by
  obtain ⟨k, hk, hk', hsize⟩ := hs.blockSize
  have hbound := hs.bounded
  have hblock : (i + 1) * s.mBlockSize ≤ s.mBlockCount * s.mBlockSize :=
    Nat.mul_le_mul_right _ hi
  have hp : p.toNat ≤ 1 := hp
  rw [Nat.succ_mul] at hblock
  unfold size128KB at hbound
  exact reads_of_words rfl rfl rfl (congrArg UInt32.ofNat (Nat.add_comm _ _))
    (congrArg (fun n => UInt32.ofNat (n / 2 ^ 32)) (Nat.add_comm _ _)) (by omega) (by omega)
    (by omega) (by omega) (by omega)

theorem logPagePacket_reads {bpId : UInt8} (hbp : bpId.toNat < 2 ^ 7) {off : ℕ} {slice : Bytes}
    (hoff : 16 + off < 2 ^ 64) (hpos : 0 < slice.length) (hdword : slice.length % 4 = 0)
    (hlt : slice.length < 2 ^ 32) :
    Reads (logPagePacket bpId off slice).command bpId.toUInt32 off slice.length :=
  reads_of_words rfl rfl rfl rfl rfl (by simpa using hbp) hoff hpos hdword hlt

/-- A log page read succeeds with the partition as the commands so far have left it; the two
page services come back. -/
def Served (D : Device) (h : FirmwareTrace) : (c : Call) → Option (Answer c) → Prop
  | .passThru p, r => IsLogPageRead p.command → ∃ header : Bytes, header.length = 16 ∧
      r = some ⟨.success, 0, 0, Device.logPage (D.after (commandsOf h)) header p.command⟩
  | .allocateAlignedPages _ _, r => r.isSome = true
  | .freeAlignedPages _ _, r => r.isSome = true
  | _, _ => True

/-- The calls that the program makes from `h` on are served. -/
abbrev Serves {α : Type} (D : Device) (env : FirmwareEnv) (p : Firmware α) (h : FirmwareTrace) :
    Prop :=
  AnswersAlong (Served D) env p h

variable {D : Device} {env : FirmwareEnv}

theorem step_read (d : Device) {p : Packet} (hop : p.command.opcode = nvmeAdminGetLogPageCmd)
    (r : Completion) : d.step (p, r) = d := by
  have hdown : ¬p.command.opcode = nvmeAdminFwImageDownloadCmd := by rw [hop]; decide
  have hcommit : ¬p.command.opcode = nvmeAdminFwCommitCmd := by rw [hop]; decide
  simp only [Device.step, if_neg hdown, if_neg hcommit, ite_self]

theorem after_reads (d : Device) {cs : List Command}
    (hcs : ∀ c ∈ cs, c.1.command.opcode = nvmeAdminGetLogPageCmd) : d.after cs = d := by
  induction cs with
  | nil => rfl
  | cons c cs ih =>
    rw [after_cons, step_read d (hcs c List.mem_cons_self)]
    exact ih fun x hx => hcs x (List.mem_cons_of_mem _ hx)

/-- One served read: the answer, and the device after it. -/
theorem served_read {h : FirmwareTrace} {packet : Packet} {p : PartitionIndex} {off n : ℕ}
    (hserved : Served D h (.passThru packet) (env h (.passThru packet)))
    (hc : Reads packet.command p off n) :
    ∃ r, env h (.passThru packet) = some r ∧ r.Accepted ∧ r.status = .success ∧
      r.data = window ((D.after (commandsOf h)).content p) off n ∧
      D.after (commandsOf (h ++ [⟨.passThru packet, some r⟩])) = D.after (commandsOf h) := by
  obtain ⟨header, hh, henv⟩ := hserved hc.isRead
  refine ⟨_, henv, ⟨rfl, rfl, rfl⟩, rfl, hc.logPage hh _, ?_⟩
  rw [commandsOf_append, commandsOf_passThru, after_append, after_cons, after_nil,
    step_read _ hc.isRead.1]

section ReadBp

variable {bpId : UInt8} (hbp : bpId.toNat < 2 ^ 7) {chunk : ℕ}
include hbp

/-- The loop invariant: the destination holds the partition up to `off`. -/
theorem readBpLoop_returns (hchunk : 0 < chunk) (hdword : chunk % 4 = 0) {content : Bytes}
    (fuel : ℕ) : ∀ {off : ℕ} {dest : Bytes} {h : FirmwareTrace},
      Serves D env (readBpLoop bpId chunk fuel off dest).run h →
      (D.after (commandsOf h)).content bpId.toUInt32 = content → dest.length ≤ content.length →
      dest.length < 2 ^ 32 → dest.length % 4 = 0 → off % 4 = 0 → off ≤ dest.length →
      dest.length - off < fuel →
      ((readBpLoop bpId chunk fuel off dest).run.run env h).2 =
        some (.ok (dest.take off ++ window content off (dest.length - off))) := by
  induction fuel with
  | zero => intros; omega
  | succ fuel ih =>
    intro off dest h hserves hcontent hfits hlt hlen hoff hle hfuel
    unfold readBpLoop at hserves ⊢
    by_cases hmore : off < dest.length
    · let n := min chunk (dest.length - off)
      have hn : n = min chunk (dest.length - off) := rfl
      have hslice : (window dest off n).length = n := by
        rw [length_window]
        omega
      have hreads : Reads (logPagePacket bpId off (window dest off n)).command bpId.toUInt32 off
          (window dest off n).length :=
        logPagePacket_reads hbp (by omega) (by omega) (by omega) (by omega)
      rw [hslice] at hreads
      rw [if_pos hmore, Program.run_lift_bind, ask, Program.call_bind] at hserves
      obtain ⟨r, henv, _, hsuccess, hdata, hsame⟩ := served_read hserves.1 hreads
      have hservesRest := hserves.2 r henv
      dsimp only at hservesRest
      rw [if_neg (not_not.mpr hsuccess)] at hservesRest
      rw [hcontent] at hdata
      have hpage : (window content off n).length = n := by
        rw [length_window]
        omega
      have hreceived : received (logPagePacket bpId off (window dest off n)) r =
          window content off n := by
        have htransfer : (logPagePacket bpId off (window dest off n)).transferLength = n := by
          simp only [logPagePacket, hslice]
          rw [UInt32.toNat_ofNat', Nat.mod_eq_of_lt (by omega)]
        rw [received, htransfer, hdata, List.take_of_length_le hpage.le, splice, hpage,
          Nat.zero_add, List.drop_eq_nil_of_le (by rw [logPagePacket]; exact hslice.le)]
        simp
      have hdest : (splice dest off (window content off n)).length = dest.length :=
        length_splice (by omega)
      have hcontent' : (D.after (commandsOf (h ++
          [⟨.passThru (logPagePacket bpId off (window dest off n)), some r⟩]))).content
          bpId.toUInt32 = content := by rw [hsame, hcontent]
      rw [hreceived] at hservesRest
      have hnext := @ih (off + n) (splice dest off (window content off n)) _ hservesRest hcontent'
        (by omega) (by omega) (by omega) (by omega) (by omega) (by omega)
      have htake : (splice dest off (window content off n)).take (off + n) =
          dest.take off ++ window content off n := by
        have htake := take_splice (d := window content off n) hle
        rwa [hpage] at htake
      have hrest : dest.length - off = n + (dest.length - (off + n)) := by omega
      rw [if_pos hmore, Program.run_lift_bind, ask, Program.call_bind,
        Program.run_ask_some env h _ henv, if_neg (not_not.mpr hsuccess), hreceived, hnext, hdest,
        htake, hrest, window_add, List.append_assoc]
    · have hend : dest.length - off = 0 := by omega
      have hnone : window content off 0 = [] := List.take_zero
      rw [if_neg hmore, hend, hnone, List.append_nil, List.take_of_length_le (by omega)]
      rfl

theorem readBpViaLogPage_returns {dest : Bytes} {h : FirmwareTrace}
    (hserves : Serves D env (readBpViaLogPage bpId chunk dest).run h) (hchunk : 0 < chunk)
    (hdword : chunk % 4 = 0) (hlen : dest.length % 4 = 0) (hlt : dest.length < 2 ^ 32)
    (hfits : dest.length ≤ ((D.after (commandsOf h)).content bpId.toUInt32).length) :
    ((readBpViaLogPage bpId chunk dest).run.run env h).2 =
      some (.ok (((D.after (commandsOf h)).content bpId.toUInt32).take dest.length)) := by
  have hguard : ¬(chunk < 4 ∨ chunk % 4 ≠ 0 ∨ dest.length % 4 ≠ 0) := by omega
  rw [readBpViaLogPage, if_neg hguard] at hserves
  rw [readBpViaLogPage, if_neg hguard, readBpLoop_returns hbp hchunk hdword _ hserves rfl hfits hlt
    hlen (by omega) (by omega) (by omega)]
  rfl

end ReadBp

/-- The version word of a partition, 0 where signature or structure version do not match. -/
def recordedVersion (content : Bytes) : UInt32 :=
  if leWord (content.drop sreImageInfoOffset) ≠ sreImageInfoSig ∨
      leWord (content.drop (sreImageInfoOffset + 4)) ≠ sreImageInfoStructVer then 0
  else leWord (content.drop (sreImageInfoOffset + 8))

theorem drop_stampedImage {size : ℕ} {image : Bytes} {v : UInt32}
    (hd : sreImageInfoOffset + sizeofSreImageInfo ≤ size) (hi : image.length ≤ size) :
    (stampedImage size image v).drop sreImageInfoOffset = sreImageInfo v ++
      (padTo size 0 image).drop (sreImageInfoOffset + sizeofSreImageInfo) := by
  have hfront : ((padTo size (0 : UInt8) image).take sreImageInfoOffset).length =
      sreImageInfoOffset := by
    rw [List.length_take_of_le]
    rw [length_padTo hi]
    omega
  rw [stampedImage, splice, List.append_assoc, List.drop_append_of_le_length hfront.ge,
    List.drop_eq_nil_of_le hfront.le, List.nil_append, length_sreImageInfo]

theorem recordedVersion_stampedImage {size : ℕ} {image : Bytes} {v : UInt32}
    (hd : sreImageInfoOffset + sizeofSreImageInfo ≤ size) (hi : image.length ≤ size) :
    recordedVersion (stampedImage size image v) = v := by
  have hdrop := drop_stampedImage (v := v) hd hi
  have hsig : leWord ((stampedImage size image v).drop sreImageInfoOffset) = sreImageInfoSig := by
    rw [hdrop]
    rfl
  have hver : leWord ((stampedImage size image v).drop (sreImageInfoOffset + 4)) =
      sreImageInfoStructVer := by
    rw [← List.drop_drop, hdrop]
    rfl
  have hfw : leWord ((stampedImage size image v).drop (sreImageInfoOffset + 8)) =
      leWord (leBytes v) := by
    rw [← List.drop_drop, hdrop]
    rfl
  rw [recordedVersion, hsig, hver, hfw, leWord_leBytes]
  rfl

def versionResult (env : FirmwareEnv) (h : FirmwareTrace) (s : SreStorage) (v : UInt32) :
    Status × Option UInt32 :=
  match env h (.allocateAlignedPages (efiSizeToPages s.mBlockSize) s.mBlockAlignment) with
  | some none => (efiOutOfResources, none)
  | _ => (.success, some v)

/-- The words GetVersion looks at all lie in the block it reads. -/
theorem leWord_block {s : SreStorage} (hs : Usable s) (content : Bytes) {k : ℕ} (hk : k + 4 ≤ 32) :
    leWord ((window content (sreImageInfoOffset / s.mBlockSize * s.mBlockSize) s.mBlockSize).drop
      (sreImageInfoOffset % s.mBlockSize + k)) = leWord (content.drop (sreImageInfoOffset + k)) := by
  have hfit := descriptor_fits hs
  have hdiv := Nat.div_add_mod' sreImageInfoOffset s.mBlockSize
  unfold sizeofSreImageInfo at hfit
  rw [← leWord_window, window_window (by omega), leWord_window, ← Nat.add_assoc, hdiv]

theorem sreStorageRead_returns {s : SreStorage} (hs : Usable s)
    (hclosed : s.mIsWriteOpen = false) {p : PartitionIndex} (hp : p ≤ srePartitionB) {i : ℕ}
    (hi : i < s.mBlockCount) {b : Buffer} (haligned : s.mBlockAlignment ∣ b.address)
    (hlen : b.bytes.length = s.mBlockSize) {h : FirmwareTrace} {content : Bytes}
    (hserves : Serves D env (sreStorageRead s p i (some b)) h)
    (hcontent : (D.after (commandsOf h)).content p = content)
    (hsize : s.mBlockCount * s.mBlockSize ≤ content.length) :
    ∃ h', (sreStorageRead s p i (some b)).run env h =
      (h', some (.success, window content (i * s.mBlockSize) s.mBlockSize)) := by
  let packet : Packet :=
    { commandTimeout := seconds 10
      command := getLogPageCommand s p i
      buffer := b.bytes
      transferLength := s.mBlockSize }
  have halign : ¬b.address % s.mBlockAlignment ≠ 0 :=
    not_not.mpr (Nat.mod_eq_zero_of_dvd haligned)
  have hread : sreStorageRead s p i (some b) = executeNvmePassThru s packet := by
    simp only [sreStorageRead, hs.isSupported, hclosed, if_neg halign, if_neg (Nat.not_le.mpr hi),
      if_neg (UInt32.not_lt.mpr hp), ge_iff_le, gt_iff_lt, Bool.true_eq_false, Bool.false_eq_true,
      if_false]
    rfl
  rw [hread, executeNvmePassThru_eq hs.located] at hserves
  obtain ⟨r, henv, haccepted, _, hdata, _⟩ :=
    served_read hserves.1 (getLogPageCommand_reads hs hp hi)
  rw [hcontent] at hdata
  have hblock : (window content (i * s.mBlockSize) s.mBlockSize).length = s.mBlockSize := by
    have hle : (i + 1) * s.mBlockSize ≤ s.mBlockCount * s.mBlockSize := Nat.mul_le_mul_right _ hi
    rw [Nat.succ_mul] at hle
    rw [length_window]
    omega
  have hreceived : received packet r = window content (i * s.mBlockSize) s.mBlockSize := by
    rw [received, hdata, List.take_of_length_le hblock.le, splice, hblock, Nat.zero_add,
      List.drop_eq_nil_of_le hlen.le]
    simp
  refine ⟨h ++ [⟨.passThru packet, some r⟩], ?_⟩
  rw [hread, executeNvmePassThru_eq hs.located, Program.run_ask_some env h _ henv, hreceived,
    completionStatus_eq_success.mpr haccepted]
  rfl

theorem getVersion_returns {s : SreStorage} (hs : Usable s)
    (hclosed : s.mIsWriteOpen = false) {h : FirmwareTrace} {content : Bytes}
    (hserves : Serves D env (fmpDeviceGetVersion s true) h)
    (hcontent : (D.after (commandsOf h)).content srePartitionA = content)
    (hsize : s.mBlockCount * s.mBlockSize ≤ content.length) :
    ((fmpDeviceGetVersion s true).run env h).2 =
      some (versionResult env h s (recordedVersion content)) := by
  have hinfo : sreStorageInfo s = .ok ⟨s.mBlockCount, s.mBlockSize, s.mBlockAlignment⟩ := by
    simp [sreStorageInfo, hs.isSupported]
  simp only [fmpDeviceGetVersion, Bool.true_eq_false, if_false, hinfo, Program.call_bind] at hserves
  obtain ⟨buffer, hbuffer⟩ := Option.isSome_iff_exists.mp hserves.1
  replace hserves := hserves.2 buffer hbuffer
  unfold fmpDeviceGetVersion versionResult
  simp only [Bool.true_eq_false, if_false, hinfo, Program.call_bind, hbuffer,
    Program.run_ask_some env h _ hbuffer]
  cases buffer with
  | none => rfl
  | some buffer =>
    dsimp only
    have hcommands : commandsOf (h ++ [⟨Call.allocateAlignedPages (efiSizeToPages s.mBlockSize)
        s.mBlockAlignment, some (some buffer)⟩]) = commandsOf h := commandsOf_quiet rfl
    have hindex : sreImageInfoOffset / s.mBlockSize < s.mBlockCount :=
      Nat.div_lt_of_lt_mul (by rw [Nat.mul_comm]; exact hs.spacious)
    have hlen : buffer.bytes.length = s.mBlockSize := by rw [buffer.size, pages_size hs]
    have hdevice : (D.after (commandsOf (h ++ [⟨Call.allocateAlignedPages
        (efiSizeToPages s.mBlockSize) s.mBlockAlignment, some (some buffer)⟩]))).content
        srePartitionA = content := by rw [hcommands, hcontent]
    dsimp only at hserves
    obtain ⟨h', hread⟩ := sreStorageRead_returns (b := ⟨buffer.address, buffer.bytes⟩) hs hclosed
      (by decide) hindex buffer.aligned hlen hserves.bind_left hdevice hsize
    obtain ⟨u, hfree⟩ := Option.isSome_iff_exists.mp (hserves.bind_right hread).1
    have hsig := leWord_block hs content (k := 0) (by omega)
    have hver := leWord_block hs content (k := 4) (by omega)
    have hfw := leWord_block hs content (k := 8) (by omega)
    rw [Nat.add_zero, Nat.add_zero] at hsig
    rw [Program.run_bind_some env _ hread, Program.run_ask_some env _ _ hfree]
    simp only [isError_success, List.drop_drop, hsig, hver, hfw, Bool.false_eq_true, if_false]
    unfold recordedVersion
    split <;> rfl

section Agree

variable {d : SreFmp} {image : Option Bytes} {progress : Bool} {v : UInt32} {outputsNonNull : Bool}

theorem staged_full {s : SreStorage} {bytes : Bytes} {d : Device} (hs : Usable s)
    (hi : bytes.length ≤ s.mBlockCount * s.mBlockSize)
    (hsize : s.mBlockCount * s.mBlockSize = d.staging.length) :
    staged d s bytes v = stampedImage (s.mBlockCount * s.mBlockSize) bytes v := by
  have hlen := length_stampedImage (v := v) (descriptor_in hs) hi
  rw [staged, splice, hlen, Nat.zero_add, hsize, List.drop_length, List.take_zero]
  simp

/-- An apply that succeeds leaves the stamped image both staged and on its partition. -/
theorem applied_success {s : SreStorage} {p : PartitionIndex} {bytes : Bytes} {cs : List Command}
    {st : Status} {d : Device} (hs : Usable s) (hp : p ≤ srePartitionB)
    (hi : bytes.length ≤ s.mBlockCount * s.mBlockSize)
    (hsize : s.mBlockCount * s.mBlockSize = d.staging.length) (ha : Applied s p bytes v cs st)
    (hok : st.isError = false) :
    d.after cs = ⟨stampedImage (s.mBlockCount * s.mBlockSize) bytes v, Function.update d.content p
      (stampedImage (s.mBlockCount * s.mBlockSize) bytes v)⟩ := by
  have hout := applied_outcome hs hp hi ha d
  generalize d.after cs = d' at hout
  cases hout with
  | failed he => rw [he] at hok; cases hok
  | committed => rw [staged_full hs hi hsize]

/-- After a successful update both partitions hold the stamped image. -/
theorem setImage_content (hs : Usable d.storage) (hclosed : d.storage.mIsWriteOpen = false)
    (hsize : d.storage.mBlockCount * d.storage.mBlockSize = D.staging.length) {h : FirmwareTrace}
    {res : SetImageResult}
    (hrun : (fmpDeviceSetImageWithStatus d image progress v outputsNonNull).run env [] =
      (h, some res)) (hok : res.status = .success) :
    ∃ bytes, image = some bytes ∧ bytes.length ≤ d.storage.mBlockCount * d.storage.mBlockSize ∧
      ClosedLike d.storage res.dev.storage ∧ ∀ p, p = srePartitionA ∨ p = srePartitionB →
        (D.after (commandsOf h)).content p =
          stampedImage (d.storage.mBlockCount * d.storage.mBlockSize) bytes v := by
  cases setImage_returned hrun with
  | invalid | unchecked | unfit => cases hok
  | @applied bytes statusA statusB h' d' r hp himage hboth =>
    obtain ⟨_, himage', _, _, _, hfit⟩ := passes_iff.mp hp
    subst himage
    cases himage'
    obtain ⟨⟨csA, csB, hcs, happA, happB⟩, hlike⟩ := bothApplied_commands hs hclosed hfit hboth
    have hlas : lasOf statusA statusB = lastAttemptStatusSuccess := by
      by_contra hne
      simp only [if_neg hne] at hok
      cases hok
    obtain ⟨hokA, hokB⟩ := lasOf_success.mp hlas
    have hlen := length_stampedImage (v := v) (descriptor_in hs) hfit
    refine ⟨bytes, rfl, hfit, hlike, fun p hp => ?_⟩
    rw [commandsOf_quiet rfl, hcs, after_append, after_append]
    change (((D.after []).after csA).after csB).content p = _
    rw [after_nil, applied_success hs (by decide) hfit hsize happA hokA,
      applied_success hs (by decide) hfit hlen.symm happB hokB]
    have hne : srePartitionA ≠ srePartitionB := by decide
    dsimp only
    rcases hp with rfl | rfl
    · rw [Function.update_of_ne hne, Function.update_self]
    · rw [Function.update_self]

/-- Both readers give the image back; a zero chunk size is refused by the recovery reader. -/
structure ReadsBack (D : Device) (env : FirmwareEnv) (s : SreStorage) (bytes : Bytes) (v : UInt32)
    (h : FirmwareTrace) : Prop where
  version : Serves D env (fmpDeviceGetVersion s true) h →
    ((fmpDeviceGetVersion s true).run env h).2 = some (versionResult env h s v)
  image : ∀ chunk dest, chunk % 4 = 0 → dest.length % 4 = 0 →
    dest.length ≤ s.mBlockCount * s.mBlockSize →
    Serves D env (readBpViaLogPage targetBpid chunk dest).run h →
    ((readBpViaLogPage targetBpid chunk dest).run.run env h).2 = some (
      if chunk = 0 then .error .invalidParameter
      else .ok ((stampedImage (s.mBlockCount * s.mBlockSize) bytes v).take dest.length))

theorem readsBack_of_content {s : SreStorage} (hs : Usable s)
    (hclosed : s.mIsWriteOpen = false) {bytes : Bytes}
    (hi : bytes.length ≤ s.mBlockCount * s.mBlockSize) {h : FirmwareTrace}
    (hcontent : ∀ p, p = srePartitionA ∨ p = srePartitionB →
      (D.after (commandsOf h)).content p =
        stampedImage (s.mBlockCount * s.mBlockSize) bytes v) : ReadsBack D env s bytes v h where
  version hserves := by
    have hlen := length_stampedImage (v := v) (descriptor_in hs) hi
    rw [getVersion_returns hs hclosed hserves (hcontent _ (Or.inl rfl)) hlen.ge,
      recordedVersion_stampedImage (descriptor_in hs) hi]
  image chunk dest hchunk hdest hle hserves := by
    have hbound := hs.bounded
    unfold size128KB at hbound
    have htarget : (D.after (commandsOf h)).content targetBpid.toUInt32 =
        stampedImage (s.mBlockCount * s.mBlockSize) bytes v := hcontent _ (Or.inr rfl)
    by_cases h0 : chunk = 0
    · rw [if_pos h0, readBpViaLogPage, if_pos (by omega)]
      rfl
    · rw [if_neg h0, readBpViaLogPage_returns (by decide) hserves (by omega) hchunk hdest
        (by omega) (by rw [htarget, length_stampedImage (descriptor_in hs) hi]; exact hle), htarget]

theorem writer_and_readers_agree (hs : Usable d.storage) (hclosed : d.storage.mIsWriteOpen = false)
    (hsize : d.storage.mBlockCount * d.storage.mBlockSize = D.staging.length) :
    (∀ res, ((fmpDeviceSetImageWithStatus d image progress v outputsNonNull).run env []).2 =
        some res → res.status = .success →
      ∃ bytes, image = some bytes ∧
        res.dev.storage.mBlockCount * res.dev.storage.mBlockSize = D.staging.length ∧
        ∀ h, D.after (commandsOf h) = D.after (commandsOf
          ((fmpDeviceSetImageWithStatus d image progress v outputsNonNull).run env []).1) →
          ReadsBack D env res.dev.storage bytes v h) ∧
    (∀ h, D.staging.length ≤ ((D.after (commandsOf h)).content srePartitionA).length →
      Serves D env (fmpDeviceGetVersion d.storage true) h →
      ((fmpDeviceGetVersion d.storage true).run env h).2 = some (versionResult env h d.storage
        (recordedVersion ((D.after (commandsOf h)).content srePartitionA)))) := by
  refine ⟨fun res hrun hok => ?_, fun h hlen hserves =>
    getVersion_returns hs hclosed hserves rfl (hsize.trans_le hlen)⟩
  obtain ⟨bytes, himage, hfit, hlike, hcontent⟩ :=
    setImage_content hs hclosed hsize (Prod.ext rfl hrun) hok
  have hsame : res.dev.storage.mBlockCount * res.dev.storage.mBlockSize =
      d.storage.mBlockCount * d.storage.mBlockSize := by rw [hlike.count_eq, hlike.size_eq]
  refine ⟨bytes, himage, hsame.trans hsize, fun h hh => ?_⟩
  refine readsBack_of_content hlike.usable hlike.closed (hfit.trans hsame.ge) fun p hp => ?_
  rw [hh, hsame]
  exact hcontent p hp

def servingEnv (D : Device) (rejects : Packet → Bool) : FirmwareEnv := fun h c =>
  match c with
  | .passThru p =>
    if IsLogPageRead p.command then
      some ⟨.success, 0, 0,
        Device.logPage (D.after (commandsOf h)) (List.replicate 16 0) p.command⟩
    else updateEnv rejects h (.passThru p)
  | c => updateEnv rejects h c

theorem servingEnv_serves (D : Device) (rejects : Packet → Bool) {α : Type} (p : Firmware α)
    (h : FirmwareTrace) : Serves D (servingEnv D rejects) p h := by
  refine answersAlong_of_forall (fun h c => ?_) p h
  cases c with
  | passThru p =>
    intro hp
    exact ⟨List.replicate 16 0, List.length_replicate, if_pos hp⟩
  | allocateAlignedPages => rfl
  | freeAlignedPages => rfl
  | _ => trivial

def blankDevice : Device := ⟨List.replicate 131072 0, fun _ => List.replicate 131072 0⟩

def acceptingEnv : FirmwareEnv := servingEnv blankDevice fun _ => false

theorem acceptingEnv_updated :
    ((fmpDeviceSetImageWithStatus ⟨oneBlock, 0⟩ (some [1, 2, 3]) true 7 true).run
      acceptingEnv []).2 =
      some ⟨.success, some lastAttemptStatusSuccess,
        ⟨{ oneBlock with mPartitionIndex := srePartitionB }, 50⟩⟩ := by
  decide

theorem writer_and_readers_agree_one_block :
    (∀ res, ((fmpDeviceSetImageWithStatus ⟨oneBlock, 0⟩ (some [1, 2, 3]) true 7 true).run
        acceptingEnv []).2 = some res → res.status = .success →
      ∃ bytes, some [1, 2, 3] = some bytes ∧
        res.dev.storage.mBlockCount * res.dev.storage.mBlockSize = blankDevice.staging.length ∧
        ∀ h, blankDevice.after (commandsOf h) = blankDevice.after (commandsOf
          ((fmpDeviceSetImageWithStatus ⟨oneBlock, 0⟩ (some [1, 2, 3]) true 7 true).run
            acceptingEnv []).1) →
          ReadsBack blankDevice acceptingEnv res.dev.storage bytes 7 h) ∧
    (∀ h, blankDevice.staging.length ≤
        ((blankDevice.after (commandsOf h)).content srePartitionA).length →
      ((fmpDeviceGetVersion oneBlock true).run acceptingEnv h).2 =
        some (versionResult acceptingEnv h oneBlock
          (recordedVersion ((blankDevice.after (commandsOf h)).content srePartitionA)))) := by
  obtain ⟨hupdated, hversion⟩ := @writer_and_readers_agree blankDevice acceptingEnv ⟨oneBlock, 0⟩
    (some [1, 2, 3]) true 7 true oneBlock_usable rfl List.length_replicate.symm
  exact ⟨hupdated, fun h hlen => hversion h hlen (servingEnv_serves blankDevice _ _ h)⟩

/-- Zero is a multiple of four, but the recovery reader refuses it as a chunk size. -/
theorem zero_chunk_refused :
    (∃ res, ((fmpDeviceSetImageWithStatus ⟨oneBlock, 0⟩ (some [1, 2, 3]) true 7 true).run
      acceptingEnv []).2 = some res ∧ res.status = .success) ∧
    ¬∀ chunk dest, chunk % 4 = 0 → dest.length % 4 = 0 → dest.length ≤ 131072 →
      Serves blankDevice acceptingEnv (readBpViaLogPage targetBpid chunk dest).run
        ((fmpDeviceSetImageWithStatus ⟨oneBlock, 0⟩ (some [1, 2, 3]) true 7 true).run
          acceptingEnv []).1 →
      ((readBpViaLogPage targetBpid chunk dest).run.run acceptingEnv
        ((fmpDeviceSetImageWithStatus ⟨oneBlock, 0⟩ (some [1, 2, 3]) true 7 true).run
          acceptingEnv []).1).2 =
        some (.ok ((stampedImage 131072 [1, 2, 3] 7).take dest.length)) := by
  refine ⟨⟨_, acceptingEnv_updated, rfl⟩, fun hall => ?_⟩
  have hread := hall 0 [0, 0, 0, 0] rfl rfl (by decide) (servingEnv_serves blankDevice _ _ _)
  rw [readBpViaLogPage, if_pos (Or.inl (by decide))] at hread
  cases hread

end Agree

end BootPartitionLayout
