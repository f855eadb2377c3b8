import OdpPlatform.SreFmpImage

/-! # Boot partitions of a device

A staging area, filled by accepted downloads, and two partitions; an accepted commit copies the
staging area to the partition it names. -/
namespace BootPartitionDevice

open ByteBuffer InteractionProgram InteractionContract FirmwareServices SreStorageNvme
open SreStorageGeometry SreStorageSession SreFmpDevice SreFmpImage

structure Device where
  staging : Bytes
  content : PartitionIndex → Bytes

def commitBpid (c : NvmeCommand) : PartitionIndex := c.cdw10 >>> 31

def Device.step (d : Device) (c : Command) : Device :=
  if c.2.Accepted then
    if c.1.command.opcode = nvmeAdminFwImageDownloadCmd then
      { d with
        staging := splice d.staging (4 * c.1.command.cdw11.toNat)
          (c.1.buffer.take c.1.transferLength) }
    else if c.1.command.opcode = nvmeAdminFwCommitCmd then
      { d with content := Function.update d.content (commitBpid c.1.command) d.staging }
    else d
  else d

def Device.after (d : Device) (cs : List Command) : Device := cs.foldl Device.step d

@[simp] theorem after_nil (d : Device) : d.after [] = d := rfl
@[simp] theorem after_cons (d : Device) (c : Command) (cs : List Command) :
    d.after (c :: cs) = (d.step c).after cs := rfl
@[simp] theorem after_append (d : Device) (cs cs' : List Command) :
    d.after (cs ++ cs') = (d.after cs).after cs' := List.foldl_append

theorem step_download (d : Device) {p : Packet} {r : Completion}
    (hop : p.command.opcode = nvmeAdminFwImageDownloadCmd) (hr : r.Accepted) :
    d.step (p, r) = { d with
      staging := splice d.staging (4 * p.command.cdw11.toNat) (p.buffer.take p.transferLength) } := by
  simp only [Device.step, if_pos hr, if_pos hop]

theorem step_commit (d : Device) {p : Packet} {r : Completion}
    (hop : p.command.opcode = nvmeAdminFwCommitCmd) (hr : r.Accepted) :
    d.step (p, r) =
      { d with content := Function.update d.content (commitBpid p.command) d.staging } := by
  have hne : ¬p.command.opcode = nvmeAdminFwImageDownloadCmd := by
    rw [hop]
    decide
  simp only [Device.step, if_pos hr, if_neg hne, if_pos hop]

theorem step_rejected (d : Device) {c : Command} (hc : ¬c.2.Accepted) : d.step c = d :=
  if_neg hc

theorem after_rejected (d : Device) {cs : List Command} (hcs : ∀ c ∈ cs, ¬c.2.Accepted) :
    d.after cs = d := by
  induction cs with
  | nil => rfl
  | cons c cs ih =>
    rw [after_cons, step_rejected d (hcs c List.mem_cons_self)]
    exact ih fun x hx => hcs x (List.mem_cons_of_mem _ hx)

theorem step_lockPacket (d : Device) (p : PartitionIndex) (l : NvmeLockState) (r : Completion) :
    d.step (lockPacket p l, r) = d := by
  simp [Device.step, lockPacket, nvmeAdminSetFeaturesCmd, nvmeAdminFwImageDownloadCmd,
    nvmeAdminFwCommitCmd]

theorem step_commitPacket (d : Device) {s : SreStorage} (hp : s.mPartitionIndex ≤ srePartitionB)
    {r : Completion} (hr : r.Accepted) :
    d.step (commitPacket s, r) =
      { d with content := Function.update d.content s.mPartitionIndex d.staging } := by
  have hbpid : commitBpid (commitPacket s).command = s.mPartitionIndex := commitPacket_bpid hp
  rw [step_commit d rfl hr, hbpid]

section Apply

variable {s : SreStorage} {image : Bytes} {v : UInt32}

/-- A block download lands at the byte offset of its block. -/
theorem step_blockPacket (d : Device) (hs : Usable s) (content : Bytes) {i : ℕ}
    (hi : i < s.mBlockCount) {r : Completion} (hr : r.Accepted) :
    d.step (blockPacket s content i, r) =
      { d with
        staging := splice d.staging (i * s.mBlockSize)
          (window content (i * s.mBlockSize) s.mBlockSize) } := by
  obtain ⟨k, _, _, hk⟩ := hs.blockSize
  have hgeo : Usable { s with mBlockIndex := i } := hs.of_geometry ⟨rfl, rfl, rfl, rfl, rfl⟩
  have hoff : (blockPacket s content i).command.cdw11.toNat = i * s.mBlockSize / 4 :=
    (downloadCommand_fields hgeo hi).1
  have hdword : 4 * (i * s.mBlockSize / 4) = i * s.mBlockSize :=
    Nat.mul_div_cancel' (Dvd.dvd.mul_left ⟨k * 1024, by omega⟩ i)
  have hdata : (blockPacket s content i).buffer.take (blockPacket s content i).transferLength =
      window content (i * s.mBlockSize) s.mBlockSize := by
    simp [blockPacket, downloadPacket, window]
  rw [step_download d rfl hr, hoff, hdword, hdata]

/-- After `n` downloads the staging area starts with the first `n` blocks of the content. -/
theorem downloaded_after (hs : Usable s) {content : Bytes}
    (hlen : s.mBlockCount * s.mBlockSize ≤ content.length) (d : Device) (n : ℕ) :
    ∀ {cs}, n ≤ s.mBlockCount → Downloaded s content n cs →
      d.after cs = { d with staging := splice d.staging 0 (content.take (n * s.mBlockSize)) } := by
  induction n with
  | zero =>
    intro cs _ hd
    obtain rfl : cs = [] := List.map_eq_nil_iff.mp hd.1
    simp [splice]
  | succ n ih =>
    intro cs hn hd
    obtain ⟨cs', r, rfl, hd', hr⟩ := hd.unsnoc
    have hblock : (n + 1) * s.mBlockSize ≤ content.length :=
      (Nat.mul_le_mul_right _ hn).trans hlen
    rw [Nat.succ_mul] at hblock
    have hfront : (content.take (n * s.mBlockSize)).length = n * s.mBlockSize :=
      List.length_take_of_le (by omega)
    rw [after_append, ih (by omega) hd', after_cons, after_nil, step_blockPacket _ hs content hn hr]
    have hmeet := splice_append d.staging (content.take (n * s.mBlockSize))
      (window content (n * s.mBlockSize) s.mBlockSize)
    rw [hfront] at hmeet
    rw [hmeet, Nat.succ_mul, List.take_add]
    rfl

/-- The staging area once the whole image has been downloaded. -/
def staged (d : Device) (s : SreStorage) (image : Bytes) (v : UInt32) : Bytes :=
  splice d.staging 0 (stampedImage (s.mBlockCount * s.mBlockSize) image v)

/-- A failed apply changes the staging area only, a successful one also the partition. -/
inductive Outcome (s : SreStorage) (p : PartitionIndex) (image : Bytes) (v : UInt32) (d : Device) :
    Status → Device → Prop where
  | failed {st n} : st.isError = true → Outcome s p image v d st
      ⟨splice d.staging 0
        ((stampedImage (s.mBlockCount * s.mBlockSize) image v).take (n * s.mBlockSize)), d.content⟩
  | committed : Outcome s p image v d .success
      ⟨staged d s image v, Function.update d.content p (staged d s image v)⟩

theorem applied_outcome (hs : Usable s) {p : PartitionIndex} (hp : p ≤ srePartitionB)
    (himage : image.length ≤ s.mBlockCount * s.mBlockSize) {cs : List Command} {st : Status}
    (ha : Applied s p image v cs st) (d : Device) : Outcome s p image v d st (d.after cs) := by
  have hlen := length_stampedImage (v := v) (descriptor_in hs) himage
  cases ha with
  | unopened he hcs =>
    rw [after_rejected d fun c hc => (hcs c hc).2]
    have hnone : splice d.staging 0
        ((stampedImage (s.mBlockCount * s.mBlockSize) image v).take (0 * s.mBlockSize)) =
        d.staging := by
      simp [splice]
    have hfailed : Outcome s p image v d st ⟨splice d.staging 0
        ((stampedImage (s.mBlockCount * s.mBlockSize) image v).take (0 * s.mBlockSize)),
        d.content⟩ := .failed he
    rwa [hnone] at hfailed
  | @abandoned r cs fails j r' _ he _ hj hdown hrej =>
    rw [after_cons, step_lockPacket, after_append, after_append, after_cons, after_nil,
      step_lockPacket, after_rejected _ fun c hc => (hrej c hc).2,
      downloaded_after hs hlen.ge d _ hj hdown]
    exact .failed he
  | @committed r cs r' hr hdown hr' =>
    rw [after_cons, step_lockPacket, after_append, downloaded_after hs hlen.ge d _ le_rfl hdown,
      after_cons, after_nil, step_commitPacket _ hp hr', List.take_of_length_le hlen.le]
    exact .committed

end Apply

end BootPartitionDevice
