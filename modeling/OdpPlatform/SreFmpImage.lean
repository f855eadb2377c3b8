import OdpPlatform.SreStorageSession
import OdpPlatform.SreFmpDevice

/-! # What ApplyWimToSreStorage writes

The commands of an apply in their order: the unlock, one download for each block of the padded
and stamped image, then the commit, or the re-lock of Abort when anything fails. -/
namespace SreFmpImage

open ByteBuffer InteractionProgram InteractionContract FirmwareServices SreStorageNvme
open SreStorageGeometry SreStorageSession SreFmpDevice

def stampedImage (size : ℕ) (image : Bytes) (capsuleFwVersion : UInt32) : Bytes :=
  splice (padTo size 0 image) sreImageInfoOffset (sreImageInfo capsuleFwVersion)

theorem length_sreImageInfo (v : UInt32) : (sreImageInfo v).length = sizeofSreImageInfo := rfl

/-- Block sizes are multiples of 4 KiB, so the descriptor never crosses a block boundary. -/
theorem descriptor_fits {s : SreStorage} (hs : Usable s) :
    sreImageInfoOffset % s.mBlockSize + sizeofSreImageInfo ≤ s.mBlockSize := by
  obtain ⟨k, hk, _, hsize⟩ := hs.blockSize
  have hlt : sreImageInfoOffset % s.mBlockSize < s.mBlockSize := Nat.mod_lt _ (by omega)
  have hmod : sreImageInfoOffset % s.mBlockSize % 4096 = sreImageInfoOffset % 4096 :=
    Nat.mod_mod_of_dvd _ ⟨k, by omega⟩
  have hoff : sreImageInfoOffset % 4096 = 1024 := by decide
  unfold sizeofSreImageInfo
  omega

theorem descriptor_in {s : SreStorage} (hs : Usable s) :
    sreImageInfoOffset + sizeofSreImageInfo ≤ s.mBlockCount * s.mBlockSize := by
  have hfit := descriptor_fits hs
  obtain ⟨k, hk, _, hsize⟩ := hs.blockSize
  have hlt : sreImageInfoOffset / s.mBlockSize < s.mBlockCount :=
    Nat.div_lt_of_lt_mul (by rw [Nat.mul_comm]; exact hs.spacious)
  have hmul : (sreImageInfoOffset / s.mBlockSize + 1) * s.mBlockSize ≤
      s.mBlockCount * s.mBlockSize := Nat.mul_le_mul_right _ hlt
  have hdiv := Nat.div_add_mod sreImageInfoOffset s.mBlockSize
  rw [Nat.succ_mul] at hmul
  rw [Nat.mul_comm] at hdiv
  omega

theorem length_stampedImage {size : ℕ} {image : Bytes} {v : UInt32}
    (hd : sreImageInfoOffset + sizeofSreImageInfo ≤ size) (hi : image.length ≤ size) :
    (stampedImage size image v).length = size := by
  rw [stampedImage, length_splice (by rw [length_padTo hi]; exact hd), length_padTo hi]

/-- Nothing of the previous contents of the chunk is left. -/
theorem fillChunk_eq {size : ℕ} {chunk rest : Bytes} (hc : chunk.length = size) :
    fillChunk size chunk rest = padTo size 0 (rest.take size) := by
  unfold fillChunk
  by_cases hlt : rest.length < size
  · have hz : (List.replicate (size - rest.length) (0 : UInt8)).length = size - rest.length :=
      List.length_replicate
    have hsum : rest.length + (size - rest.length) = size := by omega
    simp only [if_pos hlt, List.take_of_length_le hlt.le, List.take_length, splice, padTo, hz, hsum]
    rcases Nat.eq_zero_or_pos rest.length with h0 | hpos
    · have hnil : rest = [] := List.eq_nil_of_length_eq_zero h0
      subst hnil
      simp [← hc]
    · have hdrop : (chunk.drop rest.length).drop (size - rest.length) = [] := by
        rw [List.drop_drop, hsum, ← hc, List.drop_length]
      simp [if_pos hpos, List.drop_append, hdrop, List.drop_eq_nil_of_le hlt.le]
  · have hlen : (rest.take size).length = size := List.length_take_of_le (Nat.le_of_not_lt hlt)
    simp only [if_neg hlt, lt_irrefl, if_false, padTo, hlen, Nat.sub_self, List.replicate_zero,
      List.append_nil]
    rcases Nat.eq_zero_or_pos size with h0 | hpos
    · subst h0
      rw [if_neg (lt_irrefl 0), List.eq_nil_of_length_eq_zero hc, List.take_zero]
    · rw [if_pos hpos, splice, List.take_zero, List.nil_append, hlen, Nat.zero_add, ← hc,
        List.drop_length, List.append_nil]

/-- The chunk of one iteration, before and after the stamp, is a block of the stamped image. -/
theorem blockChunk_eq {s : SreStorage} (hs : Usable s) {image chunk : Bytes} {v : UInt32} {i : ℕ}
    (hc : chunk.length = s.mBlockSize) (hi : i < s.mBlockCount)
    (himage : image.length ≤ s.mBlockCount * s.mBlockSize) :
    (if i = sreImageInfoOffset / s.mBlockSize then
      splice (fillChunk s.mBlockSize chunk (image.drop (i * s.mBlockSize)))
        (sreImageInfoOffset % s.mBlockSize) (sreImageInfo v)
    else fillChunk s.mBlockSize chunk (image.drop (i * s.mBlockSize))) =
      window (stampedImage (s.mBlockCount * s.mBlockSize) image v) (i * s.mBlockSize)
        s.mBlockSize := by
  have hfit := descriptor_fits hs
  have hdiv := Nat.div_add_mod sreImageInfoOffset s.mBlockSize
  have hrec := length_sreImageInfo v
  have hblock : i * s.mBlockSize + s.mBlockSize ≤ s.mBlockCount * s.mBlockSize := by
    rw [← Nat.succ_mul]
    exact Nat.mul_le_mul_right _ hi
  have hpad : fillChunk s.mBlockSize chunk (image.drop (i * s.mBlockSize)) =
      window (padTo (s.mBlockCount * s.mBlockSize) 0 image) (i * s.mBlockSize) s.mBlockSize := by
    rw [fillChunk_eq hc, window_padTo himage hblock]
    rfl
  have hlen : (padTo (s.mBlockCount * s.mBlockSize) (0 : UInt8) image).length =
      s.mBlockCount * s.mBlockSize := length_padTo himage
  rw [hpad]
  split
  next hstamp =>
    rw [stampedImage]
    have hoff : sreImageInfoOffset = i * s.mBlockSize + sreImageInfoOffset % s.mBlockSize := by
      rw [hstamp, Nat.mul_comm]
      exact hdiv.symm
    conv_rhs => rw [hoff]
    rw [window_splice_inside (by rw [hrec]; exact hfit) (by rw [hlen]; exact hblock)]
  next hstamp =>
    -- the descriptor lies wholly in an earlier or in a later block
    rw [stampedImage, window_splice_disjoint (by rw [hlen]; exact hs.spacious.le)]
    rcases Nat.lt_or_gt_of_ne hstamp with hlt | hgt
    · left
      have hmul : (i + 1) * s.mBlockSize ≤ sreImageInfoOffset / s.mBlockSize * s.mBlockSize :=
        Nat.mul_le_mul_right _ hlt
      rw [Nat.succ_mul] at hmul
      rw [Nat.mul_comm] at hdiv
      omega
    · right
      have hmul : (sreImageInfoOffset / s.mBlockSize + 1) * s.mBlockSize ≤ i * s.mBlockSize :=
        Nat.mul_le_mul_right _ hgt
      rw [Nat.succ_mul] at hmul
      rw [Nat.mul_comm] at hdiv
      rw [hrec]
      omega

abbrev Command := Packet × Completion

def completed : Event Answer → Option Command
  | ⟨.passThru p, some r⟩ => some (p, r)
  | _ => none

/-- The commands of a history that completed, in their order. -/
def commandsOf (h : FirmwareTrace) : List Command := h.filterMap completed

@[simp] theorem commandsOf_append (h τ : FirmwareTrace) :
    commandsOf (h ++ τ) = commandsOf h ++ commandsOf τ := by
  simp [commandsOf]

@[simp] theorem commandsOf_passThru (p : Packet) (r : Completion) :
    commandsOf [⟨.passThru p, some r⟩] = [(p, r)] := rfl

theorem commandsOf_quiet {h : FirmwareTrace} {e : Event Answer} (he : completed e = none) :
    commandsOf (h ++ [e]) = commandsOf h := by
  simp [commandsOf, he]

def anyDevice : Contract Answer := .ofGuard fun _ _ => True

@[simp] theorem anyDevice_guard (h : FirmwareTrace) (c : Call) : anyDevice.guard h c := trivial

theorem anyDevice_returns {α : Type} {Q : FirmwareTrace → α → Prop} {p : Firmware α}
    {env : FirmwareEnv} {h h' : FirmwareTrace} {a : α} (hp : Meets anyDevice Q p h)
    (hrun : p.run env h = (h', some a)) : Q h' a := by
  have hsound := hp.sound (Contract.ofGuard_admits _ env) fun _ _ _ _ => trivial
  rw [hrun] at hsound
  exact hsound.2 a rfl

def blockPacket (s : SreStorage) (content : Bytes) (i : ℕ) : Packet :=
  downloadPacket { s with mBlockIndex := i } (window content (i * s.mBlockSize) s.mBlockSize)

def Downloaded (s : SreStorage) (content : Bytes) (n : ℕ) (cs : List Command) : Prop :=
  cs.map Prod.fst = (List.range n).map (blockPacket s content) ∧ ∀ c ∈ cs, c.2.Accepted

def IsWrite (c : Command) : Prop :=
  c.1.command.opcode = nvmeAdminFwImageDownloadCmd ∨ c.1.command.opcode = nvmeAdminFwCommitCmd

def Rejected (cs : List Command) : Prop := ∀ c ∈ cs, IsWrite c ∧ ¬c.2.Accepted

theorem Downloaded.snoc {s : SreStorage} {content : Bytes} {n : ℕ} {cs : List Command}
    (hd : Downloaded s content n cs) {r : Completion} (hr : r.Accepted) :
    Downloaded s content (n + 1) (cs ++ [(blockPacket s content n, r)]) := by
  obtain ⟨hmap, hall⟩ := hd
  refine ⟨by simp [hmap, List.range_succ], fun c hc => ?_⟩
  rcases List.mem_append.mp hc with hc | hc
  · exact hall c hc
  · cases List.mem_singleton.mp hc
    exact hr

theorem Downloaded.unsnoc {s : SreStorage} {content : Bytes} {n : ℕ} {cs : List Command}
    (hd : Downloaded s content (n + 1) cs) :
    ∃ cs' r, cs = cs' ++ [(blockPacket s content n, r)] ∧ Downloaded s content n cs' ∧
      Completion.Accepted r := by
  obtain ⟨hmap, hall⟩ := hd
  rw [List.range_succ, List.map_append] at hmap
  obtain ⟨cs', last, rfl, hcs', hlast⟩ := List.map_eq_append_iff.mp hmap
  obtain ⟨⟨p, r⟩, rfl, hp⟩ := List.map_eq_singleton_iff.mp hlast
  have hp : p = blockPacket s content n := hp
  subst hp
  exact ⟨cs', r, rfl, ⟨hcs', fun c hc => hall c (List.mem_append_left _ hc)⟩,
    hall _ (List.mem_append_right _ List.mem_cons_self)⟩

section Apply

variable {s : SreStorage} (hs : Usable s) {image : Bytes} {v : UInt32} {a : ApplyParams}

theorem sreProgress_meets (d : SreFmp) (p : PartitionIndex) (i n : ℕ) (b : Bool)
    (h : FirmwareTrace) :
    Meets anyDevice (fun h' d' => d'.storage = d.storage ∧ commandsOf h' = commandsOf h)
      (sreProgress d p i n b) h := by
  simp only [sreProgress, Program.call_bind, Program.pure_eq_done]
  split
  · split
    · exact ⟨trivial, fun _ _ => ⟨rfl, by simp [commandsOf, completed]⟩⟩
    · exact ⟨rfl, rfl⟩
  · exact ⟨rfl, rfl⟩

structure ParamsOf (s : SreStorage) (v : UInt32) (a : ApplyParams) : Prop where
  version : a.capsuleFwVersion = v
  count : a.blockCount = s.mBlockCount
  size : a.blockSize = s.mBlockSize

/-- The loop invariant: `i` blocks of the content accepted since the commands `c₀`. -/
structure AtBlock (s : SreStorage) (image : Bytes) (v : UInt32) (c₀ : List Command) (i : ℕ)
    (h : FirmwareTrace) (st : ApplyState) : Prop where
  storage : st.dev.storage = { s with mBlockIndex := i }
  chunk : st.chunk.length = s.mBlockSize
  rest : st.imageBytes = image.drop (i * s.mBlockSize)
  commands : ∃ cs, commandsOf h = c₀ ++ cs ∧
    Downloaded s (stampedImage (s.mBlockCount * s.mBlockSize) image v) i cs

structure StoppedAt (s : SreStorage) (image : Bytes) (v : UInt32) (c₀ : List Command) (i : ℕ)
    (h : FirmwareTrace) (d : SreFmp) : Prop where
  le : i ≤ s.mBlockCount
  storage : d.storage = { s with mBlockIndex := i }
  commands : ∃ cs fails, commandsOf h = c₀ ++ cs ++ fails ∧ Rejected fails ∧
    Downloaded s (stampedImage (s.mBlockCount * s.mBlockSize) image v) i cs

variable {c₀ : List Command} {i : ℕ} {h : FirmwareTrace} {st : ApplyState}

theorem drop_copyAmt (b : Bytes) (n : ℕ) :
    b.drop (if b.length < n then b.length else n) = b.drop n := by
  split
  next hlt => rw [List.drop_length, List.drop_eq_nil_of_le hlt.le]
  next => rfl

include hs in
theorem length_block (himage : image.length ≤ s.mBlockCount * s.mBlockSize)
    (hi : i < s.mBlockCount) :
    (window (stampedImage (s.mBlockCount * s.mBlockSize) image v) (i * s.mBlockSize)
      s.mBlockSize).length = s.mBlockSize := by
  have hblock : (i + 1) * s.mBlockSize ≤ s.mBlockCount * s.mBlockSize :=
    Nat.mul_le_mul_right _ hi
  rw [Nat.succ_mul] at hblock
  rw [length_window, length_stampedImage (descriptor_in hs) himage]
  omega

include hs in
theorem applyBlock_meets (ha : ParamsOf s v a)
    (himage : image.length ≤ s.mBlockCount * s.mBlockSize) (hi : i < s.mBlockCount)
    (hat : AtBlock s image v c₀ i h st) :
    Meets anyDevice (fun h' res =>
      (res.1.isError = false ∧ AtBlock s image v c₀ (i + 1) h' res.2) ∨
        (res.1.isError = true ∧ StoppedAt s image v c₀ i h' res.2.dev)) (applyBlock a st i) h := by
  obtain ⟨cs, hcs, hdown⟩ := hat.commands
  refine (sreProgress_meets st.dev a.partitionIndex i a.blockCount a.progress h).bind
    fun h₁ dev _ hdev => ?_
  obtain ⟨hdev, hsame⟩ := hdev
  have hfit := descriptor_fits hs
  have hnospan : ¬(i = sreImageInfoOffset / a.blockSize ∧
      sreImageInfoOffset % a.blockSize + sizeofSreImageInfo > a.blockSize) := by
    rw [ha.size]
    omega
  have hgeo : Usable dev.storage := by
    rw [hdev, hat.storage]
    exact hs.of_geometry ⟨rfl, rfl, rfl, rfl, rfl⟩
  rw [if_neg hnospan]
  dsimp only
  rw [ha.size, ha.version, hat.rest, blockChunk_eq hs hat.chunk hi himage]
  refine ((writeBlock_shape hgeo _).meets anyDevice_guard h₁).bind fun h₂ res _ hp => ?_
  obtain ⟨τ, rfl, hp⟩ := hp
  generalize hres : some res = out at hp
  cases hp with
  | refused he =>
    cases hres
    exact Or.inr ⟨he, ⟨hi.le, hdev.trans hat.storage, cs, [], by simp [hsame, hcs], nofun, hdown⟩⟩
  | lost => cases hres
  | @completed p r hissue =>
    cases hres
    cases hissue
    have hpacket : downloadPacket dev.storage
        (window (stampedImage (s.mBlockCount * s.mBlockSize) image v) (i * s.mBlockSize)
          s.mBlockSize) =
        blockPacket s (stampedImage (s.mBlockCount * s.mBlockSize) image v) i := by
      rw [hdev, hat.storage]
      rfl
    by_cases hr : r.Accepted
    · left
      simp only [conclude_accepted hr]
      refine ⟨rfl, ?_, ?_, ?_, cs ++ [(_, r)], ?_, hdown.snoc hr⟩
      · simp only [advance, hdev, hat.storage]
      · exact length_block hs himage hi
      · dsimp only
        rw [drop_copyAmt, List.drop_drop, Nat.succ_mul]
      · rw [← hpacket, commandsOf_append, hsame, hcs, List.append_assoc]
        rfl
    · right
      rw [conclude_rejected ApiCall.noConfusion hr]
      refine ⟨completionStatus_rejected hr, hi.le, hdev.trans hat.storage, cs,
        [(blockPacket s (stampedImage (s.mBlockCount * s.mBlockSize) image v) i, r)], ?_, ?_, hdown⟩
      · rw [← hpacket, commandsOf_append, hsame, hcs]
        rfl
      · intro c hc
        cases List.mem_singleton.mp hc
        exact ⟨Or.inl rfl, hr⟩

/-- The loop lemma: the remaining indices count up to the last block. -/
theorem applyBlocks_meets (hs : Usable s) (ha : ParamsOf s v a)
    (himage : image.length ≤ s.mBlockCount * s.mBlockSize) (n : ℕ) :
    ∀ {i h st}, i + n = s.mBlockCount → AtBlock s image v c₀ i h st →
      Meets anyDevice (fun h' res =>
        (res.1.isError = false ∧ AtBlock s image v c₀ s.mBlockCount h' res.2) ∨
          (res.1.isError = true ∧ ∃ j, StoppedAt s image v c₀ j h' res.2.dev))
        (applyBlocks a (List.range' i n) st) h := by
  induction n with
  | zero =>
    intro i h st hin hat
    obtain rfl : i = s.mBlockCount := hin
    exact Or.inl ⟨rfl, hat⟩
  | succ n ih =>
    intro i h st hin hat
    rw [List.range'_succ, applyBlocks]
    refine (applyBlock_meets hs ha himage (by omega) hat).bind fun h' res _ hres => ?_
    obtain ⟨status, st'⟩ := res
    dsimp only at hres ⊢
    rcases hres with ⟨hok, hat'⟩ | ⟨herr, hstop⟩
    · rw [hok]
      exact ih (by omega) hat'
    · rw [herr]
      exact Or.inr ⟨herr, i, hstop⟩

/-- The commands between the Open and the end of the session, by how it ends. -/
inductive Written (s : SreStorage) (image : Bytes) (v : UInt32) (c₀ : List Command)
    (h : FirmwareTrace) : Status → SreFmp → Prop where
  | committed {cs d r} : Completion.Accepted r →
      commandsOf h = c₀ ++ cs ++ [(commitPacket s, r)] →
      Downloaded s (stampedImage (s.mBlockCount * s.mBlockSize) image v) s.mBlockCount cs →
      d.storage = { s with mIsWriteOpen := false, mBlockIndex := 0 } →
      Written s image v c₀ h .success d
  | failed {j d st} : st.isError = true → StoppedAt s image v c₀ j h d → Written s image v c₀ h st d

theorem writeClose_written {d : SreFmp} {chunk rest : Bytes} (hs : Usable s) (hat : AtBlock s image v c₀
    s.mBlockCount h ⟨d, chunk, rest⟩) :
    Meets anyDevice (fun h' res => Written s image v c₀ h' res.1 { d with storage := res.2 })
      (sreStorageWriteClose d.storage) h := by
  obtain ⟨cs, hcs, hdown⟩ := hat.commands
  have hd : d.storage = { s with mBlockIndex := s.mBlockCount } := hat.storage
  have hgeo : Usable d.storage := by
    rw [hd]
    exact hs.of_geometry ⟨rfl, rfl, rfl, rfl, rfl⟩
  refine ((writeClose_shape hgeo).meets anyDevice_guard h).mono fun h' res _ hp => ?_
  obtain ⟨τ, rfl, hp⟩ := hp
  generalize hres : some res = out at hp
  cases hp with
  | refused he =>
    cases hres
    exact .failed he ⟨le_rfl, hd, cs, [], by simp [hcs], nofun, hdown⟩
  | lost => cases hres
  | @completed p r hissue =>
    cases hres
    cases hissue
    have hpacket : commitPacket d.storage = commitPacket s := by rw [hd]; rfl
    have hcmd : commandsOf (h ++ [⟨.passThru (commitPacket d.storage), some r⟩]) =
        c₀ ++ cs ++ [(commitPacket s, r)] := by
      rw [commandsOf_append, hcs, ← hpacket]
      rfl
    by_cases hr : r.Accepted
    · rw [conclude_accepted hr]
      exact .committed hr hcmd hdown (by simp only [advance, hd])
    · rw [conclude_rejected ApiCall.noConfusion hr]
      refine .failed (completionStatus_rejected hr)
        ⟨le_rfl, hd, cs, _, hcmd, fun c hc => ?_, hdown⟩
      cases List.mem_singleton.mp hc
      exact ⟨Or.inr rfl, hr⟩

theorem AtBlock.of_commands {i : ℕ} {h' : FirmwareTrace} (hat : AtBlock s image v c₀ i h st)
    (hsame : commandsOf h' = commandsOf h) : AtBlock s image v c₀ i h' st where
  storage := hat.storage
  chunk := hat.chunk
  rest := hat.rest
  commands := by
    rw [hsame]
    exact hat.commands

theorem closeImage_written (hs : Usable s) (hat : AtBlock s image v c₀ s.mBlockCount h st) :
    Meets anyDevice (fun h' res => Written s image v c₀ h' res.1 res.2)
      (do
        let (status, storage) ← sreStorageWriteClose st.dev.storage
        pure (status, { st.dev with storage })) h :=
  (writeClose_written hs hat).bind fun _ _ _ hw => hw

theorem writeImage_meets (hs : Usable s) (ha : ParamsOf s v a)
    (himage : image.length ≤ s.mBlockCount * s.mBlockSize) (hat : AtBlock s image v c₀ 0 h st) :
    Meets anyDevice (fun h' res => Written s image v c₀ h' res.1 res.2) (writeImage a st) h := by
  unfold writeImage
  rw [ha.count, List.range_eq_range']
  refine (applyBlocks_meets hs ha himage s.mBlockCount (Nat.zero_add _) hat).bind
    fun h₁ res _ hres => ?_
  obtain ⟨status, st'⟩ := res
  dsimp only at hres ⊢
  rcases hres with ⟨hok, hat'⟩ | ⟨herr, j, hstop⟩
  · simp only [hok, Bool.false_eq_true, if_false, Program.call_bind]
    split
    · refine ⟨trivial, fun r _ => closeImage_written hs (hat'.of_commands ?_)⟩
      simp [commandsOf, completed]
    · exact closeImage_written hs hat'
  · rw [herr]
    exact .failed herr hstop

inductive Applied (s : SreStorage) (p : PartitionIndex) (image : Bytes) (v : UInt32) :
    List Command → Status → Prop where
  | unopened {cs st} : st.isError = true →
      (∀ c ∈ cs, c.1 = lockPacket p .writeUnlocked ∧ ¬c.2.Accepted) →
      Applied s p image v cs st
  | abandoned {r cs fails j r' st} : st.isError = true → Completion.Accepted r →
      j ≤ s.mBlockCount →
      Downloaded s (stampedImage (s.mBlockCount * s.mBlockSize) image v) j cs → Rejected fails →
      Applied s p image v
        ((lockPacket p .writeUnlocked, r) :: (cs ++ fails ++ [(lockPacket p .writeLocked, r')])) st
  | committed {r cs r'} : Completion.Accepted r →
      Downloaded s (stampedImage (s.mBlockCount * s.mBlockSize) image v) s.mBlockCount cs →
      Completion.Accepted r' →
      Applied s p image v
        ((lockPacket p .writeUnlocked, r) ::
          (cs ++ [(commitPacket (advance s (.writeOpen p)), r')])) .success

structure ClosedLike (s t : SreStorage) : Prop where
  closed : t.mIsWriteOpen = false
  usable : Usable t
  count_eq : t.mBlockCount = s.mBlockCount
  size_eq : t.mBlockSize = s.mBlockSize

theorem ClosedLike.refl (hs : Usable s) (hclosed : s.mIsWriteOpen = false) : ClosedLike s s :=
  ⟨hclosed, hs, rfl, rfl⟩

/-- The allocated pages are exactly one block. -/
theorem pages_size (hs : Usable s) : efiSizeToPages s.mBlockSize * 4096 = s.mBlockSize := by
  obtain ⟨k, _, _, hk⟩ := hs.blockSize
  rw [hk, efiSizeToPages]
  omega

theorem Downloaded.congr {t : SreStorage} (ht : ClosedLike s t) {content : Bytes} {n : ℕ}
    {cs : List Command} (hd : Downloaded t content n cs) : Downloaded s content n cs := by
  have hpacket : blockPacket t content = blockPacket s content := by
    funext i
    simp [blockPacket, downloadPacket, downloadCommand, ht.size_eq]
  rw [Downloaded, ← hpacket]
  exact hd

/-- The commands depend on the geometry only. -/
theorem Applied.congr {t : SreStorage} (ht : ClosedLike s t) {p : PartitionIndex}
    {cs : List Command} {st : Status} (ha : Applied t p image v cs st) :
    Applied s p image v cs st := by
  cases ha with
  | unopened he hcs => exact .unopened he hcs
  | abandoned he hr hj hdown hrej =>
    rw [ht.count_eq, ht.size_eq] at hdown
    exact .abandoned he hr (ht.count_eq ▸ hj) (hdown.congr ht) hrej
  | committed hr hdown hr' =>
    rw [ht.count_eq, ht.size_eq] at hdown
    exact .committed hr (hdown.congr ht) hr'

/-- From the open session to Done: `d.storage` is what the Open left. -/
theorem session_meets (hs : Usable s) {p : PartitionIndex} (hp : p ≤ srePartitionB)
    (himage : image.length ≤ s.mBlockCount * s.mBlockSize) (ha : ParamsOf s v a) {d : SreFmp}
    (hd : d.storage = advance s (.writeOpen p)) {chunk : Bytes}
    (hchunk : chunk.length = s.mBlockSize) {r : Completion} (hr : r.Accepted)
    (hc₀ : commandsOf h = c₀ ++ [(lockPacket p .writeUnlocked, r)]) (address pages : ℕ) :
    Meets anyDevice (fun h' res =>
      (∃ cs, commandsOf h' = c₀ ++ cs ∧ Applied s p image v cs res.1) ∧
        ClosedLike s res.2.storage)
      (do
        let (status, d) ← writeImage a ⟨d, chunk, image⟩
        if status.isError then
          let (_, storage) ← sreStorageWriteAbort d.storage
          ask (.freeAlignedPages address pages)
          pure (status, { d with storage })
        else
          ask (.freeAlignedPages address pages)
          pure (status, d)) h := by
  have hopen : Usable (advance s (.writeOpen p)) := hs.of_geometry ⟨rfl, rfl, rfl, rfl, rfl⟩
  have hat : AtBlock (advance s (.writeOpen p)) image v (commandsOf h) 0 h ⟨d, chunk, image⟩ :=
    ⟨hd, hchunk, by simp, [], by simp, rfl, nofun⟩
  refine (writeImage_meets hopen ⟨ha.version, ha.count, ha.size⟩ himage hat).bind
    fun h₁ res _ hw => ?_
  obtain ⟨status, d₁⟩ := res
  cases hw with
  | @committed cs _ r' hr' hcmd hdown hstorage =>
    refine ⟨trivial, fun _ _ => ⟨⟨_, ?_, .committed hr hdown hr'⟩, ?_⟩⟩
    · rw [commandsOf_quiet rfl, hcmd, hc₀]
      simp
    · dsimp only at hstorage ⊢
      rw [hstorage]
      exact ⟨rfl, hs.of_geometry ⟨rfl, rfl, rfl, rfl, rfl⟩, rfl, rfl⟩
  | @failed j _ _ herr hstop =>
    obtain ⟨hj, hstorage, cs, fails, hcmd, hrej, hdown⟩ := hstop
    have hgeo : Usable d₁.storage := by
      rw [hstorage]
      exact hs.of_geometry ⟨rfl, rfl, rfl, rfl, rfl⟩
    have hpart : d₁.storage.mPartitionIndex = p := by rw [hstorage]; rfl
    have hcount : d₁.storage.mBlockCount = s.mBlockCount := by rw [hstorage]; rfl
    have hsize : d₁.storage.mBlockSize = s.mBlockSize := by rw [hstorage]; rfl
    dsimp only at herr ⊢
    rw [if_pos herr, writeAbort_eq hgeo (hpart ▸ hp) (by rw [hstorage]; rfl), hpart]
    refine ⟨trivial, fun r' _ => ⟨trivial, fun _ _ =>
      ⟨⟨(_, r) :: (cs ++ fails ++ [(_, r')]), ?_, .abandoned herr hr hj hdown hrej⟩, ?_⟩⟩⟩
    · rw [commandsOf_quiet rfl, commandsOf_append, hcmd, hc₀, commandsOf_passThru]
      simp
    · simp only [conclude, true_or, if_true, advance]
      exact ⟨rfl, hgeo.of_geometry ⟨rfl, rfl, rfl, rfl, rfl⟩, hcount, hsize⟩

theorem applyWim_meets (hs : Usable s) (hclosed : s.mIsWriteOpen = false) {p : PartitionIndex}
    (hp : p ≤ srePartitionB) (himage : image.length ≤ s.mBlockCount * s.mBlockSize) {d : SreFmp}
    (hd : d.storage = s) (b : Bool) (h : FirmwareTrace) :
    Meets anyDevice (fun h' res =>
      (∃ cs, commandsOf h' = commandsOf h ++ cs ∧ Applied s p image v cs res.1) ∧
        ClosedLike s res.2.storage) (applyWimToSreStorage d p image v b) h := by
  have hrefl := ClosedLike.refl hs hclosed
  have hinfo : sreStorageInfo d.storage = .ok ⟨s.mBlockCount, s.mBlockSize, s.mBlockAlignment⟩ := by
    simp [sreStorageInfo, hd, hs.isSupported]
  unfold applyWimToSreStorage
  rw [hinfo]
  simp only [Program.call_bind, Program.pure_eq_done]
  refine ⟨trivial, fun chunk _ => ?_⟩
  cases chunk with
  | none =>
    exact ⟨⟨[], by simp [commandsOf, completed], .unopened rfl nofun⟩, by rw [hd]; exact hrefl⟩
  | some chunk =>
    dsimp only
    rw [hd]
    refine ((writeOpen_shape hs p).meets anyDevice_guard _).bind fun h₁ res _ hperf => ?_
    obtain ⟨τ, rfl, hperf⟩ := hperf
    generalize hres : some res = out at hperf
    cases hperf with
    | refused he =>
      cases hres
      dsimp only
      rw [if_pos he]
      refine ⟨trivial, fun _ _ => ⟨⟨[], ?_, .unopened he nofun⟩, hrefl⟩⟩
      rw [commandsOf_quiet rfl, List.append_nil, commandsOf_quiet rfl, List.append_nil]
    | lost => cases hres
    | @completed q r hissue =>
      cases hres
      cases hissue
      by_cases hr : r.Accepted
      · rw [conclude_accepted hr]
        simp only [isError_success, Bool.false_eq_true, if_false]
        refine session_meets (d := { d with storage := advance s (.writeOpen p) }) hs hp himage
          ?_ rfl ?_ hr ?_ _ _
        · exact ⟨rfl, rfl, rfl⟩
        · rw [chunk.size]
          exact pages_size hs
        · rw [commandsOf_append, commandsOf_quiet rfl]
          rfl
      · rw [conclude_rejected ApiCall.noConfusion hr]
        dsimp only
        rw [if_pos (completionStatus_rejected hr)]
        refine ⟨trivial, fun _ _ => ⟨⟨[(lockPacket p .writeUnlocked, r)], ?_, ?_⟩, hrefl⟩⟩
        · rw [commandsOf_quiet rfl, commandsOf_append, commandsOf_quiet rfl]
          rfl
        · refine .unopened (completionStatus_rejected hr) fun c hc => ?_
          cases List.mem_singleton.mp hc
          exact ⟨rfl, hr⟩

/-- What a command hands to the device as a block of the image. -/
def blockOf (p : Packet) : Option Bytes :=
  if p.command.opcode = nvmeAdminFwImageDownloadCmd then some (p.buffer.take p.transferLength)
  else none

def writtenBlocks (cs : List Command) : List Bytes := cs.filterMap fun c => blockOf c.1

theorem blockOf_blockPacket (s : SreStorage) (content : Bytes) (i : ℕ) :
    blockOf (blockPacket s content i) = some (window content (i * s.mBlockSize) s.mBlockSize) := by
  simp [blockOf, blockPacket, downloadPacket, downloadCommand, window]

theorem Downloaded.writtenBlocks_eq {content : Bytes} {n : ℕ} {cs : List Command}
    (hd : Downloaded s content n cs) :
    writtenBlocks cs = (List.range n).map fun i => window content (i * s.mBlockSize) s.mBlockSize := by
  have hfirst : writtenBlocks cs = (cs.map Prod.fst).filterMap blockOf := by
    rw [List.filterMap_map]
    rfl
  rw [hfirst, hd.1, List.filterMap_map]
  have hsome : blockOf ∘ blockPacket s content =
      some ∘ fun i => window content (i * s.mBlockSize) s.mBlockSize :=
    funext fun i => blockOf_blockPacket s content i
  rw [hsome, List.filterMap_eq_map]

theorem Applied.writtenBlocks_eq {p : PartitionIndex} {cs : List Command}
    (ha : Applied s p image v cs .success) :
    writtenBlocks cs = (List.range s.mBlockCount).map fun i =>
      window (stampedImage (s.mBlockCount * s.mBlockSize) image v) (i * s.mBlockSize)
        s.mBlockSize := by
  cases ha with
  | unopened he => cases he
  | abandoned he => cases he
  | committed _ hdown _ =>
    have hw := hdown.writtenBlocks_eq
    simp only [writtenBlocks] at hw ⊢
    simp only [List.filterMap_cons, List.filterMap_append, hw]
    simp [blockOf, lockPacket, commitPacket, nvmeAdminSetFeaturesCmd, nvmeAdminFwCommitCmd,
      nvmeAdminFwImageDownloadCmd]

/-- The one block that the descriptor belongs to. -/
theorem descriptor_block_unique (hs : Usable s) :
    ∃! i, i < s.mBlockCount ∧ i * s.mBlockSize ≤ sreImageInfoOffset ∧
      sreImageInfoOffset + sizeofSreImageInfo ≤ (i + 1) * s.mBlockSize := by
  have hfit := descriptor_fits hs
  have hdiv := Nat.div_add_mod sreImageInfoOffset s.mBlockSize
  have hpos : 0 < s.mBlockSize := by
    unfold sizeofSreImageInfo at hfit
    omega
  rw [Nat.mul_comm] at hdiv
  refine ⟨sreImageInfoOffset / s.mBlockSize, ⟨?_, by omega, by rw [Nat.succ_mul]; omega⟩, ?_⟩
  · exact Nat.div_lt_of_lt_mul (by rw [Nat.mul_comm]; exact hs.spacious)
  · rintro i ⟨_, hlo, hhi⟩
    have hle : i ≤ sreImageInfoOffset / s.mBlockSize := (Nat.le_div_iff_mul_le hpos).mpr hlo
    have hge : sreImageInfoOffset / s.mBlockSize < i + 1 :=
      Nat.div_lt_of_lt_mul (by
        rw [Nat.mul_comm]
        unfold sizeofSreImageInfo at hhi
        omega)
    omega

/-- The descriptor lies in one block of every geometry, and whatever the device, the allocator and
the previous sessions left, a successful apply has written the padded image with it. -/
theorem apply_writes_stamped_image (hs : Usable s) :
    (∃! i, i < s.mBlockCount ∧ i * s.mBlockSize ≤ sreImageInfoOffset ∧
      sreImageInfoOffset + sizeofSreImageInfo ≤ (i + 1) * s.mBlockSize) ∧
    ¬sreImageInfoOffset % s.mBlockSize + sizeofSreImageInfo > s.mBlockSize ∧
    ∀ (d d' : SreFmp) (p : PartitionIndex) (image : Bytes) (v : UInt32) (progress : Bool)
      (env : FirmwareEnv), d.storage = s → s.mIsWriteOpen = false → p ≤ srePartitionB →
        image.length ≤ s.mBlockCount * s.mBlockSize →
        ((applyWimToSreStorage d p image v progress).run env []).2 = some (.success, d') →
      let blocks := writtenBlocks
        (commandsOf ((applyWimToSreStorage d p image v progress).run env []).1)
      blocks.length = s.mBlockCount ∧
        blocks.flatten = stampedImage (s.mBlockCount * s.mBlockSize) image v := by
  refine ⟨descriptor_block_unique hs, Nat.not_lt.mpr (descriptor_fits hs), ?_⟩
  intro d d' p image v progress env hd hclosed hp himage hrun
  have hmeets := applyWim_meets (v := v) hs hclosed hp himage hd progress []
  obtain ⟨⟨cs, hcs, happ⟩, _⟩ := hmeets.returns hrun
  have hcs : commandsOf _ = cs := hcs
  have hlen := length_stampedImage (v := v) (descriptor_in hs) himage
  refine ⟨?_, ?_⟩
  · rw [hcs, happ.writtenBlocks_eq, List.length_map, List.length_range]
  · rw [hcs, happ.writtenBlocks_eq, flatten_windows]
    exact List.take_of_length_le hlen.le

/-- A partition of 128 KiB written as a single block. -/
def oneBlock : SreStorage :=
  { mBlockSize := 131072
    mBlockCount := 1
    mBlockAlignment := 4096
    mNvmePassThru := true
    mIsSupported := true }

theorem oneBlock_usable : Usable oneBlock where
  isSupported := rfl
  located := rfl
  alignment_pos := by decide
  blockSize := ⟨32, by decide⟩
  blockCount_pos := by decide
  bounded := by decide
  spacious := by decide

theorem oneBlock_applied :
    ((applyWimToSreStorage ⟨oneBlock, 0⟩ srePartitionB [1, 2, 3] 7 false).run
      (controllerEnv 32 1) []).2 =
      some (.success, ⟨{ oneBlock with mPartitionIndex := srePartitionB }, 0⟩) := by
  decide

theorem apply_writes_stamped_image_one_block :
    (∃! i, i < 1 ∧ i * 131072 ≤ sreImageInfoOffset ∧
      sreImageInfoOffset + sizeofSreImageInfo ≤ (i + 1) * 131072) ∧
    ¬sreImageInfoOffset % 131072 + sizeofSreImageInfo > 131072 ∧
    let blocks := writtenBlocks (commandsOf
      ((applyWimToSreStorage ⟨oneBlock, 0⟩ srePartitionB [1, 2, 3] 7 false).run
        (controllerEnv 32 1) []).1)
    blocks.length = 1 ∧ blocks.flatten = stampedImage (1 * 131072) [1, 2, 3] 7 := by
  obtain ⟨hblock, hspan, hwritten⟩ := apply_writes_stamped_image oneBlock_usable
  exact ⟨hblock, hspan, hwritten _ _ _ _ _ _ _ rfl rfl (by decide) (by decide) oneBlock_applied⟩

end Apply

end SreFmpImage
