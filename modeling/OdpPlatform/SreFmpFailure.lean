import OdpPlatform.SreFmpSetImage

/-! # What FmpDeviceSetImageWithStatus leaves behind when something fails

The status and the recorded attempt agree, no session stays open, every partition that was
opened is committed or set to Write Locked again, and no partition holds half an image. -/
namespace SreFmpFailure

open ByteBuffer InteractionProgram InteractionContract FirmwareServices SreStorageNvme
open SreStorageGeometry SreStorageSession SreFmpDevice SreFmpImage BootPartitionDevice
open SreFmpSetImage

/-- The BPxWPS field of a boot partition; a zero field requests no change. -/
def lockField (p : PartitionIndex) (c : NvmeCommand) : UInt32 :=
  (if p = srePartitionA then c.cdw11 else c.cdw11 >>> 3) &&& 0x7

def IsPartition (p : PartitionIndex) : Prop := p = srePartitionA ∨ p = srePartitionB

def SetsLock (p : PartitionIndex) (l : NvmeLockState) (c : NvmeCommand) : Prop :=
  c.opcode = nvmeAdminSetFeaturesCmd ∧ c.cdw10 = sreNvmeFidBpWriteProtectionCfg ∧
    lockField p c = l.value ∧ ∀ q, IsPartition q → q ≠ p → lockField q c = 0

def Opens (p : PartitionIndex) (c : Command) : Prop :=
  SetsLock p .writeUnlocked c.1.command ∧ c.2.Accepted

def Commits (p : PartitionIndex) (c : Command) : Prop :=
  c.1.command.opcode = nvmeAdminFwCommitCmd ∧ commitBpid c.1.command = p ∧ c.2.Accepted

/-- Write Locked is requested for `p`, and no download or commit is attempted after it. -/
def Relocked (p : PartitionIndex) (cs : List Command) : Prop :=
  ∃ before lock after, cs = before ++ lock :: after ∧ SetsLock p .writeLocked lock.1.command ∧
    ∀ c ∈ after, ¬IsWrite c

def OpensNone (cs : List Command) : Prop := ∀ c ∈ cs, ∀ q, IsPartition q → ¬Opens q c

/-- The session that the first of these commands belongs to ends with the list or at the next
Open; by then `p` has been committed or re-locked. -/
def Settled (p : PartitionIndex) (cs : List Command) : Prop :=
  ∃ session later, cs = session ++ later ∧ OpensNone session ∧
    (∀ c, later.head? = some c → ∃ q, Opens q c) ∧
    ((∃ c ∈ session, Commits p c) ∨ Relocked p session)

theorem lockField_lockPacket {p q : PartitionIndex} (hp : IsPartition p) (hq : IsPartition q)
    (l : NvmeLockState) :
    lockField q (lockPacket p l).command = if q = p then l.value else 0 := by
  rcases hp with rfl | rfl <;> rcases hq with rfl | rfl <;> cases l <;> decide

theorem lockPacket_sets {p : PartitionIndex} (hp : IsPartition p) (l : NvmeLockState) :
    SetsLock p l (lockPacket p l).command := by
  refine ⟨rfl, rfl, ?_, fun q hq hne => ?_⟩
  · rw [lockField_lockPacket hp hp, if_pos rfl]
  · rw [lockField_lockPacket hp hq, if_neg hne]

theorem lockPacket_opens {p q : PartitionIndex} (hp : IsPartition p) (hq : IsPartition q)
    {l : NvmeLockState} {r : Completion} (ho : Opens q (lockPacket p l, r)) :
    q = p ∧ l = .writeUnlocked ∧ r.Accepted := by
  obtain ⟨⟨_, _, hfield, _⟩, hr⟩ := ho
  have hvalue : (if q = p then l.value else 0) = NvmeLockState.writeUnlocked.value :=
    (lockField_lockPacket hp hq l).symm.trans hfield
  split at hvalue
  next hqp =>
    refine ⟨hqp, ?_, hr⟩
    cases l <;> first | rfl | exact absurd hvalue (by decide)
  next => exact absurd hvalue (by decide)

theorem isWrite_not_opens {c : Command} (hc : IsWrite c) (q : PartitionIndex) : ¬Opens q c := by
  rintro ⟨⟨hop, _⟩, _⟩
  rcases hc with hc | hc <;> rw [hop] at hc <;> exact absurd hc (by decide)

theorem lockPacket_not_write (p : PartitionIndex) (l : NvmeLockState) (r : Completion) :
    ¬IsWrite (lockPacket p l, r) := by
  rintro (h | h)
  · exact absurd h (by decide : ¬nvmeAdminSetFeaturesCmd = nvmeAdminFwImageDownloadCmd)
  · exact absurd h (by decide : ¬nvmeAdminSetFeaturesCmd = nvmeAdminFwCommitCmd)

section Apply

variable {s : SreStorage} {image : Bytes} {v : UInt32} {p : PartitionIndex} {st : Status}

theorem downloaded_writes {content : Bytes} {n : ℕ} {cs : List Command}
    (hd : Downloaded s content n cs) : ∀ c ∈ cs, IsWrite c := by
  intro c hc
  have hmem : c.1 ∈ cs.map Prod.fst := List.mem_map_of_mem hc
  rw [hd.1] at hmem
  obtain ⟨i, _, hi⟩ := List.mem_map.mp hmem
  left
  rw [← hi]
  rfl

def OneSession (p : PartitionIndex) (cs : List Command) : Prop :=
  (OpensNone cs ∧ ∀ c ∈ cs, ¬IsWrite c) ∨
    ∃ o rest, cs = o :: rest ∧ Opens p o ∧ OpensNone rest ∧
      ((∃ c ∈ rest, Commits p c) ∨ Relocked p rest)

theorem applied_session (hp : IsPartition p) {cs : List Command}
    (ha : Applied s p image v cs st) : OneSession p cs := by
  cases ha with
  | unopened _ hcs =>
    refine Or.inl ⟨fun c hc q hq ho => (hcs c hc).2 ho.2, fun c hc hw => ?_⟩
    obtain ⟨pkt, r⟩ := c
    obtain ⟨rfl, _⟩ := hcs _ hc
    exact lockPacket_not_write p _ r hw
  | @abandoned r cs fails j r' _ _ hr _ hdown hrej =>
    refine Or.inr ⟨_, _, rfl, ⟨lockPacket_sets hp _, hr⟩, ?_, Or.inr ?_⟩
    · intro c hc q hq ho
      rcases List.mem_append.mp hc with hc | hc
      · rcases List.mem_append.mp hc with hc | hc
        · exact isWrite_not_opens (downloaded_writes hdown c hc) q ho
        · exact isWrite_not_opens (hrej c hc).1 q ho
      · cases List.mem_singleton.mp hc
        cases (lockPacket_opens hp hq ho).2.1
    · exact ⟨cs ++ fails, _, [], rfl, lockPacket_sets hp _, nofun⟩
  | @committed r cs r' hr hdown hr' =>
    refine Or.inr ⟨_, _, rfl, ⟨lockPacket_sets hp _, hr⟩, ?_, Or.inl ?_⟩
    · intro c hc q hq ho
      rcases List.mem_append.mp hc with hc | hc
      · exact isWrite_not_opens (downloaded_writes hdown c hc) q ho
      · cases List.mem_singleton.mp hc
        exact isWrite_not_opens (Or.inr rfl) q ho
    · have hle : p ≤ srePartitionB := by rcases hp with rfl | rfl <;> decide
      exact ⟨_, List.mem_append_right _ List.mem_cons_self, rfl,
        commitPacket_bpid hle, hr'⟩

end Apply

theorem opens_unique {p q : PartitionIndex} (hq : IsPartition q) {c : Command}
    (h : Opens p c) (h' : Opens q c) : q = p := by
  by_contra hne
  have hzero := h.1.2.2.2 q hq hne
  rw [h'.1.2.2.1] at hzero
  exact absurd hzero (by decide)

theorem OneSession.open {p q : PartitionIndex} (hq : IsPartition q)
    {cs pre post : List Command} {o : Command} (hs : OneSession p cs) (hcs : cs = pre ++ o :: post)
    (ho : Opens q o) : pre = [] ∧ q = p ∧ OpensNone post ∧
      ((∃ c ∈ post, Commits p c) ∨ Relocked p post) := by
  rcases hs with ⟨hnone, _⟩ | ⟨o', rest, hrest, ho', hnone, hend⟩
  · exact absurd ho (hnone o (hcs ▸ List.mem_append_right _ List.mem_cons_self) q hq)
  rw [hcs] at hrest
  cases pre with
  | nil =>
    cases hrest
    exact ⟨rfl, opens_unique hq ho' ho, hnone, hend⟩
  | cons x pre =>
    obtain ⟨_, hrest⟩ := List.cons.inj hrest
    exact absurd ho
      (hnone o (hrest ▸ List.mem_append_right _ List.mem_cons_self) q hq)

/-- What follows a session without an Open of its own belongs to it, if it writes nothing. -/
theorem Relocked.append {p : PartitionIndex} {cs cs' : List Command} (hr : Relocked p cs)
    (hcs' : ∀ c ∈ cs', ¬IsWrite c) : Relocked p (cs ++ cs') := by
  obtain ⟨before, lock, after, rfl, hlock, hafter⟩ := hr
  refine ⟨before, lock, after ++ cs', by simp, hlock, fun c hc => ?_⟩
  rcases List.mem_append.mp hc with hc | hc
  · exact hafter c hc
  · exact hcs' c hc

theorem two_sessions_settled {csA csB : List Command} (hA : OneSession srePartitionA csA)
    (hB : OneSession srePartitionB csB) {q : PartitionIndex} (hq : IsPartition q)
    {pre post : List Command} {o : Command} (hcs : csA ++ csB = pre ++ o :: post)
    (ho : Opens q o) : Settled q post := by
  rcases List.append_eq_append_iff.mp hcs with ⟨mid, rfl, hmid⟩ | ⟨mid, hmid, hpost⟩
  · -- the Open is one of the second apply
    obtain ⟨_, rfl, hnone, hend⟩ := hB.open hq hmid ho
    exact ⟨post, [], by simp, hnone, nofun, hend⟩
  · cases mid with
    | nil =>
      obtain ⟨_, rfl, hnone, hend⟩ := hB.open hq
        (show csB = [] ++ o :: post from hpost.symm) ho
      exact ⟨post, [], by simp, hnone, nofun, hend⟩
    | cons x mid =>
      obtain ⟨rfl, rfl⟩ := List.cons.inj hpost
      obtain ⟨_, rfl, hnone, hend⟩ := hA.open hq hmid ho
      rcases hB with ⟨hnoneB, hquiet⟩ | ⟨oB, restB, rfl, hoB, _⟩
      · refine ⟨mid ++ csB, [], by simp, fun c hc => ?_, nofun, ?_⟩
        · rcases List.mem_append.mp hc with hc | hc
          · exact hnone c hc
          · exact hnoneB c hc
        · rcases hend with ⟨c, hc, hcommit⟩ | hrelock
          · exact Or.inl ⟨c, List.mem_append_left _ hc, hcommit⟩
          · exact Or.inr (hrelock.append hquiet)
      · refine ⟨mid, oB :: restB, rfl, hnone, fun c hc => ?_, hend⟩
        cases hc
        exact ⟨_, hoB⟩

/-- What an apply may call; SetVariable is not among it. -/
def ApplyCall : Call → Prop
  | .passThru _ | .allocateAlignedPages _ _ | .freeAlignedPages _ _ | .progress _ => True
  | _ => False

def DeviceCall : Call → Prop
  | .passThru _ => True
  | _ => False

theorem DeviceCall.applyCall {c : Call} (h : DeviceCall c) : ApplyCall c := by
  cases c with
  | passThru => trivial
  | _ => exact False.elim h

theorem only_executeNvmePassThru (s : SreStorage) (p : Packet) :
    Only DeviceCall (executeNvmePassThru s p) := by
  unfold executeNvmePassThru
  split
  · trivial
  · refine Only.bind ((only_call _).mpr trivial) fun c => ?_
    split
    · trivial
    · split <;> trivial

theorem only_nvmeSetLockState (s : SreStorage) (p : PartitionIndex) (l : NvmeLockState) :
    Only DeviceCall (nvmeSetLockState s p l) := by
  unfold nvmeSetLockState
  split
  · trivial
  · exact (only_executeNvmePassThru _ _).bind fun _ => trivial

theorem only_writeOpen (s : SreStorage) (p : PartitionIndex) :
    Only DeviceCall (sreStorageWriteOpen s p) := by
  unfold sreStorageWriteOpen
  split
  · trivial
  split
  · trivial
  split
  · trivial
  · exact (only_nvmeSetLockState _ _ _).bind fun _ => by split <;> trivial

theorem only_writeBlock (s : SreStorage) (b : Option Buffer) :
    Only DeviceCall (sreStorageWriteBlock s b) := by
  unfold sreStorageWriteBlock
  split
  · trivial
  split
  · trivial
  split
  · trivial
  split
  · trivial
  split
  · trivial
  · exact (only_executeNvmePassThru _ _).bind fun r => by dsimp only; split <;> trivial

theorem only_writeClose (s : SreStorage) : Only DeviceCall (sreStorageWriteClose s) := by
  unfold sreStorageWriteClose
  split
  · trivial
  split
  · trivial
  split
  · trivial
  · exact (only_executeNvmePassThru _ _).bind fun r => by dsimp only; split <;> trivial

theorem only_writeAbort (s : SreStorage) : Only DeviceCall (sreStorageWriteAbort s) := by
  unfold sreStorageWriteAbort
  split
  · trivial
  split
  · trivial
  · exact (only_nvmeSetLockState _ _ _).bind fun _ => trivial

theorem only_sreProgress (d : SreFmp) (p : PartitionIndex) (i n : ℕ) (b : Bool) :
    Only ApplyCall (sreProgress d p i n b) := by
  unfold sreProgress
  split
  · dsimp only
    split
    · exact ⟨trivial, fun _ => trivial⟩
    · trivial
  · trivial

theorem only_applyBlocks (a : ApplyParams) (is : List ℕ) :
    ∀ st, Only ApplyCall (applyBlocks a is st) := by
  induction is with
  | nil => intro st; trivial
  | cons i is ih =>
    intro st
    have hblock : Only ApplyCall (applyBlock a st i) :=
      (only_sreProgress _ _ _ _ _).bind fun dev => by
        dsimp only
        split
        · trivial
        · exact ((only_writeBlock _ _).mono fun _ => DeviceCall.applyCall).bind fun _ => trivial
    refine hblock.bind fun r => ?_
    dsimp only
    split
    · trivial
    · exact ih _

theorem only_closeImage (d : SreFmp) : Only ApplyCall (do
    let (status, storage) ← sreStorageWriteClose d.storage
    pure (status, { d with storage })) :=
  ((only_writeClose _).mono fun _ => DeviceCall.applyCall).bind fun _ => trivial

theorem only_writeImage (a : ApplyParams) (st : ApplyState) :
    Only ApplyCall (writeImage a st) := by
  refine (only_applyBlocks a _ st).bind fun r => ?_
  dsimp only
  split
  · trivial
  · split
    · exact ⟨trivial, fun _ => only_closeImage _⟩
    · exact only_closeImage _

theorem only_applyWimToSreStorage (d : SreFmp) (p : PartitionIndex) (image : Bytes) (v : UInt32)
    (b : Bool) : Only ApplyCall (applyWimToSreStorage d p image v b) := by
  unfold applyWimToSreStorage
  split
  · trivial
  refine Only.bind ((only_call _).mpr trivial) fun chunk => ?_
  split
  · trivial
  refine ((only_writeOpen _ _).mono fun _ => DeviceCall.applyCall).bind fun r => ?_
  dsimp only
  split
  · exact ⟨trivial, fun _ => trivial⟩
  refine (only_writeImage _ _).bind fun r => ?_
  split
  · exact ((only_writeAbort _).mono fun _ => DeviceCall.applyCall).bind fun _ =>
      ⟨trivial, fun _ => trivial⟩
  · exact ⟨trivial, fun _ => trivial⟩

def isSetVariable : Call → Bool
  | .gRTSetVariable _ _ => true
  | _ => false

def recorded (h : FirmwareTrace) : List Call := (h.map Event.call).filter isSetVariable

def record (v las : UInt32) : Call := .gRTSetVariable .lastAttemptStatus (lasVariableData las v)

theorem only_recorded {α : Type} {p : Firmware α} (hp : Only ApplyCall p) (env : FirmwareEnv)
    (h : FirmwareTrace) : recorded (p.run env h).1 = recorded h := by
  obtain ⟨τ, hτ, hall⟩ := hp.run env h
  have hnone : (τ.map Event.call).filter isSetVariable = [] := by
    rw [List.filter_eq_nil_iff]
    intro c hc
    obtain ⟨e, he, rfl⟩ := List.mem_map.mp hc
    have hcall := hall e he
    cases hec : e.call <;> rw [hec] at hcall <;> simp [isSetVariable]
    exact hcall
  rw [hτ, recorded, List.map_append, List.filter_append, hnone, List.append_nil]
  rfl

def Proceeds {α : Type} (status : α → Status) : Firmware α → Prop
  | .done a => status a ≠ efiAborted
  | _ => True

theorem Proceeds.not_aborted {α : Type} {status : α → Status} {p : Firmware α}
    (hp : Proceeds status p) {env : FirmwareEnv} {h : FirmwareTrace} {a : α}
    (hrun : p.run env h = (h, some a)) : status a ≠ efiAborted := by
  cases p with
  | done b =>
    cases hrun
    exact hp
  | ask c k =>
    obtain ⟨r, _, hrest⟩ := Program.run_ask_returns env h hrun
    have hprefix := Program.run_prefix env (h ++ [⟨c, some r⟩]) (k r)
    rw [hrest] at hprefix
    have hlen : (h ++ [(⟨c, some r⟩ : Event Answer)]).length ≤ h.length := hprefix.length_le
    rw [List.length_append, List.length_singleton] at hlen
    omega
  | hang => cases hrun

theorem proceeds_executeNvmePassThru {α : Type} {status : α → Status} (s : SreStorage) (p : Packet)
    {f : Status × Bytes → Firmware α} (hf : Proceeds status (f (efiNotReady, p.buffer))) :
    Proceeds status (executeNvmePassThru s p >>= f) := by
  unfold executeNvmePassThru
  split
  · exact hf
  · trivial

section Followup

variable {s : SreStorage} (hclosed : s.mIsWriteOpen = false)
include hclosed

theorem proceeds_read (p : PartitionIndex) (i : ℕ) (b : Option Buffer) :
    Proceeds Prod.fst (sreStorageRead s p i b) := by
  unfold sreStorageRead
  split
  · simp [Proceeds]
  split
  · simp [Proceeds]
  split
  · simp [Proceeds]
  split
  · simp [Proceeds]
  split
  next ho => rw [hclosed] at ho; cases ho
  split
  · simp [Proceeds]
  · rw [← bind_pure (executeNvmePassThru s _)]
    exact proceeds_executeNvmePassThru s _ (by simp [Proceeds])

theorem proceeds_writeOpen (p : PartitionIndex) :
    Proceeds Prod.fst (sreStorageWriteOpen s p) := by
  unfold sreStorageWriteOpen
  split
  · simp [Proceeds]
  split
  · simp [Proceeds]
  split
  next ho => rw [hclosed] at ho; cases ho
  next hp _ _ =>
    simp only [nvmeSetLockState, if_neg hp, bind_assoc]
    exact proceeds_executeNvmePassThru s _ (by simp [Proceeds, Status.isError])

theorem proceeds_fmpDeviceLock : Proceeds id (fmpDeviceLock s) := by
  have hA : ¬srePartitionA > srePartitionB := by decide
  have hB : ¬srePartitionB > srePartitionB := by decide
  cases hsup : s.mIsSupported with
  | false =>
    simp [fmpDeviceLock, sreStorageLock, hA, hB, hsup, Proceeds, Status.isError]
  | true =>
    simp only [fmpDeviceLock, sreStorageLock, hA, hsup, hclosed, nvmeSetLockState, if_false,
      Bool.true_eq_false, Bool.false_eq_true, bind_assoc]
    cases hloc : s.mNvmePassThru with
    | false =>
      simp [executeNvmePassThru, hloc, hB, Proceeds, Status.isError]
    | true =>
      rw [executeNvmePassThru_eq hloc]
      trivial

end Followup

/-- The whole stamped image; a tail is left over where blocks do not fill the partition. -/
def HoldsImage (s : SreStorage) (image : Bytes) (v : UInt32) (size : ℕ) (content : Bytes) : Prop :=
  ∃ tail, content = stampedImage (s.mBlockCount * s.mBlockSize) image v ++ tail ∧
    s.mBlockCount * s.mBlockSize + tail.length = size

theorem outcome_content {s : SreStorage} {p : PartitionIndex} {image : Bytes} {v : UInt32}
    {D D' : Device} {st : Status} (hs : Usable s)
    (himage : image.length ≤ s.mBlockCount * s.mBlockSize)
    (hsize : s.mBlockCount * s.mBlockSize ≤ D.staging.length)
    (ho : Outcome s p image v D st D') :
    D'.staging.length = D.staging.length ∧ ∀ q, D'.content q = D.content q ∨
      HoldsImage s image v D.staging.length (D'.content q) := by
  have hlen := length_stampedImage (v := v) (descriptor_in hs) himage
  cases ho with
  | @failed n he =>
    refine ⟨length_splice ?_, fun q => Or.inl rfl⟩
    rw [List.length_take, hlen]
    omega
  | committed =>
    refine ⟨length_splice (by rw [hlen]; omega), fun q => ?_⟩
    by_cases hq : q = p
    · refine Or.inr ⟨D.staging.drop (s.mBlockCount * s.mBlockSize), ?_, ?_⟩
      · simp [hq, staged, splice, hlen]
      · rw [List.length_drop]
        omega
    · exact Or.inl (Function.update_of_ne hq _ _)

structure FailureSafe (env : FirmwareEnv) (d : SreFmp) (image : Option Bytes) (progress : Bool)
    (v : UInt32) (outputsNonNull : Bool) (h : FirmwareTrace) (res : SetImageResult) : Prop where
  success_iff : res.status = .success ↔ Passes d.storage image outputsNonNull ∧
    ∃ bytes h' statusA statusB d', image = some bytes ∧
      BothApplied env d bytes v progress [] h' statusA statusB d' ∧
      statusA.isError = false ∧ statusB.isError = false
  attempt_iff : ∀ las, res.lastAttemptStatus = some las →
    (las = lastAttemptStatusSuccess ↔ res.status = .success)
  attempt_recorded : recorded h =
    if d.storage.mIsSupported then res.lastAttemptStatus.toList.map (record v) else []
  closed : res.dev.storage.mIsWriteOpen = false
  read_proceeds : ∀ env' h' p i b st out,
    (sreStorageRead res.dev.storage p i b).run env' h' = (h', some (st, out)) → st ≠ efiAborted
  writeOpen_proceeds : ∀ env' h' p st s',
    (sreStorageWriteOpen res.dev.storage p).run env' h' = (h', some (st, s')) → st ≠ efiAborted
  lock_proceeds : ∀ env' h' st,
    (fmpDeviceLock res.dev.storage).run env' h' = (h', some st) → st ≠ efiAborted
  settled : ∀ pre o post p, commandsOf h = pre ++ o :: post → IsPartition p → Opens p o →
    Settled p post
  whole_image : ∀ D : Device, d.storage.mBlockCount * d.storage.mBlockSize ≤ D.staging.length →
    ∀ p, (D.after (commandsOf h)).content p = D.content p ∨ ∃ bytes, image = some bytes ∧
      HoldsImage d.storage bytes v D.staging.length ((D.after (commandsOf h)).content p)

section Returns

variable {env : FirmwareEnv} {d : SreFmp} {image : Option Bytes} {progress : Bool} {v : UInt32}
variable {outputsNonNull : Bool} {h : FirmwareTrace} {res : SetImageResult}

/-- A return without an apply: no command was issued. -/
theorem untouched_safe (hclosed : d.storage.mIsWriteOpen = false) (hdev : res.dev = d)
    (hnp : ¬Passes d.storage image outputsNonNull) (hcmd : commandsOf h = [])
    (hstatus : res.status ≠ .success)
    (hlas : res.lastAttemptStatus ≠ some lastAttemptStatusSuccess)
    (hrec : recorded h =
      if d.storage.mIsSupported then res.lastAttemptStatus.toList.map (record v) else []) :
    FailureSafe env d image progress v outputsNonNull h res where
  success_iff := ⟨fun hs => absurd hs hstatus, fun hs => absurd hs.1 hnp⟩
  attempt_iff las hl :=
    ⟨fun hs => absurd (hs ▸ hl) hlas, fun hs => absurd hs hstatus⟩
  attempt_recorded := hrec
  closed := hdev ▸ hclosed
  read_proceeds _ _ p i b _ _ hrun :=
    (proceeds_read (hdev ▸ hclosed) p i b).not_aborted hrun
  writeOpen_proceeds _ _ p _ _ hrun :=
    (proceeds_writeOpen (hdev ▸ hclosed) p).not_aborted hrun
  lock_proceeds _ _ _ hrun := (proceeds_fmpDeviceLock (hdev ▸ hclosed)).not_aborted hrun
  settled pre o post p hsplit := by rw [hcmd] at hsplit; simp at hsplit
  whole_image D _ p := by rw [hcmd]; exact Or.inl rfl

theorem bothApplied_recorded {bytes : Bytes} {h' : FirmwareTrace} {statusA statusB : Status}
    {d' : SreFmp} (hboth : BothApplied env d bytes v progress h h' statusA statusB d') :
    recorded h' = recorded h := by
  obtain ⟨hA, dA, hrunA, hrunB⟩ := hboth
  have hrecA := only_recorded (only_applyWimToSreStorage d srePartitionA bytes v progress) env h
  have hrecB := only_recorded (only_applyWimToSreStorage dA srePartitionB bytes v progress) env hA
  rw [hrunA] at hrecA
  rw [hrunB] at hrecB
  exact hrecB.trans hrecA

theorem bothApplied_unique {bytes : Bytes} {h₁ h₂ : FirmwareTrace}
    {statusA statusB statusA' statusB' : Status} {d₁ d₂ : SreFmp}
    (hboth : BothApplied env d bytes v progress h h₁ statusA statusB d₁)
    (hboth' : BothApplied env d bytes v progress h h₂ statusA' statusB' d₂) :
    statusA = statusA' ∧ statusB = statusB' := by
  obtain ⟨hA, dA, hrunA, hrunB⟩ := hboth
  obtain ⟨hA', dA', hrunA', hrunB'⟩ := hboth'
  rw [hrunA] at hrunA'
  cases hrunA'
  rw [hrunB] at hrunB'
  cases hrunB'
  exact ⟨rfl, rfl⟩

theorem both_content {s : SreStorage} {bytes : Bytes} {csA csB : List Command}
    {statusA statusB : Status} (hs : Usable s)
    (himage : bytes.length ≤ s.mBlockCount * s.mBlockSize)
    (happA : Applied s srePartitionA bytes v csA statusA)
    (happB : Applied s srePartitionB bytes v csB statusB) (D : Device)
    (hsize : s.mBlockCount * s.mBlockSize ≤ D.staging.length) (p : PartitionIndex) :
    (D.after (csA ++ csB)).content p = D.content p ∨
      HoldsImage s bytes v D.staging.length ((D.after (csA ++ csB)).content p) := by
  obtain ⟨hlenA, hcontentA⟩ :=
    outcome_content hs himage hsize (applied_outcome hs (by decide) himage happA D)
  obtain ⟨_, hcontentB⟩ := outcome_content hs himage (hlenA ▸ hsize)
    (applied_outcome hs (by decide) himage happB (D.after csA))
  rw [after_append]
  rcases hcontentB p with hsame | himg
  · rw [hsame]
    exact hcontentA p
  · exact Or.inr (hlenA ▸ himg)

/-- Whatever the image, the version and the device: what a failed update leaves behind. -/
theorem set_image_failure_safe (hs : d.storage.mIsSupported = true → Usable d.storage)
    (hclosed : d.storage.mIsWriteOpen = false)
    (hrun : ((fmpDeviceSetImageWithStatus d image progress v outputsNonNull).run env []).2 =
      some res) :
    FailureSafe env d image progress v outputsNonNull
      ((fmpDeviceSetImageWithStatus d image progress v outputsNonNull).run env []).1 res := by
  generalize hh : ((fmpDeviceSetImageWithStatus d image progress v outputsNonNull).run env []).1 = h
  cases setImage_returned (Prod.ext hh hrun) with
  | invalid hnp =>
    exact untouched_safe hclosed rfl hnp rfl nofun nofun (by simp [recorded])
  | unchecked hnp hsup =>
    exact untouched_safe hclosed rfl hnp rfl nofun (by simp; decide) (by simp [recorded, hsup])
  | unfit hnp hsup =>
    exact untouched_safe hclosed rfl hnp rfl nofun (by simp; decide)
      (by simp [recorded, hsup, isSetVariable, record])
  | @applied bytes statusA statusB h' d' r hp himage hboth =>
    obtain ⟨_, himage', _, _, hsup, hfit⟩ := passes_iff.mp hp
    subst himage
    cases himage'
    have husable := hs hsup
    obtain ⟨⟨csA, csB, hcs, happA, happB⟩, hlike⟩ :=
      bothApplied_commands husable hclosed hfit hboth
    have hcs : commandsOf (h' ++ [⟨.gRTSetVariable .lastAttemptStatus
        (lasVariableData (lasOf statusA statusB) v), some r⟩]) = csA ++ csB := by
      rw [commandsOf_quiet rfl, hcs]
      rfl
    have hstatus : (if lasOf statusA statusB = lastAttemptStatusSuccess then Status.success
        else efiAborted) = .success ↔ lasOf statusA statusB = lastAttemptStatusSuccess := by
      split
      next hl => simp [hl]
      next hl => simp [hl]
    exact
      { success_iff := by
          rw [hstatus, lasOf_success]
          constructor
          · rintro ⟨hokA, hokB⟩
            exact ⟨hp, bytes, h', statusA, statusB, d', rfl, hboth, hokA, hokB⟩
          · rintro ⟨_, bytes', h₂, statusA', statusB', d₂, hbytes, hboth', hokA, hokB⟩
            cases hbytes
            obtain ⟨rfl, rfl⟩ := bothApplied_unique hboth hboth'
            exact ⟨hokA, hokB⟩
        attempt_iff := fun las hlas => by
          cases hlas
          exact hstatus.symm
        attempt_recorded := by
          have hrec := bothApplied_recorded hboth
          simp only [recorded, List.map_append, List.filter_append, List.map_nil,
            List.filter_nil] at hrec ⊢
          rw [hrec, hsup]
          rfl
        closed := hlike.closed
        read_proceeds := fun _ _ p i b _ _ hrun => (proceeds_read hlike.closed p i b).not_aborted hrun
        writeOpen_proceeds := fun _ _ p _ _ hrun =>
          (proceeds_writeOpen hlike.closed p).not_aborted hrun
        lock_proceeds := fun _ _ _ hrun => (proceeds_fmpDeviceLock hlike.closed).not_aborted hrun
        settled := fun pre o post p hsplit hpart ho =>
          two_sessions_settled (applied_session (Or.inl rfl) happA)
            (applied_session (Or.inr rfl) happB) hpart (hcs ▸ hsplit) ho
        whole_image := fun D hsize p => by
          rw [hcs]
          rcases both_content husable hfit happA happB D hsize p with hsame | himg
          · exact Or.inl hsame
          · exact Or.inr ⟨bytes, rfl, himg⟩ }

/-- The commit of partition A is rejected, that of B accepted: the failure sticks. -/
theorem updateEnv_rejectsA :
    ((fmpDeviceSetImageWithStatus ⟨oneBlock, 0⟩ (some [1, 2, 3]) true 7 true).run
      (updateEnv (isCommitOf srePartitionA)) []).2 =
      some ⟨efiAborted, some lastAttemptStatusErrorUnsuccessful,
        ⟨{ oneBlock with mPartitionIndex := srePartitionB }, 50⟩⟩ := by
  decide

theorem set_image_failure_safe_rejectsA :
    FailureSafe (updateEnv (isCommitOf srePartitionA)) ⟨oneBlock, 0⟩ (some [1, 2, 3]) true 7 true
      ((fmpDeviceSetImageWithStatus ⟨oneBlock, 0⟩ (some [1, 2, 3]) true 7 true).run
        (updateEnv (isCommitOf srePartitionA)) []).1
      ⟨efiAborted, some lastAttemptStatusErrorUnsuccessful,
        ⟨{ oneBlock with mPartitionIndex := srePartitionB }, 50⟩⟩ :=
  set_image_failure_safe (fun _ => oneBlock_usable) rfl updateEnv_rejectsA

end Returns

end SreFmpFailure
