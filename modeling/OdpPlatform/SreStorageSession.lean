import OdpPlatform.SreStorageGeometry

/-! # Write sessions of the storage library

Any sequence of API calls against any device. Each call issues at most one command, and the log
keeps for each call the globals it found, its command with the completion, and what it left. -/
namespace SreStorageSession

open ByteBuffer InteractionProgram InteractionContract FirmwareServices SreStorageNvme
open SreStorageGeometry

inductive ApiCall where
  | writeOpen (partitionIndex : PartitionIndex)
  | writeBlock (blockBuffer : Option Buffer)
  | writeClose
  | writeAbort
  | read (partitionIndex : PartitionIndex) (blockIndex : ℕ) (blockBuffer : Option Buffer)
  | lock (partitionIndex : PartitionIndex)
  deriving DecidableEq, Repr

def ApiCall.program (s : SreStorage) : ApiCall → Firmware (Status × SreStorage)
  | .writeOpen p => sreStorageWriteOpen s p
  | .writeBlock b => sreStorageWriteBlock s b
  | .writeClose => sreStorageWriteClose s
  | .writeAbort => sreStorageWriteAbort s
  | .read p i b => do
    let (status, _) ← sreStorageRead s p i b
    pure (status, s)
  | .lock p => do
    let status ← sreStorageLock s p
    pure (status, s)

def lockPacket (partitionIndex : PartitionIndex) (lockState : NvmeLockState) : Packet :=
  { commandTimeout := seconds 2
    command :=
      { opcode := nvmeAdminSetFeaturesCmd
        cdw10 := sreNvmeFidBpWriteProtectionCfg
        cdw11 := (lockState.value &&& sreBpwpsFieldMask) <<<
          (if partitionIndex = srePartitionA then sreBpwpsBp0Shift else sreBpwpsBp1Shift)
        flags := cdw10Valid ||| cdw11Valid } }

def readPacket (s : SreStorage) (partitionIndex : PartitionIndex) (blockIndex : ℕ)
    (blockBuffer : Bytes) : Packet :=
  { commandTimeout := seconds 10
    command := getLogPageCommand s partitionIndex blockIndex
    buffer := blockBuffer
    transferLength := s.mBlockSize }

inductive Issues (s : SreStorage) : ApiCall → Packet → Prop where
  | writeOpen {p} : p ≤ srePartitionB → s.mIsWriteOpen = false →
      Issues s (.writeOpen p) (lockPacket p .writeUnlocked)
  | writeBlock {b} : s.mIsWriteOpen = true → s.mBlockIndex < s.mBlockCount →
      Issues s (.writeBlock (some b)) (downloadPacket s b.bytes)
  | writeClose : s.mIsWriteOpen = true → s.mBlockIndex = s.mBlockCount →
      Issues s .writeClose (commitPacket s)
  | writeAbort : s.mIsWriteOpen = true →
      Issues s .writeAbort (lockPacket s.mPartitionIndex .writeLocked)
  | read {p i b} : p ≤ srePartitionB → s.mIsWriteOpen = false → i < s.mBlockCount →
      Issues s (.read p i (some b)) (readPacket s p i b.bytes)
  | lock {p} : p ≤ srePartitionB → s.mIsWriteOpen = false →
      Issues s (.lock p) (lockPacket p .writeLockedUntilPowerCycle)

def advance (s : SreStorage) : ApiCall → SreStorage
  | .writeOpen p => { s with mPartitionIndex := p, mBlockIndex := 0, mIsWriteOpen := true }
  | .writeBlock _ => { s with mBlockIndex := s.mBlockIndex + 1 }
  | .writeClose => { s with mIsWriteOpen := false, mBlockIndex := 0 }
  | .writeAbort => { s with mIsWriteOpen := false, mBlockIndex := 0 }
  | .read _ _ _ => s
  | .lock _ => s

/-- The result of a call whose command completed; Abort ends the session in any case. -/
def conclude (s : SreStorage) (c : ApiCall) (r : Completion) : Status × SreStorage :=
  (completionStatus r, if c = .writeAbort ∨ r.Accepted then advance s c else s)

/-- Every API call refuses on its own checks or issues one command and returns. -/
inductive Shape (s : SreStorage) (c : ApiCall) : Firmware (Status × SreStorage) → Prop where
  | refuses {st} : st.isError = true → Shape s c (.done (st, s))
  | issues {p} : Issues s c p → Shape s c (.ask (.passThru p) fun r => .done (conclude s c r))

inductive Performed (s : SreStorage) (c : ApiCall) :
    FirmwareTrace → Option (Status × SreStorage) → Prop where
  | refused {st} : st.isError = true → Performed s c [] (some (st, s))
  | completed {p r} : Issues s c p →
      Performed s c [⟨.passThru p, some r⟩] (some (conclude s c r))
  | lost {p} : Issues s c p → Performed s c [⟨.passThru p, none⟩] none

section Calls

variable {s : SreStorage}

theorem completionStatus_accepted {r : Completion} (ha : r.Accepted) :
    completionStatus r = .success := completionStatus_eq_success.mpr ha

theorem completionStatus_rejected {r : Completion} (ha : ¬r.Accepted) :
    (completionStatus r).isError = true := by
  rw [← completionStatus_isError] at ha
  simpa using ha

theorem conclude_accepted {c : ApiCall} {r : Completion} (ha : r.Accepted) :
    conclude s c r = (.success, advance s c) := by
  simp [conclude, completionStatus_accepted ha, ha]

theorem conclude_rejected {c : ApiCall} {r : Completion} (hc : c ≠ .writeAbort)
    (ha : ¬r.Accepted) : conclude s c r = (completionStatus r, s) := by
  simp [conclude, hc, ha]

/-- A call that keeps the globals unless its command is accepted. -/
theorem shape_issues {c : ApiCall} {p : Packet} {k : Completion → Firmware (Status × SreStorage)}
    (hi : Issues s c p) (hc : c ≠ .writeAbort)
    (hok : ∀ r : Completion, r.Accepted → k r = .done (.success, advance s c))
    (herr : ∀ r : Completion, ¬r.Accepted → k r = .done (completionStatus r, s)) :
    Shape s c (.ask (.passThru p) k) := by
  have hk : k = fun r => .done (conclude s c r) := by
    funext r
    by_cases ha : r.Accepted
    · rw [hok r ha, conclude_accepted ha]
    · rw [herr r ha, conclude_rejected hc ha]
  rw [hk]
  exact .issues hi

theorem nvmeSetLockState_eq (hl : s.mNvmePassThru = true) {p : PartitionIndex}
    (hp : ¬p > srePartitionB) (l : NvmeLockState) :
    nvmeSetLockState s p l =
      .ask (.passThru (lockPacket p l)) fun r => .done (completionStatus r) := by
  simp only [nvmeSetLockState, if_neg hp, executeNvmePassThru_eq hl]
  rfl

variable (hs : Usable s)
include hs

theorem writeOpen_shape (p : PartitionIndex) :
    Shape s (.writeOpen p) (sreStorageWriteOpen s p) := by
  unfold sreStorageWriteOpen
  split
  · exact .refuses rfl
  split
  · exact .refuses rfl
  split
  · exact .refuses rfl
  next hp _ hc =>
    rw [nvmeSetLockState_eq hs.located hp, Program.ask_bind]
    refine shape_issues (.writeOpen (UInt32.not_lt.mp hp) (by simpa using hc))
      ApiCall.noConfusion (fun r ha => ?_) (fun r ha => ?_)
    · simp [completionStatus_accepted ha, advance]
    · simp [completionStatus_rejected ha]

theorem writeBlock_shape (b : Option Buffer) :
    Shape s (.writeBlock b) (sreStorageWriteBlock s b) := by
  unfold sreStorageWriteBlock
  split
  · exact .refuses rfl
  split
  · exact .refuses rfl
  split
  · exact .refuses rfl
  split
  · exact .refuses rfl
  split
  · exact .refuses rfl
  next ho hi _ =>
    rw [executeNvmePassThru_eq hs.located, Program.ask_bind]
    refine shape_issues (.writeBlock (by simpa using ho) (Nat.lt_of_not_le hi))
      ApiCall.noConfusion (fun r ha => ?_) (fun r ha => ?_)
    · simp [completionStatus_accepted ha, advance]
    · simp [completionStatus_rejected ha]

theorem writeClose_shape : Shape s .writeClose (sreStorageWriteClose s) := by
  unfold sreStorageWriteClose
  split
  · exact .refuses rfl
  split
  · exact .refuses rfl
  split
  · exact .refuses rfl
  next ho hi =>
    rw [executeNvmePassThru_eq hs.located, Program.ask_bind]
    refine shape_issues (.writeClose (by simpa using ho) (not_not.mp hi))
      ApiCall.noConfusion (fun r ha => ?_) (fun r ha => ?_)
    · simp [completionStatus_accepted ha, advance]
    · simp [completionStatus_rejected ha]

/-- Abort of an open session always gets as far as its command. -/
theorem writeAbort_eq (hp : s.mPartitionIndex ≤ srePartitionB) (ho : s.mIsWriteOpen = true) :
    sreStorageWriteAbort s = .ask (.passThru (lockPacket s.mPartitionIndex .writeLocked))
      fun r => .done (conclude s .writeAbort r) := by
  unfold sreStorageWriteAbort
  rw [if_neg (by simp [hs.isSupported]), if_neg (by simp [ho]),
    nvmeSetLockState_eq hs.located (UInt32.not_lt.mpr hp), Program.ask_bind]
  simp [conclude, advance]

theorem writeAbort_shape (hp : s.mPartitionIndex ≤ srePartitionB) :
    Shape s .writeAbort (sreStorageWriteAbort s) := by
  cases ho : s.mIsWriteOpen with
  | true =>
    rw [writeAbort_eq hs hp ho]
    exact .issues (.writeAbort ho)
  | false =>
    unfold sreStorageWriteAbort
    rw [if_neg (by simp [hs.isSupported]), if_pos ho]
    exact .refuses rfl

theorem read_shape (p : PartitionIndex) (i : ℕ) (b : Option Buffer) :
    Shape s (.read p i b) ((ApiCall.read p i b).program s) := by
  simp only [ApiCall.program, sreStorageRead]
  split
  · exact .refuses rfl
  split
  · exact .refuses rfl
  split
  · exact .refuses rfl
  split
  · exact .refuses rfl
  split
  · exact .refuses rfl
  split
  · exact .refuses rfl
  next hp _ hi ho _ =>
    rw [executeNvmePassThru_eq hs.located, Program.ask_bind]
    refine shape_issues (.read (UInt32.not_lt.mp hp) (by simpa using ho) (Nat.lt_of_not_le hi))
      ApiCall.noConfusion (fun r ha => ?_) (fun r ha => ?_)
    · simp [completionStatus_accepted ha, advance]
    · simp

theorem lock_shape (p : PartitionIndex) : Shape s (.lock p) ((ApiCall.lock p).program s) := by
  simp only [ApiCall.program, sreStorageLock]
  split
  · exact .refuses rfl
  split
  · exact .refuses rfl
  split
  · exact .refuses rfl
  next hp _ ho =>
    rw [nvmeSetLockState_eq hs.located hp, Program.ask_bind]
    refine shape_issues (.lock (UInt32.not_lt.mp hp) (by simpa using ho))
      ApiCall.noConfusion (fun r ha => ?_) (fun r ha => ?_)
    · simp [completionStatus_accepted ha, advance]
    · simp

theorem program_shape (hp : s.mPartitionIndex ≤ srePartitionB) (c : ApiCall) :
    Shape s c (c.program s) := by
  cases c with
  | writeOpen p => exact writeOpen_shape hs p
  | writeBlock b => exact writeBlock_shape hs b
  | writeClose => exact writeClose_shape hs
  | writeAbort => exact writeAbort_shape hs hp
  | read p i b => exact read_shape hs p i b
  | lock p => exact lock_shape hs p

end Calls

theorem Shape.run {s : SreStorage} {c : ApiCall} {prog : Firmware (Status × SreStorage)}
    (hp : Shape s c prog) (env : FirmwareEnv) (h : FirmwareTrace) :
    ∃ τ res, prog.run env h = (h ++ τ, res) ∧ Performed s c τ res := by
  cases hp with
  | refuses he => exact ⟨[], _, by simp, .refused he⟩
  | @issues p hi =>
    cases hr : env h (.passThru p) with
    | none => exact ⟨_, _, Program.run_ask_none env h _ hr, .lost hi⟩
    | some r => exact ⟨_, _, Program.run_ask_some env h _ hr, .completed hi⟩

/-- The rule for programs that call the library. -/
theorem Shape.meets {s : SreStorage} {c : ApiCall} {prog : Firmware (Status × SreStorage)}
    (hp : Shape s c prog) {K : Contract Answer} (hg : ∀ h c, K.guard h c) (h : FirmwareTrace) :
    Meets K (fun h' res => ∃ τ, h' = h ++ τ ∧ Performed s c τ (some res)) prog h := by
  cases hp with
  | refuses he => exact ⟨[], by simp, .refused he⟩
  | issues hi => exact ⟨hg _ _, fun r _ => ⟨_, rfl, .completed hi⟩⟩

/-- `outcome` is `none` when the command of the call never completed. -/
structure Entry where
  call : ApiCall
  before : SreStorage
  events : FirmwareTrace
  outcome : Option (Status × SreStorage)

def session (env : FirmwareEnv) : SreStorage → FirmwareTrace → List ApiCall → List Entry
  | _, _, [] => []
  | s, h, c :: cs =>
    let r := (c.program s).run env h
    let entry : Entry := ⟨c, s, r.1.drop h.length, r.2⟩
    match r.2 with
    | some (_, s') => entry :: session env s' r.1 cs
    | none => [entry]

def acceptedDownload : Event Answer → Option (ℕ × ℕ)
  | ⟨.passThru p, some r⟩ =>
    if p.command.opcode = nvmeAdminFwImageDownloadCmd ∧ r.Accepted then
      some (p.command.cdw11.toNat, p.command.cdw10.toNat)
    else none
  | _ => none

def acceptedDownloads (log : List Entry) : List (ℕ × ℕ) :=
  log.flatMap fun e => e.events.filterMap acceptedDownload

def blocks (s : SreStorage) (n : ℕ) : List (ℕ × ℕ) :=
  (List.range n).map fun i => (i * s.mBlockSize / 4, s.mBlockSize / 4 - 1)

def Entry.Opens (e : Entry) (p : PartitionIndex) : Prop :=
  e.call = .writeOpen p ∧ ∃ s', e.outcome = some (.success, s')

def OpenedSince (log : List Entry) (p : PartitionIndex) (since : List Entry) : Prop :=
  ∃ old o, log = old ++ o :: since ∧ o.Opens p ∧ ∀ e ∈ since, ∀ q, ¬e.Opens q

/-- The geometry is that of `s₀`; a session is open on the partition of the last Open, with the
accepted downloads since then numbered by `mBlockIndex`. -/
structure Invariant (s₀ : SreStorage) (log : List Entry) (s : SreStorage) : Prop where
  usable : Usable s
  size_eq : s.mBlockSize = s₀.mBlockSize
  count_eq : s.mBlockCount = s₀.mBlockCount
  partition_le : s.mPartitionIndex ≤ srePartitionB
  bounded : s.mBlockIndex ≤ s.mBlockCount
  opened : s.mIsWriteOpen = true → ∃ since, OpenedSince log s.mPartitionIndex since ∧
    acceptedDownloads since = blocks s s.mBlockIndex

section Runs

variable {s₀ s : SreStorage} {log : List Entry}

theorem initial_invariant (hs : Supported s) : Invariant s [] s where
  usable := hs.toUsable
  size_eq := rfl
  count_eq := rfl
  partition_le := hs.partition_le
  bounded := by rw [hs.index_zero]; exact Nat.zero_le _
  opened := by simp [hs.closed]

theorem OpenedSince.snoc {p : PartitionIndex} {since : List Entry}
    (ho : OpenedSince log p since) {e : Entry} (he : ∀ q, ¬e.Opens q) :
    OpenedSince (log ++ [e]) p (since ++ [e]) := by
  obtain ⟨old, o, rfl, hop, hno⟩ := ho
  refine ⟨old, o, by simp, hop, fun x hx => ?_⟩
  rcases List.mem_append.mp hx with hx | hx
  · exact hno x hx
  · cases List.mem_singleton.mp hx
    exact he

theorem acceptedDownloads_snoc (since : List Entry) (e : Entry) :
    acceptedDownloads (since ++ [e]) =
      acceptedDownloads since ++ e.events.filterMap acceptedDownload := by
  simp [acceptedDownloads]

theorem blocks_succ (s : SreStorage) (n : ℕ) :
    blocks s (n + 1) = blocks s n ++ [(n * s.mBlockSize / 4, s.mBlockSize / 4 - 1)] := by
  simp [blocks, List.range_succ]

/-- A call that neither opens a session nor has a download accepted, and changes no global. -/
theorem Invariant.idle (hi : Invariant s₀ log s) {e : Entry} (he : ∀ q, ¬e.Opens q)
    (hd : e.events.filterMap acceptedDownload = []) : Invariant s₀ (log ++ [e]) s where
  usable := hi.usable
  size_eq := hi.size_eq
  count_eq := hi.count_eq
  partition_le := hi.partition_le
  bounded := hi.bounded
  opened hopen := by
    obtain ⟨since, hs, hb⟩ := hi.opened hopen
    exact ⟨since ++ [e], hs.snoc he, by rw [acceptedDownloads_snoc, hb, hd, List.append_nil]⟩

/-- Closing a session, whatever the log holds by then. -/
theorem Invariant.close (hi : Invariant s₀ log s) (log' : List Entry) :
    Invariant s₀ log' { s with mIsWriteOpen := false, mBlockIndex := 0 } where
  usable := hi.usable.of_geometry ⟨rfl, rfl, rfl, rfl, rfl⟩
  size_eq := hi.size_eq
  count_eq := hi.count_eq
  partition_le := hi.partition_le
  bounded := Nat.zero_le _
  opened := nofun

/-- The fields of a download carry the block index without wrapping. -/
theorem downloadCommand_fields (hs : Usable s) (hlt : s.mBlockIndex < s.mBlockCount) :
    (downloadCommand s).cdw11.toNat = s.mBlockIndex * s.mBlockSize / 4 ∧
      (downloadCommand s).cdw10.toNat = s.mBlockSize / 4 - 1 := by
  obtain ⟨k, _, hk, hsize⟩ := hs.blockSize
  have hoff : s.mBlockIndex * s.mBlockSize ≤ s.mBlockCount * s.mBlockSize :=
    Nat.mul_le_mul_right _ hlt.le
  have hbound := hs.bounded
  unfold size128KB at hbound
  constructor
  · simp only [downloadCommand, UInt32.toNat_ofNat']
    exact Nat.mod_eq_of_lt (by omega)
  · simp only [downloadCommand, UInt32.toNat_ofNat']
    exact Nat.mod_eq_of_lt (by omega)

/-- What each accepted command does to the invariant. -/
theorem Invariant.accepted (hi : Invariant s₀ log s) {c : ApiCall} {p : Packet} {r : Completion}
    (hc : Issues s c p) (hr : r.Accepted) :
    Invariant s₀ (log ++ [⟨c, s, [⟨.passThru p, some r⟩], some (.success, advance s c)⟩])
      (advance s c) := by
  have husable : Usable (advance s c) :=
    hi.usable.of_geometry (by cases c <;> exact ⟨rfl, rfl, rfl, rfl, rfl⟩)
  cases hc with
  | @writeOpen q hq hclosed =>
    exact
      { usable := husable
        size_eq := hi.size_eq
        count_eq := hi.count_eq
        partition_le := hq
        bounded := Nat.zero_le _
        opened := fun _ => ⟨[], ⟨log, _, rfl, ⟨rfl, _, rfl⟩, by simp⟩, rfl⟩ }
  | @writeBlock b hopen hlt =>
    refine
      { usable := husable
        size_eq := hi.size_eq
        count_eq := hi.count_eq
        partition_le := hi.partition_le
        bounded := hlt
        opened := fun _ => ?_ }
    obtain ⟨since, hs, hb⟩ := hi.opened hopen
    obtain ⟨hoff, hlen⟩ := downloadCommand_fields hi.usable hlt
    refine ⟨since ++ [_], hs.snoc (fun q hq => ApiCall.noConfusion hq.1), ?_⟩
    rw [acceptedDownloads_snoc, hb]
    have hd : acceptedDownload ⟨.passThru (downloadPacket s b.bytes), some r⟩ =
        some (s.mBlockIndex * s.mBlockSize / 4, s.mBlockSize / 4 - 1) := by
      rw [acceptedDownload, if_pos ⟨rfl, hr⟩]
      exact congrArg some (Prod.ext hoff hlen)
    simp only [List.filterMap_cons, List.filterMap_nil, hd]
    exact (blocks_succ s s.mBlockIndex).symm
  | writeClose => exact hi.close _
  | writeAbort => exact hi.close _
  | read => exact hi.idle (fun q hq => ApiCall.noConfusion hq.1) rfl
  | lock => exact hi.idle (fun q hq => ApiCall.noConfusion hq.1) rfl

theorem performed_preserves_invariant (hi : Invariant s₀ log s) {c : ApiCall}
    {τ : FirmwareTrace} {st : Status} {s' : SreStorage} (hp : Performed s c τ (some (st, s'))) :
    Invariant s₀ (log ++ [⟨c, s, τ, some (st, s')⟩]) s' := by
  generalize hres : some (st, s') = res at hp
  cases hp with
  | refused he =>
    cases hres
    refine hi.idle (fun q hq => ?_) rfl
    obtain ⟨_, _, hst⟩ := hq
    cases hst
    cases he
  | @completed p r hc =>
    by_cases ha : r.Accepted
    · rw [conclude_accepted ha] at hres ⊢
      cases hres
      exact hi.accepted hc ha
    by_cases habort : c = .writeAbort
    · subst habort
      simp only [conclude, true_or, if_true] at hres
      cases hres
      exact hi.close _
    · rw [conclude_rejected habort ha] at hres
      cases hres
      refine hi.idle (fun q hq => ?_) ?_
      · obtain ⟨_, _, hst⟩ := hq
        injection hst with hst
        exact ha (completionStatus_eq_success.mp (congrArg Prod.fst hst))
      · simp [acceptedDownload, ha]
  | lost => cases hres

/-- The run lemma: each entry of a session starts from the invariant of the entries before it. -/
theorem session_entries (env : FirmwareEnv) (cs : List ApiCall) :
    ∀ {s h log}, Invariant s₀ log s → ∀ {pre e post}, session env s h cs = pre ++ e :: post →
      Invariant s₀ (log ++ pre) e.before ∧ Performed e.before e.call e.events e.outcome := by
  induction cs with
  | nil => intro s h log _ pre e post he; simp [session] at he
  | cons c cs ih =>
    intro s h log hi pre e post he
    obtain ⟨τ, res, hrun, hperf⟩ := (program_shape hi.usable hi.partition_le c).run env h
    simp only [session, hrun, List.drop_left] at he
    cases res with
    | none =>
      cases pre with
      | nil =>
        obtain ⟨rfl, _⟩ := List.cons.inj he
        exact ⟨by simpa using hi, hperf⟩
      | cons x pre => simp at he
    | some res =>
      obtain ⟨st, s'⟩ := res
      dsimp only at he
      cases pre with
      | nil =>
        obtain ⟨rfl, _⟩ := List.cons.inj he
        exact ⟨by simpa using hi, hperf⟩
      | cons x pre =>
        obtain ⟨rfl, hrest⟩ := List.cons.inj he
        simpa using ih (performed_preserves_invariant hi hperf) hrest

def sessionState (s : SreStorage) : Bool × PartitionIndex × ℕ :=
  (s.mIsWriteOpen, s.mPartitionIndex, s.mBlockIndex)

/-- What a Firmware Commit finds: an open session, the partition of its last successful Open,
and every block of the geometry downloaded once and in order since then. -/
def CommitCovered (s₀ : SreStorage) (log : List Entry) (s : SreStorage) (p : Packet) : Prop :=
  s.mIsWriteOpen = true ∧ ∃ since,
    OpenedSince log (p.command.cdw10 >>> sreNvmeFwCommitBpidShift) since ∧
      acceptedDownloads since = blocks s₀ s₀.mBlockCount

structure SessionSafe (s₀ : SreStorage) (log : List Entry) : Prop where
  commit_covered : ∀ pre e post, log = pre ++ e :: post → ∀ p r, ⟨.passThru p, r⟩ ∈ e.events →
    p.command.opcode = nvmeAdminFwCommitCmd → CommitCovered s₀ pre e.before p
  bounded : ∀ e ∈ log, e.before.mBlockIndex ≤ s₀.mBlockCount ∧
    ∀ st s', e.outcome = some (st, s') → s'.mBlockIndex ≤ s₀.mBlockCount
  error_unchanged : ∀ e ∈ log, e.call ≠ .writeAbort → ∀ st s', e.outcome = some (st, s') →
    st.isError = true → sessionState s' = sessionState e.before
  exclusive : ∀ e ∈ log, e.before.mIsWriteOpen = true →
    (∃ p, e.call = .writeOpen p) ∨ (∃ p i b, e.call = .read p i b) ∨ (∃ p, e.call = .lock p) →
      e.events = [] ∧ ∃ st, st.isError = true ∧ e.outcome = some (st, e.before)

theorem commitPacket_bpid {p : PartitionIndex} (hp : p ≤ srePartitionB) :
    (p <<< sreNvmeFwCommitBpidShift ||| sreNvmeFwCommitActionDownloadBp <<<
      sreNvmeFwCommitActionShift) >>> sreNvmeFwCommitBpidShift = p := by
  have hcases : p = 0 ∨ p = 1 := by
    have hle : p.toNat ≤ 1 := hp
    rcases Nat.le_one_iff_eq_zero_or_eq_one.mp hle with h | h
    · exact Or.inl (UInt32.toNat_inj.mp h)
    · exact Or.inr (UInt32.toNat_inj.mp h)
  rcases hcases with rfl | rfl <;> decide

/-- Only WriteClose issues the commit opcode. -/
theorem Performed.commit {c : ApiCall} {τ : FirmwareTrace} {res : Option (Status × SreStorage)}
    (hp : Performed s c τ res) {p : Packet} {r : Option Completion} (hm : ⟨.passThru p, r⟩ ∈ τ)
    (hop : p.command.opcode = nvmeAdminFwCommitCmd) :
    s.mIsWriteOpen = true ∧ s.mBlockIndex = s.mBlockCount ∧ p = commitPacket s := by
  have hissue : ∀ {q : Packet}, Issues s c q → q.command.opcode = nvmeAdminFwCommitCmd →
      s.mIsWriteOpen = true ∧ s.mBlockIndex = s.mBlockCount ∧ q = commitPacket s := by
    intro q hq hop
    cases hq with
    | writeClose ho hf => exact ⟨ho, hf, rfl⟩
    | writeOpen | writeAbort | lock =>
      exact absurd hop (by decide : ¬nvmeAdminSetFeaturesCmd = nvmeAdminFwCommitCmd)
    | writeBlock =>
      exact absurd hop (by decide : ¬nvmeAdminFwImageDownloadCmd = nvmeAdminFwCommitCmd)
    | read => exact absurd hop (by decide : ¬nvmeAdminGetLogPageCmd = nvmeAdminFwCommitCmd)
  cases hp with
  | refused => simp at hm
  | completed hc | lost hc =>
    cases List.mem_singleton.mp hm
    exact hissue hc hop

theorem Performed.exclusive {c : ApiCall} {τ : FirmwareTrace}
    {res : Option (Status × SreStorage)} (hp : Performed s c τ res)
    (hopen : s.mIsWriteOpen = true)
    (hc : (∃ p, c = .writeOpen p) ∨ (∃ p i b, c = .read p i b) ∨ (∃ p, c = .lock p)) :
    τ = [] ∧ ∃ st, st.isError = true ∧ res = some (st, s) := by
  have hissue : ∀ {p}, ¬Issues s c p := by
    intro p hi
    cases hi <;> simp_all
  cases hp with
  | refused he => exact ⟨rfl, _, he, rfl⟩
  | completed hi | lost hi => exact absurd hi hissue

theorem Performed.error_unchanged {c : ApiCall} {τ : FirmwareTrace} {st : Status}
    {s' : SreStorage} (hp : Performed s c τ (some (st, s'))) (hc : c ≠ .writeAbort)
    (he : st.isError = true) : s' = s := by
  generalize hres : some (st, s') = res at hp
  cases hp with
  | refused => cases hres; rfl
  | @completed _ r =>
    by_cases ha : r.Accepted
    · rw [conclude_accepted ha] at hres
      cases hres
      cases he
    · rw [conclude_rejected hc ha] at hres
      cases hres
      rfl
  | lost => cases hres

/-- Whatever the calls and the device: no partial, shifted or duplicated image is committed. -/
theorem write_session_safe (hs : ConstructorLeaves s) (env : FirmwareEnv) (h : FirmwareTrace)
    (cs : List ApiCall) : SessionSafe s (session env s h cs) := by
  have hrun : ∀ {pre e post}, session env s h cs = pre ++ e :: post →
      Invariant s pre e.before ∧ Performed e.before e.call e.events e.outcome := fun he => by
    simpa using session_entries env cs (initial_invariant hs.supported) he
  have hmem : ∀ e ∈ session env s h cs,
      ∃ pre, Invariant s pre e.before ∧ Performed e.before e.call e.events e.outcome := by
    intro e he
    obtain ⟨pre, post, hsplit⟩ := List.append_of_mem he
    exact ⟨pre, hrun hsplit⟩
  constructor
  · intro pre e post he p r hm hop
    obtain ⟨hi, hp⟩ := hrun he
    obtain ⟨hopen, hfull, rfl⟩ := hp.commit hm hop
    obtain ⟨since, hsince, hblocks⟩ := hi.opened hopen
    refine ⟨hopen, since, ?_, ?_⟩
    · simpa only [commitPacket, commitPacket_bpid hi.partition_le] using hsince
    · rw [hblocks, hfull, hi.count_eq]
      simp only [blocks, hi.size_eq]
  · intro e he
    obtain ⟨pre, hi, hp⟩ := hmem e he
    refine ⟨hi.count_eq ▸ hi.bounded, fun st s' ho => ?_⟩
    rw [ho] at hp
    have hi' := performed_preserves_invariant hi hp
    exact hi'.count_eq ▸ hi'.bounded
  · intro e he hc st s' ho herr
    obtain ⟨_, _, hp⟩ := hmem e he
    rw [ho] at hp
    rw [hp.error_unchanged hc herr]
  · intro e he hopen hc
    obtain ⟨_, _, hp⟩ := hmem e he
    exact hp.exclusive hopen hc

theorem write_session_safe_even :
    SessionSafe evenGeometry (session (controllerEnv 2 4) evenGeometry []
      [.writeOpen srePartitionB, .writeBlock (some ⟨4096, []⟩), .writeClose, .writeAbort]) :=
  write_session_safe ⟨1, _, controllerEnv_even, rfl⟩ _ _ _

end Runs

end SreStorageSession
