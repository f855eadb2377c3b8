import OdpPlatform.BootPartitionLayout
import OdpPlatform.NvmeBpWriteMedia

/-! # What NvmeBpWrite makes of boot partition 1

At every moment of every run, cut short or not, BP1 holds what it held or the whole padded image:
the downloads fill the staging area, and a commit is only issued when the image is complete
there. -/
namespace NvmeBpWriteDevice

open ByteBuffer InteractionProgram InteractionContract InteractionMonitor FirmwareServices
open BootPartitionDevice NvmeBpWrite NvmeBpWriteMedia
open BootPartitionLayout (IsLogPageRead Device.logPage)

def CommitsPadded (M : Media) (s : Fleet) : Call → Prop
  | .passThruOn i p => p.command.opcode = nvmeAdminFirmwareCommit →
      p = commitPacket ∧ (s i).staging = M.padded ∧ M.image.length ≤ targetUploadBytes
  | _ => True

def writes (M : Media) (D : Fleet) : Monitor Answer Fleet :=
  monitor M D (CommitsPadded M) fun _ _ _ => True

def staged (s : Fleet) (i : Interface) (content : Bytes) (n : ℕ) : Fleet :=
  Function.update s i { s i with staging := splice (s i).staging 0 (content.take n) }

section Staging

variable {s : Fleet} {i : Interface} {content : Bytes}

@[simp] theorem staged_zero : staged s i content 0 = s := by
  have hnone : splice (s i).staging 0 (content.take 0) = (s i).staging := by simp [splice]
  rw [staged, hnone]
  exact Function.update_eq_self i s

@[simp] theorem staged_self (n : ℕ) :
    staged s i content n i = { s i with staging := splice (s i).staging 0 (content.take n) } :=
  Function.update_self ..

theorem note_passThruOn (s : Fleet) (i : Interface) (p : Packet) (c : CompletionEntry) :
    note s ⟨.passThruOn i p, some c⟩ = Function.update s i ((s i).step (p, completion c)) := rfl

theorem note_rejected {p : Packet} {c : CompletionEntry} (hc : rejected c = true) :
    note s ⟨.passThruOn i p, some c⟩ = s := by
  have hrejected : ¬(completion c).Accepted := by
    rw [completion_accepted, hc]
    exact Bool.noConfusion
  rw [note_passThruOn, step_rejected _ hrejected, Function.update_eq_self]

/-- An accepted download carries the staging area on. -/
theorem note_download {chunkBytes off : ℕ} {c : CompletionEntry} (hc : rejected c = false)
    (hpos : 0 < chunkBytes) (hdword : chunkBytes % 4 = 0) (hlt : chunkBytes < 2 ^ 32)
    (hoff : off % 4 = 0) (hofflt : off < 2 ^ 34) (hfits : off + chunkBytes ≤ content.length) :
    note (staged s i content off)
        ⟨.passThruOn i (downloadPacket (window content off chunkBytes) chunkBytes off), some c⟩ =
      staged s i content (off + chunkBytes) := by
  obtain ⟨hoffset, -, htransfer⟩ :=
    @downloadPacket_ranges (window content off chunkBytes) _ _ hpos hdword hlt hoff hofflt
  have hoffset' : 4 * (downloadPacket (window content off chunkBytes) chunkBytes
      off).command.cdw11.toNat = off := hoffset
  have hdata : (downloadPacket (window content off chunkBytes) chunkBytes off).buffer.take
      chunkBytes = window content off chunkBytes := by
    change (window content off chunkBytes).take chunkBytes = _
    rw [window, List.take_take, Nat.min_self]
  have hfront : (content.take off).length = off := List.length_take_of_le (by omega)
  have hmeet := splice_append (s i).staging (content.take off) (window content off chunkBytes)
  rw [hfront] at hmeet
  rw [note_passThruOn, step_download _ rfl (completion_accepted.mpr hc), hoffset', htransfer, hdata,
    staged_self]
  dsimp only
  rw [hmeet, window, ← List.take_add, staged, Function.update_idem]
  rfl

end Staging

section Runs

variable {M : Media} {D s : Fleet} {i : Interface}

theorem quiet_permitted (s : Fleet) (c : Call) (hc : Quiet c) : CommitsPadded M s c := by
  cases c with
  | passThruOn i p => exact absurd trivial hc.1
  | _ => trivial

theorem steps_harmless {α : Type} {p : Firmware α} (hp : Only Harmless p) :
    (writes M D).Steps (Same s fun _ => True) p s := by
  refine (Monitor.steps_of_only (I := fun s' => s' = s) hp ?_ ?_ rfl).mono fun _ _ h => ⟨h, trivial⟩
  · rintro _ c rfl hc
    cases c with
    | passThruOn i p => exact fun hcommit => absurd (.inr (.inr hcommit)) hc
    | _ => trivial
  · rintro _ c r rfl hc
    exact note_harmless hc

theorem steps_harmless_bind {α β : Type} {p : Firmware α} {f : α → Firmware β}
    {Q : Fleet → β → Prop} (hp : Only Harmless p) (hf : ∀ a, (writes M D).Steps Q (f a) s) :
    (writes M D).Steps Q (p >>= f) s := by
  apply (steps_harmless hp).bind
  rintro _ a ⟨rfl, -⟩
  exact hf a

theorem steps_command_bind {α : Type} {p : Packet} {f : CompletionEntry → Firmware α}
    {Q : Fleet → α → Prop} (hp : CommitsPadded M s (.passThruOn i p))
    (hf : ∀ c, (writes M D).Steps Q (f c) (note s ⟨.passThruOn i p, some c⟩)) :
    (writes M D).Steps Q (ask (.passThruOn i p) >>= f) s := ⟨hp, fun c _ => hf c⟩

theorem permits_download (s : Fleet) (buffer : Bytes) (patternSize offsetBytes : ℕ) :
    CommitsPadded M s (.passThruOn i (downloadPacket buffer patternSize offsetBytes)) :=
  fun hcommit => absurd hcommit
    (show nvmeAdminFirmwareImageDownload ≠ nvmeAdminFirmwareCommit by decide)

/-- The loop lemma: the staging area is filled as far as the downloads were accepted. -/
theorem steps_downloadLoop {content : Bytes} {chunkBytes : ℕ} (hpos : 0 < chunkBytes)
    (hdword : chunkBytes % 4 = 0) (hlt : chunkBytes < 2 ^ 32) (hsize : content.length < 2 ^ 34)
    (chunks : ℕ) : ∀ (off : ℕ) (last : CompletionEntry), off % 4 = 0 →
      off + chunks * chunkBytes ≤ content.length →
      (writes M D).Steps (fun s' r => r.failure = none →
          s' = staged s i content (off + chunks * chunkBytes))
        (downloadLoop i content chunkBytes chunks off last) (staged s i content off) := by
  induction chunks with
  | zero =>
    intro off last _ _ _
    rw [Nat.zero_mul, Nat.add_zero]
  | succ chunks ih =>
    intro off last hoff hfits
    rw [Nat.succ_mul] at hfits ⊢
    refine steps_command_bind (permits_download _ _ _ _) fun c => ?_
    cases hc : rejected c with
    | true =>
      rw [if_pos rfl]
      exact nofun
    | false =>
      have hrest := ih (off + chunkBytes) c (by omega) (by omega)
      have hstop : off + (chunks * chunkBytes + chunkBytes) =
          off + chunkBytes + chunks * chunkBytes := by omega
      rw [if_neg Bool.false_ne_true, hstop,
        note_download hc hpos hdword hlt hoff (by omega) (by omega)]
      exact hrest

theorem steps_commitPhase (gResult : BpResult) (wim : WimBuffer)
    (hstaging : (s i).staging = M.padded) (hfits : M.image.length ≤ targetUploadBytes) :
    (writes M D).Steps (fun _ _ => True) (commitPhase gResult i wim) s := by
  apply steps_harmless_bind (harmless_writeResultToNvRam _)
  intro _
  refine steps_command_bind (fun _ => ⟨rfl, hstaging, hfits⟩) fun completion => ?_
  apply steps_harmless_bind (harmless_writeResultToNvRam _)
  intro _
  apply steps_harmless_bind (harmless_freePages _ _)
  intro _
  split <;> trivial

theorem steps_uploadPhase (gResult : BpResult) {wim : WimBuffer} {chunkBytes : ℕ}
    (unlock : CompletionEntry) (hpos : 0 < chunkBytes) (hdword : chunkBytes % 4 = 0)
    (hlt : chunkBytes < 2 ^ 32) (hchunks : targetUploadBytes % chunkBytes = 0) (hwim : Holds M wim)
    (hstaging : (s i).staging.length = targetUploadBytes) :
    (writes M D).Steps (fun _ _ => True) (uploadPhase gResult i wim chunkBytes unlock) s := by
  have htarget : targetUploadBytes = 1073741824 := by decide
  have hlength : M.padded.length = targetUploadBytes := length_padTo hwim.fits
  have hwhole : targetUploadBytes / chunkBytes * chunkBytes = targetUploadBytes :=
    Nat.div_mul_cancel (Nat.dvd_of_mod_eq_zero hchunks)
  unfold uploadPhase
  dsimp only
  rw [hwim.padded, hwim.content]
  have hloop := @steps_downloadLoop M D s i M.padded chunkBytes hpos hdword hlt (by omega)
    (targetUploadBytes / chunkBytes) 0 unlock rfl (by omega)
  rw [staged_zero, Nat.zero_add, hwhole] at hloop
  apply hloop.bind
  intro s' phaseA hs'
  apply steps_harmless_bind (harmless_writeResultToNvRam _)
  intro _
  cases hfailure : phaseA.failure with
  | some failure => exact steps_harmless_bind (harmless_freePages _ _) fun _ => trivial
  | none =>
    have hcomplete : (s' i).staging = M.padded := by
      rw [hs' hfailure, staged_self]
      dsimp only
      rw [List.take_of_length_le hlength.le]
      exact splice_full (hlength.trans hstaging.symm)
    exact steps_commitPhase _ wim hcomplete hwim.fits

theorem steps_unlockPhase (gResult : BpResult) :
    (writes M D).Steps (Same s fun _ => True) (unlockPhase gResult i) s := by
  apply steps_harmless_bind ((only_call _).mpr (harmless_readWriteProtection i))
  intro before
  refine steps_command_bind (fun hcommit => absurd hcommit (by decide)) fun unlock => ?_
  have hnote : note s ⟨.passThruOn i unlockPacket, some unlock⟩ = s := by
    have hstep : (s i).step (unlockPacket, completion unlock) = s i := by
      simp [Device.step, unlockPacket, nvmeAdminSetFeatures, nvmeAdminFwImageDownloadCmd,
        nvmeAdminFwCommitCmd]
    rw [note_passThruOn, hstep, Function.update_eq_self]
  rw [hnote]
  apply steps_harmless_bind (harmless_writeResultToNvRam _)
  intro _
  apply steps_harmless_bind ((only_call _).mpr (harmless_readWriteProtection i))
  intro after
  apply steps_harmless_bind (harmless_writeResultToNvRam _)
  intro _
  exact ⟨rfl, trivial⟩

theorem steps_writeBpTestPattern (imageHandle : Handle) (gResult : BpResult)
    (hstaging : (s i).staging.length = targetUploadBytes) :
    (writes M D).Steps (fun _ _ => True) (writeBpTestPattern imageHandle gResult i) s := by
  apply steps_harmless_bind (harmless_queryIdentifyController i)
  intro identified
  obtain ⟨hpos, hdword, hlt⟩ := chunkSize_spec identified
  apply (steps_loadWimIntoBuffer quiet_permitted imageHandle hpos).bind
  rintro _ loaded ⟨rfl, hloaded⟩
  cases loaded with
  | error status => trivial
  | ok wim =>
    obtain ⟨hwim, hchunks⟩ := hloaded wim rfl
    apply steps_harmless_bind (harmless_writeResultToNvRam _)
    intro _
    apply (steps_unlockPhase _).bind
    rintro _ ⟨gResult', unlock⟩ ⟨rfl, -⟩
    dsimp only
    split
    · exact steps_harmless_bind (harmless_freePages _ _) fun _ => trivial
    · exact steps_uploadPhase gResult' unlock hpos hdword hlt hchunks hwim hstaging

theorem steps_writeAndReadBack (imageHandle : Handle)
    (hstaging : (s i).staging.length = targetUploadBytes) :
    (writes M D).Steps (fun _ exit => exit = .leave) (writeAndReadBack imageHandle i) s := by
  apply (steps_writeBpTestPattern imageHandle {} hstaging).bind
  intro s' writeStatus _
  split
  · exact rfl
  · exact steps_harmless_bind (harmless_postWriteReadback imageHandle i) fun _ => rfl

/-- One iteration: the loop goes on with the devices as they were, or it stops. -/
theorem steps_processController (imageHandle : Handle) (forceFromFlag : Bool)
    (hstaging : (s i).staging.length = targetUploadBytes) :
    (writes M D).Steps (fun s' exit => exit = .next → s' = s)
      (processController imageHandle forceFromFlag i) s := by
  apply steps_harmless_bind (quiet_harmless quiet_allocateHeads)
  intro allocated
  split
  · exact fun _ => rfl
  apply steps_harmless_bind (quiet_harmless (quiet_readWimHead imageHandle wimFilePath checkBytes))
  intro ⟨status, wimHead⟩
  dsimp only
  split
  · exact steps_harmless_bind (quiet_harmless quiet_freeHeads) fun _ _ => rfl
  apply steps_harmless_bind (harmless_readBpHead i)
  intro ⟨completion, bpHead⟩
  dsimp only
  split
  · exact steps_harmless_bind (quiet_harmless quiet_freeHeads) fun _ _ => rfl
  split
  · apply steps_harmless_bind (quiet_harmless quiet_freeHeads)
    intro _
    exact steps_harmless_bind ((only_call _).mpr nofun) fun _ => nofun
  · apply steps_harmless_bind (quiet_harmless quiet_freeHeads)
    intro _
    apply (steps_writeAndReadBack imageHandle hstaging).mono
    rintro _ _ rfl
    nofun

theorem steps_controllerLoop (imageHandle : Handle) (forceFromFlag : Bool)
    (hstaging : ∀ i, (s i).staging.length = targetUploadBytes) (handles : List Handle) :
    (writes M D).Steps (fun _ _ => True) (controllerLoop imageHandle forceFromFlag handles) s := by
  induction handles with
  | nil => trivial
  | cons handle rest ih =>
    refine steps_harmless_bind ((only_call _).mpr nofun) fun ⟨status, passThru⟩ => ?_
    dsimp only
    split
    · exact ih
    · apply (steps_processController imageHandle forceFromFlag (hstaging passThru)).bind
      intro s' exit hexit
      cases exit with
      | next =>
        rw [hexit rfl]
        exact ih
      | leave => trivial

theorem steps_entryPoint (imageHandle : Handle)
    (hstaging : ∀ i, (D i).staging.length = targetUploadBytes) :
    (writes M D).Steps (fun _ _ => True) (entryPoint imageHandle) D := by
  have hreset : ∀ s : Fleet, (writes M D).Steps (fun _ _ => True) coldReset s := by
    intro s
    exact (steps_harmless (idle_coldReset.mono fun _ hc => hc.1)).mono fun _ _ _ => trivial
  apply steps_harmless_bind (quiet_harmless quiet_clearBootNext)
  intro _
  refine steps_harmless_bind ((only_call _).mpr nofun) fun _ => ?_
  apply steps_harmless_bind
    (quiet_harmless (quiet_fileExistsOnAnyVolume imageHandle forceReflashFlagPath))
  intro forceFromFlag
  refine steps_harmless_bind ((only_call _).mpr nofun) fun ⟨status, handles⟩ => ?_
  dsimp only
  split
  · exact hreset D
  · apply (steps_controllerLoop imageHandle forceFromFlag hstaging handles).bind
    intro s _ _
    exact steps_harmless_bind ((only_call _).mpr nofun) fun _ => hreset s

end Runs

def after (D : Fleet) (h : FirmwareTrace) : Fleet := h.foldl note D

/-- A commit on this controller was accepted. -/
def Committed (i : Interface) (h : FirmwareTrace) : Prop :=
  ∃ p c, ⟨.passThruOn i p, some c⟩ ∈ h ∧ p.command.opcode = nvmeAdminFirmwareCommit ∧ Accepted c

/-- The partitions behind one controller: BP1 holds the padded image from the first accepted commit
on, and nothing else ever changes. -/
structure Contents (M : Media) (D : Fleet) (h : FirmwareTrace) (i : Interface) : Prop where
  fits : Committed i h → M.image.length ≤ targetUploadBytes
  committed : Committed i h →
    (after D h i).content = Function.update (D i).content targetBpid.toUInt32 M.padded
  uncommitted : ¬Committed i h → (after D h i).content = (D i).content

section Histories

variable {M : Media} {D : Fleet} {h : FirmwareTrace} {i : Interface} {e : Event Answer}

theorem committed_snoc : Committed i (h ++ [e]) ↔ Committed i h ∨
    ∃ p c, e = ⟨.passThruOn i p, some c⟩ ∧ p.command.opcode = nvmeAdminFirmwareCommit ∧
      Accepted c := by
  constructor
  · rintro ⟨p, c, hmem, hcommit⟩
    rcases List.mem_append.mp hmem with hmem | hmem
    · exact .inl ⟨p, c, hmem, hcommit⟩
    · exact .inr ⟨p, c, (List.mem_singleton.mp hmem).symm, hcommit⟩
  · rintro (⟨p, c, hmem, hcommit⟩ | ⟨p, c, rfl, hcommit⟩)
    · exact ⟨p, c, List.mem_append_left _ hmem, hcommit⟩
    · exact ⟨p, c, List.mem_append_right _ (List.mem_singleton.mpr rfl), hcommit⟩

theorem after_snoc (D : Fleet) (h : FirmwareTrace) (e : Event Answer) :
    after D (h ++ [e]) = note (after D h) e := by
  rw [after, List.foldl_append]
  rfl

theorem content_step_other (d : Device) {p : Packet} {r : Completion}
    (hp : ¬p.command.opcode = nvmeAdminFirmwareCommit) : (d.step (p, r)).content = d.content := by
  have hcommit : ¬p.command.opcode = nvmeAdminFwCommitCmd := hp
  unfold Device.step
  dsimp only
  rw [if_neg hcommit]
  split
  · split <;> rfl
  · rfl

/-- Only an accepted commit on this controller changes its partitions. -/
theorem content_note {s : Fleet} (hnone : ¬∃ p c, e = ⟨.passThruOn i p, some c⟩ ∧
    p.command.opcode = nvmeAdminFirmwareCommit ∧ Accepted c) :
    (note s e i).content = (s i).content := by
  obtain ⟨c, a⟩ := e
  cases c with
  | passThruOn j p =>
    cases a with
    | none => rfl
    | some c =>
      by_cases hj : j = i
      · subst hj
        by_cases haccepted : Accepted c
        · rw [note_passThruOn, Function.update_self]
          exact content_step_other _ fun hcommit => hnone ⟨p, c, rfl, hcommit, haccepted⟩
        · have hrejected : rejected c = true :=
            Bool.eq_true_of_not_eq_false fun hc => haccepted (accepted_iff.mpr hc)
          rw [note_rejected hrejected]
      · rw [note_passThruOn, Function.update_of_ne (Ne.symm hj)]
  | _ => rfl

theorem content_uncommitted (hnot : ¬Committed i h) :
    (after D h i).content = (D i).content := by
  induction h using List.reverseRecOn with
  | nil => rfl
  | append_singleton h e ih =>
    obtain ⟨hbefore, hlast⟩ := not_or.mp (mt committed_snoc.mpr hnot)
    rw [after_snoc, content_note hlast]
    exact ih hbefore

/-- The step lemma: what is permitted keeps the contents. -/
theorem Contents.event (hcontents : Contents M D h i)
    (hpermitted : CommitsPadded M (after D h) e.call) : Contents M D (h ++ [e]) i := by
  by_cases hlast : ∃ p c, e = ⟨.passThruOn i p, some c⟩ ∧
      p.command.opcode = nvmeAdminFirmwareCommit ∧ Accepted c
  · obtain ⟨p, c, rfl, hcommit, haccepted⟩ := hlast
    obtain ⟨rfl, hstaging, hfits⟩ := hpermitted hcommit
    refine ⟨fun _ => hfits, fun _ => ?_, content_uncommitted⟩
    have hbpid : commitBpid commitPacket.command = targetBpid.toUInt32 := by decide
    rw [after_snoc, note_passThruOn, Function.update_self, step_commit _ rfl
      (completion_accepted.mpr (accepted_iff.mp haccepted)), hbpid, hstaging]
    dsimp only
    by_cases hbefore : Committed i h
    · rw [hcontents.committed hbefore, Function.update_idem]
    · rw [hcontents.uncommitted hbefore]
  · have hbefore : Committed i (h ++ [e]) → Committed i h :=
      fun hcommitted => (committed_snoc.mp hcommitted).resolve_right hlast
    refine ⟨fun hc => hcontents.fits (hbefore hc), fun hc => ?_, content_uncommitted⟩
    rw [after_snoc, content_note hlast]
    exact hcontents.committed (hbefore hc)

/-- The run lemma. -/
theorem contents_of_guarded
    (hguard : Guarded (fun h c => CommitsPadded M (after D h) c) h) : Contents M D h i := by
  induction h using List.reverseRecOn with
  | nil =>
    have hnone : ¬Committed i [] := fun ⟨_, _, hmem, _⟩ => absurd hmem List.not_mem_nil
    exact ⟨fun h => absurd h hnone, fun h => absurd h hnone, fun _ => rfl⟩
  | append_singleton h e ih =>
    obtain ⟨hbefore, hlast⟩ := guarded_snoc_iff.mp hguard
    exact (ih hbefore).event hlast

end Histories

def Media.Serves (M : Media) (env : FirmwareEnv) : Prop :=
  ∀ h c r, env h c = some r → M.relies c r

theorem guarded_entryPoint {M : Media} {D : Fleet} {env : FirmwareEnv}
    (hserves : Media.Serves M env) (hstaging : ∀ i, (D i).staging.length = targetUploadBytes)
    (imageHandle : Handle) :
    Guarded (fun h c => CommitsPadded M (after D h) c) ((entryPoint imageHandle).run env []).1 := by
  have hadmits : (writes M D).contract.Admits env := fun h c r hr => ⟨hserves h c r hr, trivial⟩
  exact ((steps_entryPoint imageHandle hstaging).sound hadmits).1

/-- Power may fail at any moment of a run: every partition holds what it held, or it is BP1 behind a
controller that accepted a commit, and holds the whole padded image. -/
theorem entryPoint_atomic {M : Media} {D : Fleet} {env : FirmwareEnv} (hserves : Media.Serves M env)
    (hstaging : ∀ i, (D i).staging.length = targetUploadBytes) (imageHandle : Handle) :
    ∀ h, h <+: ((entryPoint imageHandle).run env []).1 → ∀ i, Contents M D h i := by
  rintro h ⟨rest, hsplit⟩ i
  have hguard := guarded_entryPoint hserves hstaging imageHandle
  rw [← hsplit] at hguard
  exact contents_of_guarded (guarded_initial hguard)

def onesMedia : Media := ⟨fun _ => zeroHeadImage, zeroHeadImage, false⟩

def onesDevice : Device := ⟨zeroed targetUploadBytes, fun _ => List.replicate bpsizeBytes 1⟩

/-- Every command is accepted, and log pages are those of the devices as the commands left them. -/
def fleetEnv (D : Fleet) : FirmwareEnv := fun h c =>
  match c with
  | .passThruOn i p =>
    if IsLogPageRead p.command then
      some ⟨.success, 0, 0,
        Device.logPage (after D h i) (List.replicate 16 0) p.command⟩
    else some ⟨.success, 0, 0, []⟩
  | .fileGetInfo _ infoSize =>
    if infoSize = 0 then some (efiBufferTooSmall, 96, 0)
    else some (.success, 96, zeroHeadImage.length)
  | .gBSConnectControllerRecursive _ => some ()
  | .gBSAllocatePages _ => some (.success, 0x100000)
  | .gBSFreePages _ _ => some ()
  | c => zeroHeadEnv h c

def onesEnv : FirmwareEnv := fleetEnv fun _ => onesDevice

theorem fleetEnv_serves (D : Fleet) : Media.Serves onesMedia (fleetEnv D) := by
  intro h c r hr
  cases c with
  | fileOpen dir path =>
    cases path with
    | validationOsWim => exact fun _ => rfl
    | forceReflashFlag =>
      cases hr
      exact nofun
  | fileGetInfo file infoSize =>
    change (if infoSize = 0 then _ else _) = some r at hr
    split at hr
    · cases hr
      exact nofun
    · cases hr
      exact fun _ => rfl
  | fileRead file size =>
    cases hr
    exact fun _ => rfl
  | _ => trivial

theorem onesEnv_serves : Media.Serves onesMedia onesEnv := fleetEnv_serves _

theorem entryPoint_atomic_ones :
    Contents onesMedia (fun _ => onesDevice) ((entryPoint 0).run onesEnv []).1 1 :=
  entryPoint_atomic onesEnv_serves (fun _ => length_zeroed targetUploadBytes) 0 _
    (List.prefix_refl _) 1

end NvmeBpWriteDevice
