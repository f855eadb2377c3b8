import OdpPlatform.InteractionGrants
import OdpPlatform.NvmeBpWriteDeploy

/-! # Deployments that nothing refuses

Where one volume has the image, the controllers take their commands, and BP1 begins otherwise than
the image, EntryPoint comes to its reset with a commit accepted. -/
namespace NvmeBpWriteGranted

open ByteBuffer InteractionProgram InteractionContract InteractionMonitor InteractionGrants
open FirmwareServices BootPartitionDevice NvmeBpWrite NvmeBpWriteMedia NvmeBpWriteDevice
open NvmeBpWriteDeploy
open BootPartitionLayout (IsLogPageRead Device.logPage)

/-- The volume with the image, a controller that answers, and the partitions before the run. -/
structure Site where
  media : Media
  volume : Handle
  fs : Interface
  root : Interface
  controller : Handle
  fleet : Fleet
  long : checkBytes ≤ media.image.length
  fits : media.image.length ≤ targetUploadBytes
  staging : ∀ i, (fleet i).staging.length = targetUploadBytes
  partition : ∀ i, ((fleet i).content targetBpid.toUInt32).length = bpsizeBytes
  stale : media.forced = false → ∀ i,
    ((fleet i).content targetBpid.toUInt32).take checkBytes ≠ media.image.take checkBytes

/-- The flag is only looked for to force a reflash. -/
def Site.Wanted (S : Site) (path : FilePath) : Prop :=
  path = .forceReflashFlag → S.media.forced = true

def Asked : Call → Prop
  | .gRTSetVariable _ _ | .gBSSetWatchdogTimer _ | .gBSLoadedImageDevice _
  | .gBSLocateHandleBuffer _ | .gBSConnectControllerRecursive _ | .gBSHandleInterface _ _
  | .openVolume _ | .fileOpen _ _ | .fileGetInfo _ _ | .fileRead _ _ | .fileClose _
  | .allocateZeroPool _ | .freePool | .gBSAllocatePages _ | .gBSFreePages _ _
  | .passThruOn _ _ => True
  | _ => False

/-- What a controller grants. Log pages show the partition until a commit is accepted, and the
granularity divides the partition. -/
structure CommandGranted (S : Site) (committed : Bool) (i : Interface) (p : Packet)
    (c : CompletionEntry) : Prop where
  accepted : ChangesBp (.passThruOn i p) → Accepted c
  identified : p = identifyPacket →
    granularityBytes ((c.received identifyPacket).getD idCtrlOffsetFwug 0) ∣ targetUploadBytes
  shown : committed = false → IsLogPageRead p.command → c.status.isError = false ∧
    ∃ header : Bytes, header.length = 16 ∧ c.data = Device.logPage (S.fleet i) header p.command

def Site.grants (S : Site) (committed : Bool) : (c : Call) → Answer c → Prop
  | .gBSLoadedImageDevice _, (status, _) => status.isError = false
  | .gBSLocateHandleBuffer (.byProtocol .simpleFileSystem), (status, handles) =>
    status.isError = false ∧ S.volume ∈ handles
  | .gBSLocateHandleBuffer (.byProtocol .nvmExpressPassThru), (status, handles) =>
    status.isError = false ∧ S.controller ∈ handles
  | .gBSHandleInterface h .simpleFileSystem, (status, fs) =>
    h = S.volume → status.isError = false ∧ fs = S.fs
  | .gBSHandleInterface h .nvmExpressPassThru, (status, _) =>
    h = S.controller → status.isError = false
  | .openVolume fs, (status, root) => fs = S.fs → status.isError = false ∧ root = S.root
  | .fileOpen dir path, (status, _) => dir = S.root → S.Wanted path → status.isError = false
  | .fileGetInfo _ infoSize, (status, needed, _) =>
    if infoSize = 0 then status = efiBufferTooSmall ∧ needed ≠ 0 else status.isError = false
  | .fileRead _ _, (status, _) => status.isError = false
  | .allocateZeroPool _, allocated => allocated = true
  | .gBSAllocatePages _, (status, _) => status.isError = false
  | .passThruOn i p, c => CommandGranted S committed i p c
  | _, _ => True

def service (S : Site) : Monitor Answer Bool where
  start := false
  step committed
    | ⟨.passThruOn _ p, some c⟩ =>
      committed || (p.command.opcode == nvmeAdminFirmwareCommit && !rejected c)
    | _ => committed
  permits _ := Asked
  relies committed c r := S.media.relies c r ∧ S.grants committed c r

section Files

variable {S : Site} {s : Bool} {α : Type}

theorem step_harmless {c : Call} {r : Answer c} (hc : Harmless c) :
    (service S).step s ⟨c, some r⟩ = s := by
  cases c with
  | passThruOn i p =>
    have hcommit : ¬p.command.opcode = nvmeAdminFirmwareCommit := fun h => hc (.inr (.inr h))
    simp [service, hcommit]
  | _ => rfl

theorem achieves_ask_bind {c : Call} {f : Answer c → Firmware α} {Q : Bool → α → Prop}
    (hasked : Asked c) (hc : Harmless c)
    (hf : ∀ r, S.media.relies c r → S.grants s c r → Achieves (service S) Q (f r) s) :
    Achieves (service S) Q (ask c >>= f) s := by
  refine ⟨hasked, fun r hr => ?_⟩
  rw [step_harmless hc]
  exact hf r hr.1 hr.2

theorem achieves_foldlM {f : Unit → Handle → Firmware Unit}
    (hf : ∀ u handle, Achieves (service S) (Same s fun _ => True) (f u handle) s)
    (handles : List Handle) :
    Achieves (service S) (Same s fun _ => True) (handles.foldlM f ()) s := by
  induction handles with
  | nil => exact ⟨rfl, trivial⟩
  | cons handle rest ih =>
    rw [List.foldlM_cons]
    apply (hf () handle).bind
    rintro _ _ ⟨rfl, -⟩
    exact ih

theorem achieves_connectEveryHandle :
    Achieves (service S) (Same s fun _ => True) connectEveryHandle s := by
  refine achieves_ask_bind trivial nofun fun ⟨status, everyHandle⟩ _ _ => ?_
  dsimp only
  split
  · exact ⟨rfl, trivial⟩
  · apply (achieves_foldlM _ everyHandle).bind
    · rintro _ _ ⟨rfl, -⟩
      exact achieves_ask_bind trivial nofun fun _ _ _ => ⟨rfl, trivial⟩
    · intro _ handle
      exact achieves_ask_bind trivial nofun fun _ _ _ => ⟨rfl, trivial⟩

structure Finds (S : Site) (path : FilePath) (handles : List Handle) (r : Option Interface) :
    Prop where
  file : ∀ file, r = some file → S.media.Found path file
  found : S.volume ∈ handles → S.Wanted path → r ≠ none

theorem achieves_openOnVolume (closeFound : Bool) (path : FilePath) (handle : Handle) :
    Achieves (service S) (Same s (Finds S path [handle])) (openOnVolume closeFound path handle)
      s := by
  have hnone : ¬(handle = S.volume ∧ S.Wanted path) → Finds S path [handle] none := by
    intro hnot
    exact ⟨nofun, fun hmem hwanted => absurd ⟨(List.mem_singleton.mp hmem).symm, hwanted⟩ hnot⟩
  refine achieves_ask_bind trivial nofun fun ⟨status, cand⟩ _ hfs => ?_
  dsimp only
  split
  next herror => exact ⟨rfl, hnone fun h => by simp [(hfs h.1).1] at herror⟩
  refine achieves_ask_bind trivial nofun fun ⟨status, candRoot⟩ _ hroot => ?_
  dsimp only
  split
  next herror => exact ⟨rfl, hnone fun h => by simp [(hroot (hfs h.1).2).1] at herror⟩
  refine achieves_ask_bind trivial nofun fun ⟨status, file⟩ hopen hfile => ?_
  dsimp only
  split
  next herror =>
    refine achieves_ask_bind trivial nofun fun _ _ _ => ⟨rfl, hnone fun h => ?_⟩
    simp [hfile (hroot (hfs h.1).2).2 h.2] at herror
  next hstatus =>
    have hfound : Finds S path [handle] (some file) := by
      refine ⟨fun f hf => ?_, fun _ _ => nofun⟩
      cases hf
      exact hopen (Bool.eq_false_iff.mpr hstatus)
    split
    · refine achieves_ask_bind trivial nofun fun _ _ _ => ?_
      exact achieves_ask_bind trivial nofun fun _ _ _ => ⟨rfl, hfound⟩
    · exact achieves_ask_bind trivial nofun fun _ _ _ => ⟨rfl, hfound⟩

theorem achieves_searchVolumes (closeFound : Bool) (path : FilePath) (handles : List Handle) :
    Achieves (service S) (Same s (Finds S path handles)) (searchVolumes closeFound path handles)
      s := by
  induction handles with
  | nil => exact ⟨rfl, nofun, nofun⟩
  | cons handle rest ih =>
    apply (achieves_openOnVolume closeFound path handle).bind
    rintro _ found ⟨rfl, hfound⟩
    cases found with
    | some file => exact ⟨rfl, hfound.file, fun _ _ => nofun⟩
    | none =>
      refine ih.mono fun _ r ⟨hs, hr⟩ => ⟨hs, hr.file, fun hmem hwanted => ?_⟩
      rcases List.mem_cons.mp hmem with hhere | hrest
      · exact absurd rfl (hfound.found (List.mem_singleton.mpr hhere) hwanted)
      · exact hr.found hrest hwanted

theorem achieves_openOnAnyVolume (closeFound : Bool) (path : FilePath) (imageHandle : Handle) :
    Achieves (service S)
      (Same s fun r => ∃ found, r = .ok found ∧ Finds S path [S.volume] found)
      (openOnAnyVolume closeFound path imageHandle) s := by
  refine achieves_ask_bind trivial nofun fun ⟨status, loadHandle⟩ _ hloaded => ?_
  dsimp only
  rw [if_neg (Bool.eq_false_iff.mp hloaded)]
  apply achieves_connectEveryHandle.bind
  rintro _ _ ⟨rfl, -⟩
  refine achieves_ask_bind trivial nofun fun ⟨status, fsHandles⟩ _ hlocated => ?_
  dsimp only
  rw [if_neg (Bool.eq_false_iff.mp hlocated.1)]
  apply (achieves_searchVolumes closeFound path _).bind
  rintro _ found ⟨rfl, hfirst⟩
  cases found with
  | some file =>
    refine achieves_ask_bind trivial nofun fun _ _ _ => ⟨rfl, _, rfl, hfirst.file, ?_⟩
    exact fun _ _ => nofun
  | none =>
    apply (achieves_searchVolumes closeFound path _).bind
    rintro _ found ⟨rfl, hsecond⟩
    refine achieves_ask_bind trivial nofun fun _ _ _ => ⟨rfl, _, rfl, hsecond.file, ?_⟩
    intro _ hwanted
    by_cases hload : S.volume = loadHandle
    · refine absurd rfl (hfirst.found ?_ hwanted)
      exact List.mem_filter.mpr ⟨hlocated.2, by simpa using hload⟩
    · exact hsecond.found (List.mem_filter.mpr ⟨hlocated.2, by simpa using hload⟩) hwanted

/-- The flag file is found where a reflash is forced. -/
theorem achieves_fileExists (imageHandle : Handle) :
    Achieves (service S) (Same s (· = S.media.forced))
      (fileExistsOnAnyVolume imageHandle forceReflashFlagPath) s := by
  apply (achieves_openOnAnyVolume true forceReflashFlagPath imageHandle).bind
  rintro _ _ ⟨rfl, found, rfl, hfound⟩
  refine ⟨rfl, ?_⟩
  cases found with
  | some file => exact (hfound.file file rfl).symm
  | none =>
    cases hforced : S.media.forced with
    | false => rfl
    | true => exact absurd rfl (hfound.found List.mem_cons_self fun _ => hforced)

theorem achieves_openImage (imageHandle : Handle) :
    Achieves (service S)
      (Same s fun r => ∃ wim, r = .ok (some wim) ∧ S.media.files wim = S.media.image)
      (openOnAnyVolume false wimFilePath imageHandle) s := by
  refine (achieves_openOnAnyVolume false wimFilePath imageHandle).mono ?_
  rintro _ _ ⟨rfl, found, rfl, hfound⟩
  cases found with
  | none => exact absurd rfl (hfound.found List.mem_cons_self nofun)
  | some wim => exact ⟨rfl, wim, rfl, hfound.file wim rfl⟩

theorem achieves_readWimHead (imageHandle : Handle) :
    Achieves (service S) (Same s (· = (.success, S.media.image.take checkBytes)))
      (readWimHead imageHandle wimFilePath checkBytes) s := by
  apply (achieves_openImage imageHandle).bind
  rintro _ _ ⟨rfl, wim, rfl, hfile⟩
  refine achieves_ask_bind trivial nofun fun ⟨status, data⟩ hread hok => ?_
  refine achieves_ask_bind trivial nofun fun _ _ _ => ?_
  rw [if_neg (Bool.eq_false_iff.mp hok)]
  refine ⟨rfl, ?_⟩
  rw [hread hok, hfile, List.take_take, Nat.min_self]

theorem achieves_fileSize (wim : Interface) :
    Achieves (service S) (Same s (· = .ok (S.media.files wim).length)) (fileSize wim) s := by
  refine achieves_ask_bind trivial nofun fun ⟨status, needed, _⟩ _ hsmall => ?_
  obtain ⟨rfl, hneeded⟩ := hsmall
  dsimp only
  rw [if_neg (not_not.mpr rfl)]
  refine achieves_ask_bind trivial nofun fun allocated _ hallocated => ?_
  obtain rfl : allocated = true := hallocated
  rw [if_neg nofun]
  refine achieves_ask_bind trivial nofun fun ⟨status, _, size⟩ hinfo hok => ?_
  have hgot : status.isError = false := (if_neg hneeded).mp hok
  refine achieves_ask_bind trivial nofun fun _ _ _ => ?_
  dsimp only
  rw [if_neg (Bool.eq_false_iff.mp hgot), hinfo hgot]
  exact ⟨rfl, rfl⟩

theorem achieves_readWhole {wim : Interface} (hwim : S.media.files wim = S.media.image)
    {chunkBytes : ℕ} (hpos : 0 < chunkBytes) (hchunks : targetUploadBytes % chunkBytes = 0) :
    Achieves (service S) (Same s fun r => ∃ b, r = .ok b ∧ b.paddedBytes = targetUploadBytes)
      (readWhole wim S.media.image.length chunkBytes) s := by
  unfold readWhole
  rw [if_neg (Nat.not_lt.mpr S.fits), if_neg (not_not.mpr hchunks)]
  refine achieves_ask_bind trivial nofun fun ⟨status, pageAddr⟩ _ hpages => ?_
  dsimp only
  rw [if_neg (Bool.eq_false_iff.mp hpages)]
  refine achieves_ask_bind trivial nofun fun ⟨status, data⟩ hread hok => ?_
  refine achieves_ask_bind trivial nofun fun _ _ _ => ?_
  have hdata : data = S.media.image := by rw [hread hok, hwim, List.take_length]
  dsimp only
  rw [if_neg (Bool.eq_false_iff.mp hok), hdata, List.take_length, if_neg (not_not.mpr rfl)]
  refine ⟨rfl, _, rfl, ?_⟩
  dsimp only
  split
  · rfl
  next hlarge =>
    rw [Nat.le_antisymm S.fits (Nat.not_lt.mp hlarge), roundUpToChunk_target hpos hchunks]

theorem achieves_loadWim (imageHandle : Handle) {chunkBytes : ℕ} (hpos : 0 < chunkBytes)
    (hchunks : targetUploadBytes % chunkBytes = 0) :
    Achieves (service S) (Same s fun r => ∃ b, r = .ok b ∧ b.paddedBytes = targetUploadBytes)
      (loadWimIntoBuffer imageHandle wimFilePath chunkBytes) s := by
  apply (achieves_openImage imageHandle).bind
  rintro _ _ ⟨rfl, wim, rfl, hfile⟩
  apply (achieves_fileSize wim).bind
  rintro _ _ ⟨rfl, rfl⟩
  rw [hfile]
  exact achieves_readWhole hfile hpos hchunks

end Files

section Write

variable {S : Site} {s : Bool} {i : Interface}

/-- Where the transfer size is the smaller one, it is a power of two below 1 GiB. -/
theorem maxTransferBytes_divides {mdts : UInt8} (hlt : maxTransferBytes mdts < 2 ^ 20) :
    maxTransferBytes mdts ∣ targetUploadBytes := by
  have hwhole : targetUploadBytes = 2 ^ 30 := by decide
  have hpower : size4KB * 2 ^ mdts.toNat = 2 ^ (12 + mdts.toNat) := (Nat.pow_add 2 12 _).symm
  unfold maxTransferBytes at hlt ⊢
  split at hlt
  · exact absurd hlt (by decide)
  next hsome =>
    rw [if_neg hsome]
    split at hlt
    · exact absurd hlt (by decide)
    next hmdts =>
      rw [hpower] at hlt
      have hexp : 12 + mdts.toNat < 20 := (Nat.pow_lt_pow_iff_right (by decide)).mp hlt
      rw [if_neg hmdts, hpower, hwhole]
      exact Nat.pow_dvd_pow 2 (by omega)

theorem chunkSize_divides {fields : IdentifyFields}
    (hgranularity : granularityBytes fields.fwug ∣ targetUploadBytes) :
    chunkSize (.ok fields) ∣ targetUploadBytes := by
  rw [chunkSize]
  by_cases hle : granularityBytes fields.fwug ≤ maxTransferBytes fields.mdts
  · rwa [Nat.min_eq_left hle]
  · obtain ⟨k, -, hk, hgranular⟩ := granularityBytes_spec fields.fwug
    have hsize : size4KB = 2 ^ 12 := rfl
    have hlt := Nat.lt_of_not_le hle
    rw [Nat.min_eq_right hlt.le]
    rw [hgranular, hsize] at hlt
    exact maxTransferBytes_divides (by omega)

theorem achieves_queryIdentify :
    Achieves (service S) (Same s fun r => targetUploadBytes % chunkSize r = 0)
      (queryIdentifyController i) s := by
  have hdefault : ∀ status, targetUploadBytes % chunkSize (.error status) = 0 :=
    fun _ => show targetUploadBytes % size4KB = 0 by decide
  refine achieves_ask_bind trivial nofun fun allocated _ hallocated => ?_
  obtain rfl : allocated = true := hallocated
  rw [if_neg nofun]
  refine achieves_ask_bind trivial (harmless_identify i) fun c _ hc => ?_
  refine achieves_ask_bind trivial nofun fun _ _ _ => ?_
  split
  · exact ⟨rfl, hdefault _⟩
  split
  · exact ⟨rfl, hdefault _⟩
  · exact ⟨rfl, Nat.mod_eq_zero_of_dvd (chunkSize_divides (hc.identified rfl))⟩

theorem achieves_downloadLoop (wim : Bytes) (chunkBytes chunks : ℕ) :
    ∀ (off : ℕ) (last : CompletionEntry),
      Achieves (service S) (fun _ r => r.failure = none)
        (downloadLoop i wim chunkBytes chunks off last) s := by
  induction chunks generalizing s with
  | zero => exact fun _ _ => rfl
  | succ chunks ih =>
    intro off last
    refine Achieves.call_bind trivial fun c hc => ?_
    have haccepted := accepted_iff.mp (hc.2.accepted (.inr (.inl rfl)))
    rw [if_neg (Bool.eq_false_iff.mp haccepted)]
    exact ih _ _

theorem achieves_writeResult (gResult : BpResult) :
    Achieves (service S) (Same s fun _ => True) (writeResultToNvRam gResult) s :=
  achieves_ask_bind trivial nofun fun _ _ _ => ⟨rfl, trivial⟩

theorem achieves_commitPhase (gResult : BpResult) (wim : WimBuffer) :
    Achieves (service S) (fun s' _ => s' = true) (commitPhase gResult i wim) s := by
  apply (achieves_writeResult _).bind
  rintro s _ ⟨rfl, -⟩
  refine ⟨trivial, fun c hc => ?_⟩
  have hcommitted : (service S).step s ⟨.passThruOn i commitPacket, some c⟩ = true := by
    have haccepted := accepted_iff.mp (hc.2.accepted (changesBp_commit i))
    have hopcode : commitPacket.command.opcode = nvmeAdminFirmwareCommit := rfl
    simp [service, haccepted, hopcode]
  rw [hcommitted]
  apply (achieves_writeResult _).bind
  rintro _ _ ⟨rfl, -⟩
  refine achieves_ask_bind trivial nofun fun _ _ _ => ?_
  split <;> exact rfl

theorem achieves_uploadPhase (gResult : BpResult) (wim : WimBuffer) (chunkBytes : ℕ)
    (unlock : CompletionEntry) :
    Achieves (service S) (fun s' _ => s' = true) (uploadPhase gResult i wim chunkBytes unlock)
      s := by
  apply (achieves_downloadLoop wim.content chunkBytes _ 0 unlock).bind
  intro _ phaseA hcomplete
  apply (achieves_writeResult _).bind
  rintro _ _ ⟨rfl, -⟩
  rw [hcomplete]
  exact achieves_commitPhase _ wim

theorem achieves_unlockPhase (gResult : BpResult) :
    Achieves (service S) (Same s fun r => rejected r.2 = false) (unlockPhase gResult i) s := by
  refine achieves_ask_bind trivial (harmless_readWriteProtection i) fun before _ _ => ?_
  refine ⟨trivial, fun unlock hunlock => ?_⟩
  have haccepted := accepted_iff.mp (hunlock.2.accepted (changesBp_unlock i))
  have hsame : (service S).step s ⟨.passThruOn i unlockPacket, some unlock⟩ = s := by
    have hopcode : ¬unlockPacket.command.opcode = nvmeAdminFirmwareCommit := by decide
    simp [service, hopcode]
  rw [hsame]
  apply (achieves_writeResult _).bind
  rintro _ _ ⟨rfl, -⟩
  refine achieves_ask_bind trivial (harmless_readWriteProtection i) fun after _ _ => ?_
  apply (achieves_writeResult _).bind
  rintro _ _ ⟨rfl, -⟩
  exact ⟨rfl, haccepted⟩

theorem achieves_writeBpTestPattern (imageHandle : Handle) (gResult : BpResult) :
    Achieves (service S) (fun s' _ => s' = true) (writeBpTestPattern imageHandle gResult i) s := by
  apply achieves_queryIdentify.bind
  rintro _ identified ⟨rfl, hchunks⟩
  apply (achieves_loadWim imageHandle (chunkSize_spec identified).1 hchunks).bind
  rintro _ _ ⟨rfl, wim, rfl, -⟩
  apply (achieves_writeResult _).bind
  rintro _ _ ⟨rfl, -⟩
  apply (achieves_unlockPhase _).bind
  rintro _ ⟨gResult', unlock⟩ ⟨rfl, hunlocked⟩
  dsimp only
  rw [if_neg (Bool.eq_false_iff.mp hunlocked)]
  exact achieves_uploadPhase gResult' wim _ unlock

end Write

section Controllers

variable {S : Site} {s : Bool} {i : Interface}

theorem achieves_allocateHeads :
    Achieves (service S) (Same s (· = true)) allocateHeads s := by
  refine achieves_ask_bind trivial nofun fun wimHead _ hwimHead => ?_
  refine achieves_ask_bind trivial nofun fun bpHead _ hbpHead => ?_
  obtain rfl : wimHead = true := hwimHead
  obtain rfl : bpHead = true := hbpHead
  exact ⟨rfl, rfl⟩

theorem achieves_freeHeads : Achieves (service S) (Same s fun _ => True) freeHeads s := by
  refine achieves_ask_bind trivial nofun fun _ _ _ => ?_
  exact achieves_ask_bind trivial nofun fun _ _ _ => ⟨rfl, trivial⟩

theorem achieves_readBpHead_bind {α : Type} {f : CompletionEntry × Bytes → Firmware α}
    {Q : Bool → α → Prop}
    (hf : ∀ c, CommandGranted S s i headPacket c →
      Achieves (service S) Q (f (c, (c.received headPacket).drop lid15PreambleBytes)) s) :
    Achieves (service S) Q (readBpHead i >>= f) s := by
  rw [readBpHead_bind]
  refine ⟨trivial, fun c hc => ?_⟩
  rw [step_harmless (not_changesBp_headPacket i)]
  exact hf c hc.2

theorem achieves_postWriteReadback (imageHandle : Handle) :
    Achieves (service S) (Same s fun _ => True) (postWriteReadback imageHandle i) s := by
  apply achieves_allocateHeads.bind
  rintro _ _ ⟨rfl, rfl⟩
  rw [if_pos rfl]
  apply (achieves_readWimHead imageHandle).bind
  rintro _ _ ⟨rfl, rfl⟩
  dsimp only
  rw [if_neg (by simp [Status.isError, S.long])]
  exact achieves_readBpHead_bind fun _ _ => achieves_freeHeads

theorem achieves_writeAndReadBack (imageHandle : Handle) :
    Achieves (service S) (fun s' exit => s' = true ∧ exit = .leave)
      (writeAndReadBack imageHandle i) s := by
  apply (achieves_writeBpTestPattern imageHandle {}).bind
  rintro _ writeStatus rfl
  split
  · exact ⟨rfl, rfl⟩
  · apply (achieves_postWriteReadback imageHandle).bind
    rintro _ _ ⟨rfl, -⟩
    exact ⟨rfl, rfl⟩

/-- The stale head, or the flag, leads to the write. -/
theorem achieves_processController (imageHandle : Handle) :
    Achieves (service S) (fun s' exit => s' = true ∧ exit = .leave)
      (processController imageHandle S.media.forced i) false := by
  apply achieves_allocateHeads.bind
  rintro _ _ ⟨rfl, rfl⟩
  rw [if_neg nofun]
  apply (achieves_readWimHead imageHandle).bind
  rintro _ _ ⟨rfl, rfl⟩
  dsimp only
  rw [if_neg (by simp [Status.isError, S.long])]
  refine achieves_readBpHead_bind fun c hc => ?_
  obtain ⟨hok, header, hheader, hdata⟩ := hc.shown rfl (by decide)
  have hdiffers : ¬(compareMem ((c.received headPacket).drop lid15PreambleBytes)
      (S.media.image.take checkBytes) checkBytes = true ∧ S.media.forced = false) := by
    rintro ⟨hmatch, hunforced⟩
    rw [bpHead_shown (S.partition i) hheader hdata] at hmatch
    have hheads := eq_of_beq hmatch
    rw [List.take_take, List.take_take, Nat.min_self] at hheads
    exact S.stale hunforced i hheads
  dsimp only
  rw [if_neg (Bool.eq_false_iff.mp hok), if_neg hdiffers]
  apply achieves_freeHeads.bind
  rintro _ _ ⟨rfl, -⟩
  exact achieves_writeAndReadBack imageHandle

theorem achieves_controllerLoop (imageHandle : Handle) {handles : List Handle}
    (hcontroller : S.controller ∈ handles) :
    Achieves (service S) (fun s' _ => s' = true)
      (controllerLoop imageHandle S.media.forced handles) false := by
  induction handles with
  | nil => cases hcontroller
  | cons handle rest ih =>
    refine achieves_ask_bind trivial nofun fun ⟨status, passThru⟩ _ hfound => ?_
    dsimp only
    split
    next herror =>
      rcases List.mem_cons.mp hcontroller with hhere | hrest
      · exact absurd (hfound hhere.symm) (by simp [herror])
      · exact ih hrest
    · apply (achieves_processController imageHandle).bind
      rintro _ _ ⟨rfl, rfl⟩
      exact rfl

/-- EntryPoint before its reset. -/
def beforeReset (imageHandle : Handle) : Firmware Unit := do
  clearBootNext
  let _ ← ask (.gBSSetWatchdogTimer 0)
  let forceFromFlag ← fileExistsOnAnyVolume imageHandle forceReflashFlagPath
  let (status, handles) ← ask (.gBSLocateHandleBuffer (.byProtocol .nvmExpressPassThru))
  if status.isError = true then
    pure ()
  else
    controllerLoop imageHandle forceFromFlag handles
    ask .freePool

theorem entryPoint_eq (imageHandle : Handle) :
    entryPoint imageHandle = beforeReset imageHandle >>= fun _ => coldReset := by
  unfold entryPoint beforeReset
  simp only [bind_assoc]
  refine congrArg _ (funext fun _ => congrArg _ (funext fun _ => congrArg _ (funext fun _ => ?_)))
  refine congrArg _ (funext fun ⟨status, handles⟩ => ?_)
  dsimp only
  split
  · rfl
  · simp only [bind_assoc]

theorem achieves_beforeReset (imageHandle : Handle) :
    Achieves (service S) (fun s' _ => s' = true) (beforeReset imageHandle) false := by
  refine achieves_ask_bind trivial nofun fun _ _ _ => ?_
  refine achieves_ask_bind trivial nofun fun _ _ _ => ?_
  apply (achieves_fileExists imageHandle).bind
  rintro _ _ ⟨rfl, rfl⟩
  refine achieves_ask_bind trivial nofun fun ⟨status, handles⟩ _ hlocated => ?_
  dsimp only
  rw [if_neg (Bool.eq_false_iff.mp hlocated.1)]
  apply (achieves_controllerLoop imageHandle hlocated.2).bind
  rintro _ _ rfl
  exact achieves_ask_bind trivial nofun fun _ _ _ => rfl

end Controllers

section Deployment

variable {S : Site} {env : FirmwareEnv}

theorem serves_of_supplies (henv : Supplies (service S) env) : Media.Serves S.media env := by
  have hasked : ∀ {h c r}, Asked c → env h c = some r → S.media.relies c r := by
    intro h c r hc hr
    obtain ⟨r', hr', hrelies, -⟩ := henv h c hc
    cases hr.symm.trans hr'
    exact hrelies
  intro h c r hr
  cases c with
  | fileOpen => exact hasked trivial hr
  | fileGetInfo => exact hasked trivial hr
  | fileRead => exact hasked trivial hr
  | _ => trivial

theorem step_eq_true {s : Bool} {e : Event Answer} : (service S).step s e = true ↔ s = true ∨
    ∃ i p c, e = ⟨.passThruOn i p, some c⟩ ∧ p.command.opcode = nvmeAdminFirmwareCommit ∧
      Accepted c := by
  constructor
  · obtain ⟨c, a⟩ := e
    cases c with
    | passThruOn i p =>
      cases a with
      | none => exact .inl
      | some c =>
        intro hstep
        rcases Bool.or_eq_true_iff.mp hstep with hbefore | hnow
        · exact .inl hbefore
        · obtain ⟨hcommit, haccepted⟩ := Bool.and_eq_true_iff.mp hnow
          exact .inr ⟨i, p, c, rfl, eq_of_beq hcommit, accepted_iff.mpr (by simpa using haccepted)⟩
    | _ => exact .inl
  · rintro (rfl | ⟨i, p, c, rfl, hcommit, haccepted⟩)
    · obtain ⟨c, a⟩ := e
      cases c with
      | passThruOn i p => cases a <;> rfl
      | _ => rfl
    · simp [service, hcommit, accepted_iff.mp haccepted]

theorem state_eq_true {h : FirmwareTrace} :
    (service S).state h = true ↔ ∃ i, Committed i h := by
  induction h using List.reverseRecOn with
  | nil =>
    refine iff_of_false nofun ?_
    rintro ⟨_, _, _, hmem, -⟩
    exact List.not_mem_nil hmem
  | append_singleton h e ih =>
    rw [Monitor.state_snoc, step_eq_true, ih]
    simp only [committed_snoc, exists_or]

def Resets (h : FirmwareTrace) : Prop :=
  ∃ pre a, h = pre ++ [⟨.gRTResetSystem, a⟩]

theorem resets_coldReset (henv : Supplies (service S) env) (h : FirmwareTrace) :
    Resets (coldReset.run env h).1 := by
  obtain ⟨status, hstatus, -⟩ := henv h (.gRTSetVariable .bootNext []) trivial
  have hclear : clearBootNext.run env h =
      (h ++ [⟨.gRTSetVariable .bootNext [], some status⟩], some ()) :=
    Program.run_ask_some env h _ hstatus
  rw [coldReset, Program.run_bind_some env h hclear]
  cases hreset : env (h ++ [⟨.gRTSetVariable .bootNext [], some status⟩]) .gRTResetSystem with
  | none => exact ⟨_, none, congrArg Prod.fst (Program.run_ask_none env _ _ hreset)⟩
  | some u => exact ⟨_, some u, congrArg Prod.fst (Program.run_ask_some env _ _ hreset)⟩

theorem entryPoint_commits (henv : Supplies (service S) env) (imageHandle : Handle) :
    Resets ((entryPoint imageHandle).run env []).1 ∧
      ∃ i, Committed i ((entryPoint imageHandle).run env []).1 := by
  obtain ⟨h, u, hrun, hstate⟩ :=
    Achieves.run henv (h := []) (achieves_beforeReset (S := S) imageHandle)
  have hwhole : (entryPoint imageHandle).run env [] = coldReset.run env h := by
    rw [entryPoint_eq, Program.run_bind_some env [] hrun]
  obtain ⟨i, p, c, hmem, hcommit⟩ := state_eq_true.mp hstate
  rw [hwhole]
  exact ⟨resets_coldReset henv h, i, p, c, (Program.run_prefix env h coldReset).subset hmem, hcommit⟩

end Deployment

theorem ones_stale {m n : ℕ} (hm : 0 < m) (hn : 0 < n) :
    (List.replicate m (1 : UInt8)).take n ≠ (zeroed n ++ [1]).take n := by
  obtain ⟨m, rfl⟩ := Nat.exists_eq_succ_of_ne_zero hm.ne'
  obtain ⟨n, rfl⟩ := Nat.exists_eq_succ_of_ne_zero hn.ne'
  intro heq
  have hbyte := congrArg List.head? heq
  simp [zeroed, List.replicate_succ] at hbyte

def onesSite : Site where
  media := onesMedia
  volume := 1
  fs := 1
  root := 1
  controller := 1
  fleet _ := onesDevice
  long := by simp [onesMedia, zeroHeadImage]
  fits := by
    have hlength : zeroHeadImage.length = checkBytes + 1 := by simp [zeroHeadImage]
    change zeroHeadImage.length ≤ targetUploadBytes
    rw [hlength]
    decide
  staging _ := length_zeroed targetUploadBytes
  partition _ := List.length_replicate
  stale _ _ := ones_stale (by decide) (by decide)

theorem accepted_zero (data : Bytes) : Accepted ⟨.success, 0, 0, data⟩ :=
  ⟨rfl, by simp [CompletionEntry.sct, CompletionEntry.statusField],
    by simp [CompletionEntry.sc, CompletionEntry.statusField]⟩

theorem onesEnv_command (h : FirmwareTrace) (i : Interface) (p : Packet) :
    ∃ c, onesEnv h (.passThruOn i p) = some c ∧
      CommandGranted onesSite ((service onesSite).state h) i p c := by
  by_cases hread : IsLogPageRead p.command
  · refine ⟨_, if_pos hread, fun _ => accepted_zero _, ?_, ?_⟩
    · rintro rfl
      exact absurd hread (by decide)
    · intro hstate _
      have hnot : ¬Committed i h := by
        intro hcommitted
        exact Bool.noConfusion (hstate.symm.trans (state_eq_true.mpr ⟨i, hcommitted⟩))
      refine ⟨rfl, List.replicate 16 0, rfl, ?_⟩
      dsimp only
      rw [Device.logPage, Device.logPage, content_uncommitted hnot]
      rfl
  · refine ⟨_, if_neg hread, fun _ => accepted_zero _, fun _ => ?_, fun _ h => absurd h hread⟩
    exact ⟨targetUploadBytes / size4KB, by decide +kernel⟩

theorem onesEnv_supplies : Supplies (service onesSite) onesEnv := by
  intro h c hasked
  cases c with
  | passThruOn i p =>
    obtain ⟨c, hc, hgranted⟩ := onesEnv_command h i p
    exact ⟨c, hc, trivial, hgranted⟩
  | gBSLocateHandleBuffer search =>
    cases search with
    | allHandle => exact ⟨_, rfl, trivial, trivial⟩
    | byProtocol g =>
      cases g <;> exact ⟨_, rfl, trivial, by simp [Site.grants, onesSite, Status.isError]⟩
  | gBSHandleInterface handle g =>
    cases g <;> exact ⟨_, rfl, trivial, by simp [Site.grants, onesSite, Status.isError]⟩
  | openVolume fs => exact ⟨_, rfl, trivial, fun hfs => ⟨rfl, hfs⟩⟩
  | fileOpen dir path =>
    cases path with
    | validationOsWim => exact ⟨_, rfl, fun _ => rfl, fun _ _ => rfl⟩
    | forceReflashFlag =>
      exact ⟨_, rfl, fun hok => Bool.noConfusion hok, fun _ hwanted => Bool.noConfusion (hwanted rfl)⟩
  | fileGetInfo file infoSize =>
    by_cases hsize : infoSize = 0
    · exact ⟨_, if_pos hsize, fun hok => Bool.noConfusion hok, (if_pos hsize).mpr ⟨rfl, by decide⟩⟩
    · exact ⟨_, if_neg hsize, fun _ => rfl, (if_neg hsize).mpr rfl⟩
  | fileRead file size => exact ⟨_, rfl, fun _ => rfl, rfl⟩
  | gBSLoadedImageDevice _ => exact ⟨_, rfl, trivial, rfl⟩
  | allocateZeroPool _ => exact ⟨_, rfl, trivial, rfl⟩
  | gBSAllocatePages _ => exact ⟨_, rfl, trivial, rfl⟩
  | gRTSetVariable _ _ | gBSSetWatchdogTimer _ | gBSConnectControllerRecursive _ | fileClose _
  | freePool | gBSFreePages _ _ => exact ⟨_, rfl, trivial, trivial⟩
  | _ => exact hasked.elim

/-- A later boot of that machine, where the controller is the only one. -/
def laterEnv (D : Fleet) (i : Interface) : FirmwareEnv
  | _, .gBSHandleInterface _ .nvmExpressPassThru => some (.success, i)
  | h, c => fleetEnv D h c

end NvmeBpWriteGranted
