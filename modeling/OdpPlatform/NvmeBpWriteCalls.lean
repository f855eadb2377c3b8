import OdpPlatform.NvmeBpWrite

/-! # Which calls NvmeBpWrite makes where

The search for files and the buffers issue no command, and the write path never finds nothing to
do. -/
namespace NvmeBpWrite

open ByteBuffer InteractionContract FirmwareServices

def IsCommand : Call → Prop
  | .passThruOn _ _ => True
  | _ => False

def ChangesBp : Call → Prop
  | .passThruOn _ p =>
    p.command.opcode = nvmeAdminSetFeatures ∨ p.command.opcode = nvmeAdminFirmwareImageDownload ∨
      p.command.opcode = nvmeAdminFirmwareCommit
  | _ => False

def IsSkip : Call → Prop
  | .note .nothingToDo => True
  | _ => False

def Quiet (c : Call) : Prop := ¬IsCommand c ∧ ¬IsSkip c

theorem ChangesBp.isCommand {c : Call} (hc : ChangesBp c) : IsCommand c := by
  cases c with
  | passThruOn => trivial
  | _ => exact hc

def Seeks (path : FilePath) (c : Call) : Prop :=
  Quiet c ∧ ∀ dir opened, c = .fileOpen dir opened → opened = path

theorem Seeks.quiet {path : FilePath} {c : Call} (hc : Seeks path c) : Quiet c := hc.1

theorem seeks_connectEveryHandle (path : FilePath) : Only (Seeks path) connectEveryHandle := by
  apply only_ask_bind ⟨⟨nofun, nofun⟩, nofun⟩
  intro ⟨status, everyHandle⟩
  dsimp only
  split
  · trivial
  · have hstep : ∀ (_ : Unit) (handle : Handle),
        Only (Seeks path) (ask (.gBSConnectControllerRecursive handle)) :=
      fun _ _ => (only_call _).mpr ⟨⟨nofun, nofun⟩, nofun⟩
    exact (Only.foldlM hstep everyHandle ()).bind fun _ =>
      (only_call _).mpr ⟨⟨nofun, nofun⟩, nofun⟩

theorem quiet_connectEveryHandle : Only Quiet connectEveryHandle :=
  (seeks_connectEveryHandle wimFilePath).mono fun _ => Seeks.quiet

theorem seeks_openOnVolume (closeFound : Bool) (path : FilePath) (handle : Handle) :
    Only (Seeks path) (openOnVolume closeFound path handle) := by
  apply only_ask_bind ⟨⟨nofun, nofun⟩, nofun⟩
  intro ⟨status, cand⟩
  dsimp only
  split
  · trivial
  apply only_ask_bind ⟨⟨nofun, nofun⟩, nofun⟩
  intro ⟨status, candRoot⟩
  dsimp only
  split
  · trivial
  apply only_ask_bind ⟨⟨nofun, nofun⟩, fun _ _ hopen => (Call.fileOpen.inj hopen).2.symm⟩
  intro ⟨status, file⟩
  dsimp only
  split
  · exact only_ask_bind ⟨⟨nofun, nofun⟩, nofun⟩ fun _ => trivial
  split
  · apply only_ask_bind ⟨⟨nofun, nofun⟩, nofun⟩
    exact fun _ => only_ask_bind ⟨⟨nofun, nofun⟩, nofun⟩ fun _ => trivial
  · exact only_ask_bind ⟨⟨nofun, nofun⟩, nofun⟩ fun _ => trivial

theorem seeks_searchVolumes (closeFound : Bool) (path : FilePath) (handles : List Handle) :
    Only (Seeks path) (searchVolumes closeFound path handles) := by
  induction handles with
  | nil => trivial
  | cons handle rest ih =>
    apply (seeks_openOnVolume closeFound path handle).bind
    intro r
    cases r with
    | none => exact ih
    | some file => trivial

theorem seeks_openOnAnyVolume (closeFound : Bool) (path : FilePath) (imageHandle : Handle) :
    Only (Seeks path) (openOnAnyVolume closeFound path imageHandle) := by
  apply only_ask_bind ⟨⟨nofun, nofun⟩, nofun⟩
  intro ⟨status, loadHandle⟩
  dsimp only
  split
  · trivial
  apply (seeks_connectEveryHandle path).bind
  intro _
  apply only_ask_bind ⟨⟨nofun, nofun⟩, nofun⟩
  intro ⟨status, fsHandles⟩
  dsimp only
  split
  · trivial
  apply (seeks_searchVolumes closeFound path _).bind
  intro found
  cases found with
  | some file => exact only_ask_bind ⟨⟨nofun, nofun⟩, nofun⟩ fun _ => trivial
  | none =>
    apply (seeks_searchVolumes closeFound path _).bind
    intro found
    exact only_ask_bind ⟨⟨nofun, nofun⟩, nofun⟩ fun _ => trivial

theorem quiet_openOnAnyVolume (closeFound : Bool) (path : FilePath) (imageHandle : Handle) :
    Only Quiet (openOnAnyVolume closeFound path imageHandle) :=
  (seeks_openOnAnyVolume closeFound path imageHandle).mono fun _ => Seeks.quiet

theorem quiet_fileExistsOnAnyVolume (imageHandle : Handle) (path : FilePath) :
    Only Quiet (fileExistsOnAnyVolume imageHandle path) := by
  apply (quiet_openOnAnyVolume true path imageHandle).bind
  intro r
  cases r <;> trivial

theorem quiet_fileSize (wim : Interface) : Only Quiet (fileSize wim) := by
  apply only_ask_bind ⟨nofun, nofun⟩
  intro ⟨status, infoSize, _⟩
  dsimp only
  split
  · exact only_ask_bind ⟨nofun, nofun⟩ fun _ => trivial
  apply only_ask_bind ⟨nofun, nofun⟩
  intro allocated
  split
  · exact only_ask_bind ⟨nofun, nofun⟩ fun _ => trivial
  apply only_ask_bind ⟨nofun, nofun⟩
  intro ⟨status, _, size⟩
  apply only_ask_bind ⟨nofun, nofun⟩
  intro _
  dsimp only
  split
  · exact only_ask_bind ⟨nofun, nofun⟩ fun _ => trivial
  · trivial

theorem quiet_readWhole (wim : Interface) (fileBytes chunkBytes : ℕ) :
    Only Quiet (readWhole wim fileBytes chunkBytes) := by
  unfold readWhole
  split
  · exact only_ask_bind ⟨nofun, nofun⟩ fun _ => trivial
  split
  · exact only_ask_bind ⟨nofun, nofun⟩ fun _ => trivial
  apply only_ask_bind ⟨nofun, nofun⟩
  intro ⟨status, pageAddr⟩
  dsimp only
  split
  · exact only_ask_bind ⟨nofun, nofun⟩ fun _ => trivial
  apply only_ask_bind ⟨nofun, nofun⟩
  intro ⟨status, data⟩
  apply only_ask_bind ⟨nofun, nofun⟩
  intro _
  dsimp only
  split
  · exact only_ask_bind ⟨nofun, nofun⟩ fun _ => trivial
  split
  · exact only_ask_bind ⟨nofun, nofun⟩ fun _ => trivial
  · trivial

theorem quiet_loadWimIntoBuffer (imageHandle : Handle) (path : FilePath) (chunkBytes : ℕ) :
    Only Quiet (loadWimIntoBuffer imageHandle path chunkBytes) := by
  apply (quiet_openOnAnyVolume false path imageHandle).bind
  intro r
  rcases r with status | _ | wim
  · trivial
  · trivial
  apply (quiet_fileSize wim).bind
  intro size
  cases size with
  | error status => trivial
  | ok fileBytes => exact quiet_readWhole wim fileBytes chunkBytes

theorem seeks_readWimHead (imageHandle : Handle) (path : FilePath) (headBytes : ℕ) :
    Only (Seeks path) (readWimHead imageHandle path headBytes) := by
  apply (seeks_openOnAnyVolume false path imageHandle).bind
  intro r
  rcases r with status | _ | wim
  · trivial
  · trivial
  apply only_ask_bind ⟨⟨nofun, nofun⟩, nofun⟩
  intro ⟨status, data⟩
  apply only_ask_bind ⟨⟨nofun, nofun⟩, nofun⟩
  intro _
  split <;> trivial

theorem quiet_readWimHead (imageHandle : Handle) (path : FilePath) (headBytes : ℕ) :
    Only Quiet (readWimHead imageHandle path headBytes) :=
  (seeks_readWimHead imageHandle path headBytes).mono fun _ => Seeks.quiet

theorem seeks_allocateHeads (path : FilePath) : Only (Seeks path) allocateHeads := by
  apply only_ask_bind ⟨⟨nofun, nofun⟩, nofun⟩
  intro wimHead
  apply only_ask_bind ⟨⟨nofun, nofun⟩, nofun⟩
  intro bpHead
  cases wimHead <;> cases bpHead
  · trivial
  · exact only_ask_bind ⟨⟨nofun, nofun⟩, nofun⟩ fun _ => trivial
  · exact only_ask_bind ⟨⟨nofun, nofun⟩, nofun⟩ fun _ => trivial
  · trivial

theorem quiet_allocateHeads : Only Quiet allocateHeads :=
  (seeks_allocateHeads wimFilePath).mono fun _ => Seeks.quiet

theorem seeks_freeHeads (path : FilePath) : Only (Seeks path) freeHeads :=
  only_ask_bind ⟨⟨nofun, nofun⟩, nofun⟩ fun _ => (only_call _).mpr ⟨⟨nofun, nofun⟩, nofun⟩

theorem quiet_freeHeads : Only Quiet freeHeads :=
  (seeks_freeHeads wimFilePath).mono fun _ => Seeks.quiet

theorem seeks_clearBootNext (path : FilePath) : Only (Seeks path) clearBootNext :=
  only_ask_bind ⟨⟨nofun, nofun⟩, nofun⟩ fun _ => trivial

theorem quiet_clearBootNext : Only Quiet clearBootNext :=
  (seeks_clearBootNext wimFilePath).mono fun _ => Seeks.quiet

theorem seeks_coldReset (path : FilePath) : Only (Seeks path) coldReset :=
  (seeks_clearBootNext path).bind fun _ =>
    only_ask_bind ⟨⟨nofun, nofun⟩, nofun⟩ fun _ => trivial

theorem quiet_coldReset : Only Quiet coldReset :=
  (seeks_coldReset wimFilePath).mono fun _ => Seeks.quiet

def Unskipped (c : Call) : Prop := ¬IsSkip c

theorem Quiet.unskipped {c : Call} (hc : Quiet c) : Unskipped c := hc.2

theorem unskipped_writeResultToNvRam (gResult : BpResult) :
    Only Unskipped (writeResultToNvRam gResult) := only_ask_bind nofun fun _ => trivial

theorem unskipped_queryIdentifyController (passThru : Interface) :
    Only Unskipped (queryIdentifyController passThru) := by
  apply only_ask_bind nofun
  intro allocated
  split
  · trivial
  apply only_ask_bind nofun
  intro completion
  apply only_ask_bind nofun
  intro _
  split
  · trivial
  split <;> trivial

theorem unskipped_downloadLoop (passThru : Interface) (wim : Bytes) (chunkBytes chunks offset : ℕ)
    (last : CompletionEntry) :
    Only Unskipped (downloadLoop passThru wim chunkBytes chunks offset last) := by
  induction chunks generalizing offset last with
  | zero => trivial
  | succ chunks ih =>
    apply only_ask_bind nofun
    intro completion
    split
    · trivial
    · exact ih _ _

theorem unskipped_commitPhase (gResult : BpResult) (passThru : Interface) (wim : WimBuffer) :
    Only Unskipped (commitPhase gResult passThru wim) := by
  apply (unskipped_writeResultToNvRam _).bind
  intro _
  apply only_ask_bind nofun
  intro completion
  apply (unskipped_writeResultToNvRam _).bind
  intro _
  apply only_ask_bind nofun
  intro _
  split <;> trivial

theorem unskipped_uploadPhase (gResult : BpResult) (passThru : Interface) (wim : WimBuffer)
    (chunkBytes : ℕ) (unlock : CompletionEntry) :
    Only Unskipped (uploadPhase gResult passThru wim chunkBytes unlock) := by
  apply (unskipped_downloadLoop passThru wim.content chunkBytes _ 0 unlock).bind
  intro phaseA
  apply (unskipped_writeResultToNvRam _).bind
  intro _
  split
  · exact only_ask_bind nofun fun _ => trivial
  · exact unskipped_commitPhase _ passThru wim

theorem unskipped_unlockPhase (gResult : BpResult) (passThru : Interface) :
    Only Unskipped (unlockPhase gResult passThru) := by
  apply only_ask_bind nofun
  intro before
  apply only_ask_bind nofun
  intro unlock
  apply (unskipped_writeResultToNvRam _).bind
  intro _
  apply only_ask_bind nofun
  intro after
  exact (unskipped_writeResultToNvRam _).bind fun _ => trivial

theorem unskipped_writeBpTestPattern (imageHandle : Handle) (gResult : BpResult)
    (passThru : Interface) : Only Unskipped (writeBpTestPattern imageHandle gResult passThru) := by
  apply (unskipped_queryIdentifyController passThru).bind
  intro identified
  have hload := quiet_loadWimIntoBuffer imageHandle wimFilePath (chunkSize identified)
  refine (hload.mono fun _ => Quiet.unskipped).bind fun loaded => ?_
  cases loaded with
  | error status => trivial
  | ok wim =>
    apply (unskipped_writeResultToNvRam _).bind
    intro _
    apply (unskipped_unlockPhase _ passThru).bind
    intro ⟨gResult, unlock⟩
    dsimp only
    split
    · exact only_ask_bind nofun fun _ => trivial
    · exact unskipped_uploadPhase gResult passThru wim _ unlock

theorem unskipped_postWriteReadback (imageHandle : Handle) (passThru : Interface) :
    Only Unskipped (postWriteReadback imageHandle passThru) := by
  refine (quiet_allocateHeads.mono fun _ => Quiet.unskipped).bind fun allocated => ?_
  split
  · have hread := quiet_readWimHead imageHandle wimFilePath checkBytes
    refine (hread.mono fun _ => Quiet.unskipped).bind fun ⟨status, wimHead⟩ => ?_
    dsimp only
    split
    · exact quiet_freeHeads.mono fun _ => Quiet.unskipped
    · exact only_ask_bind nofun fun _ => quiet_freeHeads.mono fun _ => Quiet.unskipped
  · trivial

end NvmeBpWrite
