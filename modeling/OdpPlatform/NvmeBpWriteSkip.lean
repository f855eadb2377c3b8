import OdpPlatform.InteractionHistory
import OdpPlatform.NvmeBpWriteCalls

/-! # When NvmeBpWrite finds nothing to do

The controller loop skips the write on the heads alone: the last command before it stops is a log
page read of the boot partition, and what that read moved equals the head of the image. -/
namespace NvmeBpWrite

open ByteBuffer InteractionProgram InteractionContract InteractionHistory FirmwareServices

def headPacket : Packet := bpLogPagePacket targetBpid 0 (checkBytes + lid15PreambleBytes)

/-- The contents of the files and of BP1 behind each controller. -/
structure Storage where
  files : Interface → Bytes
  bp1 : Interface → Bytes
  bpSize : ∀ passThru, (bp1 passThru).length = bpsizeBytes

def Opened (h : FirmwareTrace) (path : FilePath) (file : Interface) : Prop :=
  ∃ dir status, status.isError = false ∧ ⟨.fileOpen dir path, some (status, file)⟩ ∈ h

def Untouched (h : FirmwareTrace) : Prop := ∀ e ∈ h, ¬ChangesBp e.call

/-- A file is read from its start; a log page read that completes without an error moves the
preamble and the partition, as long as nothing changed that. -/
def Storage.rely (storage : Storage) (h : FirmwareTrace) : (c : Call) → Answer c → Prop
  | .fileRead file size, (status, data) =>
    status.isError = false → data = (storage.files file).take size
  | .passThruOn passThru p, completion =>
    p = headPacket → Untouched h → completion.status.isError = false → completion.sct = 0 →
      completion.sc = 0 → ∃ preamble : Bytes, preamble.length = lid15PreambleBytes ∧
        completion.data.take p.transferLength =
          (preamble ++ storage.bp1 passThru).take p.transferLength
  | _, _ => True

/-- The last command read the head of BP1, and where it completed without an error, that is the
head of the image. -/
def SkipJustified (storage : Storage) (h : FirmwareTrace) : Prop :=
  ∃ passThru completion post file,
    SinceLast IsCommand h ⟨.passThruOn passThru headPacket, some completion⟩ post ∧
    Opened h wimFilePath file ∧ checkBytes ≤ (storage.files file).length ∧
    (completion.sct = 0 → completion.sc = 0 →
      (storage.bp1 passThru).take checkBytes = (storage.files file).take checkBytes)

def NotSkipped (h : FirmwareTrace) : Prop := ∀ e ∈ h, ¬IsSkip e.call

def Storage.contract (storage : Storage) : Contract Answer where
  guard h c :=
    (IsCommand c ∨ IsSkip c → NotSkipped h) ∧
      (IsSkip c → Untouched h ∧ SkipJustified storage h)
  rely := storage.rely

variable {storage : Storage} {h : FirmwareTrace} {α : Type}

theorem NotSkipped.snoc {e : Event Answer} (hnot : NotSkipped h) (he : ¬IsSkip e.call) :
    NotSkipped (h ++ [e]) := by
  intro x hx
  rcases List.mem_append.mp hx with hx | hx
  · exact hnot x hx
  · cases List.mem_singleton.mp hx
    exact he

theorem Opened.mono {h' : FirmwareTrace} {path : FilePath} {file : Interface}
    (hopen : Opened h path file) (hh : h <+: h') : Opened h' path file := by
  obtain ⟨dir, status, hstatus, hmem⟩ := hopen
  exact ⟨dir, status, hstatus, hh.subset hmem⟩

theorem Opened.snoc {path : FilePath} {file : Interface} (e : Event Answer)
    (hopen : Opened h path file) : Opened (h ++ [e]) path file :=
  hopen.mono (List.prefix_append h [e])

theorem Opened.here {path : FilePath} {dir file : Interface} {status : Status}
    (hstatus : ¬status.isError = true) :
    Opened (h ++ [⟨.fileOpen dir path, some (status, file)⟩]) path file :=
  ⟨dir, status, by simpa using hstatus, by simp⟩

structure Undecided (h : FirmwareTrace) : Prop where
  notSkipped : NotSkipped h
  untouched : Untouched h

theorem undecided_nil : Undecided [] where
  notSkipped _ he := absurd he List.not_mem_nil
  untouched _ he := absurd he List.not_mem_nil

theorem Undecided.snoc {e : Event Answer} (hund : Undecided h) (hskip : ¬IsSkip e.call)
    (hchange : ¬ChangesBp e.call) : Undecided (h ++ [e]) := by
  refine ⟨hund.notSkipped.snoc hskip, fun x hx => ?_⟩
  rcases List.mem_append.mp hx with hx | hx
  · exact hund.untouched x hx
  · cases List.mem_singleton.mp hx
    exact hchange

theorem Quiet.guard {c : Call} (hc : Quiet c) (h : FirmwareTrace) : storage.contract.guard h c := by
  constructor
  · rintro (hcommand | hskip)
    · exact absurd hcommand hc.1
    · exact absurd hskip hc.2
  · exact fun hskip => absurd hskip hc.2

theorem keeps_undecided {p : Firmware α} (hp : Only Quiet p) :
    Keeps storage.contract Undecided p :=
  hp.keeps (fun h _ _ hc => hc.guard h)
    fun _ _ _ hund hc => hund.snoc hc.2 fun hchange => hc.1 hchange.isCommand

theorem SkipJustified.snoc {e : Event Answer} (hskip : SkipJustified storage h)
    (he : ¬IsCommand e.call) : SkipJustified storage (h ++ [e]) := by
  obtain ⟨passThru, completion, post, file, hlast, hopen, hsize, hheads⟩ := hskip
  exact ⟨passThru, completion, _, file, hlast.snoc he, hopen.snoc e, hsize, hheads⟩

theorem keeps_justified {p : Firmware α} (hp : Only Quiet p) :
    Keeps storage.contract (fun h => Undecided h ∧ SkipJustified storage h) p := by
  apply hp.keeps fun h _ _ hc => hc.guard h
  intro h c r ⟨hund, hskip⟩ hc
  exact ⟨hund.snoc hc.2 fun hchange => hc.1 hchange.isCommand, hskip.snoc hc.1⟩

theorem meets_of_quiet {p : Firmware α} (hp : Only Quiet p) (h : FirmwareTrace) :
    Meets storage.contract (fun _ _ => True) p h :=
  hp.meets (fun h _ _ hc => hc.guard h) (fun _ _ _ _ _ => True.intro) True.intro

theorem meets_of_unskipped {p : Firmware α} (hp : Only Unskipped p) (hnot : NotSkipped h) :
    Meets storage.contract (fun h' _ => NotSkipped h') p h := by
  apply hp.meets _ _ hnot
  · exact fun h c hnot hc => ⟨fun _ => hnot, fun hskip => absurd hskip hc⟩
  · exact fun h c r hnot hc => hnot.snoc hc

theorem meets_quiet_bind {c : Call} {f : Answer c → Firmware α} {Q : FirmwareTrace → α → Prop}
    (hc : Quiet c)
    (hf : ∀ r, storage.rely h c r → Meets storage.contract Q (f r) (h ++ [⟨c, some r⟩])) :
    Meets storage.contract Q (ask c >>= f) h := ⟨hc.guard h, hf⟩

theorem opened_openOnVolume (closeFound : Bool) (path : FilePath) (handle : Handle)
    (h : FirmwareTrace) :
    Meets storage.contract (fun h' r => ∀ file, r = some file → Opened h' path file)
      (openOnVolume closeFound path handle) h := by
  refine meets_quiet_bind ⟨nofun, nofun⟩ fun ⟨status, cand⟩ _ => ?_
  dsimp only
  split
  · exact nofun
  refine meets_quiet_bind ⟨nofun, nofun⟩ fun ⟨status, candRoot⟩ _ => ?_
  dsimp only
  split
  · exact nofun
  refine meets_quiet_bind ⟨nofun, nofun⟩ fun ⟨status, file⟩ _ => ?_
  dsimp only
  split
  · exact meets_quiet_bind ⟨nofun, nofun⟩ fun _ _ => nofun
  next hstatus =>
    split
    · refine meets_quiet_bind ⟨nofun, nofun⟩ fun _ _ => ?_
      refine meets_quiet_bind ⟨nofun, nofun⟩ fun _ _ found hfound => ?_
      cases hfound
      exact ((Opened.here hstatus).snoc _).snoc _
    · refine meets_quiet_bind ⟨nofun, nofun⟩ fun _ _ found hfound => ?_
      cases hfound
      exact (Opened.here hstatus).snoc _

theorem opened_searchVolumes (closeFound : Bool) (path : FilePath) (handles : List Handle)
    (h : FirmwareTrace) :
    Meets storage.contract (fun h' r => ∀ file, r = some file → Opened h' path file)
      (searchVolumes closeFound path handles) h := by
  induction handles generalizing h with
  | nil => exact nofun
  | cons handle rest ih =>
    apply (opened_openOnVolume closeFound path handle h).bind
    intro h' r _ hopen
    cases r with
    | none => exact ih h'
    | some file => exact hopen

def SearchOutcome (path : FilePath) (h : FirmwareTrace) : Except Status (Option Interface) → Prop
  | .ok (some file) => Opened h path file
  | .ok none => True
  | .error status => status.isError = true

theorem opened_openOnAnyVolume (closeFound : Bool) (path : FilePath) (imageHandle : Handle)
    (h : FirmwareTrace) :
    Meets storage.contract (SearchOutcome path)
      (openOnAnyVolume closeFound path imageHandle) h := by
  refine meets_quiet_bind ⟨nofun, nofun⟩ fun ⟨status, loadHandle⟩ _ => ?_
  dsimp only
  split
  next hstatus => exact hstatus
  apply (meets_of_quiet quiet_connectEveryHandle _).bind
  intro h₁ _ _ _
  refine meets_quiet_bind ⟨nofun, nofun⟩ fun ⟨status, fsHandles⟩ _ => ?_
  dsimp only
  split
  next hstatus => exact hstatus
  apply (opened_searchVolumes closeFound path _ _).bind
  intro h₂ found _ hfound
  cases found with
  | some file => exact meets_quiet_bind ⟨nofun, nofun⟩ fun _ _ => (hfound file rfl).snoc _
  | none =>
    apply (opened_searchVolumes closeFound path _ h₂).bind
    intro h₃ found _ hfound
    refine meets_quiet_bind ⟨nofun, nofun⟩ fun _ _ => ?_
    cases found with
    | some file => exact (hfound file rfl).snoc _
    | none => trivial

def WimHead (storage : Storage) (h : FirmwareTrace) (wimHead : Bytes) : Prop :=
  ∃ file, Opened h wimFilePath file ∧ wimHead = (storage.files file).take checkBytes

theorem wimHead_readWimHead (imageHandle : Handle) (h : FirmwareTrace) :
    Meets storage.contract (fun h' r => r.1.isError = false → WimHead storage h' r.2)
      (readWimHead imageHandle wimFilePath checkBytes) h := by
  apply (opened_openOnAnyVolume false wimFilePath imageHandle h).bind
  intro h₁ r _ hopen
  rcases r with status | _ | wim
  · exact fun hok => absurd hopen (by simp [SearchOutcome, hok])
  · exact nofun
  refine meets_quiet_bind ⟨nofun, nofun⟩ fun ⟨status, data⟩ hread => ?_
  refine meets_quiet_bind ⟨nofun, nofun⟩ fun _ _ => ?_
  split
  next hstatus => exact fun hok => absurd hstatus (by simp [hok])
  next hstatus =>
    intro _
    refine ⟨wim, (hopen.snoc _).snoc _, ?_⟩
    rw [hread (by simpa using hstatus)]
    exact List.take_take ..

theorem not_changesBp_headPacket (passThru : Interface) :
    ¬ChangesBp (.passThruOn passThru headPacket) := by
  have hopcode : headPacket.command.opcode = nvmeAdminGetLogPage := rfl
  rw [ChangesBp, hopcode]
  decide

theorem headPacket_transferLength :
    headPacket.transferLength = lid15PreambleBytes + checkBytes := rfl

/-- The buffer behind the preamble is the head of the partition. -/
theorem bpHead_eq {completion : CompletionEntry} {preamble bp : Bytes}
    (hpreamble : preamble.length = lid15PreambleBytes) (hbp : bp.length = bpsizeBytes)
    (hdata : completion.data.take headPacket.transferLength =
      (preamble ++ bp).take headPacket.transferLength) :
    (completion.received headPacket).drop lid15PreambleBytes = bp.take checkBytes := by
  have hcheck : checkBytes ≤ bp.length := by rw [hbp]; decide
  have hmoved : (preamble ++ bp).take headPacket.transferLength =
      preamble ++ bp.take checkBytes := by
    rw [headPacket_transferLength, ← hpreamble]
    exact List.take_length_add_append checkBytes
  have hlength : (preamble ++ bp.take checkBytes).length = headPacket.buffer.length := by
    have hbuffer : headPacket.buffer.length = checkBytes + lid15PreambleBytes := length_zeroed _
    rw [List.length_append, List.length_take, hpreamble, hbuffer, Nat.min_eq_left hcheck]
    exact Nat.add_comm ..
  rw [CompletionEntry.received, hdata, hmoved, splice_full hlength, ← hpreamble]
  exact List.drop_left ..

theorem skipJustified_of_match {passThru : Interface} {completion : CompletionEntry}
    {wimHead : Bytes} (hund : Undecided h)
    (hrely : storage.rely h (.passThruOn passThru headPacket) completion)
    (hok : completion.status.isError = false) (hhead : WimHead storage h wimHead)
    (hsize : checkBytes ≤ wimHead.length)
    (hmatch : compareMem ((completion.received headPacket).drop lid15PreambleBytes) wimHead
      checkBytes = true) :
    SkipJustified storage (h ++ [⟨.passThruOn passThru headPacket, some completion⟩]) := by
  obtain ⟨file, hopen, rfl⟩ := hhead
  refine ⟨passThru, completion, [], file, .mark trivial, hopen.snoc _, ?_, fun hsct hsc => ?_⟩
  · exact hsize.trans (List.length_take_le' ..)
  · obtain ⟨preamble, hpreamble, hdata⟩ := hrely rfl hund.untouched hok hsct hsc
    have hheads := eq_of_beq hmatch
    rw [bpHead_eq hpreamble (storage.bpSize passThru) hdata] at hheads
    simpa only [List.take_take, Nat.min_self] using hheads

theorem readBpHead_bind {β : Type} (passThru : Interface)
    (f : CompletionEntry × Bytes → Firmware β) :
    readBpHead passThru >>= f = .ask (.passThruOn passThru headPacket) fun completion =>
      f (completion, (completion.received headPacket).drop lid15PreambleBytes) := rfl

/-- Whatever the contract, as long as it lets through what does not skip. -/
theorem leave_writeAndReadBack {K : Contract Answer}
    (hK : ∀ {β : Type} {p : Firmware β}, Only Unskipped p → ∀ h, NotSkipped h →
      Meets K (fun h' _ => NotSkipped h') p h)
    (imageHandle : Handle) (passThru : Interface) (hnot : NotSkipped h) :
    Meets K (fun _ exit => exit = .leave) (writeAndReadBack imageHandle passThru) h := by
  apply (hK (unskipped_writeBpTestPattern imageHandle {} passThru) h hnot).bind
  intro h₁ writeStatus _ hnot₁
  split
  · rfl
  · apply (hK (unskipped_postWriteReadback imageHandle passThru) h₁ hnot₁).bind
    exact fun _ _ _ _ => rfl

/-- One iteration: the loop goes on undecided, or it stops. -/
theorem undecided_processController (imageHandle : Handle) (forceFromFlag : Bool)
    (passThru : Interface) (hund : Undecided h) :
    Meets storage.contract (fun h' exit => exit = .next → Undecided h')
      (processController imageHandle forceFromFlag passThru) h := by
  apply (keeps_undecided quiet_allocateHeads h hund).bind
  intro h₁ allocated _ hund₁
  split
  · exact fun _ => hund₁
  have hread := quiet_readWimHead imageHandle wimFilePath checkBytes
  refine ((keeps_undecided hread h₁ hund₁).and (wimHead_readWimHead imageHandle h₁)).bind
    fun h₂ ⟨status, wimHead⟩ _ ⟨hund₂, hhead⟩ => ?_
  have hnext : ∀ h', Undecided h' → Meets storage.contract
      (fun h'' exit => exit = .next → Undecided h'') (freeHeads >>= fun _ => pure LoopExit.next)
      h' :=
    fun h' hund' => (keeps_undecided quiet_freeHeads h' hund').bind fun _ _ _ hund'' _ => hund''
  dsimp only
  split
  · exact hnext h₂ hund₂
  next hgood =>
    rw [not_or, Bool.not_eq_true, Nat.not_lt] at hgood
    rw [readBpHead_bind]
    refine ⟨⟨fun _ => hund₂.notSkipped, nofun⟩, fun completion hrely => ?_⟩
    have hund₃ : Undecided (h₂ ++ [⟨.passThruOn passThru headPacket, some completion⟩]) :=
      hund₂.snoc nofun (not_changesBp_headPacket passThru)
    dsimp only
    split
    · exact hnext _ hund₃
    next hok =>
      split
      next hmatch =>
        have hskip := skipJustified_of_match hund₂ hrely (by simpa using hok) (hhead hgood.1)
          hgood.2 hmatch.1
        refine (keeps_justified quiet_freeHeads _ ⟨hund₃, hskip⟩).bind
          fun h₄ _ _ ⟨hund₄, hskip₄⟩ => ?_
        exact ⟨⟨fun _ => hund₄.notSkipped, fun _ => ⟨hund₄.untouched, hskip₄⟩⟩, nofun⟩
      · apply (keeps_undecided quiet_freeHeads _ hund₃).bind
        intro h₄ _ _ hund₄
        refine (leave_writeAndReadBack (fun hp _ hnot => meets_of_unskipped hp hnot) imageHandle
          passThru hund₄.notSkipped).mono ?_
        exact fun _ exit _ hleave hexit => absurd (hleave.symm.trans hexit) nofun

theorem meets_controllerLoop (imageHandle : Handle) (forceFromFlag : Bool) (handles : List Handle)
    (hund : Undecided h) :
    Meets storage.contract (fun _ _ => True) (controllerLoop imageHandle forceFromFlag handles)
      h := by
  induction handles generalizing h with
  | nil => trivial
  | cons handle rest ih =>
    refine meets_quiet_bind ⟨nofun, nofun⟩ fun ⟨status, passThru⟩ _ => ?_
    have hund₁ := hund.snoc (e := ⟨.gBSHandleInterface handle .nvmExpressPassThru,
      some (status, passThru)⟩) nofun nofun
    dsimp only
    split
    · exact ih hund₁
    · refine (undecided_processController imageHandle forceFromFlag passThru hund₁).bind
        fun h₂ exit _ hnext => ?_
      cases exit with
      | next => exact ih (hnext rfl)
      | leave => trivial

theorem meets_entryPoint (storage : Storage) (imageHandle : Handle) :
    Meets storage.contract (fun _ _ => True) (entryPoint imageHandle) [] := by
  apply (keeps_undecided quiet_clearBootNext [] undecided_nil).bind
  intro h₁ _ _ hund₁
  refine meets_quiet_bind ⟨nofun, nofun⟩ fun watchdog _ => ?_
  have hund₂ := hund₁.snoc (e := ⟨.gBSSetWatchdogTimer 0, some watchdog⟩) nofun nofun
  have hflag := quiet_fileExistsOnAnyVolume imageHandle forceReflashFlagPath
  apply (keeps_undecided hflag _ hund₂).bind
  intro h₃ forceFromFlag _ hund₃
  refine meets_quiet_bind ⟨nofun, nofun⟩ fun ⟨status, handles⟩ _ => ?_
  have hund₄ := hund₃.snoc (e := ⟨.gBSLocateHandleBuffer (.byProtocol .nvmExpressPassThru),
    some (status, handles)⟩) nofun nofun
  dsimp only
  split
  · exact meets_of_quiet quiet_coldReset _
  · apply (meets_controllerLoop imageHandle forceFromFlag handles hund₄).bind
    intro h₅ _ _ _
    exact meets_quiet_bind ⟨nofun, nofun⟩ fun _ _ => meets_of_quiet quiet_coldReset _

def OpensFlag (c : Call) : Prop := ∃ dir, c = .fileOpen dir forceReflashFlagPath

def FindsFlag (e : Event Answer) : Prop :=
  ∃ dir status file, e = ⟨.fileOpen dir forceReflashFlagPath, some (status, file)⟩ ∧
    status.isError = false

/-- The flag was not found on any volume. -/
def Flagless (h : FirmwareTrace) : Prop := ∀ e ∈ h, ¬FindsFlag e

theorem FindsFlag.opens {e : Event Answer} (he : FindsFlag e) : OpensFlag e.call := by
  obtain ⟨dir, status, file, rfl, -⟩ := he
  exact ⟨dir, rfl⟩

/-- Nothing is skipped behind the flag, and the flag is not looked for behind a skip. -/
def flagContract : Contract Answer :=
  .ofGuard fun h c => (IsSkip c → Flagless h) ∧ (OpensFlag c → NotSkipped h)

structure Searched (found : Bool) (h : FirmwareTrace) : Prop where
  notSkipped : NotSkipped h
  flagless : found = false → Flagless h

theorem Flagless.snoc {e : Event Answer} (hh : Flagless h) (he : ¬FindsFlag e) :
    Flagless (h ++ [e]) := by
  intro x hx
  rcases List.mem_append.mp hx with hx | hx
  · exact hh x hx
  · cases List.mem_singleton.mp hx
    exact he

theorem Searched.snoc {found : Bool} {e : Event Answer} (hs : Searched found h)
    (hskip : ¬IsSkip e.call) (hflag : ¬FindsFlag e) : Searched found (h ++ [e]) :=
  ⟨hs.notSkipped.snoc hskip, fun hfound => (hs.flagless hfound).snoc hflag⟩

theorem not_opensFlag {c : Call} (hc : Seeks wimFilePath c) : ¬OpensFlag c := by
  rintro ⟨dir, rfl⟩
  cases hc.2 dir _ rfl

theorem Seeks.flagGuard {c : Call} (hc : Seeks wimFilePath c) (h : FirmwareTrace) :
    flagContract.guard h c :=
  ⟨fun hskip => absurd hskip hc.1.2, fun hopen => absurd hopen (not_opensFlag hc)⟩

theorem keeps_searched {found : Bool} {p : Firmware α} (hp : Only (Seeks wimFilePath) p) :
    Keeps flagContract (Searched found) p :=
  hp.keeps (fun h _ _ hc => hc.flagGuard h)
    fun _ _ _ hs hc => hs.snoc hc.1.2 fun hfind => not_opensFlag hc hfind.opens

theorem flag_of_seeks {p : Firmware α} (hp : Only (Seeks wimFilePath) p) (h : FirmwareTrace) :
    Meets flagContract (fun _ _ => True) p h :=
  hp.meets (fun h _ _ hc => hc.flagGuard h) (fun _ _ _ _ _ => True.intro) True.intro

theorem flag_of_unskipped {p : Firmware α} (hp : Only Unskipped p) (hnot : NotSkipped h) :
    Meets flagContract (fun h' _ => NotSkipped h') p h :=
  hp.meets (fun _ _ hnot hc => ⟨fun hskip => absurd hskip hc, fun _ => hnot⟩)
    (fun _ _ _ hnot hc => hnot.snoc hc) hnot

theorem flag_ask_bind {c : Call} {f : Answer c → Firmware α} {Q : FirmwareTrace → α → Prop}
    (hskip : IsSkip c → Flagless h) (hopen : OpensFlag c → NotSkipped h)
    (hf : ∀ r, Meets flagContract Q (f r) (h ++ [⟨c, some r⟩])) :
    Meets flagContract Q (ask c >>= f) h := ⟨⟨hskip, hopen⟩, fun r _ => hf r⟩

/-- A quiet call other than opening the flag. -/
theorem search_ask_bind {found : Bool} {c : Call} {f : Answer c → Firmware α}
    {Q : FirmwareTrace → α → Prop} (hs : Searched found h) (hc : Quiet c)
    (hflag : ¬OpensFlag c)
    (hf : ∀ r, Searched found (h ++ [⟨c, some r⟩]) →
      Meets flagContract Q (f r) (h ++ [⟨c, some r⟩])) :
    Meets flagContract Q (ask c >>= f) h :=
  flag_ask_bind (fun hskip => absurd hskip hc.2) (fun _ => hs.notSkipped)
    fun r => hf r (hs.snoc hc.2 fun hfind => hflag hfind.opens)

theorem searched_openOnVolume (handle : Handle) (hs : Searched false h) :
    Meets flagContract (fun h' r => Searched r.isSome h')
      (openOnVolume true forceReflashFlagPath handle) h := by
  refine search_ask_bind hs ⟨nofun, nofun⟩ nofun fun ⟨status, cand⟩ hs₁ => ?_
  dsimp only
  split
  · exact hs₁
  refine search_ask_bind hs₁ ⟨nofun, nofun⟩ nofun fun ⟨status, candRoot⟩ hs₂ => ?_
  dsimp only
  split
  · exact hs₂
  refine flag_ask_bind nofun (fun _ => hs₂.notSkipped) fun ⟨status, file⟩ => ?_
  have hnot := hs₂.notSkipped.snoc (e := ⟨.fileOpen candRoot forceReflashFlagPath,
    some (status, file)⟩) nofun
  dsimp only
  split
  next herror =>
    -- the flag is not on this volume
    have hs₃ : Searched false _ := ⟨hnot, fun _ => (hs₂.flagless rfl).snoc fun hfind => by
      obtain ⟨dir, status', file', heq, hstatus⟩ := hfind
      cases heq
      exact Bool.noConfusion (hstatus.symm.trans herror)⟩
    exact search_ask_bind hs₃ ⟨nofun, nofun⟩ nofun fun _ hs₄ => hs₄
  · have hs₃ : Searched true _ := ⟨hnot, nofun⟩
    refine search_ask_bind hs₃ ⟨nofun, nofun⟩ nofun fun _ hs₄ => ?_
    exact search_ask_bind hs₄ ⟨nofun, nofun⟩ nofun fun _ hs₅ => hs₅

theorem searched_searchVolumes (handles : List Handle) (hs : Searched false h) :
    Meets flagContract (fun h' r => Searched r.isSome h')
      (searchVolumes true forceReflashFlagPath handles) h := by
  induction handles generalizing h with
  | nil => exact hs
  | cons handle rest ih =>
    apply (searched_openOnVolume handle hs).bind
    intro h' r _ hr
    cases r with
    | none => exact ih hr
    | some file => exact hr

/-- What the caller makes of the search. -/
def foundBy : Except Status (Option Interface) → Bool
  | .error _ => false
  | .ok found => found.isSome

theorem searched_openOnAnyVolume (imageHandle : Handle) (hs : Searched false h) :
    Meets flagContract (fun h' r => Searched (foundBy r) h')
      (openOnAnyVolume true forceReflashFlagPath imageHandle) h := by
  refine search_ask_bind hs ⟨nofun, nofun⟩ nofun fun ⟨status, loadHandle⟩ hs₁ => ?_
  dsimp only
  split
  · exact hs₁
  apply (keeps_searched (seeks_connectEveryHandle wimFilePath) _ hs₁).bind
  intro h₂ _ _ hs₂
  refine search_ask_bind hs₂ ⟨nofun, nofun⟩ nofun fun ⟨status, fsHandles⟩ hs₃ => ?_
  dsimp only
  split
  · exact hs₃
  apply (searched_searchVolumes _ hs₃).bind
  intro h₄ found _ hs₄
  cases found with
  | some file => exact search_ask_bind hs₄ ⟨nofun, nofun⟩ nofun fun _ hs₅ => hs₅
  | none =>
    apply (searched_searchVolumes _ hs₄).bind
    exact fun h₅ found _ hs₅ => search_ask_bind hs₅ ⟨nofun, nofun⟩ nofun fun _ hs₆ => hs₆

theorem searched_fileExistsOnAnyVolume (imageHandle : Handle) (hs : Searched false h) :
    Meets flagContract (fun h' r => Searched r h')
      (fileExistsOnAnyVolume imageHandle forceReflashFlagPath) h := by
  apply (searched_openOnAnyVolume imageHandle hs).bind
  intro h' r _ hr
  cases r <;> exact hr

/-- One iteration: nothing is skipped where the flag was found. -/
theorem searched_processController (imageHandle : Handle) {forceFromFlag : Bool}
    (passThru : Interface) (hs : Searched forceFromFlag h) :
    Meets flagContract (fun h' exit => exit = .next → Searched forceFromFlag h')
      (processController imageHandle forceFromFlag passThru) h := by
  apply (keeps_searched (seeks_allocateHeads wimFilePath) h hs).bind
  intro h₁ allocated _ hs₁
  split
  · exact fun _ => hs₁
  apply (keeps_searched (seeks_readWimHead imageHandle wimFilePath checkBytes) h₁ hs₁).bind
  intro h₂ ⟨status, wimHead⟩ _ hs₂
  have hnext : ∀ h', Searched forceFromFlag h' → Meets flagContract
      (fun h'' exit => exit = .next → Searched forceFromFlag h'')
      (freeHeads >>= fun _ => pure LoopExit.next) h' :=
    fun h' hs' => (keeps_searched (seeks_freeHeads wimFilePath) h' hs').bind
      fun _ _ _ hs'' _ => hs''
  dsimp only
  split
  · exact hnext h₂ hs₂
  rw [readBpHead_bind]
  refine ⟨⟨nofun, nofun⟩, fun completion _ => ?_⟩
  have hs₃ := hs₂.snoc (e := ⟨.passThruOn passThru headPacket, some completion⟩) nofun
    fun hfind => by
      obtain ⟨dir, hcall⟩ := hfind.opens
      cases hcall
  dsimp only
  split
  · exact hnext _ hs₃
  split
  next hmatch =>
    apply (keeps_searched (seeks_freeHeads wimFilePath) _ hs₃).bind
    intro h₄ _ _ hs₄
    exact flag_ask_bind (fun _ => hs₄.flagless hmatch.2) nofun fun _ => nofun
  · apply (keeps_searched (seeks_freeHeads wimFilePath) _ hs₃).bind
    intro h₄ _ _ hs₄
    refine (leave_writeAndReadBack (fun hp _ hnot => flag_of_unskipped hp hnot) imageHandle passThru
      hs₄.notSkipped).mono ?_
    exact fun _ exit _ hleave hexit => absurd (hleave.symm.trans hexit) nofun

theorem searched_controllerLoop (imageHandle : Handle) {forceFromFlag : Bool}
    (handles : List Handle) (hs : Searched forceFromFlag h) :
    Meets flagContract (fun _ _ => True) (controllerLoop imageHandle forceFromFlag handles) h := by
  induction handles generalizing h with
  | nil => trivial
  | cons handle rest ih =>
    refine search_ask_bind hs ⟨nofun, nofun⟩ nofun fun ⟨status, passThru⟩ hs₁ => ?_
    dsimp only
    split
    · exact ih hs₁
    · refine (searched_processController imageHandle passThru hs₁).bind fun h₂ exit _ hnext => ?_
      cases exit with
      | next => exact ih (hnext rfl)
      | leave => trivial

theorem flag_entryPoint (imageHandle : Handle) :
    Meets flagContract (fun _ _ => True) (entryPoint imageHandle) [] := by
  have hstart : Searched false [] :=
    ⟨fun _ he => absurd he List.not_mem_nil, fun _ _ he => absurd he List.not_mem_nil⟩
  apply (keeps_searched (seeks_clearBootNext wimFilePath) [] hstart).bind
  intro h₁ _ _ hs₁
  refine search_ask_bind hs₁ ⟨nofun, nofun⟩ nofun fun watchdog hs₂ => ?_
  apply (searched_fileExistsOnAnyVolume imageHandle hs₂).bind
  intro h₃ forceFromFlag _ hs₃
  refine search_ask_bind hs₃ ⟨nofun, nofun⟩ nofun fun ⟨status, handles⟩ hs₄ => ?_
  dsimp only
  split
  · exact flag_of_seeks (seeks_coldReset wimFilePath) _
  · apply (searched_controllerLoop imageHandle handles hs₄).bind
    intro h₅ _ _ _
    exact flag_ask_bind nofun nofun fun _ => flag_of_seeks (seeks_coldReset wimFilePath) _

variable {env : FirmwareEnv} {imageHandle : Handle}

theorem not_isCommand_of_isSkip {c : Call} (hc : IsSkip c) : ¬IsCommand c := by
  cases c with
  | passThruOn => exact hc.elim
  | _ => exact id

/-- Where a run finds nothing to do, no command comes after. -/
theorem run_splits_at_skip (hstorage : storage.contract.Admits env)
    (hreach : ∃ e ∈ ((entryPoint imageHandle).run env []).1, e.call = .note .nothingToDo) :
    ∃ pre post, ((entryPoint imageHandle).run env []).1 = pre ++ post ∧ Untouched pre ∧
      SkipJustified storage pre ∧ ∀ x ∈ post, ¬IsCommand x.call := by
  have hguarded := ((meets_entryPoint storage imageHandle).sound hstorage (guarded_nil _)).1
  obtain ⟨e, he, hcall⟩ := hreach
  obtain ⟨pre, post, hsplit⟩ := List.append_of_mem he
  have hskip : IsSkip e.call := by rw [hcall]; trivial
  obtain ⟨huntouched, hjustified⟩ := (hguarded pre e post hsplit).2 hskip
  refine ⟨pre, e :: post, hsplit, huntouched, hjustified, fun x hx hcommand => ?_⟩
  rcases List.mem_cons.mp hx with rfl | hx
  · exact not_isCommand_of_isSkip hskip hcommand
  · -- the guard lets no command follow a skip
    obtain ⟨mid, rest, rfl⟩ := List.append_of_mem hx
    have hnot := (hguarded (pre ++ e :: mid) x rest (by simp [hsplit])).1 (.inl hcommand)
    exact hnot e (by simp) hskip

theorem untouched_of_nothing_to_do (hstorage : storage.contract.Admits env)
    (hreach : ∃ e ∈ ((entryPoint imageHandle).run env []).1, e.call = .note .nothingToDo) :
    Untouched ((entryPoint imageHandle).run env []).1 := by
  obtain ⟨pre, post, hsplit, huntouched, -, hpost⟩ := run_splits_at_skip hstorage hreach
  rw [hsplit]
  intro x hx
  rcases List.mem_append.mp hx with hx | hx
  · exact huntouched x hx
  · exact fun hchange => hpost x hx hchange.isCommand

theorem flagless_of_nothing_to_do
    (hreach : ∃ e ∈ ((entryPoint imageHandle).run env []).1, e.call = .note .nothingToDo) :
    Flagless ((entryPoint imageHandle).run env []).1 := by
  have hguarded := (flag_entryPoint imageHandle).guarded env
  obtain ⟨e, he, hcall⟩ := hreach
  obtain ⟨pre, post, hsplit⟩ := List.append_of_mem he
  have hskip : IsSkip e.call := by rw [hcall]; trivial
  rw [hsplit]
  intro x hx hfind
  rcases List.mem_append.mp hx with hx | hx
  · exact (hguarded pre e post hsplit).1 hskip x hx hfind
  rcases List.mem_cons.mp hx with rfl | hx
  · obtain ⟨dir, hopen⟩ := hfind.opens
    cases hcall.symm.trans hopen
  · -- the guard lets nobody look for the flag behind a skip
    obtain ⟨mid, rest, rfl⟩ := List.append_of_mem hx
    have hnot := (hguarded (pre ++ e :: mid) x rest (by simp [hsplit])).2 hfind.opens
    exact hnot e (by simp) hskip

/-- A run that finds nothing to do has found no flag, and unlocks, downloads and commits nothing.
Its last command reads the head of BP1, and where the controller completed that without an error,
BP1 begins like the image. -/
theorem nothing_to_do_heads_equal (storage : Storage) (imageHandle : Handle) (env : FirmwareEnv)
    (hstorage : storage.contract.Admits env)
    (hreach : ∃ e ∈ ((entryPoint imageHandle).run env []).1, e.call = .note .nothingToDo) :
    Flagless ((entryPoint imageHandle).run env []).1 ∧
      Untouched ((entryPoint imageHandle).run env []).1 ∧
      SkipJustified storage ((entryPoint imageHandle).run env []).1 := by
  refine ⟨flagless_of_nothing_to_do hreach, untouched_of_nothing_to_do hstorage hreach, ?_⟩
  obtain ⟨pre, post, hsplit, -, hjustified, hpost⟩ := run_splits_at_skip hstorage hreach
  obtain ⟨passThru, completion, since, file, hlast, hopen, hsize, hheads⟩ := hjustified
  rw [hsplit]
  exact ⟨passThru, completion, _, file, hlast.append hpost,
    hopen.mono (List.prefix_append pre post), hsize, hheads⟩

def zeroHeadImage : Bytes := zeroed checkBytes ++ [1]

def zeroHeadStorage : Storage where
  files _ := zeroHeadImage
  bp1 _ := zeroed bpsizeBytes
  bpSize _ := length_zeroed bpsizeBytes

/-- One volume and one controller, both under handle 1. -/
def zeroHeadEnv : FirmwareEnv
  | _, .gRTSetVariable _ _ => some .success
  | _, .gBSSetWatchdogTimer _ => some .success
  | _, .gBSLoadedImageDevice _ => some (.success, 1)
  | _, .gBSLocateHandleBuffer .allHandle => some (efiNotFound, [])
  | _, .gBSLocateHandleBuffer (.byProtocol _) => some (.success, [1])
  | _, .gBSHandleInterface handle _ => some (.success, handle)
  | _, .openVolume fs => some (.success, fs)
  | _, .fileOpen dir .validationOsWim => some (.success, dir)
  | _, .fileOpen _ .forceReflashFlag => some (efiNotFound, 0)
  | _, .fileRead _ size => some (.success, zeroHeadImage.take size)
  | _, .fileClose _ => some ()
  | _, .allocateZeroPool _ => some true
  | _, .freePool => some ()
  | _, .passThruOn _ p => some ⟨.success, 0, 0, zeroed p.transferLength⟩
  | _, .note _ => some ()
  | _, _ => none

theorem take_zeroed {m n : ℕ} (h : m ≤ n) : (zeroed n).take m = zeroed m := by
  unfold zeroed
  rw [List.take_replicate, Nat.min_eq_left h]

theorem zeroed_append (m n : ℕ) : zeroed m ++ zeroed n = zeroed (m + n) := by
  unfold zeroed
  exact List.replicate_append_replicate ..

theorem zeroHeadEnv_admitted : zeroHeadStorage.contract.Admits zeroHeadEnv := by
  intro h c r hr
  cases c with
  | fileRead file size =>
    cases hr
    exact fun _ => rfl
  | passThruOn passThru p =>
    cases hr
    rintro rfl - - - -
    refine ⟨zeroed lid15PreambleBytes, length_zeroed _, ?_⟩
    have hsize : headPacket.transferLength ≤ lid15PreambleBytes + bpsizeBytes := by decide
    change (zeroed headPacket.transferLength).take _ = (zeroed _ ++ zeroed bpsizeBytes).take _
    rw [zeroed_append, take_zeroed hsize, take_zeroed le_rfl]
  | _ => trivial

def Call.isNothingToDo : Call → Bool
  | .note .nothingToDo => true
  | _ => false

theorem zeroHeadEnv_reaches :
    ∃ e ∈ ((entryPoint 0).run zeroHeadEnv []).1, e.call = .note .nothingToDo := by
  have hany : ((entryPoint 0).run zeroHeadEnv []).1.any (fun e => Call.isNothingToDo e.call) :=
    by decide +kernel
  obtain ⟨e, he, hskip⟩ := List.any_eq_true.mp hany
  refine ⟨e, he, ?_⟩
  unfold Call.isNothingToDo at hskip
  split at hskip
  next hcall => exact hcall
  · cases hskip

theorem nothing_to_do_heads_equal_zeroHead :
    Flagless ((entryPoint 0).run zeroHeadEnv []).1 ∧
      Untouched ((entryPoint 0).run zeroHeadEnv []).1 ∧
      SkipJustified zeroHeadStorage ((entryPoint 0).run zeroHeadEnv []).1 :=
  nothing_to_do_heads_equal zeroHeadStorage 0 zeroHeadEnv zeroHeadEnv_admitted zeroHeadEnv_reaches

/-- BP1 is all zeros, and the image has a one behind its head. -/
theorem skipped_without_image :
    ¬∀ (storage : Storage) (image bp1 : Bytes) (imageHandle : Handle) (env : FirmwareEnv),
      (∀ file, storage.files file = image) → (∀ passThru, storage.bp1 passThru = bp1) →
      checkBytes ≤ image.length → storage.contract.Admits env →
      Flagless ((entryPoint imageHandle).run env []).1 →
      (∃ e ∈ ((entryPoint imageHandle).run env []).1, e.call = .note .nothingToDo) →
      Untouched ((entryPoint imageHandle).run env []).1 →
      bp1 = padTo targetUploadBytes 0 image := by
  intro hclaim
  have huntouched := untouched_of_nothing_to_do zeroHeadEnv_admitted zeroHeadEnv_reaches
  have hlength : zeroHeadImage.length = checkBytes + 1 := by simp [zeroHeadImage]
  have hpadded : zeroHeadImage.length ≤ targetUploadBytes := by rw [hlength]; decide
  have heq := hclaim zeroHeadStorage zeroHeadImage (zeroed bpsizeBytes) 0 zeroHeadEnv (fun _ => rfl)
    (fun _ => rfl) (by omega) zeroHeadEnv_admitted (flagless_of_nothing_to_do zeroHeadEnv_reaches)
    zeroHeadEnv_reaches huntouched
  have hbyte : (zeroed bpsizeBytes)[checkBytes]? =
      (padTo targetUploadBytes 0 zeroHeadImage)[checkBytes]? := by rw [heq]
  have hinside : checkBytes < bpsizeBytes := by decide
  have hone : zeroHeadImage[checkBytes]? = some 1 := by simp [zeroHeadImage]
  have hzero : (zeroed bpsizeBytes)[checkBytes]? = some 0 := by
    unfold zeroed
    rw [List.getElem?_replicate, if_pos hinside]
  rw [hzero, getElem?_padTo checkBytes hpadded, if_pos (by omega), hone] at hbyte
  cases hbyte

end NvmeBpWrite
