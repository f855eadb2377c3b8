import OdpPlatform.SreRecoveryLoader

/-! # What SreRecoveryLoader stages and reports

The history is folded into the files that are open, the pages that are held, what has been read
into them, and the status of the last call that refused. -/
namespace SreLoaderStaging

open ByteBuffer InteractionProgram InteractionContract InteractionMonitor FirmwareServices
open SreLoaderServices SreRecoveryLoader
open NvmeBpWrite (int32Status efiPageSize fileSize)

/-- `asked`: pages were asked for. `pages` holds address and count, `record` is the result
variable. -/
structure Staging where
  opened : List Interface := []
  wimOpened : Bool := false
  size : Option UInt64 := none
  asked : Bool := false
  pages : Option (ℕ × ℕ) := none
  image : Option Bytes := none
  registered : Bool := false
  blame : Status := .success
  record : Bytes := []

def errorOf (status : Status) : Option Status := if status.isError = true then some status else none

/-- Why the loader gives up after this call; the first GetInfo has to refuse an empty buffer. -/
def refusal : Event LoaderAnswer → Option Status
  | ⟨.firmware (.gBSLoadedImageDevice _), some r⟩ => errorOf r.1
  | ⟨.firmware (.gBSHandleInterface _ _), some r⟩ => errorOf r.1
  | ⟨.firmware (.openVolume _), some r⟩ => errorOf r.1
  | ⟨.firmware (.fileOpen _ _), some r⟩ => errorOf r.1
  | ⟨.firmware (.fileGetInfo _ infoSize), some r⟩ =>
    if infoSize = 0 then some (if r.1.isError = true then r.1 else efiDeviceError) else errorOf r.1
  | ⟨.firmware (.allocateZeroPool _), some r⟩ => if r = true then none else some efiOutOfResources
  | ⟨.firmware (.gBSAllocatePages _), some r⟩ => errorOf r.1
  | ⟨.firmware (.fileRead _ n), some r⟩ =>
    if r.1.isError = true then some r.1
    else if (r.2.take n).length ≠ n then some efiDeviceError
    else none
  | ⟨.gBSLocateProtocol _, some r⟩ => errorOf r.1
  | ⟨.ramDiskRegister _ _ _, some r⟩ => errorOf r.1
  | _ => none

def advance (s : Staging) : Event LoaderAnswer → Staging
  | ⟨.firmware (.openVolume _), some r⟩ =>
    if r.1.isError = true then s else { s with opened := r.2 :: s.opened }
  | ⟨.firmware (.fileOpen _ _), some r⟩ =>
    if r.1.isError = true then s else { s with opened := r.2 :: s.opened, wimOpened := true }
  | ⟨.firmware (.fileGetInfo _ _), some r⟩ =>
    if r.1.isError = true then s else { s with size := some (UInt64.ofNat r.2.2) }
  | ⟨.firmware (.gBSAllocatePages n), some r⟩ =>
    if r.1.isError = true then { s with asked := true }
    else { s with asked := true, pages := some (r.2, n) }
  | ⟨.firmware (.fileRead _ n), some r⟩ =>
    if r.1.isError = true ∨ (r.2.take n).length ≠ n then s
    else { s with image := some (r.2.take n) }
  | ⟨.firmware (.fileClose f), _⟩ => { s with opened := s.opened.erase f }
  | ⟨.firmware (.gBSFreePages _ _), _⟩ => { s with pages := none }
  | ⟨.ramDiskRegister _ _ _, some r⟩ =>
    if r.1.isError = true then s else { s with registered := true }
  | ⟨.setResultVariable _ data, _⟩ => { s with record := data }
  | _ => s

def note (s : Staging) (e : Event LoaderAnswer) : Staging :=
  { advance s e with blame := (refusal e).getD s.blame }

def phaseOf (s : Staging) : SrePhase :=
  if s.image.isSome = true then .wimLoaded else if s.wimOpened = true then .wimOpened else .init

def recordOf (s : Staging) (phase : SrePhase) (lastEfiStatus : UInt32) : SreLoaderResult where
  phaseReached := phase
  ramDiskRegistered := if s.registered = true then 1 else 0
  wimFileBytes := (s.image.map List.length).getD 0
  ramDiskBaseAddr := if s.image.isSome = true then (s.pages.map Prod.fst).getD 0 else 0
  lastEfiStatus := lastEfiStatus

def Told (s : Staging) (data : Bytes) : Prop :=
  if s.registered = true then
    ∃ phase, (phase = .ramdiskReg ∨ phase = .done) ∧ data = (recordOf s phase 0).bytes
  else
    ∃ last, (last = 0 ∨ last = int32Status s.blame) ∧ data = (recordOf s (phaseOf s) last).bytes

/-- The last word: the staged RAM disk, or how far the loader came and what refused. -/
def Concluded (s : Staging) : Prop :=
  if s.registered = true then s.record = (recordOf s .done 0).bytes
  else s.record = (recordOf s (phaseOf s) (int32Status s.blame)).bytes

/-- The pages hold the file; only a size within a page of 2^64 gets too few of them. -/
def Backs (count size : ℕ) : Prop := size + efiPageSize ≤ 2 ^ 64 → size ≤ count * efiPageSize

def Permitted (s : Staging) : LoaderCall → Prop
  | .firmware (.fileOpen dir path) => dir ∈ s.opened ∧ path = .validationOsWim
  | .firmware (.fileGetInfo f _) => f ∈ s.opened
  | .firmware (.gBSAllocatePages n) =>
    s.asked = false ∧ s.pages = none ∧ ∃ size, s.size = some size ∧ n = pagesFor size
  | .firmware (.fileRead f n) =>
    f ∈ s.opened ∧ ∃ size address count, s.size = some size ∧ n = size.toNat ∧
      s.pages = some (address, count) ∧ Backs count n
  | .firmware (.fileClose f) => f ∈ s.opened
  | .firmware (.gBSFreePages address count) => s.pages = some (address, count) ∧ s.image = none
  | .ramDiskRegister base size content =>
    s.registered = false ∧ s.opened = [] ∧ ∃ count data, s.pages = some (base, count) ∧
      s.image = some data ∧ s.size = some (UInt64.ofNat data.length) ∧ size = data.length ∧
      content.take size = data ∧ Backs count size
  | .setResultVariable name data => name = .sreLoaderResult ∧ Told s data
  | .firmware .gRTResetSystem =>
    s.opened = [] ∧ (s.pages.isSome = true ↔ s.image.isSome = true) ∧ Concluded s
  | _ => True

def staging : Monitor LoaderAnswer Staging where
  start := {}
  step := note
  permits := Permitted

theorem steps_call_bind {α : Type} {c : LoaderCall} {f : LoaderAnswer c → Loader α} {s : Staging}
    {Q : Staging → α → Prop} (hc : Permitted s c)
    (hf : ∀ r, staging.Steps Q (f r) (note s ⟨c, some r⟩)) : staging.Steps Q (call c >>= f) s :=
  ⟨hc, fun r _ => hf r⟩

/-- A refused call leaves `refused` with its status to blame, an accepted one `next`. -/
theorem steps_status_bind {α : Type} {c : LoaderCall} {s : Staging} {Q : Staging → α → Prop}
    (status : LoaderAnswer c → Status) (refused : Staging) (next : LoaderAnswer c → Staging)
    {e : Status → Loader α} {g : LoaderAnswer c → Loader α} (hc : Permitted s c)
    (hnote : ∀ r, note s ⟨c, some r⟩ =
      if (status r).isError = true then { refused with blame := status r } else next r)
    (he : ∀ st, staging.Steps Q (e st) { refused with blame := st })
    (hg : ∀ r, staging.Steps Q (g r) (next r)) :
    staging.Steps Q
      (call c >>= fun r => if (status r).isError = true then e (status r) else g r) s := by
  refine steps_call_bind hc fun r => ?_
  rw [hnote]
  by_cases hstatus : (status r).isError = true
  · rw [if_pos hstatus, if_pos hstatus]
    exact he _
  · rw [if_neg hstatus, if_neg hstatus]
    exact hg r

theorem steps_openWim (imageHandle : Handle) {s : Staging} (hs : s.opened = []) :
    staging.Steps (fun s' r =>
        match r with
        | .error status => s' = { s with blame := status }
        | .ok wim => s' = { s with opened := [wim], wimOpened := true })
      (openWim imageHandle) s := by
  rw [openWim]
  refine steps_status_bind (e := fun st => pure (Except.error st)) Prod.fst s (fun _ => s)
    (c := .firmware (.gBSLoadedImageDevice imageHandle)) trivial ?_ (fun _ => rfl) ?_
  · rintro ⟨status, deviceHandle⟩
    simp only [note, advance, refusal, errorOf]
    split <;> rfl
  rintro ⟨-, deviceHandle⟩
  refine steps_status_bind (e := fun st => pure (Except.error st)) Prod.fst s (fun _ => s)
    (c := .firmware (.gBSHandleInterface deviceHandle .simpleFileSystem)) trivial ?_
    (fun _ => rfl) ?_
  · rintro ⟨status, sfs⟩
    simp only [note, advance, refusal, errorOf]
    split <;> rfl
  rintro ⟨-, sfs⟩
  refine steps_status_bind (e := fun st => pure (Except.error st)) Prod.fst s
    (fun r => { s with opened := [r.2] }) (c := .firmware (.openVolume sfs)) trivial ?_
    (fun _ => rfl) ?_
  · rintro ⟨status, root⟩
    simp only [note, advance, refusal, errorOf]
    split <;> simp [hs]
  rintro ⟨-, root⟩
  refine steps_call_bind ⟨List.mem_singleton.mpr rfl, rfl⟩ ?_
  rintro ⟨status, wim⟩
  by_cases hstatus : status.isError = true
  · have hnote : note { s with opened := [root] }
        ⟨.firmware (.fileOpen root .validationOsWim), some (status, wim)⟩ =
          { s with opened := [root], blame := status } := by
      simp [note, advance, refusal, errorOf, hstatus]
    rw [hnote]
    refine steps_call_bind (List.mem_singleton.mpr rfl) ?_
    intro _
    dsimp only
    rw [if_pos hstatus]
    simp [note, advance, refusal, hs]
  · have hnote : note { s with opened := [root] }
        ⟨.firmware (.fileOpen root .validationOsWim), some (status, wim)⟩ =
          { s with opened := [wim, root], wimOpened := true } := by
      simp [note, advance, refusal, errorOf, hstatus]
    rw [hnote]
    refine steps_call_bind (List.mem_cons_of_mem _ (List.mem_singleton.mpr rfl)) ?_
    intro _
    dsimp only
    rw [if_neg hstatus]
    have herase : [wim, root].erase root = [wim] := by
      by_cases heq : wim = root
      · simp [heq]
      · simp [heq]
    simp [note, advance, refusal, herase]

theorem steps_ask_bind {α : Type} {c : Call} {f : Answer c → Firmware α} {s : Staging}
    {Q : Staging → α → Prop} (hc : Permitted s (.firmware c))
    (hf : ∀ r, (staging.below firmware).Steps Q (f r) (note s ⟨.firmware c, some r⟩)) :
    (staging.below firmware).Steps Q (ask c >>= f) s :=
  ⟨hc, fun r _ => hf r⟩

/-- The file is closed on the way out, whatever the state was. -/
theorem steps_closeWim {α : Type} {wim : Interface} {a : α} {s : Staging}
    {Q : Staging → α → Prop} (hs : s.opened = [wim]) (hq : Q { s with opened := [] } a) :
    (staging.below firmware).Steps Q (do ask (.fileClose wim); pure a) s := by
  refine steps_ask_bind (c := .fileClose wim) (by simp [Permitted, hs]) ?_
  intro _
  have hnote : note s ⟨.firmware (.fileClose wim), some ()⟩ = { s with opened := [] } := by
    simp [note, advance, refusal, hs]
  rw [hnote]
  exact hq

theorem note_pool (s : Staging) (n : ℕ) (r : Bool) :
    ∃ blame, note s ⟨.firmware (.allocateZeroPool n), some r⟩ = { s with blame := blame } :=
  ⟨_, rfl⟩

theorem steps_fileSize (wim : Interface) {s : Staging} (hs : s.opened = [wim]) :
    staging.Steps (fun s' r =>
        match r with
        | .error status => ∃ size, s' = { s with opened := [], size := size, blame := status }
        | .ok n => ∃ blame, s' = { s with size := some (UInt64.ofNat n), blame := blame })
      (firmware.program (fileSize wim)) s := by
  apply Monitor.steps_program
  have hmem : wim ∈ s.opened := by rw [hs]; exact List.mem_singleton.mpr rfl
  refine steps_ask_bind hmem ?_
  rintro ⟨status, infoSize, size⟩
  obtain ⟨sized, hprobe⟩ : ∃ sized, note s ⟨.firmware (.fileGetInfo wim 0),
      some (status, infoSize, size)⟩ =
        { s with size := sized
                 blame := if status.isError = true then status else efiDeviceError } := by
    by_cases hstatus : status.isError = true
    · exact ⟨s.size, by simp [note, advance, refusal, hstatus]⟩
    · exact ⟨some (UInt64.ofNat size), by simp [note, advance, refusal, hstatus]⟩
  rw [hprobe]
  dsimp only
  by_cases hsmall : status ≠ efiBufferTooSmall
  · rw [if_pos hsmall]
    exact steps_closeWim hs ⟨sized, rfl⟩
  rw [if_neg hsmall]
  refine steps_ask_bind trivial ?_
  intro allocated
  by_cases hpool : allocated = false
  · rw [if_pos hpool]
    refine steps_closeWim ?_ ?_
    · simpa [note, advance] using hs
    · exact ⟨sized, by simp [note, advance, refusal, hpool]⟩
  rw [if_neg hpool]
  generalize (if status.isError = true then status else efiDeviceError) = probed
  obtain ⟨blame, hpooled⟩ := note_pool { s with size := sized, blame := probed } infoSize allocated
  rw [hpooled]
  refine steps_ask_bind hmem ?_
  rintro ⟨status, infoSize', size⟩
  refine steps_ask_bind trivial ?_
  intro _
  dsimp only
  by_cases hstatus : status.isError = true
  · rw [if_pos hstatus]
    refine steps_closeWim ?_ ?_
    · simpa [note, advance, hstatus] using hs
    · refine ⟨sized, ?_⟩
      by_cases hzero : infoSize = 0
      · simp [note, advance, refusal, hstatus, hzero]
      · simp [note, advance, refusal, errorOf, hstatus, hzero]
  · rw [if_neg hstatus]
    exact ⟨_, by simp [note, advance, hstatus]; rfl⟩

theorem backs_pagesFor (fileBytes : UInt64) : Backs (pagesFor fileBytes) fileBytes.toNat := by
  intro hroom
  have hpage : efiPageSize = 4096 := rfl
  have hfits : fileBytes.toNat + 4095 < 2 ^ 64 := by omega
  have hround : fileBytes + 4096 - 1 = fileBytes + 4095 := by
    rw [UInt64.sub_eq_add_neg, UInt64.add_assoc]
    rfl
  have hsum : (fileBytes + 4095).toNat = fileBytes.toNat + 4095 := by
    rw [UInt64.toNat_add]
    exact Nat.mod_eq_of_lt hfits
  rw [pagesFor, hround, UInt64.toNat_div, hsum, hpage]
  have hdivisor : (4096 : UInt64).toNat = 4096 := rfl
  rw [hdivisor]
  omega

/-- The whole file lies in pages that are still held, and no file is open. -/
structure Loaded (s : Staging) (wim : WimPages) : Prop where
  opened : s.opened = []
  pages : s.pages = some (wim.pageAddr, wim.pages)
  image : s.image = some (wim.content.take wim.fileBytes)
  size : s.size = some (UInt64.ofNat wim.fileBytes)
  fileBytes : (wim.content.take wim.fileBytes).length = wim.fileBytes
  backs : Backs wim.pages wim.fileBytes
  unregistered : s.registered = false

theorem note_read_failed {s : Staging} {wim : Interface} {n : ℕ} {status : Status} {data : Bytes}
    (hfailed : status.isError = true ∨ (data.take n).length ≠ n) :
    note s ⟨.firmware (.fileRead wim n), some (status, data)⟩ =
      { s with blame := if status.isError = true then status else efiDeviceError } := by
  simp only [note, advance, refusal, if_pos hfailed]
  by_cases hstatus : status.isError = true
  · rw [if_pos hstatus, if_pos hstatus]
    rfl
  · rw [if_neg hstatus, if_neg hstatus, if_pos (hfailed.resolve_left hstatus)]
    rfl

theorem note_read_whole {s : Staging} {wim : Interface} {n : ℕ} {status : Status} {data : Bytes}
    (hwhole : ¬(status.isError = true ∨ (data.take n).length ≠ n)) :
    note s ⟨.firmware (.fileRead wim n), some (status, data)⟩ =
      { s with image := some (data.take n) } := by
  obtain ⟨hstatus, hlength⟩ := not_or.mp hwhole
  simp only [note, advance, refusal, if_neg hwhole, if_neg hstatus, if_neg hlength]
  rfl

theorem note_close (s : Staging) (f : Interface) :
    note s ⟨.firmware (.fileClose f), some ()⟩ = { s with opened := s.opened.erase f } := rfl

theorem steps_readWim {wim : Interface} {fileBytes : UInt64} {s : Staging}
    (hopened : s.opened = [wim]) (hsize : s.size = some fileBytes) (hasked : s.asked = false)
    (hpages : s.pages = none) (himage : s.image = none) (hregistered : s.registered = false) :
    staging.Steps (fun s' r =>
        match r with
        | .error status => s' = { s with opened := [], asked := true, blame := status }
        | .ok loaded => Loaded s' loaded)
      (readWim wim fileBytes) s := by
  have hmem : wim ∈ s.opened := by rw [hopened]; exact List.mem_singleton.mpr rfl
  have hclosed : s.opened.erase wim = [] := by rw [hopened]; simp
  rw [readWim]
  refine steps_status_bind Prod.fst { s with asked := true }
    (fun r => { s with asked := true, pages := some (r.2, pagesFor fileBytes) })
    (c := .firmware (.gBSAllocatePages (pagesFor fileBytes)))
    (e := fun st => do fw (.fileClose wim); pure (Except.error st))
    ⟨hasked, hpages, fileBytes, hsize, rfl⟩ ?_ ?_ ?_
  · rintro ⟨status, pageAddr⟩
    simp only [note, advance, refusal, errorOf]
    split <;> rfl
  · intro status
    refine steps_call_bind hmem ?_
    intro _
    rw [note_close, hclosed]
    rfl
  rintro ⟨-, pageAddr⟩
  refine steps_call_bind ⟨hmem, fileBytes, pageAddr, _, hsize, rfl, rfl, backs_pagesFor _⟩ ?_
  rintro ⟨status, data⟩
  by_cases hfailed : status.isError = true ∨ (data.take fileBytes.toNat).length ≠ fileBytes.toNat
  · rw [note_read_failed hfailed]
    refine steps_call_bind hmem ?_
    intro _
    rw [note_close, hclosed]
    dsimp only
    rw [if_pos hfailed]
    refine steps_call_bind ⟨rfl, himage⟩ ?_
    intro _
    rw [Program.pure_eq_done, Monitor.steps_done]
    dsimp only
    rw [hpages]
    rfl
  · rw [note_read_whole hfailed]
    refine steps_call_bind hmem ?_
    intro _
    rw [note_close, hclosed]
    dsimp only
    rw [if_neg hfailed]
    have hlength := not_not.mp (not_or.mp hfailed).2
    have hcontent : (splice (zeroed (pagesFor fileBytes * efiPageSize)) 0
        (data.take fileBytes.toNat)).take fileBytes.toNat = data.take fileBytes.toNat := by
      have htake := take_splice (b := zeroed (pagesFor fileBytes * efiPageSize))
        (d := data.take fileBytes.toNat) (Nat.zero_le _)
      rwa [Nat.zero_add, hlength, List.take_zero, List.nil_append] at htake
    refine ⟨rfl, rfl, ?_, ?_, ?_, backs_pagesFor _, hregistered⟩
    · rw [hcontent]
    · rw [UInt64.ofNat_toNat]
      exact hsize
    · rw [hcontent, hlength]

theorem steps_writeResultToNvRam {gResult : SreLoaderResult} {s : Staging}
    (htold : Told s gResult.bytes) :
    staging.Steps (fun s' _ => s' = { s with record := gResult.bytes })
      (writeResultToNvRam gResult) s := by
  refine steps_call_bind ⟨rfl, htold⟩ ?_
  intro _
  rfl

/-- No RAM disk is registered, and the record may say so at any time. -/
theorem told_unregistered {s : Staging} (hs : s.registered = false) (last : UInt32)
    (hlast : last = 0 ∨ last = int32Status s.blame) :
    Told s (recordOf s (phaseOf s) last).bytes := by
  rw [Told, if_neg (by rw [hs]; decide)]
  exact ⟨last, hlast, rfl⟩

/-- Before the file is opened. -/
structure Idle (s : Staging) : Prop where
  opened : s.opened = []
  wimOpened : s.wimOpened = false
  size : s.size = none
  asked : s.asked = false
  pages : s.pages = none
  image : s.image = none
  registered : s.registered = false

structure GivenUp (s : Staging) (gResult : SreLoaderResult) (status : Status) : Prop where
  opened : s.opened = []
  pages : s.pages.isSome = true ↔ s.image.isSome = true
  unregistered : s.registered = false
  blame : s.blame = status
  gResult : gResult = recordOf s (phaseOf s) 0

theorem steps_loadWimIntoPages (imageHandle : Handle) {s : Staging} (hs : Idle s) :
    staging.Steps (fun s' r =>
        match r with
        | (gResult, .error status) => GivenUp s' gResult status
        | (gResult, .ok wim) => gResult = { phaseReached := .wimOpened } ∧ Loaded s' wim)
      (loadWimIntoPages imageHandle {}) s := by
  refine (steps_openWim imageHandle hs.opened).bind ?_
  rintro s₁ (status | wim) hopen
  · subst hopen
    refine ⟨hs.opened, ?_, hs.registered, rfl, ?_⟩
    · simp [hs.pages, hs.image]
    · simp [recordOf, phaseOf, hs.image, hs.wimOpened, hs.registered]
  subst hopen
  have hrecord : recordOf { s with opened := [wim], wimOpened := true } .wimOpened 0 =
      { phaseReached := .wimOpened } := by
    simp [recordOf, hs.image, hs.registered]
  have hphase : phaseOf { s with opened := [wim], wimOpened := true } = .wimOpened := by
    simp [phaseOf, hs.image]
  have htold := told_unregistered (s := { s with opened := [wim], wimOpened := true })
    hs.registered 0 (.inl rfl)
  rw [hphase, hrecord] at htold
  refine (steps_writeResultToNvRam htold).bind ?_
  rintro s₂ _ rfl
  refine (steps_fileSize wim rfl).bind ?_
  rintro s₃ (status | n) hsize
  · obtain ⟨size, rfl⟩ := hsize
    refine ⟨rfl, ?_, hs.registered, rfl, ?_⟩
    · simp [hs.pages, hs.image]
    · simp [recordOf, phaseOf, hs.image, hs.registered]
  obtain ⟨blame, rfl⟩ := hsize
  refine Monitor.Steps.bind (steps_readWim rfl rfl hs.asked hs.pages hs.image hs.registered) ?_
  rintro s₄ (status | loaded) hread
  · subst hread
    refine ⟨rfl, ?_, hs.registered, rfl, ?_⟩
    · simp [hs.pages, hs.image]
    · simp [recordOf, phaseOf, hs.image, hs.registered]
  · exact ⟨rfl, hread⟩

structure Ended (s : Staging) : Prop where
  opened : s.opened = []
  pages : s.pages.isSome = true ↔ s.image.isSome = true
  concluded : Concluded s

theorem steps_reboot {s : Staging} (hs : Ended s) :
    staging.Steps (fun s' status => status = .success ∧ Ended s') reboot s := by
  refine steps_call_bind trivial ?_
  intro _
  refine steps_call_bind ⟨hs.opened, hs.pages, hs.concluded⟩ ?_
  intro _
  exact ⟨rfl, hs⟩

theorem steps_failAndReboot {gResult : SreLoaderResult} {status : Status} {s : Staging}
    (hs : GivenUp s gResult status) :
    staging.Steps (fun s' r => r = .success ∧ Ended s') (failAndReboot gResult status) s := by
  have hrecord : { gResult with lastEfiStatus := int32Status status } =
      recordOf s (phaseOf s) (int32Status s.blame) := by
    rw [hs.gResult, hs.blame]
    rfl
  rw [failAndReboot, hrecord]
  refine (steps_writeResultToNvRam (told_unregistered hs.unregistered _ (.inr rfl))).bind ?_
  rintro s₁ _ rfl
  apply steps_reboot
  refine ⟨hs.opened, hs.pages, ?_⟩
  rw [Concluded, if_neg (by simp [hs.unregistered])]
  rfl

/-- Pages and image of a loaded file, as the record tells them. -/
theorem Loaded.recordOf_eq {s : Staging} {wim : WimPages} (hs : Loaded s wim) (phase : SrePhase) :
    recordOf s phase 0 =
      { phaseReached := phase
        ramDiskRegistered := 0
        wimFileBytes := wim.fileBytes
        ramDiskBaseAddr := wim.pageAddr } := by
  simp only [recordOf, hs.image, hs.pages, hs.unregistered, Option.map_some, Option.getD_some,
    hs.fileBytes]
  rfl

theorem Loaded.phaseOf_eq {s : Staging} {wim : WimPages} (hs : Loaded s wim) :
    phaseOf s = .wimLoaded := by
  simp [phaseOf, hs.image]

theorem Loaded.recorded {s : Staging} {wim : WimPages} (hs : Loaded s wim) (data : Bytes) :
    Loaded { s with record := data } wim :=
  ⟨hs.opened, hs.pages, hs.image, hs.size, hs.fileBytes, hs.backs, hs.unregistered⟩

theorem Loaded.givenUp {s : Staging} {wim : WimPages} (hs : Loaded s wim) (status : Status) :
    GivenUp { s with blame := status } (recordOf s .wimLoaded 0) status where
  opened := hs.opened
  pages := by simp [hs.pages, hs.image]
  unregistered := hs.unregistered
  blame := rfl
  gResult := by
    have hphase : phaseOf { s with blame := status } = .wimLoaded := hs.phaseOf_eq
    rw [hphase]
    rfl

theorem steps_registerRamDisk {wim : WimPages} {s : Staging} (hs : Loaded s wim) :
    staging.Steps (fun s' r => r = .success ∧ Ended s')
      (registerRamDisk (recordOf s .wimLoaded 0) wim) s := by
  have hfail : ∀ status, staging.Steps (fun s' r => r = .success ∧ Ended s')
      (failAndReboot (recordOf s .wimLoaded 0) status) { s with blame := status } :=
    fun status => steps_failAndReboot (hs.givenUp status)
  rw [registerRamDisk]
  refine steps_status_bind Prod.fst s (fun _ => s) (c := .gBSLocateProtocol .ramDisk) trivial ?_
    hfail ?_
  · rintro ⟨status, ramDisk⟩
    simp only [note, advance, refusal, errorOf]
    split <;> rfl
  rintro ⟨-, ramDisk⟩
  refine steps_status_bind Prod.fst s (fun _ => { s with registered := true })
    (c := .ramDiskRegister wim.pageAddr wim.fileBytes wim.content) ?_ ?_ hfail ?_
  · refine ⟨hs.unregistered, hs.opened, wim.pages, _, hs.pages, hs.image, ?_, ?_, rfl, hs.backs⟩
    · rw [hs.fileBytes]
      exact hs.size
    · exact hs.fileBytes.symm
  · rintro ⟨status, path⟩
    simp only [note, advance, refusal, errorOf]
    split <;> rfl
  rintro ⟨-, path⟩
  have htold : ∀ phase, phase = SrePhase.ramdiskReg ∨ phase = .done →
      Told { s with registered := true } (recordOf { s with registered := true } phase 0).bytes := by
    intro phase hphase
    rw [Told, if_pos rfl]
    exact ⟨phase, hphase, rfl⟩
  refine (steps_writeResultToNvRam (htold .ramdiskReg (.inl rfl))).bind ?_
  rintro s₁ _ rfl
  refine Monitor.Steps.bind (steps_writeResultToNvRam (htold .done (.inr rfl))) ?_
  rintro s₂ _ rfl
  apply steps_reboot
  refine ⟨hs.opened, ?_, ?_⟩
  · simp [hs.pages, hs.image]
  · rw [Concluded, if_pos rfl]
    rfl

/-- A call about the boot variables, their buffers or the watchdog. -/
def Preliminary : LoaderCall → Prop
  | .firmware (.gRTSetVariable _ _) | .firmware (.gBSSetWatchdogTimer _)
  | .firmware (.allocateZeroPool _) | .firmware .freePool | .gRTGetVariable _ _ => True
  | _ => False

theorem preliminary_writeCleanedBootOrder (size : ℕ) (boBuf : Bytes) (boSize : ℕ) :
    Only Preliminary (writeCleanedBootOrder size boBuf boSize) := by
  unfold writeCleanedBootOrder
  dsimp only
  split
  · exact ⟨trivial, fun _ => trivial⟩
  · trivial

theorem preliminary_freeBuffers (boBuf newBo : Bool) :
    Only Preliminary (do
      if boBuf = true then
        fw .freePool
      if newBo = true then
        fw .freePool) := by
  have hfree : Only Preliminary (fw .freePool) := (only_call _).mpr trivial
  cases boBuf <;> cases newBo
  · trivial
  · exact hfree
  · exact hfree.bind fun _ => trivial
  · exact hfree.bind fun _ => hfree

theorem preliminary_cleanBootOrder : Only Preliminary cleanBootOrder := by
  refine only_call_bind trivial ?_
  intro probe
  dsimp only
  split
  · refine only_call_bind trivial ?_
    intro boBuf
    refine only_call_bind trivial ?_
    intro newBo
    have hfree := preliminary_freeBuffers boBuf newBo
    split
    · refine only_call_bind trivial ?_
      intro read
      split
      · exact (preliminary_writeCleanedBootOrder _ _ _).bind fun _ => hfree
      · exact hfree
    · exact hfree
  · trivial

theorem permitted_of_preliminary {s : Staging} {c : LoaderCall} (hc : Preliminary c) :
    Permitted s c := by
  unfold Preliminary at hc
  split at hc
  all_goals first | exact absurd hc id | trivial

theorem Idle.preliminary {s : Staging} (hs : Idle s) {c : LoaderCall} (hc : Preliminary c)
    (r : LoaderAnswer c) : Idle (note s ⟨c, some r⟩) := by
  have hblame : ∃ blame, note s ⟨c, some r⟩ = { s with blame := blame } := by
    unfold Preliminary at hc
    split at hc
    all_goals first | exact absurd hc id | exact ⟨_, rfl⟩
  obtain ⟨blame, hblame⟩ := hblame
  rw [hblame]
  exact ⟨hs.opened, hs.wimOpened, hs.size, hs.asked, hs.pages, hs.image, hs.registered⟩

theorem Idle.recorded {s : Staging} (hs : Idle s) (data : Bytes) : Idle { s with record := data } :=
  ⟨hs.opened, hs.wimOpened, hs.size, hs.asked, hs.pages, hs.image, hs.registered⟩

theorem Idle.told {s : Staging} (hs : Idle s) : Told s ({} : SreLoaderResult).bytes := by
  have hrecord : recordOf s (phaseOf s) 0 = {} := by
    simp [recordOf, phaseOf, hs.image, hs.wimOpened, hs.registered]
  rw [← hrecord]
  exact told_unregistered hs.registered 0 (.inl rfl)

theorem steps_preliminary {α : Type} {p : Loader α} (hp : Only Preliminary p) {s : Staging}
    (hs : Idle s) : staging.Steps (fun s' _ => Idle s') p s :=
  Monitor.steps_of_only hp (fun _ _ _ => permitted_of_preliminary) (fun _ _ r h hc => h.preliminary hc r)
    hs

theorem steps_entryPoint (imageHandle : Handle) :
    staging.Steps (fun s' status => status = .success ∧ Ended s') (entryPoint imageHandle) {} := by
  have hidle : Idle {} := ⟨rfl, rfl, rfl, rfl, rfl, rfl, rfl⟩
  have hclear : Only Preliminary clearBootNext := ⟨trivial, fun _ => trivial⟩
  refine (steps_preliminary hclear hidle).bind ?_
  intro s _ hs
  refine (steps_preliminary preliminary_cleanBootOrder hs).bind ?_
  intro s _ hs
  refine steps_call_bind trivial ?_
  intro watchdog
  replace hs := hs.preliminary (c := .firmware (.gBSSetWatchdogTimer 0)) trivial watchdog
  refine (steps_writeResultToNvRam hs.told).bind ?_
  rintro s₁ _ rfl
  refine Monitor.Steps.bind (steps_loadWimIntoPages imageHandle (hs.recorded _)) ?_
  rintro s₂ ⟨gResult, status | wim⟩ hload
  · exact steps_failAndReboot hload
  obtain ⟨rfl, hloaded⟩ := hload
  have htold := told_unregistered hloaded.unregistered 0 (.inl rfl)
  rw [hloaded.phaseOf_eq, hloaded.recordOf_eq] at htold
  refine (steps_writeResultToNvRam htold).bind ?_
  intro s₃ _ hrecorded
  replace hloaded : Loaded s₃ wim := hrecorded ▸ hloaded.recorded _
  have hregister := steps_registerRamDisk hloaded
  rwa [hloaded.recordOf_eq] at hregister

/-- Whatever the firmware answers. -/
theorem entryPoint_staging (imageHandle : Handle) (env : LoaderEnv) :
    let run := (entryPoint imageHandle).run env []
    Guarded (fun h c => Permitted (staging.state h) c) run.1 ∧
      ∀ status, run.2 = some status → status = .success ∧ Ended (staging.state run.1) :=
  (steps_entryPoint imageHandle).sound fun _ _ _ _ => trivial

end SreLoaderStaging
