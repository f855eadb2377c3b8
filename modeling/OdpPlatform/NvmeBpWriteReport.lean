import OdpPlatform.InteractionTraces
import OdpPlatform.NvmeBpWriteSkip

/-! # What NvmeBpWrite reports

The unlock, the downloads and the commit are read off the trace of a run, each with its completion,
and compared with the status that WriteBpTestPattern returns. -/
namespace NvmeBpWrite

open ByteBuffer InteractionProgram InteractionContract InteractionTraces FirmwareServices

theorem performs_bind_some {α β : Type} {p : Firmware α} {f : α → Firmware β} {τ : FirmwareTrace}
    {b : β} (hτ : Performs (p >>= f) τ (some b)) :
    ∃ σ a ρ, Performs p σ (some a) ∧ Performs (f a) ρ (some b) ∧ τ = σ ++ ρ := by
  rcases performs_bind.mp hτ with hτ | ⟨-, hnone⟩
  · exact hτ
  · cases hnone

theorem performs_ask_some {β : Type} {c : Call} {f : Answer c → Firmware β} {τ : FirmwareTrace}
    {b : β} (hτ : Performs (ask c >>= f) τ (some b)) :
    ∃ r ρ, τ = ⟨c, some r⟩ :: ρ ∧ Performs (f r) ρ (some b) := by
  rcases hτ with ⟨-, hnone⟩ | hτ
  · cases hnone
  · exact hτ

def changesBp : Call → Bool
  | .passThruOn _ p =>
    p.command.opcode == nvmeAdminSetFeatures || p.command.opcode == nvmeAdminFirmwareImageDownload ||
      p.command.opcode == nvmeAdminFirmwareCommit
  | _ => false

theorem changesBp_iff {c : Call} : changesBp c = true ↔ ChangesBp c := by
  cases c with
  | passThruOn i p => simp [changesBp, ChangesBp, or_assoc]
  | _ => exact iff_of_false Bool.false_ne_true id

def changes (τ : FirmwareTrace) : FirmwareTrace := τ.filter fun e => changesBp e.call

@[simp] theorem changes_append (σ τ : FirmwareTrace) : changes (σ ++ τ) = changes σ ++ changes τ :=
  List.filter_append ..

theorem changes_cons_of {e : Event Answer} (he : ChangesBp e.call) (τ : FirmwareTrace) :
    changes (e :: τ) = e :: changes τ :=
  List.filter_cons_of_pos (changesBp_iff.mpr he)

theorem mem_changes {e : Event Answer} {τ : FirmwareTrace} :
    e ∈ changes τ ↔ e ∈ τ ∧ ChangesBp e.call := by
  rw [changes, List.mem_filter, changesBp_iff]

theorem changes_eq_nil {τ : FirmwareTrace} (hτ : ∀ e ∈ τ, ¬ChangesBp e.call) : changes τ = [] :=
  List.filter_eq_nil_iff.mpr fun e he h => hτ e he (changesBp_iff.mp h)

def Harmless (c : Call) : Prop := ¬ChangesBp c

theorem Quiet.harmless {c : Call} (hc : Quiet c) : Harmless c := fun h => hc.1 h.isCommand

theorem changes_of_harmless {α : Type} {p : Firmware α} {τ : FirmwareTrace} {x : Option α}
    (hp : Only Harmless p) (hτ : Performs p τ x) : changes τ = [] :=
  changes_eq_nil (Only.performs hp hτ)

/-- A harmless step drops out of the changes. -/
theorem performs_harmless {α β : Type} {p : Firmware α} {f : α → Firmware β} {τ : FirmwareTrace}
    {b : β} (hp : Only Harmless p) (hτ : Performs (p >>= f) τ (some b)) :
    ∃ σ a ρ, Performs p σ (some a) ∧ Performs (f a) ρ (some b) ∧ changes τ = changes ρ := by
  obtain ⟨σ, a, ρ, hσ, hρ, rfl⟩ := performs_bind_some hτ
  refine ⟨σ, a, ρ, hσ, hρ, ?_⟩
  rw [changes_append, changes_of_harmless hp hσ, List.nil_append]

theorem harmless_freePages (address pages : ℕ) :
    Only Harmless (ask (.gBSFreePages address pages)) := (only_call _).mpr nofun

theorem changesBp_unlock (i : Interface) : ChangesBp (.passThruOn i unlockPacket) := .inl rfl

theorem changesBp_commit (i : Interface) : ChangesBp (.passThruOn i commitPacket) :=
  .inr (.inr rfl)

theorem harmless_identify (i : Interface) : Harmless (.passThruOn i identifyPacket) := by
  rintro (h | h | h)
  all_goals exact absurd h (by decide)

theorem harmless_readWriteProtection (i : Interface) :
    Harmless (.passThruOn i readWriteProtectionPacket) := by
  rintro (h | h | h)
  all_goals exact absurd h (by decide)

theorem harmless_queryIdentifyController (i : Interface) :
    Only Harmless (queryIdentifyController i) := by
  apply only_ask_bind nofun
  intro allocated
  split
  · trivial
  apply only_ask_bind (harmless_identify i)
  intro completion
  apply only_ask_bind nofun
  intro _
  split
  · trivial
  split <;> trivial

theorem harmless_writeResultToNvRam (gResult : BpResult) :
    Only Harmless (writeResultToNvRam gResult) := only_ask_bind nofun fun _ => trivial

/-- OFST counts dwords. -/
def downloadOffset (c : NvmeCommand) : ℕ := 4 * c.cdw11.toNat

/-- NUMD counts dwords, from 0. -/
def downloadLength (c : NvmeCommand) : ℕ := 4 * (c.cdw10.toNat + 1)

structure Accepted (c : CompletionEntry) : Prop where
  transport : c.status.isError = false
  sct : c.sct = 0
  sc : c.sc = 0

theorem accepted_iff {c : CompletionEntry} : Accepted c ↔ rejected c = false := by
  constructor
  · rintro ⟨htransport, hsct, hsc⟩
    simp [rejected, htransport, hsct, hsc]
  · intro hc
    simp only [rejected, Bool.or_eq_false_iff, bne_eq_false_iff_eq] at hc
    exact ⟨hc.1.1, hc.1.2, hc.2⟩

inductive Downloads (i : Interface) (content : Bytes) : ℕ → ℕ → FirmwareTrace → Prop where
  | done (off : ℕ) : Downloads i content off off []
  | chunk {off stop : ℕ} {p : Packet} {c : CompletionEntry} {rest : FirmwareTrace} :
      p.command.opcode = nvmeAdminFirmwareImageDownload → downloadOffset p.command = off →
      p.transferLength = downloadLength p.command →
      p.buffer = window content off (downloadLength p.command) → Accepted c →
      Downloads i content (off + downloadLength p.command) stop rest →
      Downloads i content off stop (⟨.passThruOn i p, some c⟩ :: rest)

theorem downloadPacket_ranges {buffer : Bytes} {patternSize offsetBytes : ℕ}
    (hpos : 0 < patternSize) (hsize : patternSize % 4 = 0) (hlt : patternSize < 2 ^ 32)
    (hoff : offsetBytes % 4 = 0) (hofflt : offsetBytes < 2 ^ 34) :
    downloadOffset (downloadPacket buffer patternSize offsetBytes).command = offsetBytes ∧
      downloadLength (downloadPacket buffer patternSize offsetBytes).command = patternSize ∧
      (downloadPacket buffer patternSize offsetBytes).transferLength = patternSize := by
  refine ⟨?_, ?_, ?_⟩
  · change 4 * (UInt32.ofNat (offsetBytes / 4)).toNat = _
    rw [UInt32.toNat_ofNat', Nat.mod_eq_of_lt (by omega)]
    omega
  · change 4 * ((UInt32.ofNat (patternSize / 4 - 1)).toNat + 1) = _
    rw [UInt32.toNat_ofNat', Nat.mod_eq_of_lt (by omega)]
    omega
  · change (UInt32.ofNat patternSize).toNat = _
    rw [UInt32.toNat_ofNat', Nat.mod_eq_of_lt hlt]

section Download

variable {i : Interface} {wim : Bytes} {chunkBytes : ℕ}

/-- Without a failure the loop leaves accepted downloads behind that reach as far as it went. -/
theorem downloads_of_performs (hpos : 0 < chunkBytes) (hdword : chunkBytes % 4 = 0)
    (hlt : chunkBytes < 2 ^ 32) : ∀ (chunks offset : ℕ) (last : CompletionEntry) (τ : FirmwareTrace)
    (phaseA : PhaseA), offset % 4 = 0 → offset + chunks * chunkBytes ≤ 2 ^ 34 →
      Performs (downloadLoop i wim chunkBytes chunks offset last) τ (some phaseA) →
      phaseA.failure = none → Downloads i wim offset (offset + chunks * chunkBytes) τ := by
  intro chunks
  induction chunks with
  | zero =>
    rintro offset last τ phaseA - - ⟨rfl, -⟩ -
    rw [Nat.zero_mul, Nat.add_zero]
    exact .done offset
  | succ chunks ih =>
    intro offset last τ phaseA hoff hstop hτ hnone
    rw [Nat.succ_mul] at hstop ⊢
    obtain ⟨c, ρ, rfl, hρ⟩ := performs_ask_some hτ
    split at hρ
    · obtain ⟨-, ⟨⟩⟩ := hρ
      cases hnone
    next hrejected =>
      obtain ⟨hoffset, hlength, htransfer⟩ :=
        @downloadPacket_ranges (window wim offset chunkBytes) _ _ hpos hdword hlt hoff (by omega)
      have hrest := ih (offset + chunkBytes) c ρ phaseA (by omega) (by omega) hρ hnone
      have hstop' : offset + (chunks * chunkBytes + chunkBytes) =
          offset + chunkBytes + chunks * chunkBytes := by omega
      rw [hstop']
      refine .chunk rfl hoffset (htransfer.trans hlength.symm) ?_ ?_ ?_
      · rw [hlength]
        rfl
      · exact accepted_iff.mpr (Bool.eq_false_iff.mpr hrejected)
      · rw [hlength]
        exact hrest

end Download

theorem isError_openOnAnyVolume {closeFound : Bool} {path : FilePath} {image : Handle}
    {τ : FirmwareTrace} {s : Status}
    (hτ : Performs (openOnAnyVolume closeFound path image) τ (some (.error s))) :
    s.isError = true := by
  obtain ⟨⟨status, loadHandle⟩, ρ, rfl, hρ⟩ := performs_ask_some hτ
  dsimp only at hρ
  split at hρ
  next herror =>
    cases hρ.2
    exact herror
  obtain ⟨-, -, ρ, -, hρ, -⟩ := performs_bind_some hρ
  obtain ⟨⟨status, fsHandles⟩, ρ, -, hρ⟩ := performs_ask_some hρ
  dsimp only at hρ
  split at hρ
  next herror =>
    cases hρ.2
    exact herror
  obtain ⟨-, found, ρ, -, hρ, -⟩ := performs_bind_some hρ
  cases found with
  | some file =>
    obtain ⟨-, ρ, -, hρ⟩ := performs_ask_some hρ
    cases hρ.2
  | none =>
    obtain ⟨-, found, ρ, -, hρ, -⟩ := performs_bind_some hρ
    obtain ⟨-, ρ, -, hρ⟩ := performs_ask_some hρ
    cases hρ.2

theorem isError_fileSize {wim : Interface} {τ : FirmwareTrace} {s : Status}
    (hτ : Performs (fileSize wim) τ (some (.error s))) : s.isError = true := by
  obtain ⟨⟨status, infoSize, _⟩, ρ, -, hρ⟩ := performs_ask_some hτ
  dsimp only at hρ
  split at hρ
  · obtain ⟨-, ρ, -, hρ⟩ := performs_ask_some hρ
    cases hρ.2
    split
    next herror => exact herror
    · rfl
  obtain ⟨allocated, ρ, -, hρ⟩ := performs_ask_some hρ
  split at hρ
  · obtain ⟨-, ρ, -, hρ⟩ := performs_ask_some hρ
    cases hρ.2
    rfl
  obtain ⟨⟨status, _, size⟩, ρ, -, hρ⟩ := performs_ask_some hρ
  obtain ⟨-, ρ, -, hρ⟩ := performs_ask_some hρ
  dsimp only at hρ
  split at hρ
  next herror =>
    obtain ⟨-, ρ, -, hρ⟩ := performs_ask_some hρ
    cases hρ.2
    exact herror
  · cases hρ.2

/-- The padded image is as large as the boot partition, in whole chunks. -/
structure Loaded (chunkBytes : ℕ) (wim : WimBuffer) : Prop where
  padded : wim.paddedBytes = targetUploadBytes
  content : wim.content.length = targetUploadBytes
  chunks : targetUploadBytes % chunkBytes = 0

def LoadOutcome (chunkBytes : ℕ) : Except Status WimBuffer → Prop
  | .error s => s.isError = true
  | .ok wim => Loaded chunkBytes wim

theorem roundUpToChunk_target {chunkBytes : ℕ} (hpos : 0 < chunkBytes)
    (hchunks : targetUploadBytes % chunkBytes = 0) :
    roundUpToChunk targetUploadBytes chunkBytes = targetUploadBytes := by
  obtain ⟨k, hk⟩ := Nat.dvd_of_mod_eq_zero hchunks
  rw [roundUpToChunk, hk, Nat.mul_comm, Nat.add_sub_assoc hpos, Nat.mul_add_div hpos,
    Nat.div_eq_of_lt (Nat.sub_lt hpos Nat.one_pos), Nat.add_zero]

theorem loadOutcome_readWhole {wim : Interface} {fileBytes chunkBytes : ℕ} {τ : FirmwareTrace}
    {r : Except Status WimBuffer} (hpos : 0 < chunkBytes)
    (hτ : Performs (readWhole wim fileBytes chunkBytes) τ (some r)) : LoadOutcome chunkBytes r := by
  unfold readWhole at hτ
  split at hτ
  · obtain ⟨-, ρ, -, hρ⟩ := performs_ask_some hτ
    cases hρ.2
    exact rfl
  next hsize =>
  split at hτ
  · obtain ⟨-, ρ, -, hρ⟩ := performs_ask_some hτ
    cases hρ.2
    exact rfl
  next hchunks =>
  obtain ⟨⟨status, pageAddr⟩, ρ, -, hρ⟩ := performs_ask_some hτ
  dsimp only at hρ
  split at hρ
  next herror =>
    obtain ⟨-, ρ, -, hρ⟩ := performs_ask_some hρ
    cases hρ.2
    exact herror
  obtain ⟨⟨status, data⟩, ρ, -, hρ⟩ := performs_ask_some hρ
  obtain ⟨-, ρ, -, hρ⟩ := performs_ask_some hρ
  dsimp only at hρ
  split at hρ
  next herror =>
    obtain ⟨-, ρ, -, hρ⟩ := performs_ask_some hρ
    cases hρ.2
    exact herror
  split at hρ
  · obtain ⟨-, ρ, -, hρ⟩ := performs_ask_some hρ
    cases hρ.2
    exact rfl
  next hread =>
    cases hρ.2
    have hchunks : targetUploadBytes % chunkBytes = 0 := Decidable.not_not.mp hchunks
    have hpadded : (if fileBytes < targetUploadBytes then targetUploadBytes
        else roundUpToChunk fileBytes chunkBytes) = targetUploadBytes := by
      split
      · rfl
      · have hwhole : fileBytes = targetUploadBytes := by omega
        rw [hwhole, roundUpToChunk_target hpos hchunks]
    refine ⟨hpadded, ?_, hchunks⟩
    dsimp only
    rw [hpadded, length_splice, length_zeroed]
    rw [length_zeroed]
    omega

theorem loadOutcome_loadWimIntoBuffer {image : Handle} {path : FilePath} {chunkBytes : ℕ}
    {τ : FirmwareTrace} {r : Except Status WimBuffer} (hpos : 0 < chunkBytes)
    (hτ : Performs (loadWimIntoBuffer image path chunkBytes) τ (some r)) :
    LoadOutcome chunkBytes r := by
  obtain ⟨σ, found, ρ, hσ, hρ, -⟩ := performs_bind_some hτ
  rcases found with s | _ | wim
  · cases hρ.2
    exact isError_openOnAnyVolume hσ
  · cases hρ.2
    exact rfl
  obtain ⟨σ, size, ρ, hσ, hρ, -⟩ := performs_bind_some hρ
  cases size with
  | error s =>
    cases hρ.2
    exact isError_fileSize hσ
  | ok fileBytes => exact loadOutcome_readWhole hpos hρ

theorem granularityBytes_spec (fwug : UInt8) :
    ∃ k, 0 < k ∧ k < 256 ∧ granularityBytes fwug = size4KB * k := by
  unfold granularityBytes
  split
  · exact ⟨1, by decide, by decide, rfl⟩
  next hfwug =>
    refine ⟨fwug.toNat, Nat.pos_of_ne_zero fun hzero => hfwug (.inl ?_), fwug.toNat_lt, ?_⟩
    · exact UInt8.toNat_inj.mp hzero
    · exact Nat.mul_comm ..

theorem maxTransferBytes_spec (mdts : UInt8) :
    ∃ k, 0 < k ∧ k ≤ 2 ^ 19 ∧ maxTransferBytes mdts = size4KB * k := by
  unfold maxTransferBytes
  split
  · exact ⟨256, by decide, by decide, rfl⟩
  split
  · exact ⟨256, by decide, by decide, rfl⟩
  next hmdts =>
    have hlt : mdts.toNat < 20 := Nat.lt_of_not_le hmdts
    exact ⟨2 ^ mdts.toNat, Nat.two_pow_pos _, Nat.pow_le_pow_right Nat.two_pos (by omega), rfl⟩

/-- Whatever the controller identifies itself with. -/
theorem chunkSize_spec (identified : Except Status IdentifyFields) :
    0 < chunkSize identified ∧ chunkSize identified % 4 = 0 ∧ chunkSize identified < 2 ^ 32 := by
  cases identified with
  | error s =>
    have hdefault : chunkSize (.error s) = size4KB := rfl
    rw [hdefault]
    decide
  | ok fields =>
    obtain ⟨k, hk, hklt, hgranularity⟩ := granularityBytes_spec fields.fwug
    obtain ⟨l, hl, hlle, htransfer⟩ := maxTransferBytes_spec fields.mdts
    rw [chunkSize, hgranularity, htransfer]
    unfold size4KB
    omega

def IsUnlock : Call → Prop
  | .passThruOn _ p => p.command.opcode = nvmeAdminSetFeatures
  | _ => False

def Allocates : Call → Prop
  | .allocateZeroPool _ => True
  | _ => False

/-- What the upload may call. -/
def Uploads (c : Call) : Prop := ¬IsUnlock c ∧ ¬Allocates c

theorem uploads_download (i : Interface) (buffer : Bytes) (patternSize offsetBytes : ℕ) :
    Uploads (.passThruOn i (downloadPacket buffer patternSize offsetBytes)) :=
  ⟨show nvmeAdminFirmwareImageDownload ≠ nvmeAdminSetFeatures by decide, nofun⟩

theorem uploads_commit (i : Interface) : Uploads (.passThruOn i commitPacket) :=
  ⟨show nvmeAdminFirmwareCommit ≠ nvmeAdminSetFeatures by decide, nofun⟩

section Phases

variable {i : Interface} {wim : WimBuffer} {gResult : BpResult} {τ : FirmwareTrace} {s : Status}
variable {chunkBytes : ℕ}

theorem uploads_downloadLoop (content : Bytes) (chunks offset : ℕ) (last : CompletionEntry) :
    Only Uploads (downloadLoop i content chunkBytes chunks offset last) := by
  induction chunks generalizing offset last with
  | zero => trivial
  | succ chunks ih =>
    apply only_ask_bind (uploads_download i _ chunkBytes offset)
    intro completion
    split
    · trivial
    · exact ih _ _

theorem uploads_commitPhase : Only Uploads (commitPhase gResult i wim) := by
  apply only_ask_bind ⟨nofun, nofun⟩
  intro _
  apply only_ask_bind (uploads_commit i)
  intro completion
  apply only_ask_bind ⟨nofun, nofun⟩
  intro _
  apply only_ask_bind ⟨nofun, nofun⟩
  intro _
  split <;> trivial

theorem uploads_uploadPhase {unlock : CompletionEntry} :
    Only Uploads (uploadPhase gResult i wim chunkBytes unlock) := by
  apply (uploads_downloadLoop wim.content _ 0 unlock).bind
  intro phaseA
  apply only_ask_bind ⟨nofun, nofun⟩
  intro _
  split
  · exact only_ask_bind ⟨nofun, nofun⟩ fun _ => trivial
  · exact uploads_commitPhase

theorem changes_downloads {content : Bytes} {off stop : ℕ}
    (hτ : Downloads i content off stop τ) : changes τ = τ := by
  induction hτ with
  | done => rfl
  | chunk hopcode _ _ _ _ _ ih =>
    have hchange : ChangesBp (.passThruOn i _) := Or.inr (Or.inl hopcode)
    rw [changes_cons_of hchange, ih]

/-- The commit turns a completion that is no success into an error. -/
theorem commit_of_performs (hτ : Performs (commitPhase gResult i wim) τ (some s)) :
    ∃ c, changes τ = [⟨.passThruOn i commitPacket, some c⟩] ∧
      (s.isError = false → Accepted c) := by
  obtain ⟨-, -, σ, -, hσ, hτ⟩ := performs_harmless (harmless_writeResultToNvRam _) hτ
  obtain ⟨c, ρ, rfl, hρ⟩ := performs_ask_some hσ
  obtain ⟨-, -, ρ, -, hρ, hwrite⟩ := performs_harmless (harmless_writeResultToNvRam _) hρ
  obtain ⟨-, -, ρ, -, hρ, hfree⟩ := performs_harmless (harmless_freePages _ _) hρ
  refine ⟨c, ?_, ?_⟩
  · rw [hτ, changes_cons_of (changesBp_commit i), hwrite, hfree]
    split at hρ
    all_goals
      rw [hρ.1]
      rfl
  · intro hs
    split at hρ
    · cases hρ.2
      cases hs
    next hend =>
      cases hρ.2
      by_cases hsuccess : (c.status = .success ∨ c.status = efiWarnResetRequired) ∧
          c.sct = 0 ∧ c.sc = 0
      · exact ⟨hs, hsuccess.2.1, hsuccess.2.2⟩
      · exact absurd ⟨hsuccess, hs⟩ hend

/-- The whole image in accepted downloads, and an accepted commit behind them. -/
def Uploaded (i : Interface) (τ : FirmwareTrace) : Prop :=
  ∃ content downloads commit, content.length = targetUploadBytes ∧
    Downloads i content 0 targetUploadBytes downloads ∧ Accepted commit ∧
      changes τ = downloads ++ [⟨.passThruOn i commitPacket, some commit⟩]

theorem upload_of_performs {unlock : CompletionEntry} (hpos : 0 < chunkBytes)
    (hdword : chunkBytes % 4 = 0) (hlt : chunkBytes < 2 ^ 32) (hwim : Loaded chunkBytes wim)
    (hτ : Performs (uploadPhase gResult i wim chunkBytes unlock) τ (some s))
    (hs : s.isError = false) : Uploaded i τ := by
  obtain ⟨σ, phaseA, ρ, hloop, hρ, rfl⟩ := performs_bind_some hτ
  obtain ⟨-, -, ρ', -, hρ', hwrite⟩ := performs_harmless (harmless_writeResultToNvRam _) hρ
  cases hfailure : phaseA.failure with
  | some failure =>
    rw [hfailure] at hρ'
    obtain ⟨-, -, ρ, -, hfree, -⟩ := performs_harmless (harmless_freePages _ _) hρ'
    cases hfree.2
    dsimp only [downloadStatus] at hs
    split at hs
    next herror =>
      rw [hs] at herror
      cases herror
    · cases hs
  | none =>
    rw [hfailure] at hρ'
    have hwhole : 0 + wim.paddedBytes / chunkBytes * chunkBytes = targetUploadBytes := by
      rw [hwim.padded, Nat.zero_add, Nat.div_mul_cancel (Nat.dvd_of_mod_eq_zero hwim.chunks)]
    have hdownloads := downloads_of_performs hpos hdword hlt _ 0 unlock σ phaseA rfl
      (by rw [hwhole]; decide) hloop hfailure
    rw [hwhole] at hdownloads
    obtain ⟨c, hcommit, hc⟩ := commit_of_performs hρ'
    refine ⟨wim.content, σ, c, hwim.content, hdownloads, hc hs, ?_⟩
    rw [changes_append, changes_downloads hdownloads, hwrite, hcommit]

theorem unlock_of_performs {r : BpResult × CompletionEntry}
    (hτ : Performs (unlockPhase gResult i) τ (some r)) :
    changes τ = [⟨.passThruOn i unlockPacket, some r.2⟩] := by
  have hread : Only Harmless (readBpWriteProtection i) :=
    (only_call _).mpr (harmless_readWriteProtection i)
  obtain ⟨-, before, ρ₁, -, h₁, hbefore⟩ := performs_harmless hread hτ
  obtain ⟨unlock, ρ₂, rfl, h₂⟩ := performs_ask_some h₁
  obtain ⟨-, -, ρ₃, -, h₃, hwrite⟩ := performs_harmless (harmless_writeResultToNvRam _) h₂
  obtain ⟨-, after, ρ₄, -, h₄, hafter⟩ := performs_harmless hread h₃
  obtain ⟨-, -, ρ₅, -, h₅, hagain⟩ := performs_harmless (harmless_writeResultToNvRam _) h₄
  cases h₅.2
  rw [hbefore, changes_cons_of (changesBp_unlock i), hwrite, hafter, hagain, h₅.1]
  rfl

end Phases

/-- The unlock, the whole image and the commit, all of them accepted and nothing else. -/
def Written (i : Interface) (τ : FirmwareTrace) : Prop :=
  ∃ unlock content downloads commit, Accepted unlock ∧ content.length = targetUploadBytes ∧
    Downloads i content 0 targetUploadBytes downloads ∧ Accepted commit ∧
      changes τ = ⟨.passThruOn i unlockPacket, some unlock⟩ ::
        (downloads ++ [⟨.passThruOn i commitPacket, some commit⟩])

/-- The transport took the unlock, and the controller completed it with an error. -/
def SilentUnlock : Event Answer → Prop
  | ⟨.passThruOn _ p, some c⟩ =>
    p.command.opcode = nvmeAdminSetFeatures ∧ c.status.isError = false ∧ (c.sct ≠ 0 ∨ c.sc ≠ 0)
  | _ => False

theorem SilentUnlock.isUnlock {e : Event Answer} (he : SilentUnlock e) : IsUnlock e.call := by
  obtain ⟨c, r⟩ := e
  cases c with
  | passThruOn i p =>
    cases r with
    | none => exact he.elim
    | some c => exact he.1
  | _ => exact he.elim

theorem SilentUnlock.changesBp {e : Event Answer} (he : SilentUnlock e) : ChangesBp e.call := by
  obtain ⟨c, r⟩ := e
  cases c with
  | passThruOn i p => exact .inl he.isUnlock
  | _ => exact he.elim

theorem silentUnlock_iff {i : Interface} {c : CompletionEntry} (hc : ¬Accepted c) :
    SilentUnlock ⟨.passThruOn i unlockPacket, some c⟩ ↔ c.status.isError = false := by
  constructor
  · rintro ⟨-, hstatus, -⟩
    exact hstatus
  · intro hstatus
    refine ⟨rfl, hstatus, ?_⟩
    by_contra hzero
    rw [not_or, Decidable.not_not, Decidable.not_not] at hzero
    exact hc ⟨hstatus, hzero.1, hzero.2⟩

section Write

variable {i : Interface} {image : Handle} {gResult : BpResult} {τ : FirmwareTrace} {s : Status}

inductive WriteRun (i : Interface) (s : Status) : FirmwareTrace → Prop where
  | unstarted : s.isError = true → WriteRun i s []
  | refused {c : CompletionEntry} : ¬Accepted c → s = c.status →
      WriteRun i s [⟨.passThruOn i unlockPacket, some c⟩]
  | unlocked {c : CompletionEntry} {ρ : FirmwareTrace} : Accepted c → (∀ e ∈ ρ, Uploads e.call) →
      (s.isError = false → Uploaded i ρ) →
      WriteRun i s (⟨.passThruOn i unlockPacket, some c⟩ :: changes ρ)

theorem writeRun_of_performs (hτ : Performs (writeBpTestPattern image gResult i) τ (some s)) :
    WriteRun i s (changes τ) := by
  obtain ⟨-, identified, ρ₁, -, h₁, hidentify⟩ :=
    performs_harmless (harmless_queryIdentifyController i) hτ
  obtain ⟨hpos, hdword, hlt⟩ := chunkSize_spec identified
  have hload := quiet_loadWimIntoBuffer image wimFilePath (chunkSize identified)
  obtain ⟨σ, loaded, ρ₂, hσ, h₂, hwim⟩ :=
    performs_harmless (hload.mono fun _ => Quiet.harmless) h₁
  have houtcome := loadOutcome_loadWimIntoBuffer hpos hσ
  rw [hidentify, hwim]
  cases loaded with
  | error status =>
    cases h₂.2
    rw [h₂.1]
    exact .unstarted houtcome
  | ok wim =>
    obtain ⟨-, -, ρ₃, -, h₃, hwrite⟩ := performs_harmless (harmless_writeResultToNvRam _) h₂
    obtain ⟨σ', ⟨gResult', unlock⟩, ρ₄, hunlock, h₄, rfl⟩ := performs_bind_some h₃
    rw [hwrite, changes_append, unlock_of_performs hunlock]
    dsimp only at h₄ ⊢
    split at h₄
    next hrejected =>
      obtain ⟨-, -, ρ₅, -, h₅, hfree⟩ := performs_harmless (harmless_freePages _ _) h₄
      cases h₅.2
      rw [hfree, h₅.1]
      refine .refused (fun hc => ?_) rfl
      rw [accepted_iff.mp hc] at hrejected
      cases hrejected
    next hrejected =>
      have haccepted := accepted_iff.mpr (Bool.eq_false_iff.mpr hrejected)
      exact .unlocked haccepted (Only.performs uploads_uploadPhase h₄)
        (upload_of_performs hpos hdword hlt houtcome h₄)

theorem exists_silentUnlock_changes :
    (∃ e ∈ changes τ, SilentUnlock e) ↔ ∃ e ∈ τ, SilentUnlock e := by
  constructor
  · rintro ⟨e, he, hsilent⟩
    exact ⟨e, (mem_changes.mp he).1, hsilent⟩
  · rintro ⟨e, he, hsilent⟩
    exact ⟨e, mem_changes.mpr ⟨he, hsilent.changesBp⟩, hsilent⟩

/-- A status that is no error means a write, unless an unlock failed without the status saying
so. -/
theorem written_iff (hτ : Performs (writeBpTestPattern image gResult i) τ (some s)) :
    (s.isError = false → Written i τ) ↔ ¬∃ e ∈ τ, SilentUnlock e := by
  have hrun := writeRun_of_performs hτ
  rw [← exists_silentUnlock_changes, Written]
  generalize changes τ = σ at hrun
  cases hrun with
  | unstarted hs =>
    rw [hs]
    exact iff_of_true nofun (by simp)
  | @refused c hc hs =>
    simp only [List.mem_singleton, exists_eq_left, silentUnlock_iff hc, ← hs]
    constructor
    · intro hwritten hok
      obtain ⟨unlock, content, downloads, commit, -, -, -, -, hchanges⟩ := hwritten hok
      have hlength := congrArg List.length hchanges
      simp at hlength
    · intro hno hok
      exact absurd hok hno
  | @unlocked c ρ hc huploads huploaded =>
    refine iff_of_true (fun hok => ?_) ?_
    · obtain ⟨content, downloads, commit, hcontent, hdownloads, hcommit, hchanges⟩ := huploaded hok
      exact ⟨c, content, downloads, commit, hc, hcontent, hdownloads, hcommit, by rw [hchanges]⟩
    · rintro ⟨e, he, hsilent⟩
      rcases List.mem_cons.mp he with rfl | he
      · obtain ⟨-, -, hsct | hsc⟩ := hsilent
        · exact hsct hc.sct
        · exact hsc hc.sc
      · exact (huploads e (mem_changes.mp he).1).1 hsilent.isUnlock

end Write

/-- An unlock, a download or the commit came back with an error of either kind. -/
def RejectedChange : Event Answer → Prop
  | ⟨.passThruOn i p, some c⟩ => ChangesBp (.passThruOn i p) ∧ ¬Accepted c
  | _ => False

/-- Heads are allocated, as step 5 does first, behind a rejected command. -/
def ReadsBack (τ : FirmwareTrace) : Prop :=
  ∃ pre e post, τ = pre ++ e :: post ∧ Allocates e.call ∧ ∃ x ∈ pre, RejectedChange x

def Unrejected (h : FirmwareTrace) : Prop := ∀ e ∈ h, ¬RejectedChange e

def Silenced (h : FirmwareTrace) : Prop := ∃ e ∈ h, SilentUnlock e

def reportContract : Contract Answer :=
  .ofGuard fun h c => Allocates c → Silenced h ∨ Unrejected h

theorem RejectedChange.changesBp {e : Event Answer} (he : RejectedChange e) : ChangesBp e.call := by
  obtain ⟨c, r⟩ := e
  cases c with
  | passThruOn i p =>
    cases r with
    | none => exact he.elim
    | some c => exact he.1
  | _ => exact he.elim

theorem SilentUnlock.rejected {e : Event Answer} (he : SilentUnlock e) : RejectedChange e := by
  obtain ⟨c, r⟩ := e
  cases c with
  | passThruOn i p =>
    cases r with
    | none => exact he.elim
    | some c =>
      refine ⟨he.changesBp, fun hc => ?_⟩
      obtain ⟨-, -, hsct | hsc⟩ := he
      · exact hsct hc.sct
      · exact hsc hc.sc
  | _ => exact he.elim

theorem Unrejected.not_silenced {h : FirmwareTrace} (hh : Unrejected h) : ¬Silenced h :=
  fun ⟨e, he, hsilent⟩ => hh e he hsilent.rejected

theorem unrejected_nil : Unrejected [] := fun _ he => absurd he List.not_mem_nil

theorem unrejected_of_downloads {i : Interface} {content : Bytes} {off stop : ℕ}
    {τ : FirmwareTrace} (hτ : Downloads i content off stop τ) : Unrejected τ := by
  induction hτ with
  | done => exact unrejected_nil
  | chunk _ _ _ _ haccepted _ ih => exact List.forall_mem_cons.mpr ⟨fun h => h.2 haccepted, ih⟩

theorem Written.unrejected {i : Interface} {τ : FirmwareTrace} (hτ : Written i τ) :
    Unrejected τ := by
  obtain ⟨unlock, content, downloads, commit, hunlock, -, hdownloads, hcommit, hchanges⟩ := hτ
  intro e he hrejected
  have hmem := mem_changes.mpr ⟨he, hrejected.changesBp⟩
  rw [hchanges] at hmem
  rcases List.mem_cons.mp hmem with rfl | hmem
  · exact hrejected.2 hunlock
  rcases List.mem_append.mp hmem with hmem | hmem
  · exact unrejected_of_downloads hdownloads e hmem hrejected
  · cases List.mem_singleton.mp hmem
    exact hrejected.2 hcommit

section Readback

variable {α : Type} {h : FirmwareTrace}

theorem ReadsBack.append (hh : ReadsBack h) (τ : FirmwareTrace) : ReadsBack (h ++ τ) := by
  obtain ⟨pre, e, post, rfl, halloc, hrejected⟩ := hh
  exact ⟨pre, e, post ++ τ, by simp, halloc, hrejected⟩

theorem Silenced.append (hh : Silenced h) (τ : FirmwareTrace) : Silenced (h ++ τ) := by
  obtain ⟨e, he, hsilent⟩ := hh
  exact ⟨e, List.mem_append_left _ he, hsilent⟩

theorem keeps_unrejected {p : Firmware α} (hp : Only Harmless p) :
    Keeps reportContract Unrejected p := by
  apply hp.keeps
  · exact fun h c hh _ _ => .inr hh
  · intro h c r hh hc e he
    rcases List.mem_append.mp he with he | he
    · exact hh e he
    · cases List.mem_singleton.mp he
      exact fun hrejected => hc hrejected.changesBp

/-- Behind a silent unlock nothing is asked of the calls. -/
theorem keeps_readBack (p : Firmware α) :
    Keeps reportContract (fun h => Silenced h ∧ ReadsBack h) p := by
  have hany : Only (fun _ => True) p := by
    induction p with
    | done a => trivial
    | ask c k ih => exact ⟨trivial, ih⟩
    | hang => trivial
  apply hany.keeps
  · exact fun h c hh _ _ => .inl hh.1
  · exact fun h c r hh _ => ⟨hh.1.append _, hh.2.append _⟩

/-- Where an unlock failed silently, the readback followed. -/
def Settled (h : FirmwareTrace) : Prop := Silenced h → ReadsBack h

def Idle (c : Call) : Prop := Harmless c ∧ ¬Allocates c

theorem keeps_settled {p : Firmware α} (hp : Only Idle p) : Keeps reportContract Settled p := by
  apply hp.keeps
  · exact fun h c _ hc halloc => absurd halloc hc.2
  · rintro h c r hh hc ⟨e, he, hsilent⟩
    rcases List.mem_append.mp he with he | he
    · exact (hh ⟨e, he, hsilent⟩).append _
    · cases List.mem_singleton.mp he
      exact absurd hsilent.changesBp hc.1

theorem meets_of_no_allocation {p : Firmware α} (hp : Only (fun c => ¬Allocates c) p)
    (h : FirmwareTrace) : Meets reportContract (fun _ _ => True) p h :=
  hp.keeps (I := fun _ => True) (fun _ _ _ hc halloc => absurd halloc hc)
    (fun _ _ _ _ _ => trivial) h trivial

theorem meets_unlockPhase (gResult : BpResult) (i : Interface) (h : FirmwareTrace) :
    Meets reportContract (fun _ _ => True) (unlockPhase gResult i) h := by
  apply meets_of_no_allocation
  apply only_ask_bind nofun
  intro before
  apply only_ask_bind nofun
  intro unlock
  apply only_ask_bind nofun
  intro _
  apply only_ask_bind nofun
  intro after
  exact only_ask_bind nofun fun _ => trivial

/-- Whatever is allocated during the write is allocated before the unlock. -/
theorem meets_writeBpTestPattern (image : Handle) (gResult : BpResult) (i : Interface)
    (hh : Unrejected h) :
    Meets reportContract (fun _ _ => True) (writeBpTestPattern image gResult i) h := by
  apply (keeps_unrejected (harmless_queryIdentifyController i) h hh).bind
  intro h₁ identified _ hh₁
  have hload := quiet_loadWimIntoBuffer image wimFilePath (chunkSize identified)
  apply (keeps_unrejected (hload.mono fun _ => Quiet.harmless) h₁ hh₁).bind
  intro h₂ loaded _ hh₂
  cases loaded with
  | error status => trivial
  | ok wim =>
    apply (keeps_unrejected (harmless_writeResultToNvRam _) h₂ hh₂).bind
    intro h₃ _ _ _
    apply (meets_unlockPhase _ i h₃).bind
    intro h₄ ⟨gResult', unlock⟩ _ _
    dsimp only
    split
    · apply meets_of_no_allocation
      exact only_ask_bind nofun fun _ => trivial
    · exact meets_of_no_allocation (uploads_uploadPhase.mono fun _ hc => hc.2) h₄

theorem harmless_readBpHead (i : Interface) : Only Harmless (readBpHead i) := by
  refine ⟨not_changesBp_headPacket i, fun completion => trivial⟩

theorem quiet_harmless {p : Firmware α} (hp : Only Quiet p) : Only Harmless p :=
  hp.mono fun _ => Quiet.harmless

theorem harmless_postWriteReadback (image : Handle) (i : Interface) :
    Only Harmless (postWriteReadback image i) := by
  apply (quiet_harmless quiet_allocateHeads).bind
  intro allocated
  split
  · apply (quiet_harmless (quiet_readWimHead image wimFilePath checkBytes)).bind
    intro ⟨status, wimHead⟩
    dsimp only
    split
    · exact quiet_harmless quiet_freeHeads
    · exact (harmless_readBpHead i).bind fun _ => quiet_harmless quiet_freeHeads
  · trivial

/-- Behind a silent unlock the readback comes without fail. -/
theorem settled_postWriteReadback (image : Handle) (i : Interface)
    (hh : Silenced h ∨ Unrejected h) :
    Meets reportContract (fun h' _ => Settled h') (postWriteReadback image i) h := by
  rcases hh with hsilenced | hunrejected
  · refine ⟨fun _ => .inl hsilenced, fun r _ => ?_⟩
    have hback : ReadsBack (h ++ [⟨.allocateZeroPool checkBytes, some r⟩]) := by
      obtain ⟨e, he, hsilent⟩ := hsilenced
      exact ⟨h, _, [], rfl, trivial, e, he, hsilent.rejected⟩
    exact (keeps_readBack _ _ ⟨hsilenced.append _, hback⟩).mono fun _ _ _ hh' _ => hh'.2
  · refine (keeps_unrejected (harmless_postWriteReadback image i) h hunrejected).mono ?_
    exact fun _ _ _ hh' hsilenced => absurd hsilenced hh'.not_silenced

theorem settled_writeAndReadBack (image : Handle) (i : Interface) (hh : Unrejected h) :
    Meets reportContract (fun h' exit => exit = .leave ∧ Settled h') (writeAndReadBack image i) h := by
  apply (Meets.performs (meets_writeBpTestPattern image {} i hh)).bind
  rintro _ s - ⟨-, τ, rfl, hτ⟩
  have hiff := written_iff hτ
  split
  next herror =>
    -- the status is an error, so no unlock was silent
    refine ⟨rfl, fun hsilenced => ?_⟩
    have hnone : ¬∃ e ∈ τ, SilentUnlock e := by
      apply hiff.mp
      rw [herror]
      nofun
    obtain ⟨e, he, hsilent⟩ := hsilenced
    rcases List.mem_append.mp he with he | he
    · exact absurd hsilent.rejected (hh e he)
    · exact absurd ⟨e, he, hsilent⟩ hnone
  next hok =>
    have hstate : Silenced (h ++ τ) ∨ Unrejected (h ++ τ) := by
      by_cases hsilent : ∃ e ∈ τ, SilentUnlock e
      · obtain ⟨e, he, hsilent⟩ := hsilent
        exact .inl ⟨e, List.mem_append_right _ he, hsilent⟩
      · have hwritten := hiff.mpr hsilent (Bool.eq_false_iff.mpr hok)
        exact .inr (List.forall_mem_append.mpr ⟨hh, hwritten.unrejected⟩)
    exact (settled_postWriteReadback image i hstate).bind fun _ _ _ hsettled => ⟨rfl, hsettled⟩

theorem settled_of_unrejected (hh : Unrejected h) : Settled h :=
  fun hsilenced => absurd hsilenced hh.not_silenced

/-- One iteration: the loop goes on without a rejection, or it stops and all is settled. -/
theorem settled_processController (image : Handle) (forceFromFlag : Bool) (i : Interface)
    (hh : Unrejected h) :
    Meets reportContract (fun h' exit => (exit = .next → Unrejected h') ∧ Settled h')
      (processController image forceFromFlag i) h := by
  apply (keeps_unrejected (quiet_harmless quiet_allocateHeads) h hh).bind
  intro h₁ allocated _ hh₁
  split
  · exact ⟨fun _ => hh₁, settled_of_unrejected hh₁⟩
  have hread := quiet_harmless (quiet_readWimHead image wimFilePath checkBytes)
  apply (keeps_unrejected hread h₁ hh₁).bind
  intro h₂ ⟨status, wimHead⟩ _ hh₂
  have hfree : ∀ h', Unrejected h' → Meets reportContract (fun h'' _ => Unrejected h'') freeHeads
      h' := keeps_unrejected (quiet_harmless quiet_freeHeads)
  have hnext : ∀ h', Unrejected h' → Meets reportContract
      (fun h'' exit => (exit = .next → Unrejected h'') ∧ Settled h'')
        (freeHeads >>= fun _ => pure LoopExit.next) h' :=
    fun h' hh' => (hfree h' hh').bind fun _ _ _ hh'' => ⟨fun _ => hh'', settled_of_unrejected hh''⟩
  dsimp only
  split
  · exact hnext h₂ hh₂
  apply (keeps_unrejected (harmless_readBpHead i) h₂ hh₂).bind
  intro h₃ ⟨completion, bpHead⟩ _ hh₃
  dsimp only
  split
  · exact hnext h₃ hh₃
  split
  · apply (hfree h₃ hh₃).bind
    intro h₄ _ _ hh₄
    refine ⟨nofun, fun r _ => ⟨nofun, ?_⟩⟩
    apply settled_of_unrejected
    exact List.forall_mem_append.mpr ⟨hh₄, List.forall_mem_singleton.mpr nofun⟩
  · apply (hfree h₃ hh₃).bind
    intro h₄ _ _ hh₄
    refine (settled_writeAndReadBack image i hh₄).mono ?_
    rintro h₅ exit - ⟨rfl, hsettled⟩
    exact ⟨nofun, hsettled⟩

theorem settled_controllerLoop (image : Handle) (forceFromFlag : Bool) (handles : List Handle)
    (hh : Unrejected h) :
    Meets reportContract (fun h' _ => Settled h') (controllerLoop image forceFromFlag handles)
      h := by
  induction handles generalizing h with
  | nil => exact settled_of_unrejected hh
  | cons handle rest ih =>
    have hask : Only Harmless (ask (.gBSHandleInterface handle .nvmExpressPassThru)) :=
      (only_call _).mpr nofun
    apply (keeps_unrejected hask h hh).bind
    intro h₁ ⟨status, passThru⟩ _ hh₁
    dsimp only
    split
    · exact ih hh₁
    · apply (settled_processController image forceFromFlag passThru hh₁).bind
      rintro h₂ exit - ⟨hnext, hsettled⟩
      cases exit with
      | next => exact ih (hnext rfl)
      | leave => exact hsettled

theorem idle_coldReset : Only Idle coldReset := by
  apply only_ask_bind ⟨nofun, nofun⟩
  intro _
  exact only_ask_bind ⟨nofun, nofun⟩ fun _ => trivial

theorem settled_entryPoint (image : Handle) :
    Meets reportContract (fun h' _ => Settled h') (entryPoint image) [] := by
  apply (keeps_unrejected (quiet_harmless quiet_clearBootNext) [] unrejected_nil).bind
  intro h₁ _ _ hh₁
  have hwatchdog : Only Harmless (ask (.gBSSetWatchdogTimer 0)) := (only_call _).mpr nofun
  apply (keeps_unrejected hwatchdog h₁ hh₁).bind
  intro h₂ _ _ hh₂
  have hflag := quiet_harmless (quiet_fileExistsOnAnyVolume image forceReflashFlagPath)
  apply (keeps_unrejected hflag h₂ hh₂).bind
  intro h₃ forceFromFlag _ hh₃
  have hlocate : Only Harmless (ask (.gBSLocateHandleBuffer (.byProtocol .nvmExpressPassThru))) :=
    (only_call _).mpr nofun
  apply (keeps_unrejected hlocate h₃ hh₃).bind
  intro h₄ ⟨status, handles⟩ _ hh₄
  dsimp only
  split
  · exact keeps_settled idle_coldReset h₄ (settled_of_unrejected hh₄)
  · apply (settled_controllerLoop image forceFromFlag handles hh₄).bind
    intro h₅ _ _ hsettled
    apply keeps_settled _ h₅ hsettled
    exact only_ask_bind ⟨nofun, nofun⟩ fun _ => idle_coldReset

end Readback

/-- The write reports success for what it should not, and the readback follows a rejection, in
exactly the runs where an unlock fails silently. -/
theorem write_reports_completion (image : Handle) (env : FirmwareEnv) :
    (∀ gResult i h, ∃ τ, ((writeBpTestPattern image gResult i).run env h).1 = h ++ τ ∧
      ∀ s, ((writeBpTestPattern image gResult i).run env h).2 = some s →
        ((s.isError = false → Written i τ) ↔ ¬Silenced τ)) ∧
    (¬Silenced ((entryPoint image).run env []).1 → ¬ReadsBack ((entryPoint image).run env []).1) ∧
    (((entryPoint image).run env []).2.isSome = true →
      (¬ReadsBack ((entryPoint image).run env []).1 ↔
        ¬Silenced ((entryPoint image).run env []).1)) := by
  have hsound := (settled_entryPoint image).sound (Contract.ofGuard_admits _ env) (guarded_nil _)
  have honly : ReadsBack ((entryPoint image).run env []).1 →
      Silenced ((entryPoint image).run env []).1 := by
    rintro ⟨pre, e, post, hsplit, halloc, x, hx, hrejected⟩
    rcases hsound.1 pre e post hsplit halloc with hsilenced | hunrejected
    · rw [hsplit]
      exact hsilenced.append _
    · exact absurd hrejected (hunrejected x hx)
  refine ⟨fun gResult i h => ?_, fun hno hback => hno (honly hback), fun hreturned => ?_⟩
  · obtain ⟨τ, hrun, hτ⟩ := performs_run (writeBpTestPattern image gResult i) env h
    refine ⟨τ, hrun, fun s hs => ?_⟩
    rw [hs] at hτ
    exact written_iff hτ
  · obtain ⟨s, hs⟩ := Option.isSome_iff_exists.mp hreturned
    exact not_congr ⟨honly, hsound.2 s hs⟩

/-- The controller completes Set Features with SC = 2, and everything else goes well. -/
def silentEnv : FirmwareEnv
  | _, .gRTSetVariable _ _ => some .success
  | _, .gBSLoadedImageDevice _ => some (.success, 1)
  | _, .gBSLocateHandleBuffer .allHandle => some (efiNotFound, [])
  | _, .gBSLocateHandleBuffer (.byProtocol _) => some (.success, [1])
  | _, .gBSHandleInterface handle _ => some (.success, handle)
  | _, .openVolume fs => some (.success, fs)
  | _, .fileOpen dir _ => some (.success, dir)
  | _, .fileGetInfo _ 0 => some (efiBufferTooSmall, 80, 0)
  | _, .fileGetInfo _ size => some (.success, size, 0)
  | _, .fileRead _ _ => some (.success, [])
  | _, .fileClose _ => some ()
  | _, .allocateZeroPool _ => some true
  | _, .freePool => some ()
  | _, .gBSAllocatePages _ => some (.success, 1)
  | _, .gBSFreePages _ _ => some ()
  | _, .passThruOn _ p =>
    if p.command.opcode = nvmeAdminSetFeatures then some ⟨.success, 0, 0x40000, []⟩
    else some ⟨.success, 0, 0, []⟩
  | _, _ => none

theorem success_without_write :
    ((writeBpTestPattern 0 {} 0).run silentEnv []).2 = some .success ∧
      ¬Written 0 ((writeBpTestPattern 0 {} 0).run silentEnv []).1 := by
  have hstatus : ((writeBpTestPattern 0 {} 0).run silentEnv []).2 = some .success := by
    decide +kernel
  have hone : (changes ((writeBpTestPattern 0 {} 0).run silentEnv []).1).length = 1 := by
    decide +kernel
  refine ⟨hstatus, ?_⟩
  rintro ⟨unlock, content, downloads, commit, -, -, -, -, hchanges⟩
  rw [hchanges] at hone
  simp at hone

end NvmeBpWrite
