import OdpPlatform.BootPartitionDevice
import OdpPlatform.InteractionMonitor
import OdpPlatform.NvmeBpWriteReport

/-! # The image and the controllers of NvmeBpWrite

Every volume with an image file has the same image, and each controller is followed by the device
behind it: what its completions make of the boot partitions. -/
namespace NvmeBpWriteMedia

open ByteBuffer InteractionProgram InteractionContract InteractionMonitor FirmwareServices
open BootPartitionDevice NvmeBpWrite

/-- `forced` where a volume may have the force-reflash flag. -/
structure Media where
  files : Interface → Bytes
  image : Bytes
  forced : Bool

namespace Media

variable (M : Media)

def padded : Bytes := padTo targetUploadBytes 0 M.image

def Found : FilePath → Interface → Prop
  | .validationOsWim, file => M.files file = M.image
  | .forceReflashFlag, _ => M.forced = true

/-- What firmware documents of the file protocol: the size of a file, and its bytes from the start. -/
def relies : (c : Call) → Answer c → Prop
  | .fileOpen _ path, (status, file) => status.isError = false → M.Found path file
  | .fileGetInfo file _, (status, _, size) =>
    status.isError = false → size = (M.files file).length
  | .fileRead file size, (status, data) =>
    status.isError = false → data = (M.files file).take size
  | _, _ => True

end Media

abbrev Fleet := Interface → Device

def completion (c : CompletionEntry) : Completion := ⟨c.status, c.sct.toUInt8, c.sc.toUInt8, c.data⟩

theorem completion_accepted {c : CompletionEntry} :
    (completion c).Accepted ↔ rejected c = false := by
  have hsct : c.sct.toUInt8 = 0 ↔ c.sct = 0 := by
    have hlt : c.sct.toNat = (c.statusField >>> 8).toNat % 2 ^ 3 :=
      Nat.and_two_pow_sub_one_eq_mod _ 3
    rw [← UInt8.toNat_inj, ← UInt32.toNat_inj, UInt32.toNat_toUInt8]
    simp only [UInt8.reduceToNat, UInt32.reduceToNat]
    omega
  have hsc : c.sc.toUInt8 = 0 ↔ c.sc = 0 := by
    have hlt : c.sc.toNat = c.statusField.toNat % 2 ^ 8 := Nat.and_two_pow_sub_one_eq_mod _ 8
    rw [← UInt8.toNat_inj, ← UInt32.toNat_inj, UInt32.toNat_toUInt8]
    simp only [UInt8.reduceToNat, UInt32.reduceToNat]
    omega
  rw [← accepted_iff]
  constructor
  · rintro ⟨htransport, hct, hc⟩
    exact ⟨htransport, hsct.mp hct, hsc.mp hc⟩
  · rintro ⟨htransport, hct, hc⟩
    exact ⟨htransport, hsct.mpr hct, hsc.mpr hc⟩

def note (s : Fleet) : Event Answer → Fleet
  | ⟨.passThruOn i p, some c⟩ => Function.update s i ((s i).step (p, completion c))
  | _ => s

/-- `answers` is what more is known of the answers than of the files. -/
def monitor (M : Media) (D : Fleet) (permits : Fleet → Call → Prop)
    (answers : Fleet → (c : Call) → Answer c → Prop) : Monitor Answer Fleet where
  start := D
  step := note
  permits := permits
  relies s c r := M.relies c r ∧ answers s c r

theorem note_harmless {s : Fleet} {c : Call} {r : Answer c} (hc : Harmless c) :
    note s ⟨c, some r⟩ = s := by
  cases c with
  | passThruOn i p =>
    have hdown : ¬p.command.opcode = nvmeAdminFwImageDownloadCmd := fun h => hc (.inr (.inl h))
    have hcommit : ¬p.command.opcode = nvmeAdminFwCommitCmd := fun h => hc (.inr (.inr h))
    have hstep : (s i).step (p, completion r) = s i := by
      simp only [Device.step, if_neg hdown, if_neg hcommit, ite_self]
    change Function.update s i _ = s
    rw [hstep, Function.update_eq_self]
  | _ => rfl

def Same {σ α : Type} (s : σ) (P : α → Prop) (s' : σ) (a : α) : Prop := s' = s ∧ P a

section Files

variable {M : Media} {D s : Fleet} {permits : Fleet → Call → Prop}
variable {answers : Fleet → (c : Call) → Answer c → Prop} {α : Type}

variable (hquiet : ∀ s c, Quiet c → permits s c)
include hquiet

theorem steps_quiet {p : Firmware α} (hp : Only Quiet p) :
    (monitor M D permits answers).Steps (Same s fun _ => True) p s := by
  refine (Monitor.steps_of_only (I := fun s' => s' = s) hp ?_ ?_ rfl).mono fun _ _ h => ⟨h, trivial⟩
  · exact fun s' c _ hc => hquiet s' c hc
  · rintro _ c r rfl hc
    exact note_harmless hc.harmless

theorem steps_ask_bind {c : Call} {f : Answer c → Firmware α} {Q : Fleet → α → Prop}
    (hc : Quiet c)
    (hf : ∀ r, M.relies c r → (monitor M D permits answers).Steps Q (f r) s) :
    (monitor M D permits answers).Steps Q (ask c >>= f) s := by
  refine ⟨hquiet s c hc, fun r hr => ?_⟩
  change (monitor M D permits answers).Steps Q (f r) (note s ⟨c, some r⟩)
  rw [note_harmless hc.harmless]
  exact hf r hr.1

theorem steps_openOnVolume (closeFound : Bool) (path : FilePath) (handle : Handle) :
    (monitor M D permits answers).Steps (Same s fun r => ∀ file, r = some file → M.Found path file)
      (openOnVolume closeFound path handle) s := by
  refine steps_ask_bind hquiet ⟨nofun, nofun⟩ fun ⟨status, cand⟩ _ => ?_
  dsimp only
  split
  · exact ⟨rfl, nofun⟩
  refine steps_ask_bind hquiet ⟨nofun, nofun⟩ fun ⟨status, candRoot⟩ _ => ?_
  dsimp only
  split
  · exact ⟨rfl, nofun⟩
  refine steps_ask_bind hquiet ⟨nofun, nofun⟩ fun ⟨status, file⟩ hopen => ?_
  dsimp only
  split
  · exact steps_ask_bind hquiet ⟨nofun, nofun⟩ fun _ _ => ⟨rfl, nofun⟩
  next hstatus =>
    have hfound : ∀ f, some file = some f → M.Found path f := by
      intro f hf
      cases hf
      exact hopen (Bool.eq_false_iff.mpr hstatus)
    split
    · refine steps_ask_bind hquiet ⟨nofun, nofun⟩ fun _ _ => ?_
      exact steps_ask_bind hquiet ⟨nofun, nofun⟩ fun _ _ => ⟨rfl, hfound⟩
    · exact steps_ask_bind hquiet ⟨nofun, nofun⟩ fun _ _ => ⟨rfl, hfound⟩

theorem steps_searchVolumes (closeFound : Bool) (path : FilePath) (handles : List Handle) :
    (monitor M D permits answers).Steps (Same s fun r => ∀ file, r = some file → M.Found path file)
      (searchVolumes closeFound path handles) s := by
  induction handles with
  | nil => exact ⟨rfl, nofun⟩
  | cons handle rest ih =>
    apply (steps_openOnVolume hquiet closeFound path handle).bind
    rintro _ found ⟨rfl, hfound⟩
    cases found with
    | none => exact ih
    | some file => exact ⟨rfl, hfound⟩

def Located (M : Media) (path : FilePath) : Except Status (Option Interface) → Prop
  | .ok (some file) => M.Found path file
  | .ok none => True
  | .error status => status.isError = true

theorem steps_openOnAnyVolume (closeFound : Bool) (path : FilePath) (imageHandle : Handle) :
    (monitor M D permits answers).Steps (Same s (Located M path))
      (openOnAnyVolume closeFound path imageHandle) s := by
  refine steps_ask_bind hquiet ⟨nofun, nofun⟩ fun ⟨status, loadHandle⟩ _ => ?_
  dsimp only
  split
  next herror => exact ⟨rfl, herror⟩
  apply (steps_quiet hquiet quiet_connectEveryHandle).bind
  rintro t _ ⟨ht, -⟩
  refine steps_ask_bind hquiet ⟨nofun, nofun⟩ fun ⟨status, fsHandles⟩ _ => ?_
  dsimp only
  split
  next herror => exact ⟨ht, herror⟩
  apply (steps_searchVolumes hquiet closeFound path _).bind
  rintro t₁ found ⟨ht₁, hfound⟩
  cases found with
  | some file =>
    exact steps_ask_bind hquiet ⟨nofun, nofun⟩ fun _ _ => ⟨ht₁.trans ht, hfound file rfl⟩
  | none =>
    apply (steps_searchVolumes hquiet closeFound path _).bind
    rintro t₂ found ⟨ht₂, hfound⟩
    refine steps_ask_bind hquiet ⟨nofun, nofun⟩ fun _ _ => ⟨ht₂.trans (ht₁.trans ht), ?_⟩
    cases found with
    | none => trivial
    | some file => exact hfound file rfl

theorem steps_fileExistsOnAnyVolume (imageHandle : Handle) (path : FilePath) :
    (monitor M D permits answers).Steps
      (Same s fun found => found = true → ∃ file, M.Found path file)
      (fileExistsOnAnyVolume imageHandle path) s := by
  apply (steps_openOnAnyVolume hquiet true path imageHandle).bind
  rintro _ r ⟨rfl, hfound⟩
  rcases r with status | _ | file
  · exact ⟨rfl, nofun⟩
  · exact ⟨rfl, nofun⟩
  · exact ⟨rfl, fun _ => ⟨file, hfound⟩⟩

theorem steps_readWimHead (imageHandle : Handle) :
    (monitor M D permits answers).Steps
      (Same s fun r => r.1.isError = false → r.2 = M.image.take checkBytes)
      (readWimHead imageHandle wimFilePath checkBytes) s := by
  apply (steps_openOnAnyVolume hquiet false wimFilePath imageHandle).bind
  rintro _ r ⟨rfl, hfound⟩
  rcases r with status | _ | wim
  · exact ⟨rfl, fun hok => absurd (hfound.symm.trans hok) nofun⟩
  · exact ⟨rfl, nofun⟩
  have hfile : M.files wim = M.image := hfound
  refine steps_ask_bind hquiet ⟨nofun, nofun⟩ fun ⟨status, data⟩ hread => ?_
  refine steps_ask_bind hquiet ⟨nofun, nofun⟩ fun _ _ => ?_
  split
  next herror => exact ⟨rfl, fun hok => absurd (herror.symm.trans hok) nofun⟩
  next hok =>
    refine ⟨rfl, fun _ => ?_⟩
    rw [hread (Bool.eq_false_iff.mpr hok), hfile]
    exact List.take_take ..

theorem steps_fileSize (wim : Interface) :
    (monitor M D permits answers).Steps
      (Same s fun r => ∀ size, r = .ok size → size = (M.files wim).length) (fileSize wim) s := by
  refine steps_ask_bind hquiet ⟨nofun, nofun⟩ fun ⟨status, infoSize, _⟩ _ => ?_
  dsimp only
  split
  · exact steps_ask_bind hquiet ⟨nofun, nofun⟩ fun _ _ => ⟨rfl, nofun⟩
  refine steps_ask_bind hquiet ⟨nofun, nofun⟩ fun allocated _ => ?_
  split
  · exact steps_ask_bind hquiet ⟨nofun, nofun⟩ fun _ _ => ⟨rfl, nofun⟩
  refine steps_ask_bind hquiet ⟨nofun, nofun⟩ fun ⟨status, _, size⟩ hinfo => ?_
  refine steps_ask_bind hquiet ⟨nofun, nofun⟩ fun _ _ => ?_
  dsimp only
  split
  · exact steps_ask_bind hquiet ⟨nofun, nofun⟩ fun _ _ => ⟨rfl, nofun⟩
  next hok =>
    refine ⟨rfl, fun n hn => ?_⟩
    cases hn
    exact hinfo (Bool.eq_false_iff.mpr hok)

structure Holds (M : Media) (wim : WimBuffer) : Prop where
  fits : M.image.length ≤ targetUploadBytes
  padded : wim.paddedBytes = targetUploadBytes
  content : wim.content = M.padded

theorem steps_readWhole {wim : Interface} (hwim : M.files wim = M.image) {chunkBytes : ℕ}
    (hpos : 0 < chunkBytes) :
    (monitor M D permits answers).Steps
      (Same s fun r => ∀ b, r = .ok b → Holds M b ∧ targetUploadBytes % chunkBytes = 0)
      (readWhole wim M.image.length chunkBytes) s := by
  unfold readWhole
  split
  · exact steps_ask_bind hquiet ⟨nofun, nofun⟩ fun _ _ => ⟨rfl, nofun⟩
  next hfits =>
  split
  · exact steps_ask_bind hquiet ⟨nofun, nofun⟩ fun _ _ => ⟨rfl, nofun⟩
  next hchunks =>
  refine steps_ask_bind hquiet ⟨nofun, nofun⟩ fun ⟨status, pageAddr⟩ _ => ?_
  dsimp only
  split
  · exact steps_ask_bind hquiet ⟨nofun, nofun⟩ fun _ _ => ⟨rfl, nofun⟩
  refine steps_ask_bind hquiet ⟨nofun, nofun⟩ fun ⟨status, data⟩ hread => ?_
  refine steps_ask_bind hquiet ⟨nofun, nofun⟩ fun _ _ => ?_
  dsimp only
  split
  · exact steps_ask_bind hquiet ⟨nofun, nofun⟩ fun _ _ => ⟨rfl, nofun⟩
  next hok =>
  split
  · exact steps_ask_bind hquiet ⟨nofun, nofun⟩ fun _ _ => ⟨rfl, nofun⟩
  · refine ⟨rfl, fun b hb => ?_⟩
    cases hb
    have hdata : data = M.image := by
      rw [hread (Bool.eq_false_iff.mpr hok), hwim, List.take_length]
    have hdivides : targetUploadBytes % chunkBytes = 0 := Decidable.not_not.mp hchunks
    have hpadded : (if M.image.length < targetUploadBytes then targetUploadBytes
        else roundUpToChunk M.image.length chunkBytes) = targetUploadBytes := by
      split
      · rfl
      next hlarge =>
        rw [Nat.le_antisymm (Nat.not_lt.mp hfits) (Nat.not_lt.mp hlarge),
          roundUpToChunk_target hpos hdivides]
    refine ⟨⟨Nat.not_lt.mp hfits, hpadded, ?_⟩, hdivides⟩
    dsimp only
    rw [hpadded, hdata, List.take_length]
    unfold splice zeroed Media.padded padTo
    rw [List.take_zero, List.nil_append, Nat.zero_add, List.drop_replicate]

theorem steps_loadWimIntoBuffer (imageHandle : Handle) {chunkBytes : ℕ} (hpos : 0 < chunkBytes) :
    (monitor M D permits answers).Steps
      (Same s fun r => ∀ b, r = .ok b → Holds M b ∧ targetUploadBytes % chunkBytes = 0)
      (loadWimIntoBuffer imageHandle wimFilePath chunkBytes) s := by
  apply (steps_openOnAnyVolume hquiet false wimFilePath imageHandle).bind
  rintro _ r ⟨rfl, hfound⟩
  rcases r with status | _ | wim
  · exact ⟨rfl, nofun⟩
  · exact ⟨rfl, nofun⟩
  have hfile : M.files wim = M.image := hfound
  apply (steps_fileSize hquiet wim).bind
  rintro _ size ⟨rfl, hsize⟩
  cases size with
  | error status => exact ⟨rfl, nofun⟩
  | ok fileBytes =>
    have hlength : fileBytes = M.image.length := by rw [hsize fileBytes rfl, hfile]
    rw [hlength]
    exact steps_readWhole hquiet hfile hpos

end Files

end NvmeBpWriteMedia
