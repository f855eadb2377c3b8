import OdpPlatform.BpRecoveryUpdate
import OdpPlatform.NvmeBpWriteDevice

/-! # From NvmeBpWrite to the RAM disk

Once a commit was accepted, the tool finds nothing to do on later boots, and BpRecoveryLoader
registers the padded image as its RAM disk. -/
namespace NvmeBpWriteDeploy

open ByteBuffer InteractionProgram InteractionContract InteractionMonitor FirmwareServices
open SreLoaderServices BootPartitionDevice NvmeBpWrite NvmeBpWriteMedia NvmeBpWriteDevice
open BootPartitionLayout (IsLogPageRead Device.logPage)
open BpRecoveryUpdate (ServesLogPage Provides Registers appEntry_registers)

/-- The controllers that are found are this one, and log pages show the partitions. -/
def Shows (i : Interface) (s : Fleet) : (c : Call) → Answer c → Prop
  | .gBSHandleInterface _ .nvmExpressPassThru, (status, j) => status.isError = false → j = i
  | .passThruOn j p, c => IsLogPageRead p.command → c.status.isError = false →
      ∃ header : Bytes, header.length = 16 ∧ c.data = Device.logPage (s j) header p.command
  | _, _ => True

def laterBoot (M : Media) (D : Fleet) (i : Interface) : Monitor Answer Fleet :=
  monitor M D (fun _ c => ¬ChangesBp c) (Shows i)

section LaterBoot

variable {M : Media} {D s : Fleet} {i : Interface}

theorem quiet_unchanging (_ : Fleet) (c : Call) (hc : Quiet c) : ¬ChangesBp c := hc.harmless

/-- The log page of BP1 behind the preamble is the head of the partition. -/
theorem bpHead_shown {d : Device} (hsize : (d.content targetBpid.toUInt32).length = bpsizeBytes)
    {header : Bytes} (hheader : header.length = 16) {c : CompletionEntry}
    (hdata : c.data = Device.logPage d header headPacket.command) :
    (c.received headPacket).drop lid15PreambleBytes =
      (d.content targetBpid.toUInt32).take checkBytes := by
  have hbpid : BootPartitionLayout.logPageBpid headPacket.command = targetBpid.toUInt32 := by decide
  have hoffset : BootPartitionLayout.logPageOffset headPacket.command = 0 := by decide
  have hlength : BootPartitionLayout.logPageLength headPacket.command =
      headPacket.transferLength := by decide
  apply bpHead_eq hheader hsize
  rw [hdata, Device.logPage, hbpid, hoffset, hlength, window, List.drop_zero, List.take_take,
    Nat.min_self]

theorem bpHead_image (hcontent : (s i).content targetBpid.toUInt32 = M.padded)
    (hfits : M.image.length ≤ targetUploadBytes) (hhead : checkBytes ≤ M.image.length)
    {c : CompletionEntry} (hshows : Shows i s (.passThruOn i headPacket) c)
    (hok : c.status.isError = false) :
    (c.received headPacket).drop lid15PreambleBytes = M.image.take checkBytes := by
  have hread : IsLogPageRead headPacket.command := by decide
  have hsize : ((s i).content targetBpid.toUInt32).length = bpsizeBytes := by
    rw [hcontent]
    exact length_padTo hfits
  obtain ⟨header, hheader, hdata⟩ := hshows hread hok
  rw [bpHead_shown hsize hheader hdata, hcontent]
  exact List.take_append_of_le_length hhead

theorem steps_readBpHead_bind {α : Type} {f : CompletionEntry × Bytes → Firmware α}
    {Q : Fleet → α → Prop}
    (hf : ∀ c, Shows i s (.passThruOn i headPacket) c →
      (laterBoot M D i).Steps Q (f (c, (c.received headPacket).drop lid15PreambleBytes)) s) :
    (laterBoot M D i).Steps Q (readBpHead i >>= f) s := by
  rw [readBpHead_bind]
  refine ⟨not_changesBp_headPacket i, fun c hc => ?_⟩
  have hsame : (laterBoot M D i).step s ⟨.passThruOn i headPacket, some c⟩ = s :=
    note_harmless (not_changesBp_headPacket i)
  rw [hsame]
  exact hf c hc.2

theorem steps_processController (imageHandle : Handle)
    (hcontent : (s i).content targetBpid.toUInt32 = M.padded)
    (hfits : M.image.length ≤ targetUploadBytes) :
    (laterBoot M D i).Steps (Same s fun _ => True) (processController imageHandle false i) s := by
  apply (steps_quiet quiet_unchanging quiet_allocateHeads).bind
  rintro _ allocated ⟨rfl, -⟩
  split
  · exact ⟨rfl, trivial⟩
  apply (steps_readWimHead quiet_unchanging imageHandle).bind
  rintro t ⟨status, wimHead⟩ ⟨rfl, hhead⟩
  have hnext : (laterBoot M D i).Steps (Same t fun _ => True)
      (freeHeads >>= fun _ => pure LoopExit.next) t := by
    apply (steps_quiet quiet_unchanging quiet_freeHeads).bind
    rintro _ _ ⟨rfl, -⟩
    exact ⟨rfl, trivial⟩
  dsimp only
  split
  · exact hnext
  next hgood =>
    obtain ⟨hok, hlong⟩ := not_or.mp hgood
    have himage : wimHead = M.image.take checkBytes := hhead (Bool.eq_false_iff.mpr hok)
    have hsize : checkBytes ≤ M.image.length := by
      have hle := List.length_take_le' checkBytes M.image
      rw [← himage] at hle
      omega
    refine steps_readBpHead_bind fun c hc => ?_
    dsimp only
    split
    · exact hnext
    next hstatus =>
      have hmatch : compareMem ((c.received headPacket).drop lid15PreambleBytes) wimHead
          checkBytes = true := by
        rw [bpHead_image hcontent hfits hsize hc (Bool.eq_false_iff.mpr hstatus), himage]
        exact beq_self_eq_true _
      rw [if_pos ⟨hmatch, rfl⟩]
      apply (steps_quiet quiet_unchanging quiet_freeHeads).bind
      rintro _ _ ⟨rfl, -⟩
      exact ⟨nofun, fun _ _ => ⟨rfl, trivial⟩⟩

theorem steps_controllerLoop (imageHandle : Handle)
    (hcontent : (s i).content targetBpid.toUInt32 = M.padded)
    (hfits : M.image.length ≤ targetUploadBytes) (handles : List Handle) :
    (laterBoot M D i).Steps (Same s fun _ => True) (controllerLoop imageHandle false handles) s := by
  induction handles with
  | nil => exact ⟨rfl, trivial⟩
  | cons handle rest ih =>
    refine ⟨nofun, fun ⟨status, passThru⟩ hanswer => ?_⟩
    change (laterBoot M D i).Steps _ (if status.isError = true then _ else _) s
    split
    · exact ih
    next hok =>
      have hfound : passThru = i := hanswer.2 (Bool.eq_false_iff.mpr hok)
      subst hfound
      apply (steps_processController imageHandle hcontent hfits).bind
      rintro _ exit ⟨rfl, -⟩
      cases exit with
      | next => exact ih
      | leave => exact ⟨rfl, trivial⟩

theorem steps_entryPoint (imageHandle : Handle)
    (hcontent : (D i).content targetBpid.toUInt32 = M.padded)
    (hfits : M.image.length ≤ targetUploadBytes) (hforced : M.forced = false) :
    (laterBoot M D i).Steps (fun _ _ => True) (entryPoint imageHandle) D := by
  have hreset : (laterBoot M D i).Steps (fun _ _ => True) coldReset D :=
    ⟨nofun, fun _ _ => ⟨nofun, fun _ _ => trivial⟩⟩
  apply (steps_quiet quiet_unchanging quiet_clearBootNext).bind
  rintro _ _ ⟨rfl, -⟩
  refine steps_ask_bind quiet_unchanging ⟨nofun, nofun⟩ fun _ _ => ?_
  apply (steps_fileExistsOnAnyVolume quiet_unchanging imageHandle forceReflashFlagPath).bind
  rintro _ forceFromFlag ⟨rfl, hflag⟩
  have hunforced : forceFromFlag = false := by
    apply Bool.eq_false_iff.mpr
    intro hfound
    obtain ⟨_, htrue⟩ := hflag hfound
    exact Bool.noConfusion (hforced.symm.trans htrue)
  subst hunforced
  refine steps_ask_bind quiet_unchanging ⟨nofun, nofun⟩ fun ⟨status, handles⟩ _ => ?_
  dsimp only
  split
  · exact hreset
  · apply (steps_controllerLoop imageHandle hcontent hfits handles).bind
    rintro _ _ ⟨rfl, -⟩
    exact steps_ask_bind quiet_unchanging ⟨nofun, nofun⟩ fun _ _ => hreset

end LaterBoot

/-- What later boots make of a device: the tool changes nothing any more, and the recovery loader
gets the image. -/
structure Deployed (M : Media) (d : Device) : Prop where
  settled : ∀ (D : Fleet) (i : Interface) (env : FirmwareEnv) (imageHandle : Handle), D i = d →
    Media.Serves { M with forced := false } env →
    (∀ h c r, env h c = some r → Shows i (after D h) c r) →
      Untouched ((entryPoint imageHandle).run env []).1
  recovers : ∀ (env : LoaderEnv) (imageHandle : Handle), ServesLogPage d env → Provides env →
    Registers ((BpRecoveryFlow.appEntry imageHandle).run env []).1 M.padded

end NvmeBpWriteDeploy
